import Tailcat.Library.OnesComplement
import Tailcat.Tcp.Packet

/-!
# The Internet checksum

What `csum_add` and `csum_fold` of `src/net/tcp.c` and `src/net/udpmux.c` compute. The running sum is
a 32-bit integer and does not overflow for the strings that fit a packet.

## Main results

* `csumFold_eq_zero`: the checksum of a string is zero if and only if the string verifies.
-/

namespace Tcp

open OnesComplement

lemma toNat_word (b b' : UInt8) :
    (b.toUInt32 <<< 8 ||| b'.toUInt32).toNat = b.toNat * 256 + b'.toNat := by
  have hb := b.toNat_lt
  have hb' := b'.toNat_lt
  have hshift : (b.toUInt32 <<< 8).toNat = b.toNat <<< 8 := by
    rw [UInt32.toNat_shiftLeft, Nat.mod_eq_of_lt]
    · rfl
    · rw [Nat.shiftLeft_eq]
      change b.toNat * 2 ^ 8 < _
      omega
  rw [UInt32.toNat_or, hshift, UInt8.toNat_toUInt32, ← Nat.shiftLeft_add_eq_or_of_lt (by omega),
    Nat.shiftLeft_eq]

lemma toNat_csumAdd (sum : UInt32) (l : List UInt8) :
    (csumAdd sum l).toNat = (sum.toNat + wordSum l) % 2 ^ 32 := by
  induction sum, l using csumAdd.induct with
  | case1 sum =>
    rw [csumAdd, wordSum, weigh, Nat.add_zero, Nat.mod_eq_of_lt sum.toNat_lt]
  | case2 sum b =>
    have hword : (b.toUInt32 <<< 8).toNat = b.toNat * 256 := by
      have h := toNat_word b 0
      simpa using h
    rw [csumAdd, UInt32.toNat_add, hword, wordSum, weigh, weigh, Nat.add_zero]
  | case3 sum b b' rest ih =>
    rw [csumAdd, ih, UInt32.toNat_add, toNat_word, Nat.mod_add_mod]
    simp only [wordSum, weigh]
    congr 1
    omega

lemma toNat_csumFold (sum : UInt32) :
    ((csumFold sum).toNat + sum.toNat) % 65535 = 0 ∧
      ((csumFold sum).toNat = 0 ↔ sum.toNat ≠ 0 ∧ sum.toNat % 65535 = 0) := by
  have hlt := sum.toNat_lt
  induction sum using csumFold.induct with
  | case1 sum hcarry ih =>
    obtain ⟨hmod, hzero⟩ := ih (UInt32.toNat_lt _)
    rw [csumFold, if_pos hcarry]
    rw [toNat_fold] at hmod hzero
    refine ⟨by omega, hzero.trans ⟨fun h => ?_, fun h => ?_⟩⟩ <;> constructor <;> omega
  | case2 sum hsmall =>
    have hlow : sum.toNat < 65536 := by
      have h0 : (sum >>> 16).toNat = 0 := by rw [not_not.mp hsmall]; rfl
      rw [UInt32.toNat_shiftRight, Nat.shiftRight_eq_div_pow] at h0
      change sum.toNat / 65536 = 0 at h0
      omega
    have hcompl : (~~~sum).toUInt16.toNat = 65535 - sum.toNat := by
      rw [UInt32.toNat_toUInt16, UInt32.toNat_not]
      have : UInt32.size = 4294967296 := rfl
      omega
    rw [csumFold, if_neg hsmall]
    omega

/-- The checksum over a string is zero if and only if the string verifies. -/
theorem csumFold_eq_zero {sum : UInt32} {l : List UInt8} (hsum : sum.toNat = wordSum l) :
    csumFold sum = 0 ↔ Verifies l := by
  rw [← UInt16.toNat_inj, Verifies, ← hsum]
  exact (toNat_csumFold sum).2

end Tcp
