import Mathlib.Data.Nat.Digits.Lemmas
import Mathlib.Data.UInt

/-!
# Decimal numbers

The decimal text of a natural number or an integer, as `%u` and `%d` print it.
-/

namespace Decimal

def ofNat (n : ℕ) : List UInt8 :=
  if n = 0 then [0x30] else (Nat.digits 10 n).reverse.map fun d => (0x30 + d).toUInt8

def ofInt (z : ℤ) : List UInt8 :=
  if z < 0 then 0x2d :: ofNat z.natAbs else ofNat z.natAbs

lemma toNat_digit {d : ℕ} (h : d < 10) : ((0x30 + d).toUInt8).toNat = 0x30 + d := by
  rw [UInt8.toNat_ofNat']
  omega

lemma ofNat_of_ne_zero {n : ℕ} (h : n ≠ 0) :
    ofNat n = (Nat.digits 10 n).reverse.map fun d => (0x30 + d).toUInt8 := if_neg h

lemma ofNat_ne_nil (n : ℕ) : ofNat n ≠ [] := by
  unfold ofNat
  split_ifs with h
  · exact List.cons_ne_nil _ _
  intro hnil
  rw [List.map_eq_nil_iff, List.reverse_eq_nil_iff, Nat.digits_eq_nil_iff_eq_zero] at hnil
  exact h hnil

lemma digit_of_mem {n : ℕ} {b : UInt8} (h : b ∈ ofNat n) : 0x30 ≤ b.toNat ∧ b.toNat ≤ 0x39 := by
  unfold ofNat at h
  split_ifs at h
  · rw [List.mem_singleton.mp h]
    decide
  · obtain ⟨d, hd, rfl⟩ := List.mem_map.mp h
    have hlt := Nat.digits_lt_base (by decide) (List.mem_reverse.mp hd)
    rw [toNat_digit hlt]
    omega

lemma head_ne_zero {n : ℕ} (h : n ≠ 0) : (ofNat n).head? ≠ some 0x30 := by
  rw [ofNat_of_ne_zero h, List.head?_map, List.head?_reverse]
  intro hhead
  obtain ⟨d, hd, hdigit⟩ := Option.map_eq_some_iff.mp hhead
  have hne : Nat.digits 10 n ≠ [] := Nat.digits_ne_nil_iff_ne_zero.mpr h
  rw [List.getLast?_eq_some_getLast hne, Option.some.injEq] at hd
  have hlast := Nat.getLast_digit_ne_zero 10 h
  have hlt := Nat.digits_lt_base (by decide) (List.getLast_mem hne)
  have htoNat := congrArg UInt8.toNat hdigit
  rw [toNat_digit (hd ▸ hlt)] at htoNat
  change 48 + d = 48 at htoNat
  omega

lemma ofDigits_ofNat (n : ℕ) :
    Nat.ofDigits 10 ((ofNat n).reverse.map fun d => d.toNat - 0x30) = n := by
  unfold ofNat
  split_ifs with h
  · rw [h]
    rfl
  rw [← List.map_reverse, List.reverse_reverse, List.map_map]
  have hdigit : ∀ d ∈ Nat.digits 10 n,
      ((fun d : UInt8 => d.toNat - 0x30) ∘ fun d => (0x30 + d).toUInt8) d = id d := by
    intro d hd
    have hlt := Nat.digits_lt_base (by decide) hd
    change ((0x30 + d).toUInt8).toNat - 0x30 = d
    rw [toNat_digit hlt, Nat.add_sub_cancel_left]
  rw [List.map_congr_left hdigit, List.map_id, Nat.ofDigits_digits]

end Decimal
