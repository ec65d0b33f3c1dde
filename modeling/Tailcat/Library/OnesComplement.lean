import Mathlib.Data.UInt

/-!
# Ones-complement sums

The sum of the big-endian 16-bit words of a byte string, byte by byte: a byte at an even position
weighs 256, one at an odd position 1. A string whose sum is a positive multiple of `2 ^ 16 - 1`
verifies.

## Main results

* `not_verifies_flip`: a string that verifies no longer does so after one bit has changed.
-/

namespace OnesComplement

/-- The weighted sum of the bytes, from a position whose byte is the high half of its word or not. -/
def weigh : Bool → List UInt8 → ℕ
  | _, [] => 0
  | true, b :: l => b.toNat * 256 + weigh false l
  | false, b :: l => b.toNat + weigh true l

def wordSum (l : List UInt8) : ℕ := weigh true l

def Verifies (l : List UInt8) : Prop := wordSum l ≠ 0 ∧ wordSum l % 65535 = 0

/-- The weight of the byte at position `i`. -/
def weight (high : Bool) (i : ℕ) : ℕ := if (i % 2 = 0) = high then 256 else 1

lemma weight_succ (high : Bool) (i : ℕ) : weight high (i + 1) = weight (!high) i := by
  unfold weight
  cases high <;> simp <;> split_ifs <;> omega

lemma weigh_append (high : Bool) (l l' : List UInt8) :
    weigh high (l ++ l') = weigh high l + weigh (xor high (decide (l.length % 2 = 1))) l' := by
  induction l generalizing high with
  | nil => simp [weigh]
  | cons b l ih =>
    have hpar : decide ((l.length + 1) % 2 = 1) = !decide (l.length % 2 = 1) := by
      rw [Bool.eq_iff_iff]
      simp
      omega
    cases high <;> simp [weigh, ih, hpar, Nat.add_assoc]

variable {l : List UInt8} {i k : ℕ}

/-- The sum of two parts, if the words of the second are not torn. -/
theorem wordSum_append (heven : l.length % 2 = 0) (l' : List UInt8) :
    wordSum (l ++ l') = wordSum l + wordSum l' := by
  rw [wordSum, weigh_append, decide_eq_false (by omega)]
  rfl

lemma wordSum_le (l : List UInt8) : wordSum l ≤ 255 * 256 * l.length := by
  have hweigh : ∀ (high : Bool) (l : List UInt8), weigh high l ≤ 255 * 256 * l.length := by
    intro high l
    induction l generalizing high with
    | nil => exact Nat.zero_le _
    | cons b l ih =>
      have hb := b.toNat_lt
      cases high with
      | true =>
        have := ih false
        simp only [weigh, List.length_cons]
        omega
      | false =>
        have := ih true
        simp only [weigh, List.length_cons]
        omega
  exact hweigh true l

lemma weigh_set (high : Bool) (l : List UInt8) (hi : i < l.length) (b : UInt8) :
    weigh high (l.set i b) + weight high i * l[i].toNat =
      weigh high l + weight high i * b.toNat := by
  induction l generalizing high i with
  | nil => exact absurd hi (Nat.not_lt_zero i)
  | cons a l ih =>
    cases i with
    | zero => cases high <;> simp [weigh, weight] <;> omega
    | succ i =>
      have hi' : i < l.length := Nat.lt_of_succ_lt_succ hi
      have h := ih (!high) hi'
      rw [weight_succ, List.set_cons_succ, List.getElem_cons_succ]
      cases high with
      | true =>
        simp only [weigh, Bool.not_true] at h ⊢
        omega
      | false =>
        simp only [weigh, Bool.not_false] at h ⊢
        omega

/-! ## Changing a bit -/

/-- The byte with bit `k` changed. -/
def flipBit (b : UInt8) (k : ℕ) : UInt8 := b ^^^ UInt8.ofNat (2 ^ k)

lemma toNat_flipBit (b : UInt8) (hk : k < 8) :
    (flipBit b k).toNat = b.toNat + 2 ^ k ∨ (flipBit b k).toNat + 2 ^ k = b.toNat := by
  have hpow : (UInt8.ofNat (2 ^ k)).toNat = 2 ^ k := by
    have : ∀ k < 8, (UInt8.ofNat (2 ^ k)).toNat = 2 ^ k := by decide
    exact this k hk
  have hall : ∀ n < 256, ∀ k < 8, n ^^^ 2 ^ k = n + 2 ^ k ∨ (n ^^^ 2 ^ k) + 2 ^ k = n := by
    decide +kernel
  rw [flipBit, UInt8.toNat_xor, hpow]
  exact hall b.toNat b.toNat_lt k hk

lemma two_pow_mod_ne_zero (hk : k < 16) : 2 ^ k % 65535 ≠ 0 := by
  have hall : ∀ k < 16, 2 ^ k % 65535 ≠ 0 := by decide
  exact hall k hk

/-- A string that verifies does not verify with one bit changed. -/
theorem not_verifies_flip (h : Verifies l) (hi : i < l.length) (hk : k < 8) :
    ¬Verifies (l.set i (flipBit l[i] k)) := by
  rintro ⟨-, hmod⟩
  obtain ⟨-, hmod'⟩ := h
  have hset := weigh_set true l hi (flipBit l[i] k)
  rw [show weigh true l = wordSum l from rfl,
    show weigh true (l.set i (flipBit l[i] k)) = wordSum (l.set i (flipBit l[i] k)) from rfl] at hset
  -- The two sums differ by a power of two.
  obtain ⟨j, hj, hdiff⟩ : ∃ j < 16, wordSum (l.set i (flipBit l[i] k)) = wordSum l + 2 ^ j ∨
      wordSum (l.set i (flipBit l[i] k)) + 2 ^ j = wordSum l := by
    have hweight : ∃ j < 16, weight true i * 2 ^ k = 2 ^ j := by
      unfold weight
      split_ifs
      · exact ⟨8 + k, by omega, by rw [pow_add, show 2 ^ 8 = 256 from rfl]⟩
      · exact ⟨k, by omega, by rw [one_mul]⟩
    obtain ⟨j, hj, hjk⟩ := hweight
    refine ⟨j, hj, ?_⟩
    rcases toNat_flipBit l[i] hk with hflip | hflip
    · rw [hflip, Nat.mul_add] at hset
      omega
    · rw [← hflip, Nat.mul_add] at hset
      omega
  have hne := two_pow_mod_ne_zero hj
  omega

end OnesComplement
