import Mathlib.Data.UInt

/-!
# Serial numbers modulo `2 ^ 32`

A position `n : ℕ` of a counter is written as `place base n`, the serial number `n` places after
`base`. The signed 32-bit difference of two serial numbers is the difference of their positions as
long as these are less than `2 ^ 31` apart, wherever the counter wraps.

## Main results

* `toNat_place_sub` and `toInt_place_sub`: differences recover distances;
* `place_inj`: positions closer than `2 ^ 32` have different serial numbers.
-/

namespace SerialNumber

/-- The serial number `n` places after `base`. -/
def place (base : UInt32) (n : ℕ) : UInt32 := base + UInt32.ofNat n

variable (base : UInt32) (n : ℕ) {m n : ℕ}

lemma toNat_place : (place base n).toNat = (base.toNat + n) % 2 ^ 32 := by
  rw [place, UInt32.toNat_add, UInt32.toNat_ofNat']
  omega

@[simp]
lemma place_zero : place base 0 = base := by
  apply UInt32.toNat_inj.mp
  rw [toNat_place]
  have := base.toNat_lt
  omega

@[simp]
lemma place_place (m n : ℕ) : place (place base m) n = place base (m + n) := by
  apply UInt32.toNat_inj.mp
  rw [toNat_place, toNat_place, toNat_place]
  omega

lemma place_add_ofNat (m n : ℕ) : place base m + UInt32.ofNat n = place base (m + n) := by
  rw [← place_place, place, place]

lemma place_add_one : place base n + 1 = place base (n + 1) := place_add_ofNat base n 1

lemma place_add_one_base : place (base + 1) n = place base (n + 1) := by
  have h : base + 1 = place base 1 := by rw [← place_add_one, place_zero]
  rw [h, place_place, Nat.add_comm]

lemma place_succ_sub_one : place base (n + 1) - 1 = place base n := by
  rw [← place_add_one, UInt32.add_sub_cancel]

lemma eq_place (base a : UInt32) : a = place base (a - base).toNat := by
  rw [place, UInt32.ofNat_toNat, UInt32.add_comm, UInt32.sub_add_cancel]

/-- The unsigned difference recovers a forward distance below `2 ^ 32`. -/
theorem toNat_place_sub (hle : m ≤ n) (hlt : n < m + 2 ^ 32) :
    (place base n - place base m).toNat = n - m := by
  rw [UInt32.toNat_sub, toNat_place, toNat_place]
  omega

/-- Positions closer than `2 ^ 32` have different serial numbers. -/
theorem place_inj (hm : m < n + 2 ^ 32) (hn : n < m + 2 ^ 32) (h : place base m = place base n) :
    m = n := by
  have h' := congrArg UInt32.toNat h
  rw [toNat_place, toNat_place] at h'
  omega

lemma toInt_toInt32 (d : UInt32) :
    d.toInt32.toInt = if d.toNat < 2 ^ 31 then (d.toNat : ℤ) else (d.toNat : ℤ) - 2 ^ 32 := by
  have h := BitVec.toInt_eq_toNat_cond d.toBitVec
  change d.toBitVec.toInt = _
  rw [h, UInt32.toNat_toBitVec]
  split <;> split <;> omega

/-- The signed difference recovers a distance below `2 ^ 31` in either direction. -/
theorem toInt_place_sub (hm : m < n + 2 ^ 31) (hn : n ≤ m + 2 ^ 31) :
    (place base m - place base n).toInt32.toInt = (m : ℤ) - n := by
  rw [toInt_toInt32, UInt32.toNat_sub, toNat_place, toNat_place]
  split <;> omega

end SerialNumber
