import Mathlib.Data.Nat.Basic
import Mathlib.Tactic.Common

/-!
# Bitmaps in words

A bitmap of `n * w` bits is a vector of `n` words of `w` bits; bit `i` is bit `i % w` of word `i / w`.

## Main results

* `test_mark` and `test_clear`: marking and clearing a bit change that bit only;
* `test_clearRun`: clearing the residues of a run of numbers.
-/

/-- A bitmap of `n` words of `w` bits. -/
abbrev Bitmap (n w : ℕ) := Vector (BitVec w) n

namespace Bitmap

variable {n w k a : ℕ} (m : Bitmap n w)

def empty (n w : ℕ) : Bitmap n w := .replicate n 0

/-- Word `k`. -/
def word (k : ℕ) : BitVec w := m[k]?.getD 0

/-- Whether bit `i` is set. -/
def test (i : ℕ) : Bool := (m.word (i / w)).getLsbD (i % w)

/-- Set bit `i`. -/
def mark (i : ℕ) : Bitmap n w := m.setIfInBounds (i / w) (m.word (i / w) ||| 1#w <<< (i % w))

/-- Clear bit `i`. -/
def clear (i : ℕ) : Bitmap n w :=
  m.setIfInBounds (i / w) (m.word (i / w) &&& ~~~(1#w <<< (i % w)))

/-- Clear the bits of the `k` numbers after `a`, each taken modulo `size`, one after the other. -/
def clearRun (size a : ℕ) : ℕ → Bitmap n w
  | 0 => m
  | k + 1 => (clearRun size a k).clear ((a + (k + 1)) % size)

@[simp]
lemma test_empty (i : ℕ) : (empty n w).test i = false := by
  have hword : (empty n w).word (i / w) = 0 := by
    simp only [word, empty, Vector.getElem?_replicate]
    split <;> rfl
  rw [test, hword, BitVec.ofNat_eq_ofNat, BitVec.getLsbD_zero]

lemma word_setIfInBounds (hk : k < n) (x : BitVec w) (l : ℕ) :
    word (m.setIfInBounds k x) l = if k = l then x else m.word l := by
  unfold word
  rw [Vector.getElem?_setIfInBounds]
  split
  · rfl
  · rfl

lemma getLsbD_one_shiftLeft {b : ℕ} (ha : a < w) : (1#w <<< a).getLsbD b = decide (a = b) := by
  rw [← BitVec.twoPow_eq]
  simp [ha]

variable {m} {i j : ℕ}

lemma place (h : i < n * w) : i / w < n ∧ i % w < w := by
  have hw : 0 < w := Nat.pos_of_ne_zero fun h0 => by simp [h0] at h
  exact ⟨Nat.div_lt_of_lt_mul (by rwa [Nat.mul_comm]), Nat.mod_lt i hw⟩

lemma eq_of_div_eq_of_mod_eq (hdiv : i / w = j / w) (hmod : i % w = j % w) : i = j := by
  rw [← Nat.div_add_mod i w, hdiv, hmod, Nat.div_add_mod]

/-- Marking a bit sets that bit and no other. -/
theorem test_mark (hi : i < n * w) : (m.mark i).test j = (decide (i = j) || m.test j) := by
  obtain ⟨hin, hiw⟩ := place hi
  unfold test mark
  rw [word_setIfInBounds m hin]
  split
  · next hdiv =>
    rw [BitVec.getLsbD_or, getLsbD_one_shiftLeft hiw, hdiv, Bool.or_comm]
    congr 1
    exact decide_eq_decide.mpr ⟨eq_of_div_eq_of_mod_eq hdiv, fun h => h ▸ rfl⟩
  · next hdiv =>
    have hne : i ≠ j := fun h => hdiv (h ▸ rfl)
    simp [hne]

/-- Clearing a bit clears that bit and no other. -/
theorem test_clear (hi : i < n * w) (hj : j < n * w) :
    (m.clear i).test j = (decide (i ≠ j) && m.test j) := by
  obtain ⟨hin, hiw⟩ := place hi
  have hjw := (place hj).2
  unfold test clear
  rw [word_setIfInBounds m hin]
  split
  · next hdiv =>
    have hbit : decide (i % w = j % w) = decide (i = j) :=
      decide_eq_decide.mpr ⟨eq_of_div_eq_of_mod_eq hdiv, fun h => h ▸ rfl⟩
    rw [BitVec.getLsbD_and, BitVec.getLsbD_not, getLsbD_one_shiftLeft hiw, hbit, hdiv,
      Bool.and_comm]
    simp [hjw]
  · next hdiv =>
    have hne : i ≠ j := fun h => hdiv (h ▸ rfl)
    simp [hne]

/-- Clearing a run of numbers clears the bits of their residues and no others. -/
theorem test_clearRun (hpos : 0 < n * w) (hj : j < n * w) :
    (m.clearRun (n * w) a k).test j = true ↔
      m.test j = true ∧ ∀ l, a < l → l ≤ a + k → l % (n * w) ≠ j := by
  induction k with
  | zero =>
    exact ⟨fun h => ⟨h, fun l _ _ => by omega⟩, fun h => h.1⟩
  | succ k ih =>
    rw [clearRun, test_clear (Nat.mod_lt _ hpos) hj, Bool.and_eq_true, decide_eq_true_iff, ih]
    constructor
    · rintro ⟨hne, htest, hrun⟩
      refine ⟨htest, fun l hlow hhigh => ?_⟩
      rcases Nat.eq_or_lt_of_le hhigh with rfl | hlt
      · exact hne
      · exact hrun l hlow (by omega)
    · rintro ⟨htest, hrun⟩
      exact ⟨hrun _ (by omega) (le_refl _), htest, fun l hlow hhigh => hrun l hlow (by omega)⟩

end Bitmap
