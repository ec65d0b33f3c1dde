import Mathlib.Data.Int.ModEq
import Mathlib.Data.List.Basic

/-!
# Ring buffers

A ring of fixed capacity over a block of memory: `len` elements are held, starting at the cell `off`
and going on past the end of the block to its beginning; the bounds on both are fields. `toList` reads
the ring as a queue, on which `push`, `drop` and `peek` act.

## Main results

* `toList_push`, `toList_drop` and `peek_eq`.
-/

/-- A ring of capacity `cap` over the memory `mem`. -/
structure RingBuffer (α : Type*) (cap : ℕ) where
  /-- The memory block; only the cells below `cap` are used. -/
  mem : ℕ → α
  /-- The cell of the first element. -/
  off : ℕ
  /-- How many elements are held. -/
  len : ℕ
  off_lt : off < cap
  len_le : len ≤ cap

namespace RingBuffer

variable {α : Type*} {cap i n : ℕ}

def empty (mem : ℕ → α) (h : 0 < cap) : RingBuffer α cap :=
  { mem, off := 0, len := 0, off_lt := h, len_le := Nat.zero_le _ }

def space (r : RingBuffer α cap) : ℕ := cap - r.len

/-- The element at index `i` of the queue. -/
def get (r : RingBuffer α cap) (i : ℕ) : α := r.mem ((r.off + i) % cap)

/-- The `n` elements from index `i` on, read cell by cell. -/
def peek (r : RingBuffer α cap) (i n : ℕ) : List α := (List.range n).map fun j => r.get (i + j)

def toList (r : RingBuffer α cap) : List α := r.peek 0 r.len

/-- Store `xs` in consecutive cells from `pos` on, wrapping at `cap`. -/
def store (cap : ℕ) (mem : ℕ → α) (pos : ℕ) : List α → ℕ → α
  | [] => mem
  | x :: xs => store cap (Function.update mem (pos % cap) x) (pos + 1) xs

/-- Append `xs`, for which there is space, at the back. -/
def push (r : RingBuffer α cap) (xs : List α) (h : xs.length ≤ r.space) : RingBuffer α cap :=
  { mem := store cap r.mem (r.off + r.len) xs
    off := r.off
    len := r.len + xs.length
    off_lt := r.off_lt
    len_le := Nat.add_le_of_le_sub' r.len_le h }

/-- Remove `n` elements from the front, or all of them if there are fewer. -/
def drop (r : RingBuffer α cap) (n : ℕ) : RingBuffer α cap :=
  { mem := r.mem
    off := (r.off + min n r.len) % cap
    len := r.len - min n r.len
    off_lt := Nat.mod_lt _ (Nat.zero_lt_of_lt r.off_lt)
    len_le := Nat.le_trans (Nat.sub_le _ _) r.len_le }

/-! ## Lengths -/

variable (r : RingBuffer α cap) (xs : List α)

@[simp]
lemma length_peek (i n : ℕ) : (r.peek i n).length = n := by
  simp [peek]

@[simp]
lemma length_toList : r.toList.length = r.len := by
  simp [toList]

lemma length_take_space : (xs.take (min xs.length r.space)).length ≤ r.space :=
  (List.length_take_le _ _).trans (Nat.min_le_right _ _)

@[simp]
lemma len_drop (n : ℕ) : (r.drop n).len = r.len - n := by
  simp only [drop]
  omega

lemma toList_eq_nil {r : RingBuffer α cap} (h : r.len = 0) : r.toList = [] := by
  rw [← List.length_eq_zero_iff, length_toList, h]

/-! ## Reading -/

lemma getElem_toList (i : ℕ) (h : i < r.toList.length) : r.toList[i] = r.get i := by
  simp [toList, peek]

/-- Reading `n` cells from index `i` on reads that part of the queue. -/
theorem peek_eq (h : i + n ≤ r.len) : r.peek i n = (r.toList.drop i).take n := by
  apply List.ext_getElem
  · simp
    omega
  · simp [peek, toList]

lemma peek_zero (h : n ≤ r.len) : r.peek 0 n = r.toList.take n := by
  rw [peek_eq r (by omega), List.drop_zero]

/-! ## Writing -/

private lemma store_of_ne (mem : ℕ → α) (pos k : ℕ) (xs : List α)
    (h : ∀ i < xs.length, (pos + i) % cap ≠ k) : store cap mem pos xs k = mem k := by
  induction xs generalizing mem pos with
  | nil => rfl
  | cons x xs ih =>
    have hne : k ≠ pos % cap := fun hk => h 0 (by simp) (by simpa using hk.symm)
    rw [store, ih, Function.update_of_ne hne]
    intro i hi
    have := h (i + 1) (by simpa using hi)
    rwa [Nat.add_right_comm]

private lemma cell_inj (cap : ℕ) {a j : ℕ} (hi : i < cap) (hj : j < cap)
    (h : (a + i) % cap = (a + j) % cap) : i = j := by
  have h' : i % cap = j % cap := Nat.ModEq.add_left_cancel' a h
  rwa [Nat.mod_eq_of_lt hi, Nat.mod_eq_of_lt hj] at h'

/-- A stored element is found in its cell, provided the stored block does not overrun the ring. -/
private theorem store_at (mem : ℕ → α) (pos : ℕ) (xs : List α) (hfit : xs.length ≤ cap)
    (i : ℕ) (hi : i < xs.length) : store cap mem pos xs ((pos + i) % cap) = xs[i] := by
  induction xs generalizing mem pos i with
  | nil => simp at hi
  | cons x xs ih =>
    rw [List.length_cons] at hfit hi
    rcases i with _ | i
    · -- the first cell is not written again, since the rest stays within one round
      rw [store, store_of_ne]
      · simp
      · intro j hj hcell
        have := cell_inj cap (a := pos) (i := j + 1) (j := 0) (by omega) (by omega)
          (by rw [← hcell, Nat.add_assoc, Nat.add_comm 1 j])
        omega
    · rw [store, ← Nat.add_assoc, Nat.add_right_comm, ih _ _ (by omega) i (by omega),
        List.getElem_cons_succ]

/-- Pushing appends to the queue. -/
theorem toList_push {xs : List α} (hfit : xs.length ≤ r.space) :
    (r.push xs hfit).toList = r.toList ++ xs := by
  unfold space at hfit
  apply List.ext_getElem
  · simp [push]
  intro i hi hi'
  rw [getElem_toList]
  rw [length_toList] at hi
  change i < r.len + xs.length at hi
  change store cap r.mem (r.off + r.len) xs ((r.off + i) % cap) = _
  rcases Nat.lt_or_ge i r.len with h | h
  · -- a held element: its cell is none of the free ones
    rw [List.getElem_append_left (by simpa using h), getElem_toList, store_of_ne, get]
    intro j hj hcell
    have := cell_inj cap (i := r.len + j) (j := i) (by omega) (by omega)
      (by rw [← Nat.add_assoc, hcell])
    omega
  · rw [List.getElem_append_right (by simpa using h)]
    obtain ⟨j, rfl⟩ := Nat.exists_eq_add_of_le h
    rw [← Nat.add_assoc, store_at _ _ _ (by omega) j (by omega)]
    congr 1
    simp

/-- Dropping removes from the front of the queue. -/
theorem toList_drop (n : ℕ) : (r.drop n).toList = r.toList.drop n := by
  apply List.ext_getElem
  · simp
  · intro i hi hi'
    rw [length_toList, len_drop] at hi
    rw [getElem_toList, List.getElem_drop, getElem_toList, get, get]
    change r.mem (((r.off + min n r.len) % cap + i) % cap) = _
    rw [Nat.min_eq_left (by omega), Nat.mod_add_mod, Nat.add_assoc]

end RingBuffer
