import Mathlib.Data.List.Nodup
import Mathlib.Data.List.Perm.Basic

/-!
# Removal from an unordered array

An array whose order does not matter is kept packed by moving the last entry into the place of the
one that is removed.

## Main results

* `swapRemove_perm`: up to order, the entry at the index is gone and nothing else is;
* `swapRemove_perm_filter`: the same by key.
-/

variable {α κ : Type*}

/-- Remove the entry at `i` by moving the last entry into its place. -/
def swapRemove (l : List α) (i : ℕ) : List α :=
  match l.getLast? with
  | none => []
  | some z => (l.set i z).dropLast

section

variable {l : List α} {i : ℕ}

lemma swapRemove_cases (hi : i < l.length) : ∃ init z, l = init ++ [z] ∧
      (i < init.length ∧ swapRemove l i = init.set i z ∨
        i = init.length ∧ swapRemove l i = init) := by
  rcases l.eq_nil_or_concat with rfl | ⟨init, z, rfl⟩
  · simp at hi
  rw [List.concat_eq_append] at hi ⊢
  refine ⟨init, z, rfl, ?_⟩
  have hlen : i < init.length ∨ i = init.length := by
    simp only [List.length_append, List.length_singleton] at hi
    omega
  rcases hlen with h | h
  · exact .inl ⟨h, by simp [swapRemove, List.set_append_left _ _ h]⟩
  · exact .inr ⟨h, by simp [swapRemove, h]⟩

lemma take_swapRemove (hi : i < l.length) : (swapRemove l i).take i = l.take i := by
  obtain ⟨init, z, rfl, ⟨h, heq⟩ | ⟨h, heq⟩⟩ := swapRemove_cases hi <;> rw [heq]
  · rw [List.take_set_of_le (Nat.le_refl i), List.take_append_of_le_length (Nat.le_of_lt h)]
  · rw [List.take_append_of_le_length (Nat.le_of_eq h), h]

/-- Up to order, removal erases the entry. -/
theorem swapRemove_perm (hi : i < l.length) : (swapRemove l i).Perm (l.eraseIdx i) := by
  obtain ⟨init, z, rfl, ⟨h, heq⟩ | ⟨h, heq⟩⟩ := swapRemove_cases hi <;> rw [heq]
  · rw [List.eraseIdx_append_of_lt_length h, List.set_eq_take_append_cons_drop, if_pos h,
      List.eraseIdx_eq_take_drop_succ, List.append_assoc]
    exact (List.perm_append_singleton z _).symm.append_left _
  · rw [h, List.eraseIdx_append_of_length_le (Nat.le_refl _)]
    simp

lemma length_swapRemove (hi : i < l.length) : (swapRemove l i).length = l.length - 1 := by
  rw [(swapRemove_perm hi).length_eq, List.length_eraseIdx_of_lt hi]

/-- Where the entries have different keys, removal erases by key. -/
theorem swapRemove_perm_filter [DecidableEq κ] {key : α → κ} (hi : i < l.length)
    (hnodup : (l.map key).Nodup) :
    (swapRemove l i).Perm (l.filter fun a => key a ≠ key l[i]) := by
  refine (swapRemove_perm hi).trans ?_
  have herase : l.eraseIdx i = l.filter fun a => key a ≠ key l[i] := by
    induction l generalizing i with
    | nil => rfl
    | cons a l ih =>
      obtain ⟨ha, hl⟩ := List.nodup_cons.mp hnodup
      cases i with
      | zero =>
        have hall : ∀ b ∈ l, key b ≠ key a := fun b hb heq => ha (heq ▸ List.mem_map_of_mem hb)
        simpa using (List.filter_eq_self.mpr fun b hb => by simpa using hall b hb).symm
      | succ i =>
        have hi' : i < l.length := by simpa using hi
        have hne : key a ≠ key l[i] := fun heq => ha (heq ▸ List.mem_map_of_mem (l.getElem_mem hi'))
        simpa [hne] using ih hi' hl
  rw [herase]

end
