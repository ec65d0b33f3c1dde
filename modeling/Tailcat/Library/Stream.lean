import Mathlib.Data.List.Basic
import Mathlib.Order.Monotone.Basic

/-!
# Pieces of a stream

A stream is a list `S`, and `p <+: S.drop o` says that `p` is the piece of it at offset `o`.

## Main results

* `piece_drop` and `piece_append`: pieces of pieces and of longer streams;
* `piece_of_numbered`: elements with consecutive numbers are a piece.
-/

namespace Stream

variable {α : Type*} {S p : List α} {o t : ℕ}

/-- Putting the piece at offset `t` after the first `t` elements. -/
theorem take_append (h : p <+: S.drop t) : S.take t ++ p = S.take (t + p.length) := by
  rw [List.take_add, ← List.prefix_iff_eq_take.mp h]

/-- Without its first `k` elements, a piece is the piece `k` further on. -/
theorem piece_drop (h : p <+: S.drop o) (k : ℕ) : p.drop k <+: S.drop (o + k) := by
  obtain ⟨rest, hrest⟩ := h
  rw [← List.drop_drop, ← hrest, List.drop_append]
  exact List.prefix_append _ _

lemma piece_take (h : p <+: S.drop o) (k : ℕ) : p.take k <+: S.drop o :=
  (List.take_prefix k p).trans h

lemma piece_le (h : p <+: S.drop o) (hp : p ≠ []) : o + p.length ≤ S.length := by
  have hlen := h.length_le
  have hpos := List.length_pos_iff.mpr hp
  rw [List.length_drop] at hlen
  omega

/-- A piece of a stream is one of every longer stream. -/
theorem piece_append (h : p <+: S.drop o) (T : List α) : p <+: (S ++ T).drop o := by
  rw [List.drop_append]
  exact h.trans (List.prefix_append _ _)

/-- The elements of a stream have increasing numbers. If those of `p` are found under consecutive numbers
from `n` on, then `p` is a piece, at the place with that number. -/
theorem piece_of_numbered {num : ℕ → ℕ} (hnum : StrictMono num) {n : ℕ}
    (h : ∀ i x, p[i]? = some x → ∃ j, S[j]? = some x ∧ num j = n + i) :
    ∃ d, p <+: S.drop d ∧ (p ≠ [] → num d = n) := by
  induction p generalizing n with
  | nil => exact ⟨0, List.nil_prefix, fun hne => absurd rfl hne⟩
  | cons x p ih =>
    obtain ⟨j, hj, hn⟩ := h 0 x rfl
    obtain ⟨hlt, rfl⟩ := List.getElem?_eq_some_iff.mp hj
    obtain ⟨d, hpiece, hd⟩ := ih (n := n + 1) fun i y hy => by
      obtain ⟨k, hk, hkn⟩ := h (i + 1) y hy
      exact ⟨k, hk, by omega⟩
    refine ⟨j, ?_, fun _ => hn⟩
    rw [List.drop_eq_getElem_cons]
    refine (List.prefix_cons_inj _).mpr ?_
    by_cases hne : p = []
    · rw [hne]
      exact List.nil_prefix
    -- no number lies between two consecutive ones
    have hnext : d = j + 1 := by
      have hlower : j < d := hnum.lt_iff_lt.mp (by have := hd hne; omega)
      have hupper : num (j + 1) ≤ num d → d ≤ j + 1 → d = j + 1 := by omega
      refine hupper (hnum.monotone hlower) (hnum.le_iff_le.mp ?_)
      have hsucc : num j < num (j + 1) := hnum (Nat.lt_succ_self j)
      have := hd hne
      omega
    rwa [hnext] at hpiece

lemma take_prefix_take {m n : ℕ} (h : m ≤ n) : S.take m <+: S.take n := List.take_prefix_take_left h

end Stream
