import Mathlib.Data.List.Infix

/-!
# Sources that deliver in chunks

A read of a source brings some elements, times out because nothing has arrived yet, or fails; a source
is the list of what its reads will bring. Its `contents` are the elements it delivers, and `skip n` is
what is left of it after `n` of them.

## Main results

* `contents_skip`: skipping `n` elements leaves the others;
* `Steady.skip`: the rest of a steady source is steady.
-/

/-- What one read from a source of `α` brings; `ε` are the errors. -/
inductive Chunk (α ε : Type*)
  /-- Some elements. -/
  | data (xs : List α)
  /-- Nothing has arrived in time. -/
  | pause
  /-- The source has failed. -/
  | fail (e : ε)

namespace Chunk

variable {α ε : Type*} {cs : List (Chunk α ε)} {n : ℕ} {xs : List α}

/-- The elements that a source delivers. -/
def contents : List (Chunk α ε) → List α
  | [] => []
  | data xs :: cs => xs ++ contents cs
  | pause :: cs => contents cs
  | fail _ :: cs => contents cs

@[simp]
lemma contents_nil : contents ([] : List (Chunk α ε)) = [] := rfl

@[simp]
lemma contents_data (xs : List α) : contents (data xs :: cs) = xs ++ contents cs := rfl

@[simp]
lemma contents_pause : contents (pause :: cs) = contents cs := rfl

@[simp]
lemma contents_fail (e : ε) : contents (fail e :: cs) = contents cs := rfl

/-- What is left of a source after its first `n` elements. A pause that comes right after them is
still to come. -/
def skip : ℕ → List (Chunk α ε) → List (Chunk α ε)
  | 0, cs => cs
  | _ + 1, [] => []
  | n + 1, data xs :: cs =>
    -- a chunk that is longer than what is skipped is cut
    if xs.length ≤ n + 1 then skip (n + 1 - xs.length) cs else data (xs.drop (n + 1)) :: cs
  | n + 1, pause :: cs => skip (n + 1) cs
  | n + 1, fail _ :: cs => skip (n + 1) cs

@[simp]
lemma skip_zero (cs : List (Chunk α ε)) : skip 0 cs = cs := by
  cases cs <;> rfl

lemma skip_pause (hn : n ≠ 0) : skip n (pause :: cs) = skip n cs := by
  cases n with
  | zero => exact absurd rfl hn
  | succ n => rw [skip]

lemma skip_data_of_le (h : xs.length ≤ n) :
    skip n (data xs :: cs) = if n = 0 then data xs :: cs else skip (n - xs.length) cs := by
  cases n with
  | zero => rw [skip_zero, if_pos rfl]
  | succ n => rw [skip, if_pos h, if_neg n.succ_ne_zero]

lemma skip_data_of_lt (h : n < xs.length) : skip n (data xs :: cs) = data (xs.drop n) :: cs := by
  cases n with
  | zero => rw [skip_zero, List.drop_zero]
  | succ n => rw [skip, if_neg (by omega)]

/-- Skipping elements leaves the others. -/
@[simp]
theorem contents_skip (n : ℕ) (cs : List (Chunk α ε)) :
    contents (skip n cs) = (contents cs).drop n := by
  induction cs generalizing n with
  | nil => cases n <;> simp [skip]
  | cons c cs ih =>
    cases n with
    | zero => simp
    | succ n =>
      cases c with
      | data xs =>
        rw [skip]
        split
        · next hle => simp [ih, List.drop_append, List.drop_eq_nil_of_le hle]
        · next hlt => simp [List.drop_append, show n + 1 - xs.length = 0 by omega]
      | pause => simpa [skip] using ih (n + 1)
      | fail e => simpa [skip] using ih (n + 1)

/-- Skipping is additive. -/
theorem skip_skip (m n : ℕ) (cs : List (Chunk α ε)) : skip m (skip n cs) = skip (n + m) cs := by
  induction cs generalizing n with
  | nil => cases m <;> cases n <;> simp [skip]
  | cons c cs ih =>
    cases n with
    | zero => simp
    | succ n =>
      cases c with
      | data xs =>
        rcases Nat.lt_or_ge (n + 1) xs.length with hlt | hle
        · -- the first skip stops in this chunk
          rw [skip_data_of_lt hlt]
          rcases Nat.lt_or_ge (n + 1 + m) xs.length with hlt' | hle'
          · rw [skip_data_of_lt hlt', skip_data_of_lt (by simp; omega), List.drop_drop]
          rw [skip_data_of_le hle', skip_data_of_le (by simp; omega), if_neg (by omega),
            if_neg (by omega), List.length_drop]
          congr 1
          omega
        · rw [skip_data_of_le hle, skip_data_of_le (by omega), if_neg (by omega),
            if_neg (by omega), ih]
          congr 1
          omega
      | pause =>
        rw [skip_pause (by omega), skip_pause (by omega), ih]
      | fail e =>
        have h := ih (n + 1)
        rwa [show n + 1 + m = (n + m) + 1 by omega] at h ⊢

lemma length_skip_le (n : ℕ) (cs : List (Chunk α ε)) : (skip n cs).length ≤ cs.length := by
  induction cs generalizing n with
  | nil => cases n <;> simp [skip]
  | cons c cs ih =>
    cases n with
    | zero => simp
    | succ n =>
      cases c with
      | data xs =>
        rw [skip]
        split
        · exact (ih _).trans (Nat.le_succ _)
        · simp
      | pause => exact (ih (n + 1)).trans (Nat.le_succ _)
      | fail e => exact (ih (n + 1)).trans (Nat.le_succ _)

/-! ## Pauses -/

def Paused (cs : List (Chunk α ε)) : Prop := ∃ rest, cs = pause :: rest

instance (cs : List (Chunk α ε)) : Decidable (Paused cs) :=
  match cs with
  | pause :: rest => isTrue ⟨rest, rfl⟩
  | [] | data _ :: _ | fail _ :: _ => isFalse nofun

/-- How many of the next reads time out in a row. -/
def pauses : List (Chunk α ε) → ℕ
  | pause :: cs => pauses cs + 1
  | _ => 0

/-- A source that does not fail, brings something with every read that does not time out, and never
pauses for more than `limit` reads in a row. -/
structure Steady (limit : ℕ) (cs : List (Chunk α ε)) : Prop where
  brings : ∀ c ∈ cs, c = pause ∨ ∃ xs, xs ≠ [] ∧ c = data xs
  pauses_le : ∀ {rest}, rest <:+ cs → pauses rest ≤ limit

namespace Steady

variable {limit : ℕ}

lemma of_suffix {rest : List (Chunk α ε)} (h : Steady limit cs) (hs : rest <:+ cs) :
    Steady limit rest :=
  ⟨fun c hc => h.brings c (hs.subset hc), fun hs' => h.pauses_le (hs'.trans hs)⟩

lemma tail {c : Chunk α ε} (h : Steady limit (c :: cs)) : Steady limit cs :=
  h.of_suffix (List.suffix_cons c cs)

lemma nil : Steady limit ([] : List (Chunk α ε)) :=
  ⟨nofun, fun hs => by rw [List.suffix_nil.mp hs]; exact Nat.zero_le _⟩

section

variable (h : Steady limit cs)

include h

lemma pause_cons (hle : pauses cs < limit) : Steady limit (pause :: cs) := by
  refine ⟨fun c hc => ?_, fun hs => ?_⟩
  · rcases List.mem_cons.mp hc with rfl | hc
    · exact .inl rfl
    · exact h.brings c hc
  · rcases List.suffix_cons_iff.mp hs with rfl | hs
    · exact hle
    · exact h.pauses_le hs

lemma data_cons (hxs : xs ≠ []) : Steady limit (data xs :: cs) := by
  refine ⟨fun c hc => ?_, fun hs => ?_⟩
  · rcases List.mem_cons.mp hc with rfl | hc
    · exact .inr ⟨xs, hxs, rfl⟩
    · exact h.brings c hc
  · rcases List.suffix_cons_iff.mp hs with rfl | hs
    · exact Nat.zero_le _
    · exact h.pauses_le hs

/-- The rest of a steady source is steady. -/
theorem skip (n : ℕ) : Steady limit (skip n cs) := by
  induction cs generalizing n with
  | nil =>
    cases n with
    | zero => exact h
    | succ n => exact h
  | cons c cs ih =>
    cases n with
    | zero => rwa [skip_zero]
    | succ n =>
      cases c with
      | data xs =>
        rw [Chunk.skip]
        split
        · exact ih h.tail _
        rename_i hlt
        refine h.tail.data_cons fun hnil => ?_
        rw [List.drop_eq_nil_iff] at hnil
        omega
      | pause => exact ih h.tail (n + 1)
      | fail e => exact ih h.tail (n + 1)

lemma eq_nil_or_paused (hc : contents cs = []) : cs = [] ∨ Paused cs := by
  cases cs with
  | nil => exact .inl rfl
  | cons c cs =>
    rcases h.brings c List.mem_cons_self with rfl | ⟨xs, hxs, rfl⟩
    · exact .inr ⟨cs, rfl⟩
    · rw [contents_data, List.append_eq_nil_iff] at hc
      exact absurd hc.1 hxs

end

end Steady

end Chunk
