import Mathlib.Data.List.Basic

/-!
# Runs of a step function

A run of `step : σ → ι → σ` is `List.foldl step` over the labels of its steps. `Run.Ok step ok s is`
says that each step of the run from `s` meets the condition `ok` in the state it is taken in.

## Main results

* `Run.Ok.invariant`: what every step taken under `ok` preserves holds at the end of every run;
* `Run.forall_prefix_iff`: what holds after a step iff the step is allowed holds in every state of a
  run iff all its steps are allowed.
-/

namespace Run

variable {σ ι : Type*} {step step' : σ → ι → σ} {ok ok' : σ → ι → Prop} {I P : σ → Prop} {s : σ}
  {is : List ι}

/-- Every step of the run `is` from `s` meets `ok` in the state in which it is taken. -/
def Ok (step : σ → ι → σ) (ok : σ → ι → Prop) : σ → List ι → Prop
  | _, [] => True
  | s, i :: is => ok s i ∧ Ok step ok (step s i) is

/-- A condition that can be decided can be decided along a run. -/
instance Ok.instDecidable [∀ s i, Decidable (ok s i)] :
    ∀ (s : σ) (is : List ι), Decidable (Ok step ok s is)
  | _, [] => isTrue trivial
  | s, i :: is => @instDecidableAnd _ _ _ (instDecidable (step s i) is)

lemma ok_of_forall (h : ∀ s i, ok s i) (s : σ) (is : List ι) : Ok step ok s is := by
  induction is generalizing s with
  | nil => trivial
  | cons i is ih => exact ⟨h s i, ih _⟩

lemma Ok.and (h : Ok step ok s is) (h' : Ok step ok' s is) :
    Ok step (fun s i => ok s i ∧ ok' s i) s is := by
  induction is generalizing s with
  | nil => trivial
  | cons i is ih => exact ⟨⟨h.1, h'.1⟩, ih h.2 h'.2⟩

lemma ok_append_iff {js : List ι} :
    Ok step ok s (is ++ js) ↔ Ok step ok s is ∧ Ok step ok (is.foldl step s) js := by
  induction is generalizing s with
  | nil => exact ⟨fun h => ⟨trivial, h⟩, And.right⟩
  | cons i is ih => exact (and_congr_right fun _ => ih).trans and_assoc.symm

/-- The invariant rule: what holds at the start and is preserved by every step taken under `ok`
holds at the end of every run whose steps meet `ok`. -/
theorem Ok.invariant (hrun : Ok step ok s is) (hstart : I s)
    (hstep : ∀ s i, I s → ok s i → I (step s i)) : I (is.foldl step s) := by
  induction is generalizing s with
  | nil => exact hstart
  | cons i is ih => exact ih hrun.2 (hstep s i hstart hrun.1)

lemma foldl_invariant (hstart : I s) (hstep : ∀ s i, I s → I (step s i)) (is : List ι) :
    I (is.foldl step s) := by
  have hrun : Ok step (fun _ _ => True) s is := ok_of_forall (fun _ _ => trivial) s is
  exact hrun.invariant hstart fun s i h _ => hstep s i h

lemma Ok.of_invariant (hrun : Ok step ok s is) (hstart : I s)
    (hstep : ∀ s i, I s → ok s i → I (step s i)) (hok : ∀ s i, I s → ok s i → ok' s i) :
    Ok step ok' s is := by
  induction is generalizing s with
  | nil => trivial
  | cons i is ih => exact ⟨hok s i hstart hrun.1, ih hrun.2 (hstep s i hstart hrun.1)⟩

lemma ok_iff_of_invariant (hstart : I s) (hstep : ∀ s i, I s → I (step s i))
    (hok : ∀ s i, I s → (ok s i ↔ ok' s i)) :
    Ok step ok s is ↔ Ok step ok' s is :=
  ⟨fun h => h.of_invariant hstart (fun s i hs _ => hstep s i hs) fun s i hs => (hok s i hs).mp,
    fun h => h.of_invariant hstart (fun s i hs _ => hstep s i hs) fun s i hs => (hok s i hs).mpr⟩

lemma Ok.congr (hrun : Ok step ok s is) (heq : ∀ s i, ok s i → step' s i = step s i)
    (hok : ∀ s i, ok s i → ok' s i) :
    Ok step' ok' s is := by
  induction is generalizing s with
  | nil => trivial
  | cons i is ih =>
    refine ⟨hok s i hrun.1, ?_⟩
    rw [heq s i hrun.1]
    exact ih hrun.2

lemma ok_map_iff {τ : Type*} {f : σ → τ} {step' : τ → ι → τ} {ok : τ → ι → Prop}
    (hf : ∀ s i, f (step s i) = step' (f s) i) :
    Ok step (fun s i => ok (f s) i) s is ↔ Ok step' ok (f s) is := by
  induction is generalizing s with
  | nil => exact Iff.rfl
  | cons i is ih =>
    change _ ∧ Ok step _ (step s i) is ↔ _ ∧ Ok step' ok (step' (f s) i) is
    rw [ih, hf]

lemma forall_prefix_iff_of {L : ι → Prop} (hnow : ∀ s, I s → P s)
    (hiff : ∀ s i, I s → L i → (P (step s i) ↔ ok s i))
    (hstep : ∀ s i, I s → L i → ok s i → I (step s i)) (hs : I s) (his : ∀ i ∈ is, L i) :
    (∀ before, before <+: is → P (before.foldl step s)) ↔ Ok step ok s is := by
  induction is generalizing s with
  | nil =>
    refine ⟨fun _ => trivial, fun _ before hb => ?_⟩
    rw [List.prefix_nil.mp hb]
    exact hnow s hs
  | cons i is ih =>
    have hi : L i := his i List.mem_cons_self
    have his' : ∀ j ∈ is, L j := fun j hj => his j (List.mem_cons_of_mem _ hj)
    constructor
    · intro hall
      have hok : ok s i := (hiff s i hs hi).mp (hall [i] (by simp))
      refine ⟨hok, (ih (hstep s i hs hi hok) his').mp fun before hb => ?_⟩
      exact hall (i :: before) (List.cons_prefix_cons.mpr ⟨rfl, hb⟩)
    · rintro ⟨hok, hrest⟩ before hb
      cases before with
      | nil => exact hnow s hs
      | cons j before =>
        obtain ⟨rfl, htail⟩ := List.cons_prefix_cons.mp hb
        exact (ih (hstep s j hs hi hok) his').mpr hrest before htail

/-- The same for runs over any labels. -/
theorem forall_prefix_iff (hnow : ∀ s, I s → P s) (hiff : ∀ s i, I s → (P (step s i) ↔ ok s i))
    (hstep : ∀ s i, I s → ok s i → I (step s i)) (hs : I s) :
    (∀ before, before <+: is → P (before.foldl step s)) ↔ Ok step ok s is :=
  forall_prefix_iff_of hnow (fun s i h _ => hiff s i h)
    (fun s i h _ => hstep s i h) hs fun _ _ => trivial

end Run
