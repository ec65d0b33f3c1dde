import Mathlib.Data.List.Basic

/-!
# Functions that append

A function that writes into a buffer of limited size fails where the buffer is full, and otherwise
appends something to what is there. `Appends f s` says what; `Puts` says it for a given size.

## Main results

* `bind_eq_ok`: in a sequence that succeeds both parts have succeeded;
* `Appends.bind`, `Appends.foldlM`, `Puts.bind` and `Puts.foldlM`: sequences and loops.
-/

namespace Appending

variable {ε α β : Type} {f g : List α → Except ε (List α)} {s t : List α}
  {step : List α → β → Except ε (List α)} {write : β → List α} {l : List β}

/-- In a sequence that succeeds both parts have succeeded. -/
theorem bind_eq_ok {γ : Type} {x : Except ε β} {k : β → Except ε γ} {c : γ}
    (h : x >>= k = .ok c) : ∃ b, x = .ok b ∧ k b = .ok c := by
  cases x with
  | error e => cases h
  | ok b => exact ⟨b, rfl, h⟩

/-- Where it succeeds, the function appends `s`. -/
def Appends (f : List α → Except ε (List α)) (s : List α) : Prop :=
  ∀ out out', f out = .ok out' → out' = out ++ s

namespace Appends

lemma nothing : Appends (Except.ok (ε := ε)) ([] : List α) := by
  intro out out' h
  cases h
  exact (List.append_nil out).symm

theorem bind (hf : Appends f s) (hg : Appends g t) : Appends (fun out => f out >>= g) (s ++ t) := by
  intro out out' h
  obtain ⟨mid, hmid, hout⟩ := bind_eq_ok h
  rw [hg mid out' hout, hf out mid hmid, List.append_assoc]

/-- A loop appends what its rounds append. -/
theorem foldlM (h : ∀ b ∈ l, Appends (fun out => step out b) (write b)) :
    Appends (fun out => l.foldlM step out) (l.flatMap write) := by
  induction l with
  | nil => exact nothing
  | cons b l ih =>
    have hrest := ih fun c hc => h c (List.mem_cons_of_mem b hc)
    exact (h b List.mem_cons_self).bind hrest

end Appends

/-- In a loop that succeeds every round has succeeded. -/
theorem exists_of_foldlM {out out' : List α} (h : l.foldlM step out = .ok out') {b : β} (hb : b ∈ l) :
    ∃ mid mid', step mid b = .ok mid' := by
  induction l generalizing out with
  | nil => cases hb
  | cons c l ih =>
    obtain ⟨mid, hmid, hrest⟩ := bind_eq_ok h
    rcases List.mem_cons.mp hb with rfl | hb
    · exact ⟨out, mid, hmid⟩
    · exact ih hrest hb

/-! ## A buffer of a given size

Where a function checks the size of each piece before it appends it, the whole is appended exactly when
it fits. -/

def put (e : ε) (cap : ℕ) (p out : List α) : Except ε (List α) :=
  if p.length > cap - out.length then .error e else .ok (out ++ p)

/-- The function appends `s` where `s` fits, and fails where it does not. -/
def Puts (e : ε) (cap : ℕ) (f : List α → Except ε (List α)) (s : List α) : Prop :=
  ∀ out, out.length ≤ cap → f out = put e cap s out

variable {e : ε} {cap : ℕ}

namespace Puts

lemma nothing : Puts e cap (Except.ok (α := List α)) [] := by
  intro out _
  simp [put]

lemma piece (s : List α) : Puts e cap (put e cap s) s := fun _ _ => rfl

theorem bind (hf : Puts e cap f s) (hg : Puts e cap g t) :
    Puts e cap (fun out => f out >>= g) (s ++ t) := by
  intro out hout
  have hsum : (s ++ t).length = s.length + t.length := List.length_append
  by_cases hs : s.length > cap - out.length
  · -- what does not fit alone does not fit with something behind it
    have hst : (s ++ t).length > cap - out.length := by omega
    simp only [hf out hout, put, if_pos hs, if_pos hst]
    rfl
  · have hmid : (out ++ s).length = out.length + s.length := List.length_append
    have hok : f out = .ok (out ++ s) := (hf out hout).trans (if_neg hs)
    have hrest : (f out >>= g) = g (out ++ s) := by rw [hok]; rfl
    have hiff : t.length > cap - (out ++ s).length ↔ (s ++ t).length > cap - out.length := by omega
    simp only [hrest, hg (out ++ s) (by omega), put, hiff, List.append_assoc]

lemma ite {c : Prop} [Decidable c] (hf : c → Puts e cap f s) :
    Puts e cap (fun out => if c then f out else .ok out) (if c then s else []) := by
  split_ifs with h
  · exact hf h
  · exact nothing

/-- A loop puts what its rounds put. -/
theorem foldlM (h : ∀ b, Puts e cap (fun out => step out b) (write b)) (l : List β) :
    Puts e cap (fun out => l.foldlM step out) (l.flatMap write) := by
  induction l with
  | nil => exact nothing
  | cons b l ih => exact (h b).bind ih

end Puts

end Appending
