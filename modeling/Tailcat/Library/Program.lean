import Mathlib.Tactic.Common

/-!
# Programs with state and errors

A function of a C source that changes a structure and returns a value or an error code is a program
`EStateM ε σ α`. `wp x Q E s` says that `x`, started in `s`, ends with `Q` or fails with `E`. A loop
has as many iterations as a measure of the state allows; the rule for loops asks that the measure
decreases, so that the limit is never reached.

## Main results

* `wp_bind` and `wp_loop`: the rules for sequences and loops;
* `Within.bind` and `Within.loop`: a program each of whose steps stays within a preorder does so;
* `Keeps.loop`: a loop keeps what its body keeps;
* `Given.next`: what holds as long as the entries of a log are good.
-/

namespace Program

variable {ε σ τ α β : Type} {s : σ}

/-! ## Weakest preconditions -/

/-- The program, started in `s`, returns with `Q` or fails with `E`. -/
def wp (x : EStateM ε σ α) (Q : α → σ → Prop) (E : ε → σ → Prop) (s : σ) : Prop :=
  match x s with
  | .ok a s' => Q a s'
  | .error e s' => E e s'

variable {x y : EStateM ε σ α} {f : α → EStateM ε σ β} {Q : α → σ → Prop} {E : ε → σ → Prop}
  {c : Prop} {R : σ → σ → Prop} {r : Except ε α} {g : σ → σ} {body : β → EStateM ε σ (β ⊕ α)}
  {out : ε}

@[simp]
lemma wp_pure (a : α) : wp (pure a) Q E s ↔ Q a s := Iff.rfl

@[simp]
lemma wp_throw (e : ε) : wp (throw e) Q E s ↔ E e s := Iff.rfl

@[simp]
lemma wp_get {Q : σ → σ → Prop} : wp get Q E s ↔ Q s s := Iff.rfl

@[simp]
lemma wp_set {Q : PUnit → σ → Prop} (s' : σ) : wp (set s') Q E s ↔ Q ⟨⟩ s' := Iff.rfl

@[simp]
lemma wp_modify {Q : PUnit → σ → Prop} (g : σ → σ) : wp (modify g) Q E s ↔ Q ⟨⟩ (g s) := Iff.rfl

@[simp]
theorem wp_bind {Q : β → σ → Prop} : wp (x >>= f) Q E s ↔ wp x (fun a => wp (f a) Q E) E s := by
  simp only [wp, bind, EStateM.bind]
  cases x s <;> rfl

lemma wp_ite [Decidable c] :
    wp (if c then x else y) Q E s ↔ (c → wp x Q E s) ∧ (¬c → wp y Q E s) := by
  by_cases h : c <;> simp [h]

section

variable {Q' : α → σ → Prop} {E' : ε → σ → Prop} {a : α} {s' : σ} {e : ε} {I : β → σ → Prop} {n : ℕ}
  {b : β}

lemma wp.mono (h : wp x Q' E' s)
    (hQ : ∀ a s', Q' a s' → Q a s') (hE : ∀ e s', E' e s' → E e s') : wp x Q E s := by
  unfold wp at h ⊢
  split
  · next a s' heq =>
    rw [heq] at h
    exact hQ a s' h
  · next e s' heq =>
    rw [heq] at h
    exact hE e s' h

/-- One program after the other, with failures of one kind. -/
theorem wp.bind {Q : β → σ → Prop} (h : wp x Q' E s)
    (hf : ∀ a s', Q' a s' → wp (f a) Q E s') : wp (x >>= f) Q E s :=
  wp_bind.mpr (h.mono hf fun _ _ h => h)

/-- After a program that does not fail. -/
theorem wp.seq {Q : β → σ → Prop} (h : wp x Q' (fun _ _ => False) s)
    (hf : ∀ a s', Q' a s' → wp (f a) Q E s') : wp (x >>= f) Q E s :=
  wp_bind.mpr (h.mono hf fun _ _ => False.elim)

lemma wp.discard {P : σ → Prop} (h : wp x (fun _ => P) E s) (b : β) :
    wp (x >>= fun _ => pure b) (fun _ => P) E s := wp_bind.mpr h

/-- After a program about whose failures nothing is asked. -/
theorem wp.andThen {Q : β → σ → Prop} (h : wp x Q' E' s)
    (hf : ∀ a s', Q' a s' → wp (f a) Q (fun _ _ => True) s') :
    wp (x >>= f) Q (fun _ _ => True) s :=
  wp_bind.mpr (h.mono hf fun _ _ _ => trivial)

lemma wp.and (h : wp x Q E s) (h' : wp x Q' E' s) :
    wp x (fun a s' => Q a s' ∧ Q' a s') (fun e s' => E e s' ∧ E' e s') s := by
  unfold wp at h h' ⊢
  split
  · next heq =>
    rw [heq] at h h'
    exact ⟨h, h'⟩
  · next heq =>
    rw [heq] at h h'
    exact ⟨h, h'⟩

lemma wp_of_cases (hok : ∀ a s', x s = .ok a s' → Q a s')
    (herror : ∀ e s', x s = .error e s' → E e s') : wp x Q E s := by
  unfold wp
  split
  · next a s' heq => exact hok a s' heq
  · next e s' heq => exact herror e s' heq

/-- Only the end of the program matters. -/
theorem wp_bind_of_forall {Q : β → σ → Prop} (hf : ∀ a s', wp (f a) Q (fun _ _ => True) s') :
    wp (x >>= f) Q (fun _ _ => True) s :=
  wp_bind.mpr (wp_of_cases (fun a s' _ => hf a s') fun _ _ _ => trivial)

lemma wp.of_ok (h : wp x Q E s) (hx : x s = .ok a s') : Q a s' := by
  rwa [wp, hx] at h

lemma wp.exists_ok (h : wp x Q (fun _ _ => False) s) : ∃ a s', x s = .ok a s' ∧ Q a s' := by
  unfold wp at h
  split at h
  · next a s' heq => exact ⟨a, s', heq, h⟩
  · exact h.elim

/-- The state in which a program ends, whether it fails or not. -/
def after (x : EStateM ε σ α) (s : σ) : σ :=
  match x s with
  | .ok _ s' => s'
  | .error _ s' => s'

lemma wp.after {P : σ → Prop} (h : wp x (fun _ => P) (fun _ => P) s) : P (after x s) := by
  unfold wp at h
  unfold Program.after
  split at h
  · exact h
  · exact h

/-- Whether the program fails with this error. -/
def failsWith [DecidableEq ε] (e : ε) (x : EStateM ε σ α) (s : σ) : Bool :=
  match x s with
  | .ok _ _ => false
  | .error e' _ => e' = e

lemma wp.of_failsWith [DecidableEq ε] (h : wp x Q E s) (hfails : failsWith e x s = true) :
    E e (Program.after x s) := by
  unfold wp at h
  unfold failsWith at hfails
  unfold Program.after
  split at hfails
  · cases hfails
  rename_i heq
  obtain rfl := of_decide_eq_true hfails
  rwa [heq] at h

def succeeds (x : EStateM ε σ α) (s : σ) : Bool :=
  match x s with
  | .ok _ _ => true
  | .error _ _ => false

lemma ok_of_succeeds (h : succeeds x s = true) : ∃ a, x s = .ok a (Program.after x s) := by
  unfold succeeds at h
  unfold Program.after
  split at h
  · next a s' heq => exact ⟨a, by rw [heq]⟩
  · cases h

lemma after_bind_of_ok (h : x s = .ok a s') :
    Program.after (x >>= f) s = Program.after (f a) s' := by
  simp only [Program.after, bind, EStateM.bind, h]

lemma Within.after (h : ∀ s, wp x (fun _ s' => R s s') (fun _ s' => R s s') s) (s : σ) :
    R s (Program.after x s) :=
  (h s).after

lemma wp.failsWith_of_error [DecidableEq ε] (h : wp x (fun _ _ => False) (fun e' _ => e' = e) s) :
    failsWith e x s = true := by
  unfold wp at h
  unfold failsWith
  split at h
  · exact h.elim
  · exact decide_eq_true h

/-! ## Results that are given -/

@[simp]
lemma wp_ofExcept_ok (a : α) : wp (ofExcept (.ok a)) Q E s ↔ Q a s := Iff.rfl

lemma wp_ofExcept_bind {Q : β → σ → Prop} (hok : ∀ a, r = .ok a → wp (f a) Q E s)
    (herror : ∀ e, r = .error e → E e s) :
    wp (ofExcept r >>= f) Q E s := by
  cases r with
  | ok a => exact hok a rfl
  | error e => exact herror e rfl

lemma wp_ofExcept_andThen {Q : β → σ → Prop} (h : ∀ a, wp (f a) Q (fun _ _ => True) s) :
    wp (ofExcept r >>= f) Q (fun _ _ => True) s :=
  wp_ofExcept_bind (fun a _ => h a) fun _ _ => trivial

/-- The program, with its failure as a result. -/
def attempt (x : EStateM ε σ α) : EStateM ε σ (Except ε α) := fun s =>
  match x s with
  | .ok a s' => .ok (.ok a) s'
  | .error e s' => .ok (.error e) s'

@[simp]
lemma wp_attempt {Q : Except ε α → σ → Prop} :
    wp (attempt x) Q E s ↔ wp x (fun a => Q (.ok a)) (fun e => Q (.error e)) s := by
  simp only [wp, attempt]
  cases x s <;> rfl

/-- The program, and then a change of the state, however it ends. -/
def ensuring (x : EStateM ε σ α) (g : σ → σ) : EStateM ε σ α := fun s =>
  match x s with
  | .ok a s' => .ok a (g s')
  | .error e s' => .error e (g s')

@[simp]
lemma wp_ensuring :
    wp (ensuring x g) Q E s ↔ wp x (fun a s' => Q a (g s')) (fun e s' => E e (g s')) s := by
  simp only [wp, ensuring]
  cases x s <;> rfl

def zoom (part : σ → τ) (update : τ → σ → σ) (x : EStateM ε τ α) : EStateM ε σ α := fun s =>
  match x (part s) with
  | .ok a t => .ok a (update t s)
  | .error e t => .error e (update t s)

@[simp]
lemma wp_zoom {part : σ → τ} {update : τ → σ → σ} {x : EStateM ε τ α} :
    wp (zoom part update x) Q E s ↔
      wp x (fun a t => Q a (update t s)) (fun e t => E e (update t s)) (part s) := by
  simp only [wp, zoom]
  cases x (part s) <;> rfl

/-! ## Loops -/

/-- At most so many iterations of the body, which goes on with `.inl` and ends with `.inr`. -/
def loop (body : β → EStateM ε σ (β ⊕ α)) (out : ε) : ℕ → β → EStateM ε σ α
  | 0, _ => throw out
  | n + 1, b => do
    match ← body b with
    | .inl b => loop body out n b
    | .inr a => pure a

/-- The rule for loops: each iteration ends the loop with what is wanted, or keeps the invariant and
decreases the measure. -/
theorem wp_loop (μ : β → σ → ℕ) (hbody : ∀ b s, I b s → wp (body b)
      (fun r s' => match r with
        | .inl b' => I b' s' ∧ μ b' s' < μ b s
        | .inr a => Q a s') E s) (hI : I b s) (hn : μ b s < n) : wp (loop body out n b) Q E s := by
  induction n generalizing b s with
  | zero => omega
  | succ n ih =>
    rw [loop, wp_bind]
    refine (hbody b s hI).mono ?_ fun _ _ h => h
    intro r s' hr
    cases r with
    | inl b' => exact ih hr.1 (by omega)
    | inr a => exact hr

/-- The rule for loops, if the limit does no harm: each iteration keeps the invariant. -/
theorem wp_loop_of_out (hbody : ∀ b s, I b s → wp (body b)
      (fun r s' => match r with
        | .inl b' => I b' s'
        | .inr a => Q a s') E s) (hout : ∀ b s, I b s → E out s) (hI : I b s) :
    wp (loop body out n b) Q E s := by
  induction n generalizing b s with
  | zero => exact hout b s hI
  | succ n ih =>
    rw [loop, wp_bind]
    refine (hbody b s hI).mono ?_ fun _ _ h => h
    intro r s' hr
    cases r with
    | inl b' => exact ih hr
    | inr a => exact hr

/-! ## Programs within a preorder -/

def Within (R : σ → σ → Prop) (x : EStateM ε σ α) : Prop :=
  ∀ s, wp x (fun _ s' => R s s') (fun _ s' => R s s') s

end

section Within

variable {R : σ → σ → Prop}

lemma Within.mono {R' : σ → σ → Prop} (h : Within R x) (hR : ∀ s s', R s s' → R' s s') :
    Within R' x :=
  fun s => (h s).mono (fun _ s' => hR s s') fun _ s' => hR s s'

protected lemma Within.modify (h : ∀ s, R s (g s)) : Within R (modify g : EStateM ε σ PUnit) := h

lemma Within.ite [Decidable c] (hx : Within R x) (hy : Within R y) :
    Within R (if c then x else y) := by
  split
  · exact hx
  · exact hy

lemma Within.attempt (h : Within R x) : Within R (attempt x) := fun s => wp_attempt.mpr (h s)

/-- One program after the other. -/
theorem Within.bind [htrans : IsTrans σ R] (hx : Within R x) (hf : ∀ a, Within R (f a)) :
    Within R (x >>= f) := by
  intro s
  rw [wp_bind]
  refine (hx s).mono (fun a s' hs => ?_) fun _ _ hs => hs
  exact (hf a s').mono (fun _ _ hs' => htrans.trans _ _ _ hs hs') fun _ _ hs' =>
    htrans.trans _ _ _ hs hs'

lemma Within.ensuring [htrans : IsTrans σ R] (hx : Within R x) (hg : ∀ s, R s (g s)) :
    Within R (ensuring x g) := by
  intro s
  rw [wp_ensuring]
  exact (hx s).mono (fun _ s' hs => htrans.trans _ _ _ hs (hg s')) fun _ s' hs =>
    htrans.trans _ _ _ hs (hg s')

protected lemma Within.get {f : σ → EStateM ε σ α} (h : ∀ s, Within R (f s)) :
    Within R (get >>= f) := fun s => h s s

lemma Within.of_get {f : σ → EStateM ε σ α}
    (h : ∀ s, wp (f s) (fun _ s' => R s s') (fun _ s' => R s s') s) : Within R (get >>= f) := h

lemma Within.of_set [htrans : IsTrans σ R] {x : EStateM ε σ α} {s s1 : σ} (hx : Within R x)
    (h : R s s1) : wp (set s1 >>= fun _ => x) (fun _ s' => R s s') (fun _ s' => R s s') s :=
  (hx s1).mono (fun _ _ hs => htrans.trans _ _ _ h hs) fun _ _ hs => htrans.trans _ _ _ h hs

variable [hrefl : Std.Refl R]

protected lemma Within.pure (a : α) : Within R (pure a : EStateM ε σ α) := fun s => hrefl.refl s

protected lemma Within.throw (e : ε) : Within R (throw e : EStateM ε σ α) := fun s => hrefl.refl s

lemma Within.of_ok (h : ∀ a, r = .ok a → Within R (f a)) : Within R (ofExcept r >>= f) := by
  cases r with
  | ok a => exact h a rfl
  | error e => exact .throw e

protected lemma Within.ofExcept (r : Except ε α) : Within R (ofExcept r : EStateM ε σ α) := by
  cases r with
  | ok a => exact .pure a
  | error e => exact .throw e

/-- A loop, whatever its limit. -/
theorem Within.loop [IsTrans σ R] (h : ∀ b, Within R (body b)) (n : ℕ) (b : β) :
    Within R (loop body out n b) := by
  induction n generalizing b with
  | zero => exact .throw out
  | succ n ih =>
    refine (h b).bind fun r => ?_
    cases r with
    | inl b' => exact ih b'
    | inr a => exact .pure a

end Within

/-! ## Programs that keep a property -/

/-- However the program ends, the property still holds. -/
def Keeps (P : σ → Prop) (x : EStateM ε σ α) : Prop := ∀ s, P s → wp x (fun _ => P) (fun _ => P) s

section Keeps

variable {P : σ → Prop}

lemma Within.keeps (h : Within R x) (hP : ∀ {s s'}, P s → R s s' → P s') : Keeps P x :=
  fun s hs => (h s).mono (fun _ _ => hP hs) fun _ _ => hP hs

theorem Keeps.bind (hx : Keeps P x) (hf : ∀ a, Keeps P (f a)) : Keeps P (x >>= f) :=
  fun s hs => (hx s hs).bind hf

theorem Keeps.loop (h : ∀ b, Keeps P (body b)) (n : ℕ) (b : β) : Keeps P (loop body out n b) := by
  induction n generalizing b with
  | zero => exact fun s hs => hs
  | succ n ih =>
    refine (h b).bind fun r => ?_
    cases r with
    | inl b' => exact ih b'
    | inr a => exact fun s hs => hs

end Keeps

/-! ## What depends on a log -/

/-- If the entries of the log since `s` are all good, the property holds. -/
def Given (log : σ → List τ) (good : τ → Prop) (s : σ) (P : σ → Prop) (s' : σ) : Prop :=
  ∃ new, log s' = log s ++ new ∧ ((∀ t ∈ new, good t) → P s')

section Given

variable {log : σ → List τ} {good : τ → Prop} {P Q : σ → Prop} {s s' s'' : σ}

lemma Given.start (h : P s) : Given log good s P s := ⟨[], (List.append_nil _).symm, fun _ => h⟩

/-- More entries are made. -/
theorem Given.next {new : List τ} (h : Given log good s P s') (hlog : log s'' = log s' ++ new)
    (hP : (∀ t ∈ new, good t) → P s' → Q s'') : Given log good s Q s'' := by
  obtain ⟨old, hold, hP'⟩ := h
  refine ⟨old ++ new, by rw [hlog, hold, List.append_assoc], fun hgood => ?_⟩
  obtain ⟨hgood1, hgood2⟩ := List.forall_mem_append.mp hgood
  exact hP hgood2 (hP' hgood1)

lemma Given.quiet (h : Given log good s P s') (hlog : log s'' = log s') (hP : P s' → Q s'') :
    Given log good s Q s'' :=
  h.next (hlog.trans (List.append_nil _).symm) fun _ => hP

lemma Given.mono (h : Given log good s P s') (hP : P s' → Q s') : Given log good s Q s' :=
  h.quiet rfl hP

lemma Given.of_forall (h : Given log good s P s')
    (hgood : ∀ t ∈ (log s').drop (log s).length, good t) : P s' := by
  obtain ⟨new, hnew, hP⟩ := h
  rw [hnew, List.drop_left] at hgood
  exact hP hgood

end Given

end Program
