import Tailcat.Net.PathTable

/-!
# Only a proven path is used

A direct endpoint is reported only if it has answered: since it was last added to the table, a probe
was sent to it, and later a packet came over UDP from it that opened to the answer to that probe.

## Main results

* `Table.Move.answers`: every move keeps this invariant;
* `Path.direct_is_proven`: whenever a direct endpoint is reported, it was proven.
-/

namespace Net

open List

namespace PathHistory

variable {B : Box} {priv peer : DiscoKey} {h : List PathEvent} {ep : Endpoint} {txid : Txid} {t : ℕ}
  {e : PathEvent}

def Probed (h : List PathEvent) (ep : Endpoint) (txid : Txid) : Prop :=
  ∃ newer scheduled s older, h = newer ++ .ping scheduled ep txid s :: older ∧ .added ep ∉ newer

/-- At time `t`, and since the endpoint was last added, a packet came from it that opened to the answer
to a probe that had been sent to it. -/
def Proven (B : Box) (priv peer : DiscoKey) (h : List PathEvent) (ep : Endpoint) (t : ℕ) : Prop :=
  ∃ newer txid pkt seen older, h = newer ++ .pong ep txid t pkt :: older ∧ .added ep ∉ newer ∧
    Disco.openMsg B pkt priv peer = .ok (.pong txid seen) ∧ Probed older ep txid

lemma Probed.cons (hp : Probed h ep txid) (he : e ≠ .added ep) : Probed (e :: h) ep txid := by
  obtain ⟨newer, scheduled, s, older, rfl, hnot⟩ := hp
  exact ⟨e :: newer, scheduled, s, older, rfl, not_mem_cons_of_ne_of_not_mem he.symm hnot⟩

lemma Proven.cons (hp : Proven B priv peer h ep t) (he : e ≠ .added ep) :
    Proven B priv peer (e :: h) ep t := by
  obtain ⟨newer, txid, pkt, seen, older, rfl, hnot, hopen, hprobed⟩ := hp
  exact ⟨e :: newer, txid, pkt, seen, older, rfl,
    not_mem_cons_of_ne_of_not_mem he.symm hnot, hopen, hprobed⟩

end PathHistory

namespace Table

open PathHistory

variable {B : Box} {t t' : Table} {c : Cand} {cands : List Cand}

/-- What the history says about a candidate. -/
structure Backed (B : Box) (t : Table) (c : Cand) : Prop where
  probed : c.probeOutstanding = true → Probed t.history c.ep c.txid
  proven : c.proven = true → Proven B t.priv t.peer t.history c.ep c.lastPongMs

def Answers (B : Box) (t : Table) : Prop := ∀ c ∈ t.cands, Backed B t c

lemma Backed.cons {e : PathEvent} (h : Backed B t c) (he : e ≠ .added c.ep) :
    Backed B { t with cands, history := e :: t.history } c :=
  ⟨fun hout => (h.probed hout).cons he, fun hproven => (h.proven hproven).cons he⟩

lemma backed_fresh (t : Table) (ep : Endpoint) : Backed B t (.fresh ep) := ⟨nofun, nofun⟩

lemma mem_modify {i : ℕ} {f : Cand → Cand} (h : c ∈ cands.modify i f) :
    c ∈ cands ∨ ∃ old, cands[i]? = some old ∧ c = f old := by
  obtain ⟨j, hj⟩ := mem_iff_getElem?.mp h
  rw [List.getElem?_modify] at hj
  split at hj
  · next hij =>
    obtain ⟨old, hold, rfl⟩ := Option.map_eq_some_iff.mp hj
    exact .inr ⟨old, hij ▸ hold, rfl⟩
  · exact .inl (mem_iff_getElem?.mpr ⟨j, by simpa using hj⟩)

/-- Every move keeps the invariant. -/
theorem Move.answers {task : Task} (hmove : Move B task t t') (h : Answers B t) : Answers B t' := by
  cases hmove with
  | add _ _ hnew =>
    intro c hc
    obtain hold | hfresh := mem_append.mp hc
    · exact (h c hold).cons (by simpa using (hnew c hold).symm)
    · rw [mem_singleton.mp hfresh]
      exact backed_fresh _ _
  | replace _ _ hnew =>
    intro c hc
    obtain hold | rfl := mem_or_eq_of_mem_set hc
    · exact (h c hold).cons (by simpa using (hnew c hold).symm)
    · exact backed_fresh _ _
  | @adjust i f hf =>
    intro c hc
    obtain hold | ⟨old, hget, rfl⟩ := mem_modify hc
    · exact ⟨(h c hold).probed, (h c hold).proven⟩
    obtain ⟨hep, htxid, hproven, hpong, hout⟩ := hf old
    have hbacked := h old (mem_of_getElem? hget)
    refine ⟨?_, ?_⟩
    · intro hout'
      rw [hep, htxid]
      exact hbacked.probed (hout hout')
    · intro hproven'
      rw [hep, hpong]
      exact hbacked.proven (hproven ▸ hproven')
  | @ping i c scheduled txid now hget =>
    intro c' hc'
    obtain hold | ⟨old, hget', rfl⟩ := mem_modify hc'
    · exact (h c' hold).cons nofun
    obtain rfl := Option.some.inj (hget.symm.trans hget')
    refine ⟨?_, ?_⟩
    · intro _
      exact ⟨[], scheduled, now, t.history, rfl, not_mem_nil⟩
    · intro hproven
      exact ((h c (mem_of_getElem? hget)).proven hproven).cons nofun
  | @pong i c pkt seen now _ hget hout hopen =>
    intro c' hc'
    obtain hold | ⟨old, hget', rfl⟩ := mem_modify hc'
    · exact (h c' hold).cons nofun
    obtain rfl := Option.some.inj (hget.symm.trans hget')
    -- the answer is to the probe that was outstanding
    have hprobed := (h c (mem_of_getElem? hget)).probed hout
    refine ⟨nofun, ?_⟩
    intro _
    exact ⟨[], c.txid, pkt, seen, t.history, rfl, not_mem_nil, hopen, hprobed⟩
  | @reply e he =>
    intro c hc
    refine (h c hc).cons ?_
    rintro rfl
    exact he
  | choose => exact fun c hc => ⟨(h c hc).probed, (h c hc).proven⟩

end Table

namespace Path

open PathHistory

lemma run_answers (B : Box) (priv pub peer : DiscoKey) (calls : List Call) :
    Table.Answers B (calls.foldl (step B) (init priv pub peer)).table := by
  have hstart : Table.Answers B (init priv pub peer).table := nofun
  exact run_invariant Table.Move.answers hstart calls

lemma run_keys (B : Box) (priv pub peer : DiscoKey) (calls : List Call) :
    (calls.foldl (step B) (init priv pub peer)).table.priv = priv ∧
      (calls.foldl (step B) (init priv pub peer)).table.peer = peer := by
  refine run_invariant (I := fun t => t.priv = priv ∧ t.peer = peer) (fun hmove h => ?_) ⟨rfl, rfl⟩ calls
  cases hmove <;> exact h

/-- In every run, whenever a direct endpoint is reported, an authentic answer to a probe of exactly that
endpoint has come over UDP from exactly that endpoint, since it was last added to the table. -/
theorem direct_is_proven (B : Box) (priv pub peer : DiscoKey) (calls : List Call) (now : ℕ)
    (ep : Endpoint)
    (hdirect : (calls.foldl (step B) (init priv pub peer)).direct now = some ep) :
    ∃ t, Proven B priv peer (calls.foldl (step B) (init priv pub peer)).history ep t := by
  have hanswers := run_answers B priv pub peer calls
  obtain ⟨hpriv, hpeer⟩ := run_keys B priv pub peer calls
  obtain ⟨c, hc, rfl⟩ := Option.map_eq_some_iff.mp hdirect
  obtain ⟨hbest, halive⟩ := Option.filter_eq_some_iff.mp hc
  obtain ⟨i, -, hget⟩ := Option.bind_eq_some_iff.mp hbest
  have hproven : c.proven = true := (Bool.and_eq_true_iff.mp halive).1
  have hbacked := (hanswers c (mem_of_getElem? hget)).proven hproven
  rw [hpriv, hpeer] at hbacked
  exact ⟨c.lastPongMs, hbacked⟩

/-- An endpoint is heard from, probed, and answers. -/
theorem direct_is_proven_answer :
    let calls : List Call := [.noteRecv (plainEndpoint 1) 10, .tick 20 (plainDraw 7),
      .inputDisco (plainEndpoint 1) (plainPong 7) 30 (plainDraw 0), .tick 40 (plainDraw 0)]
    let p := calls.foldl (step plainBox) plain
    p.direct 50 = some (plainEndpoint 1) ∧
      ∃ t, Proven plainBox (.replicate _ 0) (.replicate _ 0) p.history (plainEndpoint 1) t := by
  intro calls p
  have hdirect : p.direct 50 = some (plainEndpoint 1) := by decide +kernel
  exact ⟨hdirect, direct_is_proven plainBox _ _ _ calls 50 (plainEndpoint 1) hdirect⟩

end Path

end Net
