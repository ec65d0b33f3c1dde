import Tailcat.Net.PathTable

/-!
# The candidates in use

However many addresses are announced or observed, the candidate in use keeps its place in the table, and
one that has answered is not evicted while there is another one to evict.

## Main results

* `Table.Move.sound`, `Table.Move.keeps`: what a move leaves in the table;
* `Path.candidates_kept`: the invariant of the table, over every run.
-/

namespace Net

namespace Table

variable {B : Box} {task : Task} {t u u' : Table} {i : ℕ} {f : Cand → Cand}
  {history : List PathEvent}

lemma getElem?_modify {cands : List Cand} {c : Cand} {j : ℕ} (hc : cands[j]? = some c) :
    (cands.modify i f)[j]? = some (if i = j then f c else c) := by
  rw [List.getElem?_modify, hc]
  split <;> rfl

/-- The endpoints are different, there are not too many of them, and the one in use has answered. -/
structure Sound (t : Table) : Prop where
  nodup : (t.cands.map Cand.ep).Nodup
  length_le : t.cands.length ≤ maxCandidates
  inUse : t.Proves t.best

lemma Sound.modify (h : t.Sound)
    (hf : ∀ c, (f c).ep = c.ep ∧ (c.proven = true → (f c).proven = true)) :
    Sound { t with cands := t.cands.modify i f, history } where
  nodup := by
    rw [Path.map_modify fun c => (hf c).1]
    exact h.nodup
  length_le := (List.length_modify ..).trans_le h.length_le
  inUse := by
    intro j hj
    obtain ⟨c, hc, hproven⟩ := h.inUse j hj
    refine ⟨_, getElem?_modify hc, ?_⟩
    split
    · exact (hf c).2 hproven
    · exact hproven

theorem Move.sound (hmove : Move B task t u) (h : t.Sound) : u.Sound := by
  have hne : ∀ {ep}, (∀ c ∈ t.cands, c.ep ≠ ep) → ep ∉ t.cands.map Cand.ep := by
    intro ep hnew hmem
    obtain ⟨c, hc, hep⟩ := List.mem_map.mp hmem
    exact hnew c hc hep
  cases hmove with
  | @add ep _ hroom hnew =>
    refine ⟨?_, (List.length_append ..).trans_le hroom, fun j hj => ?_⟩
    · rw [List.map_append]
      exact h.nodup.append (List.nodup_singleton _) (by simpa [Cand.fresh] using hne hnew)
    · obtain ⟨c, hc, hproven⟩ := h.inUse j hj
      exact ⟨c, List.getElem?_append_left (List.getElem?_eq_some_iff.mp hc).1 ▸ hc, hproven⟩
  | @replace ep i _ hi hnew =>
    refine ⟨?_, (List.length_set ..).trans_le h.length_le, fun j hj => ?_⟩
    · rw [List.map_set]
      exact h.nodup.set (hne hnew)
    · obtain ⟨c, hc, hproven⟩ := h.inUse j hj
      have hij : i ≠ j := fun heq => hi.1 (heq ▸ hj)
      exact ⟨c, (List.getElem?_set_ne hij).trans hc, hproven⟩
  | adjust i hf => exact h.modify fun c => ⟨(hf c).1, fun hproven => (hf c).2.2.1.trans hproven⟩
  | ping => exact h.modify fun _ => ⟨rfl, id⟩
  | pong => exact h.modify fun _ => ⟨rfl, fun _ => rfl⟩
  | reply => exact ⟨h.nodup, h.length_le, h.inUse⟩
  | choose _ hbest => exact ⟨h.nodup, h.length_le, hbest⟩

/-! ## What stays in its place -/

/-- The candidate is in use, or it has answered and there is another one to evict. -/
def Safe (t : Table) (i : ℕ) (c : Cand) : Prop := t.best = some i ∨ c.proven = true ∧ t.Spare

/-- From `t` to `u` the candidates that are safe have kept their places. -/
structure Keeps (task : Task) (t u : Table) : Prop where
  cands : ∀ i c, t.cands[i]? = some c → t.Safe i c →
    ∃ c', u.cands[i]? = some c' ∧ c'.ep = c.ep ∧ (c.proven = true → c'.proven = true)
  best : task = .adds → u.best = t.best
  spare : task = .adds → t.Spare → u.Spare

lemma Keeps.modify (h : Keeps task t u)
    (hf : ∀ c, (f c).ep = c.ep ∧ (c.proven = true → (f c).proven = true))
    (hspare : task = .adds → ∀ c, (f c).proven = c.proven) :
    Keeps task t { u with cands := u.cands.modify i f, history } where
  cands := by
    intro j c hc hsafe
    obtain ⟨c', hc', hep, hproven⟩ := h.cands j c hc hsafe
    refine ⟨_, getElem?_modify hc', ?_⟩
    split
    · exact ⟨(hf c').1.trans hep, fun hp => (hf c').2 (hproven hp)⟩
    · exact ⟨hep, hproven⟩
  best := h.best
  spare := by
    intro htask ht
    obtain ⟨j, c, hc, hproven, hne⟩ := h.spare htask ht
    refine ⟨j, _, getElem?_modify hc, ?_, hne⟩
    split
    · exact (hspare htask c).trans hproven
    · exact hproven

theorem Move.keeps (hmove : Move B task u u') (h : Keeps task t u) : Keeps task t u' := by
  cases hmove with
  | @add ep htask _ _ =>
    have hget : ∀ {j c}, u.cands[j]? = some c → (u.cands ++ [Cand.fresh ep])[j]? = some c :=
      fun hc => List.getElem?_append_left (List.getElem?_eq_some_iff.mp hc).1 ▸ hc
    refine ⟨fun j c hc hsafe => ?_, h.best, fun htask ht => ?_⟩
    · obtain ⟨c', hc', hrest⟩ := h.cands j c hc hsafe
      exact ⟨c', hget hc', hrest⟩
    · obtain ⟨j, c, hc, hrest⟩ := h.spare htask ht
      exact ⟨j, c, hget hc, hrest⟩
  | @replace ep i htask hi _ =>
    obtain ⟨hbest, c, hc, hproven⟩ := hi
    refine ⟨fun j d hd hsafe => ?_, h.best, fun _ _ => ?_⟩
    · obtain ⟨d', hd', hep, hmono⟩ := h.cands j d hd hsafe
      -- a candidate that is safe cannot be evicted
      have hij : i ≠ j := by
        rintro rfl
        obtain rfl := Option.some.inj (hc.symm.trans hd')
        rcases hsafe with huse | ⟨hp, hspare⟩
        · exact hbest ((h.best htask).trans huse)
        · exact hproven (hmono hp) (h.spare htask hspare)
      exact ⟨d', (List.getElem?_set_ne hij).trans hd', hep, hmono⟩
    · exact ⟨i, .fresh ep, List.getElem?_set_self (List.getElem?_eq_some_iff.mp hc).1, rfl, hbest⟩
  | adjust i hf =>
    exact h.modify (fun c => ⟨(hf c).1, fun hproven => (hf c).2.2.1.trans hproven⟩)
      fun _ c => (hf c).2.2.1
  | ping => exact h.modify (fun _ => ⟨rfl, id⟩) fun _ _ => rfl
  | pong _ _ _ htask =>
    refine h.modify (fun _ => ⟨rfl, fun _ => rfl⟩) fun hadds => ?_
    rw [htask] at hadds
    cases hadds
  | reply => exact ⟨h.cands, h.best, h.spare⟩
  | choose htask =>
    have hno : task ≠ .adds := by
      rw [htask]
      nofun
    exact ⟨h.cands, fun hadds => absurd hadds hno, fun hadds => absurd hadds hno⟩

theorem Moves.keeps (h : Moves B task t u) : Keeps task t u :=
  h.invariant Move.keeps ⟨fun _ c hc _ => ⟨c, hc, rfl, id⟩, fun _ => rfl, fun _ => id⟩

end Table

namespace Path

variable {B : Box} {p : Path}

/-- As long as nothing is chosen, the candidate in use stays where it is. -/
theorem in_use_stays (p : Path) (hp : p.table.Sound) (calls : List Call)
    (hcalls : ∀ c ∈ calls, ¬c.Chooses) :
    (calls.foldl (step B) p).best = p.best ∧ ∀ i, p.best = some i →
      (calls.foldl (step B) p).cands[i]?.map Cand.ep = p.cands[i]?.map Cand.ep := by
  induction calls generalizing p with
  | nil => exact ⟨rfl, fun _ _ => rfl⟩
  | cons c calls ih =>
    obtain ⟨hc, hcalls⟩ := List.forall_mem_cons.mp hcalls
    have hbest := step_best (B := B) (p := p) hc
    obtain ⟨ihbest, ihcands⟩ := ih (p.step B c) (step_invariant Table.Move.sound p c hp) hcalls
    refine ⟨ihbest.trans hbest, fun i hi => (ihcands i (hbest.trans hi)).trans ?_⟩
    obtain ⟨task, -, hmoves⟩ := step_moves p c
    obtain ⟨cand, hcand, -⟩ := hp.inUse i hi
    obtain ⟨cand', hcand', hep, -⟩ := hmoves.keeps.cands i cand hcand (.inl hi)
    change (p.step B c).cands[i]? = some cand' at hcand'
    change p.cands[i]? = some cand at hcand
    rw [hcand', hcand, Option.map_some, Option.map_some, hep]

/-- In every run the endpoints are different and at most `maxCandidates`, and the candidate in use has
answered. No other call than a tick, which chooses again, moves or replaces it, and while there is
another candidate that has not answered, no call evicts one that has. -/
theorem candidates_kept (B : Box) (priv pub peer : DiscoKey) (calls more : List Call)
    (call : Call) :
    let p := calls.foldl (step B) (init priv pub peer)
    (p.cands.map Cand.ep).Nodup ∧ p.cands.length ≤ maxCandidates ∧
      (∀ i, p.best = some i → ∃ c, p.cands[i]? = some c ∧ c.proven = true) ∧
      ((∀ c ∈ more, ¬c.Chooses) →
        (more.foldl (step B) p).best = p.best ∧ ∀ i, p.best = some i →
          (more.foldl (step B) p).cands[i]?.map Cand.ep = p.cands[i]?.map Cand.ep) ∧
      ∀ i c, p.cands[i]? = some c → p.best = some i ∨ c.proven = true ∧ p.table.Spare →
        ∃ c', (p.step B call).cands[i]? = some c' ∧ c'.ep = c.ep ∧
          (c.proven = true → c'.proven = true) := by
  have hstart : (init priv pub peer).table.Sound := ⟨List.nodup_nil, Nat.zero_le _, nofun⟩
  have hsound := run_invariant (B := B) Table.Move.sound hstart calls
  obtain ⟨task, -, hmoves⟩ := step_moves (calls.foldl (step B) (init priv pub peer)) call
  exact ⟨hsound.nodup, hsound.length_le, hsound.inUse, in_use_stays _ hsound more,
    hmoves.keeps.cands⟩

end Path

end Net
