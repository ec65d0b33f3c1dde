import Tailcat.Library.Run
import Tailcat.Net.Path

/-!
# What happens to the candidates of a path

The table of a path is its candidates with the choice and the history. `Table.Move` lists what can
happen to it, and every call is a sequence of moves.

## Main results

* `Path.worstCand_evictable`: which candidate makes room for another one;
* `Path.nearest_some`, `Path.rechoose_best`: which candidate is chosen;
* `Path.step_moves`: a call is a sequence of moves;
* `Path.run_invariant`: what every move keeps holds in every run.
-/

namespace Net

open Relation List

/-- The candidates of a path with the choice and the history, and the keys that packets are opened
with. -/
structure Table where
  priv : DiscoKey
  peer : DiscoKey
  cands : List Cand
  best : Option ℕ
  history : List PathEvent

/-- The change keeps the endpoint, the last transaction id and the proof, and at most drops the probe
that is outstanding. -/
def Cand.Adjusts (f : Cand → Cand) : Prop :=
  ∀ c, (f c).ep = c.ep ∧ (f c).txid = c.txid ∧ (f c).proven = c.proven ∧
    (f c).lastPongMs = c.lastPongMs ∧ ((f c).probeOutstanding = true → c.probeOutstanding = true)

/-- Something other than a probe was sent. -/
def PathEvent.IsReply : PathEvent → Prop
  | .answered _ _ | .callMeMaybe _ => True
  | _ => False

variable {I : Table → Prop}

namespace Table

/-- A candidate that is not in use has not answered. -/
def Spare (t : Table) : Prop := ∃ i c, t.cands[i]? = some c ∧ c.proven = false ∧ t.best ≠ some i

/-- The candidate can make room for another one: it is not in use, and it has not answered or there is
none that has not. -/
def Evictable (t : Table) (i : ℕ) : Prop :=
  t.best ≠ some i ∧ ∃ c, t.cands[i]? = some c ∧ (c.proven = true → ¬t.Spare)

/-- The candidate of index `i`, if any, has answered. -/
def Proves (t : Table) (best : Option ℕ) : Prop :=
  ∀ i, best = some i → ∃ c, t.cands[i]? = some c ∧ c.proven = true

/-- What a call does to the table: it adds candidates, it takes an answer, or it chooses. -/
inductive Task
  | adds
  | answers
  | chooses
deriving DecidableEq

inductive Move (B : Box) (task : Task) : Table → Table → Prop
  | add (t : Table) {ep : Endpoint} (htask : task = .adds) (hroom : t.cands.length < maxCandidates)
    (hnew : ∀ c ∈ t.cands, c.ep ≠ ep) :
    Move B task t { t with cands := t.cands ++ [.fresh ep], history := .added ep :: t.history }
  | replace (t : Table) {ep : Endpoint} {i : ℕ} (htask : task = .adds) (hi : t.Evictable i)
    (hnew : ∀ c ∈ t.cands, c.ep ≠ ep) :
    Move B task t { t with cands := t.cands.set i (.fresh ep), history := .added ep :: t.history }
  | adjust (t : Table) (i : ℕ) {f : Cand → Cand} (hf : Cand.Adjusts f) :
    Move B task t { t with cands := t.cands.modify i f }
  | ping (t : Table) {i : ℕ} {c : Cand} (scheduled : Bool) (txid : Txid) (now : ℕ)
    (hc : t.cands[i]? = some c) :
    Move B task t { t with
      cands := t.cands.modify i fun c => c.pinged txid now
      history := .ping scheduled c.ep txid now :: t.history }
  | pong (t : Table) {i : ℕ} {c : Cand} (pkt : List UInt8) (seen : Endpoint) (now : ℕ)
    (htask : task = .answers) (hc : t.cands[i]? = some c) (hout : c.probeOutstanding = true)
    (hopen : Disco.openMsg B pkt t.priv t.peer = .ok (.pong c.txid seen)) :
    Move B task t { t with
      cands := t.cands.modify i fun c => c.ponged now
      history := .pong c.ep c.txid now pkt :: t.history }
  | reply (t : Table) {e : PathEvent} (he : e.IsReply) :
    Move B task t { t with history := e :: t.history }
  | choose (t : Table) {best : Option ℕ} (htask : task = .chooses) (hbest : t.Proves best) :
    Move B task t { t with best }

abbrev Moves (B : Box) (task : Task) : Table → Table → Prop := ReflTransGen (Move B task)

section Moves

variable {B : Box} {task : Task} {t t' : Table}

lemma Moves.invariant (h : Moves B task t t') (hstep : ∀ {t t'}, Move B task t t' → I t → I t')
    (hstart : I t) : I t' := by
  induction h with
  | refl => exact hstart
  | tail _ hmove ih => exact hstep hmove ih

lemma Moves.best_eq (h : Moves B task t t') (htask : task ≠ .chooses) : t'.best = t.best := by
  refine h.invariant (I := fun u => u.best = t.best) (fun hmove hu => ?_) rfl
  cases hmove with
  | choose hchooses => exact absurd hchooses htask
  | _ => exact hu

end Moves

end Table

lemma Path.map_modify {α : Type} {g : Cand → α} {f : Cand → Cand} (hf : ∀ c, g (f c) = g c)
    (cands : List Cand) (i : ℕ) : (cands.modify i f).map g = cands.map g := by
  apply ext_getElem?
  intro j
  rw [getElem?_map, getElem?_map, getElem?_modify]
  split
  · cases cands[j]? <;> simp [hf]
  · simp

namespace Cand

lemma adjusts_heard (now : ℕ) : Adjusts fun c => c.heard now := fun _ => ⟨rfl, rfl, rfl, rfl, id⟩

lemma adjusts_sleep (now : ℕ) : Adjusts fun c => c.sleep now := fun _ => ⟨rfl, rfl, rfl, rfl, nofun⟩

lemma adjusts_resume (now : ℕ) : Adjusts fun c => c.resume now := by
  intro c
  unfold resume
  dsimp only
  split
  · exact ⟨rfl, rfl, rfl, rfl, nofun⟩
  · exact ⟨rfl, rfl, rfl, rfl, id⟩

end Cand

namespace Path

open Table (Move Moves)

def table (p : Path) : Table :=
  { priv := p.ourDiscoPriv, peer := p.peerDiscoPub, cands := p.cands, best := p.best
    history := p.history }

variable {B : Box} {task : Table.Task} {ep : Endpoint} {i : ℕ} {c : Cand}

/-! ## The table -/

lemma ep_of_findCand {p : Path} (h : p.findCand ep = some i) (hc : p.cands[i]? = some c) :
    c.ep = ep := by
  obtain ⟨hlt, hep, -⟩ := findIdx?_eq_some_iff_getElem.mp h
  rw [getElem?_eq_getElem hlt] at hc
  obtain rfl := Option.some.inj hc
  exact of_decide_eq_true hep

lemma ne_of_findCand {p : Path} (h : p.findCand ep = none) : ∀ c ∈ p.cands, c.ep ≠ ep := by
  intro c hc hep
  have hnot := findIdx?_eq_none_iff.mp h c hc
  exact of_decide_eq_false hnot hep

lemma foldl_worse (best : Option ℕ) (l : List (Cand × ℕ)) (w : Option (Cand × ℕ)) (r : Cand × ℕ)
    (h : l.foldl (worse best) w = some r) :
    (w = some r ∨ r ∈ l ∧ best ≠ some r.2) ∧ (r.1.proven = true →
      (∀ x ∈ l, best ≠ some x.2 → x.1.proven = true) ∧ ∀ y, w = some y → y.1.proven = true) := by
  induction l generalizing w with
  | nil =>
    obtain rfl : w = some r := h
    exact ⟨.inl rfl, fun hr => ⟨nofun, fun y hy => Option.some.inj hy ▸ hr⟩⟩
  | cons x l ih =>
    obtain ⟨hfrom, hproven⟩ := ih _ h
    -- the step takes the worse of two, and one that has answered only if both have
    have hstep : (worse best w x = w ∨ worse best w x = some x ∧ best ≠ some x.2) ∧
        ((∀ y, worse best w x = some y → y.1.proven = true) →
          (best ≠ some x.2 → x.1.proven = true) ∧ ∀ y, w = some y → y.1.proven = true) := by
      unfold worse
      by_cases hbest : best = some x.2
      · rw [if_pos hbest]
        exact ⟨.inl rfl, fun hall => ⟨fun hne => absurd hbest hne, hall⟩⟩
      rw [if_neg hbest]
      cases w with
      | none => exact ⟨.inr ⟨rfl, hbest⟩, fun hall => ⟨fun _ => hall x rfl, nofun⟩⟩
      | some w =>
        dsimp only
        split_ifs <;> simp_all
    refine ⟨?_, fun hr => ?_⟩
    · rcases hfrom with hfrom | ⟨hmem, hne⟩
      · rcases hstep.1 with heq | ⟨heq, hne⟩
        · exact .inl (heq.symm.trans hfrom)
        · obtain rfl := Option.some.inj (heq.symm.trans hfrom)
          exact .inr ⟨mem_cons_self, hne⟩
      · exact .inr ⟨mem_cons_of_mem x hmem, hne⟩
    · obtain ⟨hrest, hw⟩ := hproven hr
      obtain ⟨hx, hw'⟩ := hstep.2 hw
      exact ⟨forall_mem_cons.mpr ⟨hx, hrest⟩, hw'⟩

/-- The candidate that makes room is not in use, and has answered only if all others have. -/
theorem worstCand_evictable {p : Path} (h : p.worstCand = some i) : p.table.Evictable i := by
  obtain ⟨⟨c, j⟩, hfold, rfl⟩ := Option.map_eq_some_iff.mp h
  obtain ⟨hfrom, hproven⟩ := foldl_worse p.best _ none _ hfold
  obtain ⟨hmem, hne⟩ := hfrom.resolve_left nofun
  refine ⟨hne, c, mk_mem_zipIdx_iff_getElem?.mp hmem, fun hc => ?_⟩
  rintro ⟨k, c', hc', hnot, hk⟩
  have hall := (hproven hc).1 (c', k) (mk_mem_zipIdx_iff_getElem?.mpr hc') hk
  rw [hnot] at hall
  cases hall

variable (p : Path) (src : Endpoint) (now : ℕ) (d : PathDraw)

lemma addCand_moves (ep : Endpoint) : Moves B .adds p.table (p.addCand ep).1.table := by
  unfold addCand
  split
  · exact .refl
  split
  · exact .refl
  rename_i hfind
  have hnew := ne_of_findCand hfind
  split
  · next hroom => exact .single (.add p.table rfl hroom hnew)
  split
  · exact .refl
  · next i hworst => exact .single (.replace p.table rfl (worstCand_evictable hworst) hnew)

lemma addAll_moves (eps : List Endpoint) : Moves B .adds p.table (p.addAll eps).table :=
  Run.foldl_invariant (I := fun q => Moves B .adds p.table q.table) .refl
    (fun q ep h => h.trans (addCand_moves q ep)) eps

lemma addCand_heard_moves (ep : Endpoint) (now : ℕ) :
    Moves B .adds p.table (match p.addCand ep with
      | (p, some i) => p.modify i fun c => c.heard now
      | (p, none) => p).table := by
  have hadd := addCand_moves (B := B) p ep
  generalize p.addCand ep = added at hadd ⊢
  obtain ⟨q, i⟩ := added
  cases i with
  | none => exact hadd
  | some i => exact hadd.tail (.adjust q.table i (Cand.adjusts_heard now))

/-! ## Sending -/

lemma sendPing_moves (scheduled : Bool) (i now : ℕ) (d : PathDraw) :
    Moves B task p.table (p.sendPing scheduled i now d).table := by
  unfold sendPing
  split
  · next c txid hc _ => exact .single (.ping p.table scheduled txid now hc)
  · exact .refl

lemma sendCallMeMaybe_moves : Moves B task p.table (p.sendCallMeMaybe B d).1.table := by
  unfold sendCallMeMaybe
  dsimp only
  split
  · exact .refl
  · exact .single (.reply p.table trivial)

lemma sendPong_moves (dst : Endpoint) (txid : Txid) (d : PathDraw) :
    Moves B task p.table (p.sendPong B dst txid d).1.table := by
  unfold sendPong
  dsimp only
  split
  · exact .refl
  · exact .single (.reply p.table trivial)

/-! ## Calls -/

lemma table_noteSeen : (p.noteSeen src).table = p.table := by
  unfold noteSeen
  split <;> rfl

lemma inputDisco_moves (pkt : List UInt8) (now : ℕ) (d : PathDraw) :
    ∃ task ≠ .chooses, Moves B task p.table (p.inputDisco B src pkt now d).1.table := by
  unfold inputDisco
  split
  · exact ⟨.adds, nofun, .refl⟩
  split
  · exact ⟨.adds, nofun, .refl⟩
  · next txid _ _ _ =>
    exact ⟨.adds, nofun, (addCand_heard_moves
      { p with stats.pingsReceived := p.stats.pingsReceived + 1 } src now).trans
        (sendPong_moves _ src txid d)⟩
  · next txid seen hopen =>
    split
    · exact ⟨.adds, nofun, .refl⟩
    rename_i i hfind
    split
    · exact ⟨.adds, nofun, .refl⟩
    rename_i c hc
    split
    · exact ⟨.adds, nofun, .refl⟩
    rename_i haccept
    simp only [Bool.or_eq_true, Bool.not_eq_true', decide_eq_true_eq, not_or,
      Bool.not_eq_false, not_not] at haccept
    obtain ⟨hout, htxid⟩ := haccept
    have hep := ep_of_findCand hfind hc
    rw [table_noteSeen]
    have hmove := Move.pong p.table pkt seen now rfl hc hout (by rw [htxid]; exact hopen)
    rw [hep, htxid] at hmove
    exact ⟨.answers, nofun, .single hmove⟩
  · next eps _ => exact ⟨.adds, nofun, addAll_moves p eps⟩

lemma probeNow_moves (p : Path) (i : ℕ) : Moves B task p.table (probeNow now d p i).table := by
  unfold probeNow
  split
  · exact .refl
  split
  · exact sendPing_moves p false i now d
  · exact .refl

lemma inputRelay_moves (pkt : List UInt8) (now : ℕ) (d : PathDraw) :
    Moves B .adds p.table (p.inputRelay B pkt now d).1.table := by
  unfold inputRelay
  split
  · exact .refl
  split
  · next eps _ =>
    refine Run.foldl_invariant (I := fun q => Moves B .adds p.table q.table) ?_
      (fun q i h => h.trans (probeNow_moves now d q i)) _
    exact addAll_moves p eps
  · exact .refl

lemma noteRecv_moves : Moves B .adds p.table (p.noteRecv src now).table := by
  unfold noteRecv
  split
  · next i _ => exact .single (.adjust p.table i (Cand.adjusts_heard now))
  · exact addCand_heard_moves p src now

/-! ## Choosing -/

theorem nearest_some {p : Path} {now : ℕ} {skip : Option ℕ} (h : p.nearest now skip = some (c, i)) :
    p.cands[i]? = some c ∧ c.alive now = true ∧ skip ≠ some i := by
  -- the invariant of the loop, over the part of the table that was looked at
  have hloop : ∀ (l : List (Cand × ℕ)) (best : Option (Cand × ℕ)),
      (∀ b ∈ best, p.cands[b.2]? = some b.1 ∧ b.1.alive now = true ∧ skip ≠ some b.2) →
      (∀ b ∈ l, p.cands[b.2]? = some b.1) →
      ∀ b ∈ l.foldl (nearer now skip) best,
        p.cands[b.2]? = some b.1 ∧ b.1.alive now = true ∧ skip ≠ some b.2 := by
    intro l
    induction l with
    | nil => exact fun _ hbest _ => hbest
    | cons a l ih =>
      intro best hbest hl
      refine ih _ ?_ fun b hb => hl b (mem_cons_of_mem _ hb)
      intro b hb
      unfold nearer at hb
      split at hb
      · exact hbest b hb
      rename_i hkeep
      have ha : p.cands[a.2]? = some a.1 ∧ a.1.alive now = true ∧ skip ≠ some a.2 := by
        simp only [Bool.or_eq_true, decide_eq_true_eq, Bool.not_eq_true', not_or,
          Bool.not_eq_false] at hkeep
        exact ⟨hl a mem_cons_self, hkeep.2, hkeep.1⟩
      split at hb
      · obtain rfl := Option.mem_some_iff.mp hb
        exact ha
      · split at hb
        · obtain rfl := Option.mem_some_iff.mp hb
          exact ha
        · obtain rfl := Option.mem_some_iff.mp hb
          exact hbest _ rfl
  refine hloop p.cands.zipIdx none nofun ?_ (c, i) h
  intro b hb
  exact mem_zipIdx_iff_getElem?.mp hb

theorem rechoose_best {p : Path} {now : ℕ} (h : (p.rechoose now).best = some i)
    (hmoved : p.best ≠ some i) :
    ∃ c, p.cands[i]? = some c ∧ c.alive now = true := by
  unfold rechoose at h
  split at h
  · split at h
    · next other j hnearest =>
      split at h
      · obtain rfl := Option.some.inj h
        obtain ⟨hget, halive, -⟩ := nearest_some hnearest
        exact ⟨other, hget, halive⟩
      · exact absurd h hmoved
    · exact absurd h hmoved
  · dsimp only at h
    split at h
    · exact absurd h hmoved
    obtain ⟨⟨c, j⟩, hnearest, rfl⟩ := Option.map_eq_some_iff.mp h
    obtain ⟨hget, halive, -⟩ := nearest_some hnearest
    exact ⟨c, hget, halive⟩

lemma table_rechoose : (p.rechoose now).table = { p.table with best := (p.rechoose now).best } := by
  unfold rechoose
  split
  · split
    · split <;> rfl
    · rfl
  · dsimp only
    split <;> rfl

lemma rechoose_moves : Moves B .chooses p.table (p.rechoose now).table := by
  rw [table_rechoose]
  by_cases hsame : (p.rechoose now).best = p.best
  · rw [hsame]
    exact .refl
  · refine .single (.choose p.table rfl fun i hi => ?_)
    obtain ⟨c, hget, halive⟩ := rechoose_best hi fun hold => hsame (hi.trans hold.symm)
    exact ⟨c, hget, (Bool.and_eq_true_iff.mp halive).1⟩

lemma tickCand_moves (p : Path) (i : ℕ) : Moves B task p.table (tickCand now d p i).table := by
  unfold tickCand
  split
  · exact .refl
  split
  · exact .single (.adjust p.table i (Cand.adjusts_sleep now))
  have hresume : Moves B task p.table (p.modify i fun c => c.resume now).table :=
    .single (.adjust p.table i (Cand.adjusts_resume now))
  dsimp only
  split
  · exact hresume
  split
  · exact hresume.trans (sendPing_moves _ true i now d)
  · exact hresume

lemma tick_moves : Moves B .chooses p.table (p.tick B now d).table := by
  have hloop : Moves B .chooses p.table
      ((range p.cands.length).foldl (tickCand now d) p).table :=
    Run.foldl_invariant (I := fun q => Moves B .chooses p.table q.table) .refl
      (fun q i h => h.trans (tickCand_moves now d q i)) _
  have hchosen := hloop.trans (rechoose_moves _ now)
  unfold tick
  dsimp only
  split
  · exact hchosen.trans (sendCallMeMaybe_moves _ d)
  · exact hchosen

/-! ## Runs -/

/-- The call chooses. -/
def Call.Chooses : Call → Prop
  | .tick _ _ => True
  | _ => False

/-- What a call does to the table is a sequence of moves. -/
theorem step_moves (c : Call) :
    ∃ task, (task = .chooses → c.Chooses) ∧ Moves B task p.table (p.step B c).table := by
  cases c with
  | setLocal eps => exact ⟨.adds, nofun, .refl⟩
  | start now d => exact ⟨.adds, nofun, sendCallMeMaybe_moves { p with nextCmmMs := now + cmmMs } d⟩
  | inputDisco src pkt now d =>
    obtain ⟨task, hne, hmoves⟩ := inputDisco_moves p src pkt now d
    exact ⟨task, (absurd · hne), hmoves⟩
  | inputRelay pkt now d => exact ⟨.adds, nofun, inputRelay_moves p pkt now d⟩
  | noteRecv src now => exact ⟨.adds, nofun, noteRecv_moves p src now⟩
  | tick now d => exact ⟨.chooses, fun _ => trivial, tick_moves p now d⟩

lemma step_best {p : Path} {c : Call} (hc : ¬c.Chooses) : (p.step B c).best = p.best := by
  obtain ⟨task, htask, hmoves⟩ := step_moves p c
  exact hmoves.best_eq (mt htask hc)

lemma step_invariant (hmove : ∀ {task t t'}, Move B task t t' → I t → I t') (p : Path) (c : Call)
    (h : I p.table) :
    I (p.step B c).table := by
  obtain ⟨task, -, hmoves⟩ := step_moves p c
  exact hmoves.invariant hmove h

/-- What every move keeps holds in every run. -/
theorem run_invariant (hmove : ∀ {task t t'}, Move B task t t' → I t → I t') {p : Path}
    (h : I p.table) (calls : List Call) : I (calls.foldl (step B) p).table :=
  Run.foldl_invariant (I := fun q : Path => I q.table) h (fun q c hq => step_invariant hmove q c hq) calls

end Path

end Net
