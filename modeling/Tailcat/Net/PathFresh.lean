import Tailcat.Net.PathProven

/-!
# Moving to a direct path

A tick moves the chosen path to a candidate that is alive, and nothing else moves it. A candidate that
has answered once is kept alive by whatever arrives from it, so that traffic from an address that has
not answered for long makes it the chosen path again.

## Main results

* `Path.upgrades_fresh`: if answers keep the candidates alive, each move is backed by a recent answer;
* `Path.upgrade_stale`: traffic alone brings back a candidate that answered long ago.
-/

namespace Net

/-- The times at which the endpoint answered. -/
def PathHistory.pongs (ep : Endpoint) (h : List PathEvent) : List ℕ :=
  h.filterMap fun
    | .pong ep' _ t _ => if ep' = ep then some t else none
    | _ => none

def Cand.evidence (c : Cand) : Endpoint × Bool × ℕ × ℕ := (c.ep, c.proven, c.lastPongMs, c.lastRecvMs)

lemma Cand.alive_congr {c c' : Cand} (h : c.evidence = c'.evidence) (now : ℕ) :
    c.alive now = c'.alive now := by
  simp only [evidence, Prod.mk.injEq] at h
  obtain ⟨-, hproven, hpong, hrecv⟩ := h
  rw [alive, alive, lastHeard, lastHeard, hproven, hpong, hrecv]

namespace Path

open PathHistory

variable {B : Box} {p : Path} {now : ℕ}

/-! ## The schedule does not touch the evidence -/

lemma sendPing_evidence (p : Path) (scheduled : Bool) (i now : ℕ) (d : PathDraw) :
    (p.sendPing scheduled i now d).cands.map Cand.evidence = p.cands.map Cand.evidence ∧
      (p.sendPing scheduled i now d).best = p.best := by
  unfold sendPing
  split
  · refine ⟨map_modify ?_ _ _, rfl⟩
    intro c
    rfl
  · exact ⟨rfl, rfl⟩

lemma tickCand_evidence (now : ℕ) (d : PathDraw) (p : Path) (i : ℕ) :
    (tickCand now d p i).cands.map Cand.evidence = p.cands.map Cand.evidence ∧
      (tickCand now d p i).best = p.best := by
  unfold tickCand
  split
  · exact ⟨rfl, rfl⟩
  split
  · refine ⟨map_modify ?_ _ _, rfl⟩
    intro c
    rfl
  have hresume : (p.modify i fun c => c.resume now).cands.map Cand.evidence =
      p.cands.map Cand.evidence := by
    refine map_modify ?_ _ _
    intro c
    unfold Cand.resume
    split <;> rfl
  dsimp only
  split
  · exact ⟨hresume, rfl⟩
  split
  · obtain ⟨hping, hbest⟩ := sendPing_evidence (p.modify i fun c => c.resume now) true i now d
    exact ⟨hping.trans hresume, hbest⟩
  · exact ⟨hresume, rfl⟩

lemma tickLoop_evidence (now : ℕ) (d : PathDraw) (p : Path) (is : List ℕ) :
    (is.foldl (tickCand now d) p).cands.map Cand.evidence = p.cands.map Cand.evidence ∧
      (is.foldl (tickCand now d) p).best = p.best := by
  refine Run.foldl_invariant (I := fun q : Path => q.cands.map Cand.evidence = p.cands.map Cand.evidence ∧
    q.best = p.best) ⟨rfl, rfl⟩ ?_ is
  intro q i h
  obtain ⟨hcands, hbest⟩ := tickCand_evidence now d q i
  exact ⟨hcands.trans h.1, hbest.trans h.2⟩

lemma tick_best (p : Path) (now : ℕ) (d : PathDraw) :
    (p.tick B now d).best =
      (((List.range p.cands.length).foldl (tickCand now d) p).rechoose now).best := by
  unfold tick
  dsimp only
  split
  · unfold sendCallMeMaybe
    dsimp only
    split <;> rfl
  · rfl

/-- A tick moves to a candidate that was alive before it. -/
theorem alive_of_moved {d : PathDraw} {i : ℕ} (h : (p.tick B now d).best = some i)
    (hmoved : p.best ≠ some i) : ∃ c, p.cands[i]? = some c ∧ c.alive now = true := by
  rw [tick_best] at h
  obtain ⟨hcands, hbest⟩ := tickLoop_evidence now d p (List.range p.cands.length)
  rw [← hbest] at hmoved
  obtain ⟨c, hget, halive⟩ := rechoose_best h hmoved
  -- the schedule has left the evidence as it was
  have hmap : (p.cands.map Cand.evidence)[i]? = some c.evidence := by
    rw [← hcands, List.getElem?_map, hget, Option.map_some]
  rw [List.getElem?_map] at hmap
  obtain ⟨old, hold, hevidence⟩ := Option.map_eq_some_iff.mp hmap
  exact ⟨old, hold, (Cand.alive_congr hevidence now).trans halive⟩

/-! ## Moves and answers -/

/-- The chosen path moves only to a candidate that has answered within the trust window. -/
def UpgradeFresh (B : Box) (p : Path) (c : Call) : Prop :=
  ∀ i ∈ (p.step B c).best, p.best ≠ some i →
    ∃ cand ∈ p.cands[i]?, ∃ t ∈ pongs cand.ep p.history, c.time p.clock < t + trustMs
deriving Decidable

/-- Each candidate that is alive and is not in use has answered within the trust window. -/
def AliveByAnswers (p : Path) (now : ℕ) : Prop :=
  ∀ x ∈ p.cands.zipIdx, p.best ≠ some x.2 → x.1.alive now = true → now < x.1.lastPongMs + trustMs
deriving Decidable

/-- A tick is made when the candidates are kept alive by answers. -/
def KeptByAnswers (p : Path) : Call → Prop
  | .tick now _ => AliveByAnswers p now
  | _ => True

instance (p : Path) (c : Call) : Decidable (KeptByAnswers p c) := by
  cases c <;> dsimp only [KeptByAnswers] <;> infer_instance

lemma mem_pongs_of_proven {priv peer : DiscoKey} {h : List PathEvent} {ep : Endpoint} {t : ℕ}
    (hp : Proven B priv peer h ep t) : t ∈ pongs ep h := by
  obtain ⟨newer, txid, pkt, seen, older, rfl, -⟩ := hp
  refine List.mem_filterMap.mpr ⟨.pong ep txid t pkt, ?_, if_pos rfl⟩
  exact List.mem_append_right _ List.mem_cons_self

lemma upgradeFresh_of_keptByAnswers {c : Call} (h : Table.Answers B p.table)
    (hkept : KeptByAnswers p c) : UpgradeFresh B p c := by
  intro i hbest hmoved
  have hchooses : c.Chooses := by_contra fun hno => hmoved ((step_best hno).symm.trans hbest)
  cases c with
  | tick now d =>
    obtain ⟨cand, hget, halive⟩ := alive_of_moved hbest hmoved
    have hproven : cand.proven = true := (Bool.and_eq_true_iff.mp halive).1
    have hbacked := (h cand (List.mem_of_getElem? hget)).proven hproven
    have hrecent := hkept (cand, i) (List.mem_zipIdx_iff_getElem?.mpr hget) hmoved halive
    exact ⟨cand, hget, cand.lastPongMs, mem_pongs_of_proven hbacked, hrecent⟩
  | _ => exact hchooses.elim

/-- In every run whose ticks find the candidates kept alive by answers, every move of the chosen path is
to a candidate that has answered within the trust window. -/
theorem upgrades_fresh (B : Box) (priv pub peer : DiscoKey) (calls : List Call)
    (hkept : Run.Ok (step B) KeptByAnswers (init priv pub peer) calls) :
    Run.Ok (step B) (UpgradeFresh B) (init priv pub peer) calls := by
  refine hkept.of_invariant (I := fun p => Table.Answers B p.table) nofun ?_ ?_
  · intro p c h _
    exact step_invariant Table.Move.answers p c h
  · intro p c h hkept
    exact upgradeFresh_of_keptByAnswers h hkept

/-- An endpoint is heard from, probed, and answers; the path moves to it, and away from it when it goes
quiet. -/
def answeredOnce : List Call :=
  [.noteRecv (plainEndpoint 1) 10, .tick 20 (plainDraw 7),
    .inputDisco (plainEndpoint 1) (plainPong 7) 30 (plainDraw 0), .tick 40 (plainDraw 0),
    .tick 10000 (plainDraw 8)]

/-- The path moves to an endpoint that has just answered. -/
theorem upgrades_fresh_answer :
    ((answeredOnce.take 4).foldl (step plainBox) plain).best = some 0 ∧
      Run.Ok (step plainBox) (UpgradeFresh plainBox) plain answeredOnce :=
  ⟨by decide +kernel, upgrades_fresh plainBox _ _ _ answeredOnce (by decide +kernel)⟩

/-- Traffic alone brings back an endpoint that answered long ago. -/
theorem upgrade_stale :
    ¬∀ (B : Box) (priv pub peer : DiscoKey) (calls : List Call),
      Run.Ok (step B) (UpgradeFresh B) (init priv pub peer) calls := by
  intro h
  have hrun : Run.Ok (step plainBox) (UpgradeFresh plainBox) plain (answeredOnce ++
      [.noteRecv (plainEndpoint 1) 100000, .tick 100001 (plainDraw 9)]) := h plainBox _ _ _ _
  revert hrun
  decide +kernel

end Path

end Net
