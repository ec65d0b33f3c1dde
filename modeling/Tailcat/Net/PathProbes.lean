import Tailcat.Net.PathFresh

/-!
# The spacing of probes

A candidate that has answered is probed when it has been quiet for `heartbeatMs`, whether a probe is
outstanding or not: then every tick sends another probe, and the answer to the one before is refused.
An answer can also be lost to a candidate that is given up, or that has to make room, while its last
probe is on its way.

## Main results

* `Path.probes_spaced`: where nothing disturbs a probe for `probeMs`, probes are spaced and timely
  answers are counted;
* `Path.probe_too_soon`: two ticks within a millisecond both send a probe.
-/

namespace Net

open List

namespace PathHistory

/-- When the last probe was sent to the endpoint, since it was last added. -/
def lastPing (ep : Endpoint) : List PathEvent → Option ℕ
  | [] => none
  | .ping _ ep' _ now :: h => if ep' = ep then some now else lastPing ep h
  | .added ep' :: h => if ep' = ep then none else lastPing ep h
  | _ :: h => lastPing ep h

/-- Each probe of the schedule comes at least `probeMs` after the probe before it to the same
candidate. -/
def Spaced : List PathEvent → Prop
  | [] => True
  | .ping true ep _ now :: h => (∀ s ∈ lastPing ep h, s + probeMs ≤ now) ∧ Spaced h
  | _ :: h => Spaced h

instance Spaced.instDecidable : ∀ h : List PathEvent, Decidable (Spaced h)
  | [] => isTrue trivial
  | .ping true _ _ _ :: h => @instDecidableAnd _ _ _ (instDecidable h)
  | .ping false _ _ _ :: h | .added _ :: h | .pong _ _ _ _ :: h | .answered _ _ :: h
  | .callMeMaybe _ :: h => instDecidable h

/-- A probe that was sent at time `s` has not been answered. -/
def Awaiting (ep : Endpoint) (txid : Txid) (s : ℕ) : List PathEvent → Prop
  | [] => False
  | .ping _ ep' txid' now :: h => (ep' = ep ∧ txid' = txid ∧ now = s) ∨ Awaiting ep txid s h
  | .pong ep' txid' _ _ :: h => (ep' ≠ ep ∨ txid' ≠ txid) ∧ Awaiting ep txid s h
  | _ :: h => Awaiting ep txid s h

end PathHistory

namespace Cand

/-- A tick leaves the candidate alone. Either it has answered, and it was heard from lately or is stale
and not in use; or it has not, and it is set aside, or waits for the answer to its last probe. -/
def Settled (c : Cand) (inUse : Bool) (now : ℕ) : Prop :=
  (c.proven = true ∧ (c.sleeping = true ∨ now < c.lastHeard + heartbeatMs ∨
    (inUse = false ∧ c.lastHeard + trustMs ≤ now))) ∨
  (c.proven = false ∧ c.sleeping = true ∧ now < c.wakeAtMs) ∨
  (c.proven = false ∧ c.sleeping = false ∧ c.probeOutstanding = true ∧
    (c.firstProbeMs = 0 ∨ now < c.firstProbeMs + probeGiveupMs))
deriving Decidable

variable {c : Cand} {inUse : Bool} {now : ℕ}

lemma Settled.givesUp_eq_false (h : c.Settled inUse now) : c.givesUp now = false := by
  rcases h with ⟨hproven, -⟩ | ⟨-, hsleeping, -⟩ | ⟨-, -, -, hfirst⟩
  · simp [givesUp, hproven]
  · simp [givesUp, hsleeping]
  · rcases hfirst with hfirst | hfirst <;> simp [givesUp, hfirst]

lemma Settled.resume_eq (h : c.Settled inUse now) : c.resume now = c := by
  refine if_neg ?_
  rcases h with ⟨hproven, -⟩ | ⟨-, -, hpause⟩ | ⟨-, hsleeping, -⟩
  · simp [hproven]
  · simp [hpause]
  · simp [hsleeping]

lemma Settled.lt_due (h : c.Settled inUse now)
    (hyoung : c.probeOutstanding = true → now < c.probeSentMs + probeMs) :
    ∀ due ∈ c.probeDue inUse now, now < due := by
  intro due hdue
  unfold probeDue at hdue
  rcases h with ⟨hproven, hquiet⟩ | ⟨-, hsleeping, -⟩ | ⟨hproven, hsleeping, hout, -⟩
  · by_cases hsleeping : c.sleeping = true
    · simp [hsleeping] at hdue
    · by_cases hstale : inUse = false ∧ c.lastHeard + trustMs ≤ now
      · simp [hproven, hstale] at hdue
      · have hrecent := (hquiet.resolve_left hsleeping).resolve_right hstale
        rcases not_and_or.mp hstale with huse | hfresh
        · simp only [hproven] at hdue
          simp at hdue
          omega
        · simp only [hproven] at hdue
          simp at hdue
          omega
  · simp [hsleeping] at hdue
  · simp only [hproven, hout] at hdue
    simp at hdue
    have := hyoung hout
    omega

end Cand

namespace Path

open PathHistory

variable {B : Box} {p : Path} {now i j : ℕ} {c c' : Cand} {ep ep' src : Endpoint}
  {cands : List Cand} {d : PathDraw} {pkt : List UInt8}

/-! ## Undisturbed probes -/

/-- Adding the endpoint takes the place of a candidate with a probe that is younger than `probeMs`. -/
def Displaces (p : Path) (now : ℕ) (ep : Endpoint) : Prop :=
  p.findCand ep = none ∧ maxCandidates ≤ p.cands.length ∧
    ∃ i ∈ p.worstCand, ∃ c ∈ p.cands[i]?, c.probeOutstanding = true ∧ now < c.probeSentMs + probeMs
deriving Decidable

/-- Adding the endpoints, one after the other, displaces no candidate with a young probe. -/
def Spares (p : Path) (now : ℕ) (eps : List Endpoint) : Prop :=
  Run.Ok (fun p ep => (p.addCand ep).1) (fun p ep => ¬p.Displaces now ep) p eps

instance (p : Path) (now : ℕ) (eps : List Endpoint) : Decidable (p.Spares now eps) :=
  Run.Ok.instDecidable p eps

/-- The endpoints that a packet from `src` adds to the table. -/
def announced (B : Box) (p : Path) (src : Option Endpoint) (pkt : List UInt8) : List Endpoint :=
  match Disco.openMsg B pkt p.ourDiscoPriv p.peerDiscoPub with
  | .ok (.ping _ _ _) => src.toList
  | .ok (.callMeMaybe eps) => eps
  | _ => []

/-- Each candidate with a probe that is younger than `probeMs` is left alone by a tick. -/
def AllSettled (p : Path) (now : ℕ) : Prop :=
  ∀ x ∈ p.cands.zipIdx, (∃ s ∈ lastPing x.1.ep p.history, now < s + probeMs) →
    x.1.Settled (p.best = some x.2) now
deriving Decidable

/-- The call leaves young probes alone. -/
def Undisturbed (B : Box) (p : Path) : Call → Prop
  | .tick now _ => p.AllSettled now
  | .inputDisco src pkt now _ => p.Spares now (p.announced B (some src) pkt)
  | .inputRelay pkt now _ => p.Spares now (p.announced B none pkt)
  | .noteRecv src now => p.Spares now [src]
  | .setLocal _ | .start _ _ => True

instance (B : Box) (p : Path) : (c : Call) → Decidable (p.Undisturbed B c)
  | .tick .. | .inputDisco .. | .inputRelay .. | .noteRecv .. | .setLocal .. | .start .. => by
    dsimp only [Undisturbed]
    infer_instance

def Timed (p : Path) (c : Call) : Prop := p.clock ≤ c.time p.clock

instance (p : Path) (c : Call) : Decidable (p.Timed c) := Nat.decLe _ _

/-- An answer that comes within `probeMs` of the probe is counted. -/
def TimelyCounted (B : Box) (p : Path) : Call → Prop
  | .inputDisco src pkt now d =>
    ∀ txid seen s, Disco.openMsg B pkt p.ourDiscoPriv p.peerDiscoPub = .ok (.pong txid seen) →
      Awaiting src txid s p.history → now < s + probeMs →
      (p.inputDisco B src pkt now d).1.stats.pongsReceived = p.stats.pongsReceived + 1
  | _ => True

/-! ## The invariant -/

/-- The invariant at time `now`: the endpoints are different, the history knows the outstanding probes,
and each probe that is younger than `probeMs` is outstanding or has been answered. -/
structure Tracked (now : ℕ) (p : Path) : Prop where
  nodup : (p.cands.map Cand.ep).Nodup
  sent : ∀ c ∈ p.cands, c.probeOutstanding = true → lastPing c.ep p.history = some c.probeSentMs
  awaited : ∀ ep txid s, Awaiting ep txid s p.history → now < s + probeMs →
    ∃ c ∈ p.cands, c.ep = ep ∧ c.probeOutstanding = true ∧ c.txid = txid ∧ c.probeSentMs = s
  spaced : Spaced p.history

lemma Tracked.mono {now' : ℕ} (h : Tracked now p) (hle : now ≤ now') : Tracked now' p :=
  ⟨h.nodup, h.sent, fun ep txid s hawait hyoung => h.awaited ep txid s hawait (by omega), h.spaced⟩

lemma index_eq_of_ep (hnodup : (p.cands.map Cand.ep).Nodup) (hi : p.cands[i]? = some c)
    (hj : p.cands[j]? = some c') (hep : c.ep = c'.ep) : i = j := by
  have hlt : i < (p.cands.map Cand.ep).length := by
    rw [length_map]
    exact (List.getElem?_eq_some_iff.mp hi).1
  refine (getElem?_inj hlt hnodup).mp ?_
  rw [getElem?_map, getElem?_map, hi, hj, Option.map_some, Option.map_some, hep]

def probe (c : Cand) : Endpoint × Txid × Bool × ℕ := (c.ep, c.txid, c.probeOutstanding, c.probeSentMs)

lemma Tracked.congr {q : Path} (h : Tracked now p) (hcands : q.cands.map probe = p.cands.map probe)
    (hhistory : q.history = p.history) : Tracked now q := by
  have heps : q.cands.map Cand.ep = p.cands.map Cand.ep := by
    have hfst := congrArg (map Prod.fst) hcands
    rw [map_map, map_map] at hfst
    exact hfst
  -- a candidate on one side has one with the same probe on the other
  have hmem : ∀ {cs cs' : List Cand}, cs.map probe = cs'.map probe → ∀ c ∈ cs, ∃ c' ∈ cs',
      probe c' = probe c := by
    intro cs cs' heq c hc
    have : probe c ∈ cs'.map probe := heq ▸ mem_map_of_mem hc
    exact mem_map.mp this
  refine ⟨heps ▸ h.nodup, ?_, ?_, hhistory ▸ h.spaced⟩
  · intro c hc hout
    obtain ⟨c', hc', heq⟩ := hmem hcands c hc
    simp only [probe, Prod.mk.injEq] at heq
    obtain ⟨hep, -, hout', hsent⟩ := heq
    rw [hhistory, ← hep, ← hsent]
    exact h.sent c' hc' (hout'.trans hout)
  · intro ep txid s hawait hyoung
    obtain ⟨c, hc, rfl, hout, rfl, rfl⟩ := h.awaited ep txid s (hhistory ▸ hawait) hyoung
    obtain ⟨c', hc', heq⟩ := hmem hcands.symm c hc
    simp only [probe, Prod.mk.injEq] at heq
    exact ⟨c', hc', heq.1, heq.2.2.1.trans hout, heq.2.1, heq.2.2.2⟩

lemma Tracked.note {e : PathEvent} (h : Tracked now p) (he : e.IsReply) :
    Tracked now (p.note e) := by
  cases e with
  | answered dst txid => exact ⟨h.nodup, h.sent, h.awaited, h.spaced⟩
  | callMeMaybe eps => exact ⟨h.nodup, h.sent, h.awaited, h.spaced⟩
  | added ep => exact he.elim
  | ping scheduled ep txid now => exact he.elim
  | pong ep txid now pkt => exact he.elim

/-! ## The table -/

lemma lastPing_added_of_ne (h : List PathEvent) (hne : ep ≠ ep') :
    lastPing ep (.added ep' :: h) = lastPing ep h :=
  if_neg hne.symm

lemma lastPing_ping_of_ne (scheduled : Bool) (txid : Txid) (h : List PathEvent) (hne : ep ≠ ep') :
    lastPing ep (.ping scheduled ep' txid now :: h) = lastPing ep h :=
  if_neg hne.symm

variable {f : Cand → Cand}

lemma mem_modify_of_ne (hj : cands[j]? = some c) (hne : i ≠ j) : c ∈ cands.modify i f := by
  refine mem_iff_getElem?.mpr ⟨j, ?_⟩
  rw [getElem?_modify_ne _ _ hne, hj]

lemma mem_modify_self (hi : cands[i]? = some c) : f c ∈ cands.modify i f := by
  refine mem_iff_getElem?.mpr ⟨i, ?_⟩
  rw [getElem?_modify_eq, hi, Option.map_eq_map, Option.map_some]

lemma cases_of_mem_modify (hi : cands[i]? = some c) (h : c' ∈ cands.modify i f) :
    c' = f c ∨ ∃ j, i ≠ j ∧ cands[j]? = some c' := by
  obtain ⟨j, hj⟩ := mem_iff_getElem?.mp h
  by_cases hij : i = j
  · subst hij
    rw [getElem?_modify_eq, hi, Option.map_eq_map] at hj
    exact .inl (Option.some.inj hj).symm
  · rw [getElem?_modify_ne _ _ hij] at hj
    exact .inr ⟨j, hij, hj⟩

section

variable (h : Tracked now p)

include h

lemma Tracked.ep_ne (hi : p.cands[i]? = some c) (hj : p.cands[j]? = some c')
    (hne : i ≠ j) : c'.ep ≠ c.ep :=
  fun hep => hne (index_eq_of_ep h.nodup hi hj hep.symm)

lemma Tracked.addCand (hspare : ¬p.Displaces now ep) : Tracked now (p.addCand ep).1 := by
  unfold Path.addCand
  split
  · exact h
  split
  · exact h
  rename_i hfind
  have hne := ne_of_findCand hfind
  have hnew : ep ∉ p.cands.map Cand.ep := by
    intro hmem
    obtain ⟨c, hc, hep⟩ := mem_map.mp hmem
    exact hne c hc hep
  have hsent : ∀ c ∈ p.cands, c.probeOutstanding = true →
      lastPing c.ep (.added ep :: p.history) = some c.probeSentMs := by
    intro c hc hout
    rw [lastPing_added_of_ne _ (hne c hc)]
    exact h.sent c hc hout
  split
  · refine ⟨?_, ?_, ?_, h.spaced⟩
    · change ((p.cands ++ [Cand.fresh ep]).map Cand.ep).Nodup
      rw [map_append]
      exact h.nodup.append (nodup_singleton _) (by simpa [Cand.fresh] using hnew)
    · intro c hc hout
      rcases mem_append.mp hc with hc | hc
      · exact hsent c hc hout
      · obtain rfl := mem_singleton.mp hc
        cases hout
    · intro ep' txid s hawait hyoung
      obtain ⟨c, hc, hrest⟩ := h.awaited ep' txid s hawait hyoung
      exact ⟨c, mem_append_left _ hc, hrest⟩
  · next hfull =>
    split
    · exact h
    rename_i i hworst
    refine ⟨?_, ?_, ?_, h.spaced⟩
    · change ((p.cands.set i (Cand.fresh ep)).map Cand.ep).Nodup
      rw [map_set]
      exact h.nodup.set hnew
    · intro c hc hout
      rcases mem_or_eq_of_mem_set hc with hc | rfl
      · exact hsent c hc hout
      · cases hout
    · intro ep' txid s hawait hyoung
      obtain ⟨c, hc, hep, hout, htxid, hs⟩ := h.awaited ep' txid s hawait hyoung
      obtain ⟨j, hj⟩ := mem_iff_getElem?.mp hc
      -- the candidate that makes room has no young probe
      have hij : i ≠ j := by
        rintro rfl
        exact hspare ⟨hfind, by omega, i, hworst, c, hj, hout, by omega⟩
      refine ⟨c, mem_iff_getElem?.mpr ⟨j, ?_⟩, hep, hout, htxid, hs⟩
      change (p.cands.set i (Cand.fresh ep))[j]? = some c
      rw [getElem?_set_ne hij, hj]

lemma Tracked.addAll {eps : List Endpoint} (hspare : p.Spares now eps) :
    Tracked now (p.addAll eps) :=
  Run.Ok.invariant hspare h fun _ _ hq hok => hq.addCand hok

lemma Tracked.heard (i t : ℕ) : Tracked now (p.modify i fun c => c.heard t) := by
  refine h.congr (map_modify ?_ _ _) rfl
  intro c
  rfl

lemma Tracked.addCand_heard (hspare : ¬p.Displaces now ep) (t : ℕ) :
    Tracked now (match p.addCand ep with
      | (p, some i) => p.modify i fun c => c.heard t
      | (p, none) => p) := by
  have hadd := h.addCand hspare
  generalize p.addCand ep = added at hadd ⊢
  obtain ⟨q, i⟩ := added
  cases i with
  | none => exact hadd
  | some i => exact hadd.heard i t

/-! ## Probes and answers -/

/-- A probe that is awaited of another candidate stays so when one is modified. -/
theorem Tracked.awaited_modify (hc : p.cands[i]? = some c)
    (hawait : Awaiting ep txid s p.history) (hyoung : now < s + probeMs)
    (hother : ¬(c.ep = ep ∧ c.probeOutstanding = true ∧ c.txid = txid ∧ c.probeSentMs = s)) :
    ∃ c' ∈ p.cands.modify i f, c'.ep = ep ∧ c'.probeOutstanding = true ∧ c'.txid = txid ∧
      c'.probeSentMs = s := by
  obtain ⟨c', hc', hprobe⟩ := h.awaited ep txid s hawait hyoung
  obtain ⟨j, hj⟩ := mem_iff_getElem?.mp hc'
  refine ⟨c', mem_modify_of_ne hj ?_, hprobe⟩
  rintro rfl
  obtain rfl := Option.some.inj (hc.symm.trans hj)
  exact hother hprobe

lemma Tracked.drop (hc : p.cands[i]? = some c) (hf : ∀ c, (f c).ep = c.ep)
    (hdrop : (f c).probeOutstanding = false)
    (hold : c.probeOutstanding = true → c.probeSentMs + probeMs ≤ now) :
    Tracked now (p.modify i f) := by
  refine ⟨(map_modify hf _ _).symm ▸ h.nodup, ?_, ?_, h.spaced⟩
  · intro c' hc' hout
    rcases cases_of_mem_modify hc hc' with rfl | ⟨j, -, hj⟩
    · rw [hdrop] at hout
      cases hout
    · exact h.sent c' (mem_of_getElem? hj) hout
  · intro ep txid s hawait hyoung
    refine h.awaited_modify hc hawait hyoung fun ⟨_, hout, _, hs⟩ => ?_
    have := hold hout
    omega

lemma Tracked.sendPing {scheduled : Bool} (hc : p.cands[i]? = some c)
    (hold : c.probeOutstanding = true → c.probeSentMs + probeMs ≤ now)
    (hspaced : scheduled = true → ∀ s ∈ lastPing c.ep p.history, s + probeMs ≤ now) :
    Tracked now (p.sendPing scheduled i now d) := by
  unfold Path.sendPing
  rw [hc]
  cases htxid : d.txid i with
  | none => exact h
  | some txid =>
    refine ⟨?_, ?_, ?_, ?_⟩
    · change ((p.cands.modify i fun c => c.pinged txid now).map Cand.ep).Nodup
      rw [map_modify (fun _ => by rfl)]
      exact h.nodup
    · intro c' hc' hout
      rcases cases_of_mem_modify hc hc' with rfl | ⟨j, hij, hj⟩
      · exact if_pos rfl
      · exact (lastPing_ping_of_ne _ _ _ (h.ep_ne hc hj hij)).trans
          (h.sent c' (mem_of_getElem? hj) hout)
    · intro ep txid' s hawait hyoung
      rcases hawait with ⟨rfl, rfl, rfl⟩ | hawait
      · exact ⟨_, mem_modify_self hc, rfl, rfl, rfl, rfl⟩
      -- an older probe that still counts is another candidate's
      refine h.awaited_modify hc hawait hyoung fun ⟨_, hout, _, hs⟩ => ?_
      have := hold hout
      omega
    · cases scheduled with
      | false => exact h.spaced
      | true => exact ⟨hspaced rfl, h.spaced⟩

lemma Tracked.ponged (hc : p.cands[i]? = some c) (t : ℕ) (pkt : List UInt8) :
    Tracked now ((p.modify i fun c => c.ponged t).note (.pong c.ep c.txid t pkt)) := by
  refine ⟨?_, ?_, ?_, h.spaced⟩
  · change ((p.cands.modify i fun c => c.ponged t).map Cand.ep).Nodup
    rw [map_modify (fun _ => by rfl)]
    exact h.nodup
  · intro c' hc' hout
    rcases cases_of_mem_modify hc hc' with rfl | ⟨j, -, hj⟩
    · cases hout
    · exact h.sent c' (mem_of_getElem? hj) hout
  · rintro ep txid s ⟨hother, hawait⟩ hyoung
    refine h.awaited_modify hc hawait hyoung fun ⟨hep, _, htxid, _⟩ => ?_
    exact hother.elim (fun hne => hne hep) fun hne => hne htxid

end

/-! ## Ticks -/

lemma modify_eq_self (hc : p.cands[i]? = some c) (hf : f c = c) : p.modify i f = p := by
  have hcands : p.cands.modify i f = p.cands := by
    apply ext_getElem?
    intro j
    by_cases hij : i = j
    · subst hij
      rw [getElem?_modify_eq, hc, Option.map_eq_map, Option.map_some, hf]
    · rw [getElem?_modify_ne _ _ hij]
  simp only [Path.modify, hcands]

lemma ep_resume (c : Cand) (t : ℕ) : (c.resume t).ep = c.ep := by
  unfold Cand.resume
  split <;> rfl

lemma Tracked.tickCand (h : Tracked now p)
    (hsettled : ∀ c ∈ p.cands[i]?, (∃ s ∈ lastPing c.ep p.history, now < s + probeMs) →
      c.Settled (p.best = some i) now) :
    Tracked now (Path.tickCand now d p i) := by
  unfold Path.tickCand
  cases hc : p.cands[i]? with
  | none => exact h
  | some c =>
    have hmem := mem_of_getElem? hc
    by_cases hyoung : ∃ s ∈ lastPing c.ep p.history, now < s + probeMs
    · -- nothing happens to a settled candidate
      have hset := hsettled c hc hyoung
      have hdue : ∀ due ∈ c.probeDue (p.best = some i) now, now < due := by
        refine hset.lt_due fun hout => ?_
        obtain ⟨s, hs, hlt⟩ := hyoung
        rw [h.sent c hmem hout] at hs
        obtain rfl := Option.some.inj hs
        exact hlt
      simp only [hset.givesUp_eq_false, Bool.false_eq_true, if_false,
        modify_eq_self (f := fun c => c.resume now) hc hset.resume_eq, hset.resume_eq]
      split
      · exact h
      · next due heq => simpa [Nat.not_le.mpr (hdue due heq)] using h
    · have hquiet : ∀ s ∈ lastPing c.ep p.history, s + probeMs ≤ now :=
        fun s hs => Nat.le_of_not_lt fun hlt => hyoung ⟨s, hs, hlt⟩
      have hold : c.probeOutstanding = true → c.probeSentMs + probeMs ≤ now :=
        fun hout => hquiet _ (h.sent c hmem hout)
      dsimp only
      split
      · exact h.drop hc (fun _ => rfl) rfl hold
      -- the candidate may be woken, and is then probed or not
      have hresume : Tracked now (p.modify i fun c => c.resume now) := by
        by_cases hwake : (c.sleeping && !c.proven && now ≥ c.wakeAtMs) = true
        · refine h.drop hc (fun c => ep_resume c now) ?_ hold
          simp only [Cand.resume, hwake, if_true]
        · rw [modify_eq_self (f := fun c => c.resume now) hc (if_neg hwake)]
          exact h
      split
      · exact hresume
      split
      · have hc' : (p.modify i fun c => c.resume now).cands[i]? = some (c.resume now) := by
          simp [Path.modify, hc]
        refine hresume.sendPing hc' ?_ fun _ => ?_
        · unfold Cand.resume
          split
          · intro hout
            cases hout
          · exact hold
        · rw [ep_resume]
          exact hquiet
      · exact hresume

lemma tickCand_frame (now : ℕ) (d : PathDraw) (p : Path) (i : ℕ) :
    (∀ j, i ≠ j → (Path.tickCand now d p i).cands[j]? = p.cands[j]?) ∧
      ∀ ep, (∀ c ∈ p.cands[i]?, ep ≠ c.ep) →
        lastPing ep (Path.tickCand now d p i).history = lastPing ep p.history := by
  have hmodify : ∀ (q : Path) (f : Cand → Cand) (j : ℕ), i ≠ j →
      (q.modify i f).cands[j]? = q.cands[j]? :=
    fun q f j hij => getElem?_modify_ne f q.cands hij
  unfold Path.tickCand
  cases hc : p.cands[i]? with
  | none => exact ⟨fun _ _ => rfl, fun _ _ => rfl⟩
  | some c =>
    dsimp only
    split
    · exact ⟨hmodify p _, fun _ _ => rfl⟩
    split
    · exact ⟨hmodify p _, fun _ _ => rfl⟩
    split
    · have hc' : (p.modify i fun c => c.resume now).cands[i]? = some (c.resume now) := by
        simp [Path.modify, hc]
      unfold Path.sendPing
      rw [hc']
      cases d.txid i with
      | none => exact ⟨hmodify p _, fun _ _ => rfl⟩
      | some txid =>
        refine ⟨fun j hij => (hmodify _ _ j hij).trans (hmodify p _ j hij), fun ep hne => ?_⟩
        refine lastPing_ping_of_ne _ _ _ ?_
        rw [ep_resume]
        exact hne c rfl
    · exact ⟨hmodify p _, fun _ _ => rfl⟩

section

variable (h : Tracked now p)

include h

lemma Tracked.tickLoop (hsettled : p.AllSettled now) (k : ℕ) :
    Tracked now ((range k).foldl (Path.tickCand now d) p) ∧
      ∀ j, k ≤ j →
        ((range k).foldl (Path.tickCand now d) p).cands[j]? = p.cands[j]? ∧
        ∀ c ∈ p.cands[j]?,
          lastPing c.ep ((range k).foldl (Path.tickCand now d) p).history =
            lastPing c.ep p.history := by
  induction k with
  | zero => exact ⟨h, fun _ _ => ⟨rfl, fun _ _ => rfl⟩⟩
  | succ k ih =>
    have hbest := (tickLoop_evidence now d p (range k)).2
    rw [range_succ, foldl_append, foldl_cons]
    generalize (range k).foldl (Path.tickCand now d) p = q at ih hbest ⊢
    obtain ⟨htracked, hrest⟩ := ih
    obtain ⟨hcands, hpings⟩ := tickCand_frame now d q k
    refine ⟨htracked.tickCand fun c hc hyoung => ?_, fun j hj => ?_⟩
    · -- the candidate is as it was before the tick
      obtain ⟨hk, hping⟩ := hrest k le_rfl
      rw [hk] at hc
      rw [hping c hc] at hyoung
      rw [hbest]
      exact hsettled (c, k) (mem_zipIdx_iff_getElem?.mpr hc) hyoung
    · obtain ⟨hj', hping⟩ := hrest j (by omega)
      refine ⟨(hcands j (by omega)).trans hj', fun c hc => ?_⟩
      refine (hpings c.ep fun c' hc' => ?_).trans (hping c hc)
      exact htracked.ep_ne hc' (hj'.trans hc) (by omega)

lemma Tracked.rechoose (t : ℕ) : Tracked now (p.rechoose t) := by
  have htable := table_rechoose p t
  exact h.congr (congrArg (fun t => t.cands.map probe) htable) (congrArg Table.history htable)

lemma Tracked.sendCallMeMaybe (d : PathDraw) : Tracked now (p.sendCallMeMaybe B d).1 := by
  unfold Path.sendCallMeMaybe
  dsimp only
  split
  · exact h
  · exact (h.note (e := .callMeMaybe _) trivial).congr rfl rfl

lemma Tracked.sendPong (dst : Endpoint) (txid : Txid) (d : PathDraw) :
    Tracked now (p.sendPong B dst txid d).1 := by
  unfold Path.sendPong
  dsimp only
  split
  · exact h.congr rfl rfl
  · exact (h.note (e := .answered dst txid) trivial).congr rfl rfl

lemma Tracked.tick (hsettled : p.AllSettled now) : Tracked now (p.tick B now d) := by
  have hchosen := ((h.tickLoop (d := d) hsettled p.cands.length).1).rechoose now
  unfold Path.tick
  dsimp only
  split
  · exact (hchosen.sendCallMeMaybe d).congr rfl rfl
  · exact hchosen

/-! ## Packets -/

lemma Tracked.inputDisco (hspare : p.Spares now (p.announced B (some src) pkt)) :
    Tracked now (p.inputDisco B src pkt now d).1 := by
  unfold Path.inputDisco
  unfold announced at hspare
  split
  · exact h
  cases hopen : Disco.openMsg B pkt p.ourDiscoPriv p.peerDiscoPub with
  | error e => exact h.congr rfl rfl
  | ok msg =>
    rw [hopen] at hspare
    cases msg with
    | ping txid nodeKey padding =>
      have hcounted : Tracked now
          { p with stats.pingsReceived := p.stats.pingsReceived + 1 } := h.congr rfl rfl
      have hspare' : ¬Displaces { p with stats.pingsReceived := p.stats.pingsReceived + 1 } now src :=
        hspare.1
      exact (hcounted.addCand_heard hspare' now).sendPong src txid d
    | pong txid seen =>
      dsimp only
      split
      · exact h.congr rfl rfl
      rename_i i hfind
      split
      · exact h.congr rfl rfl
      rename_i c hc
      split
      · exact h.congr rfl rfl
      rename_i hmatch
      have htxid : c.txid = txid := by
        by_contra hne
        exact hmatch (by simp [hne])
      have hep := ep_of_findCand hfind hc
      subst hep htxid
      have hpong := h.ponged hc now pkt
      unfold noteSeen
      split <;> exact hpong.congr rfl rfl
    | callMeMaybe eps => exact (h.addAll hspare).congr rfl rfl

lemma Tracked.probeNow (i : ℕ) : Tracked now (Path.probeNow now d p i) := by
  unfold Path.probeNow
  cases hc : p.cands[i]? with
  | none => exact h
  | some c =>
    dsimp only
    split
    · next hidle =>
      refine h.sendPing hc (fun hout => ?_) nofun
      simp [hout] at hidle
    · exact h

lemma Tracked.inputRelay (hspare : p.Spares now (p.announced B none pkt)) :
    Tracked now (p.inputRelay B pkt now d).1 := by
  unfold Path.inputRelay
  unfold announced at hspare
  split
  · exact h
  split
  · next eps hopen =>
    rw [hopen] at hspare
    refine Run.foldl_invariant ?_ (fun q i hq => hq.probeNow i) _
    exact (h.addAll hspare).congr rfl rfl
  · exact h.congr rfl rfl

lemma Tracked.noteRecv (hspare : p.Spares now [src]) : Tracked now (p.noteRecv src now) := by
  unfold Path.noteRecv
  split
  · exact h.heard _ now
  · exact h.addCand_heard hspare.1 now

end

/-! ## Runs -/

lemma tracked_init (priv pub peer : DiscoKey) : Tracked now (init priv pub peer) :=
  ⟨nodup_nil, nofun, nofun, trivial⟩

lemma Tracked.step {c : Call} (h : Tracked p.clock p) (hclock : p.Timed c)
    (hok : p.Undisturbed B c) : Tracked (p.step B c).clock (p.step B c) := by
  have hnow : Tracked (c.time p.clock) p := h.mono hclock
  suffices hcall : Tracked (c.time p.clock) (p.call B c) from hcall.congr rfl rfl
  cases c with
  | setLocal eps => exact hnow.congr rfl rfl
  | start now d =>
    have hcmm : Tracked now { p with nextCmmMs := now + cmmMs } := hnow.congr rfl rfl
    exact hcmm.sendCallMeMaybe d
  | inputDisco src pkt now d => exact hnow.inputDisco hok
  | inputRelay pkt now d => exact hnow.inputRelay hok
  | noteRecv src now => exact hnow.noteRecv hok
  | tick now d => exact hnow.tick hok

lemma Tracked.findCand_of_mem (h : Tracked now p) (hc : c ∈ p.cands) :
    ∃ i, p.findCand c.ep = some i ∧ p.cands[i]? = some c := by
  obtain ⟨j, hj⟩ := mem_iff_getElem?.mp hc
  cases hfind : p.findCand c.ep with
  | none => exact absurd rfl (ne_of_findCand hfind c hc)
  | some i =>
    obtain ⟨hlt, -, -⟩ := findIdx?_eq_some_iff_getElem.mp hfind
    have hi := getElem?_eq_getElem hlt
    have hep := ep_of_findCand hfind hi
    obtain rfl := index_eq_of_ep h.nodup hi hj hep
    exact ⟨i, rfl, hj⟩

lemma Tracked.timelyCounted {c : Call} (h : Tracked p.clock p) (hclock : p.Timed c) :
    TimelyCounted B p c := by
  cases c with
  | inputDisco src pkt now d =>
    intro txid seen s hopen hawait hyoung
    have hnow : Tracked now p := h.mono hclock
    obtain ⟨c, hc, rfl, hout, rfl, -⟩ := hnow.awaited src txid s hawait hyoung
    obtain ⟨i, hfind, hi⟩ := hnow.findCand_of_mem hc
    have hstats : ∀ (q : Path) (ep : Endpoint), (q.noteSeen ep).stats = q.stats := by
      intro q ep
      unfold noteSeen
      split <;> rfl
    unfold Path.inputDisco
    simp [Disco.looksLike_of_openMsg hopen, hopen, hfind, hi, hout, hstats, Path.modify, Path.note]
  | _ => trivial

/-- In a run in which nothing disturbs a young probe, the probes of the schedule are spaced, and timely
answers are counted. -/
theorem probes_spaced (B : Box) (priv pub peer : DiscoKey) (calls : List Call)
    (htimed : Run.Ok (step B) Timed (init priv pub peer) calls)
    (hok : Run.Ok (step B) (Undisturbed B) (init priv pub peer) calls) :
    Run.Ok (step B) (fun p c => Spaced (p.step B c).history ∧ TimelyCounted B p c)
      (init priv pub peer) calls := by
  refine (htimed.and hok).of_invariant (I := fun p : Path => Tracked p.clock p)
    (tracked_init priv pub peer) ?_ ?_
  · intro p c h hboth
    exact h.step hboth.1 hboth.2
  · intro p c h hboth
    exact ⟨(h.step hboth.1 hboth.2).spaced, h.timelyCounted hboth.1⟩

/-- An endpoint is heard from, probed, and answers in time. -/
theorem probes_spaced_answer :
    ((answeredOnce.take 3).foldl (step plainBox) plain).stats.pongsReceived = 1 ∧
      Run.Ok (step plainBox)
        (fun p c => Spaced (p.step plainBox c).history ∧ TimelyCounted plainBox p c)
        plain (answeredOnce.take 4) :=
  ⟨by decide +kernel,
    probes_spaced plainBox _ _ _ (answeredOnce.take 4) (by decide +kernel) (by decide +kernel)⟩

/-- A candidate that has answered goes quiet, and the path is ticked in two milliseconds that follow each
other. -/
def quietTicks : List Call :=
  answeredOnce.take 3 ++ [.tick 3030 (plainDraw 8), .tick 3031 (plainDraw 9)]

/-- A candidate that has answered and then goes quiet is probed at each tick, so two probes can be a
millisecond apart. -/
theorem probe_too_soon :
    ¬∀ (B : Box) (priv pub peer : DiscoKey) (calls : List Call),
      Run.Ok (step B) Timed (init priv pub peer) calls →
        Run.Ok (step B) (fun p c => Spaced (p.step B c).history ∧ TimelyCounted B p c)
          (init priv pub peer) calls := by
  intro h
  have htimed : Run.Ok (step plainBox) Timed plain quietTicks := by decide +kernel
  have hspaced : Run.Ok (step plainBox) (fun p c => Spaced (p.step plainBox c).history) plain
      quietTicks :=
    (h plainBox _ _ _ _ htimed).congr (fun _ _ _ => rfl) fun _ _ hboth => hboth.1
  revert hspaced
  decide +kernel

end Path

end Net
