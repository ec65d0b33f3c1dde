import Tailcat.Proxy.Pair
import Tailcat.Tcp.Retransmission

/-!
# The tunnel connection of a pair

What the proxy relies on: packets and the clock append to the receive buffer until the peer's FIN,
free what has been acknowledged, and leave it to the owner to close the write side (`Drifts`).

## Main results

* `closes_step`: a connection that closes without a reset has had the FIN of both sides.
-/

namespace Tcp

open Conn List

variable {c c' c'' : Conn} {s : Segment} {now : ℕ}

/-! ## Packets and the clock -/

/-- The packets and the clock have moved `c` to `c'`. -/
structure Drifts (c c' : Conn) : Prop where
  queued : c'.snd.finQueued = c.snd.finQueued
  unacked : c'.snd.buf.len ≤ c.snd.buf.len
  buf : c.rcv.buf.toList <+: c'.rcv.buf.toList
  ended : c.rcv.finReceived → c'.rcv.finReceived ∧ c'.rcv.buf = c.rcv.buf

namespace Drifts

lemma refl (c : Conn) : Drifts c c := ⟨rfl, le_rfl, prefix_rfl, fun h => ⟨h, rfl⟩⟩

lemma trans (h : Drifts c c') (h' : Drifts c' c'') : Drifts c c'' where
  queued := h'.queued.trans h.queued
  unacked := h'.unacked.trans h.unacked
  buf := h.buf.trans h'.buf
  ended hf :=
    have hmid := h.ended hf
    have hend := h'.ended hmid.1
    ⟨hend.1, hend.2.trans hmid.2⟩

lemma of_rcv (hq : c'.snd.finQueued = c.snd.finQueued) (hb : c'.snd.buf.len ≤ c.snd.buf.len)
    (hr : c'.rcv = c.rcv) : Drifts c c' :=
  ⟨hq, hb, by rw [hr], fun hf => by rw [hr]; exact ⟨hf, rfl⟩⟩

lemma of_eq (hs : c'.snd = c.snd) (hr : c'.rcv = c.rcv) : Drifts c c' :=
  of_rcv (by rw [hs]) (by rw [hs]) hr

lemma of_buf (hs : c'.snd = c.snd) (hb : c'.rcv.buf = c.rcv.buf)
    (hf : c.rcv.finReceived → c'.rcv.finReceived) : Drifts c c' :=
  ⟨by rw [hs], by rw [hs], by rw [hb], fun h => ⟨hf h, hb⟩⟩

end Drifts

namespace Recv

lemma buf_take_prefix (r : Recv) (p : List UInt8) : r.buf.toList <+: (r.take p).buf.toList := by
  have hpush := r.buf.toList_push (r.buf.length_take_space p)
  exact ⟨_, hpush.symm⟩

lemma prefix_drainSlot (r : Recv) (i : Fin oooSegs) :
    r.buf.toList <+: (r.drainSlot i).1.buf.toList := by
  unfold drainSlot
  split
  · exact prefix_rfl
  dsimp only
  split_ifs
  · exact prefix_rfl
  · exact prefix_rfl
  · exact prefix_rfl
  · exact buf_take_prefix _ _

lemma prefix_drainPass (r : Recv) : r.buf.toList <+: r.drainPass.1.buf.toList := by
  have hfold : ∀ (l : List (Fin oooSegs)) (p : Recv × Bool), p.1.buf.toList <+:
      (l.foldl (fun p i => ((p.1.drainSlot i).1, p.2 || (p.1.drainSlot i).2)) p).1.buf.toList := by
    intro l
    induction l with
    | nil => exact fun p => prefix_rfl
    | cons i l ih =>
      intro p
      exact (prefix_drainSlot p.1 i).trans (ih ((p.1.drainSlot i).1, p.2 || (p.1.drainSlot i).2))
  exact hfold (finRange oooSegs) (r, false)

lemma prefix_drainLoop (fuel : ℕ) (r : Recv) : r.buf.toList <+: (drainLoop fuel r).buf.toList := by
  induction fuel generalizing r with
  | zero => exact prefix_rfl
  | succ fuel ih =>
    unfold drainLoop
    split
    · exact (prefix_drainPass r).trans (ih _)
    · exact prefix_drainPass r

end Recv

lemma buf_takeInOrder_prefix (c : Conn) (s : Segment) :
    c.rcv.buf.toList <+: (c.takeInOrder s).rcv.buf.toList := by
  unfold takeInOrder
  dsimp only
  split
  · exact (Recv.buf_take_prefix _ _).trans (Recv.prefix_drainLoop _ _)
  · exact prefix_rfl

lemma Conn.Action.drifts (h : Action now c c') : Drifts c c' := by
  cases h.effect with
  | noteWindow s => exact .of_rcv rfl le_rfl rfl
  | handleAck ack =>
    refine c.handleAck_elim ack now ?_ ?_ <;> intros
    · exact .of_eq rfl rfl
    · refine .of_rcv rfl ?_ rfl
      change (c.snd.buf.drop _).len ≤ _
      exact Nat.sub_le _ _
  | take s rcv stats d hno hrcv =>
    refine ⟨rfl, le_rfl, ?_, fun hf => absurd (hno.symm.trans hf) (by simp)⟩
    exact hrcv ▸ buf_takeInOrder_prefix c s
  | store => exact .of_buf rfl rfl id
  | countFin | closeWait | closing | timeWait => exact .of_buf rfl rfl fun _ => rfl
  | sendData | sendFin => exact .of_rcv rfl le_rfl rfl
  | _ => exact .of_eq rfl rfl

lemma Conn.Acts.drifts (h : Acts now c c') : Drifts c c' := by
  induction h with
  | refl => exact .refl c
  | tail _ hstep ih => exact ih.trans hstep.drifts

lemma drifts_inputListen (c : Conn) (s : Segment) (iss : UInt32) (now : ℕ) :
    Drifts c (c.inputListen s iss now) := by
  unfold inputListen
  split
  · exact ⟨rfl, le_rfl, prefix_rfl, fun hf => ⟨hf, rfl⟩⟩
  · exact .refl c

lemma drifts_inputSynSent (c : Conn) (s : Segment) (now : ℕ) : Drifts c (c.inputSynSent s now) := by
  unfold inputSynSent
  split_ifs
  · exact .of_eq rfl rfl
  · have hsyn : Drifts c (c.synchronise s) := ⟨rfl, le_rfl, prefix_rfl, fun hf => ⟨hf, rfl⟩⟩
    have hack : Drifts (c.synchronise s) ((c.synchronise s).handleAck s.ack now) :=
      (.handleAck _ _ : Action now _ _).drifts
    have hopen : Drifts ((c.synchronise s).handleAck s.ack now)
        { (c.synchronise s).handleAck s.ack now with state := .established } := .of_eq rfl rfl
    refine (hsyn.trans (hack.trans hopen)).trans ?_
    exact (Action.sendAck _).drifts.trans (acts_trySend _ now).drifts
  · exact .refl c

lemma drifts_inputSegment (c : Conn) (s : Segment) (iss : UInt32) (now : ℕ) :
    Drifts c (c.inputSegment s iss now) := by
  have hnote : Drifts c (c.noteSegment now) := .of_eq rfl rfl
  refine hnote.trans ?_
  unfold inputSegment
  dsimp only
  split
  · exact .of_eq (keepsSend_inputRst _ s).snd (keepsRecv_inputRst _ s).rcv
  split
  · exact drifts_inputListen _ s iss now
  · exact drifts_inputSynSent _ s now
  · exact (acts_inputOther _ s now).drifts

lemma drifts_tcpInput (c : Conn) (pkt : List UInt8) (iss : UInt32) (now : ℕ) :
    Drifts c (c.tcpInput pkt iss now) := by
  have hstamp : Drifts c (c.stamp now) := .of_eq rfl rfl
  refine hstamp.trans ?_
  unfold tcpInput
  dsimp only
  split
  · exact .refl _
  · exact .of_eq rfl rfl
  · exact drifts_inputSegment _ _ iss now

lemma drifts_tickRto (c : Conn) (now : ℕ) : Drifts c (c.tickRto now).1 := by
  unfold tickRto
  split_ifs
  · exact .of_eq rfl rfl
  · have hagain : Drifts c (c.retransmit now) :=
      .of_eq (retransmit_frame c now).1 (keepsRecv_retransmit c now).rcv
    exact hagain.trans (acts_trySend _ now).drifts
  · exact (c.acts_trySend now).drifts

lemma drifts_idleView (c : Conn) (now : ℕ) : Drifts c (c.idleView now) := by
  have hrcv : (c.idleView now).rcv = c.rcv :=
    ((keepsRecv_tickDelack _ now).rcv).trans (keepsRecv_tickTimewait _ now).rcv
  exact .of_eq (c.keepsSend_idleView now).snd hrcv

lemma drifts_tickKeepalive (c : Conn) (now : ℕ) : Drifts c (c.tickKeepalive now).1 := by
  unfold tickKeepalive
  split_ifs
  · exact .of_eq rfl rfl
  · have hprobe : Drifts c (c.sendProbe now) := .of_eq rfl rfl
    exact hprobe.trans (drifts_tickRto _ now)
  · exact drifts_tickRto _ now

lemma drifts_tcpTick (c : Conn) (now : ℕ) : Drifts c (c.tcpTick now).1 :=
  (drifts_idleView c now).trans (drifts_tickKeepalive _ now)

/-! ## The owner's calls -/

lemma tcpWrite_finQueued (c : Conn) (buf : List UInt8) (now : ℕ) :
    (c.tcpWrite buf now).1.snd.finQueued = c.snd.finQueued := by
  unfold tcpWrite
  dsimp only
  split_ifs
  · rfl
  · rfl
  · exact (acts_trySend _ now).drifts.queued

lemma tcpShutdownWrite_cases (c : Conn) (now : ℕ) :
    ((c.snd.finQueued ∨ (c.state ≠ .established ∧ c.state ≠ .closeWait)) ∧
      (c.tcpShutdownWrite now).1 = c) ∨
    ((c.state = .established ∨ c.state = .closeWait) ∧
      (c.tcpShutdownWrite now).1.snd.finQueued ∧
      (c.tcpShutdownWrite now).1.snd.buf.len ≤ c.snd.buf.len) := by
  unfold tcpShutdownWrite
  split_ifs with hq hst
  · exact .inl ⟨.inl hq, rfl⟩
  · exact .inl ⟨.inr hst, rfl⟩
  · have hdrift := (c.queueFin.acts_trySend now).drifts
    refine .inr ⟨?_, hdrift.queued.trans rfl, hdrift.unacked⟩
    by_contra hc
    exact hst ⟨fun h => hc (.inl h), fun h => hc (.inr h)⟩

/-! ## Closing -/

lemma Conn.Action.gone (h : Action now c c') :
    c'.reset = c.reset ∧ (c.state = .closed → c'.state = .closed) := by
  cases h.effect with
  | handleAck ack =>
    refine ⟨?_, by rw [handleAck_state]; exact id⟩
    refine c.handleAck_elim ack now ?_ ?_ <;> intros <;> rfl
  | opened hst | closeWait _ hst | closing _ hst | timeWait _ hst | finWait2 _ hst | lastWait _ hst =>
    refine ⟨rfl, fun hc => ?_⟩
    simp [hc] at hst
  | closed => exact ⟨rfl, fun _ => rfl⟩
  | sendFin _ _ _ hst => exact ⟨rfl, fun hc => by rw [hc] at hst; cases hst⟩
  | _ => exact ⟨rfl, id⟩

lemma Conn.Acts.reset (h : Acts now c c') : c'.reset = c.reset := by
  induction h with
  | refl => rfl
  | tail _ hact ih => exact hact.gone.1.trans ih

lemma Conn.Trigger.gone (h : Trigger now c c') :
    (c.reset → c'.reset) ∧ (c.state = .closed → c'.state = .closed) := by
  cases h with
  | rst | giveUpIdle | giveUpRto => exact ⟨fun _ => rfl, fun _ => rfl⟩
  | timewait | abort => exact ⟨id, fun _ => rfl⟩
  | listen s iss hst => exact ⟨id, fun hc => by rw [hst] at hc; cases hc⟩
  | answer s hst =>
    refine ⟨fun hr => ?_, fun hc => by rw [hst] at hc; cases hc⟩
    exact (.handleAck (c.synchronise s) s.ack : Action now _ _).gone.1.trans hr
  | retransmit hdue =>
    obtain ⟨rtt, stats, out, heq, -⟩ := c.backOff.resend_eq now
    rw [Conn.retransmit, heq]
    exact ⟨id, id⟩
  | _ => exact ⟨id, id⟩

lemma Conn.Moves.reset (h : Moves now c c') : c.reset → c'.reset :=
  h.invariant (fun hact hr => hact.gone.1.trans hr) fun htrig => htrig.gone.1

lemma Conn.Moves.closed (h : Moves now c c') : c.state = .closed → c'.state = .closed :=
  h.invariant (fun hact => hact.gone.2) fun htrig => htrig.gone.2

/-- The ways in which a connection gets to `CLOSED`: it was there, it was reset, or the FIN of each
side has gone out. -/
def Closes (c c' : Conn) : Prop :=
  c'.state = .closed → c.state = .closed ∨ c'.reset ∨ (c'.rcv.finReceived ∧ c'.snd.finQueued)

lemma Closes.of_state (h : c'.state = c.state) : Closes c c' := fun hc => .inl (h ▸ hc)

lemma closes_trySend (c : Conn) (now : ℕ) : Closes c (c.trySend now) := fun hc =>
  .inl (trySend_closed.mp hc)

lemma closes_inputOther (ht : TimerInv c) (hs : Shutting c) (s : Segment) (now : ℕ) :
    Closes c (c.inputOther s now) := by
  unfold inputOther
  split
  · let d := (c.inputAck s now).inputSeq s now
    have hacts : Acts now c d := (c.acts_inputAck s now).trans (acts_inputSeq _ s now)
    intro hc
    rcases d.finAcked_cases now with heq | ⟨-, -, ⟨-, heq⟩ | ⟨-, heq⟩ | ⟨hlast, heq⟩⟩
    · exact .inl (inputSeq_inputAck_closed.mp (by rwa [trySend_closed, heq] at hc))
    · rw [heq] at hc
      cases hc
    · rw [heq] at hc
      cases hc
    -- the states before `CLOSED` tell that both FINs have gone out
    have htd : TimerInv d := ht.moves hacts.moves
    have hsd : Shutting d := hacts.moves.invariant Shutting.action Shutting.trigger hs
    have hend := (acts_trySend (d.finAcked now) now).drifts
    rw [heq] at hend
    have hfin : d.rcv.finReceived := htd.fin (by rw [hlast]; rfl)
    refine .inr (.inr ?_)
    rw [heq]
    exact ⟨(hend.ended hfin).1, hend.queued.trans (hsd (by rw [hlast]; rfl)).1⟩
  · exact .of_state rfl

lemma closes_inputSegment (ht : TimerInv c) (hs : Shutting c) (s : Segment) (iss : UInt32)
    (now : ℕ) : Closes c (c.inputSegment s iss now) := by
  unfold inputSegment
  dsimp only
  split
  · unfold inputRst
    split
    · exact fun _ => .inr (.inl rfl)
    · exact .of_state rfl
  · split
    · unfold inputListen
      split
      · nofun
      · exact .of_state rfl
    · unfold inputSynSent
      split_ifs
      · exact .of_state rfl
      · intro hc
        rw [trySend_closed] at hc
        cases hc
      · exact .of_state rfl
    · have hn : TimerInv (c.noteSegment now) := ht.of_eq rfl rfl rfl rfl (.inr rfl) rfl
      exact closes_inputOther hn hs s now

lemma closes_tickRto (c : Conn) (now : ℕ) : Closes c (c.tickRto now).1 := by
  unfold tickRto
  split_ifs
  · exact fun _ => .inr (.inl rfl)
  · intro hc
    rw [trySend_closed, (retransmit_frame c now).2] at hc
    exact .inl hc
  · exact closes_trySend c now

lemma closes_idleView (ht : TimerInv c) (hs : Shutting c) (now : ℕ) :
    Closes c (c.idleView now) := by
  have hview : (c.idleView now).state = ((c.stamp now).tickTimewait now).state := by
    unfold idleView tickDelack
    split <;> rfl
  by_cases hdue : c.tmr.timewaitDeadline ≠ 0 ∧ now ≥ c.tmr.timewaitDeadline
  · rcases ht.timewait hdue.1 with hst | hst
    · intro _
      have hdrift := drifts_idleView c now
      exact .inr (.inr ⟨(hdrift.ended (ht.fin (by rw [hst]; rfl))).1,
        hdrift.queued.trans (hs (by rw [hst]; rfl)).1⟩)
    · exact fun _ => .inl hst
  · refine .of_state (hview.trans ?_)
    have hkeep : (c.stamp now).tickTimewait now = c.stamp now := if_neg hdue
    rw [hkeep]
    rfl

lemma Closes.trans (h : Closes c c') (h' : Closes c' c'') (hd : Drifts c' c'')
    (hr : c'.reset → c''.reset) : Closes c c'' := by
  intro hc
  rcases h' hc with hmid | hmid
  · rcases h hmid with hst | hres | ⟨hfin, hq⟩
    · exact .inl hst
    · exact .inr (.inl (hr hres))
    · exact .inr (.inr ⟨(hd.ended hfin).1, hd.queued.trans hq⟩)
  · exact .inr hmid

lemma closes_tcpTick (ht : TimerInv c) (hs : Shutting c) (now : ℕ) :
    Closes c (c.tcpTick now).1 := by
  have hdrift : Drifts (c.idleView now) (c.tcpTick now).1 := drifts_tickKeepalive _ now
  have hkeep : Closes (c.idleView now) (c.tcpTick now).1 := by
    change Closes (c.idleView now) ((c.idleView now).tickKeepalive now).1
    unfold tickKeepalive
    split_ifs
    · exact fun _ => .inr (.inl rfl)
    · exact closes_tickRto _ now
    · exact closes_tickRto _ now
  have hmoves : Moves now (c.idleView now) (c.tcpTick now).1 := moves_tickKeepalive _ now
  exact (closes_idleView ht hs now).trans hkeep hdrift hmoves.reset

/-- How a connection closes that nobody aborts. -/
theorem closes_step (ht : TimerInv c) (hs : Shutting c) {call : Call}
    (hcall : ∀ now, call ≠ .abort now) : Closes c (c.step call) := by
  cases call with
  | input pkt iss now =>
    change Closes c (c.tcpInput pkt iss now)
    unfold tcpInput
    dsimp only
    split
    · exact .of_state rfl
    · exact .of_state rfl
    · have hstamp : TimerInv (c.stamp now) := ht.of_eq rfl rfl rfl rfl (.inr rfl) rfl
      exact closes_inputSegment hstamp hs _ iss now
  | tick now => exact closes_tcpTick ht hs now
  | write buf now =>
    change Closes c (c.tcpWrite buf now).1
    unfold tcpWrite
    dsimp only
    split_ifs
    · exact .of_state rfl
    · exact .of_state rfl
    · let d := (c.stamp now).sndPush _ (c.snd.buf.length_take_space buf)
      exact fun hc => .inl (trySend_closed (c := d).mp hc)
  | read cap => exact .of_state (c.recvOnly_tcpRead cap).state
  | shutdownWrite now =>
    change Closes c (c.tcpShutdownWrite now).1
    unfold tcpShutdownWrite
    split_ifs
    · exact .of_state rfl
    · exact .of_state rfl
    · exact fun hc => .inl (trySend_closed (c := c.queueFin).mp hc)
  | abort now => exact absurd rfl (hcall now)

end Tcp
