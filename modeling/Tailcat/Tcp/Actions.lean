import Tailcat.Tcp.Sender

/-!
# The actions of the state machine

What a call on a connection can do, said once. An `Action` is part of the handling of a segment or of
the sending of data, a `Trigger` is what a call starts with.

## Main results

* `moves_step`: every call is a sequence of moves;
* `Moves.invariant`: what every action and every trigger preserves holds along all runs.
-/

namespace Tcp

open Relation (ReflTransGen)

namespace Recv

lemma drainSlot_finReceived (r : Recv) (i : Fin oooSegs) :
    (r.drainSlot i).1.finReceived = r.finReceived := by
  unfold drainSlot
  split
  · rfl
  · dsimp only
    split_ifs <;> rfl

lemma drainPass_finReceived (r : Recv) : r.drainPass.1.finReceived = r.finReceived := by
  have hfold : ∀ (l : List (Fin oooSegs)) (p : Recv × Bool),
      (l.foldl (fun p i => ((p.1.drainSlot i).1, p.2 || (p.1.drainSlot i).2)) p).1.finReceived =
        p.1.finReceived := by
    intro l
    induction l with
    | nil => exact fun p => rfl
    | cons i l ih => exact fun p => (ih _).trans (drainSlot_finReceived _ i)
  exact hfold _ _

lemma drainLoop_finReceived (fuel : ℕ) (r : Recv) :
    (drainLoop fuel r).finReceived = r.finReceived := by
  induction fuel generalizing r with
  | zero => rfl
  | succ fuel ih =>
    rw [drainLoop]
    split
    · rw [ih, drainPass_finReceived]
    · exact drainPass_finReceived r

end Recv

namespace Conn

lemma takeInOrder_finReceived (c : Conn) (s : Segment) :
    (c.takeInOrder s).rcv.finReceived = c.rcv.finReceived := by
  unfold takeInOrder
  dsimp only
  split
  · exact Recv.drainLoop_finReceived _ _
  · rfl

/-- The actions of `tc_tcp_input` in a settled state, and of `try_send`. -/
inductive Action (now : ℕ) : Conn → Conn → Prop
  | sendAck (c : Conn) : Action now c (c.sendAck now)
  | noteWindow (c : Conn) (s : Segment) : Action now c (c.noteWindow s)
  | handleAck (c : Conn) (ack : UInt32) : Action now c (c.handleAck ack now)
  | synAcked (c : Conn) : Action now c c.synAcked
  | take (c : Conn) (s : Segment) (h : c.rcv.finReceived = false) :
      Action now c ((c.takeInOrder s).delayAck now)
  | store (c : Conn) (seq : UInt32) (p : List UInt8) : Action now c (c.oooInsert seq p)
  | countFin (c : Conn) (h : c.rcv.finReceived = false) :
      Action now c ((c.countFin.sendAck now).closeRead now)
  | finAcked (c : Conn) : Action now c (c.finAcked now)
  | sendData (c : Conn) (hst : canSend c.state) (hn : c.sendable ≠ 0) :
      Action now c (c.sendData c.sendable now)
  | sendFin (c : Conn) (hst : canSend c.state) (hdue : c.finDue) : Action now c (c.sendFin now)

/-- The states an action can leave behind, written out. -/
inductive Effect (now : ℕ) (c : Conn) : Conn → Prop
  | same : Effect now c c
  | sendAck : Effect now c (c.sendAck now)
  | noteWindow (s : Segment) : Effect now c (c.noteWindow s)
  | handleAck (ack : UInt32) : Effect now c (c.handleAck ack now)
  | opened (hst : c.state = .synReceived) : Effect now c { c with state := .established }
  | take (s : Segment) (rcv : Recv) (stats : Stats) (d : ℕ) (hno : c.rcv.finReceived = false)
      (hrcv : (c.takeInOrder s).rcv = rcv) (hfin : rcv.finReceived = false)
      (hd : (c.tmr.delackDeadline ≠ 0 ∧ d = c.tmr.delackDeadline) ∨
        (c.tmr.delackDeadline = 0 ∧ d = now + delackMs)) :
      Effect now c { c with rcv, stats, tmr := { c.tmr with delackDeadline := d } }
  | store (ooo : Vector (Option OooSeg) oooSegs) (stats : Stats) :
      Effect now c { c with rcv := { c.rcv with ooo }, stats }
  | countFin (hno : c.rcv.finReceived = false) (hst : c.state ≠ .established) :
      Effect now c (c.countFin.sendAck now)
  | closeWait (hno : c.rcv.finReceived = false) (hst : c.state = .established) :
      Effect now c { c.countFin.sendAck now with state := .closeWait }
  | closing (hno : c.rcv.finReceived = false) (hst : c.state = .finWait1) :
      Effect now c { c.countFin.sendAck now with state := .closing }
  | timeWait (hno : c.rcv.finReceived = false)
      (hst : c.state = .finWait1 ∧ seqGe c.snd.una c.snd.nxt ∨ c.state = .finWait2) :
      Effect now c ((c.countFin.sendAck now).enterTimeWait now)
  | finWait2 (hge : seqGe c.snd.una c.snd.nxt) (hst : c.state = .finWait1) :
      Effect now c { c with state := .finWait2 }
  | lastWait (hge : seqGe c.snd.una c.snd.nxt) (hst : c.state = .closing) :
      Effect now c (c.enterTimeWait now)
  | closed (hge : seqGe c.snd.una c.snd.nxt) (hst : c.state = .lastAck) :
      Effect now c { c with state := .closed }
  | sendData (rtt : Rtt) (stats : Stats) (d : ℕ) (hst : canSend c.state) (hn : c.sendable ≠ 0)
      (hrto : rtt.rto = c.rtt.rto) (hd : c.Runs now d) :
      Effect now c (c.withData c.sendable rtt stats d)
  | sendFin (rtt : Rtt) (stats : Stats) (d : ℕ) (hst : canSend c.state) (hdue : c.finDue)
      (hrto : rtt.rto = c.rtt.rto) (hd : c.Runs now d) :
      Effect now c (c.withFin rtt stats d)

/-- What a call starts with: the arrival of a segment and its handling in the states of the
handshake, a timer that goes off, or what the owner asks for. -/
inductive Trigger (now : ℕ) : Conn → Conn → Prop
  | stamp (c : Conn) : Trigger now c (c.stamp now)
  | count (c : Conn) (stats : Stats) : Trigger now c { c with stats }
  | noteSegment (c : Conn) : Trigger now c (c.noteSegment now)
  | rst (c : Conn) : Trigger now c { c with reset := true, state := .closed }
  | listen (c : Conn) (s : Segment) (iss : UInt32) (hst : c.state = .listen) :
      Trigger now c
        (({ c with addr := { c.addr with remotePort := s.sport } }.synchronise s).startSend iss
          .synReceived |>.sendSyn (thSyn ||| thAck) now |>.armRto now)
  | refuse (c : Conn) (ack : UInt32) (hst : c.state = .synSent) : Trigger now c (c.sendRst ack now)
  | answer (c : Conn) (s : Segment) (hst : c.state = .synSent) :
      Trigger now c { (c.synchronise s).handleAck s.ack now with state := .established }
  | timewait (c : Conn) :
      Trigger now c { c with state := .closed, tmr := { c.tmr with timewaitDeadline := 0 } }
  | probe (c : Conn) : Trigger now c (c.sendProbe now)
  | giveUpIdle (c : Conn) : Trigger now c
      { c with state := .closed, reset := true, tmr := { c.tmr with kaDeadline := 0 } }
  | giveUpRto (c : Conn) : Trigger now c
      { c with state := .closed, reset := true, tmr := { c.tmr with rtoDeadline := 0 } }
  | retransmit (c : Conn) (hdue : c.rtoDue now) : Trigger now c (c.retransmit now)
  | push (c : Conn) (p : List UInt8) (hp : p.length ≤ c.sndSpace) (hst : canWrite c.state)
      (hq : c.snd.finQueued = false) : Trigger now c (c.sndPush p hp)
  | drop (c : Conn) (n : ℕ) : Trigger now c { c with rcv := { c.rcv with buf := c.rcv.buf.drop n } }
  | queueFin (c : Conn) (hst : c.state = .established ∨ c.state = .closeWait) :
      Trigger now c c.queueFin
  | abort (c : Conn) : Trigger now c { c.sendRst c.snd.nxt now with
      state := .closed
      tmr := { c.tmr with rtoDeadline := 0, delackDeadline := 0, timewaitDeadline := 0 } }

abbrev Acts (now : ℕ) : Conn → Conn → Prop := ReflTransGen (Action now)

abbrev Moves (now : ℕ) : Conn → Conn → Prop :=
  ReflTransGen fun c c' => Action now c c' ∨ Trigger now c c'

variable {c c' : Conn} {now : ℕ}

/-- The inversion rule for the actions. -/
theorem Action.effect (h : Action now c c') : Effect now c c' := by
  cases h with
  | sendAck => exact .sendAck
  | noteWindow s => exact .noteWindow s
  | handleAck ack => exact .handleAck ack
  | synAcked =>
    rcases c.synAcked_cases with heq | ⟨hst, heq⟩ <;> rw [heq]
    · exact .same
    · exact .opened hst
  | take s hno =>
    obtain ⟨rcv, stats, heq⟩ := c.takeInOrder_eq s
    obtain ⟨d, heq', hd⟩ := (c.takeInOrder s).delayAck_eq now
    have hfin := (c.takeInOrder_finReceived s).trans hno
    rw [heq']
    rw [heq] at hfin hd ⊢
    exact .take s rcv stats d hno (by rw [heq]) hfin hd
  | store seq p =>
    obtain ⟨ooo, stats, heq⟩ := c.oooInsert_eq seq p
    rw [heq]
    exact .store ooo stats
  | countFin hno =>
    rcases (c.countFin.sendAck now).closeRead_cases now with
      ⟨hst, heq⟩ | ⟨hst, heq⟩ | ⟨hst, heq⟩ | ⟨hst, heq⟩ <;> rw [heq]
    · exact .countFin hno hst
    · exact .closeWait hno hst
    · exact .closing hno hst
    · exact .timeWait hno hst
  | finAcked =>
    rcases c.finAcked_cases now with heq | ⟨-, hge, ⟨hst, heq⟩ | ⟨hst, heq⟩ | ⟨hst, heq⟩⟩ <;> rw [heq]
    · exact .same
    · exact .finWait2 hge hst
    · exact .lastWait hge hst
    · exact .closed hge hst
  | sendData hst hn =>
    obtain ⟨rtt, stats, d, heq, hrto, hd⟩ := c.sendData_eq c.sendable now
    rw [heq]
    exact .sendData rtt stats d hst hn hrto hd
  | sendFin hst hdue =>
    obtain ⟨rtt, stats, d, heq, hrto, hd⟩ := c.sendFin_eq hdue now
    rw [heq]
    exact .sendFin rtt stats d hst hdue hrto hd

lemma Acts.moves (h : Acts now c c') : Moves now c c' := by
  induction h with
  | refl => exact .refl
  | tail _ hstep ih => exact ih.tail (.inl hstep)

lemma Action.acts (h : Action now c c') : Acts now c c' := .single h

lemma Trigger.moves (h : Trigger now c c') : Moves now c c' := .single (.inr h)

lemma moves_sndPush (hst : ¬canWrite (c.stamp now).state = false)
    (hq : ¬(c.stamp now).snd.finQueued = true) {p : List UInt8}
    (hp : p.length ≤ (c.stamp now).sndSpace) : Moves now c ((c.stamp now).sndPush p hp) := by
  rw [Bool.not_eq_false] at hst
  rw [Bool.not_eq_true] at hq
  exact (Trigger.stamp c).moves.tail (.inr (.push _ _ hp hst hq))

/-- The invariant rule: what every action and every trigger preserves is preserved. -/
theorem Moves.invariant {P : Conn → Prop} (h : Moves now c c')
    (hact : ∀ {c c'}, Action now c c' → P c → P c')
    (htrig : ∀ {c c'}, Trigger now c c' → P c → P c') (hc : P c) : P c' := by
  induction h with
  | refl => exact hc
  | tail _ hstep ih => exact hstep.elim (fun h => hact h ih) fun h => htrig h ih

/-! ## The functions as sequences of actions -/

section Functions

variable (c : Conn) (s : Segment) (iss : UInt32) (now : ℕ)

lemma acts_trySend : Acts now c (c.trySend now) :=
  trySend_rule (fun d hst hn h => h.tail (.sendData d hst hn))
    (fun d hst hdue h => h.tail (.sendFin d hst hdue)) .refl

lemma acts_acceptPayload : Acts now c (c.acceptPayload s now) := by
  unfold acceptPayload
  split_ifs with hnew
  · exact .single (.take c s hnew.2)
  · exact .head (.store c s.seq s.data) (.single (.sendAck _))
  · exact .single (.sendAck c)
  · exact .refl

lemma acts_answerProbe : Acts now c (c.answerProbe s now) := by
  unfold answerProbe
  split
  · exact .single (.sendAck c)
  · exact .refl

lemma acts_acceptFin : Acts now c (c.acceptFin s now) := by
  unfold acceptFin
  split
  · next hfin =>
    simp only [Bool.and_eq_true, Bool.not_eq_true'] at hfin
    exact .single (.countFin c hfin.2)
  · exact .refl

lemma acts_inputSeq : Acts now c (c.inputSeq s now) :=
  (c.acts_acceptPayload s now).trans ((acts_answerProbe _ s now).trans (acts_acceptFin _ s now))

lemma acts_inputAck : Acts now c (c.inputAck s now) := by
  have hsyn : Acts now c (c.answerSyn s now) := by
    unfold answerSyn
    split
    · exact .single (.sendAck c)
    · exact .refl
  exact ((hsyn.tail (.noteWindow _ s)).tail (.handleAck _ s.ack)).tail (.synAcked _)

lemma acts_inputOther : Acts now c (c.inputOther s now) := by
  unfold inputOther
  split
  · exact (((c.acts_inputAck s now).trans (acts_inputSeq _ s now)).tail (.finAcked _)).trans
      (acts_trySend _ now)
  · exact .refl

lemma moves_inputSynSent {c : Conn} (hst : c.state = .synSent) (s : Segment) (now : ℕ) :
    Moves now c (c.inputSynSent s now) := by
  unfold inputSynSent
  split_ifs
  · exact (Trigger.refuse c s.ack hst).moves
  · exact (Trigger.answer c s hst).moves.trans
      (Acts.moves (.head (.sendAck _) (acts_trySend _ now)))
  · exact .refl

lemma moves_inputRst : Moves now c (c.inputRst s) := by
  unfold inputRst
  split
  · exact (Trigger.rst c).moves
  · exact .refl

lemma moves_inputListen {c : Conn} (hst : c.state = .listen) (s : Segment) (iss : UInt32)
    (now : ℕ) : Moves now c (c.inputListen s iss now) := by
  unfold inputListen
  split
  · exact (Trigger.listen c s iss hst).moves
  · exact .refl

lemma moves_inputSegment : Moves now c (c.inputSegment s iss now) := by
  refine (Trigger.noteSegment c).moves.trans ?_
  unfold inputSegment
  dsimp only
  split
  · exact moves_inputRst _ s now
  split
  · next hst => exact moves_inputListen hst s iss now
  · next hst => exact moves_inputSynSent hst s now
  · exact (acts_inputOther _ s now).moves

lemma moves_tcpInput (pkt : List UInt8) (iss : UInt32) (now : ℕ) :
    Moves now c (c.tcpInput pkt iss now) := by
  refine (Trigger.stamp c).moves.trans ?_
  unfold tcpInput
  dsimp only
  split
  · exact .refl
  · exact (Trigger.count _ _).moves
  · exact moves_inputSegment _ _ iss now

lemma moves_tickRto : Moves now c (c.tickRto now).1 := by
  unfold tickRto
  split_ifs with hdue
  · exact (Trigger.giveUpRto c).moves
  · exact (Trigger.retransmit c hdue).moves.trans (acts_trySend _ now).moves
  · exact (c.acts_trySend now).moves

lemma moves_idleView : Moves now c (c.idleView now) := by
  have htw : Moves now (c.stamp now) ((c.stamp now).tickTimewait now) := by
    unfold tickTimewait
    split
    · exact (Trigger.timewait _).moves
    · exact .refl
  refine (Trigger.stamp c).moves.trans (htw.trans ?_)
  unfold idleView tickDelack
  split
  · exact (Action.sendAck _).acts.moves
  · exact .refl

lemma moves_tickKeepalive : Moves now c (c.tickKeepalive now).1 := by
  unfold tickKeepalive
  split_ifs
  · exact (Trigger.giveUpIdle _).moves
  · exact (Trigger.probe _).moves.trans (moves_tickRto _ now)
  · exact moves_tickRto _ now

lemma moves_tcpTick : Moves now c (c.tcpTick now).1 :=
  (c.moves_idleView now).trans (moves_tickKeepalive _ now)

lemma moves_tcpWrite (buf : List UInt8) (now : ℕ) : Moves now c (c.tcpWrite buf now).1 := by
  refine (Trigger.stamp c).moves.trans ?_
  unfold tcpWrite
  dsimp only
  split_ifs with hq hst
  · exact .refl
  · exact .refl
  · exact (Trigger.push _ _ _ (by simpa using hst) (by simpa using hq)).moves.trans
      (acts_trySend _ now).moves

lemma moves_tcpRead (cap : ℕ) : Moves c.lastNow c (c.tcpRead cap).1 := by
  refine (Trigger.drop c (min c.rcv.buf.len cap)).moves.trans ?_
  unfold tcpRead
  dsimp only
  split
  · exact (Action.sendAck _).acts.moves
  · exact .refl

lemma moves_tcpShutdownWrite : Moves now c (c.tcpShutdownWrite now).1 := by
  unfold tcpShutdownWrite
  split_ifs with hq hst
  · exact .refl
  · exact .refl
  · have hopen : c.state = .established ∨ c.state = .closeWait := by
      by_contra hc
      exact hst ⟨fun h => hc (.inl h), fun h => hc (.inr h)⟩
    exact (Trigger.queueFin c hopen).moves.trans (acts_trySend _ now).moves

end Functions

/-- The time of a call; reading goes by the time of the call before. -/
def Call.time (c : Conn) : Call → ℕ
  | .input _ _ now | .tick now | .write _ now | .shutdownWrite now | .abort now => now
  | .read _ => c.lastNow

/-- Every call is a sequence of moves. -/
theorem moves_step (c : Conn) (call : Call) : Moves (call.time c) c (c.step call) := by
  cases call with
  | input pkt iss now => exact c.moves_tcpInput pkt iss now
  | tick now => exact c.moves_tcpTick now
  | write buf now => exact c.moves_tcpWrite buf now
  | read cap => exact c.moves_tcpRead cap
  | shutdownWrite now => exact c.moves_tcpShutdownWrite now
  | abort now =>
    change Moves now c (c.tcpAbort now)
    unfold tcpAbort
    split
    · exact .refl
    · exact (Trigger.abort c).moves

end Conn

end Tcp
