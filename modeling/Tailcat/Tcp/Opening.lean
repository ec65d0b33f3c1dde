import Tailcat.Tcp.Flow

/-!
# Before the two ends know each other

The active end until it has the peer's SYN (`Presync`), and the passive end while it listens
(`Listening`): the one sends nothing but its SYN and the other nothing at all.

## Main results

* `Presync.step`, `Presync.opens`: the active end waits, and opens on the answer to its SYN;
* `Listening.step`, `Listening.opens`: the passive end waits, and opens on a SYN.
-/

namespace Tcp

open SerialNumber Conn

variable {W : List UInt8} {x x' : Conn} {call : Call} {s : Segment}

/-! ## The active end -/

/-- The receive half before the peer's SYN. -/
structure Recv.Empty (r : Recv) : Prop where
  buf : r.buf.len = 0
  ooo : ∀ i : Fin oooSegs, r.ooo.get i = none
  fin : r.finReceived = false

/-- An end that has sent its SYN and not heard from its peer. It waits in `SYN_SENT`, or it has
given up. -/
structure Presync (W : List UInt8) (x : Conn) : Prop where
  finQueued : x.snd.finQueued = false
  finSent : x.snd.finSent = false
  delack : x.tmr.delackDeadline = 0
  timewait : x.tmr.timewaitDeadline = 0
  rcv : x.rcv.Empty
  phase : (x.state = .synSent ∧ SynOut W x.snd) ∨
    (x.state = .closed ∧ x.tmr.rtoDeadline = 0 ∧ x.snd.una = x.snd.iss)
  out : ∀ s ∈ x.out, s.flags = thSyn ∧ s.data = [] ∧ s.seq = x.snd.iss

/-- A step of an end that goes on waiting. -/
structure Waits (W : List UInt8) (x x' : Conn) : Prop where
  iss : x'.snd.iss = x.snd.iss
  inv : Presync W x'

namespace Presync

lemma not_synchronised (h : Presync W x) : x.state.synchronised = false := by
  rcases h.phase with ⟨hst, -⟩ | ⟨hst, -⟩ <;> rw [hst] <;> rfl

lemma waits_of_eq (h : Presync W x) (hsnd : x'.snd = x.snd)
    (hrcv : x'.rcv = x.rcv) (hst : x'.state = x.state)
    (hd : x'.tmr.delackDeadline = x.tmr.delackDeadline)
    (htw : x'.tmr.timewaitDeadline = x.tmr.timewaitDeadline)
    (hrto : x'.tmr.rtoDeadline = x.tmr.rtoDeadline) (hout : x'.out = x.out) :
    Waits W x x' :=
  ⟨by rw [hsnd], by rw [hsnd]; exact h.finQueued, by rw [hsnd]; exact h.finSent,
    hd.trans h.delack, htw.trans h.timewait, by rw [hrcv]; exact h.rcv,
    by rw [hst, hsnd, hrto]; exact h.phase, by rw [hout, hsnd]; exact h.out⟩

lemma retransmit_eq (hst : x.state = .synSent) (now : ℕ) :
    x.retransmit now = (x.backOff.sendSegment x.snd.iss thSyn [] now).armRto now := by
  have hsyn : x.backOff.resend now = x.backOff.sendSegment x.snd.iss thSyn [] now := by
    exact if_pos hst
  rw [retransmit, hsyn]

lemma tick (h : Presync W x) (now : ℕ) : Waits W x (x.tcpTick now).1 := by
  have hidle := idleView_eq_stamp h.timewait h.delack now
  have hnow : Waits W x (x.stamp now) := h.waits_of_eq rfl rfl rfl rfl rfl rfl rfl
  have hno := hnow.inv.not_synchronised
  rw [tcpTick_of_not_synchronised (by rw [hidle]; exact hno), hidle]
  rcases h.phase with ⟨hst, hsyn⟩ | ⟨hst, hrto, -⟩
  · unfold tickRto
    split_ifs
    · exact ⟨rfl, h.finQueued, h.finSent, h.delack, h.timewait, h.rcv,
        .inr ⟨rfl, rfl, hsyn.una⟩, h.out⟩
    · have hagain := retransmit_eq (x := x.stamp now) hst now
      rw [trySend_of_not_synchronised (by rw [hagain]; exact hno), hagain]
      refine ⟨rfl, h.finQueued, h.finSent, h.delack, h.timewait, h.rcv, .inl ⟨hst, hsyn⟩,
        fun s hs => ?_⟩
      rcases List.mem_append.mp hs with hs | hs
      · exact h.out s hs
      · obtain rfl := List.mem_singleton.mp hs
        exact ⟨rfl, rfl, rfl⟩
    · rw [trySend_of_not_synchronised hno]
      exact hnow
  · unfold tickRto
    rw [rtoDue_stamp hrto now, trySend_of_not_synchronised hno]
    exact hnow

lemma write (h : Presync W x) (buf : List UInt8) (now : ℕ) :
    Waits (W ++ Call.bytesWritten x (.write buf now)) x (x.tcpWrite buf now).1 := by
  have hnow : Waits W x (x.stamp now) := h.waits_of_eq rfl rfl rfl rfl rfl rfl rfl
  unfold Call.bytesWritten tcpWrite
  dsimp only
  split_ifs
  · simpa using hnow
  · simpa using hnow
  rw [trySend_of_not_synchronised (c := (x.stamp now).sndPush _ _) h.not_synchronised]
  refine ⟨rfl, h.finQueued, h.finSent, h.delack, h.timewait, h.rcv,
    h.phase.imp (fun hs => ?_) id, h.out⟩
  refine ⟨hs.1, hs.2.una, hs.2.nxt, ?_⟩
  rw [← hs.2.bytes]
  exact x.snd.buf.toList_push (x.snd.buf.length_take_space buf)

end Presync

lemma tcpRead_of_empty (h : x.rcv.Empty) (cap : ℕ) :
    x.tcpRead cap = ({ x with rcv := { x.rcv with buf := x.rcv.buf.drop 0 } }, []) := by
  unfold tcpRead
  rw [h.buf]
  rfl

lemma Recv.Empty.drop {r : Recv} (h : r.Empty) : ({ r with buf := r.buf.drop 0 } : Recv).Empty :=
  ⟨by rw [RingBuffer.len_drop, h.buf], h.ooo, h.fin⟩

namespace Presync

/-- A call that hands in no answer to the SYN leaves the end waiting. -/
theorem step (h : Presync W x) (hcall : ∀ now, call ≠ .abort now)
    (hseg : ∀ s, call.segment x = some s →
      x.state = .synSent ∧ s.rst = false ∧ (s.syn && s.acks) = false) :
    Waits (W ++ call.bytesWritten x) x (x.step call) ∧ call.bytesRead x = [] := by
  have hnil : ∀ x', Waits W x x' → Waits (W ++ []) x x' := fun x' h' => by
    rwa [List.append_nil]
  cases call with
  | input pkt iss now =>
    refine ⟨hnil _ ?_, rfl⟩
    have hparse : parse (x.stamp now) pkt = parse x pkt := rfl
    change Waits W x (x.tcpInput pkt iss now)
    unfold tcpInput
    dsimp only
    rw [hparse]
    split
    · exact h.waits_of_eq rfl rfl rfl rfl rfl rfl rfl
    · exact h.waits_of_eq rfl rfl rfl rfl rfl rfl rfl
    rename_i s hs
    obtain ⟨hst, hrst, hsyn⟩ := hseg s (by rw [Call.segment, hs])
    have hst' : ((x.stamp now).noteSegment now).state = .synSent := hst
    unfold inputSegment
    dsimp only
    rw [hrst, hst']
    unfold inputSynSent
    rw [hsyn]
    exact h.waits_of_eq rfl rfl rfl rfl rfl rfl rfl
  | tick now => exact ⟨hnil _ (h.tick now), rfl⟩
  | write buf now => exact ⟨h.write buf now, rfl⟩
  | read cap =>
    have hread := tcpRead_of_empty h.rcv cap
    refine ⟨hnil _ ?_, by rw [Call.bytesRead, hread]⟩
    change Waits W x (x.tcpRead cap).1
    rw [hread]
    exact ⟨rfl, h.finQueued, h.finSent, h.delack, h.timewait, h.rcv.drop, h.phase, h.out⟩
  | shutdownWrite now =>
    refine ⟨hnil _ ?_, rfl⟩
    change Waits W x (x.tcpShutdownWrite now).1
    rw [tcpShutdownWrite_of_not_synchronised h.not_synchronised]
    exact ⟨rfl, h⟩
  | abort now => exact absurd rfl (hcall now)

end Presync

/-- The active end opens: it has the peer's SYN `s`, and its stream starts. -/
structure Opens (W : List UInt8) (s : Segment) (x x' : Conn) : Prop where
  state : x'.state.synchronised
  iss : x'.snd.iss = x.snd.iss
  una : x'.snd.una = x.snd.iss + 1
  inv : ∃ u f, SendInv W x'.snd u f
  fresh : x'.rcv.Fresh
  irs : x'.rcv.irs = s.seq
  sends : Emits (StreamSegment W x.snd.iss x'.snd.finQueued) x x'
  acks : Emits (fun s' => s'.acks → s'.ack = s.seq + 1) x x'

theorem Presync.opens (h : Presync W x) (hst : x.state = .synSent) (hrst : s.rst = false)
    (hsyn : s.syn) (hacks : s.acks) (hack : s.ack = x.snd.iss + 1) (iss : UInt32) (now : ℕ) :
    Opens W s x ((x.stamp now).inputSegment s iss now) := by
  have hout : SynOut W x.snd := by
    rcases h.phase with ⟨-, hs⟩ | ⟨hs, -⟩
    · exact hs
    · cases hst.symm.trans hs
  let y := inputView x now
  have hinput : (x.stamp now).inputSegment s iss now = y.inputSynSent s now := by
    have hst' : ((x.stamp now).noteSegment now).state = .synSent := hst
    unfold inputSegment
    rw [hrst, if_neg (by simp), hst']
  obtain ⟨hopen, hiss, hemit, hinv⟩ :=
    opens_inputSynSent (c := y) hout h.finSent hst hsyn hacks hack now
  -- after the SYN has been taken, the receive half is left alone
  let e : Conn := { (y.synchronise s).handleAck s.ack now with state := .established }
  have heq : y.inputSynSent s now = (e.sendAck now).trySend now :=
    inputSynSent_eq (c := y) hsyn hacks hack now
  have hest : KeepsRecv ((y.synchronise s).handleAck s.ack now) e :=
    .of_state rfl rfl ⟨nofun, nofun⟩ rfl
  have hkeep : KeepsRecv (y.synchronise s) (y.inputSynSent s now) := by
    rw [heq]
    exact (keepsRecv_handleAck _ _ now).trans (hest.trans
      ((e.keepsRecv_sendAck now).trans (keepsRecv_trySend _ now)))
  rw [hinput]
  refine ⟨hopen, hiss, ?_, hinv, ?_, by rw [hkeep.rcv]; rfl, hemit,
    hkeep.emits.mono fun _ hs' => hs'.ack⟩
  · obtain ⟨-, -, hdiss, hstart⟩ := handleAck_syn (c := y.synchronise s)
      ⟨hout.una, hout.nxt, hout.bytes⟩ h.finSent (.inl hst) now
    rw [show (y.synchronise s).snd.iss + 1 = s.ack from hack.symm] at hdiss hstart
    rw [heq, trySend_una]
    change ((y.synchronise s).handleAck s.ack now).snd.una = _
    rw [hstart.una, hdiss, place_zero]
    rfl
  · rw [hkeep.rcv]
    exact ⟨rfl, h.rcv.buf, h.rcv.ooo, h.rcv.fin⟩

/-! ## The passive end -/

structure Listening (x : Conn) : Prop where
  state : x.state = .listen
  finQueued : x.snd.finQueued = false
  finSent : x.snd.finSent = false
  buf : x.snd.buf.toList = []
  rto : x.tmr.rtoDeadline = 0
  delack : x.tmr.delackDeadline = 0
  timewait : x.tmr.timewaitDeadline = 0
  rcv : x.rcv.Empty
  out : x.out = []

namespace Listening

lemma of_eq (h : Listening x) (hsnd : x'.snd = x.snd) (hrcv : x'.rcv = x.rcv)
    (hst : x'.state = x.state) (hrto : x'.tmr.rtoDeadline = x.tmr.rtoDeadline)
    (hd : x'.tmr.delackDeadline = x.tmr.delackDeadline)
    (htw : x'.tmr.timewaitDeadline = x.tmr.timewaitDeadline) (hout : x'.out = x.out) :
    Listening x' :=
  ⟨hst.trans h.state, by rw [hsnd]; exact h.finQueued, by rw [hsnd]; exact h.finSent,
    by rw [hsnd]; exact h.buf, hrto.trans h.rto, hd.trans h.delack, htw.trans h.timewait,
    by rw [hrcv]; exact h.rcv, hout.trans h.out⟩

/-- Nothing that is not a segment makes a listening end do anything. -/
theorem step (h : Listening x) (hcall : ∀ now, call ≠ .abort now) (hseg : call.segment x = none) :
    Listening (x.step call) ∧ (x.step call).addr = x.addr ∧ call.bytesRead x = [] ∧
      call.bytesWritten x = [] := by
  have hno : x.state.synchronised = false := by
    rw [h.state]
    rfl
  have hsame : ∀ x' : Conn, x' = x ∨ x' = x.stamp x'.lastNow → Listening x' ∧ x'.addr = x.addr := by
    rintro x' (hx | hx) <;> rw [hx]
    · exact ⟨h, rfl⟩
    · exact ⟨h.of_eq rfl rfl rfl rfl rfl rfl rfl, rfl⟩
  cases call with
  | input pkt iss now =>
    have hparse : parse (x.stamp now) pkt = parse x pkt := rfl
    rw [Call.segment] at hseg
    suffices hl : Listening (x.tcpInput pkt iss now) ∧ (x.tcpInput pkt iss now).addr = x.addr from
      ⟨hl.1, hl.2, rfl, rfl⟩
    unfold tcpInput
    dsimp only
    rw [hparse]
    split
    · exact hsame _ (.inr rfl)
    · exact ⟨h.of_eq rfl rfl rfl rfl rfl rfl rfl, rfl⟩
    · next s hs =>
      rw [hs] at hseg
      cases hseg
  | tick now =>
    have hidle := idleView_eq_stamp h.timewait h.delack now
    have htick : (x.tcpTick now).1 = x.stamp now := by
      rw [tcpTick_of_not_synchronised (by rw [hidle]; exact hno), hidle]
      unfold tickRto
      rw [rtoDue_stamp h.rto now, if_neg (by simp), trySend_of_not_synchronised (c := x.stamp now) hno]
    obtain ⟨hl, ha⟩ := hsame (x.tcpTick now).1 (.inr (by rw [htick]; rfl))
    exact ⟨hl, ha, rfl, rfl⟩
  | write buf now =>
    have hrefused : x.tcpWrite buf now = (x.stamp now, .inval, 0) := by
      have hq : ¬(x.stamp now).snd.finQueued = true := by
        change ¬x.snd.finQueued = true
        rw [h.finQueued]
        simp
      have hw : canWrite (x.stamp now).state = false := by
        change canWrite x.state = false
        rw [h.state]
        rfl
      unfold tcpWrite
      rw [if_neg hq, if_pos hw]
    obtain ⟨hl, ha⟩ := hsame (x.tcpWrite buf now).1 (.inr (by rw [hrefused]; rfl))
    exact ⟨hl, ha, rfl, by rw [Call.bytesWritten, hrefused]; rfl⟩
  | read cap =>
    have hread := tcpRead_of_empty h.rcv cap
    suffices hl : Listening (x.tcpRead cap).1 ∧ (x.tcpRead cap).1.addr = x.addr from
      ⟨hl.1, hl.2, by rw [Call.bytesRead, hread], rfl⟩
    rw [hread]
    exact ⟨⟨h.state, h.finQueued, h.finSent, h.buf, h.rto, h.delack, h.timewait, h.rcv.drop, h.out⟩,
      rfl⟩
  | shutdownWrite now =>
    obtain ⟨hl, ha⟩ := hsame (x.tcpShutdownWrite now).1
      (.inl (tcpShutdownWrite_of_not_synchronised hno now))
    exact ⟨hl, ha, rfl, rfl⟩
  | abort now => exact absurd rfl (hcall now)

/-- A SYN opens a listening end. -/
theorem opens (h : Listening x) (hrst : s.rst = false) (hsyn : s.syn) (iss : UInt32) (now : ℕ) :
    let x' := (x.stamp now).inputSegment s iss now
    Shaking [] x' ∧ x'.addr = { x.addr with remotePort := s.sport } ∧ x'.rcv.Fresh ∧
      x'.rcv.irs = s.seq ∧ ∃ a, x'.out = [a] ∧ Posted x'.addr a ∧ a.data = [] ∧
        a.flags = thSyn ||| thAck ∧ a.seq = x'.snd.iss ∧ a.ack = s.seq + 1 := by
  have hinput : (x.stamp now).inputSegment s iss now = (inputView x now).inputListen s iss now := by
    have hst' : ((x.stamp now).noteSegment now).state = .listen := h.state
    unfold inputSegment
    rw [hrst, if_neg (by simp), hst']
  rw [hinput]
  unfold inputListen
  rw [if_pos hsyn]
  have hout : ∀ a : Segment, x.out ++ [a] = [a] := fun a => by rw [h.out, List.nil_append]
  exact ⟨⟨rfl, ⟨rfl, rfl, h.buf⟩, h.finQueued, h.finSent, h.timewait⟩, rfl,
    ⟨rfl, h.rcv.buf, h.rcv.ooo, h.rcv.fin⟩, rfl, _, hout _, ⟨rfl, rfl, Nat.zero_le _⟩, rfl, rfl, rfl,
    rfl⟩

end Listening

end Tcp
