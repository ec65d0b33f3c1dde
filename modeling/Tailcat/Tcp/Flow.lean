import Tailcat.Tcp.Handshake
import Tailcat.Tcp.Peers

/-!
# One direction of a connection

`Flow x y W read t` ties the send half of `x` to the receive half of `y`, over a network that may hand
any segment `x` has sent to `y`, at any time and any number of times: `y` has taken `t` places of the
stream `W` that `x` was given to send, every segment that `x` has ever sent is still harmless, and no
acknowledgement of `y` runs ahead of what `y` has taken. An end whose handshake was never completed
sends nothing but its SYN and bare acknowledgements (`Shaking`, `Stillborn`).

## Main results

* `Flow.receive` and `Flow.send`: whatever is handed over, the flow goes on.
-/

namespace Tcp

open SerialNumber Conn

namespace Conn

variable {c : Conn} {s : Segment}

/-! ## What has been acknowledged -/

lemma handleAck_una (c : Conn) (ack : UInt32) (now : ℕ) :
    (c.handleAck ack now).snd.una = c.snd.una ∨ (c.handleAck ack now).snd.una = ack := by
  refine c.handleAck_elim ack now ?_ ?_ <;> intros
  · exact .inl rfl
  · exact .inr rfl

lemma synAcked_snd (c : Conn) : c.synAcked.snd = c.snd := by
  rcases c.synAcked_cases with h | ⟨-, h⟩ <;> rw [h]

lemma inputOther_una (c : Conn) (s : Segment) (now : ℕ) :
    (c.inputOther s now).snd.una = c.snd.una ∨ (s.acks ∧ (c.inputOther s now).snd.una = s.ack) := by
  unfold inputOther
  split
  · next hacks =>
    rw [trySend_una, (keepsSend_finAcked _ now).snd, (keepsSend_inputSeq _ s now).snd, inputAck,
      synAcked_snd]
    have hwnd : ((c.answerSyn s now).noteWindow s).snd.una = c.snd.una := by
      change (c.answerSyn s now).snd.una = _
      rw [(c.recvOnly_answerSyn s now).keepsSend.snd]
    have h := handleAck_una ((c.answerSyn s now).noteWindow s) s.ack now
    rw [hwnd] at h
    exact h.imp id fun h => ⟨hacks, h⟩
  · exact .inl rfl

lemma tickRto_una (c : Conn) (now : ℕ) : (c.tickRto now).1.snd.una = c.snd.una := by
  have hresend : ∀ d : Conn, (d.resend now).snd = d.snd := fun d => by
    unfold resend
    split_ifs <;> rfl
  unfold tickRto
  split_ifs
  · rfl
  · rw [trySend_una]
    change (c.backOff.resend now).snd.una = _
    rw [hresend]
    rfl
  · exact trySend_una c now

lemma una_step (hst : c.state.Settled) (call : Call) :
    (c.step call).snd.una = c.snd.una ∨
      ∃ s, call.segment c = some s ∧ s.acks ∧ (c.step call).snd.una = s.ack := by
  cases call with
  | input pkt iss now =>
    have hparse : parse (c.stamp now) pkt = parse c pkt := rfl
    rw [Call.segment]
    change (c.tcpInput pkt iss now).snd.una = _ ∨ ∃ s, _ ∧ _ ∧ (c.tcpInput pkt iss now).snd.una = _
    unfold tcpInput
    dsimp only
    rw [hparse]
    split
    · exact .inl rfl
    · exact .inl rfl
    rename_i s hseg
    cases hrst : s.rst with
    | true =>
      rw [inputSegment, if_pos hrst, (keepsSend_inputRst _ s).snd]
      exact .inl rfl
    | false =>
      rw [inputSegment_of_settled (c := c.stamp now) hst hrst]
      exact (inputOther_una _ s now).imp id fun h => ⟨s, by rw [hseg], h.1, h.2⟩
  | read cap =>
    refine .inl ?_
    change (c.tcpRead cap).1.snd.una = _
    rw [(c.recvOnly_tcpRead cap).keepsSend.snd]
  | tick now =>
    refine .inl ?_
    change ((c.idleView now).tickKeepalive now).1.snd.una = _
    have hview : (c.idleView now).snd.una = c.snd.una := by rw [(c.keepsSend_idleView now).snd]
    unfold tickKeepalive
    split_ifs
    · exact hview
    · rw [tickRto_una]
      exact hview
    · rw [tickRto_una, hview]
  | write buf now =>
    refine .inl ?_
    change (c.tcpWrite buf now).1.snd.una = _
    unfold tcpWrite
    dsimp only
    split_ifs
    · rfl
    · rfl
    · rw [trySend_una]
      rfl
  | shutdownWrite now =>
    refine .inl ?_
    change (c.tcpShutdownWrite now).1.snd.una = _
    unfold tcpShutdownWrite
    split_ifs
    · rfl
    · rfl
    · rw [trySend_una]
      rfl
  | abort now =>
    refine .inl ?_
    change (c.tcpAbort now).snd.una = _
    unfold tcpAbort
    split <;> rfl

end Conn

/-! ## Segments on the wire -/

/-- A segment that an end which sends `W` has put on the wire, seen from a peer that has taken `t`
places: its payload is a piece of `W` or lies before what has been taken, and a FIN stands right
after the last byte of a stream that is `closing`. -/
structure Wire (W : List UInt8) (iss : UInt32) (closing : Bool) (t : ℕ) (s : Segment) : Prop where
  rst : s.rst = false
  data : s.data ≠ [] → s.fin = false ∧
    ((∃ o, s.seq = place (iss + 1) o ∧ s.data <+: W.drop o) ∨
      ∃ k, s.seq = place iss k ∧ k + s.data.length ≤ t + 1)
  fin : s.fin → closing ∧ s.data = [] ∧ s.seq = place (iss + 1) W.length

namespace Wire

variable {W : List UInt8} {iss : UInt32} {closing closing' : Bool} {t t' : ℕ} {s : Segment}

lemma mono (h : Wire W iss closing t s) {p : List UInt8} (hp : closing → p = [])
    (hc : closing → closing') (ht : t ≤ t') : Wire (W ++ p) iss closing' t' s := by
  refine ⟨h.rst, fun hd => ⟨(h.data hd).1, ?_⟩, fun hf => ?_⟩
  · rcases (h.data hd).2 with ⟨o, hseq, hpiece⟩ | ⟨k, hseq, hk⟩
    · exact .inl ⟨o, hseq, Stream.piece_append hpiece p⟩
    · exact .inr ⟨k, hseq, by omega⟩
  · obtain ⟨hcl, hd, hseq⟩ := h.fin hf
    rw [hp hcl, List.append_nil]
    exact ⟨hc hcl, hd, hseq⟩

lemma of_streamSegment (h : StreamSegment W iss closing s) : Wire W iss closing t s := by
  refine ⟨h.rst, fun hd => ⟨?_, .inl ?_⟩, h.fin⟩
  · rw [← Bool.not_eq_true]
    exact fun hf => hd (h.fin hf).2.1
  · obtain ⟨o, hseq, hpiece, -⟩ := h.data hd
    exact ⟨o, hseq, hpiece⟩

lemma of_bare (h : s.Bare) : Wire W iss closing t s := of_streamSegment (h.streamSegment W iss _)

lemma of_syn (hd : s.data = []) (hf : s.flags = thSyn ∨ s.flags = thSyn ||| thAck) :
    Wire W iss closing t s := by
  have hfin : s.fin = false := by
    rw [Segment.fin]
    rcases hf with hf | hf <;> rw [hf] <;> rfl
  refine ⟨?_, fun hne => absurd hd hne, fun hf => absurd (hfin.symm.trans hf) (by simp)⟩
  rw [Segment.rst]
  rcases hf with hf | hf <;> rw [hf] <;> rfl

lemma carries_or_stale (h : Wire W iss closing t s) (hW : W.length < 2 ^ 30)
    (ht : t ≤ W.length + 1) : Carries W iss t s ∨ Stale iss t s := by
  by_cases hd : s.data = []
  · refine .inl fun hs => ?_
    have hf : s.fin := hs.resolve_left fun hne => hne hd
    exact ⟨W.length, (h.fin hf).2.2, by simp [hd], by omega, by omega, fun _ => by simp [hd]⟩
  · obtain ⟨hf, ⟨o, hseq, hpiece⟩ | ⟨k, hseq, hk⟩⟩ := h.data hd
    · have := Stream.piece_le hpiece hd
      refine .inl fun _ => ⟨o, hseq, hpiece, by omega, by omega, fun hf' => ?_⟩
      exact absurd (hf.symm.trans hf') (by simp)
    · exact .inr ⟨hf, k, hseq, hk, by omega⟩

end Wire

/-! ## The flow -/

/-- The flow of the stream `W` from `x` to `y`: the owner of `y` has read `read`, and `y` has taken
`t` places. -/
structure Flow (x y : Conn) (W read : List UInt8) (t : ℕ) : Prop where
  short : W.length < 2 ^ 30
  recv : RecvInv W y.rcv read t
  irs : y.rcv.irs = x.snd.iss
  fin : y.rcv.finReceived → x.snd.finQueued
  wire : ∀ s ∈ x.out, Wire W x.snd.iss x.snd.finQueued t s
  acks : ∀ s ∈ y.out, s.acks → ∃ p, p ≤ t ∧ s.ack = place (x.snd.iss + 1) p

variable {read : List UInt8} {r : Recv} {t now : ℕ} {s : Segment}

lemma RecvInv.le_succ {S : List UInt8} (h : RecvInv S r read t) : t ≤ S.length + 1 := by
  cases hf : r.finReceived with
  | false => exact (h.le hf).trans (Nat.le_succ _)
  | true => exact (h.fin hf).le

lemma RecvInv.append {S : List UInt8} (h : RecvInv S r read t) {p : List UInt8}
    (hp : r.finReceived → p = []) : RecvInv (S ++ p) r read t := by
  cases hf : r.finReceived with
  | false =>
    have hle := h.le hf
    refine ⟨h.nxt, by rw [h.bytes, List.take_append_of_le_length hle], fun _ => ?_,
      fun hf' => absurd (hf.symm.trans hf') (by simp), fun _ i seg hseg => ?_⟩
    · rw [List.length_append]
      omega
    · obtain ⟨o, ho, hlt⟩ := h.ahead hf i seg hseg
      exact ⟨o, ⟨ho.seq, Stream.piece_append ho.data p, ho.near, ho.length_le⟩, hlt⟩
  | true =>
    rw [hp hf, List.append_nil]
    exact h

namespace Flow

variable {x y y' : Conn} {W read : List UInt8} {t t' : ℕ}

section

variable (h : Flow x y W read t)

include h

lemma of_receives {more : List UInt8}
    (hr : Receives W (read ++ more) y y' t t') (hfin : y'.rcv.finReceived → x.snd.finQueued) :
    Flow x y' W (read ++ more) t' := by
  refine ⟨h.short, hr.inv, hr.irs.trans h.irs, hfin, fun s hs => ?_, fun s hs hacks => ?_⟩
  · have hmono := (h.wire s hs).mono (fun _ => rfl) id hr.le
    rwa [List.append_nil] at hmono
  · rcases hr.emits.mem_out hs with hs | hs
    · obtain ⟨p, hp, hack⟩ := h.acks s hs hacks
      exact ⟨p, hp.trans hr.le, hack⟩
    · obtain ⟨p, -, hp, hack⟩ := hs.ack hacks
      exact ⟨p, hp, by rw [hack, h.irs]⟩

lemma fin_step {call : Call}
    (hseg : ∀ s, call.segment y = some s → s ∈ x.out) (hf : (y.step call).rcv.finReceived) :
    x.snd.finQueued := by
  rcases fin_of_step hf with hf | ⟨s, hs, hf⟩
  · exact h.fin hf
  · exact ((h.wire s (hseg s hs)).fin hf).1

/-- Whatever `y` is handed of what `x` has sent, the flow goes on. -/
theorem receive (hst : y.state.Settled) (call : Call)
    (hseg : ∀ s, call.segment y = some s → s ∈ x.out) :
    ∃ t', Receives W (read ++ call.bytesRead y) y (y.step call) t t' ∧
      Flow x (y.step call) W (read ++ call.bytesRead y) t' := by
  obtain ⟨t', hr⟩ := receives_step h.recv hst call fun s hs => by
    rw [h.irs]
    exact (h.wire s (hseg s hs)).carries_or_stale h.short h.recv.le_succ
  exact ⟨t', hr, h.of_receives hr (h.fin_step hseg)⟩

lemma receive_of_not_acks (hst : y.state.Settled) (call : Call)
    (hseg : ∀ s, call.segment y = some s → s ∈ x.out ∧ s.acks = false) :
    Flow x (y.step call) W (read ++ call.bytesRead y) t := by
  have hr := receives_step_of_not_acks h.recv hst call fun s hs => (hseg s hs).2
  exact h.of_receives hr (h.fin_step fun s hs => (hseg s hs).1)

end

end Flow

/-! ## The send half -/

/-- An end in `SYN_RECEIVED`: nothing but its SYN is in the sequence space. -/
structure Shaking (W : List UInt8) (x : Conn) : Prop where
  state : x.state = .synReceived
  out : SynOut W x.snd
  finQueued : x.snd.finQueued = false
  finSent : x.snd.finSent = false
  timewait : x.tmr.timewaitDeadline = 0

/-- An end that gave up in `SYN_RECEIVED`. Its SYN may still be acknowledged, but no timer will
make it send data. -/
structure Stillborn (x : Conn) : Prop where
  state : x.state = .closed
  rto : x.tmr.rtoDeadline = 0
  una : x.snd.una = x.snd.iss ∨ x.snd.una = x.snd.iss + 1
  nxt : x.snd.nxt = x.snd.iss + 1
  finQueued : x.snd.finQueued = false
  finSent : x.snd.finSent = false

def Unopened (W : List UInt8) (x : Conn) : Prop := Shaking W x ∨ Stillborn x

/-- The send half of `x`, whose peer has taken `t` places of its stream. -/
def Sender (W : List UInt8) (x : Conn) (t : ℕ) : Prop :=
  (x.state.Past ∧ ∃ u f, u ≤ t ∧ SendInv W x.snd u f) ∨ Unopened W x

structure SendStep (W : List UInt8) (t : ℕ) (x x' : Conn) : Prop where
  iss : x'.snd.iss = x.snd.iss
  queued : x.snd.finQueued → x'.snd.finQueued
  emits : Emits (Wire W x.snd.iss x'.snd.finQueued t) x x'
  sender : Sender W x' t

/-- What an end may be handed: no resets, and acknowledgements of no more than the peer has taken. -/
structure Handed (x : Conn) (t : ℕ) (s : Segment) : Prop where
  rst : s.rst = false
  ack : s.acks → ∃ p, p ≤ t ∧ s.ack = place (x.snd.iss + 1) p

variable {W : List UInt8} {x x' : Conn} {t u f : ℕ}

variable {p : ℕ} {call : Call} {w : ℕ}

lemma SendInv.le_of_una (h : SendInv W x.snd u f) (hW : W.length < 2 ^ 30) (hp : p ≤ t)
    (ht : t < 2 ^ 31) (hx : x.snd.una = place (x.snd.iss + 1) p) : u ≤ t := by
  have hu := h.le_succ
  have hup : u = p := place_inj (x.snd.iss + 1) (by omega) (by omega) (h.una.symm.trans hx)
  omega

lemma sendStep_aligned (h : SendInv W x.snd u f) (hut : u ≤ t) (hst : x.state.Past)
    (hcall : ∀ now, call ≠ .abort now) (hW : (W ++ call.bytesWritten x).length < 2 ^ 30)
    (ht : t < 2 ^ 31) (hseg : ∀ s, call.segment x = some s → Handed x t s)
    (hprobe : ∀ now, call = .tick now → x.probesAt now → x.inFlight = 0) :
    SendStep (W ++ call.bytesWritten x) t x (x.step call) := by
  have hstep := sends_step h hst call
  refine ⟨hstep.iss, hstep.queued, hstep.emits.mono fun s hs => ?_, .inl ⟨hstep.state.past hst, ?_⟩⟩
  · rcases hs with hs | hs | hs
    · exact .of_streamSegment hs
    · -- a probe: nothing is in flight, so it repeats a place that has been acknowledged
      cases call with
      | tick now =>
        obtain ⟨hdue, rfl⟩ := hs
        have hflight : f = 0 := by
          rw [← h.toNat_flight]
          exact congrArg UInt32.toNat (hprobe now rfl hdue)
        refine ⟨show hasFlag thAck thRst = false by decide, fun _ =>
          ⟨show hasFlag thAck thFin = false by decide, .inr ⟨u, ?_, ?_⟩⟩, fun hf => ?_⟩
        · change (x.idleView now).snd.nxt - 1 = _
          rw [(x.keepsSend_idleView now).snd, h.nxt, hflight, place_add_one_base,
            place_succ_sub_one]
        · change u + 1 ≤ t + 1
          omega
        · exact absurd hf (show ¬hasFlag thAck thFin by decide)
      | _ => exact hs.elim
    · cases call with
      | abort now => exact absurd rfl (hcall now)
      | _ => exact hs.elim
  · obtain ⟨u', f', h'⟩ := hstep.inv
    refine ⟨u', f', ?_, h'⟩
    rcases una_step (settled_of_past hst) call with hu | ⟨s, hs, hacks, hu⟩
    · exact h'.le_of_una hW hut ht (by rw [hu, h.una, hstep.iss])
    · obtain ⟨p, hp, hack⟩ := (hseg s hs).ack hacks
      exact h'.le_of_una hW hp ht (by rw [hu, hack, hstep.iss])

lemma Shaking.of_eq (h : Shaking W x) (hsnd : x'.snd = { x.snd with wnd := w })
    (hst : x'.state = x.state) (htw : x'.tmr.timewaitDeadline = x.tmr.timewaitDeadline) :
    Shaking W x' :=
  ⟨hst.trans h.state, by rw [hsnd]; exact ⟨h.out.una, h.out.nxt, h.out.bytes⟩,
    by rw [hsnd]; exact h.finQueued, by rw [hsnd]; exact h.finSent, htw.trans h.timewait⟩

lemma Stillborn.of_eq (h : Stillborn x) (hsnd : x'.snd = { x.snd with wnd := w })
    (hst : x'.state = x.state) (hrto : x'.tmr.rtoDeadline = x.tmr.rtoDeadline) : Stillborn x' :=
  ⟨hst.trans h.state, hrto.trans h.rto, by rw [hsnd]; exact h.una, by rw [hsnd]; exact h.nxt,
    by rw [hsnd]; exact h.finQueued, by rw [hsnd]; exact h.finSent⟩

lemma Unopened.of_eq (h : Unopened W x) (hsnd : x'.snd = { x.snd with wnd := w })
    (hst : x'.state = x.state) (hrto : x'.tmr.rtoDeadline = x.tmr.rtoDeadline)
    (htw : x'.tmr.timewaitDeadline = x.tmr.timewaitDeadline) : Unopened W x' :=
  h.imp (fun h => h.of_eq hsnd hst htw) fun h => h.of_eq hsnd hst hrto

lemma Unopened.not_synchronised (h : Unopened W x) : x.state.synchronised = false := by
  rcases h with h | h <;> rw [h.state] <;> rfl

lemma Unopened.settled (h : Unopened W x) : x.state.Settled := by
  rcases h with h | h <;> rw [h.state] <;> exact ⟨nofun, nofun⟩

/-- What an end that has not completed its handshake sends: bare acknowledgements and its SYN. -/
def Answer (iss : UInt32) (s : Segment) : Prop :=
  s.Bare ∨ (s.data = [] ∧ s.flags = thSyn ||| thAck ∧ s.seq = iss)

/-- A step of an end that does not complete its handshake. -/
structure Stays (W : List UInt8) (x x' : Conn) : Prop where
  iss : x'.snd.iss = x.snd.iss
  emits : Emits (Answer x.snd.iss) x x'
  unopened : Unopened W x'

lemma Stays.of_eq (hsnd : x'.snd = { x.snd with wnd := w })
    (hemit : Emits Segment.Bare x x') (h : Unopened W x') : Stays W x x' :=
  ⟨by rw [hsnd], hemit.mono fun _ hs => .inl hs, h⟩

lemma Unopened.finQueued (h : Unopened W x) : x.snd.finQueued = false := by
  rcases h with h | h <;> exact h.finQueued

lemma Unopened.sendStep {W' : List UInt8} (h : Unopened W x) (hs : Stays W' x x') :
    SendStep W' t x x' := by
  refine ⟨hs.iss, fun hq => absurd (h.finQueued.symm.trans hq) (by simp),
    hs.emits.mono fun s hs => ?_, .inr hs.unopened⟩
  rcases hs with hs | ⟨hd, hf, -⟩
  · exact .of_bare hs
  · exact .of_syn hd (.inr hf)

lemma handleAck_of_ahead (hnxt : x.snd.nxt = x.snd.iss + 1)
    (huna : x.snd.una = x.snd.iss ∨ x.snd.una = x.snd.iss + 1) (hp : 0 < p)
    (hp' : p < 2 ^ 31 - 1) (now : ℕ) :
    x.handleAck (place (x.snd.iss + 1) p) now = x := by
  have hnew : seqLe (place (x.snd.iss + 1) p) x.snd.una = false := by
    rcases huna with h | h <;> rw [h]
    · have hplace := seqLe_place x.snd.iss (m := p + 1) (n := 0) (by omega) (by omega)
      rw [place_zero] at hplace
      rw [place_add_one_base, hplace]
      simp
    · have hplace := seqLe_place (x.snd.iss + 1) (m := p) (n := 0) (by omega) (by omega)
      rw [place_zero] at hplace
      rw [hplace]
      simpa using hp.ne'
  have hahead : seqGt (place (x.snd.iss + 1) p) x.snd.nxt = true := by
    have hplace := seqGt_place (x.snd.iss + 1) (m := p) (n := 0) (by omega) (by omega)
    rw [place_zero] at hplace
    rw [hnxt, hplace]
    simpa using hp
  unfold handleAck
  rw [hnew, hahead]
  rfl

lemma inputOther_of_handleAck_eq {d : Conn} (hacks : s.acks)
    (hd : (x.ackView s now).handleAck s.ack now = d) (hsyn : d.synAcked = d)
    (hst : d.state.synchronised = false) (hfin : d.snd.finSent = false) :
    x.inputOther s now = d.inputSeq s now := by
  have hseq := inputSeq_of_not_synchronised d hst s now
  have hack : x.inputAck s now = d := by
    change ((x.ackView s now).handleAck s.ack now).synAcked = d
    rw [hd, hsyn]
  unfold inputOther
  rw [if_pos hacks, hack,
    finAcked_of_not_sent (by rw [(d.keepsSend_inputSeq s now).snd, hfin]),
    trySend_of_not_synchronised (by rw [hseq.1, hst])]

lemma sendStep_shaking_inputOther (h : Shaking W x) (hW : W.length < 2 ^ 30) (ht : t < 2 ^ 30 + 2)
    (hs : Handed x t s) (hacks : s.acks) (now : ℕ) :
    SendStep W t x (x.inputOther s now) := by
  obtain ⟨p, hp, hack⟩ := hs.ack hacks
  rcases Nat.eq_zero_or_pos p with rfl | hpos
  · -- it acknowledges our SYN
    rw [place_zero] at hack
    obtain ⟨hopen, hiss, hemit, u, f, hinv⟩ :=
      opens_inputOther h.out h.finSent h.state hacks hack now
    refine ⟨hiss, fun hq => absurd (h.finQueued.symm.trans hq) (by simp),
      hemit.mono fun _ hs => .of_streamSegment hs, .inl ⟨.inl hopen, u, f, ?_, hinv⟩⟩
    rcases x.inputOther_una s now with hu | ⟨-, hu⟩
    · -- `snd_una` has moved, as the alignment has started
      have hlt := hinv.le_succ
      rw [h.out.una, hinv.una, hiss, place_add_one_base] at hu
      have := place_inj x.snd.iss (m := u + 1) (n := 0) (by omega) (by omega)
        (by rw [hu, place_zero])
      omega
    · exact hinv.le_of_una hW hp (by omega) (by rw [hu, hack, hiss, place_zero])
  · have hvsnd := x.ackView_snd s now
    have hvout := synOut_ackView h.out s now
    have hd : (x.ackView s now).handleAck s.ack now = x.ackView s now := by
      have hiss : x.snd.iss = (x.ackView s now).snd.iss := by rw [hvsnd]
      rw [hack, hiss]
      exact handleAck_of_ahead hvout.nxt (.inl hvout.una) hpos (by omega) now
    have hvst := (x.ackView_state s now).trans h.state
    rw [inputOther_of_handleAck_eq hacks hd (synAcked_of_synOut hvout) (by rw [hvst]; rfl)
      (by rw [hvsnd]; exact h.finSent)]
    have hseq := (x.ackView s now).inputSeq_of_not_synchronised (by rw [hvst]; rfl) s now
    have hkeep := (x.ackView s now).keepsSend_inputSeq s now
    obtain ⟨d, hdel⟩ := Conn.OnlyDelack.trans (x.recvOnly_answerSyn s now).onlyDelack hseq.2
    exact Unopened.sendStep (.inl h) (.of_eq (hkeep.snd.trans hvsnd)
      ((x.emits_ackView s now).trans hkeep.emits)
      (.inl (h.of_eq (hkeep.snd.trans hvsnd) (hseq.1.trans (x.ackView_state s now))
        (by rw [hdel]))))

lemma stillborn_handleAck (h : Stillborn x) (hp : p < 2 ^ 31 - 1) (now : ℕ) :
    Stillborn (x.handleAck (place (x.snd.iss + 1) p) now) ∧
      (x.handleAck (place (x.snd.iss + 1) p) now).out = x.out ∧
      (x.handleAck (place (x.snd.iss + 1) p) now).snd.iss = x.snd.iss := by
  rcases Nat.eq_zero_or_pos p with rfl | hpos
  · rw [place_zero]
    unfold handleAck
    rcases h.una with huna | huna
    · -- the SYN is acknowledged: nothing is in flight any more
      rw [huna, seqLe_succ_self, h.nxt, seqGt_self]
      obtain ⟨cc, rtt, rto, heq, hoff, -⟩ := x.takeAck_eq (x.snd.iss + 1) now
      rw [heq]
      exact ⟨⟨h.state, hoff h.nxt.symm, .inr rfl, h.nxt, h.finQueued, h.finSent⟩, rfl, rfl⟩
    · have hidle : ¬(x.snd.iss + 1 = x.snd.una ∧ 0 < x.inFlight.toNat) := by
        rw [inFlight, huna, h.nxt]
        simp
      rw [if_neg hidle, huna, seqLe_self]
      exact ⟨h, rfl, rfl⟩
  · rw [handleAck_of_ahead h.nxt h.una hpos hp]
    exact ⟨h, rfl, rfl⟩

lemma sendStep_stillborn_inputOther (h : Stillborn x) (ht : t < 2 ^ 30 + 2) (hs : Handed x t s)
    (hacks : s.acks) (now : ℕ) : SendStep W t x (x.inputOther s now) := by
  obtain ⟨p, hp, hack⟩ := hs.ack hacks
  have hvsnd := x.ackView_snd s now
  obtain ⟨d, hdel⟩ := (x.recvOnly_answerSyn s now).onlyDelack
  have hview : Stillborn (x.ackView s now) :=
    h.of_eq hvsnd (x.ackView_state s now) (by
      change (x.answerSyn s now).tmr.rtoDeadline = _
      rw [hdel])
  have hiss : x.snd.iss = (x.ackView s now).snd.iss := by rw [hvsnd]
  obtain ⟨hstill, hout, hiss'⟩ := stillborn_handleAck hview (p := p) (by omega) now
  rw [← hiss, ← hack] at hstill hout hiss'
  have hst : ((x.ackView s now).handleAck s.ack now).state.synchronised = false := by
    rw [hstill.state]
    rfl
  rw [inputOther_of_handleAck_eq hacks rfl (synAcked_of_past (.inr hstill.state)) hst
    hstill.finSent]
  have hkeep := keepsSend_inputSeq ((x.ackView s now).handleAck s.ack now) s now
  obtain ⟨hsame, d', hd'⟩ :=
    inputSeq_of_not_synchronised ((x.ackView s now).handleAck s.ack now) hst s now
  have hend := hstill.of_eq hkeep.snd hsame (by rw [hd'])
  refine ⟨?_, fun hq => absurd (h.finQueued.symm.trans hq) (by simp), ?_, .inr (.inr hend)⟩
  · rw [hkeep.snd, hiss']
  · refine ((x.emits_ackView s now).mono fun _ hs => .of_bare hs).trans ?_
    exact Emits.trans (.of_out_eq hout) (hkeep.emits.mono fun _ hs => .of_bare hs)

lemma sendStep_unopened_inputOther (h : Unopened W x) (hW : W.length < 2 ^ 30)
    (ht : t < 2 ^ 30 + 2) (hs : Handed x t s) (hacks : s.acks) (now : ℕ) :
    SendStep W t x (x.inputOther s now) := by
  rcases h with h | h
  · exact sendStep_shaking_inputOther h hW ht hs hacks now
  · exact sendStep_stillborn_inputOther h ht hs hacks now

/-! ### Calls without an acknowledgement -/

lemma tcpTick_of_not_synchronised (hst : (x.idleView now).state.synchronised = false) :
    (x.tcpTick now).1 = ((x.idleView now).tickRto now).1 := by
  change ((x.idleView now).tickKeepalive now).1 = _
  unfold tickKeepalive
  rw [kaDue_of_not_synchronised hst, if_neg (by simp)]

lemma retransmit_of_synReceived (hst : x.state = .synReceived) (now : ℕ) :
    x.retransmit now = (x.backOff.sendSegment x.snd.iss (thSyn ||| thAck) [] now).armRto now := by
  have hsyn : x.backOff.resend now = x.backOff.sendSegment x.snd.iss (thSyn ||| thAck) [] now := by
    unfold resend
    rw [if_neg, if_pos]
    · rfl
    · exact hst
    · change x.state ≠ .synSent
      rw [hst]
      nofun
  rw [retransmit, hsyn]

lemma stays_shaking_tick (h : Shaking W x) (now : ℕ) : Stays W x (x.tcpTick now).1 := by
  have hview := x.keepsSend_idleView now
  have hidle : x.idleView now = (x.stamp now).tickDelack now := by
    rw [idleView, tickTimewait]
    rw [if_neg fun hc => hc.1 h.timewait]
  obtain ⟨d, hdel⟩ := ((x.stamp now).recvOnly_tickDelack now).onlyDelack
  have hvst : (x.idleView now).state = x.state := by
    rw [hidle, tickDelack]
    split <;> rfl
  have hnext : Shaking W (x.idleView now) :=
    h.of_eq hview.snd hvst (by
      rw [hidle, hdel]
      rfl)
  have hno : (x.idleView now).state.synchronised = false := by
    rw [hnext.state]
    rfl
  rw [tcpTick_of_not_synchronised hno]
  unfold tickRto
  split_ifs
  · refine .of_eq hview.snd hview.emits (.inr ?_)
    exact ⟨rfl, rfl, .inl hnext.out.una, hnext.out.nxt, hnext.finQueued, hnext.finSent⟩
  · have hagain := retransmit_of_synReceived hnext.state now
    rw [trySend_of_not_synchronised (by rw [hagain]; exact hno), hagain]
    have hsyn : Answer x.snd.iss ((x.idleView now).backOff.buildSegment (x.idleView now).snd.iss
        (thSyn ||| thAck) []) := .inr ⟨rfl, rfl, by rw [hview.snd]; rfl⟩
    refine ⟨by rw [← hview.snd]; rfl, (hview.emits.mono fun _ hs => .inl hs).trans
      (.of_out_append rfl hsyn), .inl (hnext.of_eq (w := x.snd.wnd) ?_ rfl rfl)⟩
    rw [hview.snd]
    exact hview.snd
  · rw [trySend_of_not_synchronised hno]
    exact .of_eq hview.snd hview.emits (.inl hnext)

lemma stays_stillborn_tick (h : Stillborn x) (now : ℕ) : Stays W x (x.tcpTick now).1 := by
  have hview := x.keepsSend_idleView now
  have hrto : (x.idleView now).tmr.rtoDeadline = 0 := by
    obtain ⟨d, hdel⟩ := (((x.stamp now).tickTimewait now).recvOnly_tickDelack now).onlyDelack
    rw [idleView, hdel, tickTimewait]
    split <;> exact h.rto
  have hvst : (x.idleView now).state = .closed := by
    rcases hview.state with hst | hst | ⟨hst, -⟩
    · exact hst.trans h.state
    · exact hst
    · rw [h.state] at hst
      cases hst
  have hno : (x.idleView now).state.synchronised = false := by
    rw [hvst]
    rfl
  have hnext : Stillborn (x.idleView now) :=
    h.of_eq hview.snd (hvst.trans h.state.symm) (hrto.trans h.rto.symm)
  have hoff : (x.idleView now).rtoDue now = false := by
    rw [rtoDue, hrto]
    rfl
  rw [tcpTick_of_not_synchronised hno]
  unfold tickRto
  rw [hoff, trySend_of_not_synchronised hno]
  exact .of_eq hview.snd hview.emits (.inr hnext)

lemma stays_write (h : Unopened W x) (buf : List UInt8) (now : ℕ) :
    Stays (W ++ Call.bytesWritten x (.write buf now)) x (x.tcpWrite buf now).1 := by
  have hsame : Stays W x (x.stamp now) := .of_eq rfl (.of_out_eq rfl) (h.of_eq rfl rfl rfl rfl)
  unfold Call.bytesWritten tcpWrite
  dsimp only
  split_ifs
  · simpa using hsame
  · simpa using hsame
  rw [trySend_of_not_synchronised (c := (x.stamp now).sndPush _ _) h.not_synchronised]
  refine ⟨rfl, .of_out_eq rfl, ?_⟩
  rcases h with h | h
  · refine .inl ⟨h.state, ⟨h.out.una, h.out.nxt, ?_⟩, h.finQueued, h.finSent, h.timewait⟩
    rw [← h.out.bytes]
    exact x.snd.buf.toList_push (x.snd.buf.length_take_space buf)
  · exact .inr ⟨h.state, h.rto, h.una, h.nxt, h.finQueued, h.finSent⟩

lemma tcpShutdownWrite_of_not_synchronised (hst : x.state.synchronised = false) (now : ℕ) :
    (x.tcpShutdownWrite now).1 = x := by
  have hclosed : x.state ≠ .established ∧ x.state ≠ .closeWait := by
    constructor <;> intro hc <;> rw [hc] at hst <;> cases hst
  unfold tcpShutdownWrite
  split <;> rfl

abbrev inputView (x : Conn) (now : ℕ) : Conn := (x.stamp now).noteSegment now

lemma Unopened.inputView (h : Unopened W x) (now : ℕ) : Unopened W (inputView x now) :=
  h.of_eq rfl rfl rfl rfl

lemma tcpInput_cases (hst : x.state.Settled) {pkt : List UInt8} (iss : UInt32) (now : ℕ)
    (hrst : ∀ s, parse x pkt = .segment s → s.rst = false) :
    (∃ stats, x.tcpInput pkt iss now = { x.stamp now with stats }) ∨
      ∃ s, parse x pkt = .segment s ∧
        x.tcpInput pkt iss now = (Tcp.inputView x now).inputOther s now := by
  unfold tcpInput
  dsimp only
  split
  · exact .inl ⟨x.stats, rfl⟩
  · exact .inl ⟨_, rfl⟩
  · next s hs =>
    exact .inr ⟨s, hs, inputSegment_of_settled (c := x.stamp now) hst (hrst s hs) iss now⟩

lemma stays_step (h : Unopened W x) (hcall : ∀ now, call ≠ .abort now)
    (hseg : ∀ s, call.segment x = some s → s.rst = false ∧ s.acks = false) :
    Stays (W ++ call.bytesWritten x) x (x.step call) := by
  have hnil : ∀ x', Stays W x x' → Stays (W ++ []) x x' := fun x' h' => by
    rwa [List.append_nil]
  have hsame : ∀ x' : Conn, x'.snd = x.snd → x'.state = x.state → x'.out = x.out →
      x'.tmr.rtoDeadline = x.tmr.rtoDeadline →
      x'.tmr.timewaitDeadline = x.tmr.timewaitDeadline → Stays (W ++ []) x x' :=
    fun x' hsnd hst hout hrto htw => hnil _ (.of_eq hsnd (.of_out_eq hout)
      (h.of_eq hsnd hst hrto htw))
  cases call with
  | input pkt iss now =>
    have hs : ∀ s, parse x pkt = .segment s → s.rst = false ∧ s.acks = false := fun s hs =>
      hseg s (by rw [Call.segment, hs])
    change Stays (W ++ []) x (x.tcpInput pkt iss now)
    rcases tcpInput_cases h.settled iss now fun s hp => (hs s hp).1 with
      ⟨stats, heq⟩ | ⟨s, hp, heq⟩
    · rw [heq]
      exact hsame _ rfl rfl rfl rfl rfl
    · rw [heq, inputOther, (hs s hp).2]
      exact hsame _ rfl rfl rfl rfl rfl
  | tick now =>
    rcases h with h | h
    · exact hnil _ (stays_shaking_tick h now)
    · exact hnil _ (stays_stillborn_tick h now)
  | write buf now => exact stays_write h buf now
  | read cap =>
    have hread := x.recvOnly_tcpRead cap
    obtain ⟨d, hdel⟩ := hread.onlyDelack
    have hnext : Unopened W (x.tcpRead cap).1 :=
      h.of_eq hread.keepsSend.snd hread.state (by rw [hdel]) (by rw [hdel])
    exact hnil _ (.of_eq hread.keepsSend.snd hread.keepsSend.emits hnext)
  | shutdownWrite now =>
    change Stays _ x (x.tcpShutdownWrite now).1
    rw [tcpShutdownWrite_of_not_synchronised h.not_synchronised]
    exact hsame _ rfl rfl rfl rfl rfl
  | abort now => exact absurd rfl (hcall now)

lemma sendStep_unopened (h : Unopened W x) (hcall : ∀ now, call ≠ .abort now)
    (hW : W.length < 2 ^ 30) (ht : t < 2 ^ 30 + 2)
    (hseg : ∀ s, call.segment x = some s → Handed x t s) :
    SendStep (W ++ call.bytesWritten x) t x (x.step call) := by
  by_cases hacks : ∃ s, call.segment x = some s ∧ s.acks
  · obtain ⟨s, hs, hacks⟩ := hacks
    cases call with
    | input pkt iss now =>
      have hp : parse x pkt = .segment s := by
        rw [Call.segment] at hs
        split at hs
        · next s' hp => rw [hp, Option.some.inj hs]
        · cases hs
      have hhand := hseg s hs
      change SendStep (W ++ []) t x (x.tcpInput pkt iss now)
      rw [List.append_nil]
      rcases tcpInput_cases h.settled iss now fun s' hp' => by
        cases hp.symm.trans hp'
        exact hhand.rst with ⟨stats, heq⟩ | ⟨s', hp', heq⟩
      · rw [heq]
        exact h.sendStep (.of_eq rfl (.of_out_eq rfl) (h.of_eq rfl rfl rfl rfl))
      · cases hp.symm.trans hp'
        rw [heq]
        have hstep := sendStep_unopened_inputOther (h.inputView now) hW ht
          ⟨hhand.rst, hhand.ack⟩ hacks now
        exact ⟨hstep.iss, hstep.queued, hstep.emits, hstep.sender⟩
    | _ => cases hs
  · refine h.sendStep (stays_step h hcall fun s hs => ⟨(hseg s hs).rst, ?_⟩)
    rw [← Bool.not_eq_true]
    exact fun hc => hacks ⟨s, hs, hc⟩

lemma sendStep_step (h : Sender W x t) (hcall : ∀ now, call ≠ .abort now)
    (hW : (W ++ call.bytesWritten x).length < 2 ^ 30) (ht : t < 2 ^ 30 + 2)
    (hseg : ∀ s, call.segment x = some s → Handed x t s)
    (hprobe : ∀ now, call = .tick now → x.probesAt now → x.inFlight = 0) :
    SendStep (W ++ call.bytesWritten x) t x (x.step call) := by
  rcases h with ⟨hst, u, f, hu, hinv⟩ | h
  · exact sendStep_aligned hinv hu hst hcall hW (by omega) hseg hprobe
  · rw [List.length_append] at hW
    exact sendStep_unopened h hcall (by omega) ht hseg

/-- Whatever `x` is handed of what `y` has sent, the flow goes on. -/
theorem Flow.send {y : Conn} (h : Flow x y W read t) (hx : Sender W x t)
    (hcall : ∀ now, call ≠ .abort now) (hW : (W ++ call.bytesWritten x).length < 2 ^ 30)
    (hseg : ∀ s, call.segment x = some s → s.rst = false ∧ s ∈ y.out)
    (hprobe : ∀ now, call = .tick now → x.probesAt now → x.inFlight = 0) :
    Flow (x.step call) y (W ++ call.bytesWritten x) read t ∧
      Sender (W ++ call.bytesWritten x) (x.step call) t := by
  have ht := h.recv.le_succ
  have hshort := h.short
  have hstep := sendStep_step hx hcall hW (by omega)
    (fun s hs => ⟨(hseg s hs).1, h.acks s (hseg s hs).2⟩) hprobe
  have hno : x.snd.finQueued → call.bytesWritten x = [] := fun hq =>
    Conn.SendWatch.bytesWritten_of_finQueued hq call
  refine ⟨⟨hW, h.recv.append fun hf => hno (h.fin hf), h.irs.trans hstep.iss.symm,
    fun hf => hstep.queued (h.fin hf), fun s hs => ?_, ?_⟩, hstep.sender⟩
  · rw [hstep.iss]
    rcases hstep.emits.mem_out hs with hs | hs
    · exact (h.wire s hs).mono hno hstep.queued (le_refl t)
    · exact hs
  · rw [hstep.iss]
    exact h.acks

end Tcp
