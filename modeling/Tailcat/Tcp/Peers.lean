import Tailcat.Tcp.Actions
import Tailcat.Tcp.Receiver

/-!
# Peers

What two connections that talk to each other know of each other: each sends with its own ports
(`Linked`), and a connection counts a FIN only if its peer has sent one, after which the peer is in one
of the closing states (`FinInv`).

## Main results

* `Acquainted.step`: two connections that exchange packets go on doing so.
-/

namespace Tcp

open Conn (Call Action Trigger Moves)

variable {c c' c'' x peer : Conn} {now : ℕ} {call : Call} {s : Segment}

/-! ## Ports -/

/-- A segment with the ports of an end, small enough for a packet. -/
structure Posted (a : Addr) (s : Segment) : Prop where
  sport : s.sport = a.localPort
  dport : s.dport = a.remotePort
  length_le : s.data.length ≤ mss

def OwnMail (c : Conn) : Prop := ∀ s ∈ c.out, Posted c.addr s

lemma OwnMail.of_emits (h : OwnMail c) (ha : c'.addr = c.addr)
    (hemit : Emits (Posted c.addr) c c') : OwnMail c' := by
  intro s hs
  rw [ha]
  exact (hemit.mem_out hs).elim (h s) id

/-- From `c` to `c'` the connection has kept its ports and sent with them, and it does not go back
to the states of the handshake. -/
structure Mails (c c' : Conn) : Prop where
  addr : c'.addr = c.addr
  state : c.state ≠ .listen → c'.state ≠ .listen
  settled : c.state.Settled → c'.state.Settled
  emits : Emits (Posted c.addr) c c'

namespace Mails

lemma refl (c : Conn) : Mails c c := ⟨rfl, id, id, .refl c⟩

lemma trans (h : Mails c c') (h' : Mails c' c'') : Mails c c'' :=
  ⟨h'.addr.trans h.addr, h'.state ∘ h.state, h'.settled ∘ h.settled,
    h.emits.trans (by rw [← h.addr]; exact h'.emits)⟩

lemma of_eq (ha : c'.addr = c.addr) (hst : c'.state = c.state) (ho : c'.out = c.out) :
    Mails c c' :=
  ⟨ha, by rw [hst]; exact id, by rw [hst]; exact id, .of_out_eq ho⟩

lemma of_state (ha : c'.addr = c.addr) (hst : c'.state.Settled) (ho : c'.out = c.out) :
    Mails c c' :=
  ⟨ha, fun _ => hst.1, fun _ => hst, .of_out_eq ho⟩

lemma of_keepsRecv (h : KeepsRecv c c') (hst : c.state ≠ .listen → c'.state ≠ .listen) :
    Mails c c' :=
  ⟨h.addr, hst, h.settled, h.emits.mono fun _ hs => ⟨hs.sport, hs.dport, hs.length_le⟩⟩

lemma ownMail (h : Mails c c') (hm : OwnMail c) : OwnMail c' := hm.of_emits h.addr h.emits

end Mails

/-- Every action keeps the ports. -/
theorem Conn.Action.mails (h : Action now c c') : Mails c c' := by
  have hcount : Mails c (c.countFin.sendAck now) :=
    ⟨rfl, id, id, .of_out_append rfl ⟨rfl, rfl, Nat.zero_le _⟩⟩
  cases h.effect with
  | sendAck => exact .of_keepsRecv (c.keepsRecv_sendAck now) id
  | handleAck ack =>
    exact .of_keepsRecv (c.keepsRecv_handleAck ack now) (by rw [c.handleAck_state]; exact id)
  | countFin => exact hcount
  | closeWait | closing | timeWait => exact hcount.trans (.of_state rfl ⟨nofun, nofun⟩ rfl)
  | opened | finWait2 | lastWait | closed => exact .of_state rfl ⟨nofun, nofun⟩ rfl
  | sendData =>
    refine ⟨rfl, id, id, .of_out_append rfl ⟨rfl, rfl, ?_⟩⟩
    exact (RingBuffer.length_peek _ _ _).le.trans c.sendable_le_mss
  | sendFin _ _ _ hst =>
    have hfin : (Conn.finState c.state).Settled := by
      cases hc : c.state <;> rw [hc] at hst <;>
        first | exact absurd hst (by decide) | exact ⟨nofun, nofun⟩
    exact ⟨rfl, fun _ => hfin.1, fun _ => hfin, .of_out_append rfl ⟨rfl, rfl, Nat.zero_le _⟩⟩
  | _ => exact .of_eq rfl rfl rfl

/-- So does what a call starts with, unless the connection listens. -/
theorem Conn.Trigger.mails (h : Trigger now c c') (hst : c.state ≠ .listen) : Mails c c' := by
  cases h with
  | rst | timewait | giveUpIdle | giveUpRto => exact .of_state rfl ⟨nofun, nofun⟩ rfl
  | listen s iss hl => exact absurd hl hst
  | refuse ack => exact ⟨rfl, id, id, .of_out_append rfl ⟨rfl, rfl, Nat.zero_le _⟩⟩
  | answer s =>
    have hmail : Mails (c.synchronise s) ((c.synchronise s).handleAck s.ack now) :=
      .of_keepsRecv (Conn.keepsRecv_handleAck _ s.ack now) (by rw [Conn.handleAck_state]; exact id)
    exact ⟨hmail.addr, fun _ => nofun, fun _ => ⟨nofun, nofun⟩, hmail.emits⟩
  | probe => exact .of_keepsRecv (c.keepsRecv_sendProbe now) id
  | retransmit =>
    exact .of_keepsRecv (c.keepsRecv_retransmit now) (by rw [(c.retransmit_frame now).2]; exact id)
  | abort =>
    exact ⟨rfl, fun _ => nofun, fun _ => ⟨nofun, nofun⟩,
      .of_out_append rfl ⟨rfl, rfl, Nat.zero_le _⟩⟩
  | _ => exact .of_eq rfl rfl rfl

lemma Conn.Moves.mails (h : Moves now c c') (hst : c.state ≠ .listen) : Mails c c' := by
  induction h with
  | refl => exact .refl c
  | tail _ hstep ih =>
    exact ih.trans (hstep.elim (fun h => h.mails) fun h => h.mails (ih.state hst))

/-- A call on a connection that does not listen. -/
theorem mails_step (hst : c.state ≠ .listen) (call : Call) : Mails c (c.step call) :=
  (c.moves_step call).mails hst

/-! ## The FIN -/

/-- The states after our FIN has gone out. -/
def State.finOut : State → Bool
  | .finWait1 | .finWait2 | .closing | .timeWait | .lastAck | .closed => true
  | _ => false

/-- A FIN is on the wire only if it counts as sent, and then the connection is closing. -/
structure FinInv (c : Conn) : Prop where
  fins : ∀ s ∈ c.out, s.fin → c.snd.finSent
  state : c.snd.finSent → c.state.finOut

namespace FinInv

lemma of_emits (h : FinInv c) (hsent : c'.snd.finSent = c.snd.finSent)
    (hst : c.state.finOut → c'.state.finOut)
    (hemit : Emits (fun s => s.fin → c.snd.finSent) c c') : FinInv c' := by
  refine ⟨fun s hs hf => ?_, fun hf => hst (h.state (hsent ▸ hf))⟩
  rw [hsent]
  exact (hemit.mem_out hs).elim (fun hs => h.fins s hs hf) fun hs => hs hf

lemma of_eq (h : FinInv c) (hsent : c'.snd.finSent = c.snd.finSent)
    (hst : c.state.finOut → c'.state.finOut) (ho : c'.out = c.out) : FinInv c' :=
  h.of_emits hsent hst (.of_out_eq ho)

lemma of_send (h : FinInv c) (hsent : c'.snd.finSent = c.snd.finSent)
    (hst : c.state.finOut → c'.state.finOut) {d : Conn} {seq : UInt32} {flags : UInt8}
    {p : List UInt8} (ho : c'.out = c.out ++ [d.buildSegment seq flags p])
    (hf : hasFlag flags thFin = false) : FinInv c' :=
  h.of_emits hsent hst (.of_out_append ho fun hf' => absurd (hf.symm.trans hf') (by simp))

lemma handleAck (h : FinInv c) (ack : UInt32) (now : ℕ) : FinInv (c.handleAck ack now) := by
  refine c.handleAck_elim ack now ?_ ?_
  · rintro _ _ _ _ (hout | hout)
    · exact h.of_eq rfl id hout
    · exact h.of_send rfl id hout (by decide)
  · intros
    exact h.of_eq rfl id rfl

lemma action (hact : Action now c c') (h : FinInv c) : FinInv c' := by
  have hcount : FinInv (c.countFin.sendAck now) := h.of_send rfl id rfl (by decide)
  cases hact.effect with
  | sendAck => exact h.of_send rfl id rfl (by decide)
  | handleAck ack => exact h.handleAck ack now
  | opened hst => exact h.of_eq rfl (fun hf => by rw [hst] at hf; cases hf) rfl
  | countFin => exact hcount
  | closeWait _ hst =>
    exact hcount.of_eq rfl (fun hf : c.state.finOut => by rw [hst] at hf; cases hf) rfl
  | closing | timeWait => exact hcount.of_eq rfl (fun _ => rfl) rfl
  | finWait2 | lastWait | closed => exact h.of_eq rfl (fun _ => rfl) rfl
  | sendData => exact h.of_send rfl id rfl (by decide)
  | sendFin _ _ _ hst =>
    refine ⟨fun _ _ _ => rfl, fun _ => ?_⟩
    change (Conn.finState c.state).finOut = true
    cases hc : c.state <;> rw [hc] at hst <;> first | rfl | cases hst
  | _ => exact h.of_eq rfl id rfl

lemma trigger (htrig : Trigger now c c') (h : FinInv c) : FinInv c' := by
  cases htrig with
  | rst | timewait | giveUpIdle | giveUpRto => exact h.of_eq rfl (fun _ => rfl) rfl
  | listen s iss hst =>
    exact h.of_send rfl (fun hf => by rw [hst] at hf; cases hf) rfl (by decide)
  | refuse | probe => exact h.of_send rfl id rfl (by decide)
  | answer s hst =>
    have hsyn : FinInv (c.synchronise s) := h.of_eq rfl id rfl
    refine (hsyn.handleAck s.ack now).of_eq rfl (fun hf => ?_) rfl
    rw [Conn.handleAck_state] at hf
    change c.state.finOut at hf
    rw [hst] at hf
    cases hf
  | retransmit =>
    obtain ⟨rtt, stats, out, heq, hout⟩ := c.backOff.resend_eq now
    rw [Conn.retransmit, heq]
    refine h.of_emits rfl id ?_
    rcases hout with hout | ⟨seq, flags, p, hout, -, hf⟩
    · exact .of_out_eq hout
    · exact .of_out_append hout hf
  | abort => exact h.of_send rfl (fun _ => rfl) rfl (by decide)
  | _ => exact h.of_eq rfl id rfl

/-- A call sends a FIN only on the way into the closing states. -/
theorem step (h : FinInv c) (call : Call) : FinInv (c.step call) :=
  (c.moves_step call).invariant action trigger h

end FinInv

/-! ## The peer's FIN -/

namespace Conn

variable {c : Conn} {s : Segment} {now : ℕ}

lemma acceptPayload_finReceived (c : Conn) (s : Segment) (now : ℕ) :
    (c.acceptPayload s now).rcv.finReceived = c.rcv.finReceived := by
  unfold acceptPayload
  split_ifs
  · rw [(keepsRecv_delayAck _ now).rcv, takeInOrder_finReceived]
  · obtain ⟨ooo, stats, h⟩ := c.oooInsert_eq s.seq s.data
    rw [h]
    rfl
  · rfl
  · rfl

lemma fin_of_inputSeq (h : (c.inputSeq s now).rcv.finReceived) : c.rcv.finReceived ∨ s.fin := by
  have hpay : ((c.acceptPayload s now).answerProbe s now).rcv.finReceived = c.rcv.finReceived := by
    rw [(keepsRecv_answerProbe _ s now).rcv, acceptPayload_finReceived]
  unfold inputSeq acceptFin at h
  split at h
  · next hfin =>
    simp only [Bool.and_eq_true] at hfin
    exact .inr hfin.1.1
  · exact .inl (hpay.symm.trans h)

lemma fin_of_inputOther (h : (c.inputOther s now).rcv.finReceived) : c.rcv.finReceived ∨ s.fin := by
  unfold inputOther at h
  split at h
  · rw [(keepsRecv_trySend _ now).rcv, (keepsRecv_finAcked _ now).rcv] at h
    have hfin := fin_of_inputSeq h
    rwa [(keepsRecv_inputAck _ s now).rcv] at hfin
  · exact .inl h

lemma inputListen_finReceived (c : Conn) (s : Segment) (iss : UInt32) (now : ℕ) :
    (c.inputListen s iss now).rcv.finReceived = c.rcv.finReceived := by
  unfold inputListen
  split <;> rfl

lemma inputSynSent_finReceived (c : Conn) (s : Segment) (now : ℕ) :
    (c.inputSynSent s now).rcv.finReceived = c.rcv.finReceived := by
  unfold inputSynSent
  split_ifs
  · rfl
  · rw [(keepsRecv_trySend _ now).rcv]
    rw [(keepsRecv_handleAck _ _ now).rcv]
    rfl
  · rfl

lemma fin_of_inputSegment {iss : UInt32} (h : (c.inputSegment s iss now).rcv.finReceived) :
    c.rcv.finReceived ∨ s.fin := by
  unfold inputSegment at h
  dsimp only at h
  split at h
  · rw [(keepsRecv_inputRst _ s).rcv] at h
    exact .inl h
  split at h
  · rw [inputListen_finReceived] at h
    exact .inl h
  · rw [inputSynSent_finReceived] at h
    exact .inl h
  · exact fin_of_inputOther (c := c.noteSegment now) h

lemma fin_of_step (h : (c.step call).rcv.finReceived) :
    c.rcv.finReceived ∨ ∃ s, call.segment c = some s ∧ s.fin := by
  cases call with
  | input pkt iss now =>
    have hparse : parse (c.stamp now) pkt = parse c pkt := rfl
    rw [Call.segment]
    change (c.tcpInput pkt iss now).rcv.finReceived = true at h
    unfold tcpInput at h
    dsimp only at h
    rw [hparse] at h
    split at h
    · exact .inl h
    · exact .inl h
    · next s hseg =>
      rw [hseg]
      exact (fin_of_inputSegment h).imp id fun hf => ⟨s, rfl, hf⟩
  | read cap =>
    refine .inl ?_
    change (c.tcpRead cap).1.rcv.finReceived = true at h
    unfold tcpRead at h
    dsimp only at h
    split at h <;> exact h
  | tick now => exact .inl ((c.keepsRecv_tcpTick now).rcv ▸ h)
  | write buf now => exact .inl ((c.keepsRecv_tcpWrite buf now).rcv ▸ h)
  | shutdownWrite now => exact .inl ((c.keepsRecv_tcpShutdownWrite now).rcv ▸ h)
  | abort now => exact .inl ((c.keepsRecv_tcpAbort now).rcv ▸ h)

end Conn

/-! ## Two connections -/

/-- The packets of `peer` pass the checks of `x`. -/
structure Linked (x peer : Conn) : Prop where
  remoteIp : x.addr.remoteIp = peer.addr.localIp
  localIp : x.addr.localIp = peer.addr.remoteIp
  localPort : x.addr.localPort = peer.addr.remotePort
  remotePort : x.state = .listen ∨ x.addr.remotePort = peer.addr.localPort
  mail : OwnMail peer

lemma Linked.addressedTo (h : Linked x peer) (hs : s ∈ peer.out) :
    AddressedTo x peer.addr.localIp peer.addr.remoteIp s := by
  have hpost := h.mail s hs
  exact ⟨h.remoteIp, h.localIp, hpost.dport.trans h.localPort.symm,
    h.remotePort.imp id fun hp => hpost.sport.trans hp.symm⟩

lemma Linked.length_le (h : Linked x peer) (hs : s ∈ peer.out) : s.data.length ≤ 65515 :=
  (h.mail s hs).length_le.trans (by decide)

lemma Linked.of_addr {x' peer' : Conn} (h : Linked x peer) (hx : x'.addr = x.addr)
    (hp : peer'.addr = peer.addr) (hst : x.state = .listen → x'.state = .listen)
    (hm : OwnMail peer') : Linked x' peer' :=
  ⟨by rw [hx, hp]; exact h.remoteIp, by rw [hx, hp]; exact h.localIp,
    by rw [hx, hp]; exact h.localPort, by rw [hx, hp]; exact h.remotePort.imp hst id, hm⟩

/-- Two connections that exchange packets, neither of which listens. -/
structure Acquainted (x y : Conn) : Prop where
  linked : Linked x y
  linked' : Linked y x
  state : x.state ≠ .listen
  state' : y.state ≠ .listen
  fin : FinInv x
  fin' : FinInv y
  heard : x.rcv.finReceived → ∃ s ∈ y.out, s.fin
  heard' : y.rcv.finReceived → ∃ s ∈ x.out, s.fin

namespace Acquainted

variable {x y : Conn}

lemma symm (h : Acquainted x y) : Acquainted y x :=
  ⟨h.linked', h.linked, h.state', h.state, h.fin', h.fin, h.heard', h.heard⟩

/-- Whatever one of them does with what the other has sent, they stay so. -/
theorem step (h : Acquainted x y) (hseg : ∀ s, call.segment x = some s → s ∈ y.out) :
    Acquainted (x.step call) y := by
  have hmail := mails_step h.state call
  refine ⟨h.linked.of_addr hmail.addr rfl (fun hst => absurd hst h.state) h.linked.mail,
    h.linked'.of_addr rfl hmail.addr id (hmail.ownMail h.linked'.mail), hmail.state h.state,
    h.state', h.fin.step call, h.fin', fun hf => ?_, fun hf => ?_⟩
  · rcases Conn.fin_of_step hf with hf | ⟨s, hs, hf⟩
    · exact h.heard hf
    · exact ⟨s, hseg s hs, hf⟩
  · obtain ⟨s, hs, hf⟩ := h.heard' hf
    obtain ⟨l, hl, -⟩ := hmail.emits
    exact ⟨s, by rw [hl]; exact List.mem_append_left l hs, hf⟩

lemma not_heard (h : Acquainted x y) (hf : x.state.finOut = false) : y.rcv.finReceived = false := by
  rw [← Bool.not_eq_true]
  intro hr
  obtain ⟨s, hs, hfin⟩ := h.heard' hr
  exact absurd (hf.symm.trans (h.fin.state (h.fin.fins s hs hfin))) (by simp)

end Acquainted

end Tcp
