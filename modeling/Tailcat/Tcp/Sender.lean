import Tailcat.Library.Stream
import Tailcat.Tcp.Frame

/-!
# Sender fidelity

`SendInv W s u f` is the alignment of the send half with the stream `W` its owner has written:
`snd_una` stands `u` places after the first byte and `snd_nxt` another `f`, the ring starts with byte
`u` of `W`, and a FIN that has gone out stands right after the last byte.

## Main results

* `sends_handleAck`: any acknowledgement at all keeps the alignment;
* `sends_step`: what each call sends on a connection past its handshake.
-/

namespace Tcp

open SerialNumber List

/-! ## The alignment -/

/-- The send half is aligned with the stream `W`: `u` places have been acknowledged after the SYN
and `f` more are in flight. -/
structure SendInv (W : List UInt8) (s : Send) (u f : ℕ) : Prop where
  una : s.una = place (s.iss + 1) u
  nxt : s.nxt = place (s.iss + 1) (u + f)
  bytes : s.buf.toList = W.drop u
  le : s.finSent = false → u + f ≤ W.length
  fin : s.finSent = true → u + f = W.length + 1 ∧ s.finQueued = true

variable {p : List UInt8} {iss : UInt32} {closing : Bool}

namespace SendInv

variable {W : List UInt8} {s : Send} {u f : ℕ}

section

variable (h : SendInv W s u f) {n : ℕ}

include h

lemma len : s.buf.len = W.length - u := by
  rw [← RingBuffer.length_toList, h.bytes, length_drop]

lemma le_succ : u + f ≤ W.length + 1 := by
  cases hf : s.finSent with
  | false => exact (h.le hf).trans (Nat.le_succ _)
  | true => exact (h.fin hf).1.le

lemma flight_le : f ≤ s.buf.len + 1 := by
  have := h.le_succ
  have := h.len
  omega

lemma flight_lt : f < 2 ^ 17 := by
  have hcap : s.buf.len ≤ 65536 := s.buf.len_le
  have := h.flight_le
  omega

lemma toNat_flight : (s.nxt - s.una).toNat = f := by
  have := h.flight_lt
  rw [h.nxt, h.una, toNat_place_sub _ (by omega) (by omega)]
  omega

lemma piece_una (hn : n ≤ s.buf.len) : s.buf.peek 0 n <+: W.drop u := by
  rw [RingBuffer.peek_zero _ hn, h.bytes]
  exact take_prefix _ _

lemma piece_nxt (hn : f + n ≤ s.buf.len) : s.buf.peek f n <+: W.drop (u + f) := by
  rw [RingBuffer.peek_eq _ hn, h.bytes, drop_drop]
  exact take_prefix _ _

lemma push (hf : s.finSent = false) (hp : p.length ≤ s.buf.space) :
    SendInv (W ++ p) { s with buf := s.buf.push p hp } u f := by
  have hle := h.le hf
  refine ⟨h.una, h.nxt, ?_, fun _ => ?_, fun hf' => absurd (hf.symm.trans hf') (by simp)⟩
  · rw [RingBuffer.toList_push, h.bytes, drop_append_of_le_length (by omega)]
  · rw [length_append]
    omega

end

end SendInv

/-- A segment of the stream `W`: its payload is the piece that its sequence number says, a piece
recent enough that the number determines the offset, and a FIN stands right after the last byte of
a stream that is `closing`. It is no keepalive probe. -/
structure StreamSegment (W : List UInt8) (iss : UInt32) (closing : Bool) (s : Segment) : Prop where
  notProbe : s.isProbe = false
  rst : s.rst = false
  data : s.data ≠ [] →
    ∃ o, s.seq = place (iss + 1) o ∧ s.data <+: W.drop o ∧ W.length ≤ o + sndBufLen
  fin : s.fin → closing ∧ s.data = [] ∧ s.seq = place (iss + 1) W.length

lemma StreamSegment.mono {W : List UInt8} {closing' : Bool} {s : Segment}
    (h : StreamSegment W iss closing s) (hc : closing → closing') :
    StreamSegment W iss closing' s :=
  ⟨h.notProbe, h.rst, h.data, fun hf => ⟨hc (h.fin hf).1, (h.fin hf).2⟩⟩

lemma Segment.Bare.streamSegment {s : Segment} (h : s.Bare) (W : List UInt8) (iss : UInt32)
    (closing : Bool) : StreamSegment W iss closing s := by
  refine ⟨?_, h.rst, fun hd => absurd h.data hd, fun hf => absurd (h.fin.symm.trans hf) (by simp)⟩
  rw [Segment.isProbe, h.data]
  simp

/-- The state is past the handshake, or `CLOSED`. -/
def State.Past (st : State) : Prop := st.synchronised ∨ st = .closed

lemma StateStep.past {st st' : State} (h : StateStep st st') (hp : st.Past) : st'.Past := by
  rcases h with rfl | rfl | ⟨-, hs⟩
  · exact hp
  · exact .inr rfl
  · exact .inl hs

/-- From `c` to `c'` the send half has stayed aligned with `W`, and what was sent is the stream. -/
structure Sends (W : List UInt8) (c c' : Conn) : Prop where
  iss : c'.snd.iss = c.snd.iss
  queued : c.snd.finQueued → c'.snd.finQueued
  state : StateStep c.state c'.state
  emits : Emits (StreamSegment W c.snd.iss c'.snd.finQueued) c c'
  inv : ∃ u f, SendInv W c'.snd u f

namespace Sends

variable {W : List UInt8} {c c' c'' : Conn} {u f : ℕ}

lemma of_keepsSend (h : KeepsSend c c') (hinv : SendInv W c.snd u f) : Sends W c c' :=
  ⟨by rw [h.snd], by rw [h.snd]; exact id, h.state,
    h.emits.mono fun _ hs => hs.streamSegment W _ _, u, f, by rwa [h.snd]⟩

lemma refl (hinv : SendInv W c.snd u f) : Sends W c c := of_keepsSend (.refl c) hinv

lemma of_eq (hi : c'.snd.iss = c.snd.iss) (hq : c.snd.finQueued → c'.snd.finQueued)
    (hst : c'.state = c.state) (ho : c'.out = c.out) (hinv : SendInv W c'.snd u f) :
    Sends W c c' :=
  ⟨hi, hq, .inl hst, .of_out_eq ho, u, f, hinv⟩

lemma trans (h : Sends W c c') (h' : Sends W c' c'') : Sends W c c'' :=
  ⟨h'.iss.trans h.iss, h'.queued ∘ h.queued, h.state.trans h'.state,
    (h.emits.mono fun _ hs => hs.mono h'.queued).trans (h.iss ▸ h'.emits), h'.inv⟩

end Sends

namespace Conn

variable {W : List UInt8} {c : Conn} {u f d now : ℕ}

/-! ## Transmission -/

lemma sendable_le (c : Conn) : c.sendable ≤ c.snd.buf.len - c.inFlight.toNat := by
  unfold sendable
  dsimp only
  split_ifs <;> omega

lemma streamSegment_data {o : ℕ} (closing : Bool) (hp : p <+: W.drop o)
    (ho : W.length ≤ o + sndBufLen) :
    StreamSegment W iss closing (c.buildSegment (place (iss + 1) o) (thAck ||| thPsh) p) :=
  ⟨rfl, show hasFlag (thAck ||| thPsh) thRst = false by decide, fun _ => ⟨o, rfl, hp, ho⟩,
    fun hf => absurd hf (show ¬hasFlag (thAck ||| thPsh) thFin by decide)⟩

lemma streamSegment_fin (iss : UInt32) (hc : closing) :
    StreamSegment W iss closing
      (c.buildSegment (place (iss + 1) W.length) (thAck ||| thFin) []) :=
  ⟨rfl, show hasFlag (thAck ||| thFin) thRst = false by decide, fun hd => absurd rfl hd,
    fun _ => ⟨hc, rfl, rfl⟩⟩

section

variable (h : SendInv W c.snd u f)

include h

lemma sendInv_sendData (hn : c.sendable ≠ 0) (now : ℕ) :
    SendInv W (c.sendData c.sendable now).snd u (f + c.sendable) := by
  have hle := c.sendable_le
  rw [inFlight, h.toNat_flight] at hle
  have hlen := h.len
  rw [sendData_snd]
  refine ⟨h.una, ?_, h.bytes, fun _ => by omega, fun hf => ?_⟩
  · rw [h.nxt, place_add_ofNat, Nat.add_assoc]
  · have := (h.fin hf).1
    omega

lemma sends_sendData (hn : c.sendable ≠ 0) (now : ℕ) : Sends W c (c.sendData c.sendable now) := by
  have hle := c.sendable_le
  have hcap : c.snd.buf.len ≤ 65536 := c.snd.buf.len_le
  have hlen := h.len
  refine ⟨by rw [sendData_snd], by rw [sendData_snd]; exact id, by rw [sendData_state]; exact .refl _,
    .of_out_append (c.sendData_out _ now) ?_, _, _, sendInv_sendData h hn now⟩
  rw [inFlight, h.toNat_flight] at hle ⊢
  rw [h.nxt]
  refine streamSegment_data _ (h.piece_nxt (by omega)) ?_
  rw [sndBufLen]
  omega

lemma sends_sendFin (hdue : c.finDue) (now : ℕ) : Sends W c (c.sendFin now) := by
  have hcond := hdue
  simp only [finDue, Bool.and_eq_true, Bool.not_eq_true', beq_iff_eq] at hcond
  obtain ⟨⟨hqueued, hsent⟩, hall⟩ := hcond
  rw [inFlight, h.toNat_flight] at hall
  -- everything written has been sent
  have hend : u + f = W.length := by
    have := h.le hsent
    have := h.len
    omega
  refine ⟨by rw [sendFin_snd c hdue], by rw [sendFin_snd c hdue]; exact id, ?_,
    .of_out_append (c.sendFin_out hdue now) ?_, u, f + 1, ?_⟩
  · rw [sendFin_state c hdue]
    cases c.state <;>
      first | exact .inl rfl | exact .inr (.inr ⟨rfl, rfl⟩)
  · rw [h.nxt, hend, sendFin_snd c hdue]
    exact streamSegment_fin _ hqueued
  · rw [sendFin_snd c hdue]
    refine ⟨h.una, ?_, h.bytes, by simp, fun _ => ⟨by omega, hqueued⟩⟩
    rw [h.nxt, place_add_one, Nat.add_assoc]

lemma sends_trySend (now : ℕ) : Sends W c (c.trySend now) := by
  refine trySend_rule (fun d _ hn hsends => ?_) (fun d _ hdue hsends => ?_) (.refl h)
  · obtain ⟨u', f', h'⟩ := hsends.inv
    exact hsends.trans (sends_sendData h' hn now)
  · obtain ⟨u', f', h'⟩ := hsends.inv
    exact hsends.trans (sends_sendFin h' hdue now)

end

/-! ## Acknowledgements -/

lemma streamSegment_first (h : SendInv W c.snd u f) (closing : Bool) :
    StreamSegment W c.snd.iss closing
      (c.buildSegment c.snd.una (thAck ||| thPsh) (c.snd.buf.peek 0 (min c.snd.buf.len mss))) := by
  have hcap : c.snd.buf.len ≤ 65536 := c.snd.buf.len_le
  have hlen := h.len
  rw [h.una]
  refine streamSegment_data _ (h.piece_una (Nat.min_le_left _ _)) ?_
  rw [sndBufLen]
  omega

lemma eq_place_of_new_ack {una nxt ack : UInt32} {f : ℕ} (hnxt : nxt = place una f)
    (hf : f < 2 ^ 31) (hnew : seqLe ack una = false) (hsent : seqGt ack nxt = false) :
    ∃ d, 0 < d ∧ d ≤ f ∧ ack = place una d := by
  rw [seqLe_eq_false] at hnew
  have hack : ack = place una (ack - una).toNat := eq_place _ _
  refine ⟨_, hnew.1, ?_, hack⟩
  rw [hack, hnxt, seqGt_place _ (by omega) (by omega)] at hsent
  simpa using hsent

lemma drop_dataAcked (h : SendInv W c.snd u f) (hst : c.state.Past) (hd : 0 < d) (hdf : d ≤ f) :
    (c.snd.buf.drop (c.dataAcked (place (c.snd.iss + 1) (u + d)))).toList = W.drop (u + d) := by
  have hflight := h.flight_lt
  have hlen := h.len
  have hack : (place (c.snd.iss + 1) (u + d) - c.snd.una).toNat = d := by
    rw [h.una, toNat_place_sub _ (by omega) (by omega)]
    omega
  have hge : seqGe (place (c.snd.iss + 1) (u + d)) c.snd.nxt = decide (f ≤ d) := by
    rw [h.nxt, seqGe_place _ (by omega) (by omega)]
    simp
  have hshake : ¬(c.state = .synSent ∨ c.state = .synReceived) := by
    rintro (hc | hc) <;> rw [hc] at hst <;> rcases hst with hst | hst <;> cases hst
  rw [RingBuffer.toList_drop, h.bytes, drop_drop]
  unfold dataAcked
  dsimp only
  rw [hack, if_neg hshake, hge]
  cases hfin : c.snd.finSent with
  | false =>
    have := h.le hfin
    rw [if_neg (by simp), Nat.min_eq_left (by omega)]
  | true =>
    have hend := (h.fin hfin).1
    rcases Nat.lt_or_ge d f with hlt | hge'
    · rw [if_neg (by simpa using hlt), Nat.min_eq_left (by omega)]
    -- the FIN is acknowledged: the ring is empty afterwards
    rw [if_pos (by simpa using hge'), drop_eq_nil_of_le (by omega), drop_eq_nil_of_le (by omega)]

lemma sendInv_freeAcked (h : SendInv W c.snd u f) (hst : c.state.Past) (hd : 0 < d) (hdf : d ≤ f) :
    SendInv W (c.freeAcked (place (c.snd.iss + 1) (u + d))).snd (u + d) (f - d) := by
  have hend : u + d + (f - d) = u + f := by omega
  exact ⟨rfl, by rw [hend]; exact h.nxt, drop_dataAcked h hst hd hdf,
    fun hf => by rw [hend]; exact h.le hf, fun hf => by rw [hend]; exact h.fin hf⟩

/-- Any acknowledgement at all keeps the alignment. -/
theorem sends_handleAck (h : SendInv W c.snd u f) (hst : c.state.Past) (ack : UInt32) (now : ℕ) :
    Sends W c (c.handleAck ack now) := by
  refine c.handleAck_elim ack now ?_ ?_
  · rintro _ _ _ _ (hout | hout)
    · exact .of_eq rfl id rfl hout h
    · exact ⟨rfl, id, .refl _, .of_out_append hout (streamSegment_first h _), u, f, h⟩
  · intro _ _ _ hold hunsent _ _
    have hflight := h.flight_lt
    obtain ⟨d, hd, hdf, rfl⟩ := eq_place_of_new_ack
      (by rw [h.nxt, h.una, place_place]) (by omega) hold hunsent
    rw [h.una, place_place]
    exact .of_eq rfl id rfl rfl (sendInv_freeAcked h hst hd hdf)

lemma synAcked_of_past (hst : c.state.Past) : c.synAcked = c := by
  unfold synAcked
  split
  · next hc =>
    rw [hc.1] at hst
    rcases hst with hst | hst <;> cases hst
  · rfl

lemma sends_inputAck (h : SendInv W c.snd u f) (hst : c.state.Past) (s : Segment) (now : ℕ) :
    Sends W c (c.inputAck s now) := by
  have hsyn := Sends.of_keepsSend (c.recvOnly_answerSyn s now).keepsSend h
  obtain ⟨u1, f1, h1⟩ := hsyn.inv
  have hwnd : Sends W (c.answerSyn s now) ((c.answerSyn s now).noteWindow s) :=
    .of_eq rfl id rfl rfl ⟨h1.una, h1.nxt, h1.bytes, h1.le, h1.fin⟩
  obtain ⟨u2, f2, h2⟩ := hwnd.inv
  have hack := sends_handleAck h2 (hwnd.state.past (hsyn.state.past hst)) s.ack now
  have hall := (hsyn.trans hwnd).trans hack
  rw [inputAck, synAcked_of_past (hall.state.past hst)]
  exact hall

lemma sends_inputRest (h : SendInv W c.snd u f) (s : Segment) (now : ℕ) :
    Sends W c (((c.inputSeq s now).finAcked now).trySend now) := by
  have hkeep := (c.keepsSend_inputSeq s now).trans (keepsSend_finAcked _ now)
  have hrecv := Sends.of_keepsSend hkeep h
  obtain ⟨u', f', h'⟩ := hrecv.inv
  exact hrecv.trans (sends_trySend h' now)

lemma sends_inputOther (h : SendInv W c.snd u f) (hst : c.state.Past) (s : Segment) (now : ℕ) :
    Sends W c (c.inputOther s now) := by
  unfold inputOther
  split
  · have hack := sends_inputAck h hst s now
    obtain ⟨u', f', h'⟩ := hack.inv
    exact hack.trans (sends_inputRest h' s now)
  · exact .refl h

lemma settled_of_past {st : State} (h : st.Past) : st.Settled := by
  rcases h with h | rfl
  · constructor <;> rintro rfl <;> cases h
  · exact ⟨nofun, nofun⟩

lemma sends_inputSegment (h : SendInv W c.snd u f) (hst : c.state.Past) (s : Segment)
    (iss : UInt32) (now : ℕ) : Sends W c (c.inputSegment s iss now) := by
  have hnote : KeepsSend c (c.noteSegment now) := .of_eq rfl rfl rfl
  cases hrst : s.rst with
  | true =>
    refine .of_keepsSend ?_ h
    unfold inputSegment
    rw [if_pos hrst]
    exact hnote.trans (keepsSend_inputRst _ s)
  | false =>
    rw [inputSegment_of_settled (settled_of_past hst) hrst]
    exact (Sends.of_keepsSend hnote h).trans (sends_inputOther (c := c.noteSegment now) h hst s now)

lemma sends_tcpInput (h : SendInv W c.snd u f) (hst : c.state.Past) (pkt : List UInt8)
    (iss : UInt32) (now : ℕ) : Sends W c (c.tcpInput pkt iss now) := by
  have hstamp : KeepsSend c (c.stamp now) := .of_eq rfl rfl rfl
  unfold tcpInput
  dsimp only
  split
  · exact .of_keepsSend hstamp h
  · exact .of_keepsSend (.of_eq rfl rfl rfl) h
  · exact (Sends.of_keepsSend hstamp h).trans
      (sends_inputSegment (c := c.stamp now) h hst _ iss now)

/-! ## Timers -/

lemma sends_resend (h : SendInv W c.snd u f) (hst : c.state.Past) (now : ℕ) :
    Sends W c (c.resend now) := by
  unfold resend
  split_ifs with hsent hrcvd hdata hfin
  · rw [hsent] at hst
    rcases hst with hst | hst <;> cases hst
  · rw [hrcvd] at hst
    rcases hst with hst | hst <;> cases hst
  · exact ⟨rfl, id, .refl _, .of_out_append rfl (streamSegment_first h _), u, f, h⟩
  · refine ⟨rfl, id, .refl _, .of_out_append rfl ?_, u, f, h⟩
    rw [h.nxt, (h.fin hfin).1, place_succ_sub_one]
    exact streamSegment_fin _ (h.fin hfin).2
  · exact .refl h

lemma sends_tickRto (h : SendInv W c.snd u f) (hst : c.state.Past) (now : ℕ) :
    Sends W c (c.tickRto now).1 := by
  unfold tickRto
  split_ifs
  · exact ⟨rfl, id, .inr (.inl rfl), .of_out_eq rfl, u, f, h⟩
  · have hback : Sends W c c.backOff := .of_eq rfl id rfl rfl h
    have hsend := sends_resend (c := c.backOff) h hst now
    obtain ⟨u', f', h'⟩ := hsend.inv
    have harm : Sends W (c.backOff.resend now) (c.retransmit now) := .of_eq rfl id rfl rfl h'
    exact (hback.trans (hsend.trans harm)).trans (sends_trySend (c := c.retransmit now) h' now)
  · exact sends_trySend h now

def idleView (c : Conn) (now : ℕ) : Conn := ((c.stamp now).tickTimewait now).tickDelack now

lemma idleView_eq_stamp {c : Conn} (htw : c.tmr.timewaitDeadline = 0)
    (hdelack : c.tmr.delackDeadline = 0) (now : ℕ) : c.idleView now = c.stamp now := by
  have hfirst : (c.stamp now).tickTimewait now = c.stamp now := if_neg fun hdue => hdue.1 htw
  have hsecond : (c.stamp now).tickDelack now = c.stamp now := if_neg fun hdue => hdue.1 hdelack
  rw [idleView, hfirst, hsecond]

lemma rtoDue_stamp {c : Conn} (hrto : c.tmr.rtoDeadline = 0) (now : ℕ) :
    (c.stamp now).rtoDue now = false := by
  rw [rtoDue, show (c.stamp now).tmr.rtoDeadline = 0 from hrto]
  rfl

def probesAt (c : Conn) (now : ℕ) : Bool :=
  (c.idleView now).kaDue now && decide ((c.idleView now).tmr.kaUnacked < keepaliveProbes)

def probe (c : Conn) (now : ℕ) : Segment :=
  (c.idleView now).buildSegment ((c.idleView now).snd.nxt - 1) thAck [0]

lemma keepsSend_idleView (c : Conn) (now : ℕ) : KeepsSend c (c.idleView now) := by
  have hstamp : KeepsSend c (c.stamp now) := .of_eq rfl rfl rfl
  exact hstamp.trans ((keepsSend_tickTimewait _ now).trans (recvOnly_tickDelack _ now).keepsSend)

lemma sends_tcpTick (h : SendInv W c.snd u f) (hst : c.state.Past)
    (hprobe : c.probesAt now = false) : Sends W c (c.tcpTick now).1 := by
  have hview := Sends.of_keepsSend (c.keepsSend_idleView now) h
  obtain ⟨u', f', h'⟩ := hview.inv
  change Sends W c ((c.idleView now).tickKeepalive now).1
  refine hview.trans ?_
  unfold tickKeepalive
  split_ifs with hdue hmany
  · exact ⟨rfl, id, .inr (.inl rfl), .of_out_eq rfl, u', f', h'⟩
  · rw [probesAt, hdue] at hprobe
    simp at hprobe
    exact absurd hprobe hmany
  · exact sends_tickRto h' (hview.state.past hst) now

lemma tcpTick_of_probesAt (hprobe : c.probesAt now) :
    (c.tcpTick now).1 = (((c.idleView now).sendProbe now).tickRto now).1 := by
  simp only [probesAt, Bool.and_eq_true, decide_eq_true_eq] at hprobe
  change ((c.idleView now).tickKeepalive now).1 = _
  unfold tickKeepalive
  rw [if_pos hprobe.1, if_neg (by omega)]

/-! ## Calls -/

/-- The bytes a call accepts from its caller. -/
def Call.bytesWritten (c : Conn) : Call → List UInt8
  | .write buf now => buf.take (c.tcpWrite buf now).2.2
  | _ => []

/-- The call sends the segment as a keepalive probe. -/
def Call.Probes (c : Conn) (s : Segment) : Call → Prop
  | .tick now => c.probesAt now ∧ s = c.probe now
  | _ => False

/-- The call sends the segment to reset the connection. -/
def Call.Resets (c : Conn) (s : Segment) : Call → Prop
  | .abort _ => s = c.buildSegment c.snd.nxt (thRst ||| thAck) []
  | _ => False

/-- What a call has sent: segments of the stream `W`, which it leaves the send half aligned with,
a keepalive probe if it is a tick that sends one, and a reset if it aborts. -/
structure StepSends (W : List UInt8) (call : Call) (c c' : Conn) : Prop where
  iss : c'.snd.iss = c.snd.iss
  queued : c.snd.finQueued → c'.snd.finQueued
  state : StateStep c.state c'.state
  emits : Emits (fun s => StreamSegment W c.snd.iss c'.snd.finQueued s ∨ call.Probes c s ∨
    call.Resets c s) c c'
  inv : ∃ u f, SendInv W c'.snd u f

lemma stepSends_of_sends {c' : Conn} (call : Call) (h : Sends W c c') : StepSends W call c c' :=
  ⟨h.iss, h.queued, h.state, h.emits.mono fun _ hs => .inl hs, h.inv⟩

section

variable (h : SendInv W c.snd u f)

include h

lemma stepSends_tick (hst : c.state.Past) (now : ℕ) :
    StepSends W (.tick now) c (c.tcpTick now).1 := by
  cases hprobe : c.probesAt now with
  | false => exact stepSends_of_sends _ (sends_tcpTick h hst hprobe)
  | true =>
    rw [tcpTick_of_probesAt hprobe]
    have hview := Sends.of_keepsSend (c.keepsSend_idleView now) h
    obtain ⟨u', f', h'⟩ := hview.inv
    have hrto := sends_tickRto (c := (c.idleView now).sendProbe now) h' (hview.state.past hst) now
    refine ⟨hrto.iss.trans hview.iss, hrto.queued ∘ hview.queued, hview.state.trans hrto.state, ?_,
      hrto.inv⟩
    refine (hview.emits.mono fun s hs => .inl (hs.mono hrto.queued)).trans ?_
    refine Emits.trans
      (.of_out_append rfl (.inr (.inl ⟨hprobe, rfl⟩))) (hrto.emits.mono fun s hs => .inl ?_)
    rw [← hview.iss]
    exact hs

lemma stepSends_abort (now : ℕ) : StepSends W (.abort now) c (c.tcpAbort now) := by
  unfold tcpAbort
  split
  · exact stepSends_of_sends _ (.refl h)
  · exact ⟨rfl, id, .inr (.inl rfl), .of_out_append rfl (.inr (.inr rfl)), u, f, h⟩

lemma sends_tcpWrite (buf : List UInt8) (now : ℕ) :
    Sends (W ++ Call.bytesWritten c (.write buf now)) c (c.tcpWrite buf now).1 := by
  have hnow : Sends W c (c.stamp now) := .of_eq rfl id rfl rfl h
  unfold Call.bytesWritten tcpWrite
  dsimp only
  split_ifs with hq hst
  · simpa using hnow
  · simpa using hnow
  -- no FIN is out yet, as none is queued
  have hsent : c.snd.finSent = false := by
    rw [← Bool.not_eq_true]
    exact fun hf => hq (h.fin hf).2
  have hpush := h.push hsent (c.snd.buf.length_take_space buf)
  have hsend : Sends _ c ((c.stamp now).sndPush _ (c.snd.buf.length_take_space buf)) :=
    .of_eq rfl id rfl rfl hpush
  exact hsend.trans (sends_trySend hpush now)

lemma sends_tcpShutdownWrite (now : ℕ) : Sends W c (c.tcpShutdownWrite now).1 := by
  unfold tcpShutdownWrite
  split_ifs
  · exact .refl h
  · exact .refl h
  · have hqueue : SendInv W c.queueFin.snd u f :=
      ⟨h.una, h.nxt, h.bytes, h.le, fun hf => ⟨(h.fin hf).1, rfl⟩⟩
    have hq : Sends W c c.queueFin := .of_eq rfl (fun _ => rfl) rfl rfl hqueue
    exact hq.trans (sends_trySend hqueue now)

/-- What each call sends on a connection past its handshake. -/
theorem sends_step (hst : c.state.Past) (call : Call) :
    StepSends (W ++ call.bytesWritten c) call c (c.step call) := by
  have hnil : ∀ c', StepSends W call c c' → StepSends (W ++ []) call c c' := fun c' h' => by
    rwa [append_nil]
  cases call with
  | input pkt iss now => exact hnil _ (stepSends_of_sends _ (sends_tcpInput h hst pkt iss now))
  | tick now => exact hnil _ (stepSends_tick h hst now)
  | write buf now => exact stepSends_of_sends _ (sends_tcpWrite h buf now)
  | read cap => exact hnil _ (stepSends_of_sends _ (.of_keepsSend (c.recvOnly_tcpRead cap).keepsSend h))
  | shutdownWrite now => exact hnil _ (stepSends_of_sends _ (sends_tcpShutdownWrite h now))
  | abort now => exact hnil _ (stepSends_abort h now)

end

end Conn

end Tcp
