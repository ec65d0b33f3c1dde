import Tailcat.Tcp.Closed

/-!
# The send space

What bounds the send half of a connection, whatever segments arrive. The retransmission timer runs
exactly while something is in flight, since every timeout that is computed is positive (`RoomInv`).

## Main results

* `send_space`: the bounds of the send space in every state of every run.
-/

namespace Tcp

open SerialNumber Conn

variable {c c' : Conn} {now : ℕ}

/-! ## Congestion window and timeout -/

/-- The congestion window lies between one segment and the buffer size, and the slow-start
threshold is at least two segments. -/
structure Congestion.Bounded (cc : Congestion) : Prop where
  cwnd_ge : mss ≤ cc.cwnd
  cwnd_le : cc.cwnd ≤ sndBufLen
  ssthresh_ge : 2 * mss ≤ cc.ssthresh

/-- No timeout is zero, the congestion window is bounded, and the timer runs if something is in
flight. -/
structure RoomInv (c : Conn) : Prop where
  rto : 0 < c.rtt.rto
  cc : c.cc.Bounded
  armed : c.state ≠ .closed → c.inFlight ≠ 0 → c.tmr.rtoDeadline ≠ 0

lemma updateRto_pos (r : Rtt) (sample : ℤ) : 0 < (updateRto r sample).rto := by
  unfold updateRto rtoMin rtoMax
  dsimp only
  split_ifs <;> omega

lemma armRto_ne_zero (h : 0 < c.rtt.rto) (now : ℕ) : (c.armRto now).tmr.rtoDeadline ≠ 0 := by
  have hpos := currentRto_pos h
  change now + c.currentRto ≠ 0
  omega

lemma lossThresh_le (h : c.FlightFits) : c.lossThresh + 3 * mss ≤ sndBufLen := by
  have hlen : c.snd.buf.len ≤ 65536 := c.snd.buf.len_le
  unfold lossThresh mss sndBufLen
  omega

lemma bounded_fastRetransmit (h : c.FlightFits) (now : ℕ) : (c.fastRetransmit now).cc.Bounded := by
  have heq : (c.fastRetransmit now).cc =
      { c.cc with ssthresh := c.lossThresh, cwnd := c.lossThresh + 3 * mss } := by
    unfold fastRetransmit
    dsimp only
    split <;> rfl
  have hge : 2 * mss ≤ c.lossThresh := le_max_right _ _
  rw [heq]
  exact ⟨by dsimp only; omega, lossThresh_le h, hge⟩

lemma bounded_growCwnd (h : c.cc.Bounded) : c.growCwnd.cc.Bounded := by
  have hge := h.cwnd_ge
  refine ⟨le_min (hge.trans ?_) (by decide), min_le_right _ _, h.ssthresh_ge⟩
  split_ifs <;> exact Nat.le_add_right _ _

lemma sampleRtt_eq (c : Conn) (ack : UInt32) (now : ℕ) :
    ∃ rtt, c.sampleRtt ack now = { c with rtt } ∧ (0 < c.rtt.rto → 0 < rtt.rto) := by
  unfold sampleRtt
  split
  · refine ⟨_, rfl, fun hpos => ?_⟩
    split
    · exact updateRto_pos _ _
    · exact hpos
  · exact ⟨c.rtt, rfl, id⟩

namespace RoomInv

lemma of_same (h : RoomInv c) (hrto : c'.rtt.rto = c.rtt.rto) (hcc : c'.cc = c.cc)
    (hst : c.state = .closed → c'.state = .closed) (hfl : c'.inFlight = c.inFlight)
    (htmr : c'.tmr.rtoDeadline = c.tmr.rtoDeadline) : RoomInv c' where
  rto := hrto ▸ h.rto
  cc := hcc ▸ h.cc
  armed hopen hne := by
    rw [htmr]
    exact h.armed (fun hcl => hopen (hst hcl)) (hfl ▸ hne)

lemma of_closed (h : RoomInv c) (hrto : c'.rtt.rto = c.rtt.rto) (hcc : c'.cc = c.cc)
    (hst : c'.state = .closed) : RoomInv c' :=
  ⟨hrto ▸ h.rto, hcc ▸ h.cc, fun hopen => absurd hst hopen⟩

lemma sendSegment (h : RoomInv c) (seq : UInt32) (flags : UInt8) (p : List UInt8) (now : ℕ) :
    RoomInv (c.sendSegment seq flags p now) :=
  h.of_same (c.sendSegment_rto seq flags p now) rfl id rfl rfl

lemma sendAck (h : RoomInv c) (now : ℕ) : RoomInv (c.sendAck now) :=
  h.of_same (c.sendSegment_rto c.snd.nxt thAck [] now) rfl id rfl rfl

lemma takeAck (h : RoomInv c) (ack : UInt32) (now : ℕ) : RoomInv (c.takeAck ack now) := by
  obtain ⟨rtt, heq, hpos⟩ := sampleRtt_eq (c.freeAcked ack) ack now
  have hrto : 0 < rtt.rto := hpos h.rto
  unfold Conn.takeAck
  rw [heq]
  unfold rearmRto
  dsimp only
  split
  · next hz =>
    refine ⟨hrto, bounded_growCwnd ⟨h.cc.1, h.cc.2, h.cc.3⟩, fun _ hne => ?_⟩
    exact absurd hz hne
  · refine ⟨hrto, bounded_growCwnd ⟨h.cc.1, h.cc.2, h.cc.3⟩, fun _ _ => ?_⟩
    exact armRto_ne_zero hrto now

lemma fastRetransmit_eq (c : Conn) (now : ℕ) : ∃ cc rtt stats out,
    c.fastRetransmit now = { c with cc, rtt, stats, out } ∧ rtt.rto = c.rtt.rto := by
  unfold fastRetransmit
  dsimp only
  split
  · exact ⟨_, _, _, _, rfl, sendSegment_rto _ _ _ _ _⟩
  · exact ⟨_, _, _, _, rfl, rfl⟩

lemma handleAck (h : RoomInv c) (hfl : c.FlightFits) (ack : UInt32)
    (now : ℕ) : RoomInv (c.handleAck ack now) := by
  have hdup : RoomInv c.noteDupack := ⟨h.rto, ⟨h.cc.1, h.cc.2, h.cc.3⟩, h.armed⟩
  unfold Conn.handleAck
  split_ifs
  · obtain ⟨cc, rtt, stats, out, heq, hrto⟩ := fastRetransmit_eq c.noteDupack now
    have hcc := bounded_fastRetransmit (c := c.noteDupack) hfl now
    rw [heq] at hcc ⊢
    exact ⟨hrto.symm ▸ h.rto, hcc, h.armed⟩
  · exact hdup
  · exact h
  · exact h
  · exact h.takeAck ack now

lemma action (hact : Action now c c') (hfl : c.FlightFits) (h : RoomInv c) : RoomInv c' := by
  have hcount : RoomInv (c.countFin.sendAck now) :=
    h.of_same (c.countFin.sendSegment_rto c.countFin.snd.nxt thAck [] now) rfl id rfl rfl
  cases hact.effect with
  | sendAck => exact h.sendAck now
  | handleAck ack => exact h.handleAck hfl ack now
  | opened hst | finWait2 _ hst | lastWait _ hst =>
    exact h.of_same rfl rfl (fun hcl => by simp [hcl] at hst) rfl rfl
  | countFin => exact hcount
  | closeWait _ hst | closing _ hst | timeWait _ hst =>
    exact hcount.of_same rfl rfl (fun hcl : c.state = .closed => by simp [hcl] at hst) rfl rfl
  | closed => exact h.of_closed rfl rfl rfl
  | sendData _ _ _ _ _ hrto hd | sendFin _ _ _ _ _ hrto hd =>
    exact ⟨hrto.symm ▸ h.rto, h.cc, fun _ _ => (hd.2 h.rto).1⟩
  | _ => exact h.of_same rfl rfl id rfl rfl

lemma retransmit (h : RoomInv c) (now : ℕ) : RoomInv (c.retransmit now) := by
  have hback : RoomInv c.backOff := by
    have hseg : mss ≤ sndBufLen := by decide
    exact ⟨h.rto, ⟨le_rfl, hseg, le_max_right _ _⟩, h.armed⟩
  have hresend : RoomInv (c.backOff.resend now) := by
    unfold resend
    split_ifs
    · exact hback.sendSegment _ _ _ now
    · exact hback.sendSegment _ _ _ now
    · exact hback.sendSegment _ _ _ now
    · exact hback.sendSegment _ _ _ now
    · exact hback
  exact ⟨hresend.rto, hresend.cc, fun _ _ => armRto_ne_zero hresend.rto now⟩

lemma trigger (htrig : Trigger now c c') (hfl : c.FlightFits) (h : RoomInv c) : RoomInv c' := by
  cases htrig with
  | rst | timewait | giveUpIdle | giveUpRto => exact h.of_closed rfl rfl rfl
  | listen s iss hst =>
    have hsyn := sendSegment_rto
      (startSend (synchronise { c with addr := { c.addr with remotePort := s.sport } } s)
        iss .synReceived) iss (thSyn ||| thAck) [] now
    have hpos : 0 < _ := hsyn.symm ▸ h.rto
    exact ⟨hpos, h.cc, fun _ _ => armRto_ne_zero hpos now⟩
  | refuse ack => exact h.sendSegment _ _ _ now
  | answer s hst =>
    have hsync : RoomInv (c.synchronise s) := h.of_same rfl rfl id rfl rfl
    refine (hsync.handleAck hfl s.ack now).of_same rfl rfl (fun hcl => ?_) rfl rfl
    rw [handleAck_state, show (c.synchronise s).state = .synSent from hst] at hcl
    cases hcl
  | probe => exact h.of_same (c.sendSegment_rto (c.snd.nxt - 1) thAck [0] now) rfl id rfl rfl
  | retransmit hdue => exact h.retransmit now
  | abort => exact h.of_closed (c.sendSegment_rto c.snd.nxt (thRst ||| thAck) [] now) rfl rfl
  | _ => exact h.of_same rfl rfl id rfl rfl

lemma of_opened (h : Opened c) : RoomInv c := by
  have hcc : Congestion.Bounded { cwnd := 2 * mss, ssthresh := 64 * 1024, dupacks := 0 } :=
    ⟨by decide, by decide, by decide⟩
  have hrto : 0 < rtoInitial := by decide
  cases h with
  | connect localIp remoteIp sndMem rcvMem localPort remotePort iss now =>
    refine ⟨hrto, hcc, fun _ _ => ?_⟩
    refine armRto_ne_zero ?_ now
    exact hrto
  | listen =>
    refine ⟨hrto, hcc, fun _ hne => ?_⟩
    exact absurd (show (0 - 0 : UInt32) = 0 by decide) hne

end RoomInv

lemma timers_moves (h : TimerInv c ∧ RoomInv c) (hm : Moves now c c') :
    TimerInv c' ∧ RoomInv c' :=
  hm.invariant (P := fun c => TimerInv c ∧ RoomInv c)
    (fun hact h => ⟨h.1.action hact, h.2.action hact h.1.flight⟩)
    (fun htrig h => ⟨h.1.trigger htrig, h.2.trigger htrig h.1.flight⟩) h

lemma timers_step (h : TimerInv c ∧ RoomInv c) (call : Call) :
    TimerInv (c.step call) ∧ RoomInv (c.step call) :=
  timers_moves h (c.moves_step call)

/-! ## The bounds of the send space -/

namespace Conn.SendWatch

/-- Our SYN or our FIN is out and has not been acknowledged: what is in flight before the handshake
has completed is the SYN, and the FIN is the last that is sent. -/
def pending (w : SendWatch) : Bool :=
  (!w.opened || w.conn.snd.finSent) && w.conn.snd.una != w.conn.snd.nxt

end Conn.SendWatch

/-- The send space of a connection: the buffer, what is in flight, the retransmission timer and the
congestion window. -/
structure SendSpace (w : SendWatch) : Prop where
  capacity : w.conn.snd.buf.len ≤ sndBufLen
  flight : w.conn.inFlight.toNat ≤ w.conn.snd.buf.len + w.pending.toNat
  fin : w.conn.snd.finSent → w.conn.snd.una ≠ w.conn.snd.nxt →
    w.conn.inFlight.toNat = w.conn.snd.buf.len + 1
  rto : w.conn.state ≠ .closed → w.conn.state ≠ .listen →
    (w.conn.tmr.rtoDeadline ≠ 0 ↔ w.conn.inFlight ≠ 0)
  cwnd : mss ≤ w.conn.cc.cwnd ∧ w.conn.cc.cwnd ≤ sndBufLen
  ssthresh : 2 * mss ≤ w.conn.cc.ssthresh

lemma inFlight_eq_zero_of_eq (h : c.snd.una = c.snd.nxt) : c.inFlight = 0 := sub_eq_zero.mpr h.symm

lemma flight_le_pending {w : SendWatch} (hw : w.Inv) (ht : TimerInv w.conn) :
    w.conn.inFlight.toNat ≤ w.conn.snd.buf.len + w.pending.toNat := by
  by_cases hall : w.conn.snd.una = w.conn.snd.nxt
  · rw [inFlight_eq_zero_of_eq hall]
    exact Nat.zero_le _
  have hne : (w.conn.snd.una != w.conn.snd.nxt) = true := bne_iff_ne.mpr hall
  have hle := ht.flight
  cases hopen : w.opened with
  | false => simpa [SendWatch.pending, hopen, hne] using hle
  | true =>
    obtain ⟨-, u, f, hinv⟩ := hw.aligned hopen
    cases hfin : w.conn.snd.finSent with
    | true => simpa [SendWatch.pending, hfin, hne] using hle
    | false =>
      have hbytes := hinv.le hfin
      have hlen := hinv.len
      have hflight : w.conn.inFlight.toNat = f := hinv.toNat_flight
      omega

lemma flight_of_finSent {w : SendWatch} (hw : w.Inv) (hfin : w.conn.snd.finSent)
    (hne : w.conn.snd.una ≠ w.conn.snd.nxt) :
    w.conn.inFlight.toNat = w.conn.snd.buf.len + 1 := by
  have hopen : w.opened = true := by
    by_contra hno
    have hshaking := hw.shaking (by simpa using hno)
    rw [hshaking.finSent] at hfin
    cases hfin
  obtain ⟨-, u, f, hinv⟩ := hw.aligned hopen
  have hlast := (hinv.fin hfin).1
  have hlen := hinv.len
  have hflight : w.conn.inFlight.toNat = f := hinv.toNat_flight
  have hpos : f ≠ 0 := by
    rintro rfl
    exact hne (hinv.una.trans hinv.nxt.symm)
  omega

/-- The send space in every state of every run, whatever arrives. -/
theorem send_space (hc : Opened c) (calls : List Call) :
    SendSpace (calls.foldl SendWatch.step (SendWatch.start c)) := by
  have hstep : ∀ (w : SendWatch) (call : Call), w.Inv ∧ TimerInv w.conn ∧ RoomInv w.conn →
      (w.step call).Inv ∧ TimerInv (w.step call).conn ∧ RoomInv (w.step call).conn :=
    fun w call h => ⟨SendWatch.inv_step h.1 call, timers_step h.2 call⟩
  obtain ⟨hw, ht, hr⟩ := Run.foldl_invariant
    ⟨SendWatch.inv_start hc, TimerInv.of_opened hc, RoomInv.of_opened hc⟩ hstep calls
  exact
    { capacity := RingBuffer.len_le _
      flight := flight_le_pending hw ht
      fin := flight_of_finSent hw
      rto := fun hopen _ => ⟨ht.rto, hr.armed hopen⟩
      cwnd := ⟨hr.cc.cwnd_ge, hr.cc.cwnd_le⟩
      ssthresh := hr.cc.ssthresh_ge }

def halfClose : List Call := [.input synAckPacket 0 2, .write [7, 8] 3, .shutdownWrite 4]

theorem send_space_half_close :
    let w := halfClose.foldl SendWatch.step (SendWatch.start justConnected)
    SendSpace w ∧ w.conn.state = .finWait1 ∧ w.conn.inFlight = 3 :=
  ⟨send_space (.connect ..) halfClose, by decide +kernel, by decide +kernel⟩

end Tcp
