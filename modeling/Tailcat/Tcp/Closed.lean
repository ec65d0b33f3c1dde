import Tailcat.Tcp.Reack

/-!
# Closed connections

Which timers can be running is a matter of the state of a connection (`TimerInv`), so `abort`, the last
acknowledgement and the end of `TIME_WAIT` leave none; a reset and the two ways of giving up leave
those that were running. A closed connection still takes the payload and the acknowledgements of the
segments that reach it.

## Main results

* `closed_inert`: when a closed connection is inert;
* `closed_retransmits`: a connection that was reset is not.
-/

namespace Tcp

open SerialNumber Conn

variable {c c' : Conn} {s : Segment} {now : ℕ} {call : Call}

/-! ## Which timers run -/

/-- Not more is in flight than what the buffer holds and a FIN. -/
abbrev Conn.FlightFits (c : Conn) : Prop := c.inFlight.toNat ≤ c.snd.buf.len + 1

lemma inFlight_add {n : ℕ} (hnxt : c'.snd.nxt = c.snd.nxt + UInt32.ofNat n)
    (huna : c'.snd.una = c.snd.una) (hlt : c.inFlight.toNat + n < 2 ^ 32) :
    c'.inFlight.toNat = c.inFlight.toNat + n := by
  have hold : c.snd.nxt = place c.snd.una c.inFlight.toNat := eq_place _ _
  have hnew : c'.snd.nxt = place c.snd.una (c.inFlight.toNat + n) := by
    rw [hnxt, ← place_place, ← hold]
    rfl
  have hsub := toNat_place_sub c.snd.una (Nat.zero_le (c.inFlight.toNat + n)) (by omega)
  rw [place_zero, ← hnew, Nat.sub_zero] at hsub
  rw [inFlight, huna, hsub]

/-- The states after the peer's FIN has been counted, `CLOSED` apart. -/
def State.finIn : State → Bool
  | .closeWait | .closing | .lastAck | .timeWait => true
  | _ => false

/-- Which timers run: the retransmission timer only while something is in flight, no delayed
acknowledgement once the peer's FIN has been counted, and the `TIME_WAIT` timer only there. -/
structure TimerInv (c : Conn) : Prop where
  flight : c.inFlight.toNat ≤ c.snd.buf.len + 1
  rto : c.tmr.rtoDeadline ≠ 0 → c.inFlight ≠ 0
  delack : c.rcv.finReceived → c.tmr.delackDeadline = 0
  timewait : c.tmr.timewaitDeadline ≠ 0 → c.state = .timeWait ∨ c.state = .closed
  fin : c.state.finIn → c.rcv.finReceived
  idle : c.state = .finWait2 ∨ c.state = .timeWait → c.inFlight = 0

namespace TimerInv

section

variable (h : TimerInv c)

include h

lemma flight_lt : c.inFlight.toNat < 2 ^ 31 := by
  have hle := h.flight
  have hlen : c.snd.buf.len ≤ sndBufLen := c.snd.buf.len_le
  have hcap : sndBufLen = 65536 := rfl
  omega

lemma inFlight_eq_zero (hge : seqGe c.snd.una c.snd.nxt) : c.inFlight = 0 := by
  have hlt := h.flight_lt
  have hnxt : c.snd.nxt = place c.snd.una c.inFlight.toNat := eq_place _ _
  have hplace := seqGe_place c.snd.una (m := 0) (n := c.inFlight.toNat) (by omega) (by omega)
  rw [place_zero, ← hnxt, hge] at hplace
  exact UInt32.toNat_inj.mp (Nat.le_zero.mp (of_decide_eq_true hplace.symm))

lemma of_same (hfl : c'.inFlight = c.inFlight)
    (hlen : c.snd.buf.len ≤ c'.snd.buf.len) (hf : c'.rcv.finReceived = c.rcv.finReceived)
    (hst : c'.state = c.state ∨ c'.state = .closed ∨
      (c.state ≠ .timeWait ∧ c.state ≠ .closed ∧ c'.state.finIn = false ∧ c'.state ≠ .finWait2))
    (hr : c'.tmr.rtoDeadline ≠ 0 → c.tmr.rtoDeadline ≠ 0)
    (hd : c'.tmr.delackDeadline = 0 ∨ c'.tmr.delackDeadline = c.tmr.delackDeadline)
    (hw : c'.tmr.timewaitDeadline ≠ 0 → c.tmr.timewaitDeadline ≠ 0) : TimerInv c' where
  flight := by rw [hfl]; exact h.flight.trans (by omega)
  rto hne := by rw [hfl]; exact h.rto (hr hne)
  delack hfin := hd.elim id fun heq => heq.trans (h.delack (hf ▸ hfin))
  timewait hne := by
    rcases hst with hst | hst | ⟨htw, hcl, -⟩
    · rw [hst]
      exact h.timewait (hw hne)
    · exact .inr hst
    · exact ((h.timewait (hw hne)).elim htw hcl).elim
  fin hin := by
    rcases hst with hst | hst | ⟨-, -, hno, -⟩
    · rw [hf]
      exact h.fin (hst ▸ hin)
    · rw [hst] at hin
      cases hin
    · rw [hno] at hin
      cases hin
  idle hid := by
    rw [hfl]
    rcases hst with hst | hst | ⟨-, -, hno, hno'⟩
    · exact h.idle (hst ▸ hid)
    · rw [hst] at hid
      rcases hid with hid | hid <;> cases hid
    · rcases hid with hid | hid
      · exact absurd hid hno'
      · rw [hid] at hno
        cases hno

lemma of_eq (hs : c'.snd = c.snd) (hst : c'.state = c.state)
    (hf : c'.rcv.finReceived = c.rcv.finReceived) (hr : c'.tmr.rtoDeadline = c.tmr.rtoDeadline)
    (hd : c'.tmr.delackDeadline = 0 ∨ c'.tmr.delackDeadline = c.tmr.delackDeadline)
    (hw : c'.tmr.timewaitDeadline = c.tmr.timewaitDeadline) : TimerInv c' :=
  h.of_same (by rw [inFlight, hs]; rfl) (by rw [hs]) hf (.inl hst) (fun hne => hr ▸ hne) hd
    fun hne => hw ▸ hne

lemma handleAck (ack : UInt32) (now : ℕ) : TimerInv (c.handleAck ack now) := by
  refine c.handleAck_elim ack now ?_ ?_
  · intros
    exact h.of_eq rfl rfl rfl rfl (.inr rfl) rfl
  · intro cc rtt d hnew hsent hoff _
    -- `a` of the `f` in flight are acknowledged, and no more bytes than that are freed
    have hlt := h.flight_lt
    have hle := h.flight
    have hnxt : c.snd.nxt = place c.snd.una c.inFlight.toNat := eq_place _ _
    obtain ⟨a, ha, haf, hack⟩ := eq_place_of_new_ack hnxt hlt hnew hsent
    have hleft : (c.snd.nxt - ack).toNat = c.inFlight.toNat - a := by
      rw [hack, hnxt, toNat_place_sub _ haf (by omega)]
    have hfreed : c.dataAcked ack ≤ a := by
      have hdist : (ack - c.snd.una).toNat = a := by
        rw [hack]
        have hsub := toNat_place_sub c.snd.una (Nat.zero_le a) (by omega)
        rwa [place_zero] at hsub
      unfold dataAcked
      dsimp only
      split_ifs <;> omega
    have hpart : c.inFlight ≠ 0 := fun hz => by
      rw [hz] at haf
      exact absurd (ha.trans_le haf) (lt_irrefl _)
    refine ⟨?_, fun hne hz => hne (hoff ?_), h.delack, h.timewait, h.fin,
      fun hid => absurd (h.idle hid) hpart⟩
    · change (c.snd.nxt - ack).toNat ≤ (c.snd.buf.drop (c.dataAcked ack)).len + 1
      rw [RingBuffer.len_drop]
      omega
    · exact (sub_eq_zero.mp hz).symm

lemma of_sent {n : ℕ} (hn : n ≠ 0) (hlt : c.inFlight.toNat + n ≤ c.snd.buf.len + 1)
    (hnxt : c'.snd.nxt = c.snd.nxt + UInt32.ofNat n) (huna : c'.snd.una = c.snd.una)
    (hbuf : c'.snd.buf = c.snd.buf) (hf : c'.rcv = c.rcv)
    (hst : c'.state = finState c.state ∨ c'.state = c.state) (hcan : canSend c.state)
    (hd : c'.tmr.delackDeadline = c.tmr.delackDeadline)
    (hw : c'.tmr.timewaitDeadline = c.tmr.timewaitDeadline) : TimerInv c' := by
  have hlen : c.snd.buf.len ≤ sndBufLen := c.snd.buf.len_le
  have hcap : sndBufLen = 65536 := rfl
  have hflight := inFlight_add hnxt huna (by omega)
  have hcases : c.state = .established ∨ c.state = .closeWait ∨ c.state = .finWait1 := by
    generalize c.state = st at hcan
    cases st <;> simp_all [canSend]
  refine ⟨by rw [hflight, hbuf]; exact hlt, fun _ hz => ?_, fun hfin => ?_, fun hne => ?_,
    fun hin => ?_, fun hid => ?_⟩
  · rw [hz] at hflight
    exact hn (Nat.eq_zero_of_add_eq_zero hflight.symm).2
  · rw [hd]
    exact h.delack (hf ▸ hfin)
  · rcases h.timewait (hw ▸ hne) with hc | hc <;> rw [hc] at hcan <;> cases hcan
  · rw [hf]
    refine h.fin ?_
    rcases hcases with hc | hc | hc <;> rw [hc] at hst ⊢ <;> rcases hst with hst | hst <;>
      rw [hst] at hin <;> first | rfl | cases hin
  · rcases hcases with hc | hc | hc <;> rw [hc] at hst <;> rcases hst with hst | hst <;>
      rw [hst] at hid <;> rcases hid with hid | hid <;> cases hid

lemma enterTimeWait (hf : c.rcv.finReceived) (hfl : c.inFlight = 0) (now : ℕ) :
    TimerInv (c.enterTimeWait now) :=
  ⟨h.flight, h.rto, h.delack, fun _ => .inl rfl, fun _ => hf, fun _ => hfl⟩

end

lemma action (hact : Action now c c') (h : TimerInv c) : TimerInv c' := by
  have hcount : TimerInv (c.countFin.sendAck now) :=
    ⟨h.flight, h.rto, fun _ => rfl, h.timewait, fun _ => rfl, h.idle⟩
  have hopen : ∀ {st : State}, (c.state = .established ∨ c.state = .finWait1) →
      st ≠ .finWait2 → st ≠ .timeWait →
      TimerInv { c.countFin.sendAck now with state := st } := by
    intro st hst hno hno'
    refine ⟨hcount.flight, hcount.rto, hcount.delack, fun hne => ?_, fun _ => rfl, fun hid => ?_⟩
    · rcases h.timewait hne with hc | hc <;> rw [hc] at hst <;> rcases hst with hst | hst <;>
        cases hst
    · exact hid.elim (absurd · hno) (absurd · hno')
  cases hact.effect with
  | sendAck => exact h.of_eq rfl rfl rfl rfl (.inl rfl) rfl
  | noteWindow s => exact h.of_same rfl le_rfl rfl (.inl rfl) id (.inr rfl) id
  | handleAck ack => exact h.handleAck ack now
  | opened hst =>
    refine h.of_same rfl le_rfl rfl (.inr (.inr ?_)) id (.inr rfl) id
    rw [hst]
    exact ⟨nofun, nofun, rfl, nofun⟩
  | take s rcv stats d hno _ hfin =>
    refine ⟨h.flight, h.rto, fun hf => ?_, h.timewait, fun hin => ?_, h.idle⟩
    · exact absurd (hfin.symm.trans hf) (by simp)
    · exact (hfin.trans hno.symm).trans (h.fin hin)
  | countFin => exact hcount
  | closeWait _ hst => exact hopen (.inl hst) nofun nofun
  | closing _ hst => exact hopen (.inr hst) nofun nofun
  | timeWait _ hst =>
    refine hcount.enterTimeWait rfl ?_ now
    rcases hst with ⟨-, hge⟩ | hst
    · exact hcount.inFlight_eq_zero hge
    · exact hcount.idle (.inl hst)
  | finWait2 hge hst =>
    refine ⟨h.flight, h.rto, h.delack, fun hne => ?_, nofun, fun _ => h.inFlight_eq_zero hge⟩
    rcases h.timewait hne with hc | hc <;> rw [hst] at hc <;> cases hc
  | lastWait hge hst =>
    exact h.enterTimeWait (h.fin (by rw [hst]; rfl)) (h.inFlight_eq_zero hge) now
  | closed => exact h.of_same rfl le_rfl rfl (.inr (.inl rfl)) id (.inr rfl) id
  | sendData rtt stats d hst hn =>
    have hle := c.sendable_le
    exact h.of_sent hn (by omega) rfl rfl rfl rfl (.inr rfl) hst rfl rfl
  | sendFin rtt stats d hst hdue =>
    simp only [finDue, Bool.and_eq_true, beq_iff_eq] at hdue
    exact h.of_sent Nat.one_ne_zero (by omega) rfl rfl rfl rfl (.inl rfl) hst rfl rfl
  | _ => exact h.of_eq rfl rfl rfl rfl (.inr rfl) rfl

lemma trigger (htrig : Trigger now c c') (h : TimerInv c) : TimerInv c' := by
  have hno : c.state ≠ .timeWait → c.state ≠ .closed → c.tmr.timewaitDeadline = 0 :=
    fun htw hcl => by_contra fun hne => (h.timewait hne).elim htw hcl
  cases htrig with
  | rst | giveUpIdle => exact h.of_same rfl le_rfl rfl (.inr (.inl rfl)) id (.inr rfl) id
  | listen s iss hst =>
    have hone : (iss + 1 - iss : UInt32) = 1 := add_sub_cancel_left iss 1
    have hoff := hno (by rw [hst]; nofun) (by rw [hst]; nofun)
    refine ⟨?_, fun _ => ?_, h.delack, fun hne => absurd hoff hne, nofun, nofun⟩
    · change (iss + 1 - iss : UInt32).toNat ≤ c.snd.buf.len + 1
      rw [hone]
      exact Nat.le_add_left _ _
    · change (iss + 1 - iss : UInt32) ≠ 0
      rw [hone]
      decide
  | answer s hst =>
    have hsync : TimerInv (c.synchronise s) := h.of_same rfl le_rfl rfl (.inl rfl) id (.inr rfl) id
    refine (hsync.handleAck s.ack now).of_same rfl le_rfl rfl (.inr (.inr ?_)) id (.inr rfl) id
    rw [handleAck_state, show (c.synchronise s).state = .synSent from hst]
    exact ⟨nofun, nofun, rfl, nofun⟩
  | timewait =>
    exact h.of_same rfl le_rfl rfl (.inr (.inl rfl)) id (.inr rfl) fun hne => absurd rfl hne
  | giveUpRto =>
    exact h.of_same rfl le_rfl rfl (.inr (.inl rfl)) (fun hne => absurd rfl hne) (.inr rfl) id
  | retransmit hdue =>
    obtain ⟨rtt, stats, out, heq, -⟩ := c.backOff.resend_eq now
    simp only [rtoDue, Bool.and_eq_true, bne_iff_ne] at hdue
    rw [retransmit, heq]
    exact ⟨h.flight, fun _ => h.rto hdue.1, h.delack, h.timewait, h.fin, h.idle⟩
  | push => exact h.of_same rfl (Nat.le_add_right _ _) rfl (.inl rfl) id (.inr rfl) id
  | queueFin hst => exact h.of_same rfl le_rfl rfl (.inl rfl) id (.inr rfl) id
  | abort =>
    exact h.of_same rfl le_rfl rfl (.inr (.inl rfl)) (fun hne => absurd rfl hne) (.inl rfl)
      fun hne => absurd rfl hne
  | _ => exact h.of_eq rfl rfl rfl rfl (.inr rfl) rfl

lemma moves (h : TimerInv c) (hm : Moves now c c') : TimerInv c' := hm.invariant action trigger h

lemma step (h : TimerInv c) (call : Call) : TimerInv (c.step call) := h.moves (c.moves_step call)

lemma of_opened (h : Opened c) : TimerInv c := by
  cases h with
  | connect localIp remoteIp sndMem rcvMem localPort remotePort iss now =>
    have hone : (iss + 1 - iss : UInt32) = 1 := add_sub_cancel_left iss 1
    refine ⟨?_, fun _ => ?_, nofun, fun hne => absurd rfl hne, nofun, nofun⟩
    · change (iss + 1 - iss : UInt32).toNat ≤ _
      rw [hone]
      exact Nat.le_add_left _ _
    · change (iss + 1 - iss : UInt32) ≠ 0
      rw [hone]
      decide
  | listen localIp remoteIp sndMem rcvMem localPort =>
    refine ⟨?_, fun hne => absurd rfl hne, nofun, fun hne => absurd rfl hne, nofun, nofun⟩
    change (0 - 0 : UInt32).toNat ≤ _
    exact Nat.zero_le _

end TimerInv

/-! ## Closing -/

/-- No timer but the idle timer is running. -/
structure TimersOff (t : Timers) : Prop where
  rto : t.rtoDeadline = 0
  delack : t.delackDeadline = 0
  timewait : t.timewaitDeadline = 0

instance (t : Timers) : Decidable (TimersOff t) :=
  decidable_of_iff (t.rtoDeadline = 0 ∧ t.delackDeadline = 0 ∧ t.timewaitDeadline = 0)
    ⟨fun h => ⟨h.1, h.2.1, h.2.2⟩, fun h => ⟨h.1, h.2, h.3⟩⟩

def ClosedOff (c : Conn) : Prop := c.state = .closed → TimersOff c.tmr

lemma nextDeadline_of_off (hst : c.state = .closed) (h : TimersOff c.tmr) :
    c.nextDeadline = noDeadline := by
  have hka : c.kaActive = false := by
    rw [kaActive, hst]
    exact Bool.and_false _
  unfold nextDeadline
  simp [h.rto, h.delack, h.timewait, hka]

lemma inputSeq_inputAck_closed :
    ((c.inputAck s now).inputSeq s now).state = .closed ↔ c.state = .closed := by
  have hack : (c.inputAck s now).state = .closed ↔ c.state = .closed := by
    let d := ((c.answerSyn s now).noteWindow s).handleAck s.ack now
    have hd : d.state = c.state := by
      rw [show d.state = _ from handleAck_state _ s.ack now]
      exact (c.recvOnly_answerSyn s now).state
    rw [← hd]
    change d.synAcked.state = .closed ↔ _
    rcases d.synAcked_cases with h | ⟨hst, h⟩ <;> rw [h]
    rw [hst]
    simp
  rw [← hack]
  generalize c.inputAck s now = d
  let p := (d.acceptPayload s now).answerProbe s now
  have hp : p.state = d.state := (d.recvOnly_payload s now).state
  rw [← hp]
  change (p.acceptFin s now).state = .closed ↔ _
  unfold acceptFin
  split
  · let e := p.countFin.sendAck now
    rcases e.closeRead_cases now with ⟨-, h⟩ | ⟨hst, h⟩ | ⟨hst, h⟩ | ⟨hst, h⟩
    · rw [show (p.countFin.sendAck now).closeRead now = e from h]
      exact Iff.rfl
    all_goals
      rw [show p.state = e.state from rfl, show (p.countFin.sendAck now).closeRead now = _ from h]
      refine iff_of_false nofun ?_
    · simp [hst]
    · simp [hst]
    · rcases hst with ⟨hst, -⟩ | hst <;> simp [hst]
  · exact Iff.rfl

lemma trySend_closed : (c.trySend now).state = .closed ↔ c.state = .closed := by
  rcases c.trySend_state now with h | ⟨hst, h⟩ <;> rw [h]
  generalize c.state = st at hst
  cases st <;> simp_all [finState]

lemma trySend_of_closed (hst : c.state = .closed) : c.trySend now = c := by
  rw [trySend, hst]
  rfl

lemma closedOff_finAcked (h : TimerInv c) (hst : c.state ≠ .closed) : ClosedOff
    (c.finAcked now) := by
  intro hclosed
  rcases c.finAcked_cases now with heq | ⟨-, hge, ⟨-, heq⟩ | ⟨-, heq⟩ | ⟨hlast, heq⟩⟩ <;>
    rw [heq] at hclosed ⊢
  · exact absurd hclosed hst
  · cases hclosed
  · cases hclosed
  · have hfin := h.fin (by rw [hlast]; rfl)
    refine ⟨by_contra fun hne => h.rto hne (h.inFlight_eq_zero hge), h.delack hfin,
      by_contra fun hne => ?_⟩
    rcases h.timewait hne with hc | hc <;> rw [hlast] at hc <;> cases hc

lemma closedOff_inputOther (h : TimerInv c) (hst : c.state ≠ .closed) :
    ClosedOff (c.inputOther s now) := by
  unfold inputOther
  split
  · let d := (c.inputAck s now).inputSeq s now
    have hd : TimerInv d :=
      h.moves (Acts.moves ((c.acts_inputAck s now).trans (acts_inputSeq _ s now)))
    have hopen : d.state ≠ .closed := mt inputSeq_inputAck_closed.mp hst
    intro hclosed
    have hacked := trySend_closed.mp hclosed
    rw [trySend_of_closed hacked]
    exact closedOff_finAcked hd hopen hacked
  · exact fun hclosed => absurd hclosed hst

/-! ## Ticks -/

lemma idleView_tmr (c : Conn) (now : ℕ) :
    (c.idleView now).tmr.rtoDeadline = c.tmr.rtoDeadline ∧
      (c.idleView now).tmr.rtoBackoff = c.tmr.rtoBackoff ∧
      (c.tmr.delackDeadline ≤ now → (c.idleView now).tmr.delackDeadline = 0) := by
  have htw : ((c.stamp now).tickTimewait now).tmr.rtoDeadline = c.tmr.rtoDeadline ∧
      ((c.stamp now).tickTimewait now).tmr.rtoBackoff = c.tmr.rtoBackoff ∧
      ((c.stamp now).tickTimewait now).tmr.delackDeadline = c.tmr.delackDeadline := by
    unfold tickTimewait
    split <;> exact ⟨rfl, rfl, rfl⟩
  unfold idleView tickDelack
  split
  · exact ⟨htw.1, htw.2.1, fun _ => rfl⟩
  rename_i hno
  refine ⟨htw.1, htw.2.1, fun hle => by_contra fun hne => hno ⟨hne, ?_⟩⟩
  rw [htw.2.2]
  exact hle

lemma closedOff_idleView (h : TimerInv c) (hoff : ClosedOff c) : ClosedOff (c.idleView now) := by
  have hdel : ∀ {d : Conn}, ClosedOff d → ClosedOff (d.tickDelack now) := by
    intro d hd hclosed
    unfold tickDelack at hclosed ⊢
    split at hclosed
    · next hdue =>
      rw [if_pos hdue]
      exact ⟨(hd hclosed).rto, rfl, (hd hclosed).timewait⟩
    · next hno =>
      rw [if_neg hno]
      exact hd hclosed
  refine hdel ?_
  unfold tickTimewait
  split
  · next hdue =>
    have hne : c.tmr.timewaitDeadline ≠ 0 := hdue.1
    have hst : c.state = .timeWait :=
      (h.timewait hne).resolve_right fun hclosed => hne (hoff hclosed).timewait
    exact fun _ => ⟨by_contra fun hrto => h.rto hrto (h.idle (.inr hst)),
      h.delack (h.fin (by rw [hst]; rfl)), rfl⟩
  · exact hoff

lemma closedOff_tickRto (h : TimerInv c) (hoff : ClosedOff c)
    (hclean : c.rtoDue now → maxRetries ≤ c.tmr.rtoBackoff → c.tmr.delackDeadline = 0) :
    ClosedOff (c.tickRto now).1 := by
  have hrunning : c.rtoDue now → c.tmr.rtoDeadline ≠ 0 := fun hdue => by
    simp only [rtoDue, Bool.and_eq_true, bne_iff_ne] at hdue
    exact hdue.1
  have hopen : c.rtoDue now → c.state ≠ .closed := fun hdue hclosed =>
    hrunning hdue (hoff hclosed).rto
  unfold tickRto
  split_ifs with hdue hmany
  · refine fun _ => ⟨rfl, hclean hdue hmany, by_contra fun hne => ?_⟩
    rcases h.timewait hne with hst | hst
    · exact h.rto (hrunning hdue) (h.idle (.inr hst))
    · exact hopen hdue hst
  · intro hclosed
    have hst := trySend_closed.mp hclosed
    rw [(c.retransmit_frame now).2] at hst
    exact absurd hst (hopen hdue)
  · intro hclosed
    have hst := trySend_closed.mp hclosed
    rw [trySend_of_closed hst]
    exact hoff hst

/-- A tick that gives up finds no timer running that it leaves on. -/
def CleanTick (c : Conn) (now : ℕ) : Prop :=
  (GivesUp c now → c.tmr.rtoDeadline = 0) ∧
    (GivesUp c now ∨ (c.rtoDue now ∧ maxRetries ≤ c.tmr.rtoBackoff) → c.tmr.delackDeadline ≤ now)
deriving Decidable

lemma closedOff_tcpTick (h : TimerInv c) (hoff : ClosedOff c) (hclean : CleanTick c now) :
    ClosedOff (c.tcpTick now).1 := by
  let d := c.idleView now
  have hd : TimerInv d := h.moves (c.moves_idleView now)
  have hdoff : ClosedOff d := closedOff_idleView h hoff
  obtain ⟨hrto, hback, hdel⟩ := idleView_tmr c now
  have hdue : d.rtoDue now → maxRetries ≤ d.tmr.rtoBackoff → d.tmr.delackDeadline = 0 := by
    intro hdue hmany
    refine hdel (hclean.2 (.inr ⟨?_, hback ▸ hmany⟩))
    rwa [rtoDue, hrto] at hdue
  change ClosedOff (d.tickKeepalive now).1
  unfold tickKeepalive
  split_ifs with hka hmany
  · have hgives : GivesUp c now := ⟨hka, hmany⟩
    refine fun _ => ⟨hrto.trans (hclean.1 hgives), hdel (hclean.2 (.inl hgives)),
      by_contra fun hne => ?_⟩
    simp only [kaDue, kaActive] at hka
    rcases hd.timewait hne with hst | hst <;> rw [hst] at hka <;> simp at hka
  · have hprobe : TimerInv (d.sendProbe now) := TimerInv.trigger (.probe d) hd
    have hprobeOff : ClosedOff (d.sendProbe now) := fun hst =>
      ⟨(hdoff hst).rto, (hdoff hst).delack, (hdoff hst).timewait⟩
    exact closedOff_tickRto hprobe hprobeOff hdue
  · exact closedOff_tickRto hd hdoff hdue

/-! ## Closed connections -/

/-- A closed connection whose timers are off, with the buffer `buf` to be read. -/
structure Shut (buf : RingBuffer UInt8 rcvBufLen) (c : Conn) : Prop where
  state : c.state = .closed
  off : TimersOff c.tmr
  readable : c.rcv.buf = buf

/-- The payload of the segment is taken into the receive buffer. -/
def TakesPayload (c : Conn) (s : Segment) : Prop :=
  s.data.length > 0 ∧ c.rcv.finReceived = false ∧
    (seqLe s.seq c.rcv.nxt && seqGt (s.seq + UInt32.ofNat s.data.length) c.rcv.nxt)
deriving Decidable

/-- The segment acknowledges something new, but not everything in flight. -/
def PartialAck (c : Conn) (s : Segment) : Prop :=
  seqLe s.ack c.snd.una = false ∧ seqGt s.ack c.snd.nxt = false ∧ s.ack ≠ c.snd.nxt
deriving Decidable

namespace Shut

variable {buf : RingBuffer UInt8 rcvBufLen}

section

variable (h : Shut buf c)

include h

lemma sendAck (now : ℕ) : Shut buf (c.sendAck now) :=
  ⟨h.state, ⟨h.off.rto, rfl, h.off.timewait⟩, h.readable⟩

lemma handleAck {ack : UInt32}
    (hack : seqLe ack c.snd.una = false → seqGt ack c.snd.nxt = false → ack = c.snd.nxt) (now : ℕ) :
    Shut buf (c.handleAck ack now) := by
  refine c.handleAck_elim ack now ?_ ?_
  · intros
    exact ⟨h.state, h.off, h.readable⟩
  · intro _ _ _ hnew hsent hoff _
    exact ⟨h.state, ⟨hoff (hack hnew hsent), h.off.delack, h.off.timewait⟩, h.readable⟩

lemma inputAck (hack : ¬PartialAck c s) (now : ℕ) : Shut buf (c.inputAck s now) := by
  let d := (c.answerSyn s now).noteWindow s
  have hd : Shut buf d := by
    have hsyn : Shut buf (c.answerSyn s now) := by
      unfold answerSyn
      split
      · exact h.sendAck now
      · exact h
    exact ⟨hsyn.state, hsyn.off, hsyn.readable⟩
  have hsnd : d.snd.una = c.snd.una ∧ d.snd.nxt = c.snd.nxt := by
    change (c.answerSyn s now).snd.una = _ ∧ (c.answerSyn s now).snd.nxt = _
    rw [(c.recvOnly_answerSyn s now).keepsSend.snd]
    exact ⟨rfl, rfl⟩
  have hall : Shut buf (d.handleAck s.ack now) := by
    refine hd.handleAck ?_ now
    rw [hsnd.1, hsnd.2]
    exact fun hnew hsent => by_contra fun hne => hack ⟨hnew, hsent, hne⟩
  change Shut buf (d.handleAck s.ack now).synAcked
  rcases (d.handleAck s.ack now).synAcked_cases with heq | ⟨hst, -⟩
  · rwa [heq]
  · rw [hall.state] at hst
    cases hst

lemma acceptPayload (hno : ¬TakesPayload c s) (now : ℕ) : Shut buf (c.acceptPayload s now) := by
  unfold Conn.acceptPayload
  split_ifs with hnew horder
  · exact absurd ⟨hnew.1, hnew.2, horder⟩ hno
  · obtain ⟨ooo, stats, heq⟩ := c.oooInsert_eq s.seq s.data
    rw [heq]
    exact ⟨h.state, ⟨h.off.rto, rfl, h.off.timewait⟩, h.readable⟩
  · exact h.sendAck now
  · exact h

lemma inputSeq (hno : ¬TakesPayload c s) (now : ℕ) : Shut buf (c.inputSeq s now) := by
  have hprobe : ∀ {d : Conn}, Shut buf d → Shut buf (d.answerProbe s now) := by
    intro d hd
    unfold answerProbe
    split
    · exact hd.sendAck now
    · exact hd
  have hfin : ∀ {d : Conn}, Shut buf d → Shut buf (d.acceptFin s now) := by
    intro d hd
    unfold acceptFin
    split
    · have hcount : Shut buf (d.countFin.sendAck now) :=
        Shut.sendAck (c := d.countFin) ⟨hd.state, hd.off, hd.readable⟩ now
      rwa [closeRead, hcount.state]
    · exact hd
  exact hfin (hprobe (h.acceptPayload hno now))

lemma inputOther (hclean : s.acks → ¬TakesPayload c s ∧ ¬PartialAck c s) (now : ℕ) :
    Shut buf (c.inputOther s now) := by
  unfold Conn.inputOther
  split
  · next hacks =>
    obtain ⟨htakes, hpart⟩ := hclean hacks
    have hkeep := c.keepsRecv_inputAck s now
    have htakes' : ¬TakesPayload (c.inputAck s now) s := by
      rw [TakesPayload, hkeep.rcv]
      exact htakes
    let d := (c.inputAck s now).inputSeq s now
    have hd : Shut buf d := (h.inputAck hpart now).inputSeq htakes' now
    have hfin : d.finAcked now = d := by
      unfold finAcked
      rw [hd.state]
      split <;> rfl
    rwa [hfin, trySend_of_closed hd.state]
  · exact h

lemma tcpTick_eq (now : ℕ) : (c.tcpTick now).1 = c.stamp now := by
  have hidle := idleView_eq_stamp h.off.timewait h.off.delack now
  have hka : (c.stamp now).kaDue now = false := by
    rw [kaDue, kaActive, show (c.stamp now).state = .closed from h.state]
    simp
  rw [idleView] at hidle
  rw [tcpTick, hidle, tickKeepalive, hka, if_neg Bool.false_ne_true, tickRto, rtoDue_stamp h.off.rto]
  exact trySend_of_closed h.state

end

end Shut

/-! ## Calls -/

/-- A segment that is harmless: a reset that counts finds no timer running, and a closed connection
takes neither payload from the segment nor the acknowledgement of a part. -/
def CleanSegment (c : Conn) (s : Segment) : Prop :=
  if s.rst then c.state = .synSent ∨ s.seq = c.rcv.nxt → TimersOff c.tmr
  else c.state = .closed → s.acks → ¬TakesPayload c s ∧ ¬PartialAck c s
deriving Decidable

/-- A call that leaves a closed connection inert. -/
def Clean (c : Conn) (call : Call) : Prop := call.Meets c (CleanTick c) (CleanSegment c)
deriving Decidable

/-- A connection that is closed after the call has no deadline. If it was closed before, it stays
so, a tick sends nothing, and what there is to read changes by being read only. -/
structure Inert (c : Conn) (call : Call) : Prop where
  deadline : (c.step call).state = .closed → (c.step call).nextDeadline = noDeadline
  closed : c.state = .closed → (c.step call).state = .closed
  silent : c.state = .closed → ∀ now, call = .tick now → newOut c (c.step call) = []
  readable : c.state = .closed → c.rcv.buf.toList = call.bytesRead c ++ (c.step call).rcv.buf.toList

lemma closedOff_trySend (hst : c.state ≠ .closed) : ClosedOff (c.trySend now) :=
  fun hclosed => absurd (trySend_closed.mp hclosed) hst

lemma closedOff_step (h : TimerInv c) (hst : c.state ≠ .closed) (hclean : Clean c call) :
    ClosedOff (c.step call) := by
  have hopen : ∀ {d : Conn}, d.state = c.state → ClosedOff d := fun hd hclosed =>
    absurd (hd.symm.trans hclosed) hst
  cases call with
  | input pkt iss now =>
    have hparse : parse (c.stamp now) pkt = parse c pkt := rfl
    change ClosedOff (c.tcpInput pkt iss now)
    rw [Clean, Call.Meets] at hclean
    unfold tcpInput
    dsimp only
    rw [hparse]
    split at hclean
    · next s hp =>
      rw [hp]
      dsimp only [CleanSegment] at hclean
      unfold inputSegment
      dsimp only
      split at hclean
      · next hrst =>
        rw [if_pos hrst]
        unfold inputRst
        split
        · next hcounts =>
          have hoff := hclean hcounts
          exact fun _ => ⟨hoff.rto, hoff.delack, hoff.timewait⟩
        · exact hopen rfl
      · next hrst =>
        rw [if_neg hrst]
        split
        · unfold inputListen
          split
          · intro hclosed
            cases hclosed
          · exact hopen rfl
        · unfold inputSynSent
          split_ifs
          · exact hopen rfl
          · exact closedOff_trySend (by simp [sendAck, sendSegment])
          · exact hopen rfl
        · have hview : TimerInv ((c.stamp now).noteSegment now) :=
            h.of_eq rfl rfl rfl rfl (.inr rfl) rfl
          exact closedOff_inputOther hview hst
    · next hp =>
      rw [hp]
      exact hopen rfl
    · next hp =>
      rw [hp]
      exact hopen rfl
  | tick now => exact closedOff_tcpTick h (fun hclosed => absurd hclosed hst) hclean
  | write buf now =>
    change ClosedOff (c.tcpWrite buf now).1
    unfold tcpWrite
    dsimp only
    split_ifs
    · exact hopen rfl
    · exact hopen rfl
    · exact closedOff_trySend hst
  | read cap => exact hopen (c.recvOnly_tcpRead cap).state
  | shutdownWrite now =>
    change ClosedOff (c.tcpShutdownWrite now).1
    unfold tcpShutdownWrite
    split_ifs
    · exact hopen rfl
    · exact hopen rfl
    · exact closedOff_trySend hst
  | abort now =>
    change ClosedOff (c.tcpAbort now)
    rw [tcpAbort, if_neg hst]
    exact fun _ => ⟨rfl, rfl, rfl⟩

lemma tcpRead_readable (c : Conn) (cap : ℕ) :
    c.rcv.buf.toList = (c.tcpRead cap).2 ++ (c.tcpRead cap).1.rcv.buf.toList := by
  have hparts : c.rcv.buf.toList = c.rcv.buf.peek 0 (min c.rcv.buf.len cap) ++
      (c.rcv.buf.drop (min c.rcv.buf.len cap)).toList := by
    rw [RingBuffer.peek_zero _ (Nat.min_le_left _ _), RingBuffer.toList_drop, List.take_append_drop]
  unfold tcpRead
  dsimp only
  split <;> exact hparts

/-- A call on a closed connection leaves it closed with its timers off. -/
theorem Shut.step {buf : RingBuffer UInt8 rcvBufLen} (h : Shut buf c) (hclean : Clean c call) :
    Shut (c.step call).rcv.buf (c.step call) ∧
      buf.toList = call.bytesRead c ++ (c.step call).rcv.buf.toList := by
  have hsame : ∀ {d : Conn}, Shut buf d → Shut d.rcv.buf d ∧ buf.toList = [] ++ d.rcv.buf.toList :=
    fun hd => ⟨⟨hd.state, hd.off, rfl⟩, by rw [hd.readable]; rfl⟩
  have hstamp : ∀ now, Shut buf (c.stamp now) := fun now => ⟨h.state, h.off, h.readable⟩
  cases call with
  | input pkt iss now =>
    refine hsame (d := c.tcpInput pkt iss now) ?_
    have hparse : parse (c.stamp now) pkt = parse c pkt := rfl
    rw [Clean, Call.Meets] at hclean
    unfold tcpInput
    dsimp only
    rw [hparse]
    split at hclean
    · next s hp =>
      rw [hp]
      have hview : Shut buf (inputView c now) := ⟨h.state, ⟨h.off.1, h.off.2, h.off.3⟩, h.readable⟩
      dsimp only [CleanSegment] at hclean ⊢
      split at hclean
      · next hrst =>
        rw [inputSegment, if_pos hrst]
        unfold inputRst
        split
        · exact ⟨rfl, hview.off, hview.readable⟩
        · exact hview
      · next hrst =>
        have hsettled : c.state.Settled := by rw [h.state]; exact ⟨by decide, by decide⟩
        rw [inputSegment_of_settled (c := c.stamp now) hsettled (by simpa using hrst)]
        exact hview.inputOther (hclean h.state) now
    · next hp =>
      rw [hp]
      exact hstamp now
    · next hp =>
      rw [hp]
      exact ⟨h.state, h.off, h.readable⟩
  | tick now =>
    refine hsame (d := (c.tcpTick now).1) ?_
    rw [h.tcpTick_eq]
    exact hstamp now
  | write bytes now =>
    refine hsame (d := (c.tcpWrite bytes now).1) ?_
    have hno : canWrite (c.stamp now).state = false := by
      rw [show (c.stamp now).state = .closed from h.state]
      rfl
    unfold tcpWrite
    dsimp only
    split <;> exact hstamp now
  | read cap =>
    refine ⟨⟨(c.recvOnly_tcpRead cap).state.trans h.state, ?_, rfl⟩, h.readable ▸ tcpRead_readable c cap⟩
    change TimersOff (c.tcpRead cap).1.tmr
    unfold tcpRead
    dsimp only
    split
    · exact ⟨h.off.rto, rfl, h.off.timewait⟩
    · exact h.off
  | shutdownWrite now =>
    refine hsame (d := (c.tcpShutdownWrite now).1) ?_
    unfold tcpShutdownWrite
    rw [h.state]
    split <;> exact h
  | abort now =>
    refine hsame (d := c.tcpAbort now) ?_
    rwa [tcpAbort, if_pos h.state]

lemma inert_step (h : TimerInv c) (hoff : ClosedOff c) (hclean : Clean c call) :
    ClosedOff (c.step call) ∧ Inert c call := by
  by_cases hst : c.state = .closed
  · have hshut : Shut c.rcv.buf c := ⟨hst, hoff hst, rfl⟩
    obtain ⟨hstep, hread⟩ := hshut.step hclean
    refine ⟨fun _ => hstep.off, fun _ => nextDeadline_of_off hstep.state hstep.off,
      fun _ => hstep.state, fun _ now hcall => ?_, fun _ => hread⟩
    subst hcall
    change newOut c (c.tcpTick now).1 = []
    rw [hshut.tcpTick_eq]
    exact List.drop_length
  · have hoff' := closedOff_step h hst hclean
    exact ⟨hoff', fun hclosed => nextDeadline_of_off hclosed (hoff' hclosed),
      fun hclosed => absurd hclosed hst, fun hclosed => absurd hclosed hst,
      fun hclosed => absurd hclosed hst⟩

/-- In a run in which no reset and no giving up finds a timer running, and no segment that reaches
the closed connection has payload for it or acknowledges a part of what is in flight, a closed
connection is inert. -/
theorem closed_inert (hc : Opened c) {calls : List Call}
    (hrun : Run.Ok step Clean c calls) : Run.Ok step Inert c calls := by
  have hstart : TimerInv c ∧ ClosedOff c := by
    refine ⟨.of_opened hc, fun hclosed => ?_⟩
    cases hc <;> cases hclosed
  refine hrun.of_invariant (I := fun c => TimerInv c ∧ ClosedOff c) hstart ?_ ?_
  · exact fun c call h hclean => ⟨h.1.step call, (inert_step h.1 h.2 hclean).1⟩
  · exact fun c call h hclean => (inert_step h.1 h.2 hclean).2

/-- The acknowledgement of the FIN of `justConnected`. -/
def lastAckFor : Segment :=
  { sport := 80, dport := 9, seq := 7, ack := 0, flags := thAck, wnd := 1000, data := [] }

/-- A connection that is closed by both ends, and hears of its peer once more. -/
def passiveClose : List Call :=
  [.input synAckPacket 0 2, .input (fromPeer finFor) 0 3, .shutdownWrite 4,
    .input (fromPeer lastAckFor) 0 5, .tick 70000, .input (fromPeer finFor) 0 70001]

theorem closed_inert_passive_close :
    (passiveClose.foldl step justConnected).state = .closed ∧
      Run.Ok step Inert justConnected passiveClose :=
  ⟨by decide +kernel, closed_inert (.connect ..) (by decide +kernel)⟩

/-- A reset from the peer of `justConnected`. -/
def rstFor : Segment :=
  { sport := 80, dport := 9, seq := 6, ack := 0, flags := thRst, wnd := 0, data := [] }

def resetInFlight : List Call :=
  [.input synAckPacket 0 2, .write [7] 3, .input (fromPeer rstFor) 0 4, .tick 2000]

/-- A connection that was reset while a byte is in flight retransmits it. -/
theorem closed_retransmits :
    ¬∀ c : Conn, Opened c → ∀ calls : List Call, Run.Ok step Inert c calls := by
  intro h
  have hrun := h justConnected (.connect ..) resetInFlight
  let c := (resetInFlight.take 3).foldl step justConnected
  have hlast : Inert c (.tick 2000) := hrun.2.2.2.1
  have hclosed : c.state = .closed := by decide +kernel
  have hsent : newOut c (c.step (.tick 2000)) ≠ [] := by decide +kernel
  exact hsent (hlast.silent hclosed 2000 rfl)

end Tcp
