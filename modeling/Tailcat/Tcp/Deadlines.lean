import Tailcat.Tcp.Space

/-!
# Deadlines

An owner that sleeps until `tc_tcp_next_deadline` neither spins nor misses work: every call that
changes what can be sent ends with `try_send` (`Flushed`), and a tick moves every timer that is due.

## Main results

* `Flushed.step`: nothing is left to send after a call;
* `tick_deadline`: a tick before the deadline does nothing, and after a tick the deadline is ahead.
-/

namespace Tcp

open SerialNumber Conn

variable {c c' : Conn} {now t : ℕ}

/-! ## Nothing is left to send -/

/-- There is nothing `try_send` would send. -/
def Flushed (c : Conn) : Prop := canSend c.state → c.sendable = 0 ∧ c.finDue = false

lemma Flushed.of_eq (h : Flushed c) (hsnd : c'.snd = c.snd)
    (hcc : c'.cc = c.cc) (hst : c'.state = c.state) : Flushed c' := by
  have hdata : c'.sendable = c.sendable := by
    unfold sendable inFlight
    rw [hsnd, hcc]
  have hfin : c'.finDue = c.finDue := by
    unfold finDue inFlight
    rw [hsnd]
  intro hcan
  rw [hdata, hfin]
  exact h (hst ▸ hcan)

lemma flushed_of_not_canSend (h : canSend c.state = false) : Flushed c :=
  fun hcan => absurd hcan (by simp [h])

lemma inFlight_sendData (h : c.FlightFits) (now : ℕ) :
    (c.sendData c.sendable now).inFlight.toNat = c.inFlight.toNat + c.sendable := by
  have hcap : c.snd.buf.len ≤ 65536 := c.snd.buf.len_le
  have hle := c.sendable_le
  exact inFlight_add (by rw [sendData_snd]) (by rw [sendData_snd]) (by omega)

lemma inFlight_sendFin (h : c.FlightFits) (hdue : c.finDue) (now : ℕ) :
    (c.sendFin now).inFlight.toNat = c.inFlight.toNat + 1 := by
  have hcap : c.snd.buf.len ≤ 65536 := c.snd.buf.len_le
  exact inFlight_add (by rw [c.sendFin_snd hdue]; rfl) (by rw [c.sendFin_snd hdue]) (by omega)

/-- What the rounds of `try_send` leave alone: all but what is in flight, the round-trip sample and
the retransmission timer, which keeps its deadline or gets one that is ahead. -/
structure Rounds (now : ℕ) (c c' : Conn) : Prop where
  una : c'.snd.una = c.snd.una
  buf : c'.snd.buf = c.snd.buf
  wnd : c'.snd.wnd = c.snd.wnd
  cc : c'.cc = c.cc
  rto : c'.rtt.rto = c.rtt.rto
  flight : c.inFlight.toNat ≤ c'.inFlight.toNat
  flight_le : c'.inFlight.toNat ≤ c'.snd.buf.len + 1
  timers : ∃ r, c'.tmr = { c.tmr with rtoDeadline := r } ∧ (r = c.tmr.rtoDeadline ∨ now < r)

lemma Rounds.trans {c'' : Conn} (h : Rounds now c c') (h' : Rounds now c' c'') :
    Rounds now c c'' := by
  obtain ⟨r, htmr, hr⟩ := h.timers
  obtain ⟨r', htmr', hr'⟩ := h'.timers
  refine ⟨h'.una.trans h.una, h'.buf.trans h.buf, h'.wnd.trans h.wnd, h'.cc.trans h.cc,
    h'.rto.trans h.rto, h.flight.trans h'.flight, h'.flight_le, r', ?_, ?_⟩
  · rw [htmr', htmr]
  · rcases hr' with hr' | hr'
    · rw [htmr] at hr'
      exact hr' ▸ hr
    · exact .inr hr'

lemma Rounds.refl (h : c.FlightFits) : Rounds now c c :=
  ⟨rfl, rfl, rfl, rfl, rfl, le_rfl, h, _, rfl, .inl rfl⟩

section

variable (hfl : c.FlightFits)

include hfl

section

variable (hrto : 0 < c.rtt.rto)

include hrto

lemma rounds_sendData (now : ℕ) : Rounds now c (c.sendData c.sendable now) := by
  have hle := c.sendable_le
  have hflight := inFlight_sendData hfl now
  obtain ⟨rtt, stats, d, heq, hsame, hd⟩ := c.sendData_eq c.sendable now
  rw [heq] at hflight ⊢
  refine ⟨rfl, rfl, rfl, rfl, hsame, by omega, ?_, d, rfl, (hd.2 hrto).2⟩
  change _ ≤ c.snd.buf.len + 1
  omega

lemma rounds_sendFin (now : ℕ) : Rounds now c (c.sendFin now) := by
  by_cases hdue : c.finDue
  · have hflight := inFlight_sendFin hfl hdue now
    obtain ⟨rtt, stats, d, heq, hsame, hd⟩ := c.sendFin_eq hdue now
    simp only [finDue, Bool.and_eq_true, beq_iff_eq] at hdue
    rw [heq] at hflight ⊢
    refine ⟨rfl, rfl, rfl, rfl, hsame, by omega, ?_, d, rfl, (hd.2 hrto).2⟩
    change _ ≤ c.snd.buf.len + 1
    omega
  · rw [c.sendFin_of_not_due (by simpa using hdue)]
    exact .refl hfl

lemma rounds_sendLoop (now fuel : ℕ) : Rounds now c (sendLoop now fuel c) :=
  sendLoop_rule (fun _ _ h => h.trans (rounds_sendData h.flight_le (h.rto ▸ hrto) now)) (.refl hfl) fuel

lemma sendable_sendLoop_of_fuel
    {fuel : ℕ} (hfuel : c.snd.buf.len - c.inFlight.toNat ≤ fuel) (now : ℕ) :
    (sendLoop now fuel c).sendable = 0 := by
  induction fuel generalizing c with
  | zero =>
    have hle := c.sendable_le
    rw [sendLoop]
    omega
  | succ fuel ih =>
    rw [sendLoop]
    split
    · assumption
    rename_i hn
    have hone := rounds_sendData hfl hrto now
    refine ih hone.flight_le (hone.rto ▸ hrto) ?_
    rw [inFlight_sendData hfl now, hone.buf]
    omega

lemma rounds_trySend (now : ℕ) : Rounds now c (c.trySend now) := by
  unfold trySend
  split
  · have hloop := rounds_sendLoop hfl hrto now c.snd.buf.len
    exact hloop.trans (rounds_sendFin hloop.flight_le (hloop.rto ▸ hrto) now)
  · exact .refl hfl

lemma flushed_trySend (now : ℕ) : Flushed (c.trySend now) := by
  unfold trySend
  split
  · set d := sendLoop now c.snd.buf.len c
    have hloop : Rounds now c d := rounds_sendLoop hfl hrto now c.snd.buf.len
    have hempty : d.sendable = 0 := sendable_sendLoop_of_fuel hfl hrto (Nat.sub_le _ _) now
    intro _
    by_cases hdue : d.finDue
    · -- after the FIN more is in flight than there are bytes in the buffer
      have hflight := inFlight_sendFin hloop.flight_le hdue now
      have hbuf := (rounds_sendFin hloop.flight_le (hloop.rto ▸ hrto) now).buf
      have hle := (d.sendFin now).sendable_le
      have hall := hdue
      simp only [finDue, Bool.and_eq_true, beq_iff_eq] at hall
      refine ⟨?_, ?_⟩
      · rw [hbuf] at hle
        omega
      · simp [finDue, d.sendFin_snd hdue]
    · rw [d.sendFin_of_not_due (by simpa using hdue)]
      exact ⟨hempty, by simpa using hdue⟩
  · next hcan => exact flushed_of_not_canSend (by simpa using hcan)

end

end

lemma flushed_inputSegment (ht : TimerInv c) (hr : RoomInv c) (h : Flushed c) (s : Segment)
    (iss : UInt32) (now : ℕ) : Flushed (c.inputSegment s iss now) := by
  have hnote : Moves now c (c.noteSegment now) := (Trigger.noteSegment c).moves
  have hflush : ∀ {d : Conn}, Moves now c d → Flushed (d.trySend now) := fun {d} hm => by
    obtain ⟨ht', hr'⟩ := timers_moves ⟨ht, hr⟩ hm
    exact flushed_trySend ht'.flight hr'.rto now
  unfold inputSegment
  dsimp only
  split
  · unfold inputRst
    split
    · exact flushed_of_not_canSend rfl
    · exact h.of_eq rfl rfl rfl
  · split
    · next hst =>
      unfold inputListen
      split
      · exact flushed_of_not_canSend rfl
      · exact h.of_eq rfl rfl rfl
    · next hst =>
      unfold inputSynSent
      split_ifs
      · exact h.of_eq rfl rfl rfl
      · refine hflush ((hnote.tail (.inr (.answer _ s hst))).tail (.inl (.sendAck _)))
      · exact h.of_eq rfl rfl rfl
    · unfold inputOther
      split
      · refine hflush (hnote.trans (Acts.moves ?_))
        exact ((acts_inputAck _ s now).trans (acts_inputSeq _ s now)).tail (.finAcked _)
      · exact h.of_eq rfl rfl rfl

lemma flushed_tickRto (ht : TimerInv c) (hr : RoomInv c) (now : ℕ) : Flushed (c.tickRto now).1 := by
  unfold tickRto
  split_ifs with hdue
  · exact flushed_of_not_canSend rfl
  · obtain ⟨ht', hr'⟩ := timers_moves ⟨ht, hr⟩ (Trigger.retransmit c hdue).moves
    exact flushed_trySend ht'.flight hr'.rto now
  · exact flushed_trySend ht.flight hr.rto now

/-- Nothing is left to send after a call. -/
theorem Flushed.step (h : Flushed c) (ht : TimerInv c) (hr : RoomInv c) (call : Call) :
    Flushed (c.step call) := by
  cases call with
  | input pkt iss now =>
    have hstamp : TimerInv (c.stamp now) ∧ RoomInv (c.stamp now) :=
      timers_moves ⟨ht, hr⟩ (Trigger.stamp c : Trigger now _ _).moves
    change Flushed (c.tcpInput pkt iss now)
    unfold tcpInput
    dsimp only
    split
    · exact h.of_eq rfl rfl rfl
    · exact h.of_eq rfl rfl rfl
    · exact flushed_inputSegment hstamp.1 hstamp.2 (h.of_eq rfl rfl rfl) _ iss now
  | tick now =>
    have hidle := timers_moves ⟨ht, hr⟩ (c.moves_idleView now)
    change Flushed ((c.idleView now).tickKeepalive now).1
    unfold tickKeepalive
    split_ifs
    · exact flushed_of_not_canSend rfl
    · obtain ⟨ht', hr'⟩ := timers_moves hidle (Trigger.probe (c.idleView now)).moves
      exact flushed_tickRto ht' hr' now
    · exact flushed_tickRto hidle.1 hidle.2 now
  | write buf now =>
    change Flushed (c.tcpWrite buf now).1
    unfold tcpWrite
    dsimp only
    split_ifs with hq hst
    · exact h.of_eq rfl rfl rfl
    · exact h.of_eq rfl rfl rfl
    obtain ⟨ht', hr'⟩ := timers_moves ⟨ht, hr⟩ (moves_sndPush hst hq _)
    exact flushed_trySend ht'.flight hr'.rto now
  | read cap =>
    have hread := c.recvOnly_tcpRead cap
    refine h.of_eq hread.keepsSend.snd ?_ hread.state
    change (c.tcpRead cap).1.cc = c.cc
    unfold tcpRead
    dsimp only
    split <;> rfl
  | shutdownWrite now =>
    change Flushed (c.tcpShutdownWrite now).1
    unfold tcpShutdownWrite
    split_ifs
    · exact h
    · exact h
    · have hfl : c.queueFin.inFlight.toNat ≤ c.queueFin.snd.buf.len + 1 := ht.flight
      exact flushed_trySend hfl hr.rto now
  | abort now =>
    change Flushed (c.tcpAbort now)
    unfold tcpAbort
    split
    · exact h
    · exact flushed_of_not_canSend rfl

/-! ## The first deadline -/

lemma lt_nextDeadline_iff :
    t < c.nextDeadline ↔ t < noDeadline ∧
      (c.tmr.rtoDeadline ≠ 0 → t < c.tmr.rtoDeadline) ∧
      (c.tmr.delackDeadline ≠ 0 → t < c.tmr.delackDeadline) ∧
      (c.tmr.timewaitDeadline ≠ 0 → t < c.tmr.timewaitDeadline) ∧
      (c.kaActive → t < c.tmr.kaDeadline) := by
  have hpick : ∀ (p : Prop) [Decidable p] (x d : ℕ),
      t < (if p ∧ x < d then x else d) ↔ t < d ∧ (p → t < x) := by
    intro p _ x d
    by_cases hp : p
    · by_cases hx : x < d
      · rw [if_pos ⟨hp, hx⟩]
        exact ⟨fun h => ⟨h.trans hx, fun _ => h⟩, fun h => h.2 hp⟩
      · rw [if_neg fun h => hx h.2]
        exact ⟨fun h => ⟨h, fun _ => by omega⟩, fun h => h.1⟩
    · rw [if_neg fun h => hp h.1]
      exact ⟨fun h => ⟨h, fun hp' => absurd hp' hp⟩, fun h => h.1⟩
  unfold nextDeadline
  rw [hpick, hpick, hpick, hpick]
  tauto

lemma tcpTick_of_lt (h : Flushed c) (ht : t < c.nextDeadline) : c.tcpTick t = (c.stamp t, .ok) := by
  obtain ⟨-, hrto, hdelack, htw, hka⟩ := lt_nextDeadline_iff.mp ht
  have hno : ∀ {x : ℕ}, (x ≠ 0 → t < x) → ¬(x ≠ 0 ∧ t ≥ x) := fun h hc =>
    absurd (h hc.1) (not_lt.mpr hc.2)
  have htimewait : (c.stamp t).tickTimewait t = c.stamp t := if_neg (hno htw)
  have hack : (c.stamp t).tickDelack t = c.stamp t := if_neg (hno hdelack)
  have hidle : (c.stamp t).kaDue t = false := by
    by_contra hdue
    simp only [kaDue, Bool.not_eq_false, Bool.and_eq_true, decide_eq_true_eq] at hdue
    exact absurd (hka hdue.1) (not_lt.mpr hdue.2)
  have hresend : (c.stamp t).rtoDue t = false := by
    by_contra hdue
    simp only [rtoDue, Bool.not_eq_false, Bool.and_eq_true, decide_eq_true_eq, bne_iff_ne] at hdue
    exact hno hrto hdue
  have hstamp : Flushed (c.stamp t) := h.of_eq rfl rfl rfl
  have hsend : (c.stamp t).trySend t = c.stamp t := trySend_eq_self hstamp t
  unfold tcpTick
  rw [htimewait, hack, tickKeepalive, hidle, if_neg Bool.false_ne_true, tickRto, hresend,
    if_neg Bool.false_ne_true, hsend]

/-- A timer is off or ahead of `now`. -/
def Ahead (now deadline : ℕ) : Prop := deadline ≠ 0 → now < deadline

/-- The timers that a tick has already seen to when it comes to the retransmission timer. -/
structure Seen (now : ℕ) (c : Conn) : Prop where
  delack : Ahead now c.tmr.delackDeadline
  timewait : Ahead now c.tmr.timewaitDeadline
  ka : c.kaActive → now < c.tmr.kaDeadline

lemma kaActive_finState {c c' : Conn} (hst : c'.state = c.state ∨ c'.state = finState c.state)
    (hka : c'.tmr.kaDeadline = c.tmr.kaDeadline) (hact : c'.kaActive) : c.kaActive := by
  unfold kaActive at hact ⊢
  rw [hka] at hact
  rcases hst with hst | hst
  · rwa [hst] at hact
  · rw [hst] at hact
    cases hs : c.state <;> rw [hs] at hact <;> simp_all [finState]

lemma lt_nextDeadline_trySend (hfl : c.FlightFits) (hrto : 0 < c.rtt.rto)
    (hnow : now < noDeadline) (h : Seen now c) (hahead : Ahead now c.tmr.rtoDeadline) :
    now < (c.trySend now).nextDeadline := by
  obtain ⟨r, htmr, hr⟩ := (rounds_trySend hfl hrto now).timers
  have hst := (c.trySend_state now).imp_right And.right
  refine lt_nextDeadline_iff.mpr ⟨hnow, ?_, ?_, ?_, fun hact => ?_⟩
  · rw [htmr]
    exact fun hne => hr.elim (fun heq => heq ▸ hahead (heq ▸ hne)) id
  · rw [htmr]
    exact h.delack
  · rw [htmr]
    exact h.timewait
  · rw [htmr]
    exact h.ka (kaActive_finState hst (by rw [htmr]) hact)

lemma lt_nextDeadline_tickRto (ht : TimerInv c) (hr : RoomInv c) (hnow : now < noDeadline)
    (h : Seen now c) (hopen : (c.tickRto now).1.state ≠ .closed) :
    now < (c.tickRto now).1.nextDeadline := by
  unfold tickRto at hopen ⊢
  split_ifs at hopen ⊢ with hdue hgive
  · exact absurd rfl hopen
  · -- the timer was due and is armed again
    obtain ⟨ht', hr'⟩ := timers_moves ⟨ht, hr⟩ (Trigger.retransmit c hdue).moves
    obtain ⟨rtt, stats, out, heq, -⟩ := c.backOff.resend_eq now
    have hpos : 0 < (c.backOff.resend now).currentRto := by
      refine currentRto_pos ?_
      exact hr'.rto
    refine lt_nextDeadline_trySend ht'.flight hr'.rto hnow ?_ fun _ => ?_
    · rw [retransmit, heq]
      exact ⟨h.delack, h.timewait, h.ka⟩
    · exact Nat.lt_add_of_pos_right hpos
  · refine lt_nextDeadline_trySend ht.flight hr.rto hnow h fun hne => ?_
    by_contra hlt
    refine hdue ?_
    simp only [rtoDue, Bool.and_eq_true, bne_iff_ne, decide_eq_true_eq]
    exact ⟨hne, not_lt.mp hlt⟩

lemma lt_nextDeadline_tcpTick (ht : TimerInv c) (hr : RoomInv c) (hnow : now < noDeadline)
    (hopen : (c.tcpTick now).1.state ≠ .closed) : now < (c.tcpTick now).1.nextDeadline := by
  have hidle := timers_moves ⟨ht, hr⟩ (c.moves_idleView now)
  have hdelack : Ahead now (c.idleView now).tmr.delackDeadline := by
    intro hne
    unfold idleView tickDelack at hne ⊢
    split_ifs at hne ⊢ with hdue
    · exact absurd rfl hne
    · exact not_le.mp fun hle => hdue ⟨hne, hle⟩
  have htw : Ahead now (c.idleView now).tmr.timewaitDeadline := by
    have heq : (c.idleView now).tmr.timewaitDeadline =
        ((c.stamp now).tickTimewait now).tmr.timewaitDeadline := by
      unfold idleView tickDelack
      split <;> rfl
    rw [heq]
    intro hne
    unfold tickTimewait at hne ⊢
    split_ifs at hne ⊢ with hdue
    · exact absurd rfl hne
    · exact not_le.mp fun hle => hdue ⟨hne, hle⟩
  change ((c.idleView now).tickKeepalive now).1.state ≠ .closed at hopen
  change now < ((c.idleView now).tickKeepalive now).1.nextDeadline
  unfold tickKeepalive at hopen ⊢
  split_ifs at hopen ⊢ with hdue hgive
  · exact absurd rfl hopen
  · obtain ⟨ht', hr'⟩ := timers_moves hidle (Trigger.probe (c.idleView now)).moves
    exact lt_nextDeadline_tickRto ht' hr' hnow
      ⟨hdelack, htw, fun _ => Nat.lt_add_of_pos_right (by decide)⟩ hopen
  · refine lt_nextDeadline_tickRto hidle.1 hidle.2 hnow ⟨hdelack, htw, fun hact => ?_⟩ hopen
    by_contra hlt
    refine hdue ?_
    simp only [kaDue, Bool.and_eq_true, decide_eq_true_eq]
    exact ⟨hact, not_lt.mp hlt⟩

lemma flushed_of_run (hc : Opened c) (calls : List Call) :
    TimerInv (calls.foldl step c) ∧ RoomInv (calls.foldl step c) ∧
      Flushed (calls.foldl step c) := by
  refine Run.foldl_invariant (I := fun c => TimerInv c ∧ RoomInv c ∧ Flushed c)
    ⟨.of_opened hc, .of_opened hc, ?_⟩ (fun c call h => ?_) calls
  · refine flushed_of_not_canSend ?_
    cases hc <;> rfl
  · obtain ⟨ht, hr⟩ := timers_step ⟨h.1, h.2.1⟩ call
    exact ⟨ht, hr, h.2.2.step h.1 h.2.1 call⟩

/-! ## How far ahead a deadline is -/

/-- Up to the time `t` no timer has been set for later than `RTO_MAX` after it. -/
structure Near (t : ℕ) (c : Conn) : Prop where
  lastNow : c.lastNow ≤ t
  rto : c.tmr.rtoDeadline ≤ t + rtoMax
  delack : c.tmr.delackDeadline ≤ t + rtoMax
  timewait : c.tmr.timewaitDeadline ≤ t + rtoMax
  ka : c.tmr.kaDeadline ≤ t + rtoMax

namespace Near

lemma set (hnow : now ≤ t) {wait : ℕ} (h : wait ≤ rtoMax) : now + wait ≤ t + rtoMax :=
  Nat.add_le_add hnow h

lemma handleAck (hnow : now ≤ t) (h : Near t c) (ack : UInt32) : Near t (c.handleAck ack now) := by
  refine c.handleAck_elim ack now ?_ ?_
  · intros
    exact ⟨h.1, h.2, h.3, h.4, h.5⟩
  · intro _ _ _ _ _ _ hd
    exact ⟨h.1, hd.trans (Nat.add_le_add_right hnow _), h.3, h.4, h.5⟩

lemma action (hnow : now ≤ t) (hact : Action now c c') (h : Near t c) : Near t c' := by
  cases hact.effect with
  | sendAck | countFin | closeWait | closing => exact ⟨h.1, h.2, Nat.zero_le _, h.4, h.5⟩
  | handleAck ack => exact h.handleAck hnow ack
  | take s rcv stats d hno hrcv hfin hd =>
    refine ⟨h.1, h.2, ?_, h.4, h.5⟩
    obtain ⟨-, rfl⟩ | ⟨-, rfl⟩ := hd
    · exact h.3
    · exact set hnow (by decide)
  | timeWait => exact ⟨h.1, h.2, Nat.zero_le _, set hnow (by decide), h.5⟩
  | lastWait => exact ⟨h.1, h.2, h.3, set hnow (by decide), h.5⟩
  | sendData rtt stats d hst hn hrto hd | sendFin rtt stats d hst hdue hrto hd =>
    refine ⟨h.1, ?_, h.3, h.4, h.5⟩
    exact hd.1.elim (fun heq => heq ▸ h.2) (·.trans (Nat.add_le_add_right hnow _))
  | _ => exact ⟨h.1, h.2, h.3, h.4, h.5⟩

lemma trigger (hnow : now ≤ t) (htrig : Trigger now c c') (h : Near t c) : Near t c' := by
  cases htrig with
  | stamp => exact ⟨hnow, h.2, h.3, h.4, h.5⟩
  | noteSegment | probe => exact ⟨h.1, h.2, h.3, h.4, set hnow (by decide)⟩
  | listen => exact ⟨h.1, set hnow (currentRto_le _), h.3, h.4, h.5⟩
  | answer s hst =>
    have hs : Near t (c.synchronise s) := ⟨h.1, h.2, h.3, h.4, h.5⟩
    have hack := hs.handleAck hnow s.ack
    exact ⟨hack.1, hack.2, hack.3, hack.4, hack.5⟩
  | timewait => exact ⟨h.1, h.2, h.3, Nat.zero_le _, h.5⟩
  | giveUpIdle => exact ⟨h.1, h.2, h.3, h.4, Nat.zero_le _⟩
  | giveUpRto => exact ⟨h.1, Nat.zero_le _, h.3, h.4, h.5⟩
  | retransmit hdue =>
    obtain ⟨rtt, stats, out, heq, -⟩ := c.backOff.resend_eq now
    rw [retransmit, heq]
    exact ⟨h.1, set hnow (currentRto_le _), h.3, h.4, h.5⟩
  | abort => exact ⟨h.1, Nat.zero_le _, Nat.zero_le _, Nat.zero_le _, h.5⟩
  | _ => exact ⟨h.1, h.2, h.3, h.4, h.5⟩

end Near

/-- In every state of every run, a tick before the reported deadline records the time and does
nothing else; and a tick at any time, unless it closes the connection, moves the reported deadline
past that time. `UINT64_MAX` is no time: it is the deadline of a connection that waits for none. No
timer is set for later than `RTO_MAX` after the time of a call; as long as that is below `2 ^ 64`, the
clocks of the source do not wrap. -/
theorem tick_deadline (hc : Opened c) (calls : List Call) :
    let d := calls.foldl step c
    (∀ t, Near t c → Run.Ok step (fun c call => call.time c ≤ t) c calls → Near t d) ∧
    (∀ t < d.nextDeadline, d.tcpTick t = (d.stamp t, .ok)) ∧
      ∀ now < noDeadline, (d.tcpTick now).1.state ≠ .closed →
        now < (d.tcpTick now).1.nextDeadline ∧
          ∀ t < (d.tcpTick now).1.nextDeadline,
            (d.tcpTick now).1.tcpTick t = ((d.tcpTick now).1.stamp t, .ok) := by
  intro d
  obtain ⟨ht, hr, hf⟩ := flushed_of_run hc calls
  refine ⟨fun t hnear hrun => ?_, fun t hlt => tcpTick_of_lt hf hlt, fun now hnow hstill => ?_⟩
  · exact hrun.invariant hnear fun c call h hle =>
      (c.moves_step call).invariant (Near.action hle) (Near.trigger hle) h
  have hafter : Flushed (d.tcpTick now).1 := hf.step ht hr (.tick now)
  exact ⟨lt_nextDeadline_tcpTick ht hr hnow hstill, fun t hlt => tcpTick_of_lt hafter hlt⟩

/-- A connection with a byte in flight, ticked before and at its deadline. -/
theorem tick_deadline_in_flight :
    let d := [Call.input synAckPacket 0 2, .write [7] 3].foldl step justConnected
    d.tcpTick 4 = (d.stamp 4, .ok) ∧ d.nextDeadline = 1003 ∧
      1003 < (d.tcpTick 1003).1.nextDeadline := by
  have h := tick_deadline (c := justConnected) (.connect ..)
    [Call.input synAckPacket 0 2, .write [7] 3]
  exact ⟨h.2.1 4 (by decide +kernel), by decide +kernel, (h.2.2 1003 (by decide) (by decide +kernel)).1⟩

end Tcp
