import Tailcat.Tcp.Deadlines

/-!
# Retransmissions and what was sent

A retransmission sends the first segment of the send buffer whole, whether all of it has been sent
before or not, and leaves `snd_nxt` where it is. If less than that was in flight and the windows do not
let `try_send` catch up, bytes lie on the wire that cannot be acknowledged.

## Main results

* `sent_before_nxt_iff`: in a run all payload lies before `snd_nxt` after every call iff every
  retransmission is covered by what is in flight or by the window;
* `sent_past_nxt`: a run with a retransmission that is not.
-/

namespace Tcp

open SerialNumber Conn

variable {c c' d e : Conn} {s : Segment} {now n f : ℕ} {una : UInt32}

/-! ## Payload at or before `snd_nxt` -/

def Segment.stop (s : Segment) : UInt32 := s.seq + UInt32.ofNat s.data.length

/-- The payload of a segment, if it has one, ends at most `f` places after `una`. -/
def Reaches (una : UInt32) (f : ℕ) (s : Segment) : Prop :=
  s.data ≠ [] → ∃ e ≤ f, s.stop = place una e

/-- The payload that goes out between `c` and `c'` lies before `snd_nxt` of `c'`: an
acknowledgement of it will be taken. -/
def SentWithin (c c' : Conn) : Prop :=
  ∀ s ∈ newOut c c', s.data ≠ [] → seqLe s.stop c'.snd.nxt

lemma Reaches.mono {f' : ℕ} (h : Reaches una f s) (hle : f ≤ f') : Reaches una f' s := by
  intro hne
  obtain ⟨e, he, hstop⟩ := h hne
  exact ⟨e, he.trans hle, hstop⟩

lemma reaches_of_data (h : s.data = []) : Reaches una f s := fun hne => absurd h hne

lemma emits_reaches_of_bare (h : Emits Segment.Bare c c') : Emits (Reaches una f) c c' :=
  h.mono fun _ hs => reaches_of_data hs.data

lemma seqLe_stop (hf : c.inFlight.toNat < 2 ^ 31) (hn : n < 2 ^ 31)
    (hstop : s.stop = place c.snd.una n) :
    seqLe s.stop c.snd.nxt = decide (n ≤ c.inFlight.toNat) := by
  have hnxt : c.snd.nxt = place c.snd.una c.inFlight.toNat := eq_place _ _
  rw [hstop, hnxt, seqLe_place _ (by omega) (by omega)]

lemma sentWithin_of_emits (hf : c'.inFlight.toNat < 2 ^ 31)
    (h : Emits (Reaches c'.snd.una c'.inFlight.toNat) c c') : SentWithin c c' := by
  intro s hs hne
  obtain ⟨e, he, hstop⟩ := h.mem_newOut hs hne
  rw [seqLe_stop hf (by omega) hstop]
  exact decide_eq_true he

lemma sentWithin_resent_iff {r : Segment} (hf : c'.inFlight.toNat < 2 ^ 31)
    (hbefore : Emits (Reaches c'.snd.una c'.inFlight.toNat) c d) (hout : e.out = d.out ++ [r])
    (hafter : Emits (Reaches c'.snd.una c'.inFlight.toNat) e c') (hne : r.data ≠ [])
    (hn : n < 2 ^ 31) (hstop : r.stop = place c'.snd.una n) :
    SentWithin c c' ↔ n ≤ c'.inFlight.toNat := by
  constructor
  · intro h
    obtain ⟨l, hl, -⟩ := hbefore
    obtain ⟨l', hl', -⟩ := hafter
    have hmem : r ∈ newOut c c' := by
      rw [newOut, hl', hout, hl]
      simp
    have hle := h r hmem hne
    rw [seqLe_stop hf hn hstop] at hle
    exact of_decide_eq_true hle
  · intro hle
    refine sentWithin_of_emits hf ((hbefore.trans ?_).trans hafter)
    exact .of_out_append hout fun _ => ⟨n, hle, hstop⟩

/-! ## What `try_send` sends -/

lemma reaches_sendData (hfl : c.FlightFits) (now : ℕ) :
    Emits (Reaches c.snd.una (c.sendData c.sendable now).inFlight.toNat) c
      (c.sendData c.sendable now) := by
  refine .of_out_append (c.sendData_out _ now) fun _ => ⟨_, le_rfl, ?_⟩
  have hnxt : c.snd.nxt = place c.snd.una c.inFlight.toNat := eq_place _ _
  change c.snd.nxt + UInt32.ofNat (c.snd.buf.peek _ _).length = _
  rw [inFlight_sendData hfl now, RingBuffer.length_peek, ← place_add_ofNat, ← hnxt]

lemma reaches_sendLoop (hfl : c.FlightFits) (hrto : 0 < c.rtt.rto) (now fuel : ℕ) :
    Emits (Reaches c.snd.una (sendLoop now fuel c).inFlight.toNat) c (sendLoop now fuel c) := by
  induction fuel generalizing c with
  | zero => exact .refl c
  | succ fuel ih =>
    rw [sendLoop]
    split
    · exact .refl c
    have hone := rounds_sendData hfl hrto now
    have hrest := rounds_sendLoop hone.flight_le (hone.rto ▸ hrto) now fuel
    have hih := ih hone.flight_le (hone.rto ▸ hrto)
    rw [hone.una] at hih
    exact ((reaches_sendData hfl now).mono fun _ hs => hs.mono hrest.flight).trans hih

lemma reaches_trySend (hfl : c.FlightFits) (hrto : 0 < c.rtt.rto) (now : ℕ) :
    Emits (Reaches c.snd.una (c.trySend now).inFlight.toNat) c (c.trySend now) := by
  unfold trySend
  split
  · set d := sendLoop now c.snd.buf.len c
    have hloop : Rounds now c d := rounds_sendLoop hfl hrto now _
    have hfin := rounds_sendFin hloop.flight_le (hloop.rto ▸ hrto) now
    refine ((reaches_sendLoop hfl hrto now _).mono fun _ hs => hs.mono hfin.flight).trans ?_
    by_cases hdue : d.finDue
    · exact .of_out_append (d.sendFin_out hdue now) (reaches_of_data rfl)
    · rw [d.sendFin_of_not_due (by simpa using hdue)]
      exact .refl d
  · exact .refl c

lemma sentWithin_trySend (h : TimerInv d ∧ RoomInv d)
    (hbefore : Emits (Reaches d.snd.una d.inFlight.toNat) c d) (now : ℕ) :
    SentWithin c (d.trySend now) := by
  have hall := rounds_trySend h.1.flight h.2.rto now
  refine sentWithin_of_emits (h.1.moves (acts_trySend d now).moves).flight_lt ?_
  rw [hall.una]
  exact (hbefore.mono fun _ hs => hs.mono hall.flight).trans
    (reaches_trySend h.1.flight h.2.rto now)

lemma inFlight_sendLoop_le (hfl : c.FlightFits) (hrto : 0 < c.rtt.rto) (now fuel : ℕ) :
    (sendLoop now fuel c).inFlight.toNat ≤ max c.inFlight.toNat (min c.snd.wnd c.cc.cwnd) := by
  induction fuel generalizing c with
  | zero => exact le_max_left _ _
  | succ fuel ih =>
    rw [sendLoop]
    split
    · exact le_max_left _ _
    have hone := rounds_sendData hfl hrto now
    have hwindow : c.inFlight.toNat + c.sendable ≤
        max c.inFlight.toNat (min c.snd.wnd c.cc.cwnd) := by
      unfold sendable
      dsimp only
      split_ifs <;> omega
    have hih := ih hone.flight_le (hone.rto ▸ hrto)
    rw [hone.wnd, hone.cc, inFlight_sendData hfl now] at hih
    omega

/-- The first segment of the buffer is in flight, or `try_send` can send all of it under a peer
window of `wnd`. -/
def Conn.Covered (c : Conn) (wnd : ℕ) : Prop :=
  c.first ≤ c.inFlight.toNat ∨ (canSend c.state ∧ c.first ≤ wnd)
deriving Decidable

/-- After `try_send` the first segment is in flight iff it was, or the peer's window lets it be. -/
theorem trySend_reaches_iff (hfl : c.FlightFits) (hr : RoomInv c)
    (now : ℕ) : c.first ≤ (c.trySend now).inFlight.toNat ↔ c.Covered c.snd.wnd := by
  have hall := rounds_trySend hfl hr.rto now
  have hseg := hr.cc.cwnd_ge
  have hfirst : c.first ≤ c.snd.buf.len ∧ c.first ≤ mss := ⟨min_le_left _ _, min_le_right _ _⟩
  constructor
  · intro hle
    by_cases hin : c.first ≤ c.inFlight.toNat
    · exact .inl hin
    unfold trySend at hle
    split at hle
    · next hcan =>
      refine .inr ⟨hcan, ?_⟩
      set d := sendLoop now c.snd.buf.len c with hd
      have hloop : Rounds now c d := rounds_sendLoop hfl hr.rto now _
      have hbound : d.inFlight.toNat ≤ _ := inFlight_sendLoop_le hfl hr.rto now _
      by_contra hwnd
      -- then the whole buffer is not in flight, and the FIN is not due
      have hdue : d.finDue = false := by
        have hne : d.snd.buf.len ≠ d.inFlight.toNat := by
          rw [hloop.buf]
          omega
        simp [finDue, hne]
      rw [d.sendFin_of_not_due hdue] at hle
      omega
    · exact absurd hle hin
  · rintro (hin | ⟨hcan, hwnd⟩)
    · exact hin.trans hall.flight
    · have hloop := rounds_sendLoop hfl hr.rto now c.snd.buf.len
      have hempty := sendable_sendLoop_of_fuel hfl hr.rto (Nat.sub_le _ c.inFlight.toNat) now
      have hfin := rounds_sendFin hloop.flight_le (hloop.rto ▸ hr.rto) now
      unfold trySend
      rw [if_pos hcan]
      refine le_trans ?_ hfin.flight
      unfold sendable at hempty
      rw [hloop.wnd, hloop.cc, hloop.buf] at hempty
      dsimp only at hempty
      split_ifs at hempty <;> omega

/-! ## Ticks -/

/-- What the retransmission timer resends at `now` is covered. -/
def Conn.TimeoutCovered (c : Conn) (now : ℕ) : Prop :=
  c.rtoDue now → c.tmr.rtoBackoff < maxRetries → c.state ≠ .synSent → c.state ≠ .synReceived →
    c.snd.buf.len ≠ 0 → c.Covered c.snd.wnd
deriving Decidable

lemma stop_first (c : Conn) (flags : UInt8) :
    (c.buildSegment c.snd.una flags (c.snd.buf.peek 0 c.first)).stop = place c.snd.una c.first := by
  change c.snd.una + UInt32.ofNat (c.snd.buf.peek 0 c.first).length = _
  rw [RingBuffer.length_peek]
  rfl

lemma first_lt (c : Conn) : c.first < 2 ^ 31 := (min_le_right _ _).trans_lt (by decide)

lemma data_first_ne_nil (hlen : c.snd.buf.len ≠ 0) : c.snd.buf.peek 0 c.first ≠ [] := by
  have hpos : 0 < c.first := lt_min (Nat.pos_of_ne_zero hlen) (by decide)
  rw [← List.length_pos_iff, RingBuffer.length_peek]
  exact hpos

lemma resend_cases (c : Conn) (now : ℕ) :
    (c.state ≠ .synSent ∧ c.state ≠ .synReceived ∧ c.snd.buf.len ≠ 0 ∧
      c.resend now = c.sendFirst now) ∨
    (¬(c.state ≠ .synSent ∧ c.state ≠ .synReceived ∧ c.snd.buf.len ≠ 0) ∧
      Emits (fun s => s.data = []) c (c.resend now)) := by
  unfold resend
  split_ifs with hsent hrcvd hlen hfin
  · exact .inr ⟨fun h => h.1 hsent, .of_out_append rfl rfl⟩
  · exact .inr ⟨fun h => h.2.1 hrcvd, .of_out_append rfl rfl⟩
  · exact .inl ⟨hsent, hrcvd, hlen.ne', rfl⟩
  · exact .inr ⟨fun h => hlen (Nat.pos_of_ne_zero h.2.2), .of_out_append rfl rfl⟩
  · exact .inr ⟨fun h => hlen (Nat.pos_of_ne_zero h.2.2), .refl c⟩

lemma sentWithin_tickRto_iff (ht : TimerInv e) (hr : RoomInv e)
    (hbefore : Emits (Reaches e.snd.una e.inFlight.toNat) c e) (now : ℕ) :
    SentWithin c (e.tickRto now).1 ↔ e.TimeoutCovered now := by
  unfold tickRto
  split_ifs with hdue hgive
  · refine ⟨fun _ _ hlt => absurd hlt (not_lt.mpr hgive), fun _ => ?_⟩
    exact sentWithin_of_emits (ht.flight_lt) hbefore
  · obtain ⟨ht', hr'⟩ := timers_moves ⟨ht, hr⟩ (Trigger.retransmit e hdue).moves
    obtain ⟨hsnd, hst⟩ := retransmit_frame e now
    have hfl : (e.retransmit now).inFlight = e.inFlight := by rw [inFlight, hsnd]; rfl
    have hall := rounds_trySend ht'.flight hr'.rto now
    have hlt := (ht'.moves (acts_trySend _ now).moves).flight_lt
    have huna : ((e.retransmit now).trySend now).snd.una = e.snd.una := by rw [hall.una, hsnd]
    have hmono : e.inFlight.toNat ≤ ((e.retransmit now).trySend now).inFlight.toNat :=
      hfl ▸ hall.flight
    have hbefore' := hbefore.mono fun _ hs => hs.mono hmono
    have hafter := reaches_trySend ht'.flight hr'.rto now
    rw [hsnd] at hafter
    rcases resend_cases e.backOff now with ⟨hsent, hrcvd, hlen, heq⟩ | ⟨hno, hquiet⟩
    · have hout : (e.retransmit now).out = e.out ++
          [e.backOff.buildSegment e.snd.una (thAck ||| thPsh) (e.snd.buf.peek 0 e.first)] := by
        rw [retransmit, heq]
        rfl
      rw [← huna] at hbefore' hafter
      rw [sentWithin_resent_iff hlt hbefore' hout hafter (data_first_ne_nil hlen) (first_lt e)
        (by rw [huna]; exact stop_first e.backOff _)]
      have hiff := trySend_reaches_iff ht'.flight hr' now
      unfold Covered first at hiff
      rw [hsnd, hst, hfl] at hiff
      exact hiff.trans ⟨fun h _ _ _ _ _ => h, fun h => h hdue (not_le.mp hgive) hsent hrcvd hlen⟩
    · refine ⟨fun _ _ _ h1 h2 h3 => absurd ⟨h1, h2, h3⟩ hno, fun _ => ?_⟩
      refine sentWithin_trySend ⟨ht', hr'⟩ ?_ now
      rw [hsnd, hfl]
      exact hbefore.trans (hquiet.mono fun _ hs => reaches_of_data hs)
  · exact ⟨fun _ hd => absurd hd hdue, fun _ => sentWithin_trySend ⟨ht, hr⟩ hbefore now⟩

lemma idleView_state (ht : TimerInv c) (hrto : c.tmr.rtoDeadline ≠ 0) (now : ℕ) :
    (c.idleView now).state = c.state := by
  have hstep : ((c.stamp now).tickTimewait now).state = c.state := by
    unfold tickTimewait
    split
    · next hdue =>
      rcases ht.timewait hdue.1 with hst | hst
      · exact absurd (ht.idle (.inr hst)) (ht.rto hrto)
      · exact hst.symm
    · rfl
  rw [← hstep]
  unfold idleView tickDelack
  split <;> rfl

lemma sentWithin_tick_iff (ht : TimerInv c) (hr : RoomInv c) (now : ℕ) :
    SentWithin c (c.tcpTick now).1 ↔ (¬GivesUp c now → c.TimeoutCovered now) := by
  have hidle := timers_moves ⟨ht, hr⟩ (c.moves_idleView now)
  have hkeep := c.keepsSend_idleView now
  obtain ⟨hrto, hback, -⟩ := idleView_tmr c now
  set d := c.idleView now
  have hquiet : Emits (Reaches d.snd.una d.inFlight.toNat) c d := emits_reaches_of_bare hkeep.emits
  -- the condition is the same in the state in which the timer is looked at
  have hcond : ∀ e : Conn, e.snd = d.snd → e.state = d.state →
      e.tmr.rtoDeadline = d.tmr.rtoDeadline → e.tmr.rtoBackoff = d.tmr.rtoBackoff →
      (e.TimeoutCovered now ↔ c.TimeoutCovered now) := by
    intro e hsnd hst hdl hbo
    unfold TimeoutCovered
    by_cases hoff : c.tmr.rtoDeadline = 0
    · have hno : e.rtoDue now = false ∧ c.rtoDue now = false := by
        simp [rtoDue, hdl, hrto, hoff]
      simp [hno.1, hno.2]
    · have hstate : e.state = c.state := hst.trans (idleView_state ht hoff now)
      have hdue : e.rtoDue now = c.rtoDue now := by rw [rtoDue, rtoDue, hdl, hrto]
      unfold Covered first inFlight
      rw [hdue, hbo, hback, hstate, hsnd, hkeep.snd]
  change SentWithin c (d.tickKeepalive now).1 ↔ _
  unfold tickKeepalive
  split_ifs with hdue hgive
  · have hup : GivesUp c now := ⟨hdue, hgive⟩
    refine ⟨fun _ hno => absurd hup hno, fun _ => ?_⟩
    exact sentWithin_of_emits hidle.1.flight_lt hquiet
  · have hno : ¬GivesUp c now := fun hup => hgive hup.2
    obtain ⟨ht', hr'⟩ := timers_moves hidle (Trigger.probe d).moves
    have hprobe : Emits (Reaches d.snd.una d.inFlight.toNat) d (d.sendProbe now) := by
      refine .of_out_append rfl fun _ => ⟨d.inFlight.toNat, le_rfl, ?_⟩
      have hnxt : d.snd.nxt = place d.snd.una d.inFlight.toNat := eq_place _ _
      rw [← hnxt]
      exact sub_add_cancel d.snd.nxt 1
    rw [sentWithin_tickRto_iff ht' hr' (hquiet.trans hprobe) now,
      hcond (d.sendProbe now) rfl rfl rfl rfl]
    exact ⟨fun h _ => h, fun h => h hno⟩
  · have hno : ¬GivesUp c now := fun hup => hdue hup.1
    rw [sentWithin_tickRto_iff hidle.1 hidle.2 hquiet now, hcond d rfl rfl rfl rfl]
    exact ⟨fun h _ => h, fun h => h hno⟩

/-! ## Segments -/

/-- The states in which our FIN is out and the connection is still there. -/
def State.shuts : State → Bool
  | .finWait1 | .finWait2 | .closing | .timeWait | .lastAck => true
  | _ => false

/-- In these states our FIN has been asked for and sent. -/
def Shutting (c : Conn) : Prop := c.state.shuts → c.snd.finQueued ∧ c.snd.finSent

namespace Shutting

lemma of_eq (h : Shutting c) (hst : c'.state.shuts → c.state.shuts)
    (hq : c'.snd.finQueued = c.snd.finQueued) (hf : c'.snd.finSent = c.snd.finSent) :
    Shutting c' := fun hs => by
  rw [hq, hf]
  exact h (hst hs)

lemma action (hact : Action now c c') (h : Shutting c) : Shutting c' := by
  cases hact.effect with
  | handleAck ack =>
    obtain ⟨hq, hf, hst, -⟩ := c.handleAck_quiet ack now
    exact h.of_eq (by rw [hst]; exact id) hq hf
  | opened | closeWait | closed => nofun
  | closing _ hst | finWait2 _ hst | lastWait _ hst => exact fun _ => h (by rw [hst]; rfl)
  | timeWait _ hst => exact fun _ => h (by rcases hst with ⟨hst, -⟩ | hst <;> rw [hst] <;> rfl)
  | sendFin _ _ _ _ hdue =>
    simp only [finDue, Bool.and_eq_true] at hdue
    exact fun _ => ⟨hdue.1.1, rfl⟩
  | _ => exact h

lemma trigger (htrig : Trigger now c c') (h : Shutting c) : Shutting c' := by
  cases htrig with
  | rst | listen | answer | timewait | giveUpIdle | giveUpRto | abort => nofun
  | retransmit hdue =>
    obtain ⟨hsnd, hst⟩ := retransmit_frame c now
    exact h.of_eq (by rw [hst]; exact id) (by rw [hsnd]) (by rw [hsnd])
  | queueFin hst => exact fun hs => ⟨rfl, (h hs).2⟩
  | _ => exact h

lemma step (h : Shutting c) (call : Call) : Shutting (c.step call) :=
  (c.moves_step call).invariant action trigger h

lemma of_opened (h : Opened c) : Shutting c := by
  cases h <;> nofun

end Shutting

lemma canSend_inputSeq (hne : c.inFlight ≠ 0) (ht : TimerInv c) (s : Segment) (now : ℕ) :
    ((c.inputSeq s now).state = c.state) ∨
      (c.state = .established ∧ (c.inputSeq s now).state = .closeWait) ∨
      (c.state = .finWait1 ∧ (c.inputSeq s now).state = .closing) := by
  let d := (c.acceptPayload s now).answerProbe s now
  have hst : d.state = c.state := (c.recvOnly_payload s now).state
  have hsnd : d.snd = c.snd := (c.recvOnly_payload s now).keepsSend.snd
  have hseq : c.inputSeq s now = d.acceptFin s now := rfl
  rw [hseq]
  unfold acceptFin
  split
  · rcases (d.countFin.sendAck now).closeRead_cases now with
      ⟨-, heq⟩ | ⟨hold, heq⟩ | ⟨hold, heq⟩ | ⟨hold, heq⟩
    · rw [heq]
      exact .inl hst
    · rw [heq]
      exact .inr (.inl ⟨hst ▸ hold, rfl⟩)
    · rw [heq]
      exact .inr (.inr ⟨hst ▸ hold, rfl⟩)
    · -- with something in flight there is no way to `TIME_WAIT`
      rcases hold with ⟨-, hge⟩ | hold
      · refine absurd (ht.inFlight_eq_zero ?_) hne
        rw [← hsnd]
        exact hge
      · exact absurd (ht.idle (.inl (hst ▸ hold))) hne
  · exact .inl hst

/-- The send half of a connection in a run: the invariants that its calls rely on. -/
structure SendHalf (c : Conn) : Prop where
  timers : TimerInv c
  room : RoomInv c
  shutting : Shutting c
  reached : c.Reached

lemma SendHalf.of_eq (h : SendHalf c) (hm : Moves now c c') (hsnd : c'.snd = c.snd)
    (hst : c'.state = c.state) (hout : c'.out = c.out) : SendHalf c' := by
  obtain ⟨ht, hr⟩ := timers_moves ⟨h.timers, h.room⟩ hm
  refine ⟨ht, hr, h.shutting.of_eq (hst ▸ id) (by rw [hsnd]) (by rw [hsnd]), ?_⟩
  obtain ⟨w, rfl, hw⟩ := h.reached
  refine ⟨{ w with conn := c' }, rfl, fun hopen => ?_, fun hopen => ?_, fun s hs => ?_⟩
  · exact (hw.shaking hopen).of_eq hsnd (.inl hst)
  · rw [hst, hsnd]
    exact hw.aligned hopen
  · rw [hsnd]
    exact hw.fins s (hout ▸ hs)

lemma SendHalf.step (h : SendHalf c) (call : Call) : SendHalf (c.step call) := by
  obtain ⟨ht, hr⟩ := timers_step ⟨h.timers, h.room⟩ call
  exact ⟨ht, hr, h.shutting.step call, h.reached.step call⟩

lemma sendHalf_of_opened (h : Opened c) : SendHalf c :=
  ⟨.of_opened h, .of_opened h, .of_opened h, h.reached⟩

lemma SendHalf.synOut (h : SendHalf c) (hst : c.state = .synReceived ∨ c.state = .synSent) :
    ∃ W, SynOut W c.snd := by
  obtain ⟨w, rfl, hw⟩ := h.reached
  have hopen : w.opened = false := by
    by_contra hno
    obtain ⟨hpast, -⟩ := hw.aligned (by simpa using hno)
    rcases hst with hst | hst <;> rw [hst] at hpast <;> rcases hpast with hp | hp <;> cases hp
  exact ⟨_, (hw.shaking hopen).synOut hst.symm⟩

lemma SendHalf.first_le (h : SendHalf c) (hst : c.state = .finWait1) (hne : c.inFlight ≠ 0) :
    c.first ≤ c.inFlight.toNat := by
  have hfin := (h.shutting (hst ▸ rfl)).2
  obtain ⟨w, rfl, hw⟩ := h.reached
  have hall := flight_of_finSent hw hfin fun heq => hne (inFlight_eq_zero_of_eq heq)
  have hle : w.conn.first ≤ w.conn.snd.buf.len := min_le_left _ _
  omega

lemma ackView_cc (c : Conn) (s : Segment) (now : ℕ) : (c.ackView s now).cc = c.cc := by
  unfold ackView answerSyn
  split <;> rfl

lemma thirdDup_ackView : (c.ackView s now).ThirdDup s ↔ c.ThirdDup s := by
  rw [ThirdDup, inFlight, ackView_snd, ackView_cc]
  rfl

lemma sentWithin_inputOther_iff (h : SendHalf c) (s : Segment) (now : ℕ) :
    SentWithin c (c.inputOther s now) ↔ (s.acks → c.ThirdDup s → c.Covered s.wnd.toNat) := by
  cases hacks : s.acks with
  | false =>
    have heq : c.inputOther s now = c := if_neg (by simp [hacks])
    rw [heq]
    refine ⟨nofun, fun _ => sentWithin_of_emits h.timers.flight_lt (.refl c)⟩
  | true =>
    set a := c.ackView s now
    have hsnd : a.snd = { c.snd with wnd := s.wnd.toNat } := c.ackView_snd s now
    have hflight : a.inFlight = c.inFlight := by rw [inFlight, hsnd]; rfl
    have hbare : Emits Segment.Bare c a := c.emits_ackView s now
    set b := a.handleAck s.ack now
    set x := (b.synAcked.inputSeq s now).finAcked now with hx
    have heq : c.inputOther s now = x.trySend now := by
      unfold inputOther
      rw [hacks]
      rfl
    -- the invariants where `try_send` starts
    have hacts : Acts now c x :=
      ((acts_inputAck c s now).trans (acts_inputSeq _ s now)).tail (.finAcked _)
    have hmoves : Moves now c x := hacts.moves
    obtain ⟨ht', hr'⟩ := timers_moves ⟨h.timers, h.room⟩ hmoves
    have hlt := (ht'.moves (acts_trySend _ now).moves).flight_lt
    have hall := rounds_trySend ht'.flight hr'.rto now
    have hsend := reaches_trySend ht'.flight hr'.rto now
    have hsyn : Emits Segment.Bare b b.synAcked := by
      rcases b.synAcked_cases with heq | ⟨-, heq⟩ <;> rw [heq]
      · exact .refl b
      · exact .of_out_eq rfl
    have hseq : Emits Segment.Bare b x :=
      hsyn.trans (((keepsSend_inputSeq _ s now).trans (keepsSend_finAcked _ now)).emits)
    rw [heq]
    rw [← hall.una] at hsend
    rcases a.handleAck_sends s now with ⟨hthird, hkeep, hout⟩ | ⟨hno, hout⟩
    · have hlen := hthird.2.2.2.ne'
      replace hthird := thirdDup_ackView.mp hthird
      have hne : c.inFlight ≠ 0 := fun hz => by simpa [hz] using hthird.2.1
      -- neither `synAcked` nor `finAcked` moves while the SYN or something else is in flight
      have hbflight : b.inFlight = c.inFlight := by rw [← hflight, inFlight, hkeep]; rfl
      have hstb : b.state = c.state := (a.handleAck_state s.ack now).trans (c.ackView_state s now)
      have hnoSyn : b.synAcked = b := by
        rcases b.synAcked_cases with heq | ⟨hst, heq⟩
        · exact heq
        obtain ⟨W, hW⟩ := h.synOut (.inl (hstb ▸ hst))
        have hWa := synOut_ackView hW s now
        exact synAcked_of_synOut (by rw [hkeep]; exact hWa)
      have hbmoves : Acts now c b.synAcked := acts_inputAck c s now
      have htb : TimerInv b := hnoSyn ▸ h.timers.moves hbmoves.moves
      have hkeepSeq := keepsSend_inputSeq b s now
      have hnoFin : (b.inputSeq s now).finAcked now = b.inputSeq s now := by
        rcases (b.inputSeq s now).finAcked_cases now with heq | ⟨-, hge, -⟩
        · exact heq
        · rw [hkeepSeq.snd] at hge
          exact absurd (htb.inFlight_eq_zero hge) (hbflight ▸ hne)
      have hxb : x = b.inputSeq s now := by rw [hx, hnoSyn, hnoFin]
      have hxsnd : x.snd = { c.snd with wnd := s.wnd.toNat } := by
        rw [hxb, hkeepSeq.snd, hkeep, hsnd]
      have hxflight : x.inFlight = c.inFlight := by rw [inFlight, hxsnd]; rfl
      have hstop : (a.buildSegment a.snd.una (thAck ||| thPsh) (a.snd.buf.peek 0 a.first)).stop =
          place (x.trySend now).snd.una a.first := by
        rw [hall.una, hxsnd, stop_first, hsnd]
      rw [sentWithin_resent_iff hlt (emits_reaches_of_bare hbare) hout
        ((emits_reaches_of_bare hseq).trans hsend) (data_first_ne_nil hlen) (first_lt a) hstop]
      have hfirst : a.first = x.first := by rw [first, first, hsnd, hxsnd]
      have hcfirst : x.first = c.first := by rw [first, first, hxsnd]
      rw [hfirst, trySend_reaches_iff ht'.flight hr' now, Covered, hcfirst, hxflight, hxsnd]
      have hcan : c.first ≤ c.inFlight.toNat ∨ (canSend x.state ↔ canSend c.state) := by
        rw [hxb]
        rcases canSend_inputSeq (hbflight ▸ hne) htb s now with
          heq | ⟨hold, heq⟩ | ⟨hold, heq⟩
        · rw [heq, hstb]
          exact .inr Iff.rfl
        · rw [heq, ← hstb, hold]
          exact .inr ⟨fun _ => rfl, fun _ => rfl⟩
        · exact .inl (h.first_le (hstb ▸ hold) hne)
      rcases hcan with hle | hcan
      · exact ⟨fun _ _ _ => .inl hle, fun _ => .inl hle⟩
      · rw [hcan]
        exact ⟨fun hcov _ _ => hcov, fun hcov => hcov rfl hthird⟩
    · have hsame : Emits Segment.Bare a b := .of_out_eq hout
      refine ⟨fun _ _ hthird => absurd (thirdDup_ackView.mpr hthird) hno, fun _ => ?_⟩
      exact sentWithin_trySend ⟨ht', hr'⟩
        (emits_reaches_of_bare ((hbare.trans hsame).trans hseq)) now

/-- What the segment makes `handle_ack` resend is covered. A segment with RST, and one in a state
of the handshake, is handled elsewhere. -/
def Conn.AckCovered (c : Conn) (s : Segment) : Prop :=
  s.rst = false → c.state ≠ .listen → c.state ≠ .synSent → s.acks → c.ThirdDup s →
    c.Covered s.wnd.toNat
deriving Decidable

lemma sentWithin_inputSynSent (h : SendHalf c) (hst : c.state = .synSent) (s : Segment)
    (now : ℕ) : SentWithin c (c.inputSynSent s now) := by
  obtain ⟨W, hW⟩ := h.synOut (.inr hst)
  unfold inputSynSent
  split_ifs with hflags hack
  · refine sentWithin_of_emits h.timers.flight_lt (.of_out_append rfl (reaches_of_data rfl))
  · set x := sendAck { (c.synchronise s).handleAck s.ack now with state := .established } now
    have hmoves : Moves now c x := (Trigger.answer c s hst).moves.tail (.inl (.sendAck _))
    refine sentWithin_trySend (timers_moves ⟨h.timers, h.room⟩ hmoves) ?_ now
    refine .trans (.of_out_eq ?_) (.of_out_append rfl (reaches_of_data rfl))
    -- the acknowledgement of the SYN is no duplicate
    rcases (c.synchronise s).handleAck_sends s now with ⟨⟨hdup, -⟩, -⟩ | ⟨-, hout⟩
    · rw [not_not.mp hack] at hdup
      have hne : c.snd.iss + 1 = c.snd.iss := hdup.trans hW.una
      exact absurd hne (by simp)
    · exact hout
  · exact sentWithin_of_emits h.timers.flight_lt (.refl c)

lemma sentWithin_inputSegment_iff (h : SendHalf c) (s : Segment) (iss : UInt32) (now : ℕ) :
    SentWithin c (c.inputSegment s iss now) ↔ c.AckCovered s := by
  have hnote : SendHalf (c.noteSegment now) := h.of_eq (Trigger.noteSegment c).moves rfl rfl rfl
  unfold inputSegment
  dsimp only
  split
  · next hrst =>
    refine ⟨fun _ hno => absurd hrst (by simp [hno]), fun _ => ?_⟩
    unfold inputRst
    split <;> exact sentWithin_of_emits h.timers.flight_lt (.of_out_eq rfl)
  · next hrst =>
    split
    · next hst =>
      refine ⟨fun _ _ hno => absurd hst hno, fun _ => ?_⟩
      have ht := timers_moves ⟨h.timers, h.room⟩
        ((Trigger.noteSegment c).moves.trans (moves_inputListen hst s iss now))
      refine sentWithin_of_emits ht.1.flight_lt ?_
      unfold inputListen
      split
      · exact .of_out_append rfl (reaches_of_data rfl)
      · exact .of_out_eq rfl
    · next hst =>
      refine ⟨fun _ _ _ hno => absurd hst hno, fun _ => ?_⟩
      exact sentWithin_inputSynSent hnote hst s now
    · next hlis hsyn =>
      refine (sentWithin_inputOther_iff hnote s now).trans ?_
      exact ⟨fun hcov _ _ _ => hcov, fun hcov => hcov (by simpa using hrst) hlis hsyn⟩

/-! ## Runs -/

/-- Every retransmission that the call makes is covered by what is in flight, or by a window that
lets `try_send` catch up in the same call. -/
def Conn.ResendsCovered (c : Conn) (call : Call) : Prop :=
  call.Meets c (fun now => ¬GivesUp c now → c.TimeoutCovered now) c.AckCovered
deriving Decidable

lemma sentWithin_step_iff (h : SendHalf c) (call : Call) :
    SentWithin c (c.step call) ↔ c.ResendsCovered call := by
  have hquiet : ∀ c' : Conn, TimerInv c' → Emits Segment.Bare c c' → SentWithin c c' :=
    fun c' ht' hbare => sentWithin_of_emits ht'.flight_lt (emits_reaches_of_bare hbare)
  have hnext := h.timers.step call
  cases call with
  | input pkt iss now =>
    have hstamp : SendHalf (c.stamp now) :=
      h.of_eq (Trigger.stamp c : Trigger now _ _).moves rfl rfl rfl
    have hparse : parse (c.stamp now) pkt = parse c pkt := rfl
    change SentWithin c (c.tcpInput pkt iss now) ↔ _
    unfold tcpInput
    simp only [ResendsCovered, Call.Meets, hparse]
    cases parse c pkt with
    | ignored | badChecksum =>
      refine ⟨fun _ => trivial, fun _ => ?_⟩
      exact sentWithin_of_emits hstamp.timers.flight_lt (.of_out_eq rfl)
    | segment s => exact sentWithin_inputSegment_iff hstamp s iss now
  | tick now => exact sentWithin_tick_iff h.timers h.room now
  | write buf now =>
    refine ⟨fun _ => trivial, fun _ => ?_⟩
    change SentWithin c (c.tcpWrite buf now).1
    unfold tcpWrite
    dsimp only
    split_ifs with hq hst
    · exact sentWithin_of_emits h.timers.flight_lt (.of_out_eq rfl)
    · exact sentWithin_of_emits h.timers.flight_lt (.of_out_eq rfl)
    · exact sentWithin_trySend (timers_moves ⟨h.timers, h.room⟩ (moves_sndPush hst hq _))
        (.of_out_eq rfl) now
  | read cap =>
    exact ⟨fun _ => trivial, fun _ => hquiet _ hnext (c.recvOnly_tcpRead cap).keepsSend.emits⟩
  | shutdownWrite now =>
    refine ⟨fun _ => trivial, fun _ => ?_⟩
    change SentWithin c (c.tcpShutdownWrite now).1
    unfold tcpShutdownWrite
    split_ifs with hq hst
    · exact sentWithin_of_emits h.timers.flight_lt (.refl c)
    · exact sentWithin_of_emits h.timers.flight_lt (.refl c)
    · have hopen : c.state = .established ∨ c.state = .closeWait := by
        by_contra hno
        exact hst ⟨fun he => hno (.inl he), fun he => hno (.inr he)⟩
      have hmoves : Moves now c c.queueFin := (Trigger.queueFin c hopen).moves
      exact sentWithin_trySend (timers_moves ⟨h.timers, h.room⟩ hmoves) (.of_out_eq rfl) now
  | abort now =>
    refine ⟨fun _ => trivial, fun _ => sentWithin_of_emits hnext.flight_lt ?_⟩
    change Emits _ c (c.tcpAbort now)
    unfold tcpAbort
    split
    · exact .refl c
    · exact .of_out_append rfl (reaches_of_data rfl)

/-- A connection with the places of its sequence space counted without wrapping: `pos` is that of
`snd_nxt`, and `stops` are those right after the payload of each segment that was sent. -/
structure SeqWatch where
  conn : Conn
  pos : ℕ
  stops : List ℤ

namespace SeqWatch

def start (c : Conn) : SeqWatch := { conn := c, pos := 0, stops := [] }

/-- A call: `snd_nxt` moves forward, and each segment with payload stops a signed 32-bit distance
from it. -/
def step (w : SeqWatch) (call : Call) : SeqWatch :=
  let c := w.conn.step call
  let pos := w.pos + (c.snd.nxt - w.conn.snd.nxt).toNat
  { conn := c
    pos
    stops := w.stops ++ ((newOut w.conn c).filter fun s => s.data ≠ []).map fun s =>
      (pos : ℤ) + (s.stop - c.snd.nxt).toInt32.toInt }

/-- The acknowledgement number of the place `p`. -/
def ackOf (w : SeqWatch) (p : ℤ) : UInt32 := w.conn.snd.nxt + UInt32.ofInt (p - w.pos)

/-- All payload that was sent lies before `snd_nxt`, and an acknowledgement of any part of it is
not taken for one of something never sent, unless it is half the sequence space old. -/
structure Acknowledgeable (w : SeqWatch) : Prop where
  sent : ∀ e ∈ w.stops, e ≤ w.pos
  taken : ∀ e ∈ w.stops, ∀ p ≤ e, w.pos - p < 2 ^ 31 → seqGt (w.ackOf p) w.conn.snd.nxt = false

variable {w : SeqWatch}

lemma seqGt_ackOf {p : ℤ} (hp : p ≤ w.pos) (hold : w.pos - p < 2 ^ 31) :
    seqGt (w.ackOf p) w.conn.snd.nxt = false := by
  obtain ⟨k, hk⟩ := Int.eq_ofNat_of_zero_le (sub_nonneg.mpr hp)
  have hack : w.conn.snd.nxt = place (w.ackOf p) k := by
    have hneg : p - w.pos = -(k : ℤ) := by omega
    have hcast : UInt32.ofInt (k : ℤ) = UInt32.ofNat k := by
      apply UInt32.toNat_inj.mp
      simp only [UInt32.ofInt, UInt32.toNat_ofNat']
      omega
    rw [ackOf, hneg, UInt32.ofInt_neg, hcast]
    exact (neg_add_cancel_right _ _).symm
  rw [hack]
  have hplace := seqGt_place (w.ackOf p) (m := 0) (n := k) (by omega) (by omega)
  rw [place_zero] at hplace
  rw [hplace]
  exact decide_eq_false (Nat.not_lt_zero k)

lemma acknowledgeable_iff : w.Acknowledgeable ↔ ∀ e ∈ w.stops, e ≤ w.pos := by
  refine ⟨Acknowledgeable.sent, fun h => ⟨h, fun e he p hp hold => ?_⟩⟩
  exact seqGt_ackOf (hp.trans (h e he)) hold

lemma acknowledgeable_step_iff (h : w.Acknowledgeable) (call : Call) :
    (w.step call).Acknowledgeable ↔ SentWithin w.conn (w.conn.step call) := by
  rw [acknowledgeable_iff]
  constructor
  · intro hall s hs hne
    have hmem : ((w.step call).pos : ℤ) + (s.stop - (w.conn.step call).snd.nxt).toInt32.toInt ∈
        (w.step call).stops := by
      refine List.mem_append_right _ (List.mem_map.mpr ⟨s, ?_, rfl⟩)
      exact List.mem_filter.mpr ⟨hs, by simpa using hne⟩
    have hle := hall _ hmem
    rw [seqLe, decide_eq_true_eq, Int32.le_iff_toInt_le]
    change _ ≤ (0 : ℤ)
    omega
  · intro hwithin e he
    rcases List.mem_append.mp he with hold | hnew
    · have hle := h.sent e hold
      change e ≤ ((w.pos + _ : ℕ) : ℤ)
      omega
    · obtain ⟨s, hs, rfl⟩ := List.mem_map.mp hnew
      obtain ⟨hs, hne⟩ := List.mem_filter.mp hs
      have hle := hwithin s hs (by simpa using hne)
      rw [seqLe, decide_eq_true_eq, Int32.le_iff_toInt_le] at hle
      change _ ≤ (0 : ℤ) at hle
      change (((w.step call).pos : ℤ) + _) ≤ (w.step call).pos
      omega

end SeqWatch

/-- In a run all payload that was sent lies before `snd_nxt` after every call, so that an
acknowledgement of it is taken, iff every retransmission of the run is covered. -/
theorem sent_before_nxt_iff (hc : Opened c) (calls : List Call) :
    (∀ before, before <+: calls →
      (before.foldl SeqWatch.step (SeqWatch.start c)).Acknowledgeable) ↔
      Run.Ok step ResendsCovered c calls := by
  have hstart : (SeqWatch.start c).Acknowledgeable :=
    ⟨fun e he => absurd he List.not_mem_nil, fun e he => absurd he List.not_mem_nil⟩
  have hiff : ∀ (w : SeqWatch) (call : Call), w.Acknowledgeable ∧ SendHalf w.conn →
      ((w.step call).Acknowledgeable ↔ w.conn.ResendsCovered call) := fun w call h =>
    (SeqWatch.acknowledgeable_step_iff h.1 call).trans (sentWithin_step_iff h.2 call)
  rw [Run.forall_prefix_iff (fun w h => h.1) hiff
    (fun w call h hok => ⟨(hiff w call h).mpr hok, h.2.step call⟩) ⟨hstart, sendHalf_of_opened hc⟩]
  exact Run.ok_map_iff fun _ _ => rfl

def lostByte : List Call := [.input synAckPacket 0 2, .write [7] 3, .tick 1003]

theorem sent_before_nxt_lost_byte :
    (lostByte.foldl SeqWatch.step (SeqWatch.start justConnected)).Acknowledgeable :=
  (sent_before_nxt_iff (.connect ..) lostByte).mpr (by decide +kernel) lostByte List.prefix_rfl

/-- The answer of a peer of `justConnected` with room for one byte. -/
def narrowSynAck : Segment :=
  { sport := 80, dport := 9, seq := 5, ack := 0xffffffff, flags := thSyn ||| thAck, wnd := 1,
    data := [] }

def narrowWindow : List Call := [.input (fromPeer narrowSynAck) 0 2, .write [7, 8] 3, .tick 1003]

/-- After the timeout a byte is on the wire whose acknowledgement would be discarded. -/
theorem sent_past_nxt :
    ¬∀ c : Conn, Opened c → ∀ calls : List Call,
      (calls.foldl SeqWatch.step (SeqWatch.start c)).Acknowledgeable := by
  intro h
  have hall := (h justConnected (.connect ..) narrowWindow).sent
  revert hall
  decide +kernel

end Tcp
