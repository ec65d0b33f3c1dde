import Tailcat.Tcp.Progress

/-!
# Duplicates

A segment that lies entirely before `rcv_nxt` is acknowledged again as long as the peer's FIN has not
been counted; after that, only if something else makes the connection send.

## Main results

* `reacked_iff`: when a duplicate is acknowledged again;
* `fin_not_reacked`: a FIN that is sent again is not.
-/

namespace Tcp

open SerialNumber Conn List

variable {c c' d : Conn} {s : Segment} {now : ℕ} {P Q : Segment → Prop}

/-! ## What is sent acknowledges -/

/-- The segment acknowledges everything before `n`. -/
def Acknowledges (n : UInt32) (s : Segment) : Prop := s.acks ∧ s.ack = n

lemma Emits.and (h : Emits P c c') (h' : Emits Q c c') : Emits (fun s => P s ∧ Q s) c c' := by
  obtain ⟨l, hl, hP⟩ := h
  obtain ⟨l', hl', hQ⟩ := h'
  obtain rfl : l = l' := append_cancel_left (hl.symm.trans hl')
  exact ⟨l, hl, fun s hs => ⟨hP s hs, hQ s hs⟩⟩

lemma Conn.Action.emits_acks (h : Action now c c') : Emits (fun s => s.acks) c c' := by
  have hsend : ∀ {c c' : Conn} {seq : UInt32} {flags : UInt8} {p : List UInt8},
      c'.out = c.out ++ [c.buildSegment seq flags p] → hasFlag flags thAck →
      Emits (fun s => s.acks) c c' := fun ho hf => .of_out_append ho hf
  have hcount : Emits (fun s => s.acks) c.countFin (c.countFin.sendAck now) := hsend rfl (by decide)
  cases h.effect with
  | handleAck ack =>
    refine c.handleAck_elim ack now ?_ ?_
    · rintro _ _ _ _ (hout | hout)
      · exact .of_out_eq hout
      · exact hsend hout (by decide)
    · intros
      exact .of_out_eq rfl
  | countFin | closeWait | closing | timeWait => exact hcount.trans (.of_out_eq rfl)
  | sendAck | sendData | sendFin => exact hsend rfl (by decide)
  | _ => exact .of_out_eq rfl

lemma Conn.Acts.emits_acks (h : Acts now c c') : Emits (fun s => s.acks) c c' := by
  induction h with
  | refl => exact .refl c
  | tail _ hstep ih => exact ih.trans hstep.emits_acks

lemma emits_acknowledges (h : Acts now c c') (hk : KeepsRecv c c') :
    Emits (Acknowledges c.rcv.nxt) c c' :=
  (h.emits_acks.and hk.emits).mono fun _ hs => ⟨hs.1, hs.2.ack hs.1⟩

lemma exists_acknowledges_iff {n : UInt32} (h : Emits (Acknowledges n) c c') :
    (∃ s ∈ newOut c c', Acknowledges n s) ↔ c.out.length < c'.out.length := by
  constructor
  · rintro ⟨s, hs, -⟩
    have hpos := length_pos_of_mem hs
    rw [newOut, length_drop] at hpos
    omega
  · intro hlt
    obtain ⟨s, hs⟩ : ∃ s, s ∈ newOut c c' := by
      refine exists_mem_of_length_pos ?_
      rw [newOut, length_drop]
      omega
    exact ⟨s, hs, h.mem_newOut hs⟩

/-! ## When the acknowledgement part of a segment makes the connection send -/

/-- `try_send` sends something. -/
def CanSendMore (c : Conn) : Prop := canSend c.state ∧ (c.sendable ≠ 0 ∨ c.finDue)
deriving Decidable

lemma handleAck_out_of_third (h : c.ThirdDup s) :
    c.out.length < (c.handleAck s.ack now).out.length := by
  obtain ⟨-, -, hout⟩ | ⟨hno, -⟩ := c.handleAck_sends s now
  · simp [hout]
  · exact absurd h hno

/-- The segment acknowledges something new. -/
def AcksNew (c : Conn) (s : Segment) : Prop :=
  seqLe s.ack c.snd.una = false ∧ seqGt s.ack c.snd.nxt = false
deriving Decidable

/-- The congestion window that the third duplicate leaves with nothing to resend does not matter. -/
lemma handleAck_of_not_third (h : ¬c.ThirdDup s) (now : ℕ) :
    let d := c.handleAck s.ack now
    d.out = c.out ∧ (AcksNew c s ∧ d = c.takeAck s.ack now ∨
      ¬AcksNew c s ∧ d.state = c.state ∧ d.snd = c.snd ∧
        (d.cc.cwnd = c.cc.cwnd ∨ c.snd.buf.len = 0 ∧ 0 < c.inFlight.toNat)) := by
  unfold handleAck AcksNew
  split_ifs with hle hack hcount hgt
  · have hlen : ¬min c.snd.buf.len mss > 0 := fun hmin =>
      h ⟨hack.1, hack.2, add_right_cancel (b := 1) hcount, (lt_min_iff.mp hmin).1⟩
    rw [show c.noteDupack.fastRetransmit now = _ from if_neg hlen]
    refine ⟨rfl, .inr ⟨by simp [hle], rfl, rfl, .inr ⟨?_, hack.2⟩⟩⟩
    rw [mss] at hlen
    omega
  · simp [hle, noteDupack]
  · simp [hle]
  · simp [hgt]
  · obtain ⟨cc, rtt, d, heq, -⟩ := c.takeAck_eq s.ack now
    refine ⟨by rw [heq]; rfl, .inl ⟨?_, rfl⟩⟩
    simp_all

lemma trySend_out_of_more (h : CanSendMore c) (now : ℕ) :
    c.out.length < (c.trySend now).out.length := by
  obtain ⟨hst, hmore⟩ := h
  unfold trySend
  rw [if_pos hst]
  by_cases hn : c.sendable = 0
  · have hloop : sendLoop now c.snd.buf.len c = c :=
      sendLoop_rule (P := fun d => d = c) (fun d hn' h => absurd (h ▸ hn) hn') rfl _
    rw [hloop, c.sendFin_out (hmore.resolve_left fun h => h hn)]
    simp
  · obtain ⟨fuel, hfuel⟩ : ∃ fuel, c.snd.buf.len = fuel + 1 := by
      refine Nat.exists_eq_succ_of_ne_zero fun hz => hn ?_
      have := c.sendable_le
      omega
    have hloop : c.out.length < (sendLoop now fuel (c.sendData c.sendable now)).out.length := by
      refine sendLoop_rule (P := fun d => c.out.length < d.out.length) (fun d _ h => ?_) ?_ fuel
      · rw [d.sendData_out, length_append]
        exact Nat.lt_add_right _ h
      · rw [c.sendData_out]
        simp
    rw [hfuel, sendLoop, if_neg hn]
    generalize sendLoop now fuel (c.sendData c.sendable now) = d at hloop ⊢
    by_cases hdue : d.finDue
    · rw [d.sendFin_out hdue, length_append]
      exact Nat.lt_add_right _ hloop
    · rwa [d.sendFin_of_not_due (by simpa using hdue)]

lemma trySend_of_not_more (h : ¬CanSendMore c) : c.trySend now = c := by
  refine trySend_eq_self (fun hst => ⟨by_contra fun hn => h ⟨hst, .inl hn⟩, ?_⟩) now
  rw [← Bool.not_eq_true]
  exact fun hdue => h ⟨hst, .inr hdue⟩

/-! ## Duplicates -/

/-- The segment occupies sequence space, all of it before `rcv_nxt`. -/
structure Old (c : Conn) (s : Segment) : Prop where
  occupies : s.data ≠ [] ∨ s.fin
  before : s.data.length + s.fin.toNat ≤ (c.rcv.nxt - s.seq).toNat
  near : (c.rcv.nxt - s.seq).toNat ≤ 2 ^ 31

/-- From `c` to `c'` everything received is acknowledged, or will be by every tick from the
deadline of a delayed acknowledgement on. -/
def Reacked (c c' : Conn) : Prop :=
  (∃ s ∈ newOut c c', Acknowledges c'.rcv.nxt s) ∨
    (c'.tmr.delackDeadline ≠ 0 ∧ ∀ now ≥ c'.tmr.delackDeadline,
      ∃ s ∈ newOut c' (c'.tcpTick now).1, Acknowledges c'.rcv.nxt s)

lemma mem_newOut_of_between {e : Conn} (h : Emits P c d) (hs : e.out = d.out ++ [s])
    (h' : Emits Q e c') : s ∈ newOut c c' := by
  obtain ⟨l, hl, -⟩ := h
  obtain ⟨l', hl', -⟩ := h'
  rw [newOut, hl', hs, hl, append_assoc, append_assoc]
  simp

lemma delack_sent (hne : c.tmr.delackDeadline ≠ 0) (hnow : now ≥ c.tmr.delackDeadline) :
    ∃ s ∈ newOut c (c.tcpTick now).1, Acknowledges c.rcv.nxt s := by
  let d := (c.stamp now).tickTimewait now
  have hd : KeepsRecv c d := by
    have hstamp : KeepsRecv c (c.stamp now) := .of_eq rfl rfl id rfl
    exact hstamp.trans (keepsRecv_tickTimewait _ now)
  have hdel : d.tmr.delackDeadline = c.tmr.delackDeadline := by
    change ((c.stamp now).tickTimewait now).tmr.delackDeadline = _
    unfold tickTimewait
    split <;> rfl
  have hack : d.tickDelack now = d.sendAck now := if_pos ⟨hdel ▸ hne, hdel ▸ hnow⟩
  refine ⟨d.buildSegment d.snd.nxt thAck [], mem_newOut_of_between hd.emits (by rw [hack]; rfl)
      (keepsRecv_tickKeepalive _ now).emits, (rfl : hasFlag thAck thAck = true), ?_⟩
  change d.rcv.nxt = c.rcv.nxt
  rw [hd.rcv]

lemma reacked_iff_delack :
    Reacked c c' ↔ (∃ s ∈ newOut c c', Acknowledges c'.rcv.nxt s) ∨ c'.tmr.delackDeadline ≠ 0 :=
  or_congr_right ⟨And.left, fun hne => ⟨hne, fun _ hnow => delack_sent hne hnow⟩⟩

/-! ## Before the FIN -/

lemma acknowledges_of_not_finReceived (hold : Old c s) (hacks : s.acks)
    (hf : c.rcv.finReceived = false) :
    let c' := c.inputOther s now
    ∃ s' ∈ newOut c c', Acknowledges c'.rcv.nxt s' := by
  intro c'
  let d := c.inputAck s now
  have hd : KeepsRecv c d := c.keepsRecv_inputAck s now
  have hnxt : d.rcv.nxt = place s.seq (c.rcv.nxt - s.seq).toNat := by
    rw [hd.rcv]
    exact eq_place _ _
  have hpay := acceptPayload_of_before hold.near (by have := hold.before; omega) hnxt now
  have hc' : c' = (((d.acceptPayload s now).answerProbe s now).acceptFin s now
      |>.finAcked now |>.trySend now) := if_pos hacks
  by_cases hfin : s.fin
  · -- the FIN is counted, and acknowledged with the new `rcv_nxt`
    let p := (d.acceptPayload s now).answerProbe s now
    have hp : KeepsRecv d p := by
      refine KeepsRecv.trans ?_ (keepsRecv_answerProbe _ s now)
      rw [hpay]
      split
      · exact d.keepsRecv_sendAck now
      · exact .refl d
    have hend : seqLe (s.seq + UInt32.ofNat s.data.length) p.rcv.nxt := by
      have hb := hold.before
      have hn := hold.near
      rw [hp.rcv, hnxt, show s.seq + UInt32.ofNat s.data.length = place s.seq s.data.length from rfl,
        seqLe_place _ (by omega) (by omega)]
      exact decide_eq_true (by omega)
    have hpf : p.rcv.finReceived = false := by rw [hp.rcv, hd.rcv, hf]
    have hcount : p.acceptFin s now = (p.countFin.sendAck now).closeRead now :=
      if_pos (by rw [hfin, hend, hpf]; rfl)
    let e := p.countFin.sendAck now
    have hrest : KeepsRecv e c' := by
      rw [hc', hcount]
      exact ((e.keepsRecv_closeRead now).trans (keepsRecv_finAcked _ now)).trans
        (keepsRecv_trySend _ now)
    exact ⟨p.countFin.buildSegment p.snd.nxt thAck [],
      mem_newOut_of_between (hd.trans hp).emits rfl hrest.emits,
      (rfl : hasFlag thAck thAck = true), by rw [hrest.rcv]; rfl⟩
  · -- the payload is acknowledged, and nothing else happens to the receive half
    have hlen : s.data.length > 0 := length_pos_iff.mpr (hold.occupies.resolve_right hfin)
    have hack : d.acceptPayload s now = d.sendAck now := by
      rw [hpay, if_pos ⟨hlen, by rw [hd.rcv, hf]⟩]
    have hnofin : ∀ e : Conn, e.acceptFin s now = e := fun e => if_neg (by simp [hfin])
    have hrest : KeepsRecv (d.sendAck now) c' := by
      rw [hc', hnofin, hack]
      exact ((keepsRecv_answerProbe _ s now).trans (keepsRecv_finAcked _ now)).trans
        (keepsRecv_trySend _ now)
    exact ⟨d.buildSegment d.snd.nxt thAck [], mem_newOut_of_between hd.emits rfl hrest.emits,
      (rfl : hasFlag thAck thAck = true), by rw [hrest.rcv]; rfl⟩

/-! ## After the FIN -/

lemma hasFlag_or_left {flags a b : UInt8} (h : hasFlag flags a) : hasFlag flags (a ||| b) := by
  simp only [hasFlag, bne_iff_ne] at h ⊢
  contrapose! h
  have hand : flags &&& a = (flags &&& (a ||| b)) &&& a := by
    rw [UInt8.and_assoc]
    congr 1
    rw [← UInt8.toBitVec_inj]
    ext i
    simp +contextual
  rw [hand, h]
  exact UInt8.zero_and

lemma inputSeq_of_finReceived (hocc : s.data ≠ [] ∨ s.fin) (hf : c.rcv.finReceived) :
    c.inputSeq s now = c := by
  have hpay : c.acceptPayload s now = c := if_neg (by simp [hf])
  have hprobe : c.answerProbe s now = c := by
    refine if_neg ?_
    rintro ⟨hlen, hflags, -⟩
    rcases hocc with hdata | hfin
    · exact hdata (eq_nil_of_length_eq_zero hlen)
    · rw [hasFlag_or_left hfin] at hflags
      cases hflags
  have hfin : c.acceptFin s now = c := if_neg (by simp [hf])
  rw [inputSeq, hpay, hprobe, hfin]

/-- With what the segment acknowledges and the window it has, there is something to send: data that
the windows let out, or the FIN. A FIN that it acknowledges ends the sending. -/
def SendsMore (c : Conn) (s : Segment) : Prop :=
  let una := if AcksNew c s then s.ack else c.snd.una
  let flight := (c.snd.nxt - una).toNat
  let len := if AcksNew c s then c.snd.buf.len - c.dataAcked s.ack else c.snd.buf.len
  let cwnd := if AcksNew c s then c.growCwnd.cc.cwnd else c.cc.cwnd
  canSend c.state ∧ ¬(c.state = .finWait1 ∧ c.snd.finSent ∧ seqGe una c.snd.nxt) ∧
    (flight < min s.wnd.toNat cwnd ∧ flight < len ∨
      c.snd.finQueued ∧ c.snd.finSent = false ∧ len = flight)

/-- The rest of the segment makes the connection send: a SYN is answered, the third duplicate
acknowledgement makes it resend, or the acknowledgement lets it send more. -/
def SendsAnyway (c : Conn) (s : Segment) : Prop := s.syn ∨ c.ThirdDup s ∨ SendsMore c s

lemma sendable_ne_zero_iff : c.sendable ≠ 0 ↔
    c.inFlight.toNat < min c.snd.wnd c.cc.cwnd ∧ c.inFlight.toNat < c.snd.buf.len := by
  unfold sendable mss
  dsimp only
  split_ifs <;> omega

lemma canSendMore_finAcked : CanSendMore (c.finAcked now) ↔ canSend c.state ∧
    ¬(c.state = .finWait1 ∧ c.snd.finSent ∧ seqGe c.snd.una c.snd.nxt) ∧
      (c.sendable ≠ 0 ∨ c.finDue) := by
  unfold finAcked CanSendMore
  cases hst : c.state <;> split_ifs with h <;> simp_all [canSend, enterTimeWait]

lemma takeAck_cwnd (c : Conn) (ack : UInt32) (now : ℕ) :
    (c.takeAck ack now).cc.cwnd = c.growCwnd.cc.cwnd := by
  obtain ⟨d, hd, -⟩ := rearmRto_eq ((c.freeAcked ack).sampleRtt ack now) now
  rw [takeAck, hd]
  unfold sampleRtt
  split <;> rfl

lemma canSendMore_inputAck (hst : c.state.synchronised) (hsyn : ¬s.syn)
    (hthird : ¬c.ThirdDup s) (now : ℕ) :
    CanSendMore ((c.inputAck s now).finAcked now) ↔ SendsMore c s := by
  have hack : ∀ d, (c.noteWindow s).handleAck s.ack now = d → d.state = c.state →
      c.inputAck s now = d := by
    rintro d rfl hd
    rw [inputAck, answerSyn, if_neg hsyn]
    refine if_neg fun h => ?_
    rw [← hd, h.1] at hst
    cases hst
  unfold SendsMore
  dsimp only
  obtain ⟨-, ⟨hnew, hd⟩ | ⟨hnew, hstate, hsnd, hcwnd⟩⟩ :=
    handleAck_of_not_third (c := c.noteWindow s) hthird now
  · obtain ⟨cc, rtt, t, heq, -⟩ := (c.noteWindow s).takeAck_eq s.ack now
    have hcwnd := takeAck_cwnd (c.noteWindow s) s.ack now
    rw [heq] at hd hcwnd
    rw [hack _ hd rfl, canSendMore_finAcked, sendable_ne_zero_iff, finDue]
    have hnew : AcksNew c s := hnew
    simp only [if_pos hnew, Bool.and_eq_true, Bool.not_eq_true', beq_iff_eq, and_assoc]
    have hlen : ((c.noteWindow s).freeAcked s.ack).snd.buf.len = _ := RingBuffer.len_drop ..
    rw [hlen]
    dsimp only at hcwnd
    rw [hcwnd]
    exact Iff.rfl
  · have hnew : ¬AcksNew c s := hnew
    rw [hack _ rfl hstate, canSendMore_finAcked, sendable_ne_zero_iff, finDue, inFlight, hstate, hsnd]
    simp only [if_neg hnew, Bool.and_eq_true, Bool.not_eq_true', beq_iff_eq, and_assoc]
    refine and_congr_right fun _ => and_congr_right fun _ => or_congr_left ?_
    obtain hcwnd | ⟨hlen, hflight⟩ := hcwnd
    · rw [hcwnd]
      exact Iff.rfl
    · simp only [inFlight, noteWindow] at hlen hflight ⊢
      omega

lemma finAcked_out : (c.finAcked now).out = c.out := by
  rcases c.finAcked_cases now with h | ⟨-, -, ⟨-, h⟩ | ⟨-, h⟩ | ⟨-, h⟩⟩ <;> rw [h]
  rfl

lemma finAcked_delack : (c.finAcked now).tmr.delackDeadline = c.tmr.delackDeadline := by
  rcases c.finAcked_cases now with h | ⟨-, -, ⟨-, h⟩ | ⟨-, h⟩ | ⟨-, h⟩⟩ <;> rw [h]
  rfl

lemma inputAck_sends (h : s.syn ∨ c.ThirdDup s) (now : ℕ) :
    c.out.length < (c.inputAck s now).out.length := by
  have hsyn : ∀ d : Conn, d.synAcked.out = d.out := fun d => by
    rcases d.synAcked_cases with h | ⟨-, h⟩ <;> rw [h]
  rw [inputAck, hsyn]
  by_cases hs : s.syn
  · have hlt : c.out.length < (c.answerSyn s now).out.length := by
      rw [answerSyn, if_pos hs]
      simp [sendAck, sendSegment]
    have hack : Progress now ((c.answerSyn s now).noteWindow s) _ := progress_handleAck _ s.ack now
    exact hlt.trans_le hack.length
  · rw [answerSyn, if_neg hs]
    exact handleAck_out_of_third (c := c.noteWindow s) (h.resolve_left hs)

lemma inputAck_quiet (h : ¬(s.syn ∨ c.ThirdDup s)) (now : ℕ) :
    (c.inputAck s now).out = c.out ∧
      (c.inputAck s now).tmr.delackDeadline = c.tmr.delackDeadline := by
  rw [not_or] at h
  rw [inputAck, answerSyn, if_neg h.1]
  have hout : ((c.noteWindow s).handleAck s.ack now).out = c.out :=
    (handleAck_of_not_third (c := c.noteWindow s) h.2 now).1
  have hdel : ((c.noteWindow s).handleAck s.ack now).tmr.delackDeadline = c.tmr.delackDeadline := by
    refine (c.noteWindow s).handleAck_elim s.ack now ?_ ?_ <;> intros <;> rfl
  rcases ((c.noteWindow s).handleAck s.ack now).synAcked_cases with heq | ⟨-, heq⟩ <;> rw [heq]
  · exact ⟨hout, hdel⟩
  · exact ⟨hout, hdel⟩

lemma reacked_iff_of_finReceived (hst : c.state.synchronised) (hocc : s.data ≠ [] ∨ s.fin)
    (hacks : s.acks) (hf : c.rcv.finReceived) :
    Reacked c (c.inputOther s now) ↔ c.tmr.delackDeadline ≠ 0 ∨ SendsAnyway c s := by
  let d := (c.inputAck s now).finAcked now
  have hd : Acts now c d := (c.acts_inputAck s now).tail (.finAcked _)
  have hdr : KeepsRecv c d := (c.keepsRecv_inputAck s now).trans (keepsRecv_finAcked _ now)
  have hc' : c.inputOther s now = d.trySend now := by
    have hf' : (c.inputAck s now).rcv.finReceived := by rwa [(c.keepsRecv_inputAck s now).rcv]
    rw [inputOther, if_pos hacks, inputSeq_of_finReceived hocc hf']
  have hall : Acts now c (d.trySend now) := hd.trans (d.acts_trySend now)
  have hkeep : KeepsRecv c (d.trySend now) := hdr.trans (d.keepsRecv_trySend now)
  have hlen := hd.moves.progress.length
  have hlen' := (d.acts_trySend now).moves.progress.length
  rw [hc', reacked_iff_delack, hkeep.rcv, exists_acknowledges_iff (emits_acknowledges hall hkeep)]
  constructor
  · intro h
    by_contra hno
    obtain ⟨hdel, hno⟩ := not_or.mp hno
    have hquiet : ¬(s.syn ∨ c.ThirdDup s) := fun h' => hno (h'.imp_right .inl)
    obtain ⟨hout, hdel'⟩ := inputAck_quiet hquiet now
    have hid : d.trySend now = d := trySend_of_not_more fun h' => hno (.inr (.inr
      ((canSendMore_inputAck hst (hquiet ∘ .inl) (hquiet ∘ .inr) now).mp h')))
    rw [hid, finAcked_out, finAcked_delack, hout, hdel'] at h
    exact h.elim (lt_irrefl _) hdel
  · rintro (hdel | hsends)
    · rcases hall.moves.progress.delack hdel with heq | hlt
      · exact .inr (heq ▸ hdel)
      · exact .inl hlt
    · refine .inl ?_
      by_cases hearly : s.syn ∨ c.ThirdDup s
      · have hdout : d.out = (c.inputAck s now).out := finAcked_out
        have hlt := inputAck_sends hearly now
        rw [← hdout] at hlt
        exact hlt.trans_le hlen'
      · have hmore := (canSendMore_inputAck hst (hearly ∘ .inl) (hearly ∘ .inr) now).mpr
          ((or_assoc.mpr hsends).resolve_left hearly)
        exact hlen.trans_lt (trySend_out_of_more hmore now)

/-! ## The law -/

/-- Whether a duplicate `s` that arrives at `c` is acknowledged again. -/
def AcksAgain (c : Conn) (s : Segment) : Prop :=
  c.tmr.delackDeadline ≠ 0 ∨ (s.acks ∧ (c.rcv.finReceived = false ∨ SendsAnyway c s))

/-- In every synchronised state, a duplicate is acknowledged again iff an acknowledgement is
scheduled already, or the segment has ACK set and the peer's FIN has not been counted, or the
connection sends for another reason. -/
theorem reacked_iff (hst : c.state.synchronised) {pkt : List UInt8} (hp : parse c pkt = .segment s)
    (hrst : s.rst = false) (hold : Old c s) (iss : UInt32) (now : ℕ) :
    Reacked c (c.tcpInput pkt iss now) ↔ AcksAgain c s := by
  have hsettled : c.state.Settled := by
    constructor <;> intro h <;> rw [h] at hst <;> cases hst
  have hinput : c.tcpInput pkt iss now = (inputView c now).inputOther s now := by
    have hparse : parse (c.stamp now) pkt = .segment s := hp
    unfold tcpInput
    dsimp only
    rw [hparse]
    exact inputSegment_of_settled (c := c.stamp now) hsettled hrst iss now
  rw [hinput]
  change Reacked (inputView c now) _ ↔ _
  unfold AcksAgain
  by_cases hacks : s.acks
  · cases hf : c.rcv.finReceived with
    | false =>
      refine iff_of_true (.inl ?_) (.inr ⟨hacks, .inl rfl⟩)
      exact acknowledges_of_not_finReceived ⟨hold.1, hold.2, hold.3⟩ hacks hf
    | true =>
      rw [reacked_iff_of_finReceived (c := inputView c now) hst hold.occupies hacks hf]
      exact or_congr_right ⟨fun h => ⟨hacks, .inr h⟩, fun h => h.2.resolve_left nofun⟩
  · have hsame : (inputView c now).inputOther s now = inputView c now := if_neg hacks
    rw [hsame, reacked_iff_delack]
    simp [hacks, newOut, noteSegment, stamp]

/-- The first byte from the peer of `justConnected`. -/
def dataFor : Segment :=
  { sport := 80, dport := 9, seq := 6, ack := 0xffffffff, flags := thAck ||| thPsh, wnd := 1000,
    data := [7] }

/-- A FIN from the peer of `justConnected`. -/
def finFor : Segment :=
  { sport := 80, dport := 9, seq := 6, ack := 0xffffffff, flags := thAck ||| thFin, wnd := 1000,
    data := [] }

/-- A connection that has received and acknowledged a byte. -/
def oneByte : Conn :=
  [Call.input synAckPacket 0 2, .input (fromPeer dataFor) 0 3, .tick 43].foldl step justConnected

theorem reacked_one_byte :
    oneByte.tmr.delackDeadline = 0 ∧ Reacked oneByte (oneByte.tcpInput (fromPeer dataFor) 0 50) :=
  ⟨by decide +kernel,
    (reacked_iff (by decide +kernel)
      (parse_packet ⟨by decide +kernel, by decide +kernel, by decide +kernel, .inr (by decide +kernel)⟩
        (by decide))
      (by decide) ⟨.inl (by decide), by decide +kernel, by decide +kernel⟩ 0 50).mpr
      (.inr ⟨by decide, .inl (by decide +kernel)⟩)⟩

/-- A connection in `CLOSE_WAIT`: it has received a FIN and acknowledged it. -/
def peerClosed : Conn :=
  [Call.input synAckPacket 0 2, .input (fromPeer finFor) 0 3].foldl step justConnected

/-- A FIN that is sent again, because its acknowledgement was lost, is not acknowledged again. -/
theorem fin_not_reacked :
    ¬∀ (c : Conn) (calls : List Call), Conn.Opened c →
      let d := calls.foldl step c
      ∀ (pkt : List UInt8) (s : Segment), d.state.synchronised → parse d pkt = .segment s →
        s.rst = false → Old d s → ∀ (iss : UInt32) (now : ℕ), Reacked d (d.tcpInput pkt iss now) := by
  intro h
  have hagain : Reacked peerClosed (peerClosed.tcpInput (fromPeer finFor) 0 50) :=
    h justConnected _ (.connect ..) _ finFor (by decide +kernel)
      (parse_packet ⟨by decide +kernel, by decide +kernel, by decide +kernel, .inr (by decide +kernel)⟩
        (by decide))
      (by decide) ⟨.inr (by decide), by decide +kernel, by decide +kernel⟩ 0 50
  have hout : newOut peerClosed (peerClosed.tcpInput (fromPeer finFor) 0 50) = [] := by
    decide +kernel
  have hdel : (peerClosed.tcpInput (fromPeer finFor) 0 50).tmr.delackDeadline = 0 := by
    decide +kernel
  rw [reacked_iff_delack, hout] at hagain
  simp [hdel] at hagain

end Tcp
