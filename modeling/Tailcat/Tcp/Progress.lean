import Tailcat.Tcp.Flow
import Tailcat.Tcp.Keepalive

/-!
# What a connection is bound to send

A delayed acknowledgement that is scheduled is sent, unless something else is; a FIN is acknowledged
when it is counted; and a probe is answered by every receiver that has not counted the sender's FIN.

## Main results

* `progress_step`: what every call does about the acknowledgements that are due;
* `answers_probe`: probes are answered.
-/

namespace Tcp

open Conn

variable {c c' c'' : Conn} {now : ℕ}

/-! ## Acknowledgements that are due -/

/-- From `c` to `c'`, at the time `now`: an acknowledgement that was scheduled still is, unless
something was sent; a new one is scheduled for soon; and a FIN is counted only if something was
sent. -/
structure Progress (now : ℕ) (c c' : Conn) : Prop where
  length : c.out.length ≤ c'.out.length
  delack : c.tmr.delackDeadline ≠ 0 →
    c'.tmr.delackDeadline = c.tmr.delackDeadline ∨ c.out.length < c'.out.length
  bound : c'.tmr.delackDeadline ≤ max c.tmr.delackDeadline (now + delackMs)
  fin : c'.rcv.finReceived → c.rcv.finReceived ∨ c.out.length < c'.out.length

namespace Progress

lemma refl (c : Conn) : Progress now c c := ⟨le_rfl, fun _ => .inl rfl, le_max_left _ _, .inl⟩

lemma trans (h : Progress now c c') (h' : Progress now c' c'') : Progress now c c'' := by
  have hlen := h.length
  have hlen' := h'.length
  refine ⟨hlen.trans hlen', fun hd => ?_, ?_, fun hf => ?_⟩
  · rcases h.delack hd with heq | hlt
    · rcases h'.delack (heq ▸ hd) with heq' | hlt
      · exact .inl (heq'.trans heq)
      · exact .inr (by omega)
    · exact .inr (by omega)
  · exact h'.bound.trans (max_le h.bound (le_max_right _ _))
  · rcases h'.fin hf with hf | hlt
    · exact (h.fin hf).imp id fun hlt => by omega
    · exact .inr (by omega)

lemma of_eq (hd : c'.tmr.delackDeadline = c.tmr.delackDeadline)
    (hf : c'.rcv.finReceived = c.rcv.finReceived) (ho : c.out.length ≤ c'.out.length) :
    Progress now c c' :=
  ⟨ho, fun _ => .inl hd, hd.le.trans (le_max_left _ _), fun h => .inl (hf ▸ h)⟩

lemma of_send (ho : c.out.length < c'.out.length) (hd : c'.tmr.delackDeadline = 0) :
    Progress now c c' :=
  ⟨ho.le, fun _ => .inr ho, hd.le.trans (Nat.zero_le _), fun _ => .inr ho⟩

end Progress

lemma progress_handleAck (c : Conn) (ack : UInt32) (t : ℕ) :
    Progress now c (c.handleAck ack t) := by
  refine c.handleAck_elim ack t ?_ ?_
  · rintro _ _ _ _ (hout | hout) <;> exact .of_eq rfl rfl (by simp [hout])
  · intros
    exact .of_eq rfl rfl le_rfl

lemma Conn.Action.progress (h : Action now c c') : Progress now c c' := by
  have hcount : Progress now c (c.countFin.sendAck now) :=
    .of_send (by simp [Conn.sendAck, Conn.sendSegment, Conn.countFin]) rfl
  cases h.effect with
  | sendAck => exact .of_send (by simp [Conn.sendAck, Conn.sendSegment]) rfl
  | handleAck ack => exact progress_handleAck c ack now
  | take s rcv stats d hno _ hfin hd =>
    refine ⟨le_rfl, fun hne => ?_, ?_, fun hf => .inl (hno.symm ▸ hfin ▸ hf)⟩
    · exact .inl (hd.resolve_right fun hz => hne hz.1).2
    · rcases hd with ⟨-, hd⟩ | ⟨-, hd⟩
      · exact hd.le.trans (le_max_left _ _)
      · exact hd.le.trans (le_max_right _ _)
  | countFin => exact hcount
  | closeWait | closing | timeWait => exact hcount.trans (.of_eq rfl rfl le_rfl)
  | sendData | sendFin => exact .of_eq rfl rfl (by simp)
  | _ => exact .of_eq rfl rfl le_rfl

lemma Conn.Trigger.progress (h : Trigger now c c') : Progress now c c' := by
  cases h with
  | listen s iss =>
    exact .of_eq rfl rfl (by
      simp [armRto, sendSyn, sendSegment, startSend, synchronise])
  | refuse ack => exact .of_eq rfl rfl (by simp [sendRst, sendSegment])
  | answer s =>
    have hsyn : Progress now c (c.synchronise s) := .of_eq rfl rfl le_rfl
    exact hsyn.trans ((progress_handleAck _ s.ack now).trans (.of_eq rfl rfl le_rfl))
  | probe => exact .of_eq rfl rfl (by simp [sendProbe, sendSegment])
  | retransmit =>
    obtain ⟨rtt, stats, out, heq, hout⟩ := c.backOff.resend_eq now
    rw [Conn.retransmit, heq]
    refine .of_eq rfl rfl ?_
    rcases hout with hout | ⟨seq, flags, p, hout, -⟩ <;> simp [armRto, hout, backOff]
  | abort => exact .of_send (by simp [sendRst, sendSegment]) rfl
  | _ => exact .of_eq rfl rfl le_rfl

lemma Conn.Moves.progress (h : Moves now c c') : Progress now c c' := by
  induction h with
  | refl => exact .refl c
  | tail _ hstep ih => exact ih.trans (hstep.elim (fun h => h.progress) fun h => h.progress)

lemma progress_tcpRead (c : Conn) (cap : ℕ) : Progress now c (c.tcpRead cap).1 := by
  unfold tcpRead
  dsimp only
  split
  · exact .of_send (by simp [sendAck, sendSegment]) rfl
  · exact .of_eq rfl rfl le_rfl

/-- A call at the time `now`. -/
theorem progress_step {call : Call} (htime : call.time c = now ∨ ∃ cap, call = .read cap) :
    Progress now c (c.step call) := by
  rcases htime with rfl | ⟨cap, rfl⟩
  · exact (c.moves_step call).progress
  · exact progress_tcpRead c cap

/-! ## Probes are answered -/

/-- A receiver that has not counted a FIN answers a probe at once, or has an acknowledgement
scheduled. -/
theorem answers_probe (hst : c.state.Settled) {s : Segment} (hp : s.isProbe)
    (hf : c.rcv.finReceived = false) (iss : UInt32) (now : ℕ) :
    let c' := (c.stamp now).inputSegment s iss now
    c.out.length < c'.out.length ∨ c'.tmr.delackDeadline ≠ 0 := by
  intro c'
  simp only [Segment.isProbe, Bool.and_eq_true, beq_iff_eq, Bool.not_eq_true',
    List.isEmpty_eq_false_iff] at hp
  have hrst : s.rst = false := by
    rw [Segment.rst, hp.1]
    rfl
  have hacks : s.acks = true := by
    rw [Segment.acks, hp.1]
    rfl
  have hlen : s.data.length > 0 := List.length_pos_iff.mpr hp.2
  let d := (inputView c now).inputAck s now
  have hd : Progress now c d := by
    have hview : Progress now c (inputView c now) := .of_eq rfl rfl le_rfl
    exact hview.trans (acts_inputAck _ s now).moves.progress
  have hdf : d.rcv.finReceived = false := by
    rw [(keepsRecv_inputAck _ s now).rcv]
    exact hf
  -- the payload is taken, stored or found to be a duplicate
  have hpay : d.out.length < (d.acceptPayload s now).out.length ∨
      (d.acceptPayload s now).tmr.delackDeadline ≠ 0 := by
    unfold acceptPayload
    rw [if_pos ⟨hlen, hdf⟩]
    split_ifs
    · obtain ⟨e, heq, hdel⟩ := (d.takeInOrder s).delayAck_eq now
      rw [heq]
      refine .inr ?_
      rcases hdel with ⟨hne, rfl⟩ | ⟨-, rfl⟩
      · exact hne
      · exact (Nat.lt_of_lt_of_le (by decide : 0 < delackMs) (Nat.le_add_left _ _)).ne'
    · obtain ⟨ooo, stats, heq⟩ := d.oooInsert_eq s.seq s.data
      rw [heq]
      exact .inl (by simp [sendAck, sendSegment])
    · exact .inl (by simp [sendAck, sendSegment])
  have hrest : Progress now (d.acceptPayload s now) c' := by
    have heq : c' = ((d.inputSeq s now).finAcked now).trySend now := by
      change (c.stamp now).inputSegment s iss now = _
      rw [inputSegment_of_settled (c := c.stamp now) hst hrst, inputOther, if_pos hacks]
    have hacts : Acts now (d.acceptPayload s now) c' := by
      rw [heq]
      exact (((acts_answerProbe _ s now).trans (acts_acceptFin _ s now)).tail
        (.finAcked _)).trans (acts_trySend _ now)
    exact hacts.moves.progress
  have hd' := hd.length
  have hr' := hrest.length
  rcases hpay with hlt | hne
  · exact .inl (by omega)
  have hpl : d.out.length ≤ (d.acceptPayload s now).out.length :=
    (d.acts_acceptPayload s now).moves.progress.length
  rcases hrest.delack hne with heq | hlt
  · exact .inr (heq ▸ hne)
  · exact .inl (by omega)

/-! ## The idle timer -/

def KeepsKa (c c' : Conn) : Prop :=
  c'.tmr.kaUnacked = c.tmr.kaUnacked ∧ c'.tmr.kaDeadline = c.tmr.kaDeadline

lemma KeepsKa.trans (h : KeepsKa c c') (h' : KeepsKa c' c'') : KeepsKa c c'' :=
  ⟨h'.1.trans h.1, h'.2.trans h.2⟩

lemma keepsKa_handleAck (c : Conn) (ack : UInt32) (now : ℕ) : KeepsKa c (c.handleAck ack now) := by
  refine c.handleAck_elim ack now ?_ ?_ <;> intros <;> exact ⟨rfl, rfl⟩

lemma Conn.Action.keepsKa (h : Action now c c') : KeepsKa c c' := by
  cases h.effect with
  | handleAck ack => exact keepsKa_handleAck c ack now
  | _ => exact ⟨rfl, rfl⟩

lemma Conn.Acts.keepsKa (h : Acts now c c') : KeepsKa c c' := by
  induction h with
  | refl => exact ⟨rfl, rfl⟩
  | tail _ hstep ih => exact ih.trans hstep.keepsKa

lemma keepsKa_idleView (c : Conn) (now : ℕ) : KeepsKa c (c.idleView now) := by
  have htw : KeepsKa c ((c.stamp now).tickTimewait now) := by
    unfold tickTimewait
    split <;> exact ⟨rfl, rfl⟩
  refine htw.trans ?_
  unfold idleView tickDelack
  split <;> exact ⟨rfl, rfl⟩

lemma keepsKa_tickRto (c : Conn) (now : ℕ) : KeepsKa c (c.tickRto now).1 := by
  have hagain : KeepsKa c (c.retransmit now) := by
    obtain ⟨rtt, stats, out, heq, -⟩ := c.backOff.resend_eq now
    rw [retransmit, heq]
    exact ⟨rfl, rfl⟩
  unfold tickRto
  split_ifs
  · exact ⟨rfl, rfl⟩
  · exact hagain.trans (acts_trySend _ now).keepsKa
  · exact (c.acts_trySend now).keepsKa

/-- A tick at `now` gives the connection up because no probe was answered. -/
def GivesUp (c : Conn) (now : ℕ) : Prop :=
  (c.idleView now).kaDue now ∧ keepaliveProbes ≤ (c.idleView now).tmr.kaUnacked
deriving Decidable

/-- A tick that does not give up counts the probe that it sends. -/
theorem tick_ka (hno : ¬GivesUp c now) :
    (c.probesAt now ∧ (c.tcpTick now).1.tmr.kaUnacked = c.tmr.kaUnacked + 1 ∧
      (c.tcpTick now).1.tmr.kaDeadline = now + keepaliveIntvlMs ∧ c.tmr.kaDeadline ≤ now) ∨
    (c.probesAt now = false ∧ KeepsKa c (c.tcpTick now).1) := by
  have hview := keepsKa_idleView c now
  cases hprobe : c.probesAt now with
  | true =>
    have hrto := keepsKa_tickRto ((c.idleView now).sendProbe now) now
    rw [← tcpTick_of_probesAt hprobe] at hrto
    simp only [probesAt, kaDue, Bool.and_eq_true, decide_eq_true_eq, hview.2] at hprobe
    refine .inl ⟨rfl, hrto.1.trans ?_, hrto.2, hprobe.1.2⟩
    change (c.idleView now).tmr.kaUnacked + 1 = _
    rw [hview.1]
  | false =>
    refine .inr ⟨rfl, hview.trans ?_⟩
    change KeepsKa (c.idleView now) ((c.idleView now).tickKeepalive now).1
    unfold tickKeepalive
    split_ifs with hdue hmany
    · exact absurd ⟨hdue, hmany⟩ hno
    · rw [probesAt, hdue] at hprobe
      simp at hprobe
      exact absurd hprobe hmany
    · exact keepsKa_tickRto _ now

lemma kaUnacked_inputSegment (hst : c.state.Settled) (s : Segment) (iss : UInt32) (now : ℕ) :
    ((c.stamp now).inputSegment s iss now).tmr.kaUnacked = 0 := by
  cases hrst : s.rst with
  | true =>
    rw [inputSegment, if_pos hrst, inputRst]
    split <;> rfl
  | false =>
    rw [inputSegment_of_settled (c := c.stamp now) hst hrst]
    exact (acts_inputOther _ s now).keepsKa.1

lemma not_finOut_of_probesAt (hprobe : c.probesAt now) (hst : c.state ≠ .finWait2) :
    c.state.finOut = false := by
  have hview : (c.idleView now).state = c.state ∨ (c.idleView now).state = .closed := by
    unfold idleView tickDelack tickTimewait
    split_ifs
    · exact .inr rfl
    · exact .inr rfl
    · exact .inl rfl
    · exact .inl rfl
  simp only [probesAt, kaDue, kaActive, Bool.and_eq_true, Bool.or_eq_true, beq_iff_eq] at hprobe
  obtain ⟨⟨⟨-, hact⟩, -⟩, -⟩ := hprobe
  rcases hview with hv | hv <;> rw [hv] at hact
  · rcases hact with (h | h) | h
    · rw [h]
      rfl
    · exact absurd h hst
    · rw [h]
      rfl
  · rcases hact with (h | h) | h <;> cases h

lemma nextDeadline_le_delack (h : c.tmr.delackDeadline ≠ 0) :
    c.nextDeadline ≤ c.tmr.delackDeadline := by
  unfold nextDeadline
  dsimp only
  split_ifs <;> omega

end Tcp
