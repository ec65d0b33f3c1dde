import Tailcat.Tcp.Handshake

/-!
# Keepalive probes

A probe is a garbage octet at the sequence number before `snd_nxt`. If something is in flight, that is
the number of a byte the peer may not have yet.

## Main results

* `probes_acked_iff`: in a run every probe lies before `snd_una` iff every tick that probes finds
  nothing in flight;
* `probe_not_acked`: a run with a probe that does not.
-/

namespace Tcp

open SerialNumber

namespace Conn

variable {c : Conn} {s : Segment} {now : ℕ}

/-! ## The probes among the segments that a tick sends -/

def NotProbe (s : Segment) : Prop := s.isProbe = false

lemma notProbe_of_flags (h : s.flags ≠ thAck) : NotProbe s := by
  rw [NotProbe, Segment.isProbe, beq_false_of_ne h, Bool.false_and]

lemma notProbe_of_data (h : s.data = []) : NotProbe s := by
  rw [NotProbe, Segment.isProbe, h]
  exact Bool.and_false _

lemma emits_notProbe_trySend (c : Conn) (now : ℕ) : Emits NotProbe c (c.trySend now) := by
  refine trySend_rule (fun d _ _ h => h.trans ?_) (fun d _ hdue h => h.trans ?_) (.refl c)
  · exact .of_out_append (d.sendData_out _ now)
      (notProbe_of_flags (show thAck ||| thPsh ≠ thAck by decide))
  · exact .of_out_append (d.sendFin_out hdue now) (notProbe_of_data rfl)

lemma emits_notProbe_tickRto (c : Conn) (now : ℕ) : Emits NotProbe c (c.tickRto now).1 := by
  have hresend : ∀ d : Conn, Emits NotProbe d (d.resend now) := fun d => by
    unfold resend
    split_ifs
    · exact .of_out_append rfl (notProbe_of_data rfl)
    · exact .of_out_append rfl (notProbe_of_data rfl)
    · exact .of_out_append rfl (notProbe_of_flags (show thAck ||| thPsh ≠ thAck by decide))
    · exact .of_out_append rfl (notProbe_of_data rfl)
    · exact .refl d
  have hagain : Emits NotProbe c (c.retransmit now) := by
    have hback : Emits NotProbe c c.backOff := .of_out_eq rfl
    have harm : Emits NotProbe (c.backOff.resend now) (c.retransmit now) := .of_out_eq rfl
    exact hback.trans ((hresend c.backOff).trans harm)
  unfold tickRto
  split_ifs
  · exact .of_out_eq rfl
  · exact hagain.trans (emits_notProbe_trySend _ now)
  · exact c.emits_notProbe_trySend now

lemma emits_notProbe_idleView (c : Conn) (now : ℕ) : Emits NotProbe c (c.idleView now) :=
  (c.keepsSend_idleView now).emits.mono fun _ hs => notProbe_of_data hs.data

lemma eq_probe_of_isProbe (hs : s ∈ newOut c (c.tcpTick now).1) (hp : s.isProbe) :
    c.probesAt now ∧ s = c.probe now := by
  have hview := c.emits_notProbe_idleView now
  cases hprobe : c.probesAt now with
  | true =>
    rw [tcpTick_of_probesAt hprobe] at hs
    have hemit : Emits (fun s => NotProbe s ∨ s = c.probe now) c
        (((c.idleView now).sendProbe now).tickRto now).1 := by
      refine (hview.mono fun _ => .inl).trans ?_
      exact Emits.trans (.of_out_append rfl (.inr rfl))
        ((emits_notProbe_tickRto _ now).mono fun _ => .inl)
    refine ⟨rfl, (hemit.mem_newOut hs).resolve_left fun hno => ?_⟩
    exact absurd (hno.symm.trans hp) (by simp)
  | false =>
    have hemit : Emits NotProbe c (c.tcpTick now).1 := by
      change Emits NotProbe c ((c.idleView now).tickKeepalive now).1
      refine hview.trans ?_
      unfold tickKeepalive
      split_ifs with hdue hmany
      · exact .of_out_eq rfl
      · rw [probesAt, hdue] at hprobe
        simp at hprobe
        exact absurd hprobe hmany
      · exact emits_notProbe_tickRto _ now
    exact absurd ((hemit.mem_newOut hs).symm.trans hp) (by simp)

lemma probe_mem_newOut (hprobe : c.probesAt now) : c.probe now ∈ newOut c (c.tcpTick now).1 := by
  obtain ⟨l, hl, -⟩ := c.emits_notProbe_idleView now
  obtain ⟨l', hl', -⟩ := emits_notProbe_tickRto ((c.idleView now).sendProbe now) now
  have hout : (c.tcpTick now).1.out = c.out ++ (l ++ ([c.probe now] ++ l')) := by
    rw [tcpTick_of_probesAt hprobe, hl']
    change (c.idleView now).out ++ [c.probe now] ++ l' = _
    rw [hl, List.append_assoc, List.append_assoc]
  rw [newOut, hout]
  simp

/-! ## Where a probe lies -/

/-- A receiver that has got as far as `una` takes nothing from the segment. -/
def Ignored (una : UInt32) (s : Segment) : Prop :=
  ∀ (y : Conn) (iss : UInt32) (now : ℕ), y.state.Settled → (y.rcv.nxt - una).toNat < 2 ^ 31 →
    ((y.stamp now).inputSegment s iss now).rcv = y.rcv

lemma acceptPayload_of_before {k : ℕ} (hk : k ≤ 2 ^ 31) (hle : s.data.length ≤ k)
    (hnxt : c.rcv.nxt = place s.seq k) (now : ℕ) :
    c.acceptPayload s now =
      if s.data.length > 0 ∧ c.rcv.finReceived = false then c.sendAck now else c := by
  have hend : seqGt (s.seq + UInt32.ofNat s.data.length) c.rcv.nxt = false := by
    have h := seqGt_place s.seq (m := s.data.length) (n := k) (by omega) (by omega)
    rw [hnxt, show s.seq + UInt32.ofNat s.data.length = place s.seq s.data.length from rfl, h]
    simpa using hle
  have hstart : seqGt s.seq c.rcv.nxt = false := by
    have h := seqGt_place s.seq (m := 0) (by omega) (by omega)
    rw [place_zero] at h
    rw [hnxt, h]
    simp
  unfold acceptPayload
  rw [hend, hstart, Bool.and_false, if_neg Bool.false_ne_true, if_neg Bool.false_ne_true]

lemma ignored_of_before {una : UInt32} (hflags : s.flags = thAck) (hlen : s.data.length = 1)
    (hseq : s.seq + 1 = una) : Ignored una s := by
  intro y iss now hst hnear
  have hrst : s.rst = false := by
    rw [Segment.rst, hflags]
    rfl
  have hacks : s.acks = true := by
    rw [Segment.acks, hflags]
    rfl
  have hfin : s.fin = false := by
    rw [Segment.fin, hflags]
    rfl
  rw [inputSegment_of_settled (c := y.stamp now) hst hrst, inputOther, if_pos hacks,
    (keepsRecv_trySend _ now).rcv, (keepsRecv_finAcked _ now).rcv]
  let d := ((y.stamp now).noteSegment now).inputAck s now
  have hd : d.rcv = y.rcv := (keepsRecv_inputAck _ s now).rcv
  have hnxt : d.rcv.nxt = place s.seq (1 + (y.rcv.nxt - una).toNat) := by
    rw [hd, ← place_place, show place s.seq 1 = una from hseq]
    exact eq_place una y.rcv.nxt
  have hfinish : d.inputSeq s now = (d.acceptPayload s now).answerProbe s now := by
    unfold inputSeq acceptFin
    rw [hfin, if_neg (by simp)]
  rw [hfinish, (keepsRecv_answerProbe _ s now).rcv,
    acceptPayload_of_before (by omega) (by omega) hnxt]
  split
  · exact hd
  · exact hd

lemma seqGt_probe_iff {W : List UInt8} {u f : ℕ} (h : SendInv W c.snd u f) (now : ℕ) :
    seqGt c.snd.una (c.probe now).seq ↔ c.inFlight = 0 := by
  have hlt := h.flight_lt
  have hseq : (c.probe now).seq = place c.snd.iss (u + f) := by
    change (c.idleView now).snd.nxt - 1 = _
    rw [(c.keepsSend_idleView now).snd, h.nxt, place_add_one_base, place_succ_sub_one]
  have hgt := seqGt_place c.snd.iss (m := u + 1) (n := u + f) (by omega) (by omega)
  have hflight : c.inFlight = 0 ↔ f = 0 := by
    rw [← h.toNat_flight]
    exact UInt32.toNat_inj.symm
  rw [hseq, h.una, place_add_one_base, hgt, hflight, decide_eq_true_eq]
  omega

lemma ignored_probe (h : c.inFlight = 0) : Ignored c.snd.una (c.probe now) := by
  refine ignored_of_before rfl rfl ?_
  change (c.idleView now).snd.nxt - 1 + 1 = _
  have hnxt : c.snd.nxt = place c.snd.una c.inFlight.toNat := eq_place _ _
  rw [h] at hnxt
  rw [(c.keepsSend_idleView now).snd, UInt32.sub_add_cancel, hnxt]
  exact place_zero _

/-! ## Runs -/

def Reached (c : Conn) : Prop := ∃ w : SendWatch, w.conn = c ∧ w.Inv

lemma Opened.reached (h : Opened c) : Reached c := ⟨.start c, rfl, SendWatch.inv_start h⟩

lemma Reached.step (h : Reached c) (call : Call) : Reached (c.step call) := by
  obtain ⟨w, rfl, hw⟩ := h
  exact ⟨w.step call, rfl, SendWatch.inv_step hw call⟩

lemma Reached.sendInv (h : Reached c) (hprobe : c.probesAt now) : ∃ W u f, SendInv W c.snd u f := by
  obtain ⟨w, rfl, hw⟩ := h
  cases hopen : w.opened with
  | true =>
    obtain ⟨-, u, f, hinv⟩ := hw.aligned hopen
    exact ⟨_, u, f, hinv⟩
  | false =>
    have hno := ((hw.shaking hopen).of_keepsSend (w.conn.keepsSend_idleView now)).not_synchronised
    rw [probesAt, kaDue_of_not_synchronised hno] at hprobe
    cases hprobe

/-- Every probe that the call sends has a sequence number that was acknowledged, and is nothing to
a receiver that has got that far. -/
def ProbesAcked (c : Conn) : Call → Prop
  | .tick now => ∀ s ∈ newOut c (c.tcpTick now).1, s.isProbe →
    seqGt c.snd.una s.seq ∧ Ignored c.snd.una s
  | _ => True

/-- If the call sends a probe, nothing is in flight. -/
def ProbesIdle (c : Conn) : Call → Prop
  | .tick now => c.probesAt now → c.inFlight = 0
  | _ => True

instance (c : Conn) (call : Call) : Decidable (ProbesIdle c call) := by
  cases call <;> dsimp only [ProbesIdle] <;> infer_instance

lemma probesAcked_call_iff (h : Reached c) (call : Call) :
    ProbesAcked c call ↔ ProbesIdle c call := by
  cases call with
  | tick now =>
    refine ⟨fun hacked hprobe => ?_, fun hidle s hs hp => ?_⟩
    · obtain ⟨W, u, f, hinv⟩ := h.sendInv hprobe
      exact (seqGt_probe_iff hinv now).mp (hacked _ (probe_mem_newOut hprobe) rfl).1
    · obtain ⟨hprobe, rfl⟩ := eq_probe_of_isProbe hs hp
      obtain ⟨W, u, f, hinv⟩ := h.sendInv hprobe
      exact ⟨(seqGt_probe_iff hinv now).mpr (hidle hprobe), ignored_probe (hidle hprobe)⟩
  | _ => exact Iff.rfl

/-- In a run every keepalive probe has a sequence number that was acknowledged iff every tick that
sends one finds nothing in flight. -/
theorem probes_acked_iff (hc : Opened c) (calls : List Call) :
    Run.Ok step ProbesAcked c calls ↔ Run.Ok step ProbesIdle c calls :=
  Run.ok_iff_of_invariant hc.reached (fun _ call h => h.step call) fun _ call h =>
    probesAcked_call_iff h call

/-- A packet from the peer of `justConnected`. -/
def fromPeer (s : Segment) : List UInt8 := packet (Vector.replicate 16 2) (Vector.replicate 16 1) s

/-- The packet that opens `justConnected`. -/
def synAckPacket : List UInt8 := fromPeer synAckFor

def idleMinute : List Call := [.input synAckPacket 0 2, .tick 60002]

theorem probes_acked_idle_minute :
    Run.Ok step ProbesAcked justConnected idleMinute ∧
      (justConnected.step (.input synAckPacket 0 2)).probesAt 60002 = true :=
  ⟨(probes_acked_iff (.connect ..) idleMinute).mpr (by decide +kernel), by decide +kernel⟩

def lostMinute : List Call := [.input synAckPacket 0 2, .write [7] 3, .tick 60002]

/-- A probe with the sequence number of a byte that is in flight. -/
theorem probe_not_acked :
    ¬∀ c : Conn, Opened c → ∀ calls : List Call, Run.Ok step ProbesAcked c calls := by
  intro h
  have hrun := h justConnected (.connect ..) lostMinute
  let c := [Call.input synAckPacket 0 2, .write [7] 3].foldl step justConnected
  have hlast : ProbesAcked c (.tick 60002) := hrun.2.2.1
  have hdue : c.probesAt 60002 := by decide +kernel
  have hbefore : seqGt c.snd.una (c.probe 60002).seq = false := by decide +kernel
  exact absurd (hbefore.symm.trans (hlast _ (probe_mem_newOut hdue) rfl).1) (by simp)

end Conn

end Tcp
