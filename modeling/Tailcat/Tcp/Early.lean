import Tailcat.Tcp.Opening
import Tailcat.Tcp.Retransmission

/-!
# Before our SYN is acknowledged

In `SYN_RECEIVED`, and after a reset, a segment whose acknowledgement is not accepted is handled
further all the same: its payload and FIN are taken, and the third duplicate acknowledgement sends the
bytes that the owner has written early, from the sequence number of the SYN.

## Main results

* `early_iff`: in a run nothing moves early iff no call of it is one of these;
* `early_fin`: a run that is established with the peer's FIN already counted.
-/

namespace Tcp

open SerialNumber Conn

variable {c c' : Conn} {s : Segment} {now : ℕ}

/-! ## The receive half -/

/-- The payload of the segment goes to the receive buffer or to the reassembly store. -/
def Conn.Takes (c : Conn) (s : Segment) : Prop :=
  s.data ≠ [] ∧ ((seqLe s.seq c.rcv.nxt && seqGt s.stop c.rcv.nxt) ∨
    (seqGt s.seq c.rcv.nxt ∧ s.data.length ≤ mss))
deriving Decidable

def Conn.CountsFin (c : Conn) (s : Segment) : Prop := s.fin ∧ seqLe s.stop c.rcv.nxt
deriving Decidable

lemma drainPass_of_none {r : Recv} (h : ∀ i : Fin oooSegs, r.ooo.get i = none) :
    r.drainPass = (r, false) := by
  have hslot : ∀ i, r.drainSlot i = (r, false) := fun i => by
    rw [Recv.drainSlot, show r.ooo[i] = none from h i]
  have hfold : ∀ slots : List (Fin oooSegs),
      slots.foldl (fun p i => ((p.1.drainSlot i).1, p.2 || (p.1.drainSlot i).2)) (r, false) =
        (r, false) := by
    intro slots
    induction slots with
    | nil => rfl
    | cons i slots ih =>
      rw [List.foldl_cons, hslot]
      exact ih
  exact hfold _

lemma drainLoop_of_none {r : Recv} (h : ∀ i : Fin oooSegs, r.ooo.get i = none) (fuel : ℕ) :
    r.drainLoop (fuel + 1) = r := by
  rw [Recv.drainLoop, drainPass_of_none h]
  rfl

lemma new_payload (hle : seqLe s.seq c.rcv.nxt) (hgt : seqGt s.stop c.rcv.nxt)
    (hlen : s.data.length < 2 ^ 16) : (c.rcv.nxt - s.seq).toNat < s.data.length := by
  have hnxt : c.rcv.nxt = place s.seq (c.rcv.nxt - s.seq).toNat := eq_place _ _
  set k := (c.rcv.nxt - s.seq).toNat with hk
  have hk32 : k < 2 ^ 32 := UInt32.toNat_lt _
  have hback : k ≤ 2 ^ 31 := by
    by_contra hlt
    have hfalse : seqLe s.seq c.rcv.nxt = false := by
      rw [seqLe_eq_false]
      have hneg : (s.seq - c.rcv.nxt).toNat = 2 ^ 32 - k := by
        rw [hnxt, UInt32.toNat_sub, toNat_place]
        omega
      omega
    rw [hfalse] at hle
    cases hle
  have hstop : s.stop = place s.seq s.data.length := rfl
  rw [hstop, hnxt, seqGt_place _ (by omega) (by omega)] at hgt
  exact of_decide_eq_true hgt

lemma acceptPayload_eq (c : Conn) (s : Segment) (now : ℕ) : c.acceptPayload s now =
    if s.data.length > 0 ∧ c.rcv.finReceived = false then
      if seqLe s.seq c.rcv.nxt && seqGt s.stop c.rcv.nxt then (c.takeInOrder s).delayAck now
      else if seqGt s.seq c.rcv.nxt then (c.oooInsert s.seq s.data).sendAck now
      else c.sendAck now
    else c := rfl

lemma not_empty_acceptPayload (h : c.rcv.Empty) (hlen : s.data.length < 2 ^ 16)
    (ht : c.Takes s) (now : ℕ) :
    (c.acceptPayload s now).rcv.buf.len ≠ 0 ∨
      ∃ i : Fin oooSegs, (c.acceptPayload s now).rcv.ooo.get i ≠ none := by
  obtain ⟨hne, htakes⟩ := ht
  have hpos : 0 < s.data.length := List.length_pos_iff.mpr hne
  rw [acceptPayload_eq, if_pos ⟨hpos, h.fin⟩]
  by_cases hin : seqLe s.seq c.rcv.nxt && seqGt s.stop c.rcv.nxt
  · left
    rw [if_pos hin]
    obtain ⟨d, heq, -⟩ := (c.takeInOrder s).delayAck_eq now
    rw [heq]
    have hnew := new_payload (Bool.and_eq_true_iff.mp hin).1 (Bool.and_eq_true_iff.mp hin).2 hlen
    set rest := s.data.drop (c.rcv.nxt - s.seq).toNat
    have hroom : 0 < c.rcv.buf.space := by
      change 0 < rcvBufLen - c.rcv.buf.len
      rw [h.buf]
      decide
    have hmin : 0 < min rest.length c.rcv.buf.space := by
      refine lt_min ?_ hroom
      rw [List.length_drop]
      omega
    unfold takeInOrder
    rw [if_pos (show min rest.length c.rcvSpace > 0 from hmin)]
    change ((c.rcv.take rest).drainLoop (oooSegs + 1)).buf.len ≠ 0
    rw [drainLoop_of_none (r := c.rcv.take rest) h.ooo]
    change c.rcv.buf.len + (rest.take _).length ≠ 0
    rw [List.length_take]
    omega
  · right
    obtain ⟨hgt, hsize⟩ := htakes.resolve_left hin
    rw [if_neg hin, if_pos hgt]
    unfold oooInsert
    have hnone : c.rcv.ooo.any (fun slot => slot.any fun held => held.seq == s.seq) = false := by
      rw [Vector.any_eq_false]
      intro i hi
      rw [show c.rcv.ooo[i] = none from h.ooo ⟨i, hi⟩]
      simp
    rw [if_neg (by omega), if_neg (by simp [hnone])]
    split
    · next i hi =>
      refine ⟨i, ?_⟩
      change (c.rcv.ooo.set i.1 _ i.2)[i.1] ≠ none
      simp
    · next hfull =>
      have hfirst : c.rcv.ooo[0] = none := h.ooo ⟨0, by decide⟩
      have hused := Vector.findFinIdx?_eq_none_iff.mp hfull _ (Vector.getElem_mem (i := 0) (by decide))
      rw [hfirst] at hused
      exact absurd rfl hused

lemma acceptPayload_of_not_takes (ht : ¬c.Takes s) (now : ℕ) :
    (c.acceptPayload s now).rcv = c.rcv := by
  rw [acceptPayload_eq]
  split_ifs with hpos hin hgt
  · exact absurd ⟨List.length_pos_iff.mp hpos.1, .inl hin⟩ ht
  · have hsize : mss < s.data.length := by
      by_contra hle
      exact ht ⟨List.length_pos_iff.mp hpos.1, .inr ⟨hgt, not_lt.mp hle⟩⟩
    have hdrop : c.oooInsert s.seq s.data = c := if_pos (.inr hsize)
    rw [hdrop]
    rfl
  · rfl
  · rfl

lemma answerProbe_rcv (c : Conn) (s : Segment) (now : ℕ) :
    (c.answerProbe s now).rcv = c.rcv := (keepsRecv_answerProbe c s now).rcv

/-- A segment leaves an empty receive half empty iff neither its payload nor its FIN is taken. -/
theorem inputSeq_empty_iff (h : c.rcv.Empty) (hlen : s.data.length < 2 ^ 16) (now : ℕ) :
    (c.inputSeq s now).rcv.Empty ↔ ¬c.Takes s ∧ ¬c.CountsFin s := by
  let d := (c.acceptPayload s now).answerProbe s now
  have hd : d.rcv = (c.acceptPayload s now).rcv := answerProbe_rcv _ s now
  have hseq : c.inputSeq s now = d.acceptFin s now := rfl
  -- counting a FIN leaves buffer and store alone
  have hkeep : (d.acceptFin s now).rcv.buf = d.rcv.buf ∧ (d.acceptFin s now).rcv.ooo = d.rcv.ooo := by
    unfold acceptFin
    split
    · rw [(keepsRecv_closeRead _ now).rcv]
      exact ⟨rfl, rfl⟩
    · exact ⟨rfl, rfl⟩
  rw [hseq]
  by_cases ht : c.Takes s
  · refine ⟨fun hempty => ?_, fun hno => absurd ht hno.1⟩
    rcases not_empty_acceptPayload h hlen ht now with hbuf | ⟨i, hslot⟩
    · refine absurd ?_ hbuf
      rw [← hd, ← hkeep.1]
      exact hempty.buf
    · refine absurd ?_ hslot
      rw [← hd, ← hkeep.2]
      exact hempty.ooo i
  · have hsame : d.rcv = c.rcv := hd.trans (acceptPayload_of_not_takes ht now)
    have hcond : (s.fin && seqLe (s.seq + UInt32.ofNat s.data.length) d.rcv.nxt &&
        !d.rcv.finReceived) = true ↔ c.CountsFin s := by
      rw [hsame, h.fin]
      simp [CountsFin, Segment.stop]
    unfold acceptFin
    split
    · next hfin =>
      refine ⟨fun hempty => ?_, fun hno => absurd (hcond.mp hfin) hno.2⟩
      have hcounted := hempty.fin
      rw [(keepsRecv_closeRead _ now).rcv] at hcounted
      cases hcounted
    · next hfin =>
      refine ⟨fun _ => ⟨ht, fun hc => hfin (hcond.mpr hc)⟩, fun _ => ?_⟩
      rw [hsame]
      exact h

/-! ## The send half -/

/-- A connection whose own SYN has not been acknowledged. -/
structure Unacked (c : Conn) : Prop where
  una : c.snd.una = c.snd.iss
  state : c.state.synchronised = false
  finSent : c.snd.finSent = false
  shaking : c.state = .synSent ∨ c.state = .synReceived → c.snd.nxt = c.snd.iss + 1

/-- Nothing has moved: the receive half is empty, and no segment with payload has been sent. -/
structure Untouched (c : Conn) : Prop where
  rcv : c.rcv.Empty
  out : ∀ s ∈ c.out, s.data = []

lemma Unacked.of_eq (h : Unacked c) {w : ℕ} (hsnd : c'.snd = { c.snd with wnd := w })
    (hst : c'.state = c.state ∨ c'.state = .closed) : Unacked c' := by
  refine ⟨by rw [hsnd]; exact h.una, ?_, by rw [hsnd]; exact h.finSent, fun hs => ?_⟩
  · rcases hst with hst | hst <;> rw [hst]
    · exact h.state
    · rfl
  · rcases hst with hst | hst <;> rw [hst] at hs
    · rw [hsnd]
      exact h.shaking hs
    · rcases hs with hs | hs <;> cases hs

lemma Untouched.of_emits (h : Untouched c) (hrcv : c'.rcv.Empty)
    (he : Emits (fun s => s.data = []) c c') : Untouched c' :=
  ⟨hrcv, fun s hs => (he.mem_out hs).elim (h.out s) id⟩

lemma Untouched.of_bare (h : Untouched c) (hrcv : c'.rcv.Empty) (he : Emits Segment.Bare c c') :
    Untouched c' :=
  h.of_emits hrcv (he.mono fun _ hs => hs.data)

/-- A connection that has been past its handshake: it does not go back to it, and it is not
established with the peer's FIN counted. -/
structure Late (c : Conn) : Prop where
  state : c.state.Past
  fin : c.state = .established → c.rcv.finReceived = false

def Conn.Accepts (c : Conn) (s : Segment) : Prop :=
  seqLe s.ack c.snd.una = false ∧ seqGt s.ack c.snd.nxt = false
deriving Decidable

/-! ## Past the handshake -/

namespace Late

lemma of_eq (h : Late c) (hst : c'.state = c.state)
    (hfin : c'.rcv.finReceived = c.rcv.finReceived) : Late c' :=
  ⟨hst ▸ h.state, fun he => hfin.trans (h.fin (hst ▸ he))⟩

lemma of_past (hst : c'.state.Past) (hne : c'.state ≠ .established) : Late c' :=
  ⟨hst, fun he => absurd he hne⟩

lemma action (hact : Action now c c') (h : Late c) : Late c' := by
  cases hact.effect with
  | handleAck ack =>
    exact h.of_eq (c.handleAck_state ack now) (by rw [(c.keepsRecv_handleAck ack now).rcv])
  | opened hst => exact absurd h.state (by rw [hst]; rintro (hp | hp) <;> cases hp)
  | take s rcv stats d hno _ hfin => exact h.of_eq rfl (hfin.trans hno.symm)
  | countFin _ hst => exact of_past h.state hst
  | closeWait | closing | timeWait | finWait2 | lastWait => exact of_past (.inl rfl) nofun
  | closed => exact of_past (.inr rfl) nofun
  | sendFin _ _ _ hst =>
    have hfin : (finState c.state).Past ∧ finState c.state ≠ .established := by
      cases hc : c.state <;> rw [hc] at hst <;>
        first | exact absurd hst (by decide) | exact ⟨.inl rfl, nofun⟩
    exact of_past hfin.1 hfin.2
  | _ => exact h.of_eq rfl rfl

lemma trigger (htrig : Trigger now c c') (h : Late c) : Late c' := by
  cases htrig with
  | listen s iss hst | answer s hst =>
    have hpast := hst ▸ h.state
    rcases hpast with hp | hp <;> cases hp
  | rst | timewait | giveUpIdle | giveUpRto | abort => exact of_past (.inr rfl) nofun
  | retransmit hdue =>
    exact h.of_eq (retransmit_frame c now).2 (by rw [(keepsRecv_retransmit c now).rcv])
  | _ => exact h.of_eq rfl rfl

lemma moves (h : Late c) (hm : Moves now c c') : Late c' := hm.invariant action trigger h

end Late

/-! ## A segment before our SYN is acknowledged -/

lemma handleAck_of_accepts (h : c.Accepts s) (now : ℕ) :
    (c.handleAck s.ack now).snd.una = s.ack ∧ (c.handleAck s.ack now).snd.iss = c.snd.iss := by
  have heq : c.handleAck s.ack now = c.takeAck s.ack now := by
    unfold handleAck
    rw [h.1, h.2]
    rfl
  obtain ⟨cc, rtt, d, htake, -⟩ := c.takeAck_eq s.ack now
  rw [heq, htake]
  exact ⟨rfl, rfl⟩

lemma inputAck_of_accepts (h : c.Accepts s) (now : ℕ) :
    ((c.ackView s now).handleAck s.ack now).snd.una = s.ack ∧
      ((c.ackView s now).handleAck s.ack now).snd.iss = c.snd.iss := by
  have hview := c.ackView_snd s now
  have hacc : (c.ackView s now).Accepts s := by
    unfold Accepts
    rw [hview]
    exact h
  obtain ⟨huna, hiss⟩ := handleAck_of_accepts hacc now
  exact ⟨huna, by rw [hiss, hview]⟩

lemma una_ne_iss_of_accepts (h : Unacked c) (hacc : c.Accepts s) (hacks : s.acks) (now : ℕ) :
    (c.inputOther s now).snd.una ≠ (c.inputOther s now).snd.iss := by
  obtain ⟨huna, hiss⟩ := inputAck_of_accepts hacc now
  have hsnd : (((c.inputAck s now).inputSeq s now).finAcked now).snd =
      ((c.ackView s now).handleAck s.ack now).snd := by
    rw [((keepsSend_inputSeq _ s now).trans (keepsSend_finAcked _ now)).snd]
    exact synAcked_snd _
  unfold inputOther
  rw [if_pos hacks, trySend_una, trySend_iss, hsnd, huna, hiss]
  rintro heq
  have hold := hacc.1
  rw [heq, ← h.una, seqLe_self] at hold
  cases hold

lemma late_of_accepts (h : Unacked c) (hfin : c.rcv.finReceived = false) (hacc : c.Accepts s)
    (hacks : s.acks) (hst : c.state = .synReceived ∨ c.state = .closed) (now : ℕ) :
    Late (c.inputOther s now) := by
  obtain ⟨huna, hiss⟩ := inputAck_of_accepts hacc now
  have hrcv : (c.inputAck s now).rcv = c.rcv := (c.keepsRecv_inputAck s now).rcv
  have hstate : ((c.ackView s now).handleAck s.ack now).state = c.state :=
    (handleAck_state _ s.ack now).trans (c.ackView_state s now)
  have hack : Late (c.inputAck s now) := by
    refine ⟨?_, fun _ => hrcv ▸ hfin⟩
    change ((c.ackView s now).handleAck s.ack now).synAcked.state.Past
    rcases hst with hst | hst
    · -- the only acknowledgement there is to accept is that of the SYN
      have hnxt : c.snd.nxt = place c.snd.una 1 := by
        rw [h.shaking (.inr hst), h.una]
        rfl
      obtain ⟨d, hd, hd1, heq⟩ := eq_place_of_new_ack hnxt (by decide) hacc.1 hacc.2
      obtain rfl : d = 1 := by omega
      have hge : seqGe ((c.ackView s now).handleAck s.ack now).snd.una
          (((c.ackView s now).handleAck s.ack now).snd.iss + 1) = true := by
        rw [huna, hiss, heq, h.una]
        exact seqGe_self _
      unfold synAcked
      rw [if_pos ⟨hstate.trans hst, hge⟩]
      exact .inl rfl
    · rw [synAcked_of_past (.inr (hstate.trans hst)), hstate, hst]
      exact .inr rfl
  unfold inputOther
  rw [if_pos hacks]
  have hacts : Acts now (c.inputAck s now)
      ((((c.inputAck s now).inputSeq s now).finAcked now).trySend now) :=
    ((acts_inputSeq _ s now).tail (.finAcked _)).trans (acts_trySend _ now)
  exact hack.moves hacts.moves

lemma inputOther_of_not_accepts (h : Unacked c) (hno : ¬c.Accepts s) (hacks : s.acks) (now : ℕ) :
    let b := (c.ackView s now).handleAck s.ack now
    c.inputOther s now = b.inputSeq s now ∧ b.snd = { c.snd with wnd := s.wnd.toNat } ∧
      b.state = c.state ∧ b.rcv = c.rcv ∧
      (¬c.ThirdDup s → Emits Segment.Bare c b) ∧
      (c.ThirdDup s → ∃ r ∈ b.out, r.data ≠ []) := by
  intro b
  have hview := c.ackView_snd s now
  have hstate : b.state = c.state := (handleAck_state _ s.ack now).trans (c.ackView_state s now)
  have hrcv : b.rcv = c.rcv :=
    ((keepsRecv_handleAck _ s.ack now).rcv).trans
      (((c.keepsRecv_answerSyn s now).trans (keepsRecv_noteWindow _ s)).rcv)
  have hsnd : b.snd = { c.snd with wnd := s.wnd.toNat } := by
    change ((c.ackView s now).handleAck s.ack now).snd = _
    refine (c.ackView s now).handleAck_elim s.ack now ?_ ?_
    · intros
      exact hview
    · intro _ _ _ hnew hsent
      rw [hview] at hnew hsent
      exact absurd ⟨hnew, hsent⟩ hno
  have hsyn : b.synAcked = b := by
    unfold synAcked
    rw [if_neg]
    rintro ⟨-, hge⟩
    rw [hsnd] at hge
    rw [h.una, seqGe_succ] at hge
    cases hge
  have hseq : c.inputOther s now = b.inputSeq s now :=
    inputOther_of_handleAck_eq hacks rfl hsyn (by rw [hstate]; exact h.state)
      (by rw [hsnd]; exact h.finSent)
  refine ⟨hseq, hsnd, hstate, hrcv, fun hdup => ?_, fun hdup => ?_⟩
  · rcases (c.ackView s now).handleAck_sends s now with ⟨hthird, -⟩ | ⟨-, hout⟩
    · exact absurd (thirdDup_ackView.mp hthird) hdup
    · exact (c.emits_ackView s now).trans (.of_out_eq hout)
  · rcases (c.ackView s now).handleAck_sends s now with ⟨hthird, -, hout⟩ | ⟨hnot, -⟩
    · rw [show b.out = _ from hout]
      exact ⟨_, List.mem_append_right _ (List.mem_singleton.mpr rfl),
        data_first_ne_nil hthird.2.2.2.ne'⟩
    · exact absurd (thirdDup_ackView.mpr hdup) hnot

/-- A segment moves nothing early: its acknowledgement is accepted, or it neither makes the
connection resend nor is anything of it taken. -/
def Conn.KeepsEarly (c : Conn) (s : Segment) : Prop :=
  s.rst = false → c.state ≠ .listen → c.state ≠ .synSent → s.acks → ¬c.Accepts s →
    ¬c.ThirdDup s ∧ ¬c.Takes s ∧ ¬c.CountsFin s
deriving Decidable

/-- What a call does before our SYN is acknowledged: it gets it acknowledged and past the handshake,
or it does not, and then nothing has moved iff `ok`. -/
def EarlyStep (ok : Prop) (c' : Conn) : Prop :=
  (c'.snd.una ≠ c'.snd.iss ∧ Late c' ∧ ok) ∨ (Unacked c' ∧ (Untouched c' ↔ ok))

lemma earlyStep_inputOther (h : Unacked c) (hu : Untouched c)
    (hst : c.state = .synReceived ∨ c.state = .closed) (hlen : s.data.length < 2 ^ 16) (now : ℕ) :
    EarlyStep (s.acks → ¬c.Accepts s → ¬c.ThirdDup s ∧ ¬c.Takes s ∧ ¬c.CountsFin s)
      (c.inputOther s now) := by
  cases hacks : s.acks with
  | false =>
    have heq : c.inputOther s now = c := if_neg (by simp [hacks])
    rw [heq]
    exact .inr ⟨h, fun _ => nofun, fun _ => hu⟩
  | true =>
    by_cases hacc : c.Accepts s
    · exact .inl ⟨una_ne_iss_of_accepts h hacc hacks now,
        late_of_accepts h hu.rcv.fin hacc hacks hst now, fun _ hno => absurd hacc hno⟩
    obtain ⟨hseq, hsnd, hstate, hrcv, hquiet, hresend⟩ := inputOther_of_not_accepts h hacc hacks now
    set b := (c.ackView s now).handleAck s.ack now
    have hkeep := b.keepsSend_inputSeq s now
    have hb' : b.state.synchronised = false := by rw [hstate]; exact h.state
    have hempty : b.rcv.Empty := hrcv ▸ hu.rcv
    have hiff := inputSeq_empty_iff hempty hlen now
    have htakes : b.Takes s ↔ c.Takes s := by rw [Takes, hrcv]; rfl
    have hfin : b.CountsFin s ↔ c.CountsFin s := by rw [CountsFin, hrcv]; rfl
    rw [hseq]
    refine .inr ⟨?_, ?_⟩
    · refine h.of_eq (hkeep.snd.trans hsnd) (.inl ?_)
      rw [(inputSeq_of_not_synchronised b hb' s now).1, hstate]
    rw [htakes, hfin] at hiff
    constructor
    · intro hun _ _
      refine ⟨fun hdup => ?_, hiff.mp hun.rcv⟩
      -- what was resent is still among what was sent
      obtain ⟨r, hr, hne⟩ := hresend hdup
      obtain ⟨l, hl, -⟩ := hkeep.emits
      exact hne (hun.out r (hl ▸ List.mem_append_left l hr))
    · intro hok
      obtain ⟨hdup, hrest⟩ := hok rfl hacc
      exact hu.of_bare (hiff.mpr hrest) ((hquiet hdup).trans hkeep.emits)

lemma earlyStep_inputSegment (h : Unacked c) (hu : Untouched c) (hlen : s.data.length < 2 ^ 16)
    (iss : UInt32) (now : ℕ) : EarlyStep (c.KeepsEarly s) (c.inputSegment s iss now) := by
  have hnote : Unacked (c.noteSegment now) := h.of_eq rfl (.inl rfl)
  have hnote' : Untouched (c.noteSegment now) := ⟨hu.rcv, hu.out⟩
  unfold inputSegment
  dsimp only
  split
  · next hrst =>
    have hok : ∀ {P : Prop}, (s.rst = false → P) := fun hno => by rw [hrst] at hno; cases hno
    unfold inputRst
    split
    · exact .inr ⟨h.of_eq rfl (.inr rfl), fun _ => hok, fun _ => ⟨hu.rcv, hu.out⟩⟩
    · exact .inr ⟨hnote, fun _ => hok, fun _ => hnote'⟩
  · next hrst =>
    split
    · next hst =>
      unfold inputListen
      split
      · refine .inr ⟨⟨rfl, rfl, h.finSent, fun _ => rfl⟩, fun _ _ hno => absurd hst hno, fun _ => ?_⟩
        exact hnote'.of_emits ⟨hu.rcv.buf, hu.rcv.ooo, hu.rcv.fin⟩ (.of_out_append rfl rfl)
      · exact .inr ⟨hnote, fun _ _ hno => absurd hst hno, fun _ => hnote'⟩
    · next hst =>
      unfold inputSynSent
      split_ifs with hflags hack
      · refine .inr ⟨hnote.of_eq rfl (.inl rfl), fun _ _ _ hno => absurd hst hno, fun _ => ?_⟩
        exact hnote'.of_emits hu.rcv (.of_out_append rfl rfl)
      · -- the answer to our SYN
        set d := c.noteSegment now
        have hacc : (d.synchronise s).Accepts s := by
          have hnxt : d.snd.nxt = d.snd.iss + 1 := h.shaking (.inl hst)
          refine ⟨?_, ?_⟩
          · change seqLe s.ack d.snd.una = false
            rw [not_not.mp hack, show d.snd.una = d.snd.iss from h.una]
            exact seqLe_succ_self _
          · change seqGt s.ack d.snd.nxt = false
            rw [not_not.mp hack, hnxt]
            exact seqGt_self _
        obtain ⟨huna, hiss⟩ := handleAck_of_accepts hacc now
        set e := sendAck { (d.synchronise s).handleAck s.ack now with state := .established } now
        have hlate : Late e := by
          refine ⟨.inl rfl, fun _ => ?_⟩
          change ((d.synchronise s).handleAck s.ack now).rcv.finReceived = false
          rw [(keepsRecv_handleAck _ s.ack now).rcv]
          exact hu.rcv.fin
        refine .inl ⟨?_, hlate.moves (acts_trySend e now).moves, fun _ _ hno => absurd hst hno⟩
        rw [trySend_una, trySend_iss]
        change ((d.synchronise s).handleAck s.ack now).snd.una ≠
          ((d.synchronise s).handleAck s.ack now).snd.iss
        rw [huna, hiss, not_not.mp hack]
        change c.snd.iss + 1 ≠ c.snd.iss
        simp
      · exact .inr ⟨hnote, fun _ _ _ hno => absurd hst hno, fun _ => hnote'⟩
    · next hlis hsyn =>
      have hst : (c.noteSegment now).state = .synReceived ∨ (c.noteSegment now).state = .closed := by
        have hstate := hnote.state
        generalize (c.noteSegment now).state = st at hlis hsyn hstate
        cases st <;> simp_all [State.synchronised]
      have hother := earlyStep_inputOther hnote hnote' hst hlen now
      have hok : c.KeepsEarly s ↔
          (s.acks → ¬c.Accepts s → ¬c.ThirdDup s ∧ ¬c.Takes s ∧ ¬c.CountsFin s) :=
        ⟨fun hall => hall (by simpa using hrst) hlis hsyn, fun hall _ _ _ => hall⟩
      rw [hok]
      exact hother

/-! ## Runs -/

/-- The retransmission timer resends no payload at `now`. -/
def Conn.TickKeepsEarly (c : Conn) (now : ℕ) : Prop :=
  c.rtoDue now → c.tmr.rtoBackoff < maxRetries → c.state ≠ .synSent → c.state ≠ .synReceived →
    c.snd.buf.len = 0
deriving Decidable

lemma earlyStep_tick (ht : TimerInv c) (h : Unacked c) (hu : Untouched c) (now : ℕ) :
    EarlyStep (c.TickKeepsEarly now) (c.tcpTick now).1 := by
  have hkeep := c.keepsSend_idleView now
  have hrcv := (c.keepsRecv_tcpTick now).rcv
  obtain ⟨hrto, hback, -⟩ := idleView_tmr c now
  have hst : (c.idleView now).state = c.state ∨ (c.idleView now).state = .closed := by
    rcases hkeep.state with hs | hs | ⟨hs, -⟩
    · exact .inl hs
    · exact .inr hs
    · exact absurd hs (by simp [h.state])
  have hd : Unacked (c.idleView now) := h.of_eq hkeep.snd hst
  rw [tcpTick_of_not_synchronised hd.state] at hrcv ⊢
  set d := c.idleView now
  have hempty : (d.tickRto now).1.rcv.Empty := hrcv ▸ hu.rcv
  have hdue : d.rtoDue now = c.rtoDue now := by rw [rtoDue, rtoDue, hrto]
  unfold tickRto at hempty ⊢
  split_ifs at hempty ⊢ with hdue' hgive
  · refine .inr ⟨hd.of_eq rfl (.inr rfl), fun _ _ hlt => ?_, fun _ => ?_⟩
    · rw [← hback] at hlt
      exact absurd hlt (not_lt.mpr hgive)
    · exact hu.of_bare hempty (hkeep.emits.trans (.of_out_eq rfl))
  · -- the timer was running, so the `TIME_WAIT` timer has not changed the state
    have hon : c.tmr.rtoDeadline ≠ 0 := by
      rw [hdue] at hdue'
      simp only [rtoDue, Bool.and_eq_true, bne_iff_ne] at hdue'
      exact hdue'.1
    have hsame : d.state = c.state := idleView_state ht hon now
    obtain ⟨hsnd, hstate⟩ := retransmit_frame d now
    have hre : Unacked (d.retransmit now) := hd.of_eq hsnd (.inl hstate)
    rw [trySend_of_not_synchronised hre.state] at hempty ⊢
    refine .inr ⟨hre, ?_⟩
    rcases resend_cases d.backOff now with ⟨hsent, hrcvd, hlen, heq⟩ | ⟨hno, hquiet⟩
    · have hout : (d.retransmit now).out = d.out ++
          [d.backOff.buildSegment d.snd.una (thAck ||| thPsh) (d.snd.buf.peek 0 d.first)] := by
        rw [retransmit, heq]
        rfl
      constructor
      · intro hun
        have hmem := List.mem_append_right d.out (List.mem_singleton.mpr (Eq.refl
          (d.backOff.buildSegment d.snd.una (thAck ||| thPsh) (d.snd.buf.peek 0 d.first))))
        exact absurd (hun.out _ (hout ▸ hmem)) (data_first_ne_nil hlen)
      · intro hall
        refine absurd ?_ hlen
        change d.snd.buf.len = 0
        rw [hkeep.snd]
        refine hall (hdue ▸ hdue') (by rw [← hback]; exact not_le.mp hgive) ?_ ?_
        · rw [← hsame]
          exact hsent
        · rw [← hsame]
          exact hrcvd
    · refine ⟨fun _ _ _ h1 h2 => ?_, fun _ => ?_⟩
      · by_contra h3
        refine hno ⟨?_, ?_, ?_⟩
        · exact hsame ▸ h1
        · exact hsame ▸ h2
        · change d.snd.buf.len ≠ 0
          rw [hkeep.snd]
          exact h3
      · have hnone : Emits (fun s => s.data = []) d (d.retransmit now) := hquiet
        exact hu.of_emits hempty ((hkeep.emits.mono fun _ hs => hs.data).trans hnone)
  · rw [trySend_of_not_synchronised hd.state] at hempty ⊢
    refine .inr ⟨hd, fun _ hc => absurd (hdue ▸ hc) hdue', fun _ => ?_⟩
    exact hu.of_bare hempty hkeep.emits

def Conn.CallKeepsEarly (c : Conn) (call : Call) : Prop :=
  call.Meets c c.TickKeepsEarly c.KeepsEarly
deriving Decidable

lemma earlyStep_of_untouched (h : Unacked c') (hu : Untouched c') : EarlyStep True c' :=
  .inr ⟨h, fun _ => trivial, fun _ => hu⟩

lemma earlyStep_step (ht : TimerInv c) (h : Unacked c) (hu : Untouched c) (call : Call) :
    EarlyStep (c.CallKeepsEarly call) (c.step call) := by
  cases call with
  | input pkt iss now =>
    have hstamp : Unacked (c.stamp now) := h.of_eq rfl (.inl rfl)
    have hstamp' : Untouched (c.stamp now) := ⟨hu.rcv, hu.out⟩
    have hparse : parse (c.stamp now) pkt = parse c pkt := rfl
    change EarlyStep _ (c.tcpInput pkt iss now)
    unfold tcpInput
    simp only [CallKeepsEarly, Call.Meets, hparse]
    cases hp : parse c pkt with
    | ignored => exact earlyStep_of_untouched hstamp hstamp'
    | badChecksum =>
      exact earlyStep_of_untouched (h.of_eq rfl (.inl rfl)) ⟨hu.rcv, hu.out⟩
    | segment s => exact earlyStep_inputSegment hstamp hstamp' (length_of_parse hp) iss now
  | tick now => exact earlyStep_tick ht h hu now
  | write buf now =>
    change EarlyStep True (c.tcpWrite buf now).1
    unfold tcpWrite
    dsimp only
    split_ifs
    · exact earlyStep_of_untouched (h.of_eq rfl (.inl rfl)) ⟨hu.rcv, hu.out⟩
    · exact earlyStep_of_untouched (h.of_eq rfl (.inl rfl)) ⟨hu.rcv, hu.out⟩
    · rw [trySend_of_not_synchronised (by exact h.state)]
      exact earlyStep_of_untouched ⟨h.una, h.state, h.finSent, h.shaking⟩ ⟨hu.rcv, hu.out⟩
  | read cap =>
    change EarlyStep True (c.tcpRead cap).1
    rw [tcpRead_of_empty hu.rcv cap]
    exact earlyStep_of_untouched ⟨h.una, h.state, h.finSent, h.shaking⟩ ⟨hu.rcv.drop, hu.out⟩
  | shutdownWrite now =>
    change EarlyStep True (c.tcpShutdownWrite now).1
    rw [tcpShutdownWrite_of_not_synchronised h.state]
    exact earlyStep_of_untouched h hu
  | abort now =>
    change EarlyStep True (c.tcpAbort now)
    unfold tcpAbort
    split
    · exact earlyStep_of_untouched h hu
    · exact earlyStep_of_untouched (h.of_eq rfl (.inr rfl))
        (hu.of_emits hu.rcv (.of_out_append rfl rfl))

/-- A connection, and whether an acknowledgement of its own SYN has been accepted. -/
structure SynWatch where
  conn : Conn
  acked : Bool

namespace SynWatch

def start (c : Conn) : SynWatch := { conn := c, acked := false }

/-- A call. The acknowledgement of the SYN is the first to move `snd_una` off `iss`. -/
def step (w : SynWatch) (call : Call) : SynWatch :=
  let c := w.conn.step call
  { conn := c, acked := w.acked || c.snd.una != c.snd.iss }

/-- Nothing has moved early, and the connection is not established with the peer's FIN counted. -/
structure Orderly (w : SynWatch) : Prop where
  early : w.acked = false → Untouched w.conn
  fin : ¬(w.conn.state = .established ∧ w.conn.rcv.finReceived)

def Allows (w : SynWatch) (call : Call) : Prop := w.acked = false → w.conn.CallKeepsEarly call
deriving Decidable

/-- What holds along a run in which nothing has moved early. -/
structure Inv (w : SynWatch) : Prop where
  timers : TimerInv w.conn
  early : w.acked = false → Unacked w.conn ∧ Untouched w.conn
  late : w.acked = true → Late w.conn

lemma Inv.orderly {w : SynWatch} (h : w.Inv) : w.Orderly := by
  refine ⟨fun hno => (h.early hno).2, fun ⟨hst, hfin⟩ => ?_⟩
  cases hacked : w.acked with
  | false =>
    have hempty := (h.early hacked).2.rcv.fin
    rw [hempty] at hfin
    cases hfin
  | true =>
    rw [(h.late hacked).fin hst] at hfin
    cases hfin

lemma inv_start (h : Opened c) : (start c).Inv := by
  have hooo : ∀ i : Fin oooSegs, (Vector.replicate oooSegs (none : Option OooSeg)).get i = none := by
    decide
  refine ⟨.of_opened h, fun _ => ?_, nofun⟩
  cases h with
  | connect localIp remoteIp sndMem rcvMem localPort remotePort iss now =>
    refine ⟨⟨rfl, rfl, rfl, fun _ => rfl⟩, ⟨rfl, hooo, rfl⟩, fun s hs => ?_⟩
    rw [List.mem_singleton.mp hs]
    rfl
  | listen => exact ⟨⟨rfl, rfl, rfl, nofun⟩, ⟨rfl, hooo, rfl⟩, nofun⟩

lemma Inv.step_iff {w : SynWatch} (h : w.Inv) (call : Call) :
    ((w.step call).Orderly ↔ w.Allows call) ∧ (w.Allows call → (w.step call).Inv) := by
  have ht := h.timers.step call
  cases hacked : w.acked with
  | true =>
    have hallows : w.Allows call := fun hno => by rw [hacked] at hno; cases hno
    have hinv : (w.step call).Inv := by
      refine ⟨ht, fun hno => ?_, fun _ => (h.late hacked).moves (w.conn.moves_step call)⟩
      simp [step, hacked] at hno
    exact ⟨⟨fun _ => hallows, fun _ => hinv.orderly⟩, fun _ => hinv⟩
  | false =>
    obtain ⟨hun, hu⟩ := h.early hacked
    have hallows : w.Allows call ↔ w.conn.CallKeepsEarly call := by simp [Allows, hacked]
    rcases earlyStep_step h.timers hun hu call with ⟨hne, hlate, hok⟩ | ⟨hun', hiff⟩
    · have hinv : (w.step call).Inv := by
        refine ⟨ht, fun hno => ?_, fun _ => hlate⟩
        have hyes : (w.step call).acked = true := by simp [step, hne]
        rw [hyes] at hno
        cases hno
      exact ⟨⟨fun _ => hallows.mpr hok, fun _ => hinv.orderly⟩, fun _ => hinv⟩
    · have hno : (w.step call).acked = false := by simp [step, hacked, hun'.una]
      have hinv : w.conn.CallKeepsEarly call → (w.step call).Inv := fun hok =>
        ⟨ht, fun _ => ⟨hun', hiff.mpr hok⟩, fun hyes => by rw [hno] at hyes; cases hyes⟩
      rw [hallows]
      exact ⟨⟨fun hord => hiff.mp (hord.early hno), fun hok => (hinv hok).orderly⟩, hinv⟩

end SynWatch

/-- In a run nothing is taken and no payload is sent until an acknowledgement of the connection's
own SYN has been accepted, and it is never established with the peer's FIN already counted, iff no
call before that acknowledgement moves anything. -/
theorem early_iff (hc : Opened c) (calls : List Call) :
    (∀ before, before <+: calls → (before.foldl SynWatch.step (SynWatch.start c)).Orderly) ↔
      Run.Ok SynWatch.step SynWatch.Allows (SynWatch.start c) calls :=
  Run.forall_prefix_iff (fun _ h => h.orderly) (fun _ call h => (h.step_iff call).1)
    (fun _ call h => (h.step_iff call).2) (SynWatch.inv_start hc)

/-! ## A passive open -/

def justListening : Conn :=
  ((tcpNew (Vector.replicate 16 1) (Vector.replicate 16 2) (fun _ => 0) fun _ => 0).tcpListen 9).1

def synFor : Segment :=
  { sport := 80, dport := 9, seq := 5, ack := 0, flags := thSyn, wnd := 1000, data := [] }

/-- Two bytes from the peer with the acknowledgement number `ack`. -/
def bytesFor (ack : UInt32) (flags : UInt8) : Segment :=
  { sport := 80, dport := 9, seq := 6, ack, flags, wnd := 1000, data := [1, 2] }

/-- Bytes and FIN arrive with the acknowledgement of the SYN. -/
def promptFin : List Call :=
  [.input (fromPeer synFor) 100 1, .write [7] 2,
    .input (fromPeer (bytesFor 101 (thAck ||| thFin))) 0 3]

theorem early_prompt_fin :
    (promptFin.foldl SynWatch.step (SynWatch.start justListening)).Orderly :=
  (early_iff (.listen ..) promptFin).mpr (by decide +kernel) promptFin List.prefix_rfl

/-- Bytes and FIN arrive with an acknowledgement of nothing, and then our SYN is acknowledged. -/
def hastyFin : List Call :=
  [.input (fromPeer synFor) 100 1, .input (fromPeer (bytesFor 50 (thAck ||| thFin))) 0 2,
    .input (fromPeer { synFor with seq := 9, ack := 101, flags := thAck }) 0 3]

/-- The connection is established with the peer's FIN already counted. -/
theorem early_fin :
    ¬∀ c : Conn, Opened c → ∀ calls : List Call,
      (calls.foldl SynWatch.step (SynWatch.start c)).Orderly := by
  intro h
  exact (h justListening (.listen ..) hastyFin).fin (by decide +kernel)

end Tcp
