import Tailcat.Library.Run
import Tailcat.Tcp.Sender

/-!
# The handshake and runs of the sender

Until the handshake completes nothing but the SYN is in the sequence space, and the ring holds the
whole stream `W` (`Handshaking W c`). The acknowledgement of the SYN starts the alignment of the
send half with the stream.

## Main results

* `shakes_step`: what each call does to a connection that has not completed its handshake;
* `sender_fidelity`: every segment sent after the handshake carries the stream.
-/

namespace Tcp

open SerialNumber

namespace Conn

variable {W : List UInt8} {c : Conn} {u f : ℕ} {s : Segment}

/-! ## The handshake -/

/-- Nothing but the SYN has been sent, and the ring holds the whole stream. -/
structure SynOut (W : List UInt8) (s : Send) : Prop where
  una : s.una = s.iss
  nxt : s.nxt = s.iss + 1
  bytes : s.buf.toList = W

/-- A connection that has not completed its handshake: it still has nothing in the sequence space
but its SYN, or it has closed. -/
structure Handshaking (W : List UInt8) (c : Conn) : Prop where
  finQueued : c.snd.finQueued = false
  finSent : c.snd.finSent = false
  phase : c.state = .closed ∨ (c.state = .listen ∧ c.snd.buf.toList = W) ∨
    ((c.state = .synSent ∨ c.state = .synReceived) ∧ SynOut W c.snd)

namespace Handshaking

variable {c' : Conn}

lemma not_synchronised (h : Handshaking W c) : c.state.synchronised = false := by
  rcases h.phase with hs | ⟨hs, -⟩ | ⟨hs | hs, -⟩ <;> rw [hs] <;> rfl

lemma of_eq (h : Handshaking W c) {w : ℕ} (hsnd : c'.snd = { c.snd with wnd := w })
    (hst : StateStep c.state c'.state) : Handshaking W c' := by
  refine ⟨by rw [hsnd]; exact h.finQueued, by rw [hsnd]; exact h.finSent, ?_⟩
  rcases hst with hst | hst | ⟨hst, -⟩
  · rw [hst]
    rcases h.phase with hs | ⟨hs, hb⟩ | ⟨hs, hb⟩
    · exact .inl hs
    · exact .inr (.inl ⟨hs, by rw [hsnd]; exact hb⟩)
    · exact .inr (.inr ⟨hs, by rw [hsnd]; exact ⟨hb.una, hb.nxt, hb.bytes⟩⟩)
  · exact .inl hst
  · rw [h.not_synchronised] at hst
    cases hst

lemma of_keepsSend (h : Handshaking W c) (hk : KeepsSend c c') : Handshaking W c' :=
  h.of_eq hk.snd hk.state

end Handshaking

def NoFin (s : Segment) : Prop := s.fin = false

lemma emits_noFin_of_keepsSend {c' : Conn} (h : KeepsSend c c') : Emits NoFin c c' :=
  h.emits.mono fun _ hs => hs.fin

lemma emits_noFin_data (c : Conn) {c' : Conn} {seq : UInt32} {p : List UInt8}
    (h : c'.out = c.out ++ [c.buildSegment seq (thAck ||| thPsh) p]) : Emits NoFin c c' :=
  .of_out_append h (show hasFlag (thAck ||| thPsh) thFin = false by decide)

lemma handleAck_quiet (c : Conn) (ack : UInt32) (now : ℕ) :
    (c.handleAck ack now).snd.finQueued = c.snd.finQueued ∧
      (c.handleAck ack now).snd.finSent = c.snd.finSent ∧
      (c.handleAck ack now).state = c.state ∧ Emits NoFin c (c.handleAck ack now) := by
  refine c.handleAck_elim ack now ?_ ?_
  · rintro _ _ _ _ (hout | hout)
    · exact ⟨rfl, rfl, rfl, .of_out_eq hout⟩
    · exact ⟨rfl, rfl, rfl, c.emits_noFin_data hout⟩
  · intros
    exact ⟨rfl, rfl, rfl, .of_out_eq rfl⟩

/-- The acknowledgement of our SYN starts the alignment: it frees nothing of the ring. -/
theorem handleAck_syn (h : SynOut W c.snd) (hfin : c.snd.finSent = false)
    (hst : c.state = .synSent ∨ c.state = .synReceived) (now : ℕ) :
    let c' := c.handleAck (c.snd.iss + 1) now
    c'.out = c.out ∧ c'.state = c.state ∧ c'.snd.iss = c.snd.iss ∧ SendInv W c'.snd 0 0 := by
  have hnew : seqLe (c.snd.iss + 1) c.snd.una = false := by
    rw [h.una]
    exact seqLe_succ_self _
  have hsent : seqGt (c.snd.iss + 1) c.snd.nxt = false := by
    rw [h.nxt]
    exact seqGt_self _
  have hfree : c.dataAcked (c.snd.iss + 1) = 0 := by
    have hsub : (c.snd.iss + 1 - c.snd.una).toNat = 1 := by
      have hplace := toNat_place_sub c.snd.iss (m := 0) (n := 1) (by decide) (by decide)
      rw [h.una]
      rwa [place_zero] at hplace
    unfold dataAcked
    dsimp only
    rw [hsub, if_pos hst]
    simp
  obtain ⟨cc, rtt, rto, heq, -⟩ := c.takeAck_eq (c.snd.iss + 1) now
  unfold handleAck
  rw [hnew, hsent, heq]
  refine ⟨rfl, rfl, rfl, ?_, ?_, ?_, fun _ => Nat.zero_le _, fun hf => ?_⟩
  · exact (place_zero _).symm
  · rw [place_zero]
    exact h.nxt
  · change (c.snd.buf.drop (c.dataAcked (c.snd.iss + 1))).toList = _
    rw [hfree, RingBuffer.toList_drop, h.bytes]
  · exact absurd (hfin.symm.trans hf) (by simp)

/-- Any other acknowledgement leaves the send half as it is. -/
theorem handleAck_not_syn (h : SynOut W c.snd) {ack : UInt32} (hack : ack ≠ c.snd.iss + 1)
    (now : ℕ) :
    (c.handleAck ack now).snd = c.snd ∧ (c.handleAck ack now).state = c.state ∧
      Emits NoFin c (c.handleAck ack now) := by
  have hnxt : c.snd.nxt = place c.snd.una 1 := by
    rw [h.nxt, h.una]
    rfl
  refine c.handleAck_elim ack now ?_ ?_
  · rintro _ _ _ _ (hout | hout)
    · exact ⟨rfl, rfl, .of_out_eq hout⟩
    · exact ⟨rfl, rfl, c.emits_noFin_data hout⟩
  · intro _ _ _ hold hunsent
    obtain ⟨d, hd, hd1, heq⟩ := eq_place_of_new_ack hnxt (by decide) hold hunsent
    obtain rfl : d = 1 := by omega
    rw [h.una] at heq
    exact absurd heq hack

/-- What a call does to a connection that has not completed its handshake: it does not complete it
either and sends no FIN, or it completes it and sends the stream from then on. -/
def Shakes (W : List UInt8) (c c' : Conn) : Prop :=
  (Handshaking W c' ∧ Emits NoFin c c') ∨
  (c'.state.synchronised ∧ Emits (StreamSegment W c'.snd.iss c'.snd.finQueued) c c' ∧
    ∃ u f, SendInv W c'.snd u f)

lemma shakes_of_keepsSend {c' : Conn} (h : Handshaking W c) (hk : KeepsSend c c') :
    Shakes W c c' :=
  .inl ⟨h.of_keepsSend hk, emits_noFin_of_keepsSend hk⟩

lemma trySend_of_not_synchronised (hst : c.state.synchronised = false) (now : ℕ) :
    c.trySend now = c := by
  have hno : canSend c.state = false := by
    cases hc : c.state <;> rw [hc] at hst <;> first | rfl | cases hst
  rw [trySend, hno]
  rfl

lemma synchronised_trySend (hst : c.state.synchronised) (now : ℕ) :
    (c.trySend now).state.synchronised := by
  rcases c.trySend_state now with h | ⟨-, h⟩ <;> rw [h]
  · exact hst
  · cases hc : c.state <;> rw [hc] at hst <;> first | rfl | exact hst

lemma synchronised_inputSeq (hst : c.state = .established) (s : Segment) (now : ℕ) :
    (c.inputSeq s now).state.synchronised := by
  have hprobe := (c.recvOnly_payload s now).state
  unfold inputSeq acceptFin
  split
  · have hcount : ((((c.acceptPayload s now).answerProbe s now).countFin).sendAck now).state =
        .established := hprobe.trans hst
    rw [closeRead, hcount]
    rfl
  · rw [hprobe, hst]
    rfl

lemma synAcked_eq (h : SendInv W c.snd 0 f) (hst : c.state = .synReceived) :
    c.synAcked = { c with state := .established } := by
  refine if_pos ⟨hst, ?_⟩
  rw [h.una, place_zero]
  exact seqGe_self _

lemma synAcked_of_synOut (h : SynOut W c.snd) : c.synAcked = c := by
  refine if_neg fun hc => ?_
  have hge := hc.2
  rw [h.una, seqGe_succ] at hge
  cases hge

lemma finAcked_of_not_sent (h : c.snd.finSent = false) (now : ℕ) : c.finAcked now = c := by
  rw [finAcked, h]
  rfl

def ackView (c : Conn) (s : Segment) (now : ℕ) : Conn := (c.answerSyn s now).noteWindow s

lemma ackView_snd (c : Conn) (s : Segment) (now : ℕ) :
    (c.ackView s now).snd = { c.snd with wnd := s.wnd.toNat } := by
  change { (c.answerSyn s now).snd with wnd := s.wnd.toNat } = _
  rw [(c.recvOnly_answerSyn s now).keepsSend.snd]

lemma ackView_state (c : Conn) (s : Segment) (now : ℕ) : (c.ackView s now).state = c.state :=
  (c.recvOnly_answerSyn s now).state

lemma emits_ackView (c : Conn) (s : Segment) (now : ℕ) :
    Emits Segment.Bare c (c.ackView s now) :=
  (c.recvOnly_answerSyn s now).keepsSend.emits

lemma synOut_ackView (h : SynOut W c.snd) (s : Segment) (now : ℕ) :
    SynOut W (c.ackView s now).snd := by
  rw [ackView_snd]
  exact ⟨h.una, h.nxt, h.bytes⟩

/-- The handshake is complete in `c'`, and only the stream has been sent. -/
def Opens (W : List UInt8) (c c' : Conn) : Prop :=
  c'.state.synchronised ∧ c'.snd.iss = c.snd.iss ∧
    Emits (StreamSegment W c.snd.iss c'.snd.finQueued) c c' ∧ ∃ u f, SendInv W c'.snd u f

lemma opens_inputOther (hout : SynOut W c.snd) (hfin : c.snd.finSent = false)
    (hst : c.state = .synReceived) (hacks : s.acks) (hack : s.ack = c.snd.iss + 1) (now : ℕ) :
    Opens W c (c.inputOther s now) := by
  have hvfin : (c.ackView s now).snd.finSent = false := by
    rw [ackView_snd]
    exact hfin
  have hvst := (c.ackView_state s now).trans hst
  obtain ⟨heout, hest, heiss, hinv⟩ :=
    handleAck_syn (synOut_ackView hout s now) hvfin (.inr hvst) now
  obtain ⟨-, hefin, -⟩ := (c.ackView s now).handleAck_quiet s.ack now
  have hviss : (c.ackView s now).snd.iss = c.snd.iss := by rw [ackView_snd]
  rw [hviss, ← hack] at heout hest heiss hinv
  have hack' : c.inputAck s now =
      { (c.ackView s now).handleAck s.ack now with state := .established } :=
    synAcked_eq hinv (hest.trans hvst)
  have hrest := sends_inputRest (c := c.inputAck s now) (by rw [hack']; exact hinv) s now
  have hopen := synchronised_inputSeq (c := c.inputAck s now) (by rw [hack']) s now
  have hsent : ((c.inputAck s now).inputSeq s now).snd.finSent = false := by
    rw [(keepsSend_inputSeq _ s now).snd, hack', hefin, hvfin]
  have hiss : (c.inputAck s now).snd.iss = c.snd.iss := by
    rw [hack']
    exact heiss
  unfold inputOther
  rw [if_pos hacks]
  refine ⟨?_, hrest.iss.trans hiss, ?_, hrest.inv⟩
  · rw [finAcked_of_not_sent hsent]
    exact synchronised_trySend hopen now
  · refine ((c.emits_ackView s now).mono fun _ hs => hs.streamSegment W _ _).trans ?_
    rw [← hiss]
    refine Emits.trans (.of_out_eq ?_) hrest.emits
    rw [hack']
    exact heout

lemma Handshaking.synOut (h : Handshaking W c)
    (hst : c.state = .synSent ∨ c.state = .synReceived) : SynOut W c.snd := by
  rcases h.phase with hs | ⟨hs, -⟩ | ⟨-, hs⟩
  · rcases hst with hst | hst <;> cases hst.symm.trans hs
  · rcases hst with hst | hst <;> cases hst.symm.trans hs
  · exact hs

lemma shakes_inputOther_synReceived (h : Handshaking W c) (hst : c.state = .synReceived)
    (s : Segment) (now : ℕ) : Shakes W c (c.inputOther s now) := by
  have hout := h.synOut (.inr hst)
  cases hacks : s.acks with
  | true =>
    by_cases hack : s.ack = c.snd.iss + 1
    · obtain ⟨hopen, hiss, hemit, hinv⟩ := opens_inputOther hout h.finSent hst hacks hack now
      exact .inr ⟨hopen, hiss ▸ hemit, hinv⟩
    left
    have hvsnd := c.ackView_snd s now
    have hvout := synOut_ackView hout s now
    obtain ⟨hesnd, hest, hemit⟩ := handleAck_not_syn hvout (by rwa [hvsnd]) now
    have hack' : c.inputAck s now = (c.ackView s now).handleAck s.ack now :=
      synAcked_of_synOut (c := (c.ackView s now).handleAck s.ack now) (by rwa [hesnd])
    have hseq := keepsSend_inputSeq ((c.ackView s now).handleAck s.ack now) s now
    have hstate := hseq.state
    rw [hest, ackView_state] at hstate
    have hnext := h.of_eq ((hseq.snd.trans hesnd).trans hvsnd) hstate
    unfold inputOther
    rw [if_pos hacks, hack', finAcked_of_not_sent hnext.finSent,
      trySend_of_not_synchronised hnext.not_synchronised]
    exact ⟨hnext, ((c.emits_ackView s now).mono fun _ hs => hs.fin).trans
      (hemit.trans (emits_noFin_of_keepsSend hseq))⟩
  | false =>
    unfold inputOther
    rw [hacks]
    exact .inl ⟨h, .refl c⟩

lemma shakes_inputOther_closed (h : Handshaking W c) (hst : c.state = .closed) (s : Segment)
    (now : ℕ) : Shakes W c (c.inputOther s now) := by
  have hpast : ∀ {d : Conn}, StateStep c.state d.state → d.state = .closed := by
    rintro d (hd | hd | ⟨hd, -⟩)
    · exact hd.trans hst
    · exact hd
    · rw [hst] at hd
      cases hd
  let d := (c.answerSyn s now).noteWindow s
  have hsyn := (c.recvOnly_answerSyn s now).keepsSend
  obtain ⟨hq, hf, hdst, hemit⟩ := d.handleAck_quiet s.ack now
  have hclosed : (d.handleAck s.ack now).state = .closed := hdst.trans (hpast hsyn.state)
  unfold inputOther
  split
  · have hack' : c.inputAck s now = d.handleAck s.ack now := synAcked_of_past (.inr hclosed)
    have hrest := (keepsSend_inputSeq (d.handleAck s.ack now) s now).trans (keepsSend_finAcked _ now)
    have hend : (((d.handleAck s.ack now).inputSeq s now).finAcked now).state = .closed :=
      hpast (by rw [hst, ← hclosed]; exact hrest.state)
    rw [hack', trySend_of_not_synchronised (by rw [hend]; rfl)]
    refine .inl ⟨⟨?_, ?_, .inl hend⟩, (emits_noFin_of_keepsSend hsyn).trans ?_⟩
    · rw [hrest.snd, hq]
      change (c.answerSyn s now).snd.finQueued = false
      rw [hsyn.snd, h.finQueued]
    · rw [hrest.snd, hf]
      change (c.answerSyn s now).snd.finSent = false
      rw [hsyn.snd, h.finSent]
    · exact Emits.trans hemit (emits_noFin_of_keepsSend hrest)
  · exact .inl ⟨h, .refl c⟩

lemma shakes_inputListen (h : Handshaking W c) (hst : c.state = .listen) (s : Segment)
    (iss : UInt32) (now : ℕ) : Shakes W c (c.inputListen s iss now) := by
  have hbuf : c.snd.buf.toList = W := by
    rcases h.phase with hs | ⟨-, hs⟩ | ⟨hs | hs, -⟩
    · cases hst.symm.trans hs
    · exact hs
    · cases hst.symm.trans hs
    · cases hst.symm.trans hs
  unfold inputListen
  split
  · refine .inl ⟨⟨h.finQueued, h.finSent, .inr (.inr ⟨.inr rfl, rfl, rfl, hbuf⟩)⟩, ?_⟩
    exact .of_out_append rfl (show hasFlag (thSyn ||| thAck) thFin = false by decide)
  · exact .inl ⟨h, .refl c⟩

lemma inputSynSent_eq (hsyn : s.syn) (hacks : s.acks) (hack : s.ack = c.snd.iss + 1) (now : ℕ) :
    c.inputSynSent s now =
      (Conn.sendAck { (c.synchronise s).handleAck s.ack now with state := .established } now).trySend
        now := by
  unfold inputSynSent
  rw [hsyn, hacks, Bool.and_self, if_pos rfl, if_neg (by rw [hack]; simp)]

lemma opens_inputSynSent (hout : SynOut W c.snd) (hfin : c.snd.finSent = false)
    (hst : c.state = .synSent) (hsyn : s.syn) (hacks : s.acks) (hack : s.ack = c.snd.iss + 1)
    (now : ℕ) :
    Opens W c (c.inputSynSent s now) := by
  let d := c.synchronise s
  obtain ⟨hdout, -, hdiss, hinv⟩ := handleAck_syn (c := d)
    ⟨hout.una, hout.nxt, hout.bytes⟩ hfin (.inl hst) now
  rw [show d.snd.iss + 1 = s.ack from hack.symm] at hdout hdiss hinv
  let e : Conn := { d.handleAck s.ack now with state := .established }
  have hsend := Sends.of_keepsSend (e.recvOnly_sendAck now).keepsSend hinv
  have htry := hsend.trans (sends_trySend (c := e.sendAck now) hinv now)
  have hiss : e.snd.iss = c.snd.iss := hdiss
  rw [inputSynSent_eq hsyn hacks hack]
  refine ⟨synchronised_trySend rfl now, htry.iss.trans hiss, ?_, htry.inv⟩
  rw [← hiss]
  exact Emits.trans (.of_out_eq hdout) htry.emits

lemma shakes_inputSynSent (h : Handshaking W c) (hst : c.state = .synSent) (s : Segment)
    (now : ℕ) : Shakes W c (c.inputSynSent s now) := by
  have hout := h.synOut (.inl hst)
  by_cases hopen : s.syn ∧ s.acks ∧ s.ack = c.snd.iss + 1
  · obtain ⟨hsyn, hacks, hack⟩ := hopen
    obtain ⟨hst', hiss, hemit, hinv⟩ := opens_inputSynSent hout h.finSent hst hsyn hacks hack now
    exact .inr ⟨hst', hiss ▸ hemit, hinv⟩
  unfold inputSynSent
  split_ifs with hsyn hack
  · exact .inl ⟨h.of_eq rfl (.refl _),
      .of_out_append rfl (show hasFlag (thRst ||| thAck) thFin = false by decide)⟩
  · rw [Bool.and_eq_true] at hsyn
    exact absurd ⟨hsyn.1, hsyn.2, not_not.mp hack⟩ hopen
  · exact .inl ⟨h, .refl c⟩

lemma shakes_inputSegment (h : Handshaking W c) (s : Segment) (iss : UInt32) (now : ℕ) :
    Shakes W c (c.inputSegment s iss now) := by
  have hnote : KeepsSend c (c.noteSegment now) := .of_eq rfl rfl rfl
  have hnext : Handshaking W (c.noteSegment now) := h.of_keepsSend hnote
  have hlift : ∀ c', Shakes W (c.noteSegment now) c' → Shakes W c c' := fun c' h' => h'
  unfold inputSegment
  dsimp only
  split_ifs
  · exact shakes_of_keepsSend h (hnote.trans (keepsSend_inputRst _ s))
  have hst : (c.noteSegment now).state = c.state := rfl
  rcases h.phase with hs | ⟨hs, -⟩ | ⟨hs | hs, -⟩
  · rw [hst, hs]
    exact hlift _ (shakes_inputOther_closed hnext hs s now)
  · rw [hst, hs]
    exact hlift _ (shakes_inputListen hnext hs s iss now)
  · rw [hst, hs]
    exact hlift _ (shakes_inputSynSent hnext hs s now)
  · rw [hst, hs]
    exact hlift _ (shakes_inputOther_synReceived hnext hs s now)

lemma shakes_tcpInput (h : Handshaking W c) (pkt : List UInt8) (iss : UInt32) (now : ℕ) :
    Shakes W c (c.tcpInput pkt iss now) := by
  have hstamp : KeepsSend c (c.stamp now) := .of_eq rfl rfl rfl
  have hlift : ∀ c', Shakes W (c.stamp now) c' → Shakes W c c' := fun c' h' => h'
  unfold tcpInput
  dsimp only
  split
  · exact shakes_of_keepsSend h hstamp
  · exact shakes_of_keepsSend h (.of_eq rfl rfl rfl)
  · exact hlift _ (shakes_inputSegment (h.of_keepsSend hstamp) _ iss now)

lemma kaDue_of_not_synchronised (hst : c.state.synchronised = false) (now : ℕ) :
    c.kaDue now = false := by
  have hidle : c.kaActive = false := by
    unfold kaActive
    cases hc : c.state <;> rw [hc] at hst <;> first | exact Bool.and_false _ | cases hst
  rw [kaDue, hidle]
  rfl

lemma resend_quiet (hf : c.snd.finSent = false) (now : ℕ) :
    (c.resend now).snd = c.snd ∧ (c.resend now).state = c.state ∧ Emits NoFin c (c.resend now) := by
  unfold resend
  split_ifs with hsent hrcvd hdata hfin
  · exact ⟨rfl, rfl, .of_out_append rfl (show hasFlag thSyn thFin = false by decide)⟩
  · exact ⟨rfl, rfl, .of_out_append rfl (show hasFlag (thSyn ||| thAck) thFin = false by decide)⟩
  · exact ⟨rfl, rfl, c.emits_noFin_data rfl⟩
  · rw [hf] at hfin
    cases hfin
  · exact ⟨rfl, rfl, .refl c⟩

section

variable (h : Handshaking W c)

include h

lemma shakes_tcpTick (now : ℕ) : Shakes W c (c.tcpTick now).1 := by
  have hview := c.keepsSend_idleView now
  have hnext := h.of_keepsSend hview
  change Shakes W c ((c.idleView now).tickKeepalive now).1
  unfold tickKeepalive
  rw [kaDue_of_not_synchronised hnext.not_synchronised, if_neg (by simp)]
  unfold tickRto
  split_ifs
  · exact .inl ⟨hnext.of_eq rfl (.inr (.inl rfl)),
      (emits_noFin_of_keepsSend hview).trans (.of_out_eq rfl)⟩
  · obtain ⟨hsnd, hst, hemit⟩ := resend_quiet (c := (c.idleView now).backOff) hnext.finSent now
    have hagain : Handshaking W ((c.idleView now).retransmit now) := hnext.of_eq hsnd (.inl hst)
    rw [trySend_of_not_synchronised hagain.not_synchronised]
    exact .inl ⟨hagain, (emits_noFin_of_keepsSend hview).trans hemit⟩
  · rw [trySend_of_not_synchronised hnext.not_synchronised]
    exact shakes_of_keepsSend h hview

lemma shakes_tcpWrite (buf : List UInt8) (now : ℕ) :
    Shakes (W ++ Call.bytesWritten c (.write buf now)) c (c.tcpWrite buf now).1 := by
  have hnow : Shakes W c (c.stamp now) := shakes_of_keepsSend h (.of_eq rfl rfl rfl)
  unfold Call.bytesWritten tcpWrite
  dsimp only
  split_ifs
  · simpa using hnow
  · simpa using hnow
  have hbuf := c.snd.buf.toList_push (c.snd.buf.length_take_space buf)
  have hpush : Handshaking (W ++ buf.take (min buf.length c.snd.buf.space))
      ((c.stamp now).sndPush _ ((c.stamp now).snd.buf.length_take_space buf)) := by
    refine ⟨h.finQueued, h.finSent, ?_⟩
    rcases h.phase with hs | ⟨hs, hb⟩ | ⟨hs, hb⟩
    · exact .inl hs
    · exact .inr (.inl ⟨hs, by rw [← hb]; exact hbuf⟩)
    · exact .inr (.inr ⟨hs, hb.una, hb.nxt, by
        rw [← hb.bytes]
        exact hbuf⟩)
  refine .inl ?_
  rw [trySend_of_not_synchronised hpush.not_synchronised]
  exact ⟨hpush, .of_out_eq rfl⟩

lemma shakes_tcpShutdownWrite (now : ℕ) : Shakes W c (c.tcpShutdownWrite now).1 := by
  have hno : c.state ≠ .established ∧ c.state ≠ .closeWait := by
    have hst := h.not_synchronised
    constructor <;> intro hc <;> rw [hc] at hst <;> cases hst
  unfold tcpShutdownWrite
  split_ifs
  · exact .inl ⟨h, .refl c⟩
  · exact .inl ⟨h, .refl c⟩

lemma shakes_tcpAbort (now : ℕ) : Shakes W c (c.tcpAbort now) := by
  unfold tcpAbort
  split
  · exact .inl ⟨h, .refl c⟩
  · exact .inl ⟨h.of_eq rfl (.inr (.inl rfl)),
      .of_out_append rfl (show hasFlag (thRst ||| thAck) thFin = false by decide)⟩

/-- What each call does to a connection that has not completed its handshake. -/
theorem shakes_step (call : Call) : Shakes (W ++ call.bytesWritten c) c (c.step call) := by
  have hnil : ∀ c', Shakes W c c' → Shakes (W ++ []) c c' := fun c' h' => by
    rwa [List.append_nil]
  cases call with
  | input pkt iss now => exact hnil _ (shakes_tcpInput h pkt iss now)
  | tick now => exact hnil _ (shakes_tcpTick h now)
  | write buf now => exact shakes_tcpWrite h buf now
  | read cap => exact hnil _ (shakes_of_keepsSend h (c.recvOnly_tcpRead cap).keepsSend)
  | shutdownWrite now => exact hnil _ (shakes_tcpShutdownWrite h now)
  | abort now => exact hnil _ (shakes_tcpAbort h now)

end

lemma Opened.handshaking (h : Opened c) : Handshaking [] c := by
  cases h with
  | connect => exact ⟨rfl, rfl, .inr (.inr ⟨.inl rfl, rfl, rfl, rfl⟩)⟩
  | listen => exact ⟨rfl, rfl, .inr (.inl ⟨rfl, rfl⟩)⟩

/-! ## Runs -/

/-- An observer of a run: what the connection has accepted for sending, and whether it has
completed its handshake. -/
structure SendWatch where
  conn : Conn
  written : List UInt8
  opened : Bool

namespace SendWatch

def start (c : Conn) : SendWatch := { conn := c, written := [], opened := false }

def step (w : SendWatch) (call : Call) : SendWatch :=
  { conn := w.conn.step call
    written := w.written ++ call.bytesWritten w.conn
    opened := w.opened || (w.conn.step call).state.synchronised }

structure Inv (w : SendWatch) : Prop where
  shaking : w.opened = false → Handshaking w.written w.conn
  aligned : w.opened = true → w.conn.state.Past ∧ ∃ u f, SendInv w.written w.conn.snd u f
  fins : ∀ s ∈ w.conn.out, s.fin →
    w.conn.snd.finQueued ∧ s.seq = place (w.conn.snd.iss + 1) w.written.length

variable {c : Conn} {call : Call} {w : SendWatch}

lemma inv_start (h : Opened c) : Inv (start c) := by
  refine ⟨fun _ => h.handshaking, nofun, fun s hs hf => ?_⟩
  have hno : ∀ s ∈ c.out, s.fin = false := by
    cases h with
    | connect =>
      rintro s hs
      obtain rfl := List.mem_singleton.mp hs
      exact show hasFlag thSyn thFin = false by decide
    | listen => exact fun s hs => absurd hs List.not_mem_nil
  exact absurd ((hno s hs).symm.trans hf) (by simp)

lemma bytesWritten_of_finQueued (h : c.snd.finQueued) (call : Call) : call.bytesWritten c = [] := by
  cases call with
  | write buf now =>
    have hq : (c.stamp now).snd.finQueued = true := h
    unfold Call.bytesWritten tcpWrite
    dsimp only
    rw [if_pos hq]
    rfl
  | _ => rfl

lemma emits_step (h : Inv w) (hopen : (w.step call).opened) :
    (w.step call).conn.state.Past ∧
    Emits (fun s => StreamSegment (w.step call).written (w.step call).conn.snd.iss
      (w.step call).conn.snd.finQueued s ∨ call.Probes w.conn s ∨ call.Resets w.conn s) w.conn
      (w.step call).conn ∧
    ∃ u f, SendInv (w.step call).written (w.step call).conn.snd u f := by
  cases hw : w.opened with
  | true =>
    obtain ⟨hst, u, f, hinv⟩ := h.aligned hw
    have hstep := sends_step hinv hst call
    refine ⟨hstep.state.past hst, ?_, hstep.inv⟩
    have hemit := hstep.emits
    rw [← hstep.iss] at hemit
    exact hemit
  | false =>
    rcases shakes_step (h.shaking hw) call with ⟨hshake, -⟩ | ⟨hst, hemit, hinv⟩
    · -- the handshake is not complete, so the connection has not been opened
      have hno := hshake.not_synchronised
      simp only [step, hw] at hopen
      exact absurd (hno.symm.trans hopen) (by simp)
    · exact ⟨.inl hst, hemit.mono fun _ hs => .inl hs, hinv⟩

lemma isProbe_of_probes (h : call.Probes c s) : s.isProbe = true := by
  cases call with
  | tick now =>
    obtain ⟨-, rfl⟩ := h
    rfl
  | _ => exact h.elim

lemma fin_of_probes (h : call.Probes c s) : s.fin = false := by
  cases call with
  | tick now =>
    obtain ⟨-, rfl⟩ := h
    exact show hasFlag thAck thFin = false by decide
  | _ => exact h.elim

lemma bare_of_resets (h : call.Resets c s) : s.data = [] ∧ s.fin = false := by
  cases call with
  | abort now =>
    rw [h]
    exact ⟨rfl, show hasFlag (thRst ||| thAck) thFin = false by decide⟩
  | _ => exact h.elim

lemma inv_step (h : Inv w) (call : Call) : Inv (w.step call) := by
  cases hopen : (w.step call).opened with
  | true =>
    obtain ⟨hst, hemit, hinv⟩ := emits_step h hopen
    refine ⟨by simp [hopen], fun _ => ⟨hst, hinv⟩, fun s hs hf => ?_⟩
    rcases hemit.mem_out hs with hs | hs | hs | hs
    · -- an earlier FIN: nothing has been written since
      obtain ⟨hq, hseq⟩ := h.fins s hs hf
      cases hw : w.opened with
      | true =>
        obtain ⟨hst, u, f, hinv⟩ := h.aligned hw
        have hstep := sends_step hinv hst call
        refine ⟨hstep.queued hq, ?_⟩
        change s.seq = place ((w.conn.step call).snd.iss + 1) (w.written ++ _).length
        rw [hstep.iss, bytesWritten_of_finQueued hq, List.append_nil, hseq]
      | false => exact absurd ((h.shaking hw).finQueued.symm.trans hq) (by simp)
    · exact ⟨(hs.fin hf).1, (hs.fin hf).2.2⟩
    · exact absurd ((fin_of_probes hs).symm.trans hf) (by simp)
    · exact absurd ((bare_of_resets hs).2.symm.trans hf) (by simp)
  | false =>
    simp only [step, Bool.or_eq_false_iff] at hopen
    have hshake := h.shaking hopen.1
    rcases shakes_step hshake call with ⟨hnext, hemit⟩ | ⟨hst, -⟩
    · refine ⟨fun _ => hnext, by simp [step, hopen], fun s hs hf => ?_⟩
      rcases hemit.mem_out hs with hs | hs
      · exact absurd (hshake.finQueued.symm.trans (h.fins s hs hf).1) (by simp)
      · exact absurd (hs.symm.trans hf) (by simp)
    · exact absurd (hst.symm.trans hopen.2) (by simp)

/-- The segment carries the bytes written at the offset of its sequence number. -/
def Carries (w : SendWatch) (s : Segment) : Prop :=
  ∃ o, s.seq = place (w.conn.snd.iss + 1) o ∧ s.data = (w.written.drop o).take s.data.length ∧
    o + s.data.length ≤ w.written.length ∧ w.written.length ≤ o + sndBufLen

end SendWatch

/-- Sender fidelity over whole runs: whatever a connection has been given to write and to take in,
once it has completed its handshake every segment that it sends with payload, and that is no
keepalive probe, carries the bytes written at the offset of its sequence number, and every FIN
that it has ever sent stands right after the last byte written. -/
theorem sender_fidelity {c : Conn} (hc : Opened c) (calls : List Call) (call : Call) :
    let w := calls.foldl SendWatch.step (SendWatch.start c)
    let w' := w.step call
    w'.opened →
    (∀ s ∈ newOut w.conn w'.conn, s.data ≠ [] → s.isProbe = false → w'.Carries s) ∧
    ∀ s ∈ w'.conn.out, s.fin → s.seq = place (w'.conn.snd.iss + 1) w'.written.length := by
  intro w w' hopen
  have h : SendWatch.Inv w :=
    Run.foldl_invariant (SendWatch.inv_start hc) (fun _ i hw => SendWatch.inv_step hw i) calls
  obtain ⟨-, hemit, -⟩ := SendWatch.emits_step h hopen
  refine ⟨fun s hs hdata hprobe => ?_, fun s hs hf => ((SendWatch.inv_step h call).fins s hs hf).2⟩
  rcases hemit.mem_newOut hs with hs | hs | hs
  · obtain ⟨o, hseq, hpiece, hnear⟩ := hs.data hdata
    exact ⟨o, hseq, List.prefix_iff_eq_take.mp hpiece, Stream.piece_le hpiece hdata, hnear⟩
  · exact absurd (SendWatch.isProbe_of_probes hs) (by simp [hprobe])
  · exact absurd (SendWatch.bare_of_resets hs).1 hdata

/-- A connection that has sent a SYN whose sequence number is the last but one before the wrap. -/
def justConnected : Conn :=
  ((tcpNew (Vector.replicate 16 1) (Vector.replicate 16 2) (fun _ => 0) fun _ => 0).tcpConnect
    9 80 0xfffffffe 0).1

/-- The answer to the SYN of `justConnected`. -/
def synAckFor : Segment :=
  { sport := 80, dport := 9, seq := 5, ack := 0xffffffff, flags := thSyn ||| thAck, wnd := 1000,
    data := [] }

private lemma opened_justConnected : Opened justConnected := .connect ..

private lemma synchronised_after_synAck :
    ((justConnected.step (.write [7, 8] 1)).step (.input (packet (Vector.replicate 16 2)
      (Vector.replicate 16 1) synAckFor) 0 2)).state.synchronised := by
  decide +kernel

theorem sender_fidelity_first_write :
    let w := [Call.write [7, 8] 1].foldl SendWatch.step (SendWatch.start justConnected)
    let w' := w.step (.input (packet (Vector.replicate 16 2) (Vector.replicate 16 1) synAckFor) 0 2)
    w'.opened ∧ ∀ s ∈ newOut w.conn w'.conn, s.data ≠ [] → s.isProbe = false → w'.Carries s :=
  ⟨synchronised_after_synAck,
    (sender_fidelity opened_justConnected [.write [7, 8] 1] _ synchronised_after_synAck).1⟩

end Conn

end Tcp
