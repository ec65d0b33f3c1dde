import Tailcat.Ssh.Input

/-!
# Answers to requests

Packets are taken up in several places, and each place knows some of the requests: before the channel is
open a request for a channel is not expected, and after it only requests for the channel are answered.
While a write waits for the peer's window, none is.

## Main results

* `requests_answered`: where requests come only where they are expected and are parsed, each one that
  wants an answer gets one, in order;
* `request_unanswered`: in general it does not.
-/

namespace Ssh

open Wbuf ByteOrder Program Conn List

/-! ## Requests -/

/-- Whether a well-formed request for the channel wants an answer. -/
def channelWantsReply (localId : ℕ) (payload : List UInt8) : Bool :=
  let r := (Rbuf.init payload).getByte.2
  let (id, r) := r.getU32
  let r := (r.getString sizeMax).2
  let (wantReply, r) := r.getBool
  r.ok && id = localId && wantReply

/-- Whether a message that opens a channel is well formed. -/
def opensChannel (payload : List UInt8) : Bool :=
  let r := (Rbuf.init payload).getByte.2
  let r := (r.getString sizeMax).2
  r.getU32.2.getU32.2.getU32.2.ok

/-- The answer that a packet asks for. -/
def Taken.owed (localId : ℕ) (t : Taken) : Option Kind :=
  if t.msgType = msgGlobalRequest then
    if Server.globalWantsReply t.payload then some .global else none
  else if t.msgType = msgChannelOpen then
    if opensChannel t.payload then some .channelOpen else none
  else if t.msgType = msgChannelRequest then
    if t.channelOpen && channelWantsReply localId t.payload then some .channelRequest else none
  else none

def owedFor (localId : ℕ) (taken : List Taken) : List Kind := taken.filterMap (Taken.owed localId)

variable {ch ch' : Channel} {payload type : List UInt8} {localId n cap : ℕ} {t : Taken}
  {r r' : Rbuf} {e : Err} {req : ChannelRequest} {c : Conn} {x : EStateM Err Conn α}

lemma owedFor_append (localId : ℕ) (l l' : List Taken) :
    owedFor localId (l ++ l') = owedFor localId l ++ owedFor localId l' :=
  filterMap_append

lemma owedFor_eq_nil {l : List Taken} (h : ∀ t ∈ l, t.owed localId = none) :
    owedFor localId l = [] :=
  filterMap_eq_nil_iff.mpr h

lemma owedFor_singleton (localId : ℕ) (t : Taken) :
    owedFor localId [t] = (t.owed localId).toList := by
  rw [owedFor, filterMap_cons]
  cases t.owed localId <;> rfl

lemma Taken.owed_of_global (localId : ℕ) (h : t.msgType = msgGlobalRequest) :
    t.owed localId = if Server.globalWantsReply t.payload then some .global else none :=
  if_pos h

lemma Taken.owed_of_open (localId : ℕ) (h : t.msgType = msgChannelOpen) :
    t.owed localId = if opensChannel t.payload then some .channelOpen else none := by
  rw [owed, h, if_neg (by decide), if_pos rfl]

lemma Taken.owed_of_request (localId : ℕ) (h : t.msgType = msgChannelRequest) :
    t.owed localId =
      if t.channelOpen && channelWantsReply localId t.payload then some .channelRequest else none := by
  rw [owed, h, if_neg (by decide), if_neg (by decide), if_pos rfl]

lemma Taken.owed_of_other (hglobal : t.msgType ≠ msgGlobalRequest)
    (hopen : t.msgType ≠ msgChannelOpen)
    (hrequest : t.msgType ≠ msgChannelRequest) : t.owed localId = none := by
  rw [owed, if_neg hglobal, if_neg hopen, if_neg hrequest]

lemma Taken.owed_of_lt (h : t.msgType < msgGlobalRequest) : t.owed localId = none := by
  refine owed_of_other ?_ ?_ ?_
  all_goals
    intro hmsg
    rw [hmsg] at h
    exact absurd h (by decide)

/-- A packet that is expected while the channel is not open: a request that wants an answer is a global one
or asks for a channel and is parsed. -/
def Taken.Opening (localId : ℕ) (t : Taken) : Prop :=
  t.owed localId = none ∨ t.inKex = false ∧ (t.msgType = msgGlobalRequest ∨
    t.msgType = msgChannelOpen ∧ (channelOpenParse channelInit 32 t.payload).isOk = true)
deriving Decidable

/-- A packet that is expected while the channel is open: a request that wants an answer is for the channel
and is parsed. -/
def Taken.Requesting (ch : Channel) (t : Taken) : Prop :=
  t.owed ch.localId = none ∨ t.inKex = false ∧ t.msgType = msgChannelRequest ∧
    (channelRequestParse ch t.payload).isOk = true
deriving Decidable

/-! ## Messages that are parsed -/

lemma Rbuf.getString_mono {p : ℕ × ℕ} {m m' : ℕ} (h : r.getString m = (some p, r')) (hle : m ≤ m') :
    r.getString m' = (some p, r') := by
  unfold Rbuf.getString at h ⊢
  dsimp only at h ⊢
  split_ifs at h with hbad hshort hmax <;> cases h
  rw [if_neg hbad, if_neg hshort, if_neg (by omega)]

lemma Rbuf.getString_of_getCstring {s : List UInt8} (h : r.getCstring cap = (some s, r'))
    (hcap : cap ≤ sizeMax) :
    (r.getString sizeMax).2 = r' := by
  unfold Rbuf.getCstring at h
  split at h
  · cases h
  rename_i hstring
  dsimp only at h
  split at h
  · cases h
  · rw [Rbuf.getString_mono hstring (by omega)]
    exact (Prod.mk.inj h).2

lemma of_channelOpenParse (hcap : cap ≤ sizeMax)
    (h : channelOpenParse ch cap payload = .ok (ch', type)) :
    opensChannel payload = true ∧ ∃ id window max, ch' = ch.adopt id window max := by
  unfold channelOpenParse at h
  dsimp only at h
  repeat
    split at h
    · cases h
  rename_i hstring hok _
  refine ⟨?_, _, _, _, (Prod.mk.inj (Except.ok.inj h)).1.symm⟩
  unfold opensChannel
  dsimp only
  rw [Rbuf.getString_of_getCstring hstring hcap, Rbuf.ok]
  simpa using hok

lemma isOk_channelOpenParse (ch ch1 : Channel) (cap : ℕ) (payload : List UInt8) :
    (channelOpenParse ch cap payload).isOk = (channelOpenParse ch1 cap payload).isOk := by
  unfold channelOpenParse
  dsimp only
  split
  · rfl
  split
  · rfl
  split
  · rfl
  · split <;> rfl

lemma channelRequestParse_congr (h : ch.localId = ch'.localId) :
    channelRequestParse ch payload = channelRequestParse ch' payload := by
  unfold channelRequestParse
  rw [h]

lemma wantReply_of_channelRequestBody {wantReply : Bool}
    (h : channelRequestBody type wantReply r = .ok req) :
    wantReply = req.wantReply := by
  revert h
  fun_cases channelRequestBody type wantReply r <;> intro h <;> cases h <;> rfl

lemma channelWantsReply_of_parse (h : channelRequestParse ch payload = .ok req) :
    channelWantsReply ch.localId payload = req.wantReply := by
  have hcap : 64 ≤ sizeMax := by decide
  unfold channelRequestParse at h
  dsimp only at h
  repeat
    split at h
    · cases h
  rename_i hid _ _ _ hstring hok
  rw [← wantReply_of_channelRequestBody h, channelWantsReply]
  dsimp only
  rw [Rbuf.getString_of_getCstring hstring hcap, Rbuf.ok, not_not.mp hid]
  simp [hok]

/-! ## Messages that answer -/

lemma channelOpenFailureBuild_ok (remoteId : ℕ) :
    ∃ msg, channelOpenFailureBuild 512 remoteId openUnknownChannelType (ascii "only one session") =
      .ok msg ∧ answerOf (msg.getD 0 0) = some .channelOpen := by
  have hlen : (ascii "only one session").length = 16 := by decide
  have hfields := finish_foldl_putRaw 512 [[msgChannelOpenFailure],
    writeBE32 (.ofNat remoteId), writeBE32 (.ofNat openUnknownChannelType),
    writeBE32 (.ofNat (ascii "only one session").length), ascii "only one session",
    writeBE32 (.ofNat ([] : List UInt8).length), []] (by simp [hlen])
  simp only [foldl_cons, foldl_nil] at hfields
  rw [channelOpenFailureBuild, putString_eq _ (by decide), putString_eq _ (by omega),
    putByte, putU32, putU32, hfields]
  exact ⟨_, rfl, rfl⟩

lemma channelConfirmBuild_ok (ch : Channel) :
    ∃ msg, channelConfirmBuild 512 ch = .ok msg ∧ answerOf (msg.getD 0 0) = some .channelOpen :=
  ⟨_, finish_foldl_putRaw 512 [[msgChannelOpenConfirmation],
    writeBE32 (.ofNat ch.remoteId), writeBE32 (.ofNat ch.localId),
    writeBE32 (.ofNat ch.localWindow), writeBE32 (.ofNat chanMaxPacket)] (by simp), rfl⟩

lemma finish_short (hcap : 5 ≤ cap) (msg : UInt8) (id : ℕ) :
    (((init cap).putByte msg).putU32 id).finish = .ok ([[msg], writeBE32 (.ofNat id)].flatten) :=
  finish_foldl_putRaw cap [[msg], writeBE32 (.ofNat id)] hcap

lemma channelEofBuild_ok (ch : Channel) :
    ∃ msg, channelEofBuild 64 ch = .ok ({ ch with eofSent := true }, msg) := by
  rw [channelEofBuild, finish_short (by decide)]
  exact ⟨_, rfl⟩

lemma channelCloseBuild_ok (ch : Channel) :
    ∃ msg, channelCloseBuild 64 ch = .ok ({ ch with closed := true }, msg) := by
  rw [channelCloseBuild, finish_short (by decide)]
  exact ⟨_, rfl⟩

lemma channelReplyBuild_ok (remoteId : ℕ) (accept : Bool) (hcap : 5 ≤ cap) :
    ∃ msg, channelReplyBuild cap remoteId accept = .ok msg ∧
      answerOf (msg.getD 0 0) = some .channelRequest :=
  ⟨_, finish_short hcap _ _, by cases accept <;> rfl⟩

namespace Conn

/-! ## Changes without an answer -/

/-- Nothing is received and nothing is answered. -/
structure Quiet (c c' : Conn) : Prop where
  localId : c'.ch.localId = c.ch.localId
  isOpen : c'.ch.isOpen = c.ch.isOpen
  closed : c'.ch.closed = c.ch.closed
  taken : c'.taken = c.taken
  answers : answers c'.outbox = answers c.outbox
  failed : c.sendFailed = true → c'.sendFailed = true

lemma Quiet.refl (c : Conn) : Quiet c c := ⟨rfl, rfl, rfl, rfl, rfl, id⟩

lemma Quiet.trans {c' c'' : Conn} (h : Quiet c c') (h' : Quiet c' c'') : Quiet c c'' where
  localId := h'.localId.trans h.localId
  isOpen := h'.isOpen.trans h.isOpen
  closed := h'.closed.trans h.closed
  taken := h'.taken.trans h.taken
  answers := h'.answers.trans h.answers
  failed := fun hfailed => h'.failed (h.failed hfailed)

instance : IsTrans Conn Quiet := ⟨fun _ _ _ => Quiet.trans⟩

lemma Sends.quiet {c' : Conn} (h : Sends c c') : Quiet c c' where
  localId := by rw [h.ch]
  isOpen := by rw [h.ch]
  closed := by rw [h.ch]
  taken := h.taken
  answers := h.answers
  failed := h.failed

lemma quiet_of_sends (h : Within Sends x) : Within Quiet x := h.mono fun _ _ => Sends.quiet

lemma quiet_noteData (n : ℕ) : Within Quiet (noteData n) := by
  intro c
  unfold noteData
  simp only [wp_bind, wp_modify, wp_get]
  rcases channelDataParse_spec c.ch (c.payload.take n) with ⟨_, _, hparse, -⟩ | ⟨_, hparse, -⟩ <;>
    rw [hparse] <;> exact ⟨rfl, rfl, rfl, rfl, rfl, id⟩

lemma quiet_noteAdjust (n : ℕ) : Within Quiet (noteAdjust n) :=
  fun c => (wp_noteAdjust n c).mono (fun _ _ h => h.quiet) fun _ _ h => h ▸ .refl c

lemma quiet_replenish : Within Quiet replenish := by
  intro c
  unfold replenish
  rw [wp_bind, wp_get]
  split
  · next inc _ =>
    rw [wp_bind]
    cases hbuild : channelWindowAdjustBuild 32 c.ch inc with
    | error e => exact .refl c
    | ok built =>
      obtain ⟨ch', msg⟩ := built
      have hch := of_channelWindowAdjustBuild hbuild
      have hset : Quiet c { c with ch := ch' } :=
        ⟨by rw [hch], by rw [hch], by rw [hch], rfl, rfl, id⟩
      have hmsg : answerOf (msg.getD 0 0) = none := by
        rw [getD_channelWindowAdjustBuild hbuild]
        rfl
      exact (quiet_of_sends (sends_sendPacket hmsg) _).mono (fun _ _ h => hset.trans h) fun _ _ h =>
        hset.trans h
  · exact .refl c

lemma quiet_takePending (cap : ℕ) : Within Quiet (takePending cap) := by
  refine quiet_replenish.bind fun _ c => ?_
  exact ⟨rfl, rfl, rfl, rfl, rfl, id⟩

end Conn

namespace Server

/-! ## What is owed -/

/-- No transmission has failed, and nobody has closed the channel. -/
def Live (s : Server) : Prop :=
  s.sendFailed = false ∧ s.ch.closed = false ∧ s.peerClosed = false
deriving Decidable

/-- While the connection is alive, all that was asked for was answered, except for `k`. -/
def Owing (k : Option Kind) (s : Server) : Prop :=
  s.Live → answers s.outbox ++ k.toList = owedFor s.ch.localId s.taken

def Served (s : Server) : Prop := s.Live → answers s.outbox = owedFor s.ch.localId s.taken
deriving Decidable

variable {s0 s s' : Server} {good : Taken → Prop} {k : Option Kind} {msg : List UInt8}

lemma owing_none : Owing none s ↔ s.Served := by
  simp [Owing, Served]

/-- Nothing is received and nothing is answered. -/
structure Mute (s s' : Server) : Prop where
  inKex : s'.inKex = s.inKex
  localId : s'.ch.localId = s.ch.localId
  isOpen : s.ch.isOpen = true → s'.ch.isOpen = true
  taken : s'.taken = s.taken
  answers : answers s'.outbox = answers s.outbox
  live : s'.Live → s.Live

lemma Mute.refl (s : Server) : Mute s s := ⟨rfl, rfl, id, rfl, rfl, id⟩

lemma not_failed_of_imp {a b : Bool} (h : a = true → b = true) (hb : b = false) : a = false := by
  cases a with
  | false => rfl
  | true => rw [h rfl] at hb; cases hb

lemma Mute.of_quiet (h : s.Quiet c) : Mute s { s with toConn := c } where
  inKex := rfl
  localId := h.localId
  isOpen := fun hopen => h.isOpen.trans hopen
  taken := h.taken
  answers := h.answers
  live := by
    rintro ⟨hsent, hclosed, hpeer⟩
    exact ⟨not_failed_of_imp h.failed hsent, h.closed.symm.trans hclosed, hpeer⟩

lemma mute_onConn (h : Within Conn.Quiet x) : Within Mute (onConn x) := by
  intro s
  rw [onConn, wp_zoom]
  exact (h s.toConn).mono (fun _ _ hc => .of_quiet hc) fun _ _ hc => .of_quiet hc

/-- What is owed in a part of a run that started in `s0`, if the packets since are good. -/
structure OwingSince (good : Taken → Prop) (s0 : Server) (P : Server → Prop) (s : Server) : Prop where
  inKex : s.inKex = false
  localId : s.ch.localId = s0.ch.localId
  given : Given (fun s : Server => s.taken) good s0 P s

lemma OwingSince.start (hkex : s.inKex = false) (h : s.Served) : OwingSince good s
    (Owing none) s :=
  ⟨hkex, rfl, .start (owing_none.mpr h)⟩

lemma OwingSince.mute (h : OwingSince good s0 (Owing k) s) (hm : Mute s s') :
    OwingSince good s0 (Owing k) s' where
  inKex := hm.inKex.trans h.inKex
  localId := hm.localId.trans h.localId
  given := h.given.quiet hm.taken fun howing hlive => by
    rw [hm.answers, hm.localId, hm.taken]
    exact howing (hm.live hlive)

def NoAside (localId : ℕ) (good : Taken → Prop) : Prop :=
  ∀ t, good t → t.inKex = true → t.owed localId = none

lemma NoAside.owed (h : NoAside localId good) (hgood : good t) (haside : t.Aside) :
    t.owed localId = none :=
  haside.elim (h t hgood) Taken.owed_of_lt

/-- What was received is owed. -/
theorem OwingSince.effect {new : List Taken} (h : OwingSince good s0 (Owing none) s)
    (hpeer : s'.peerClosed = s.peerClosed) (hkex : s'.inKex = s.inKex)
    (he : s.toConn.Effect new s'.toConn) :
    OwingSince good s0 (fun s' => (∀ t ∈ new, good t) ∧ (s'.Live →
      answers s'.outbox ++ owedFor s0.ch.localId new = owedFor s'.ch.localId s'.taken)) s' := by
  have hid : s'.ch.localId = s.ch.localId := by rw [he.ch]
  refine ⟨hkex.trans h.inKex, hid.trans h.localId, h.given.next he.taken fun hall hserved => ⟨hall, ?_⟩⟩
  rintro ⟨hsent, hclosed, hpeer'⟩
  rw [he.ch] at hclosed
  have hlive : s.Live := ⟨not_failed_of_imp he.failed hsent, hclosed, hpeer.symm.trans hpeer'⟩
  rw [he.answers, owing_none.mp hserved hlive, hid, he.taken, owedFor_append, h.localId]

lemma OwingSince.aside (hgood : NoAside s0.ch.localId good) (h : OwingSince good s0 (Owing none) s)
    (ha : Aside s s') : OwingSince good s0 (Owing none) s' := by
  obtain ⟨hpeer, hkex, new, hnew, he⟩ := ha
  obtain ⟨hkex', hid, hgiven⟩ := h.effect hpeer hkex he
  refine ⟨hkex', hid, hgiven.mono fun hs => owing_none.mpr fun hlive => ?_⟩
  rw [← hs.2 hlive, owedFor_eq_nil fun t ht => hgood.owed (hs.1 t ht) (hnew t ht), append_nil]

lemma OwingSince.received (hgood : NoAside s0.ch.localId good)
    (h : OwingSince good s0 (Owing none) s)
    (hr : Received s n s') :
    ∃ t : Taken, t.payload = s'.payload.take n ∧ t.msgType = s'.msgType ∧
      t.channelOpen = s.ch.isOpen ∧ s'.ch = { s.ch with remoteWindow := s'.ch.remoteWindow } ∧
      OwingSince good s0 (fun s' => good t ∧ Owing (t.owed s0.ch.localId) s') s' := by
  obtain ⟨hpeer, hkex, -, new, payload, hnew, hne, -, hpayload, he⟩ := hr
  obtain ⟨hkex', hid, hgiven⟩ := h.effect hpeer hkex he
  refine ⟨{ payload, inKex := s.inKex, channelOpen := s.ch.isOpen }, hpayload.symm,
    (msgType_of_take hpayload hne).symm, rfl, he.ch, hkex', hid, hgiven.mono fun hs => ?_⟩
  obtain ⟨hnewgood, ht⟩ := forall_mem_append.mp hs.1
  refine ⟨forall_mem_singleton.mp ht, fun hlive => ?_⟩
  rw [← hs.2 hlive, owedFor_append, owedFor_eq_nil fun t ht => hgood.owed (hnewgood t ht) (hnew t ht),
    nil_append, owedFor_singleton]

lemma OwingSince.owing (h : OwingSince good s0 (fun s => good t ∧ Owing (t.owed s0.ch.localId) s) s)
    (hk : good t → t.owed s0.ch.localId = k) : OwingSince good s0 (Owing k) s :=
  ⟨h.inKex, h.localId, h.given.mono fun hs => hk hs.1 ▸ hs.2⟩

lemma OwingSince.reply {kind : Kind} (h : OwingSince good s0 (Owing (some kind)) s)
    (hmsg : answerOf (msg.getD 0 0) = some kind) :
    wp (onConn (sendPacket msg)) (fun _ s' => s'.ch = s.ch ∧ OwingSince good s0 (Owing none) s')
      (fun _ s' => s'.ch = s.ch ∧ OwingSince good s0 (Owing none) s') s := by
  rw [onConn, wp_zoom]
  refine (wp_sendPacket msg s.toConn).mono ?_ ?_
  · rintro _ c ⟨-, rfl⟩
    refine ⟨rfl, h.inKex, h.localId, h.given.quiet rfl fun howing hlive => ?_⟩
    have hpaid := howing hlive
    rwa [Option.toList_none, append_nil, answers_concat, hmsg]
  · rintro _ c ⟨-, hc, -⟩
    rw [hc]
    exact ⟨rfl, h.inKex, h.localId, h.given.quiet rfl fun _ hlive => absurd hlive.1 (by simp)⟩

/-! ## Opening the channel -/

lemma noAside_opening (localId : ℕ) : NoAside localId (Taken.Opening localId) := by
  intro t hgood hkex
  exact hgood.elim id fun h => nomatch h.1.symm.trans hkex

variable (S : Suite) (opts : ServerOpts)

lemma served_openStep (s0 : Server) :
    Keeps (OwingSince (Taken.Opening s0.ch.localId) s0 (Owing none)) (openStep S opts ()) := by
  intro s h
  have haside := noAside_opening s0.ch.localId
  unfold openStep
  rw [wp_bind]
  refine (wp_recvPacket S opts s).mono (fun n s' hr => ?_) fun _ _ ha => h.aside haside ha
  obtain ⟨t, hpayload, hmsg, -, hch, ht⟩ := h.received haside hr
  simp only [wp_bind, wp_get]
  rw [← hmsg, wp_ite]
  refine ⟨fun hglobal => ?_, fun hglobal => ?_⟩
  · -- a global request is refused, but answered
    have howed := Taken.owed_of_global s0.ch.localId hglobal
    rw [← hpayload, wp_ite]
    refine ⟨fun hwants => ?_, fun hwants => ?_⟩
    · have howing := ht.owing fun _ => howed.trans (if_pos hwants)
      rw [wp_bind]
      exact (howing.reply rfl).mono (fun _ _ h => h.2) fun _ _ h => h.2
    · exact ht.owing fun _ => howed.trans (if_neg hwants)
  · rw [wp_ite]
    refine ⟨fun hopen => ?_, fun hopen => ?_⟩
    · -- no other message is expected here
      refine ht.owing fun hgood => hgood.elim id fun hexpected => ?_
      exact (hexpected.2.elim hglobal fun hparsed => hopen hparsed.1).elim
    have hopen := not_not.mp hopen
    rw [wp_bind, ← hpayload]
    cases hparse : channelOpenParse s'.ch 32 t.payload with
    | error e =>
      refine ht.owing fun hgood => hgood.elim id fun hexpected => ?_
      have hparsed := (hexpected.2.resolve_left hglobal).2
      rw [isOk_channelOpenParse, hparse] at hparsed
      cases hparsed
    | ok parsed =>
      obtain ⟨ch', type⟩ := parsed
      obtain ⟨hwell, remoteId, window, max, rfl⟩ := of_channelOpenParse (by decide) hparse
      have howing := ht.owing fun _ =>
        (Taken.owed_of_open s0.ch.localId hopen).trans (if_pos hwell)
      simp only [wp_ofExcept_ok]
      rw [wp_ite]
      refine ⟨fun _ => ?_, fun _ => ?_⟩
      · -- a channel that is not served, or a second one
        obtain ⟨msg, hbuild, hanswer⟩ :=
          channelOpenFailureBuild_ok (s'.ch.adopt remoteId window max).remoteId
        simp only [wp_bind, wp_set, hbuild, wp_ofExcept_ok]
        have hmute : Mute s' { s' with ch := s'.ch.adopt remoteId window max } :=
          ⟨rfl, rfl, id, rfl, rfl, id⟩
        exact ((howing.mute hmute).reply hanswer).mono (fun _ _ h => h.2) fun _ _ h => h.2
      · obtain ⟨msg, hbuild, hanswer⟩ := channelConfirmBuild_ok (s'.ch.adopt remoteId window max)
        simp only [wp_bind, wp_set, hbuild, wp_ofExcept_ok]
        have hmute : Mute s'
            { s' with ch := { s'.ch.adopt remoteId window max with isOpen := true } } :=
          ⟨rfl, rfl, fun _ => rfl, rfl, rfl, id⟩
        exact ((howing.mute hmute).reply hanswer).mono (fun _ _ h => h.2) fun _ _ h => h.2

/-! ## Requests for the channel -/

lemma noAside_requesting (ch : Channel) : NoAside ch.localId (Taken.Requesting ch) := by
  intro t hgood hkex
  exact hgood.elim id fun h => nomatch h.1.symm.trans hkex

def Requested (s0 s : Server) : Prop :=
  s.ch.isOpen = true ∧ OwingSince (Taken.Requesting s0.ch) s0 (Owing none) s

lemma Requested.aside (h : Requested s0 s) (ha : Aside s s') : Requested s0 s' := by
  refine ⟨?_, h.2.aside (noAside_requesting s0.ch) ha⟩
  obtain ⟨-, -, _, -, he⟩ := ha
  rw [he.isOpen, h.1]

lemma Requested.mute (h : Requested s0 s) (hm : Mute s s') : Requested s0 s' :=
  ⟨hm.isOpen h.1, h.2.mute hm⟩

/-- The packet `t` was received, and what it asks for is owed. -/
structure Pending (s0 : Server) (t : Taken) (s : Server) : Prop where
  isOpen : s.ch.isOpen = true
  channelOpen : t.channelOpen = true
  owing : OwingSince (Taken.Requesting s0.ch) s0
    (fun s => t.Requesting s0.ch ∧ Owing (t.owed s0.ch.localId) s) s

lemma Requested.received (h : Requested s0 s) (hr : Received s n s') :
    ∃ t : Taken, t.payload = s'.payload.take n ∧ t.msgType = s'.msgType ∧ Pending s0 t s' := by
  obtain ⟨t, hpayload, hmsg, hopen, hch, ht⟩ := h.2.received (noAside_requesting s0.ch) hr
  exact ⟨t, hpayload, hmsg, by rw [hch, h.1], hopen.trans h.1, ht⟩

lemma Pending.other (h : Pending s0 t s) (hmsg : t.msgType ≠ msgChannelRequest) :
    Requested s0 s :=
  ⟨h.isOpen, h.owing.owing fun hgood => hgood.elim id fun hexpected => absurd hexpected.2.1 hmsg⟩

lemma Pending.refused (h : Pending s0 t s)
    (hparse : channelRequestParse s.ch t.payload = .error e) : Requested s0 s := by
  refine ⟨h.isOpen, h.owing.owing fun hgood => hgood.elim id fun hexpected => ?_⟩
  have hparsed := hexpected.2.2
  rw [channelRequestParse_congr h.owing.localId.symm, hparse] at hparsed
  cases hparsed

lemma Pending.parsed (h : Pending s0 t s) (hmsg : t.msgType = msgChannelRequest)
    (hparse : channelRequestParse s.ch t.payload = .ok req) (hm : Mute s s') :
    s'.ch.isOpen = true ∧ OwingSince (Taken.Requesting s0.ch) s0
      (Owing (if req.wantReply then some .channelRequest else none)) s' := by
  refine ⟨hm.isOpen h.isOpen, (h.owing.owing fun _ => ?_).mute hm⟩
  rw [Taken.owed_of_request s0.ch.localId hmsg, h.channelOpen, Bool.true_and,
    ← h.owing.localId, channelWantsReply_of_parse hparse]

lemma requested_requestStep (s0 : Server) : Keeps (Requested s0) (requestStep S opts ()) := by
  intro s h
  unfold requestStep
  rw [wp_bind]
  refine (wp_recvPacket S opts s).mono (fun n s' hr => ?_) fun _ _ ha => h.aside ha
  obtain ⟨t, hpayload, hmsg, ht⟩ := h.received hr
  simp only [wp_bind, wp_get]
  rw [← hmsg, wp_ite]
  refine ⟨ht.other, fun hrequest => ?_⟩
  have hrequest := not_not.mp hrequest
  rw [← hpayload]
  cases hparse : channelRequestParse s'.ch t.payload with
  | error e => exact ht.refused hparse
  | ok req =>
    simp only [wp_ofExcept_ok, wp_bind, wp_set]
    generalize hset : (if accepts opts req && req.type = .pty then _ else s') = s1
    have hmute : Mute s' s1 := by
      rw [← hset]
      split <;> exact ⟨rfl, rfl, id, rfl, rfl, id⟩
    obtain ⟨hopen, howing⟩ := ht.parsed hrequest hparse hmute
    have hend : ∀ starts : Bool, Keeps (Requested s0)
        (if starts then pure (.inr req) else pure (.inl ()) : ServerM (Unit ⊕ ChannelRequest)) := by
      intro starts s2 h2
      cases starts <;> exact h2
    rw [wp_ite]
    refine ⟨fun hwants => ?_, fun hwants => ?_⟩
    · obtain ⟨msg, hbuild, hanswer⟩ :=
        channelReplyBuild_ok s'.ch.remoteId (accepts opts req) (by decide : 5 ≤ 512)
      rw [if_pos hwants] at howing
      simp only [hbuild, wp_bind, wp_ofExcept_ok]
      exact (howing.reply hanswer).mono (fun _ s2 h => hend _ s2 ⟨h.1 ▸ hopen, h.2⟩) fun _ _ h =>
        ⟨h.1 ▸ hopen, h.2⟩
    · rw [if_neg hwants] at howing
      exact hend _ s1 ⟨hopen, howing⟩

lemma requested_noteRequest (h : Pending s0 t s) (hmsg : t.msgType = msgChannelRequest)
    (hpayload : t.payload = s.payload.take n) :
    wp (noteRequest n) (fun _ => Requested s0) (fun _ => Requested s0) s := by
  unfold noteRequest
  rw [wp_bind, wp_get, ← hpayload]
  cases hparse : channelRequestParse s.ch t.payload with
  | error e => exact h.refused hparse
  | ok req =>
    simp only [wp_bind, wp_set]
    generalize hset : (if req.type = .windowChange && s.hasPty then _ else s) = s1
    have hmute : Mute s s1 := by
      rw [← hset]
      split <;> exact ⟨rfl, rfl, id, rfl, rfl, id⟩
    obtain ⟨hopen, howing⟩ := h.parsed hmsg hparse hmute
    rw [wp_ite]
    refine ⟨fun hwants => ?_, fun hwants => ?_⟩
    · rw [if_pos hwants] at howing
      unfold tryReply
      obtain ⟨msg, hbuild, hanswer⟩ := channelReplyBuild_ok s1.ch.remoteId
        (req.type = .windowChange && s.hasPty) (by decide : 5 ≤ 32)
      simp only [wp_bind, wp_get, hbuild, wp_attempt]
      exact (howing.reply hanswer).mono (fun _ _ h => ⟨h.1 ▸ hopen, h.2⟩) fun _ _ h =>
        ⟨h.1 ▸ hopen, h.2⟩
    · rw [if_neg hwants] at howing
      exact ⟨hopen, howing⟩

lemma requested_readDispatch (h : Pending s0 t s) (hmsg : t.msgType = s.msgType)
    (hpayload : t.payload = s.payload.take n) :
    wp (readDispatch n) (fun _ => Requested s0) (fun _ => Requested s0) s := by
  have hother : ∀ {msg : UInt8}, s.msgType = msg → msg ≠ msgChannelRequest → Requested s0 s :=
    fun heq hne => h.other (by rw [hmsg, heq]; exact hne)
  unfold readDispatch
  simp only [wp_bind, wp_get, wp_ite]
  refine ⟨fun hdata => ?_, fun _ => ⟨fun hadjust => ?_, fun _ => ⟨fun heof => ?_,
    fun _ => ⟨fun hclose => ?_, fun _ => ⟨fun hrequest => ?_, fun hnone => ?_⟩⟩⟩⟩⟩
  · exact (mute_onConn (quiet_noteData n)).keeps Requested.mute s (hother hdata (by decide))
  · exact (mute_onConn (quiet_noteAdjust n)).keeps Requested.mute s (hother hadjust (by decide))
  · exact (hother heof (by decide)).mute ⟨rfl, rfl, id, rfl, rfl, id⟩
  · -- from now on the channel is closed
    exact (hother hclose (by decide)).mute
      ⟨rfl, rfl, id, rfl, rfl, fun hlive => absurd hlive.2.2 (by simp)⟩
  · exact requested_noteRequest h (hmsg.trans hrequest) hpayload
  · exact h.other (by rwa [hmsg])

lemma requested_readStep (s0 : Server) : Keeps (Requested s0) (readStep S opts ()) := by
  intro s h
  unfold readStep
  simp only [wp_bind, wp_get, wp_ite]
  refine ⟨fun _ => h, fun _ => ⟨fun _ => h, fun _ => ?_⟩⟩
  refine (wp_recvPacket S opts s).mono (fun n s' hr => ?_) fun _ _ ha => h.aside ha
  obtain ⟨t, hpayload, hmsg, ht⟩ := h.received hr
  rw [wp_bind]
  exact requested_readDispatch ht hmsg hpayload

/-! ## Parts of a run -/

lemma served_openChannel (s0 : Server) :
    Keeps (OwingSince (Taken.Opening s0.ch.localId) s0 (Owing none)) (openChannel S opts) :=
  fun s h => Keeps.loop (fun _ => served_openStep S opts s0) _ _ s h

lemma requested_awaitRequest (s0 : Server) : Keeps (Requested s0) (awaitRequest S opts) := by
  intro s h
  refine (Keeps.loop (fun _ => requested_requestStep S opts s0) _ _ s h).bind fun req s' h' => ?_
  exact h'.mute ⟨rfl, rfl, id, rfl, rfl, id⟩

lemma requested_read (cap : ℕ) (s0 : Server) : Keeps (Requested s0) (read S opts cap) := by
  intro s h
  refine (Keeps.loop (fun _ => requested_readStep S opts s0) _ _ s h).bind fun _ => ?_
  exact (mute_onConn (quiet_takePending cap)).keeps Requested.mute

abbrev Silent (localId : ℕ) (t : Taken) : Prop := t.owed localId = none

lemma served_write (data : List UInt8) (s0 : Server) :
    Keeps (OwingSince (Silent s0.ch.localId) s0 (Owing none)) (write S opts data) := by
  have haside : NoAside s0.ch.localId (Silent s0.ch.localId) := fun _ hnone _ => hnone
  refine fun s h => Keeps.loop (fun left s1 h1 => ?_) _ _ s h
  unfold writeStep
  rw [wp_ite]
  refine ⟨fun _ => h1, fun _ => ?_⟩
  have hsome := mute_onConn (quiet_of_sends (sends_writeSome left))
  refine (hsome.keeps OwingSince.mute s1 h1).bind fun wrote s2 h2 => ?_
  rw [wp_ite]
  refine ⟨fun _ => h2, fun _ => ?_⟩
  rw [wp_bind]
  refine (wp_recvPacket S opts s2).mono (fun n s3 hr => ?_) fun _ _ ha => h2.aside haside ha
  obtain ⟨t, -, -, -, -, ht⟩ := h2.received haside hr
  have h3 := ht.owing id
  simp only [wp_bind, wp_get, wp_ite]
  refine ⟨fun _ => ?_, fun _ => ⟨fun _ => ?_, fun _ => h3⟩⟩
  · exact (mute_onConn (quiet_noteAdjust n)).keeps OwingSince.mute s3 h3
  · exact h3.mute ⟨rfl, rfl, id, rfl, rfl, fun hlive => absurd hlive.2.2 (by simp)⟩

lemma mute_exit (status : ℕ) : Within Mute (exit status) := by
  intro s
  unfold exit
  rw [wp_bind, wp_get, wp_bind]
  cases hbuild : channelExitStatusBuild 64 s.ch status with
  | error e => exact .refl s
  | ok msg =>
    have hmsg : msg.getD 0 0 = msgChannelRequest := by
      refine Starts.finish ?_ hbuild
      exact ((((starts_putByte 64 msgChannelRequest).putU32 _).putString _).putBool _).putU32 _
    refine mute_onConn (quiet_of_sends (sends_sendPacket ?_)) s
    rw [hmsg]
    rfl

lemma wp_sendLast {ch : Channel} (s : Server) :
    wp (sendLast (.ok (ch, msg))) (fun _ s' => s'.inKex = s.inKex ∧ s'.ch = ch)
      (fun _ _ => False) s := by
  unfold sendLast
  simp only [wp_bind, wp_modify, wp_attempt]
  rw [onConn, wp_zoom]
  refine (wp_sendPacket msg _).mono ?_ ?_
  · rintro _ c ⟨-, rfl⟩
    exact ⟨rfl, rfl⟩
  · rintro _ c ⟨-, hc, -⟩
    rw [hc]
    exact ⟨rfl, rfl⟩

def Ended (s : Server) : Prop := s.inKex = false ∧ s.ch.closed = true

lemma closed_finish (hkex : s.inKex = false) :
    wp (finish S opts) (fun _ => Ended) (fun _ => Ended) s := by
  unfold finish
  obtain ⟨eof, heof⟩ := channelEofBuild_ok s.ch
  simp only [wp_bind, wp_get, heof]
  refine (wp_sendLast s).mono (fun _ s1 h1 => ?_) fun _ _ h => h.elim
  obtain ⟨close, hclose⟩ := channelCloseBuild_ok s1.ch
  simp only [wp_bind, wp_get, hclose]
  refine (wp_sendLast s1).mono (fun _ s2 h2 => ?_) fun _ _ h => h.elim
  have hended : s2.Ended := ⟨h2.1.trans (h1.1.trans hkex), by rw [h2.2]⟩
  refine Keeps.loop ?_ _ _ s2 hended
  rintro turns s3 ⟨hkex3, hclosed3⟩
  unfold closeStep
  rw [wp_bind, wp_get, wp_ite]
  refine ⟨fun _ => ⟨hkex3, hclosed3⟩, fun _ => ?_⟩
  rw [wp_bind, wp_attempt]
  refine (wp_recvPacket S opts s3).mono ?_ ?_
  · rintro n s4 ⟨-, hkex4, -, _, _, -, -, -, -, he⟩
    have hclosed4 : s4.ch.closed = true := by rw [he.ch, hclosed3]
    simp only [wp_bind, wp_get, wp_ite]
    exact ⟨fun _ => ⟨hkex4.trans hkex3, hclosed4⟩, fun _ => ⟨hkex4.trans hkex3, hclosed4⟩⟩
  · rintro _ s4 ⟨-, hkex4, _, -, he⟩
    exact ⟨hkex4.trans hkex3, by rw [he.ch, hclosed3]⟩

/-! ## Runs -/

/-- The parts of `tc_ssh_server_run` after authentication: the two loops of `do_session`, the calls of the
application, and the end. -/
inductive Event
  | openChannel
  | awaitRequest
  | call (c : Call)
  | finish
  deriving DecidableEq

def perform (S : Suite) (opts : ServerOpts) : Event → ServerM Unit
  | .openChannel => openChannel S opts
  | .awaitRequest => awaitRequest S opts
  | .call c => call S opts c
  | .finish => finish S opts

def act (S : Suite) (opts : ServerOpts) (s : Server) (e : Event) : Server :=
  if e = .openChannel ∨ s.ch.isOpen = true then after (perform S opts e) s else s

def receivedIn (S : Suite) (opts : ServerOpts) (s : Server) (e : Event) : List Taken :=
  (act S opts s e).taken.drop s.taken.length

/-- The condition under which a part of a run answers what it should: requests that want an answer come
only where they are expected. -/
def Answerable (S : Suite) (opts : ServerOpts) (s : Server) (e : Event) : Prop :=
  match e with
  | .openChannel => ∀ t ∈ receivedIn S opts s e, t.Opening s.ch.localId
  | .awaitRequest | .call (.read _) => ∀ t ∈ receivedIn S opts s e, t.Requesting s.ch
  | .call (.write _) => ∀ t ∈ receivedIn S opts s e, t.owed s.ch.localId = none
  | .call (.writeSome _) | .call (.exit _) | .finish => True

instance (e : Event) : Decidable (Answerable S opts s e) := by
  rcases e with _ | _ | (_ | _ | _ | _) | _ <;> dsimp only [Answerable] <;> infer_instance

/-- A server after authentication, before it has received anything. -/
structure Authenticated (s : Server) : Prop where
  inKex : s.inKex = false
  taken : s.taken = []
  outbox : answers s.outbox = []

def Settled (s : Server) : Prop := s.inKex = false ∧ s.Served

lemma OwingSince.settled (h : OwingSince good s0 (Owing none) s)
    (hgood : ∀ t ∈ s.taken.drop s0.taken.length, good t) : Settled s :=
  ⟨h.inKex, owing_none.mp (h.given.of_forall hgood)⟩

lemma Settled.mute (h : Settled s) (hm : Mute s s') : Settled s' := by
  refine ⟨hm.inKex.trans h.1, fun hlive => ?_⟩
  rw [hm.answers, hm.localId, hm.taken]
  exact h.2 (hm.live hlive)

lemma settled_act (e : Event) (h : Settled s)
    (he : Answerable S opts s e) : Settled (act S opts s e) := by
  by_cases hrun : e = .openChannel ∨ s.ch.isOpen = true
  case neg => rwa [act, if_neg hrun]
  have hact : act S opts s e = after (perform S opts e) s := if_pos hrun
  unfold Answerable receivedIn at he
  rw [hact] at he ⊢
  cases e with
  | openChannel => exact (served_openChannel S opts s s (.start h.1 h.2)).after.settled he
  | awaitRequest =>
    have hopen : s.ch.isOpen = true := hrun.resolve_left nofun
    exact (requested_awaitRequest S opts s s ⟨hopen, .start h.1 h.2⟩).after.2.settled he
  | finish =>
    obtain ⟨hkex, hclosed⟩ := (closed_finish S opts h.1).after
    exact ⟨hkex, fun hlive => nomatch hclosed.symm.trans hlive.2.1⟩
  | call c =>
    have hopen : s.ch.isOpen = true := hrun.resolve_left nofun
    cases c with
    | read cap =>
      have hread : Keeps (Requested s) (perform S opts (.call (.read cap))) :=
        (requested_read S opts cap s).bind fun _ _ hs => hs
      exact (hread s ⟨hopen, .start h.1 h.2⟩).after.2.settled he
    | write data => exact (served_write S opts data s s (.start h.1 h.2)).after.settled he
    | writeSome data =>
      have hwrite : Keeps Settled (perform S opts (.call (.writeSome data))) :=
        ((mute_onConn (quiet_of_sends (sends_writeSome data))).keeps Settled.mute).bind fun _ _ hs => hs
      exact (hwrite s h).after
    | exit status => exact ((mute_exit status).keeps Settled.mute s h).after

end Server

/-- Where requests come only where they are expected, each one that wants an answer gets exactly one, in
order, as long as no transmission fails and the channel is not closed. -/
theorem requests_answered (S : Suite) (opts : ServerOpts) (s : Server) (events : List Server.Event)
    (hstart : s.Authenticated)
    (hrun : Run.Ok (Server.act S opts) (Server.Answerable S opts) s events) :
    Run.Ok (Server.act S opts) (fun s e => (Server.act S opts s e).Served) s events := by
  refine hrun.of_invariant (I := Server.Settled) ?_ ?_ ?_
  · refine ⟨hstart.inKex, fun _ => ?_⟩
    rw [hstart.outbox, hstart.taken]
    rfl
  · exact fun s e h he => Server.settled_act S opts e h he
  · exact fun s e h he => (Server.settled_act S opts e h he).2

/-! ### Evaluation -/

def globalRequest : List UInt8 :=
  msgGlobalRequest :: (writeBE32 9 ++ ascii "keepalive" ++ [1])

def channelRequest (len : UInt32) (type : String) : List UInt8 :=
  msgChannelRequest :: (writeBE32 0 ++ writeBE32 len ++ ascii type ++ [1])

def Server.plainRun (payloads : List (List UInt8)) : Server :=
  .plain (init (payloads.map (Arrival.packet false)) [])

theorem requests_answered_shell :
    Run.Ok (Server.act plainSuite Server.plainOpts)
      (fun s e => (Server.act plainSuite Server.plainOpts s e).Served)
      (Server.plainRun [globalRequest, openRequest 100 100, channelRequest 5 "shell",
        channelRequest 3 "env", dataMessage 0 [1]])
      [.openChannel, .awaitRequest, .call (.read 5), .call (.write [1]), .finish] :=
  requests_answered _ _ _ _ ⟨rfl, rfl, rfl⟩ (by decide +kernel)

/-- A global request that comes while the application reads is not answered. -/
theorem request_unanswered :
    ¬∀ (S : Suite) (opts : ServerOpts) (s : Server) (events : List Server.Event), s.Authenticated →
      Run.Ok (Server.act S opts) (fun s e => (Server.act S opts s e).Served) s events := by
  intro h
  have hrun := h plainSuite Server.plainOpts
    (Server.plainRun [openRequest 100 100, channelRequest 5 "shell", globalRequest,
      dataMessage 0 [1]])
    [.openChannel, .awaitRequest, .call (.read 5)] ⟨rfl, rfl, rfl⟩
  exact absurd hrun (by decide +kernel)

end Ssh
