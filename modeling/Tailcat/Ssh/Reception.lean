import Tailcat.Ssh.Server

/-!
# What receiving a packet does

While a packet is received, noise is skipped, keys are exchanged and the pump may send. None of this
touches the channel, apart from the window of the peer, and none of it answers a request.

## Main results

* `Server.wp_recvPacket`: what `recv_packet` does.
-/

namespace Ssh

open Wbuf Program List

/-! ## Messages -/

/-- The kinds of requests, and of their answers. -/
inductive Kind
  | global
  | channelOpen
  | channelRequest
  deriving DecidableEq

/-- The kind of request that a message of this type answers. -/
def answerOf (msg : UInt8) : Option Kind :=
  if msg = msgRequestSuccess || msg = msgRequestFailure then some .global
  else if msg = msgChannelOpenConfirmation || msg = msgChannelOpenFailure then some .channelOpen
  else if msg = msgChannelSuccess || msg = msgChannelFailure then some .channelRequest
  else none

def answers (msgs : List (List UInt8)) : List Kind := msgs.filterMap fun m => answerOf (m.getD 0 0)

lemma answers_concat (l : List (List UInt8)) (m : List UInt8) :
    answers (l ++ [m]) = answers l ++ (answerOf (m.getD 0 0)).toList := by
  rw [answers, filterMap_append, filterMap_cons]
  cases answerOf (m.getD 0 0) <;> rfl

def Taken.msgType (t : Taken) : UInt8 := t.payload.getD 0 0

/-- The packet is not for the channel: it came during a key exchange, or it is a message of the transport
layer. -/
def Taken.Aside (t : Taken) : Prop := t.inKex = true ∨ t.msgType < msgGlobalRequest

variable {msg : List UInt8}

namespace Conn

/-! ## Sending -/

/-- What sending does to a connection. -/
structure Frame (c c' : Conn) : Prop where
  payload : c'.payload = c.payload
  pending : c'.pending = c.pending
  pendingLen : c'.pendingLen = c.pendingLen
  peerEof : c'.peerEof = c.peerEof
  arrivals : c'.arrivals = c.arrivals
  taken : c'.taken = c.taken
  delivered : c'.delivered = c.delivered
  ch : c'.ch = { c.ch with remoteWindow := c'.ch.remoteWindow }
  failed : c.sendFailed = true → c'.sendFailed = true

/-- What sending does to a connection, if no answer is sent. -/
structure Sends (c c' : Conn) : Prop extends Frame c c' where
  answers : answers c'.outbox = answers c.outbox

section

variable (data : List UInt8) (c : Conn) {c' c'' : Conn} {new : List Taken}

lemma Frame.refl : Frame c c := ⟨rfl, rfl, rfl, rfl, rfl, rfl, rfl, rfl, id⟩

lemma Frame.trans {c : Conn} (h : Frame c c') (h' : Frame c' c'') : Frame c c'' where
  payload := h'.payload.trans h.payload
  pending := h'.pending.trans h.pending
  pendingLen := h'.pendingLen.trans h.pendingLen
  peerEof := h'.peerEof.trans h.peerEof
  arrivals := h'.arrivals.trans h.arrivals
  taken := h'.taken.trans h.taken
  delivered := h'.delivered.trans h.delivered
  ch := by
    refine h'.ch.trans ?_
    rw [h.ch]
  failed := fun hfailed => h'.failed (h.failed hfailed)

lemma Sends.refl : Sends c c := ⟨.refl c, rfl⟩

lemma Sends.trans {c : Conn} (h : Sends c c') (h' : Sends c' c'') : Sends c c'' :=
  ⟨h.toFrame.trans h'.toFrame, h'.answers.trans h.answers⟩

instance : Std.Refl Sends := ⟨Sends.refl⟩
instance : IsTrans Conn Sends := ⟨fun _ _ _ => Sends.trans⟩

def Reliable (c : Conn) : Prop := ∀ o ∈ c.outcomes, o = .sent

lemma wp_sendPacket (msg : List UInt8) (c : Conn) :
    wp (sendPacket msg)
      (fun _ c' => c.outCipher.seq ≠ uint32Max ∧ c' = { c with
        outCipher.seq := c.outCipher.seq + 1, outcomes := c.outcomes.tail
        outbox := c.outbox ++ [msg] })
      (fun e c' => e ≠ .done ∧ c' = { c with
        outCipher := c'.outCipher, outcomes := c'.outcomes, sendFailed := true } ∧
        (msg.length ≤ maxPayload → Reliable c → c.outCipher.seq = uint32Max)) c := by
  have hsent : Reliable c → c.outcomes.head?.getD .sent = .sent := by
    intro h
    cases houtcomes : c.outcomes with
    | nil => rfl
    | cons o rest => exact h o (houtcomes ▸ mem_cons_self)
  unfold sendPacket failSend
  simp only [wp_bind, wp_get, wp_ite, wp_modify, wp_throw]
  refine ⟨fun hend => ⟨by decide, trivial, fun _ _ => hend⟩, fun hseq =>
    ⟨fun hlong => ⟨by decide, trivial, fun hlen => absurd hlen (by omega)⟩, fun _ => ?_⟩⟩
  split
  · next e hfails =>
    exact ⟨e.2, rfl, fun _ h => absurd ((hsent h).symm.trans hfails) (by simp)⟩
  · next e hfails =>
    exact ⟨e.2, rfl, fun _ h => absurd ((hsent h).symm.trans hfails) (by simp)⟩
  · exact ⟨hseq, rfl⟩

lemma frame_sendPacket (msg : List UInt8) (c : Conn) :
    wp (sendPacket msg) (fun _ c' => Frame c c') (fun e c' => e ≠ .done ∧ Frame c c') c := by
  refine (wp_sendPacket msg c).mono ?_ ?_
  · rintro _ c' ⟨-, rfl⟩
    exact ⟨rfl, rfl, rfl, rfl, rfl, rfl, rfl, rfl, id⟩
  · rintro e c' ⟨he, hc', -⟩
    rw [hc']
    exact ⟨he, rfl, rfl, rfl, rfl, rfl, rfl, rfl, rfl, fun _ => rfl⟩

lemma sends_sendPacket (hmsg : answerOf (msg.getD 0 0) = none) : Within Sends (sendPacket msg) := by
  intro c
  refine (wp_sendPacket msg c).mono ?_ ?_
  · rintro _ c' ⟨-, rfl⟩
    refine ⟨⟨rfl, rfl, rfl, rfl, rfl, rfl, rfl, rfl, id⟩, ?_⟩
    rw [answers_concat, hmsg, Option.toList_none, append_nil]
  · rintro _ c' ⟨-, hc', -⟩
    rw [hc']
    exact ⟨⟨rfl, rfl, rfl, rfl, rfl, rfl, rfl, rfl, fun _ => rfl⟩, rfl⟩

lemma wp_sendData : wp (sendData data)
      (fun _ c' => Sends c c' ∧ c'.ch.remoteWindow = c.ch.remoteWindow - data.length)
      (fun _ c' => Sends c c') c := by
  unfold sendData
  simp only [wp_bind, wp_get]
  cases hbuild : channelDataBuild maxPayload c.ch data with
  | error e => exact Sends.refl c
  | ok built =>
    obtain ⟨ch', msg⟩ := built
    obtain ⟨rfl, rfl, -⟩ := of_channelDataBuild hbuild
    -- the window is charged before the packet is sent
    have hcharge : Sends c { c with
        ch := { c.ch with remoteWindow := c.ch.remoteWindow - data.length } } :=
      ⟨⟨rfl, rfl, rfl, rfl, rfl, rfl, rfl, rfl, id⟩, rfl⟩
    refine ((sends_sendPacket rfl _).and (wp_sendPacket _ _)).mono ?_ fun _ c' h => hcharge.trans h.1
    rintro _ c' ⟨hsends, -, rfl⟩
    exact ⟨hcharge.trans hsends, rfl⟩

lemma chunkSize_le (ch : Channel) (len : ℕ) : chunkSize ch len ≤ min len ch.remoteWindow := by
  unfold chunkSize
  dsimp only
  split <;> omega

lemma wp_sendChunk : wp (sendChunk data)
      (fun n c' => Sends c c' ∧ n = chunkSize c.ch data.length ∧
        c'.ch.remoteWindow = c.ch.remoteWindow - n)
      (fun _ c' => Sends c c') c := by
  unfold sendChunk
  simp only [wp_bind, wp_get]
  refine (wp_sendData _ c).mono (fun _ c' h => ⟨h.1, rfl, h.2.trans ?_⟩) fun _ _ h => h
  have hle := chunkSize_le c.ch data.length
  rw [length_take, Nat.min_eq_left (by omega)]

lemma sends_sendChunk : Within Sends (sendChunk data) :=
  fun c => (wp_sendChunk data c).mono (fun _ _ h => h.1) fun _ _ h => h

lemma sends_writeSome : Within Sends (writeSome data) := by
  refine .get fun c => .loop (fun v => ?_) _ _
  refine .get fun c => .ite (.pure _) ?_
  exact (sends_sendChunk _).bind fun _ => .pure _

lemma wp_noteAdjust (n : ℕ) (c : Conn) :
    wp (noteAdjust n) (fun _ c' => Sends c c') (fun _ c' => c' = c) c := by
  unfold noteAdjust
  rw [wp_bind, wp_get]
  cases hparse : channelWindowAdjustParse c.ch (c.payload.take n) with
  | error e => exact rfl
  | ok ch' =>
    exact ⟨⟨rfl, rfl, rfl, rfl, rfl, rfl, rfl, of_channelWindowAdjustParse hparse, id⟩, rfl⟩

/-! ## Reading a packet -/

/-- What happens to a connection that receives the packets `new` and sends no answers. The packet buffer
may change. -/
structure Effect (new : List Taken) (c c' : Conn) : Prop where
  pending : c'.pending = c.pending
  pendingLen : c'.pendingLen = c.pendingLen
  peerEof : c'.peerEof = c.peerEof
  arrivals : c'.arrivals.length ≤ c.arrivals.length
  taken : c'.taken = c.taken ++ new
  delivered : c'.delivered = c.delivered
  ch : c'.ch = { c.ch with remoteWindow := c'.ch.remoteWindow }
  answers : answers c'.outbox = answers c.outbox
  failed : c.sendFailed = true → c'.sendFailed = true

lemma Sends.effect {c : Conn} (h : Sends c c') : Effect [] c c' where
  pending := h.pending
  pendingLen := h.pendingLen
  peerEof := h.peerEof
  arrivals := (congrArg length h.arrivals).le
  taken := h.taken.trans (append_nil _).symm
  delivered := h.delivered
  ch := h.ch
  answers := h.answers
  failed := h.failed

lemma Effect.trans {c : Conn} {new' : List Taken} (h : Effect new c c') (h' : Effect new' c' c'') :
    Effect (new ++ new') c c'' where
  pending := h'.pending.trans h.pending
  pendingLen := h'.pendingLen.trans h.pendingLen
  peerEof := h'.peerEof.trans h.peerEof
  arrivals := h'.arrivals.trans h.arrivals
  taken := by rw [h'.taken, h.taken, append_assoc]
  delivered := h'.delivered.trans h.delivered
  ch := by
    refine h'.ch.trans ?_
    rw [h.ch]
  answers := h'.answers.trans h.answers
  failed := fun hfailed => h'.failed (h.failed hfailed)

lemma Effect.isOpen {c : Conn} (h : Effect new c c') : c'.ch.isOpen = c.ch.isOpen := by
  rw [h.ch]

def Aside (c c' : Conn) : Prop := ∃ new, (∀ t ∈ new, t.Aside) ∧ Effect new c c'

lemma Sends.aside {c : Conn} (h : Sends c c') : Aside c c' := ⟨[], by simp, h.effect⟩

lemma Aside.refl : Aside c c := (Sends.refl c).aside

lemma Aside.trans {c : Conn} (h : Aside c c') (h' : Aside c' c'') : Aside c c'' := by
  obtain ⟨new, hnew, heffect⟩ := h
  obtain ⟨new', hnew', heffect'⟩ := h'
  exact ⟨new ++ new', forall_mem_append.mpr ⟨hnew, hnew'⟩, heffect.trans heffect'⟩

lemma Aside.arrivals {c : Conn} (h : Aside c c') : c'.arrivals.length ≤ c.arrivals.length := by
  obtain ⟨new, -, heffect⟩ := h
  exact heffect.arrivals

/-- A packet of `n` bytes was received, and is in the buffer. -/
def Received (inKex : Bool) (c : Conn) (n : ℕ) (c' : Conn) : Prop :=
  c'.arrivals.length < c.arrivals.length ∧
    ∃ new payload, (∀ t ∈ new, t.Aside) ∧ payload ≠ [] ∧ n = payload.length ∧
      c'.payload.take n = payload ∧
      Effect (new ++ [{ payload, inKex, channelOpen := c.ch.isOpen }]) c c'

end

variable {inKex : Bool} {c c' c'' : Conn} {n : ℕ}

lemma Received.of_aside (h : Aside c c') (h' : Received inKex c' n c'') :
    Received inKex c n c'' := by
  obtain ⟨new, hnew, heffect⟩ := h
  obtain ⟨harrivals, new', payload, hnew', hne, hn, hpayload, heffect'⟩ := h'
  refine ⟨harrivals.trans_le heffect.arrivals, new ++ new', payload,
    forall_mem_append.mpr ⟨hnew, hnew'⟩, hne, hn, hpayload, ?_⟩
  rw [heffect.isOpen] at heffect'
  rw [append_assoc]
  exact heffect.trans heffect'

lemma msgType_of_take {payload : List UInt8} (h : c.payload.take n = payload)
    (hne : payload ≠ []) : c.msgType = payload.getD 0 0 := by
  subst h
  unfold Conn.msgType
  cases hbuf : c.payload with
  | nil => simp [hbuf] at hne
  | cons b rest =>
    cases n with
    | zero => simp at hne
    | succ n => rfl

lemma Received.aside (h : Received inKex c n c')
    (hpacket : inKex = true ∨ c'.msgType < msgGlobalRequest) : Aside c c' := by
  obtain ⟨-, new, payload, hnew, hne, hn, hpayload, heffect⟩ := h
  refine ⟨_, forall_mem_append.mpr ⟨hnew, ?_⟩, heffect⟩
  intro t ht
  obtain rfl := mem_singleton.mp ht
  refine hpacket.imp id fun hmsg => ?_
  rw [msgType_of_take hpayload hne] at hmsg
  exact hmsg

lemma wp_readPacket (inKex : Bool) (c : Conn) :
    wp (readPacket inKex) (fun n c' => Received inKex c n c') (fun _ c' => Aside c c') c := by
  have hskip : ∀ (rest : List Arrival) (buf : List UInt8), rest.length ≤ c.arrivals.length →
      Effect [] c { c with arrivals := rest, payload := buf } := fun rest buf hle =>
    ⟨rfl, rfl, rfl, hle, (append_nil _).symm, rfl, rfl, rfl, id⟩
  unfold readPacket
  simp only [wp_bind, wp_get, wp_set]
  cases harrivals : c.arrivals with
  | nil => exact ⟨[], by simp, hskip [] c.payload (Nat.zero_le _)⟩
  | cons arrival rest =>
    have hrest : rest.length < c.arrivals.length := by simp [harrivals]
    cases arrival with
    | failure e => exact ⟨[], by simp, hskip rest c.payload hrest.le⟩
    | region region =>
      dsimp only
      cases hlength : regionLength c.inCipher.key.isSome region.length with
      | error e => exact ⟨[], by simp, hskip rest c.payload hrest.le⟩
      | ok u =>
        simp only [decodeRegion, wp_bind, wp_ofExcept_ok, wp_modify, wp_ite, wp_pure]
        refine ⟨fun _ => ⟨[], by simp, hskip rest _ hrest.le⟩, fun _ => ?_⟩
        have hlen : (Fields.slice region 1 (region.length - 1 - (region.getD 0 0).toNat)).length =
            region.length - 1 - (region.getD 0 0).toNat := by
          simp [Fields.slice]
        generalize region.length - 1 - (region.getD 0 0).toNat = k at hlen ⊢
        generalize Fields.slice region 1 k = payload at hlen ⊢
        subst hlen
        refine ⟨fun hempty => ?_, fun hne => ?_⟩
        · obtain rfl := length_eq_zero_iff.mp hempty
          refine ⟨_, fun t ht => .inr ?_, ⟨rfl, rfl, rfl, hrest.le, rfl, rfl, rfl, rfl, id⟩⟩
          obtain rfl := mem_singleton.mp ht
          exact (by decide : (0 : UInt8) < msgGlobalRequest)
        · refine ⟨hrest, [], payload, by simp, ?_, rfl, take_left, ?_⟩
          · rintro rfl
            exact hne rfl
          · exact ⟨rfl, rfl, rfl, hrest.le, rfl, rfl, rfl, rfl, id⟩

end Conn

namespace Server

/-! ## Receiving -/

def Aside (s s' : Server) : Prop :=
  s'.peerClosed = s.peerClosed ∧ s'.inKex = s.inKex ∧ s.toConn.Aside s'.toConn

lemma Aside.refl (s : Server) : Aside s s := ⟨rfl, rfl, .refl _⟩

variable {s s' s'' : Server} {n cap : ℕ} {kex : ServerM Unit}

lemma Aside.trans (h : Aside s s') (h' : Aside s' s'') : Aside s s'' :=
  ⟨h'.1.trans h.1, h'.2.1.trans h.2.1, h.2.2.trans h'.2.2⟩

instance : Std.Refl Aside := ⟨Aside.refl⟩
instance : IsTrans Server Aside := ⟨fun _ _ _ => Aside.trans⟩

/-- A packet of `n` bytes was received, and is in the buffer. -/
def Received (s : Server) (n : ℕ) (s' : Server) : Prop :=
  s'.peerClosed = s.peerClosed ∧ s'.inKex = s.inKex ∧ s.toConn.Received s.inKex n s'.toConn

lemma Received.of_aside (h : Aside s s') (h' : Received s' n s'') : Received s n s'' := by
  obtain ⟨hclosed, hkex, hreceived⟩ := h'
  rw [h.2.1] at hreceived
  exact ⟨hclosed.trans h.1, hkex.trans h.2.1, .of_aside h.2.2 hreceived⟩

lemma Received.aside (h : Received s n s')
    (hpacket : s.inKex = true ∨ s'.msgType < msgGlobalRequest) : Aside s s' :=
  ⟨h.1, h.2.1, h.2.2.aside hpacket⟩

lemma Aside.of_sends (h : s.toConn.Sends s'.toConn) (hclosed : s'.peerClosed = s.peerClosed)
    (hkex : s'.inKex = s.inKex) : Aside s s' :=
  ⟨hclosed, hkex, h.aside⟩

lemma aside_onConn {x : EStateM Err Conn α} (h : Within Conn.Sends x) : Within Aside
    (onConn x) := by
  intro s
  rw [onConn, wp_zoom]
  exact (h s.toConn).mono (fun _ _ hc => .of_sends hc rfl rfl) fun _ _ hc => .of_sends hc rfl rfl

section

variable {R : Server → Server → Prop} [Std.Refl R] [IsTrans Server R]
  (hwrite : ∀ data, Within R (onConn (Conn.writeSome data)))
  (htake : ∀ s : Server, R s { s with idles := s.idles.tail })

include hwrite htake

lemma within_idle : Within R idle := by
  have hpump : ∀ data, Within R (pump data) := by
    intro data
    induction data with
    | nil => exact .pure ()
    | cons d rest ih => exact (hwrite d).bind fun _ => ih
  exact .of_get fun s => (hpump _).of_set (htake s)

lemma within_recvWith (hread : ∀ inKex, Within R (onConn (Conn.readPacket inKex)))
    (hkex : ∀ (s : Server) n, s.inKex = false →
      wp kex (fun _ => R s) (fun _ => R s) { s with iClient := s.payload.take n }) :
    Within R (recvWith kex) := by
  refine .get fun s => .loop (fun _ => .get fun s => .ite (.throw _) ?_) _ _
  refine (within_idle hwrite htake).bind fun _ => (hread _).bind fun n => .of_get fun s => ?_
  simp only [wp_ite, wp_pure, wp_throw, wp_bind, wp_set]
  have hrefl : R s s := Std.Refl.refl s
  refine ⟨fun _ => hrefl, fun _ => ⟨fun _ => hrefl, fun _ => ⟨fun _ => ⟨fun _ => hrefl, fun hfree =>
    ⟨fun _ => hrefl, fun _ => hkex s n ?_⟩⟩, fun _ => hrefl⟩⟩⟩
  simp only [Bool.or_eq_true, not_or, Bool.not_eq_true] at hfree
  exact hfree.1

end

lemma aside_idle : Within Aside idle :=
  within_idle (fun d => aside_onConn (Conn.sends_writeSome d)) fun _ => .of_sends (.refl _) rfl rfl

lemma wp_readPacket (s : Server) :
    wp (onConn (Conn.readPacket s.inKex)) (fun n s' => Received s n s') (fun _ s' => Aside s s') s := by
  rw [onConn, wp_zoom]
  exact (Conn.wp_readPacket s.inKex s.toConn).mono (fun n c' h => ⟨rfl, rfl, h⟩)
    fun _ c' h => ⟨rfl, rfl, h⟩

def KexAside (kex : ServerM Unit) : Prop :=
  ∀ s : Server, s.inKex = false → wp kex (fun _ s' => Aside s s') (fun _ s' => Aside s s') s

lemma lt_of_isNoise {msg : UInt8} (h : isNoise msg = true) : msg < msgGlobalRequest := by
  simp only [isNoise, Bool.or_eq_true, decide_eq_true_eq] at h
  rcases h with (rfl | rfl) | rfl <;> decide

lemma wp_recvStep (hkex : KexAside kex) (s : Server) :
    wp (recvStep kex ())
      (fun r s' => match r with
        | .inl _ => Aside s s' ∧ s'.arrivals.length < s.arrivals.length
        | .inr n => Received s n s')
      (fun _ s' => Aside s s') s := by
  unfold recvStep
  rw [wp_bind, wp_get, wp_ite]
  refine ⟨fun _ => Aside.refl s, fun _ => ?_⟩
  refine (aside_idle s).bind fun _ s1 hidle => ?_
  rw [wp_bind, ← hidle.2.1]
  refine (wp_readPacket s1).mono (fun n s2 hread => ?_) fun _ _ h => hidle.trans h
  replace hread : Received s n s2 := .of_aside hidle hread
  have hless := hread.2.2.1
  simp only [wp_bind, wp_get, wp_ite, wp_set]
  refine ⟨fun hnoise => ⟨hread.aside (.inr (lt_of_isNoise hnoise)), hless⟩, fun _ => ⟨fun hmsg => ?_,
    fun _ => ⟨fun hmsg => ⟨fun _ => hread, fun hflag => ?_⟩, fun _ => hread⟩⟩⟩
  · exact hread.aside (.inr (hmsg ▸ by decide))
  · -- the peer starts a key exchange
    have haside := hread.aside (.inr (hmsg ▸ by decide))
    refine ⟨fun _ => haside, fun _ => ?_⟩
    have hset : Aside s { s2 with iClient := s2.payload.take n } :=
      haside.trans (.of_sends (.refl _) rfl rfl)
    have hfree : s2.inKex = false ∧ s2.kexDone = true := by simpa using hflag
    refine (hkex { s2 with iClient := s2.payload.take n } hfree.1).mono (fun _ s3 h => ?_)
      fun _ _ h => hset.trans h
    exact ⟨hset.trans h, h.2.2.arrivals.trans_lt hless⟩

lemma wp_recvWith (hkex : KexAside kex) (s : Server) :
    wp (recvWith kex) (fun n s' => Received s n s') (fun _ s' => Aside s s') s := by
  unfold recvWith
  refine wp_loop (I := fun _ s' => Aside s s') (fun _ s' => s'.arrivals.length) ?_ (Aside.refl s)
    (Nat.lt_succ_self _)
  intro _ s1 haside
  refine (wp_recvStep hkex s1).mono ?_ fun _ _ h => haside.trans h
  intro r s2 h
  cases r with
  | inl _ => exact ⟨haside.trans h.1, h.2⟩
  | inr n => exact .of_aside haside h

/-! ## Key exchange -/

lemma getD_kexinitBuild {cookie : Except Err _}
    (h : kexinitBuild cap cookie = .ok msg) : msg.getD 0 0 = msgKexinit := by
  unfold kexinitBuild at h
  split at h
  · cases h
  refine Starts.finish ?_ h
  simp only [foldl_cons]
  refine Starts.putRaw (Starts.putRaw ?_ _) _
  iterate 10 refine Starts.putNamelist ?_ _
  exact (starts_putByte cap msgKexinit).putRaw _

lemma getD_ecdhReply {hostBlob sigBlob : List UInt8} {q : Bytes32}
    (h : ecdhReply hostBlob q sigBlob = .ok msg) : msg.getD 0 0 = msgKexEcdhReply := by
  refine Starts.finish ?_ h
  exact (((starts_putByte 512 msgKexEcdhReply).putString _).putString _).putString _

lemma getD_extInfoBuild {algos : List (List UInt8)} (h : extInfoBuild cap algos = .ok msg) :
    msg.getD 0 0 = msgExtInfo := by
  unfold extInfoBuild at h
  split at h
  · cases h
  · refine Starts.finish ?_ h
    exact (((starts_putByte cap msgExtInfo).putRaw _).putString _).putNamelist _

/-- What a relation has to allow so that a key exchange stays within it. -/
structure Exchanges (R : Server → Server → Prop) : Prop where
  send : ∀ {msg : List UInt8}, answerOf (msg.getD 0 0) = none → Within R (onConn (Conn.sendPacket msg))
  recv : Within R recvInKex
  draw : ∀ s, R s { s with draws := s.draws.tail }
  offer : ∀ s iServer, R s { s with iServer }
  identify : ∀ s h, R s { s with sessionId := if s.kexDone then s.sessionId else h }
  sealing : ∀ s key, R s { s with outCipher.key := some key }
  opening : ∀ s key rekeys, R s { s with inCipher.key := some key, rekeys, kexDone := true }

variable (S : Suite) (opts : ServerOpts)

section Exchanges

variable {R : Server → Server → Prop} [Std.Refl R] [IsTrans Server R]

section

variable (h : Exchanges R)

include h

lemma Exchanges.offerKeys (kexDone : Bool) (draw : KexDraw) :
    Within R (offerKeys kexDone draw) := by
  refine .ite (.of_ok fun msg hbuild => ?_) (.pure _)
  exact .bind (.modify fun s => h.offer s msg) fun _ => h.send (getD_kexinitBuild hbuild ▸ rfl)

lemma Exchanges.discardGuess (neg : Negotiated) : Within R (discardGuess neg) :=
  .ite (h.recv.bind fun _ => .pure _) (.pure _)

lemma Exchanges.answerEcdh (draw : KexDraw) : Within R (answerEcdh S opts draw) := by
  refine h.recv.bind fun n => .get fun s => .ite (.throw _) ?_
  refine .of_ok fun qClient _ => .of_ok fun ephemeral _ => ?_
  refine .of_ok fun secret _ => .of_ok fun sig _ => ?_
  refine .of_ok fun sigBlob _ => .of_ok fun reply hreply => ?_
  refine (h.send (getD_ecdhReply hreply ▸ rfl)).bind fun _ => ?_
  exact .bind (.modify fun s => h.identify s _) fun _ => .get fun _ => .pure _

lemma Exchanges.sendExtInfo : Within R sendExtInfo := by
  unfold Server.sendExtInfo
  split
  · exact .pure _
  · next ext hext =>
    exact (h.send (getD_extInfoBuild hext ▸ rfl)).attempt.bind fun _ => .pure _

lemma Exchanges.awaitNewkeys (c2s : CipherKey) : Within R (awaitNewkeys c2s) := by
  refine h.recv.bind fun n => .get fun s => .ite (.throw _) ?_
  refine .bind (.modify fun s => h.opening s _ _) fun _ => ?_
  exact .ite (.pure _) h.sendExtInfo

lemma Exchanges.changeKeys (c2s s2c : CipherKey) : Within R (changeKeys c2s s2c) :=
  (h.send rfl).bind fun _ => .bind (.modify fun s => h.sealing s _) fun _ => h.awaitNewkeys c2s

lemma Exchanges.exchangeKeys : Within R (exchangeKeys S opts) := by
  refine .get fun s => .bind (.modify h.draw) fun _ => ?_
  refine (h.offerKeys _ _).bind fun _ => .get fun s => ?_
  refine .of_ok fun neg _ => (h.discardGuess neg).bind fun _ => ?_
  exact (h.answerEcdh S opts _).bind fun _ => h.changeKeys _ _

end

end Exchanges

def InKex (s s' : Server) : Prop := s.inKex = true → Aside s s'

instance : Std.Refl InKex := ⟨fun s _ => Aside.refl s⟩

instance : IsTrans Server InKex :=
  ⟨fun _ _ _ h h' hkex => (h hkex).trans (h' ((h hkex).2.1.trans hkex))⟩

lemma inKex_recvInKex : Within InKex recvInKex := by
  intro s
  have hnone : KexAside (throw .inval) := fun s _ => Aside.refl s
  refine (wp_recvWith hnone s).mono (fun n s' h hkex => ?_) fun _ _ h _ => h
  exact h.aside (.inl hkex)

lemma exchanges_inKex : Exchanges InKex where
  send hmsg := (aside_onConn (Conn.sends_sendPacket hmsg)).mono fun _ _ haside _ => haside
  recv := inKex_recvInKex
  draw _ _ := .of_sends (.refl _) rfl rfl
  offer _ _ _ := .of_sends (.refl _) rfl rfl
  identify _ _ _ := .of_sends (.refl _) rfl rfl
  sealing _ _ _ := .of_sends ⟨⟨rfl, rfl, rfl, rfl, rfl, rfl, rfl, rfl, id⟩, rfl⟩ rfl rfl
  opening _ _ _ _ := .of_sends ⟨⟨rfl, rfl, rfl, rfl, rfl, rfl, rfl, rfl, id⟩, rfl⟩ rfl rfl

lemma kexAside_kexExchange : KexAside (kexExchange S opts) := by
  intro s hfree
  unfold kexExchange
  rw [wp_bind, wp_modify, wp_ensuring]
  -- the flag is set for the exchange and taken back
  have hback : ∀ s', Aside { s with inKex := true } s' → Aside s { s' with inKex := false } := by
    rintro s' ⟨hclosed, -, hnew⟩
    exact ⟨hclosed, hfree.symm, hnew⟩
  exact (exchanges_inKex.exchangeKeys S opts _).mono (fun _ s' h => hback s' (h rfl)) fun _ s' h =>
    hback s' (h rfl)

/-- What `recv_packet` does. -/
theorem wp_recvPacket (s : Server) :
    wp (recvPacket S opts) (fun n s' => Received s n s') (fun _ s' => Aside s s') s :=
  wp_recvWith (kexAside_kexExchange S opts) s

end Server

end Ssh
