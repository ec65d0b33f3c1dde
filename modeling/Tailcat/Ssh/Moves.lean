import Tailcat.Ssh.Dial

/-!
# What moves over a connection

Each side counts the packets it sends and receives, in one sequence for each direction that a change of
keys does not interrupt. Packets are taken in the order in which they arrive, and the session stays that
of the first key exchange.

## Main results

* `Server.moves_recvPacket`, `Server.moves_callAll`, `Server.moves_finish`: the functions of the server;
* `Client.moves_doKex`, `Client.moves_callAll`: the functions of the client.
-/

namespace Ssh

open Program Conn List

/-! ## Numbers of packets -/

/-- The payload of an arrival, if it is a packet that is received. -/
def Arrival.opens (encrypted : Bool) : Arrival → Option (List UInt8)
  | .failure _ => none
  | .region bytes =>
    let pad := (bytes.getD 0 0).toNat
    match regionLength encrypted bytes.length with
    | .error _ => none
    | .ok _ =>
      if pad < minPadding || pad + 1 > bytes.length then none
      else some (Fields.slice bytes 1 (bytes.length - 1 - pad))

/-- The sequence number of the packet that is sent after `j` other ones, from a sequence number on. One
that could not be written has used up its number. -/
def numberOf (seq : ℕ) : List Outcome → ℕ → ℕ
  | [], j => seq + j
  | .noEncode _ :: rest, j => numberOf seq rest j
  | .noWrite _ :: rest, j => numberOf (seq + 1) rest j
  | .sent :: _, 0 => seq
  | .sent :: rest, j + 1 => numberOf (seq + 1) rest j

section

variable (seq : ℕ) (outcomes : List Outcome)

lemma numberOf_lt_succ (j : ℕ) :
    numberOf seq outcomes j < numberOf seq outcomes (j + 1) ∧ seq + j ≤ numberOf seq outcomes j := by
  induction outcomes generalizing seq j with
  | nil => simp [numberOf]
  | cons o rest ih =>
    cases o with
    | noEncode e => exact ih seq j
    | noWrite e =>
      have h := ih (seq + 1) j
      simp only [numberOf]
      omega
    | sent =>
      cases j with
      | zero =>
        have h := ih (seq + 1) 0
        simp only [numberOf]
        omega
      | succ j =>
        have h := ih (seq + 1) j
        simp only [numberOf]
        omega

lemma strictMono_numberOf : StrictMono (numberOf seq outcomes) :=
  strictMono_nat_of_lt_succ fun j => (numberOf_lt_succ seq outcomes j).1

lemma le_numberOf (j : ℕ) : seq + j ≤ numberOf seq outcomes j := (numberOf_lt_succ seq outcomes j).2

/-! ## The change of keys -/

/-- The messages up to the one with which the keys are taken into use. -/
def throughNewkeys : List (List UInt8) → List (List UInt8)
  | [] => []
  | m :: rest => if m = [msgNewkeys] then [m] else m :: throughNewkeys rest

lemma throughNewkeys_append {ms : List (List UInt8)} (h : [msgNewkeys] ∉ ms)
    (rest : List (List UInt8)) : throughNewkeys (ms ++ rest) = ms ++ throughNewkeys rest := by
  induction ms with
  | nil => rfl
  | cons m ms ih =>
    rw [mem_cons, not_or] at h
    rw [cons_append, throughNewkeys, if_neg (Ne.symm h.1), ih h.2, cons_append]

end

variable (cap : ℕ) (msg : List UInt8) (n : ℕ) (data : List UInt8)

namespace Conn

structure Moves (c c' : Conn) : Prop where
  outbox : c.outbox <+: c'.outbox
  /-- Packets that are still to be sent have the numbers they would have had. -/
  number : ∀ j, numberOf c'.outCipher.seq c'.outcomes j =
    numberOf c.outCipher.seq c.outcomes (c'.outbox.length - c.outbox.length + j)
  taken : c.taken <+: c'.taken
  /-- Each packet that is received has the next number. -/
  seq : c'.inCipher.seq + c.taken.length = c.inCipher.seq + c'.taken.length
  /-- Once there is a key, the packets are those that arrive. -/
  opened : c.inCipher.key.isSome → c'.inCipher.key.isSome ∧
    ∃ used, c.arrivals = used ++ c'.arrivals ∧ c'.taken.map Taken.payload =
      c.taken.map Taken.payload ++ used.filterMap (Arrival.opens true)

variable {c c' : Conn}

/-- What the numbers depend on, the keys apart. -/
def counted (c : Conn) :=
  (c.outbox, c.outCipher.seq, c.outcomes, c.taken, c.inCipher.seq, c.arrivals)

lemma Moves.of_same (h : c'.counted = c.counted)
    (hkey : c.inCipher.key.isSome → c'.inCipher.key.isSome) : Moves c c' := by
  simp only [counted, Prod.mk.injEq] at h
  obtain ⟨houtbox, hseq, houtcomes, htaken, hin, harrivals⟩ := h
  exact
    { outbox := houtbox ▸ prefix_rfl
      number := by simp [houtbox, hseq, houtcomes]
      taken := htaken ▸ prefix_rfl
      seq := by rw [hin, htaken]
      opened := fun h => ⟨hkey h, [], by simp [harrivals, htaken]⟩ }

lemma Moves.refl (c : Conn) : Moves c c := .of_same rfl id

lemma Moves.trans {c'' : Conn} (h : Moves c c') (h' : Moves c' c'') : Moves c c'' where
  outbox := h.outbox.trans h'.outbox
  number := by
    intro j
    have hle := h.outbox.length_le
    have hle' := h'.outbox.length_le
    rw [h'.number, h.number, ← Nat.add_assoc]
    congr 2
    omega
  taken := h.taken.trans h'.taken
  seq := by
    have hseq := h.seq
    have hseq' := h'.seq
    omega
  opened := by
    intro hkey
    obtain ⟨hkey1, used, harrivals, htaken⟩ := h.opened hkey
    obtain ⟨hkey2, used', harrivals', htaken'⟩ := h'.opened hkey1
    refine ⟨hkey2, used ++ used', ?_, ?_⟩
    · rw [harrivals, harrivals', append_assoc]
    · rw [htaken', htaken, filterMap_append, append_assoc]

instance : Std.Refl Moves := ⟨Moves.refl⟩
instance : IsTrans Conn Moves := ⟨fun _ _ _ => Moves.trans⟩

/-! ## The packet layer -/

lemma moves_sendPacket : Within Moves (sendPacket msg) := by
  -- what is done with the outcomes that are left
  have hnext : ∀ (c : Conn) (o : Outcome) (seq' : ℕ) (sent : List (List UInt8)),
      c.outcomes.head?.getD .sent = o →
      (∀ rest j, numberOf seq' rest j = numberOf c.outCipher.seq (o :: rest) (sent.length + j)) →
      ∀ failed, Moves c { c with
        outCipher.seq := seq', outcomes := c.outcomes.tail, outbox := c.outbox ++ sent
        sendFailed := failed } := by
    intro c o seq' sent ho hnumber failed
    refine ⟨prefix_append _ _, fun j => ?_, prefix_rfl, rfl, fun h => ⟨h, [], by simp⟩⟩
    rw [hnumber, length_append, Nat.add_sub_cancel_left]
    cases houtcomes : c.outcomes with
    | nil =>
      rw [houtcomes] at ho
      obtain rfl : Outcome.sent = o := ho
      cases sent.length + j with
      | zero => rfl
      | succ k =>
        simp only [tail_nil, numberOf]
        omega
    | cons o' rest =>
      rw [houtcomes] at ho
      obtain rfl : o' = o := ho
      rfl
  intro c
  unfold sendPacket
  simp only [wp_bind, wp_get, wp_ite]
  refine ⟨fun _ => .of_same rfl id, fun _ => ⟨fun _ => .of_same rfl id, fun _ => ?_⟩⟩
  split
  · next e ho =>
    have h := hnext c _ c.outCipher.seq [] ho (by simp [numberOf]) true
    rw [append_nil] at h
    exact h
  · next e ho =>
    have h := hnext c _ (c.outCipher.seq + 1) [] ho (by simp [numberOf]) true
    rw [append_nil] at h
    exact h
  · next ho =>
    refine hnext c _ (c.outCipher.seq + 1) [msg] ho ?_ c.sendFailed
    intro rest j
    rw [length_singleton, Nat.add_comm 1]
    rfl

lemma moves_readPacket (inKex : Bool) : Within Moves (readPacket inKex) := by
  intro c
  -- a packet that is refused
  have hskip : ∀ (a : Arrival) (rest : List Arrival) (buf : List UInt8), c.arrivals = a :: rest →
      (c.inCipher.key.isSome = true → a.opens true = none) →
      Moves c { c with arrivals := rest, payload := buf } := by
    intro a rest buf harrivals hnone
    refine ⟨prefix_rfl, by simp, prefix_rfl, rfl, fun hkey => ⟨hkey, [a], ?_⟩⟩
    simp [harrivals, hnone hkey]
  unfold readPacket
  simp only [wp_bind, wp_get, wp_set]
  cases harrivals : c.arrivals with
  | nil => exact .of_same (by simp [counted, harrivals]) id
  | cons arrival rest =>
    cases arrival with
    | failure e => exact hskip _ rest c.payload harrivals fun _ => rfl
    | region region =>
      dsimp only
      cases hlength : regionLength c.inCipher.key.isSome region.length with
      | error e =>
        refine hskip _ rest c.payload harrivals fun hkey => ?_
        rw [hkey] at hlength
        simp only [Arrival.opens, hlength]
      | ok u =>
        simp only [decodeRegion, wp_bind, wp_ofExcept_ok, wp_modify, wp_ite, wp_pure]
        refine ⟨fun hpad => hskip _ rest _ harrivals fun hkey => ?_, fun hpad => ?_⟩
        · rw [hkey] at hlength
          simp only [Arrival.opens, hlength]
          exact if_pos hpad
        -- a packet without a payload is refused as well, but it was counted
        have hmoves : ∀ buf, Moves c { c with
            arrivals := rest, payload := buf, inCipher.seq := c.inCipher.seq + 1
            taken := c.taken ++ [{
              payload := Fields.slice region 1 (region.length - 1 - (region.getD 0 0).toNat)
              inKex, channelOpen := c.ch.isOpen }] } := by
          intro buf
          refine ⟨prefix_rfl, by simp, prefix_append _ _, ?_, fun hkey =>
            ⟨hkey, [.region region], by simp [harrivals], ?_⟩⟩
          · simp only [length_append, length_singleton]
            omega
          · rw [hkey] at hlength
            simp only [map_append, map_cons, map_nil, filterMap_cons,
              filterMap_nil, Arrival.opens, hlength, if_neg hpad]
        exact ⟨fun _ => hmoves _, fun _ => hmoves _⟩

lemma moves_sendData : Within Moves (sendData data) := by
  refine .of_get fun c => wp_ofExcept_bind (fun built _ => ?_) fun _ _ => .refl c
  exact (moves_sendPacket _).of_set (.of_same rfl id)

lemma moves_sendChunk : Within Moves (sendChunk data) :=
  .get fun _ => (moves_sendData _).bind fun _ => .pure _

lemma moves_writeSome : Within Moves (writeSome data) := by
  refine .get fun c => .loop (fun v => ?_) _ _
  exact .get fun c => .ite (.pure _) ((moves_sendChunk _).bind fun _ => .pure _)

lemma moves_replenish : Within Moves replenish := by
  refine .of_get fun c => ?_
  split
  · refine wp_ofExcept_bind (fun built _ => ?_) fun _ _ => .refl c
    exact (moves_sendPacket _).of_set (.of_same rfl id)
  · exact Moves.refl c

lemma moves_takePending : Within Moves (takePending cap) := by
  refine moves_replenish.bind fun _ => .of_get fun c => ?_
  exact (Within.pure _).of_set (.of_same rfl id)

lemma moves_noteData : Within Moves (noteData n) := by
  refine .bind (.modify fun c => .of_same rfl id) fun _ => ?_
  refine .of_get fun c => wp_ofExcept_bind (fun parsed _ => ?_) fun _ _ => .refl c
  exact Moves.of_same rfl id

lemma moves_noteAdjust : Within Moves (noteAdjust n) := by
  refine .of_get fun c => wp_ofExcept_bind (fun ch _ => ?_) fun _ _ => .refl c
  exact Moves.of_same rfl id

end Conn

/-! ## The server -/

namespace Server

def SameSession (s s' : Server) : Prop :=
  s.kexDone = true → s'.kexDone = true ∧ s'.sessionId = s.sessionId

structure Moves (s s' : Server) : Prop where
  session : SameSession s s'
  conn : Conn.Moves s.toConn s'.toConn

lemma Moves.of_eq {s s' : Server} (hdone : s'.kexDone = s.kexDone)
    (hid : s'.sessionId = s.sessionId) (hconn : Conn.Moves s.toConn s'.toConn) : Moves s s' :=
  ⟨fun h => ⟨hdone.trans h, hid⟩, hconn⟩

lemma Moves.of_conn {s s' : Server}
    (h : (s'.kexDone, s'.sessionId, s'.toConn) = (s.kexDone, s.sessionId, s.toConn)) : Moves s s' := by
  simp only [Prod.mk.injEq] at h
  exact .of_eq h.1 h.2.1 (h.2.2 ▸ .refl _)

lemma Moves.refl (s : Server) : Moves s s := .of_conn rfl

lemma Moves.trans {s s' s'' : Server} (h : Moves s s') (h' : Moves s' s'') : Moves s s'' where
  session := fun hdone =>
    ⟨(h'.session (h.session hdone).1).1, (h'.session (h.session hdone).1).2.trans (h.session hdone).2⟩
  conn := h.conn.trans h'.conn

instance : Std.Refl Moves := ⟨Moves.refl⟩
instance : IsTrans Server Moves := ⟨fun _ _ _ => Moves.trans⟩

lemma moves_onConn {x : EStateM Err Conn α} (h : Within Conn.Moves x) : Within Moves
    (onConn x) := by
  intro s
  rw [onConn, wp_zoom]
  exact (h s.toConn).mono (fun _ _ hc => .of_eq rfl rfl hc) fun _ _ hc => .of_eq rfl rfl hc

lemma moves_send : Within Moves (onConn (sendPacket msg)) := moves_onConn (moves_sendPacket msg)

/-! ### Receiving and key exchange -/

lemma moves_recvWith {kex : ServerM Unit} (hkex : Within Moves kex) : Within Moves (recvWith kex) := by
  refine within_recvWith (fun d => moves_onConn (moves_writeSome d)) (fun _ => .of_conn rfl)
    (fun _ => moves_onConn (moves_readPacket _)) fun s n _ => ?_
  exact hkex.of_set (s := s) (.of_conn rfl)

lemma moves_recvInKex : Within Moves recvInKex := moves_recvWith (.throw _)

lemma exchanges_moves : Exchanges Moves where
  send _ := moves_send _
  recv := moves_recvInKex
  draw _ := .of_conn rfl
  offer _ _ := .of_conn rfl
  -- the id is set only in the first exchange
  identify _ _ := ⟨fun hdone => ⟨hdone, if_pos hdone⟩, .refl _⟩
  sealing _ _ := .of_eq rfl rfl (.of_same rfl id)
  opening _ _ _ := ⟨fun _ => ⟨rfl, rfl⟩, .of_same rfl fun _ => rfl⟩

variable (S : Suite) (V : Verifiers) (opts : ServerOpts)

lemma moves_kexExchange : Within Moves (kexExchange S opts) :=
  .bind (.modify fun _ => .of_conn rfl) fun _ =>
    (exchanges_moves.exchangeKeys S opts).ensuring fun _ => .of_conn rfl

theorem moves_recvPacket : Within Moves (recvPacket S opts) :=
  moves_recvWith (moves_kexExchange S opts)

lemma moves_receiveOffer : Within Moves receiveOffer := by
  refine moves_recvInKex.bind fun n => .get fun s => .ite (.throw _) (.ite (.throw _) ?_)
  exact .modify fun s => .of_conn rfl

lemma moves_openKeys (g : Greeting) : Within Moves (openKeys V opts g) := by
  refine .bind ?_ fun _ => ?_
  · refine .of_ok fun hostPub _ => .of_ok fun hostBlob _ => ?_
    refine .of_ok fun line _ => .of_ok fun _ _ => ?_
    refine .of_ok fun version _ => .of_ok fun _ _ => ?_
    exact .modify fun s => .of_conn rfl
  · refine .get fun s => .of_ok fun iServer _ => ?_
    refine .bind (.modify fun s => .of_conn rfl) fun _ => ?_
    refine .bind (.ensuring ?_ fun s => .of_conn rfl) fun _ => moves_kexExchange _ opts
    exact (moves_send _).bind fun _ => moves_receiveOffer

/-! ### Authentication and session -/

lemma moves_sendBuilt (built : Except Err (List UInt8)) : Within Moves (sendBuilt built) :=
  .of_ok fun msg _ => moves_send msg

lemma moves_sendUnimplemented (seq : ℕ) : Within Moves (sendUnimplemented seq) :=
  .of_ok fun msg _ => moves_send msg

lemma moves_answerRequest (auth : AuthOpts) (req : AuthRequest) :
    Within Moves (answerRequest V auth req) := by
  have hsend : ∀ built (r : Unit ⊕ Unit), Within Moves (sendBuilt built >>= fun _ => pure r) :=
    fun built r => (moves_sendBuilt built).bind fun _ => .pure _
  refine .ite (.ite (hsend _ _) (hsend _ _)) (.ite (hsend _ _) ?_)
  exact .get fun s => .ite (hsend _ _) (hsend _ _)

lemma moves_acceptService : Within Moves (acceptService S opts) := by
  refine (moves_recvPacket S opts).bind fun n => .get fun s => ?_
  refine .ite (.throw _) (.of_ok fun service _ => ?_)
  exact .ite (.throw _) (moves_sendBuilt _)

lemma moves_doAuth (auth : AuthOpts) : Within Moves (doAuth V opts auth) := by
  refine (moves_acceptService _ opts).bind fun _ => .loop (fun _ => ?_) _ _
  refine (moves_recvPacket _ opts).bind fun n => .get fun s => .ite ?_ ?_
  · exact (moves_sendUnimplemented _).bind fun _ => .pure _
  · exact .of_ok fun req _ => moves_answerRequest V auth req

lemma moves_openChannel : Within Moves (openChannel S opts) := by
  refine .get fun s => .loop (fun _ => ?_) _ _
  refine (moves_recvPacket S opts).bind fun n => .of_get fun s => ?_
  split
  · split
    · exact ((moves_send _).bind fun _ => .pure _) s
    · exact Within.pure _ s
  split
  · exact Within.pure _ s
  refine wp_ofExcept_bind (fun chType _ => ?_) fun _ _ => .refl s
  dsimp only
  -- the channel is refused or confirmed
  split <;> exact Within.of_set (.of_ok fun msg _ => (moves_send msg).bind fun _ => .pure _)
    (.of_eq rfl rfl (.of_same rfl id))

lemma moves_awaitRequest : Within Moves (awaitRequest S opts) := by
  refine .get fun s => .bind (.loop (fun _ => ?_) _ _) fun req => ?_
  · refine (moves_recvPacket S opts).bind fun n => .of_get fun s => ?_
    split
    · exact Within.pure _ s
    refine wp_ofExcept_bind (fun req _ => ?_) fun _ _ => .refl s
    have hnext : Within Moves (if accepts opts req && req.type ≠ .pty then pure (.inr req)
        else pure (.inl ()) : ServerM (Unit ⊕ ChannelRequest)) :=
      .ite (.pure _) (.pure _)
    refine Within.of_set (.ite ?_ hnext) ?_
    · exact .of_ok fun msg _ => (moves_send msg).bind fun _ => hnext
    · split <;> exact .of_conn rfl
  · exact .modify fun s => .of_eq rfl rfl (.of_same rfl id)

/-! ### Calls of the application -/

lemma moves_tryReply (accept : Bool) : Within Moves (tryReply accept) := by
  refine .get fun s => ?_
  split
  · exact .pure _
  · exact (moves_send _).attempt.bind fun _ => .pure _

lemma moves_noteRequest : Within Moves (noteRequest n) := by
  refine .of_get fun s => ?_
  split
  · exact Within.pure _ s
  · refine Within.of_set (.ite (moves_tryReply _) (.pure _)) ?_
    split <;> exact .of_conn rfl

lemma moves_readDispatch : Within Moves (readDispatch n) := by
  refine .of_get fun s => ?_
  split
  · exact moves_onConn (moves_noteData n) s
  split
  · exact moves_onConn (moves_noteAdjust n) s
  split
  · exact .of_eq rfl rfl (.of_same rfl id)
  split
  · exact (Within.throw _).of_set (.of_eq rfl rfl (.of_same rfl id))
  split
  · exact moves_noteRequest n s
  · exact Within.pure _ s

lemma moves_read (cap : ℕ) : Within Moves (read S opts cap) := by
  refine .get fun s => .bind (.loop (fun _ => ?_) _ _) fun _ =>
    moves_onConn (moves_takePending cap)
  refine .get fun s => .ite (.pure _) (.ite (.throw _) ?_)
  exact (moves_recvPacket S opts).bind fun n => (moves_readDispatch n).bind fun _ => .pure _

lemma moves_write (data : List UInt8) : Within Moves (write S opts data) := by
  refine .get fun s => .loop (fun left => .ite (.pure _) ?_) _ _
  refine (moves_onConn (moves_writeSome left)).bind fun wrote => .ite (.pure _) ?_
  refine (moves_recvPacket S opts).bind fun n => .of_get fun s => ?_
  split
  · exact ((moves_onConn (moves_noteAdjust n)).bind fun _ => .pure _) s
  split
  · exact (Within.throw _).of_set (.of_conn rfl)
  · exact Within.pure _ s

lemma moves_call (c : Call) : Within Moves (call S opts c) := by
  cases c with
  | read cap => exact (moves_read S opts cap).bind fun _ => .pure _
  | write data => exact moves_write S opts data
  | writeSome data => exact (moves_onConn (moves_writeSome data)).bind fun _ => .pure _
  | exit status => exact .get fun s => .of_ok fun _ _ => moves_send _

theorem moves_callAll (calls : List Call) : Within Moves (callAll S opts calls) := by
  induction calls with
  | nil => exact .pure _
  | cons c rest ih => exact (moves_call S opts c).attempt.bind fun _ => ih

lemma moves_sendLast (built : Except Err (Channel × List UInt8)) : Within Moves
    (sendLast built) := by
  unfold sendLast
  split
  · exact .pure _
  refine .bind (.modify fun s => ?_) fun _ => ?_
  · exact .of_eq rfl rfl (.of_same rfl id)
  · exact (moves_send _).attempt.bind fun _ => .pure _

theorem moves_finish : Within Moves (finish S opts) := by
  refine .get fun s => (moves_sendLast _).bind fun _ => .get fun s => ?_
  refine (moves_sendLast _).bind fun _ => .loop (fun turns => ?_) _ _
  refine .get fun s => .ite (.pure _) ?_
  refine (moves_recvPacket S opts).attempt.bind fun r => ?_
  cases r with
  | error e => exact .pure _
  | ok n =>
    refine .of_get fun s => ?_
    split
    · exact (Within.pure _).of_set (.of_conn rfl)
    · exact Within.pure _ s

end Server

/-! ## The client -/

namespace Client

/-! ### Calls of the application -/

theorem moves_recvPacket : Within Conn.Moves recvPacket := by
  refine .get fun c => .loop (fun _ => ?_) _ _
  refine .get fun c => .ite (.throw _) ?_
  refine (moves_readPacket _).bind fun n => .get fun c => .ite (.pure _) ?_
  exact .ite (.throw _) (.pure _)

lemma moves_waitWindow : Within Conn.Moves waitWindow := by
  refine .get fun c => .loop (fun _ => ?_) _ _
  refine .get fun c => .ite (.pure _) ?_
  refine moves_recvPacket.bind fun n => .get fun c => .ite ?_ ?_
  · exact (moves_noteAdjust n).bind fun _ => .pure _
  · exact .ite (.throw _) (.pure _)

lemma moves_write : Within Conn.Moves (write data) := by
  refine .get fun c => .loop (fun left => .ite (.pure _) ?_) _ _
  exact moves_waitWindow.bind fun _ => (moves_sendChunk left).bind fun _ => .pure _

lemma moves_readDispatch : Within Conn.Moves (readDispatch n) := by
  refine .of_get fun c => ?_
  split
  · exact moves_noteData n c
  split
  · exact moves_noteAdjust n c
  split
  · exact .of_same rfl id
  split
  · exact (Within.throw _).of_set (.of_same rfl id)
  · exact Within.pure _ c

lemma moves_read : Within Conn.Moves (read cap) := by
  refine .get fun c => .bind (.loop (fun _ => ?_) _ _) fun _ =>
    moves_takePending cap
  refine .get fun c => .ite (.pure _) (.ite (.throw _) ?_)
  exact moves_recvPacket.bind fun n => (moves_readDispatch n).bind fun _ => .pure _

lemma moves_sendEof : Within Conn.Moves sendEof := by
  refine .of_get fun c => ?_
  split
  · exact Within.pure _ c
  · refine wp_ofExcept_bind (fun built _ => ?_) fun _ _ => .refl c
    exact (moves_sendPacket _).of_set (.of_same rfl id)

lemma moves_call (a : Call) : Within Conn.Moves (call a) := by
  cases a with
  | read cap => exact (moves_read cap).bind fun _ => .pure _
  | write data => exact moves_write data
  | eof => exact moves_sendEof

/-! ### Up to the session -/

def Moves (c c' : Client) : Prop := Conn.Moves c.toConn c'.toConn

instance : Std.Refl Moves := ⟨fun c => Conn.Moves.refl c.toConn⟩
instance : IsTrans Client Moves := ⟨fun _ _ _ => Conn.Moves.trans⟩

lemma Moves.of_eq {c c' : Client} (h : c'.toConn = c.toConn) : Moves c c' := by
  rw [Moves, h]
  exact .refl _

lemma moves_onConn {x : ClientM α} (h : Within Conn.Moves x) : Within Moves (onConn x) := by
  intro c
  rw [onConn, wp_zoom]
  exact h c.toConn

lemma moves_send : Within Moves (onConn (sendPacket msg)) := moves_onConn (moves_sendPacket msg)

lemma moves_recv : Within Moves (onConn recvPacket) := moves_onConn moves_recvPacket

lemma moves_greet (g : Greeting) : Within Moves (greet g) := by
  refine .of_ok fun line _ => .of_ok fun _ _ => ?_
  refine .of_ok fun version _ => .of_ok fun _ _ => ?_
  exact .modify fun c => .of_eq rfl

variable (V : Verifiers) (opts : ClientOpts)

lemma moves_receiveReply (ephemeral : Bytes32) : Within Moves (receiveReply V ephemeral) := by
  refine moves_recv.bind fun n => .get fun c => .ite (.throw _) ?_
  refine .of_ok fun reply _ => .bind (.modify fun c => .of_eq rfl) fun _ => ?_
  refine .of_ok fun secret _ => .ite (.throw _) ?_
  exact .bind (.modify fun c => .of_eq rfl) fun _ => .pure _

lemma moves_changeKeys (c2s s2c : CipherKey) : Within Moves (changeKeys c2s s2c) := by
  refine (moves_send _).bind fun _ => .bind (.modify ?_) fun _ => ?_
  · exact fun c => Conn.Moves.of_same rfl id
  refine moves_recv.bind fun n => .get fun c => .ite (.throw _) ?_
  exact .modify fun c => Conn.Moves.of_same rfl fun _ => rfl

theorem moves_doKex (draw : KexDraw) : Within Moves (doKex V draw) := by
  refine .bind ?_ fun _ => .bind ?_ fun ephemeral => ?_
  · refine .of_ok fun iClient _ => .bind (.modify fun c => .of_eq rfl) fun _ => ?_
    refine (moves_send _).bind fun _ => moves_recv.bind fun n => .get fun c => ?_
    refine .ite (.throw _) (.ite (.throw _) ?_)
    exact .modify fun c => .of_eq rfl
  · refine .get fun c => .of_ok fun _ _ => ?_
    refine .of_ok fun ephemeral _ => .of_ok fun msg _ => ?_
    exact (moves_send _).bind fun _ => .pure _
  · exact (moves_receiveReply V ephemeral).bind fun keys => moves_changeKeys _ _

lemma moves_authNone : Within Moves (authNone opts) := by
  refine .of_ok fun msg _ => (moves_send _).bind fun _ => moves_recv.bind fun _ => ?_
  refine .get fun c => .ite (.pure _) ?_
  exact .ite (.throw _) (.pure _)

lemma moves_authPublickey (seed : Bytes32) : Within Moves (authPublickey V opts seed) := by
  refine .of_ok fun pub _ => .of_ok fun keyblob _ => ?_
  refine .get fun c => .of_ok fun blob _ => .of_ok fun sig _ => ?_
  refine .of_ok fun sigblob _ => .of_ok fun msg _ => ?_
  exact (moves_send _).bind fun _ => moves_recv.bind fun _ => .get fun c => .pure _

lemma moves_doAuth : Within Moves (doAuth V opts) := by
  refine .of_ok fun msg _ => (moves_send _).bind fun _ => moves_recv.bind fun _ => ?_
  refine .get fun c => .ite (.throw _) ?_
  refine (moves_authNone opts).bind fun ok => .ite (.pure _) ?_
  split
  · exact .throw _
  · next seed _ =>
    exact (moves_authPublickey V opts seed).bind fun _ => .ite (.pure _) (.throw _)

lemma moves_confirmStep : Within Moves (confirmStep ()) := by
  refine moves_recv.bind fun n => .of_get fun c => ?_
  split
  · exact Within.throw _ c
  split
  · refine wp_ofExcept_bind (fun ch _ => ?_) fun _ _ => Conn.Moves.refl _
    exact (Within.pure _).of_set (Conn.Moves.of_same rfl id)
  · exact Within.pure _ c

lemma moves_startStep : Within Moves (startStep ()) := by
  refine moves_recv.bind fun n => .of_get fun c => ?_
  split
  · exact (Within.pure _).of_set (Conn.Moves.of_same rfl id)
  split
  · exact Within.throw _ c
  split
  · exact Within.throw _ c
  · exact Within.pure _ c

lemma moves_doChannel : Within Moves (doChannel opts) := by
  refine .get fun c => .of_ok fun msg _ => (moves_send _).bind fun _ => ?_
  refine .get fun c => (Within.loop (fun _ => moves_confirmStep) _ _).bind fun _ => ?_
  refine .get fun c => .of_ok fun msg _ => (moves_send _).bind fun _ => ?_
  exact .get fun c => .loop (fun _ => moves_startStep) _ _

theorem moves_callAll (calls : List Call) : Within Moves (callAll calls) := by
  induction calls with
  | nil => exact .pure _
  | cons a rest ih => exact (moves_onConn (moves_call a)).attempt.bind fun _ => ih

lemma moves_sendLast (said : Bool) (built : Except Err (Channel × List UInt8)) :
    Within Moves (sendLast said built) := by
  refine .ite (.pure _) ?_
  split
  · exact .pure _
  refine .bind (.modify fun c => ?_) fun _ => ?_
  · exact Conn.Moves.of_same rfl id
  · exact (moves_send _).attempt.bind fun _ => .pure _

end Client

end Ssh
