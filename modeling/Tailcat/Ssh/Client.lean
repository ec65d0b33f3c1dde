import Tailcat.Ssh.Reception

/-!
# The client

`src/ssh/client.c`, once the subsystem has started: the packets it reads and writes, and the calls of the
application. The client never exchanges keys again.

## Main results

* `Client.wp_recvPacket`: what `recv_packet` does.
-/

namespace Ssh

open Program Conn

abbrev ClientM := EStateM Err Conn

namespace Client

/-! ## Packets -/

/-- The messages that the client takes for itself. -/
def isNoise (msg : UInt8) : Bool :=
  msg = msgIgnore || msg = msgDebug || msg = msgUnimplemented || msg = msgExtInfo ||
    msg = msgUserauthBanner

/-- One turn of the loop of `recv_packet`: the length of the payload. -/
def recvStep (_ : Unit) : ClientM (Unit ⊕ ℕ) := do
  let c ← get
  if c.inCipher.seq = uint32Max then throw .toomany
  else
    let n ← readPacket false
    let c ← get
    if isNoise c.msgType then pure (.inl ())
    else if c.msgType = msgDisconnect then throw .closed
    else pure (.inr n)

def recvPacket : ClientM ℕ := do
  let c ← get
  loop recvStep .closed (c.arrivals.length + 1) ()

/-! ## Writing -/

/-- One turn of the loop of `tc_ssh_client_write` that waits for the window. -/
def waitStep (_ : Unit) : ClientM (Unit ⊕ Unit) := do
  let c ← get
  if c.ch.remoteWindow ≠ 0 then pure (.inr ())
  else
    let n ← recvPacket
    let c ← get
    if c.msgType = msgChannelWindowAdjust then
      noteAdjust n
      pure (.inl ())
    else if c.msgType = msgChannelClose then throw .closed
    else pure (.inl ())

def waitWindow : ClientM Unit := do
  let c ← get
  loop waitStep .closed (c.arrivals.length + 1) ()

/-- One turn of the loop of `tc_ssh_client_write`, with the data that is left. -/
def writeStep (data : List UInt8) : ClientM (List UInt8 ⊕ Unit) := do
  if data = [] then pure (.inr ())
  else
    waitWindow
    let n ← sendChunk data
    pure (.inl (data.drop n))

def write (data : List UInt8) : ClientM Unit := do
  let c ← get
  loop writeStep .toomany (uint32Max - c.outCipher.seq + 1) data

/-! ## Reading -/

/-- The packets that `tc_ssh_client_read` acts on. What the server writes to its standard error is
ignored. -/
def readDispatch (n : ℕ) : ClientM Unit := do
  let c ← get
  if c.msgType = msgChannelData then noteData n
  else if c.msgType = msgChannelWindowAdjust then noteAdjust n
  else if c.msgType = msgChannelEof then set { c with peerEof := true }
  else if c.msgType = msgChannelClose then
    set { c with peerEof := true, ch.closed := true }
    throw .done
  else pure ()

/-- One turn of the loop of `tc_ssh_client_read`. -/
def readStep (_ : Unit) : ClientM (Unit ⊕ Unit) := do
  let c ← get
  if c.pendingLen ≠ 0 then pure (.inr ())
  else if c.peerEof then throw .done
  else
    let n ← recvPacket
    readDispatch n
    pure (.inl ())

def read (cap : ℕ) : ClientM (List UInt8) := do
  let c ← get
  loop readStep .closed (c.arrivals.length + 1) ()
  takePending cap

/-- `tc_ssh_client_eof`. -/
def sendEof : ClientM Unit := do
  let c ← get
  if c.ch.eofSent then pure ()
  else
    let (ch, msg) ← ofExcept (channelEofBuild 32 c.ch)
    set { c with ch }
    sendPacket msg

/-! ## Runs -/

inductive Call
  | read (cap : ℕ)
  | write (data : List UInt8)
  | eof
  deriving DecidableEq

def call : Call → ClientM Unit
  | .read cap => do
    let _ ← read cap
    pure ()
  | .write data => write data
  | .eof => sendEof

def step (c : Conn) (a : Call) : Conn := after (call a) c

/-! ## What receiving a packet does -/

lemma lt_of_isNoise {msg : UInt8} (h : isNoise msg = true) : msg < msgGlobalRequest := by
  simp only [isNoise, Bool.or_eq_true, decide_eq_true_eq] at h
  rcases h with (((rfl | rfl) | rfl) | rfl) | rfl <;> decide

lemma wp_recvStep (c : Conn) :
    wp (recvStep ())
      (fun r c' => match r with
        | .inl _ => c.Aside c' ∧ c'.arrivals.length < c.arrivals.length
        | .inr n => c.Received false n c')
      (fun _ c' => c.Aside c') c := by
  unfold recvStep
  rw [wp_bind, wp_get, wp_ite]
  refine ⟨fun _ => Aside.refl c, fun _ => ?_⟩
  refine (wp_readPacket false c).bind fun n c' hread => ?_
  simp only [wp_bind, wp_get, wp_ite]
  refine ⟨fun hnoise => ⟨hread.aside (.inr (lt_of_isNoise hnoise)), hread.1⟩,
    fun _ => ⟨fun hmsg => ?_, fun _ => hread⟩⟩
  exact hread.aside (.inr (hmsg ▸ by decide))

/-- What `recv_packet` does. -/
theorem wp_recvPacket (c : Conn) :
    wp recvPacket (fun n c' => c.Received false n c') (fun _ c' => c.Aside c') c := by
  unfold recvPacket
  refine wp_loop (I := fun _ c' => c.Aside c') (fun _ c' => c'.arrivals.length) ?_ (Aside.refl c)
    (Nat.lt_succ_self _)
  intro _ c1 haside
  refine (wp_recvStep c1).mono ?_ fun _ _ h => haside.trans h
  intro r c2 h
  cases r with
  | inl _ => exact ⟨haside.trans h.1, h.2⟩
  | inr n => exact .of_aside haside h

end Client

end Ssh
