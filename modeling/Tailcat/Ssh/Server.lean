import Tailcat.Ssh.Conn

/-!
# The server

`src/ssh/server.c`, from the end of authentication on. What the source leaves to the application is
given: whether a request is accepted, and the calls that are made once the session has started. While a
packet is awaited, the transport may run the pump of `tc_ssh_server_set_idle`; `idles` says what it sends
before each packet. Loops that read packets end when nothing more arrives at the latest.
-/

namespace Ssh

open Program Conn

/-- What one key exchange draws from the system. Where nothing is given, the draw fails. -/
structure KexDraw where
  cookie : Except Err (Vector UInt8 cookieLen)
  /-- The private key of `tc_x25519_keypair`. -/
  ephemeral : Except Err Bytes32

/-- `tc_ssh_server_opts`, as far as a session uses it. -/
structure ServerOpts where
  hostSeed : Bytes32
  allowShell : Bool
  allowPty : Bool
  waitForClose : Bool
  /-- `on_accept`. -/
  onAccept : RequestType → List UInt8 → Bool

structure Server extends Conn where
  vClient : List UInt8
  vServer : List UInt8
  iClient : List UInt8
  iServer : List UInt8
  sessionId : Bytes32
  hostPub : Bytes32
  hostBlob : List UInt8
  pty : Pty
  hasPty : Bool
  ptyGeneration : ℕ
  peerClosed : Bool
  inKex : Bool
  kexDone : Bool
  rekeys : ℕ
  draws : List KexDraw
  idles : List (List (List UInt8))

abbrev ServerM := EStateM Err Server

namespace Server

def onConn (x : EStateM Err Conn α) : ServerM α := zoom toConn (fun c s => { s with toConn := c }) x

/-! ## Packets -/

def pump : List (List UInt8) → ServerM Unit
  | [] => pure ()
  | data :: rest => do
    let _ ← onConn (writeSome data)
    pump rest

/-- `tc_ssh_server_idle`, each time that a packet is awaited. -/
def idle : ServerM Unit := do
  let s ← get
  set { s with idles := s.idles.tail }
  pump (s.idles.headD [])

def isNoise (msg : UInt8) : Bool := msg = msgIgnore || msg = msgDebug || msg = msgUnimplemented

/-- One turn of the loop of `recv_packet`: the length of the payload. -/
def recvStep (kex : ServerM Unit) (_ : Unit) : ServerM (Unit ⊕ ℕ) := do
  let s ← get
  if s.inCipher.seq = uint32Max then throw .toomany
  else
    idle
    let n ← onConn (readPacket s.inKex)
    let s ← get
    if isNoise s.msgType then pure (.inl ())
    else if s.msgType = msgDisconnect then throw .closed
    else if s.msgType = msgKexinit then
      if s.inKex || !s.kexDone then pure (.inr n)
      else if n > kexinitMax then throw .toomany
      else
        set { s with iClient := s.payload.take n }
        kex
        pure (.inl ())
    else pure (.inr n)

/-- `recv_packet`, with what it does to exchange keys. -/
def recvWith (kex : ServerM Unit) : ServerM ℕ := do
  let s ← get
  loop (recvStep kex) .closed (s.arrivals.length + 1) ()

/-- `recv_packet` during a key exchange, when no other one is started. -/
def recvInKex : ServerM ℕ := recvWith (throw .inval)

/-! ## Key exchange -/

def noDraw : KexDraw := { cookie := .error .inval, ephemeral := .error .inval }

/-- Our offer, in a key exchange that the peer has started. The first one comes before. -/
def offerKeys (kexDone : Bool) (draw : KexDraw) : ServerM Unit := do
  if kexDone then
    let iServer ← ofExcept (kexinitBuild kexinitMax draw.cookie)
    modify fun s => { s with iServer }
    onConn (sendPacket iServer)
  else pure ()

/-- The public key of the peer, in the packet of `n` bytes. -/
def readEcdhInit (payload : List UInt8) : Except Err Bytes32 :=
  let r := (Rbuf.init payload).getByte.2
  match r.getString x25519Len with
  | (some (i, n), _) => if n ≠ x25519Len then .error .inval else .ok (Fields.bytesAt 32 payload i)
  | (none, _) => .error .inval

/-- The message that answers the public key of the peer. -/
def ecdhReply (hostBlob : List UInt8) (qServer : Bytes32) (sigBlob : List UInt8) :
    Except Err (List UInt8) :=
  (((((Wbuf.init 512).putByte msgKexEcdhReply).putString hostBlob).putString
    qServer.toList).putString sigBlob).finish

/-- The middle of `kex_exchange`: the packet with the public key is awaited and answered. The result is
the two keys. -/
def answerEcdh (S : Suite) (opts : ServerOpts) (draw : KexDraw) : ServerM (CipherKey × CipherKey) := do
  let n ← recvInKex
  let s ← get
  if s.msgType ≠ msgKexEcdhInit then throw .inval
  else
    let qClient ← ofExcept (readEcdhInit (s.payload.take n))
    let ephemeral ← ofExcept draw.ephemeral
    let secret ← ofExcept (S.x25519 ephemeral qClient)
    let qServer := S.x25519Public ephemeral
    let h := exchangeHash S
      { vClient := s.vClient, vServer := s.vServer, iClient := s.iClient, iServer := s.iServer
        kServer := s.hostBlob, qClient, qServer, secret }
    let sig ← ofExcept (S.ed25519Sign opts.hostSeed s.hostPub h.toList)
    let sigBlob ← ofExcept (signatureBlob 128 sig)
    let reply ← ofExcept (ecdhReply s.hostBlob qServer sigBlob)
    onConn (sendPacket reply)
    -- the session id is that of the first exchange
    modify fun s => { s with sessionId := if s.kexDone then s.sessionId else h }
    let s ← get
    pure (deriveKeys S secret h s.sessionId)

/-- What the server says after the first key exchange. A failure to send it is ignored. -/
def sendExtInfo : ServerM Unit :=
  match extInfoBuild 256 authAlgos with
  | .error _ => pure ()
  | .ok ext => do
    let _ ← attempt (onConn (sendPacket ext))
    pure ()

/-- The end of `kex_exchange`, once our own keys are in use. -/
def awaitNewkeys (c2s : CipherKey) : ServerM Unit := do
  let n ← recvInKex
  let s ← get
  if n ≠ 1 || s.msgType ≠ msgNewkeys then throw .inval
  else
    modify fun s => { s with
      inCipher.key := some c2s, rekeys := if s.kexDone then s.rekeys + 1 else s.rekeys
      kexDone := true }
    if s.kexDone then pure () else sendExtInfo

/-- The keys are taken into use, each in its direction. -/
def changeKeys (c2s s2c : CipherKey) : ServerM Unit := do
  onConn (sendPacket [msgNewkeys])
  modify fun s => { s with outCipher.key := some s2c }
  awaitNewkeys c2s

/-- The packet that was sent on a wrong guess is discarded. -/
def discardGuess (neg : Negotiated) : ServerM Unit := do
  if neg.firstKexPacketFollows && neg.guessWasWrong then
    let _ ← recvInKex
    pure ()
  else pure ()

/-- `kex_exchange`, without the flag. -/
def exchangeKeys (S : Suite) (opts : ServerOpts) : ServerM Unit := do
  let s ← get
  let draw := s.draws.headD noDraw
  modify fun s => { s with draws := s.draws.tail }
  offerKeys s.kexDone draw
  let s ← get
  let neg ← ofExcept (kexinitParse s.iClient)
  discardGuess neg
  let (c2s, s2c) ← answerEcdh S opts draw
  changeKeys c2s s2c

def kexExchange (S : Suite) (opts : ServerOpts) : ServerM Unit := do
  modify fun s => { s with inKex := true }
  ensuring (exchangeKeys S opts) fun s => { s with inKex := false }

def recvPacket (S : Suite) (opts : ServerOpts) : ServerM ℕ := recvWith (kexExchange S opts)

/-! ## Writing -/

/-- One turn of the loop of `tc_ssh_server_write`, with the data that is left. -/
def writeStep (S : Suite) (opts : ServerOpts) (data : List UInt8) :
    ServerM (List UInt8 ⊕ Unit) := do
  if data = [] then pure (.inr ())
  else
    let wrote ← onConn (writeSome data)
    if data.drop wrote = [] then pure (.inr ())
    else
      -- the window is shut: the next packet may extend it
      let n ← recvPacket S opts
      let s ← get
      if s.msgType = msgChannelWindowAdjust then
        onConn (noteAdjust n)
        pure (.inl (data.drop wrote))
      else if s.msgType = msgChannelClose then
        set { s with peerClosed := true }
        throw .closed
      else pure (.inl (data.drop wrote))

/-- `tc_ssh_server_write`, from outside the pump. -/
def write (S : Suite) (opts : ServerOpts) (data : List UInt8) : ServerM Unit := do
  let s ← get
  loop (writeStep S opts) .closed (s.arrivals.length + 1) data

/-! ## Reading -/

/-- An answer is sent, and a failure to send it is ignored. -/
def tryReply (accept : Bool) : ServerM Unit := do
  let s ← get
  match channelReplyBuild 32 s.ch.remoteId accept with
  | .error _ => pure ()
  | .ok msg => do
    let _ ← attempt (onConn (sendPacket msg))
    pure ()

/-- A request in a running session. Only a new size of the terminal means anything. -/
def noteRequest (n : ℕ) : ServerM Unit := do
  let s ← get
  match channelRequestParse s.ch (s.payload.take n) with
  | .error _ => pure ()
  | .ok req => do
    let accept := req.type = .windowChange && s.hasPty
    set (if accept then
        { s with
          pty := { req.pty with term := s.pty.term }, ptyGeneration := s.ptyGeneration + 1 }
      else s)
    if req.wantReply then tryReply accept else pure ()

/-- The packets that `tc_ssh_server_read` acts on. -/
def readDispatch (n : ℕ) : ServerM Unit := do
  let s ← get
  if s.msgType = msgChannelData then onConn (noteData n)
  else if s.msgType = msgChannelWindowAdjust then onConn (noteAdjust n)
  else if s.msgType = msgChannelEof then set { s with peerEof := true }
  else if s.msgType = msgChannelClose then
    set { s with peerClosed := true, peerEof := true, ch.closed := true }
    throw .done
  else if s.msgType = msgChannelRequest then noteRequest n
  else pure ()

/-- One turn of the loop of `tc_ssh_server_read`. -/
def readStep (S : Suite) (opts : ServerOpts) (_ : Unit) : ServerM (Unit ⊕ Unit) := do
  let s ← get
  if s.pendingLen ≠ 0 then pure (.inr ())
  else if s.peerEof then throw .done
  else
    let n ← recvPacket S opts
    readDispatch n
    pure (.inl ())

def read (S : Suite) (opts : ServerOpts) (cap : ℕ) : ServerM (List UInt8) := do
  let s ← get
  loop (readStep S opts) .closed (s.arrivals.length + 1) ()
  onConn (takePending cap)

def exit (status : ℕ) : ServerM Unit := do
  let s ← get
  let msg ← ofExcept (channelExitStatusBuild 64 s.ch status)
  onConn (sendPacket msg)

/-! ## The session -/

/-- Whether a global request wants an answer. -/
def globalWantsReply (payload : List UInt8) : Bool :=
  let r := (Rbuf.init payload).getByte.2
  let r := (r.getString sizeMax).2
  let (wantReply, r) := r.getBool
  r.ok && wantReply

/-- One turn of the first loop of `do_session`: the channel is opened. -/
def openStep (S : Suite) (opts : ServerOpts) (_ : Unit) : ServerM (Unit ⊕ Unit) := do
  let n ← recvPacket S opts
  let s ← get
  if s.msgType = msgGlobalRequest then
    -- refused, but answered
    if globalWantsReply (s.payload.take n) then onConn (sendPacket [msgRequestFailure]) else pure ()
    pure (.inl ())
  else if s.msgType ≠ msgChannelOpen then pure (.inl ())
  else
    let (ch, type) ← ofExcept (channelOpenParse s.ch 32 (s.payload.take n))
    if type ≠ ascii "session" || ch.isOpen then
      set { s with ch }
      let msg ← ofExcept (channelOpenFailureBuild 512 ch.remoteId openUnknownChannelType
        (ascii "only one session"))
      onConn (sendPacket msg)
      pure (.inl ())
    else
      set { s with ch := { ch with isOpen := true } }
      let msg ← ofExcept (channelConfirmBuild 512 ch)
      onConn (sendPacket msg)
      pure (.inr ())

/-- Whether a request is granted before the session has started. -/
def accepts (opts : ServerOpts) (req : ChannelRequest) : Bool :=
  match req.type with
  | .subsystem | .exec => req.arg.length < maxSubsystem && opts.onAccept req.type req.arg
  | .shell => opts.allowShell && opts.onAccept req.type []
  | .pty => opts.allowPty
  | .windowChange | .other => false

/-- One turn of the second loop of `do_session`: a request says what the channel is for. -/
def requestStep (S : Suite) (opts : ServerOpts) (_ : Unit) :
    ServerM (Unit ⊕ ChannelRequest) := do
  let n ← recvPacket S opts
  let s ← get
  if s.msgType ≠ msgChannelRequest then pure (.inl ())
  else
    let req ← ofExcept (channelRequestParse s.ch (s.payload.take n))
    let accept := accepts opts req
    set (if accept && req.type = .pty then
        { s with pty := req.pty, hasPty := true, ptyGeneration := s.ptyGeneration + 1 }
      else s)
    if req.wantReply then
      let msg ← ofExcept (channelReplyBuild 512 s.ch.remoteId accept)
      onConn (sendPacket msg)
    else pure ()
    -- a terminal is granted before the session starts
    if accept && req.type ≠ .pty then pure (.inr req) else pure (.inl ())

/-- The first loop of `do_session`. -/
def openChannel (S : Suite) (opts : ServerOpts) : ServerM Unit := do
  let s ← get
  loop (openStep S opts) .closed (s.arrivals.length + 1) ()

/-- The second loop of `do_session`. -/
def awaitRequest (S : Suite) (opts : ServerOpts) : ServerM Unit := do
  let s ← get
  let req ← loop (requestStep S opts) .closed (s.arrivals.length + 1) ()
  modify fun s => { s with ch.started := true, ch.subsystem := req.arg }

/-- `do_session`, up to the call of `on_start`. -/
def doSession (S : Suite) (opts : ServerOpts) : ServerM Unit := do
  openChannel S opts
  awaitRequest S opts

/-- A last message is sent, and a failure to send it is ignored. -/
def sendLast (built : Except Err (Channel × List UInt8)) : ServerM Unit :=
  match built with
  | .error _ => pure ()
  | .ok (ch, msg) => do
    modify fun s => { s with ch }
    let _ ← attempt (onConn (sendPacket msg))
    pure ()

/-- One turn of the loop of `tc_ssh_server_run` that waits for the peer to close the channel, with the
number of turns that are left. -/
def closeStep (S : Suite) (opts : ServerOpts) (turns : ℕ) : ServerM (ℕ ⊕ Unit) := do
  let s ← get
  if turns = 0 || !opts.waitForClose || s.peerClosed then pure (.inr ())
  else
    match ← attempt (recvPacket S opts) with
    | .error _ => pure (.inr ())
    | .ok _ => do
      let s ← get
      if s.msgType = msgChannelClose then
        set { s with peerClosed := true }
        pure (.inr ())
      else pure (.inl (turns - 1))

/-- The end of `tc_ssh_server_run`, after the application has returned. -/
def finish (S : Suite) (opts : ServerOpts) : ServerM Unit := do
  let s ← get
  sendLast (channelEofBuild 64 s.ch)
  let s ← get
  sendLast (channelCloseBuild 64 s.ch)
  loop (closeStep S opts) .closed 65 64

/-! ## Runs -/

/-- A server after its first key exchange, with no secrets in it. -/
def plain (c : Conn) : Server :=
  { toConn := c, vClient := [], vServer := [], iClient := [], iServer := []
    sessionId := .replicate _ 0, hostPub := .replicate _ 0, hostBlob := [], pty := {}
    hasPty := false, ptyGeneration := 0, peerClosed := false, inKex := false, kexDone := true
    rekeys := 0, draws := [], idles := [] }

def plainOpts : ServerOpts :=
  { hostSeed := .replicate _ 0, allowShell := true, allowPty := true, waitForClose := true
    onAccept := fun _ _ => true }

inductive Call
  | read (cap : ℕ)
  | write (data : List UInt8)
  | writeSome (data : List UInt8)
  | exit (status : ℕ)
  deriving DecidableEq

def call (S : Suite) (opts : ServerOpts) : Call → ServerM Unit
  | .read cap => do
    let _ ← read S opts cap
    pure ()
  | .write data => write S opts data
  | .writeSome data => do
    let _ ← onConn (Conn.writeSome data)
    pure ()
  | .exit status => exit status

def step (S : Suite) (opts : ServerOpts) (s : Server) (c : Call) : Server := after (call S opts c) s

end Server

end Ssh
