import Tailcat.Ssh.Client
import Tailcat.Ssh.Login

/-!
# The client up to its session

`src/ssh/client.c`, from the start of `tc_ssh_client_run`: the version lines, the key exchange, the
authentication and the opening of the channel. The calls of the application follow, as they are in
`Tailcat.Ssh.Client`.
-/

namespace Ssh

open Program Conn

structure Client extends Conn where
  vClient : List UInt8
  vServer : List UInt8
  iClient : List UInt8
  iServer : List UInt8
  sessionId : Bytes32
  hostKey : Bytes32

structure ClientOpts where
  user : Option (List UInt8)
  userSeed : Option Bytes32
  subsystem : Option (List UInt8)

abbrev DialM := EStateM Err Client

namespace Client

def onConn (x : ClientM α) : DialM α := zoom toConn (fun c s => { s with toConn := c }) x

/-! ## Key exchange -/

/-- `read_host_key` and `read_signature`: the bytes, tagged with the algorithm. -/
def readTagged (len : ℕ) (blob : List UInt8) : Option (Vector UInt8 len) :=
  let (named, r) := (Rbuf.init blob).getStringEq (ascii "ssh-ed25519")
  if !named then none
  else
    match r.getSlice len with
    | (none, _) => none
    | (some k, r) =>
      if k.length ≠ len || r.remaining ≠ 0 then none
      else if r.ok then some (Fields.bytesAt len k 0)
      else none

def readHostKey (blob : List UInt8) : Option Bytes32 := readTagged 32 blob

def readSignature (blob : List UInt8) : Option Signature := readTagged 64 blob

/-- What the client takes from the answer of the server. -/
structure EcdhReply where
  kServer : List UInt8
  qServer : Bytes32
  hostKey : Bytes32
  sig : Signature

def readEcdhReply (payload : List UInt8) : Except Err EcdhReply :=
  let r := (Rbuf.init payload).getByte.2
  let (kServer, r) := r.getSlice 4096
  let (qServer, r) := r.getSlice x25519Len
  let (sigblob, r) := r.getSlice 4096
  match kServer, qServer, sigblob with
  | some kServer, some qServer, some sigblob =>
    if qServer.length ≠ x25519Len || !r.ok then .error .inval
    else
      match readHostKey kServer, readSignature sigblob with
      | some hostKey, some sig => .ok { kServer, qServer := Fields.bytesAt 32 qServer 0, hostKey, sig }
      | _, _ => .error .inval
  | _, _, _ => .error .inval

def ecdhInit (qClient : Bytes32) : Except Err (List UInt8) :=
  (((Wbuf.init 64).putByte msgKexEcdhInit).putString qClient.toList).finish

/-- The start of `do_kex`: the offers are exchanged. -/
def exchangeOffers (draw : KexDraw) : DialM Unit := do
  let iClient ← ofExcept (kexinitBuild kexinitMax draw.cookie)
  modify fun c => { c with iClient }
  onConn (sendPacket iClient)
  let n ← onConn recvPacket
  let c ← get
  if c.msgType ≠ msgKexinit then throw .inval
  else if n > kexinitMax then throw .toomany
  else modify fun c => { c with iServer := c.payload.take n }

/-- Our public key is sent. The result is the private one. -/
def sendPublic (S : Suite) (draw : KexDraw) : DialM Bytes32 := do
  let c ← get
  let _ ← ofExcept (kexinitParse c.iServer)
  let ephemeral ← ofExcept draw.ephemeral
  let msg ← ofExcept (ecdhInit (S.x25519Public ephemeral))
  onConn (sendPacket msg)
  pure ephemeral

/-- The answer of the server is awaited and checked. The result is the two keys. -/
def receiveReply (V : Verifiers) (ephemeral : Bytes32) : DialM (CipherKey × CipherKey) := do
  let n ← onConn recvPacket
  let c ← get
  if c.msgType ≠ msgKexEcdhReply then throw .inval
  else
    let reply ← ofExcept (readEcdhReply (c.payload.take n))
    modify fun c => { c with hostKey := reply.hostKey }
    let secret ← ofExcept (V.x25519 ephemeral reply.qServer)
    let h := exchangeHash V.toSuite
      { vClient := c.vClient, vServer := c.vServer, iClient := c.iClient, iServer := c.iServer
        kServer := reply.kServer, qClient := V.x25519Public ephemeral, qServer := reply.qServer, secret }
    if !V.ed25519Verify reply.sig reply.hostKey h.toList then throw .inval
    else
      modify fun c => { c with sessionId := h }
      pure (deriveKeys V.toSuite secret h h)

/-- The end of `do_kex`: the keys are taken into use, each in its direction. -/
def changeKeys (c2s s2c : CipherKey) : DialM Unit := do
  onConn (sendPacket [msgNewkeys])
  modify fun c => { c with outCipher.key := some c2s }
  let n ← onConn recvPacket
  let c ← get
  if n ≠ 1 || c.msgType ≠ msgNewkeys then throw .inval
  else modify fun c => { c with inCipher.key := some s2c }

def doKex (V : Verifiers) (draw : KexDraw) : DialM Unit := do
  exchangeOffers draw
  let ephemeral ← sendPublic V.toSuite draw
  let (c2s, s2c) ← receiveReply V ephemeral
  changeKeys c2s s2c

/-! ## Authentication -/

def userName (opts : ClientOpts) : List UInt8 := opts.user.getD (ascii "tailcat")

/-- The message of `auth_none`. -/
def authNoneBuild (opts : ClientOpts) : Except Err (List UInt8) :=
  (((((Wbuf.init 256).putByte msgUserauthRequest).putString (userName opts)).putString
    (ascii "ssh-connection")).putString (ascii "none")).finish

/-- `auth_none`: whether the server was content with it. -/
def authNone (opts : ClientOpts) : DialM Bool := do
  let msg ← ofExcept (authNoneBuild opts)
  onConn (sendPacket msg)
  let _ ← onConn recvPacket
  let c ← get
  if c.msgType = msgUserauthSuccess then pure true
  else if c.msgType ≠ msgUserauthFailure then throw .inval
  else pure false

/-- What the client signs in `auth_publickey`. -/
def authBlobBuild (opts : ClientOpts) (sessionId : Bytes32) (keyblob : List UInt8) :
    Except Err (List UInt8) :=
  let w := ((Wbuf.init 512).putString sessionId.toList).putByte msgUserauthRequest
  let w := ((w.putString (userName opts)).putString (ascii "ssh-connection")).putString
    (ascii "publickey")
  (((w.putBool true).putString (ascii "ssh-ed25519")).putString keyblob).finish

/-- The message of `auth_publickey`. -/
def authPublickeyBuild (opts : ClientOpts) (keyblob sigblob : List UInt8) : Except Err (List UInt8) :=
  let w := ((Wbuf.init 768).putByte msgUserauthRequest).putString (userName opts)
  let w := ((w.putString (ascii "ssh-connection")).putString (ascii "publickey")).putBool true
  (((w.putString (ascii "ssh-ed25519")).putString keyblob).putString sigblob).finish

/-- `auth_publickey`: whether the server was content with it. -/
def authPublickey (V : Verifiers) (opts : ClientOpts) (seed : Bytes32) : DialM Bool := do
  let pub ← ofExcept (V.ed25519Public seed)
  let keyblob ← ofExcept (hostkeyBlob 51 pub)
  let c ← get
  let blob ← ofExcept (authBlobBuild opts c.sessionId keyblob)
  let sig ← ofExcept (V.ed25519Sign seed pub blob)
  let sigblob ← ofExcept (signatureBlob 83 sig)
  let msg ← ofExcept (authPublickeyBuild opts keyblob sigblob)
  onConn (sendPacket msg)
  let _ ← onConn recvPacket
  let c ← get
  pure (c.msgType = msgUserauthSuccess)

def doAuth (V : Verifiers) (opts : ClientOpts) : DialM Unit := do
  let msg ← ofExcept (((Wbuf.init 128).putByte msgServiceRequest).putString
    (ascii "ssh-userauth")).finish
  onConn (sendPacket msg)
  let _ ← onConn recvPacket
  let c ← get
  if c.msgType ≠ msgServiceAccept then throw .inval
  else
    let ok ← authNone opts
    if ok then pure ()
    else
      match opts.userSeed with
      | none => throw .unsupported
      | some seed => do
        let ok ← authPublickey V opts seed
        if ok then pure () else throw .unsupported

/-! ## The channel -/

/-- One turn of the first loop of `do_channel`: the channel is awaited. -/
def confirmStep (_ : Unit) : DialM (Unit ⊕ Unit) := do
  let n ← onConn recvPacket
  let c ← get
  if c.msgType = msgChannelOpenFailure then throw .unsupported
  else if c.msgType = msgChannelOpenConfirmation then
    let ch ← ofExcept (channelConfirmParse c.ch (c.payload.take n))
    set { c with ch }
    pure (.inr ())
  else pure (.inl ())

/-- One turn of the second loop of `do_channel`: the subsystem is awaited. -/
def startStep (_ : Unit) : DialM (Unit ⊕ Unit) := do
  let _ ← onConn recvPacket
  let c ← get
  if c.msgType = msgChannelSuccess then
    set { c with ch.started := true }
    pure (.inr ())
  else if c.msgType = msgChannelFailure then throw .unsupported
  else if c.msgType = msgChannelClose then throw .closed
  else pure (.inl ())

def doChannel (opts : ClientOpts) : DialM Unit := do
  let c ← get
  let msg ← ofExcept (channelOpenBuild 256 c.ch)
  onConn (sendPacket msg)
  let c ← get
  loop confirmStep .closed (c.arrivals.length + 1) ()
  let c ← get
  let msg ← ofExcept (channelSubsystemBuild 256 c.ch (opts.subsystem.getD (ascii "sftp")))
  onConn (sendPacket msg)
  let c ← get
  loop startStep .closed (c.arrivals.length + 1) ()

/-! ## Runs -/

/-- `tc_ssh_client_run`, up to the key exchange: the version lines. -/
def greet (g : Greeting) : DialM Unit := do
  let line ← ofExcept (versionBuild (versionMax + 1) (ascii "tailcatc_0.1"))
  ofExcept (g.written.mapError Subtype.val)
  let (vServer, _) ← ofExcept (readVersionLine g.ends (versionMax + 1) 64 g.bytes)
  ofExcept (versionCheck vServer)
  modify fun c => { c with vClient := line.take (line.length - 2), vServer }

/-- The state in which a client starts, for the given transport. -/
def start (arrivals : List Arrival) (outcomes : List Outcome) : Client :=
  { toConn := .init arrivals outcomes, vClient := [], vServer := [], iClient := [], iServer := []
    sessionId := .replicate _ 0, hostKey := .replicate _ 0 }

/-- The calls of the application. It may go on after a call that has failed. -/
def callAll : List Call → DialM Unit
  | [] => pure ()
  | a :: rest => do
    let _ ← attempt (onConn (call a))
    callAll rest

/-- A last message is sent, and a failure to send it is ignored. -/
def sendLast (said : Bool) (built : Except Err (Channel × List UInt8)) : DialM Unit :=
  if said then pure ()
  else
    match built with
    | .error _ => pure ()
    | .ok (ch, msg) => do
      modify fun c => { c with ch }
      let _ ← attempt (onConn (sendPacket msg))
      pure ()

/-- `tc_ssh_client_run`, up to the end of the key exchange. -/
def openKeys (V : Verifiers) (g : Greeting) (draw : KexDraw) : DialM Unit := do
  greet g
  doKex V draw

/-- `tc_ssh_client_run`, from the end of the key exchange on. -/
def rest (V : Verifiers) (opts : ClientOpts) (calls : List Call) : DialM Unit := do
  doAuth V opts
  doChannel opts
  callAll calls
  let c ← get
  sendLast c.ch.eofSent (channelEofBuild 64 c.ch)
  let c ← get
  sendLast c.ch.closed (channelCloseBuild 64 c.ch)

def clientRun (V : Verifiers) (opts : ClientOpts) (g : Greeting) (draw : KexDraw)
    (calls : List Call) : DialM Unit := do
  openKeys V g draw
  rest V opts calls

end Client

end Ssh
