import Tailcat.Ssh.Auth
import Tailcat.Ssh.Packet
import Tailcat.Ssh.Server

/-!
# The server up to its session

`src/ssh/server.c`, from the start of `tc_ssh_server_run`: the version lines, whose bytes are given apart
from the packets, the first key exchange, the authentication, and then the session. The field `invoked`
of a run is not in the source: it records the callbacks and what had been received before each. The
callback `on_accept` is recorded when the loop that waits for a request starts.
-/

namespace Ssh

open Program Conn

/-- `tc_ssh_server_opts`, as far as the authentication uses it. -/
structure AuthOpts where
  /-- The blobs of the authorized keys. -/
  authorized : List (List UInt8)
  anyKeyAuthenticates : Bool

/-- The transport while the version lines are exchanged. -/
structure Greeting where
  /-- The bytes that arrive. -/
  bytes : List UInt8
  /-- How reading fails after them. -/
  ends : IoErr
  /-- How our own line is written. -/
  written : Except IoErr Unit

namespace Server

/-! ## Key exchange -/

def receiveOffer : ServerM Unit := do
  let n ← recvInKex
  let s ← get
  if s.msgType ≠ msgKexinit then throw .inval
  else if n > kexinitMax then throw .toomany
  else modify fun s => { s with iClient := s.payload.take n }

/-- The part of `do_kex` in which the offers are exchanged. -/
def exchangeOffers (iServer : List UInt8) : ServerM Unit := do
  onConn (sendPacket iServer)
  receiveOffer

def doKex (S : Suite) (opts : ServerOpts) : ServerM Unit := do
  let s ← get
  let iServer ← ofExcept (kexinitBuild kexinitMax (s.draws.headD noDraw).cookie)
  modify fun s => { s with iServer, inKex := true }
  ensuring (exchangeOffers iServer) fun s => { s with inKex := false }
  kexExchange S opts

/-! ## Authentication -/

/-- The size of the buffer that `do_auth` builds its messages in. -/
def authBuf : ℕ := maxKeyblob + 128

def sendUnimplemented (seq : ℕ) : ServerM Unit := do
  let msg ← ofExcept (((Wbuf.init 8).putByte msgUnimplemented).putU32 seq).finish
  onConn (sendPacket msg)

/-- A message is sent, if it could be built. -/
def sendBuilt (built : Except Err (List UInt8)) : ServerM Unit := do
  let msg ← ofExcept built
  onConn (sendPacket msg)

/-- Whether the check of a request succeeds. If any key authenticates, the list is the key itself. -/
def checks (V : Verifiers) (auth : AuthOpts) (sessionId : Bytes32) (req : AuthRequest) : Bool :=
  (authCheck V req sessionId
    (if auth.anyKeyAuthenticates then [req.pubkey] else auth.authorized)).isOk

/-- What `do_auth` does with a request. It goes on with `.inl` and is done with `.inr`. -/
def answerRequest (V : Verifiers) (auth : AuthOpts) (req : AuthRequest) : ServerM (Unit ⊕ Unit) := do
  if req.method = .none then
    if auth.anyKeyAuthenticates then
      sendBuilt (authSuccessBuild authBuf)
      pure (.inr ())
    else
      sendBuilt (authFailureBuild authBuf)
      pure (.inl ())
  else if req.method = .publickey && !req.hasSignature then
    -- the client only asks whether the key would do
    sendBuilt (if auth.anyKeyAuthenticates || auth.authorized.contains req.pubkey then
        authPkOkBuild authBuf req.algo req.pubkey
      else authFailureBuild authBuf)
    pure (.inl ())
  else
    let s ← get
    if checks V auth s.sessionId req then
      sendBuilt (authSuccessBuild authBuf)
      pure (.inr ())
    else
      sendBuilt (authFailureBuild authBuf)
      pure (.inl ())

/-- One turn of the loop of `do_auth`. -/
def authStep (V : Verifiers) (opts : ServerOpts) (auth : AuthOpts) (_ : Unit) :
    ServerM (Unit ⊕ Unit) := do
  let n ← recvPacket V.toSuite opts
  let s ← get
  if s.msgType ≠ msgUserauthRequest then
    sendUnimplemented (s.inCipher.seq - 1)
    pure (.inl ())
  else
    let req ← ofExcept (authParse (s.payload.take n))
    answerRequest V auth req

/-- The start of `do_auth`: the client asks for the service. -/
def acceptService (S : Suite) (opts : ServerOpts) : ServerM Unit := do
  let n ← recvPacket S opts
  let s ← get
  if s.msgType ≠ msgServiceRequest then throw .inval
  else
    let service ← ofExcept (serviceRequestParse maxService (s.payload.take n))
    if service ≠ ascii "ssh-userauth" then throw .inval
    else sendBuilt (serviceAcceptBuild authBuf (ascii "ssh-userauth"))

def doAuth (V : Verifiers) (opts : ServerOpts) (auth : AuthOpts) : ServerM Unit := do
  acceptService V.toSuite opts
  loop (authStep V opts auth) .toomany 32 ()

/-! ## Runs -/

/-- `tc_ssh_server_run`, up to the key exchange: the host key and the version lines. -/
def greet (V : Verifiers) (opts : ServerOpts) (g : Greeting) : ServerM Unit := do
  let hostPub ← ofExcept (V.ed25519Public opts.hostSeed)
  let hostBlob ← ofExcept (hostkeyBlob 128 hostPub)
  let line ← ofExcept (versionBuild (versionMax + 1) (ascii "tailcatc_0.1"))
  ofExcept (g.written.mapError Subtype.val)
  let (vClient, _) ← ofExcept (readVersionLine g.ends (versionMax + 1) 64 g.bytes)
  ofExcept (versionCheck vClient)
  -- the end of line is not part of the version
  modify fun s => { s with hostPub, hostBlob, vServer := line.take (line.length - 2), vClient }

/-- The version lines and the first key exchange. -/
def openKeys (V : Verifiers) (opts : ServerOpts) (g : Greeting) : ServerM Unit := do
  greet V opts g
  doKex V.toSuite opts

/-- The state in which a server starts, for the given transport. -/
def start (arrivals : List Arrival) (outcomes : List Outcome) (draws : List KexDraw)
    (idles : List (List (List UInt8))) : Server :=
  { plain (.init arrivals outcomes) with kexDone := false, draws, idles }

/-- The calls of the application. It may go on after a call that has failed. -/
def callAll (S : Suite) (opts : ServerOpts) : List Call → ServerM Unit
  | [] => pure ()
  | c :: rest => do
    let _ ← attempt (call S opts c)
    callAll S opts rest

end Server

inductive Callback
  | onAccept
  | onStart
  deriving DecidableEq

/-- A callback was invoked after these packets. -/
structure Invocation where
  callback : Callback
  taken : List Taken

structure ServerRun extends Server where
  invoked : List Invocation

namespace ServerRun

def onServer (x : ServerM α) : EStateM Err ServerRun α :=
  zoom toServer (fun s r => { r with toServer := s }) x

def invoke (callback : Callback) : EStateM Err ServerRun Unit :=
  modify fun r => { r with invoked := r.invoked ++ [{ callback, taken := r.taken }] }

/-- What the application does in `on_start`: its calls, and the result it returns. -/
structure Application where
  calls : List Server.Call
  result : Except Err Unit

/-- `do_session`, and the end of `tc_ssh_server_run`. -/
def serve (S : Suite) (opts : ServerOpts) (app : Application) : EStateM Err ServerRun Unit := do
  onServer (Server.openChannel S opts)
  invoke .onAccept
  onServer (Server.awaitRequest S opts)
  invoke .onStart
  onServer (Server.callAll S opts app.calls)
  onServer (ofExcept app.result)
  onServer (Server.finish S opts)

def serverRun (V : Verifiers) (opts : ServerOpts) (auth : AuthOpts) (g : Greeting)
    (app : Application) : EStateM Err ServerRun Unit := do
  onServer (Server.openKeys V opts g)
  onServer (Server.doAuth V opts auth)
  serve V.toSuite opts app

end ServerRun

end Ssh
