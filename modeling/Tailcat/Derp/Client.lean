import Tailcat.Derp.Frame
import Tailcat.Net.Stream

/-!
# The DERP client

The functions of `src/derp/client.c`: framing over a stream, the HTTP upgrade, the key exchange,
dialling and redialling, and the steady-state calls. What the network, the random generator and the
clock answer to one dial is a `Dial`; closing a stream and setting its timeouts are left out.
-/

namespace Derp

open Net (Stream)

/-- `tc_derp_client`, and the thread's text of the last failure. -/
structure Client where
  stream : Stream
  serverKey : Key
  ourPublic : Key
  ourPrivate : Key
  connected : Bool
  redialHost : List UInt8
  redialAddr : List UInt8
  hasRedialAddr : Bool
  redialPort : UInt16
  redialInsecure : Bool
  redialTimeoutMs : ℤ
  lastRecvMs : ℕ
  restarting : Bool
  reconnects : ℕ
  /-- `g_err`. -/
  err : List UInt8

structure DialOpts where
  hostname : List UInt8
  dialAddr : Option (List UInt8)
  port : UInt16
  insecureSkipVerify : Bool
  timeoutMs : ℤ

/-- What happens outside the client during one dial. -/
structure Dial where
  /-- The result of `tc_net_tcp_connect`. -/
  tcp : Except Err Unit
  /-- The result of `tc_tls_client`: an error with its text, or the stream. -/
  tls : Except (Err × List UInt8) Stream
  /-- The result of `tc_random_bytes` for the nonce of the client-info box. -/
  nonce : Except Err (List UInt8)
  /-- The reading of the clock at the end. -/
  now : ℕ

/-- How a dial ended. `info` is there if it came to the client-info step: the private and the public
key that `tc_derp_build_client_info` was called with. -/
structure Dialled where
  client : Client
  rc : Except Err Unit
  info : Option (Key × Key)

/-- `%02x`. -/
def hex2 (b : UInt8) : List UInt8 :=
  let digit (n : UInt8) : UInt8 := if n < 10 then 48 + n else 87 + n
  [digit (b >>> 4), digit (b &&& 15)]

namespace Client

/-- `FAILF`: the text is cut to the size of its buffer. -/
def failf (c : Client) (text : List UInt8) : Client := { c with err := text.take 255 }

/-- `FAILF` if nothing has been reported yet. -/
def failfIfNone (c : Client) (text : List UInt8) : Client := if c.err = [] then c.failf text else c

/-! ## Framing -/

def writeFrame (c : Client) (type : UInt8) (payload : List UInt8) : Client × Except Err Unit :=
  if payload.length > maxFrameLen then (c, .error .toomany)
  else
    match c.stream.writeAll (frameHeaderEncode type (.ofNat payload.length)) with
    | (s, .error e) => ({ c with stream := s }, .error e)
    | (s, .ok ()) =>
      if payload.length = 0 then ({ c with stream := s }, .ok ())
      else
        let r := s.writeAll payload
        ({ c with stream := r.1 }, r.2)

/-- `read_frame`: the type and the payload of the next frame. A timeout of the second read is
returned like one of the first, although the header has been consumed by then. -/
def readFrame (c : Client) (cap : ℕ) : Client × Except Err (UInt8 × List UInt8) :=
  match c.stream.readFull frameHeaderLen with
  | (s, .error e) => ({ c with stream := s }, .error e)
  | (s, .ok hdr) =>
    let c := { c with stream := s }
    match frameHeaderDecode hdr with
    -- the length is not set when decoding fails
    | .error e => (c.failf (ascii "bad frame header (length 0)"), .error e)
    | .ok (type, n) =>
      if n > cap then
        (c.failf (ascii s!"frame of {n} bytes exceeds the {cap} byte buffer"), .error .toomany)
      else if n ≠ 0 then
        match c.stream.readFull n with
        | (s, .error e) => ({ c with stream := s }, .error e)
        | (s, .ok payload) => ({ c with stream := s }, .ok (type, payload))
      else (c, .ok (type, []))

/-! ## The HTTP upgrade -/

def matchCrlf (matched : ℕ) (byte : UInt8) : ℕ :=
  if byte = [13, 10, 13, 10].getD matched 0 then matched + 1 else if byte = 13 then 1 else 0

/-- The loop of `read_http_response`, with the room left in the buffer. One byte is read at a time:
frames begin right after the blank line. -/
def readHttpLoop (cap : ℕ) : ℕ → Client → List UInt8 → ℕ → Client × Except Err (List UInt8)
  | room, c, buf, matched =>
    if matched ≥ 4 then (c, .ok buf)
    else
      match room with
      | 0 => (c.failf (ascii s!"HTTP response header exceeded {cap} bytes"), .error .toomany)
      | room + 1 =>
        match c.stream.readFull 1 with
        | (s, .error e) =>
          ({ c with stream := s }.failf (ascii "connection closed during HTTP upgrade"), .error e)
        | (s, .ok bytes) =>
          let byte := bytes.getD 0 0
          readHttpLoop cap room { c with stream := s } (buf ++ [byte]) (matchCrlf matched byte)

def readHttpResponse (c : Client) (cap : ℕ) : Client × Except Err (List UInt8) :=
  readHttpLoop cap (cap - 1) c [] 0

/-- The request of `http_upgrade`. -/
def upgradeRequest (hostname : List UInt8) : List UInt8 :=
  ascii "GET /derp HTTP/1.1\r\nHost: " ++ hostname ++
    ascii "\r\nUpgrade: DERP\r\nConnection: Upgrade\r\nUser-Agent: tailcat-c/0.1\r\n\r\n"

def httpUpgrade (c : Client) (hostname : List UInt8) : Client × Except Err Unit :=
  let req := upgradeRequest hostname
  if req.length ≥ 512 then
    (c.failf (ascii "hostname too long for the upgrade request"), .error .nospace)
  else
    match c.stream.writeAll req with
    | (s, .error e) =>
      ({ c with stream := s }.failf (ascii "failed to send the HTTP upgrade request"), .error e)
    | (s, .ok ()) =>
      match { c with stream := s }.readHttpResponse 2048 with
      | (c, .error e) => (c, .error e)
      | (c, .ok resp) =>
        if resp.take 12 = ascii "HTTP/1.1 101" ∨ resp.take 12 = ascii "HTTP/1.0 101" then (c, .ok ())
        else
          let line := resp.takeWhile fun b => b != 0 && b != 13 && b != 10
          (c.failf (ascii "expected 101 Switching Protocols, got \"" ++ line.take 120 ++ ascii "\""),
            .error .inval)

/-! ## The key exchange -/

/-- The text for a frame of another type than the one expected. -/
def unexpected (expected : String) (type : UInt8) : List UInt8 :=
  ascii s!"expected {expected} frame, got " ++ ascii (frameName type) ++ ascii " (0x" ++ hex2 type ++
    ascii ")"

/-- `derp_handshake` from the point where client-info has been sent: opening the server-info box
proves that the relay holds the key that it greeted us with. -/
def serverInfoStep (box : Box) (c : Client) : Client × Except Err Unit :=
  match c.readFrame 4096 with
  | (c, .error e) => (c.failfIfNone (ascii "failed to read server-info"), .error e)
  | (c, .ok (type, buf)) =>
    if FrameType.ofByte type ≠ .serverInfo then
      (c.failf (unexpected "server-info" type), .error .inval)
    else
      match openServerInfo box 4096 buf c.ourPrivate c.serverKey with
      | .error e =>
        (c.failf (ascii "could not open the server-info box; " ++
          ascii "the relay did not prove it holds the advertised key"), .error e)
      | .ok _ => (c, .ok ())

/-- The client-info step of `derp_handshake`. -/
def clientInfoStep (box : Box) (c : Client) (nonce : Except Err (List UInt8)) :
    Client × Except Err Unit :=
  match buildClientInfo box 256 nonce c.ourPublic c.ourPrivate c.serverKey with
  | .error e => (c.failf (ascii "failed to build client-info"), .error e)
  | .ok info =>
    match c.writeFrame frameClientInfo info with
    | (c, .error e) => (c.failf (ascii "failed to send client-info"), .error e)
    | (c, .ok ()) => c.serverInfoStep box

def derpHandshake (box : Box) (c : Client) (nonce : Except Err (List UInt8)) : Dialled :=
  match c.readFrame 4096 with
  | (c, .error e) =>
    { client := c.failfIfNone (ascii "failed to read the server greeting"), rc := .error e
      info := none }
  | (c, .ok (type, buf)) =>
    if FrameType.ofByte type ≠ .serverKey then
      { client := c.failf (unexpected "server-key" type), rc := .error .inval, info := none }
    else
      match parseServerKey buf with
      | .error e =>
        { client := c.failf (ascii "malformed server greeting"), rc := .error e, info := none }
      | .ok serverKey =>
        let c := { c with serverKey }
        let r := c.clientInfoStep box nonce
        { client := r.1, rc := r.2, info := some (c.ourPrivate, c.ourPublic) }

/-! ## Dialling -/

/-- `tc_memzero_explicit` of the private key. -/
def wipe (c : Client) : Client := { c with ourPrivate := .replicate _ 0 }

/-- A client as `tc_derp_connect` sets it up before it dials: the keys, and enough to repeat the
dial. -/
def prepare (opts : DialOpts) (ourPrivate ourPublic : Key) : Client :=
  let addr := (opts.dialAddr.getD []).take 63
  { stream := { input := [], writes := [], output := [] }
    serverKey := .replicate _ 0, ourPublic, ourPrivate, connected := false
    redialHost := opts.hostname.take 255
    redialAddr := addr
    hasRedialAddr := addr ≠ []
    redialPort := if opts.port ≠ 0 then opts.port else 443
    redialInsecure := opts.insecureSkipVerify
    redialTimeoutMs := opts.timeoutMs
    lastRecvMs := 0, restarting := false, reconnects := 0, err := [] }

/-- `tc_derp_connect`. The previous contents of the client are overwritten. -/
def connect (box : Box) (opts : DialOpts) (ourPrivate ourPublic : Key) (d : Dial) : Dialled :=
  let c := prepare opts ourPrivate ourPublic
  let dial := if opts.dialAddr.getD [] ≠ [] then opts.dialAddr.getD [] else opts.hostname
  match d.tcp with
  | .error e =>
    { client := c.failf (ascii "could not connect to " ++ dial ++ ascii s!" port {c.redialPort}")
      rc := .error e, info := none }
  | .ok () =>
    match d.tls with
    | .error (e, text) =>
      { client := c.failf (ascii "TLS to " ++ opts.hostname ++ ascii " failed: " ++ text)
        rc := .error e, info := none }
    | .ok stream =>
      match { c with stream }.httpUpgrade opts.hostname with
      -- the label `fail` wipes the private key
      | (c, .error e) => { client := c.wipe, rc := .error e, info := none }
      | (c, .ok ()) =>
        match c.derpHandshake box d.nonce with
        | { client, rc := .error e, info } => { client := client.wipe, rc := .error e, info }
        | { client, rc := .ok (), info } =>
          { client := { client with connected := true, lastRecvMs := d.now }, rc := .ok (), info }

/-- `tc_derp_reconnect`. The keys are copied out of the client before `tc_derp_close`, which wipes
the private one, and `tc_derp_connect`, which overwrites everything. -/
def reconnect (box : Box) (c : Client) (d : Dial) : Dialled :=
  if c.redialHost = [] then { client := c, rc := .error .inval, info := none }
  else
    let opts : DialOpts :=
      { hostname := c.redialHost
        dialAddr := if c.hasRedialAddr then some c.redialAddr else none
        port := c.redialPort
        insecureSkipVerify := c.redialInsecure
        timeoutMs := c.redialTimeoutMs }
    match connect box opts c.ourPrivate c.ourPublic d with
    | { client, rc := .ok (), info } =>
      { client := { client with reconnects := c.reconnects + 1 }, rc := .ok (), info }
    | failed => failed

/-! ## Packets -/

def send (c : Client) (dstKey : Key) (pkt : List UInt8) : Client × Except Err Unit :=
  if c.connected = false then (c, .error .inval)
  else if c.restarting then (c, .error .closed)
  else
    match buildSendPacket (keyLen + maxPacketSize) dstKey pkt with
    | .error e => (c, .error e)
    | .ok payload => c.writeFrame frameSendPacket payload

/-- What a packet frame gives the caller of `tc_derp_recv`, whose buffer has `cap` bytes. -/
def deliver (c : Client) (cap : ℕ) (frame : List UInt8) : Client × Except Err (Key × List UInt8) :=
  match parseRecvPacket frame with
  | .error e => (c.failf (ascii "malformed recv-packet frame"), .error e)
  | .ok (src, body) =>
    if body.length > cap then
      (c.failf (ascii s!"relayed packet of {body.length} bytes exceeds the {cap} byte buffer"),
        .error .nospace)
    else (c, .ok (src, body))

/-- The loop of `tc_derp_recv`: frames that are not packets are handled and skipped. Each round
consumes at least a header, so one round more than there are bytes is enough. -/
def recvLoop (cap now : ℕ) : ℕ → Client → Client × Except Err (Key × List UInt8)
  | 0, c => (c, .error .again)
  | fuel + 1, c =>
    match c.readFrame (keyLen + maxPacketSize) with
    -- the end of the stream: the relay hung up
    | (c, .error .trunc) => (c, .error .closed)
    | (c, .error e) => (c, .error e)
    | (c, .ok (type, frame)) =>
      let c := { c with lastRecvMs := now }
      match FrameType.ofByte type with
      | .recvPacket => c.deliver cap frame
      | .ping =>
        match c.writeFrame framePong frame with
        | (c, .error e) => (c, .error e)
        | (c, .ok ()) => recvLoop cap now fuel c
      | .restarting =>
        ({ c with restarting := true }.failf (ascii "the relay is restarting"), .error .closed)
      | _ => recvLoop cap now fuel c

/-- `tc_derp_recv`, with the size of the caller's buffer and the reading of the clock at the last
frame. -/
def recv (c : Client) (cap now : ℕ) : Client × Except Err (Key × List UInt8) :=
  if c.connected = false then (c, .error .inval)
  else if c.restarting then (c, .error .closed)
  else recvLoop cap now ((Chunk.contents c.stream.input).length + 1) c

end Client

end Derp
