import Tailcat.Library.Program
import Tailcat.Ssh.Channel
import Tailcat.Ssh.Kex

/-!
# Packets

What `src/ssh/server.c` and `src/ssh/client.c` have in common: one packet in flight each way, the
channel, and the received data that was not yet read, which is a part of the packet buffer.

An arrival is the decrypted region of a packet (the length of the padding, the payload and the padding),
or the error with which reading it failed. When nothing more arrives the peer has hung up. The fields
`taken`, `outbox`, `delivered` and `sendFailed` are not in the source: they record what was received and
sent, what the application has read, and whether a transmission has failed. The loop in which data is
sent in pieces ends when the sequence numbers run out at the latest.
-/

namespace Ssh

open Program

/-- `TC_SSH_MIN_PADDING`. -/
def minPadding : ℕ := 4
/-- `TC_SSH_BLOCK`. -/
def block : ℕ := 8
/-- `UINT32_MAX`. -/
def uint32Max : ℕ := 2 ^ 32 - 1

/-- An error of the transport. It does not say that the data of the channel is at its end. -/
abbrev IoErr := { e : Err // e ≠ .done }

lemma closed_ne_done : Err.closed ≠ .done := by decide

inductive Arrival
  /-- The region of a packet, decrypted. -/
  | region (bytes : List UInt8)
  /-- Reading or authenticating a packet failed. -/
  | failure (e : IoErr)
  deriving DecidableEq

def paddingFor (payloadLen : ℕ) (encrypted : Bool) : ℕ :=
  let base := if encrypted then 1 + payloadLen else 4 + 1 + payloadLen
  let pad := block - base % block
  if pad < minPadding then pad + block else pad

/-- The region that `tc_ssh_packet_encode` makes of a payload, with zeros for the random padding. -/
def Arrival.packet (encrypted : Bool) (payload : List UInt8) : Arrival :=
  let pad := paddingFor payload.length encrypted
  .region (.ofNat pad :: payload ++ List.replicate pad 0)

/-- How the transmission of a packet ends. -/
inductive Outcome
  | sent
  /-- The packet could not be made. -/
  | noEncode (e : IoErr)
  /-- The packet could not be written. -/
  | noWrite (e : IoErr)
  deriving DecidableEq

/-- `tc_ssh_cipher`, with the key if there is one. -/
structure Cipher where
  key : Option CipherKey
  seq : ℕ
  deriving DecidableEq

structure Taken where
  payload : List UInt8
  /-- A key exchange was running. -/
  inKex : Bool
  /-- The channel was open. -/
  channelOpen : Bool
  deriving DecidableEq

/-- The fields that `tc_ssh_server` and `tc_ssh_client` share. -/
structure Conn where
  inCipher : Cipher
  outCipher : Cipher
  ch : Channel
  /-- The packet buffer, as far as it was ever written. -/
  payload : List UInt8
  /-- Where the unread data starts in the packet buffer. -/
  pending : ℕ
  pendingLen : ℕ
  peerEof : Bool
  arrivals : List Arrival
  outcomes : List Outcome
  taken : List Taken
  outbox : List (List UInt8)
  delivered : List UInt8
  sendFailed : Bool
  deriving DecidableEq

namespace Conn

/-- A connection with nothing received or sent, for the given transport. -/
def init (arrivals : List Arrival) (outcomes : List Outcome) : Conn :=
  { inCipher := { key := none, seq := 0 }, outCipher := { key := none, seq := 0 }, ch := channelInit
    payload := [], pending := 0, pendingLen := 0, peerEof := false, arrivals, outcomes, taken := []
    outbox := [], delivered := [], sendFailed := false }

def pendingData (c : Conn) : List UInt8 := Fields.slice c.payload c.pending c.pendingLen

def msgType (c : Conn) : UInt8 := c.payload.getD 0 0

/-! ## Sending -/

def failSend (e : Err) : EStateM Err Conn Unit := do
  modify fun c => { c with sendFailed := true }
  throw e

def sendPacket (msg : List UInt8) : EStateM Err Conn Unit := do
  let c ← get
  if c.outCipher.seq = uint32Max then failSend .toomany
  else if msg.length > maxPayload then failSend .toomany
  else
    set { c with outcomes := c.outcomes.tail }
    match c.outcomes.head?.getD .sent with
    | .noEncode e => failSend e.1
    | .noWrite e =>
      modify fun c => { c with outCipher.seq := c.outCipher.seq + 1 }
      failSend e.1
    | .sent =>
      modify fun c => { c with outCipher.seq := c.outCipher.seq + 1, outbox := c.outbox ++ [msg] }

/-! ## Receiving -/

/-- The rest of `tc_ssh_packet_decode`, for a region that was decrypted: the length of the payload. The
payload moves over the length of the padding, and what was behind it in the buffer stays. -/
def decodeRegion (inKex : Bool) (region : List UInt8) : EStateM Err Conn ℕ := do
  modify fun c => { c with payload := region ++ c.payload.drop region.length }
  let pad := (region.getD 0 0).toNat
  if pad < minPadding || pad + 1 > region.length then throw .inval
  else
    let payloadLen := region.length - 1 - pad
    let payload := Fields.slice region 1 payloadLen
    modify fun c => { c with
      payload := payload ++ c.payload.drop payloadLen, inCipher.seq := c.inCipher.seq + 1
      taken := c.taken ++ [{ payload, inKex, channelOpen := c.ch.isOpen }] }
    pure payloadLen

/-- `tc_ssh_packet_decode_length`, for the length of a region. -/
def regionLength (encrypted : Bool) (region : ℕ) : Except Err Unit :=
  if (region + if encrypted then 0 else 4) % block ≠ 0 then .error .inval
  else if region < 1 + minPadding then .error .inval
  else if region > 1 + maxPayload + block * 2 then .error .toomany
  else .ok ()

/-- The part of `recv_packet` that reads one packet: the length of the payload. -/
def readPacket (inKex : Bool) : EStateM Err Conn ℕ := do
  let c ← get
  set { c with arrivals := c.arrivals.tail }
  match c.arrivals with
  | [] => throw .closed
  | .failure e :: _ => throw e.1
  | .region region :: _ =>
    ofExcept (regionLength c.inCipher.key.isSome region.length)
    let n ← decodeRegion inKex region
    -- every packet names a message
    if n = 0 then throw .inval else pure n

/-! ## Sending data -/

/-- How much of `len` bytes goes into the next packet. The limit is a difference of unsigned numbers. -/
def chunkSize (ch : Channel) (len : ℕ) : ℕ :=
  let chunk := min len ch.remoteWindow
  let limit := (ch.remoteMaxPacket + 2 ^ 32 - channelDataOverhead) % 2 ^ 32
  if chunk > limit then limit else chunk

def sendData (data : List UInt8) : EStateM Err Conn Unit := do
  let c ← get
  let (ch, msg) ← ofExcept (channelDataBuild maxPayload c.ch data)
  set { c with ch }
  sendPacket msg

/-- One iteration of the loops that send data: how many bytes went into the packet. -/
def sendChunk (data : List UInt8) : EStateM Err Conn ℕ := do
  let c ← get
  let n := chunkSize c.ch data.length
  sendData (data.take n)
  pure n

/-- One turn of the loop of `tc_ssh_server_write_some`, with the data that is left and the count. -/
def writeSomeStep (v : List UInt8 × ℕ) : EStateM Err Conn ((List UInt8 × ℕ) ⊕ ℕ) := do
  let c ← get
  if v.1 = [] || c.ch.remoteWindow = 0 then pure (.inr v.2)
  else
    let n ← sendChunk v.1
    pure (.inl (v.1.drop n, v.2 + n))

/-- `tc_ssh_server_write_some`: how much was sent. -/
def writeSome (data : List UInt8) : EStateM Err Conn ℕ := do
  let c ← get
  loop writeSomeStep .toomany (uint32Max - c.outCipher.seq + 1) (data, 0)

/-! ## Reading data -/

/-- Our window is extended, if it has fallen far enough. -/
def replenish : EStateM Err Conn Unit := do
  let c ← get
  match channelWindowNeeded c.ch with
  | some inc =>
    let (ch, msg) ← ofExcept (channelWindowAdjustBuild 32 c.ch inc)
    set { c with ch }
    sendPacket msg
  | none => pure ()

/-- The received data is handed out: at most `cap` bytes of it, after our window was extended. -/
def takePending (cap : ℕ) : EStateM Err Conn (List UInt8) := do
  replenish
  let c ← get
  let n := min c.pendingLen cap
  let bytes := c.pendingData.take n
  set { c with
    pending := c.pending + n, pendingLen := c.pendingLen - n, delivered := c.delivered ++ bytes }
  pure bytes

/-- A packet of data becomes the unread data. -/
def noteData (n : ℕ) : EStateM Err Conn Unit := do
  modify fun c => { c with pendingLen := 0 }
  let c ← get
  let (ch, pending, pendingLen) ← ofExcept (channelDataParse c.ch (c.payload.take n))
  set { c with ch, pending, pendingLen }

def noteAdjust (n : ℕ) : EStateM Err Conn Unit := do
  let c ← get
  let ch ← ofExcept (channelWindowAdjustParse c.ch (c.payload.take n))
  set { c with ch }

end Conn

end Ssh
