import Tailcat.Basic
import Tailcat.Library.ByteOrder

/-!
# DERP frames

The functions of `src/derp/frame.c`: frame headers, and the payloads of the frames that are built
and read. The NaCl box is a parameter.

## Main results

* `frameHeaderDecode_encode`: what is decoded is what was encoded, up to the limit on the length.
-/

namespace Derp

open ByteOrder

/-- `TC_DERP_FRAME_HEADER_LEN`. -/
def frameHeaderLen : ℕ := 5
/-- `TC_DERP_KEY_LEN`. -/
def keyLen : ℕ := 32
/-- `TC_DERP_NONCE_LEN`. -/
def nonceLen : ℕ := 24
/-- `TC_BOX_TAG_LEN`. -/
def boxTagLen : ℕ := 16
/-- `TC_DERP_MAX_PACKET_SIZE`. -/
def maxPacketSize : ℕ := 64 * 1024
/-- `TC_DERP_MAX_INFO_LEN`. -/
def maxInfoLen : ℕ := 1024 * 1024
/-- `TC_DERP_MAX_FRAME_LEN`. -/
def maxFrameLen : ℕ := maxInfoLen + nonceLen

abbrev Key := Vector UInt8 keyLen

def magic : List UInt8 := ascii "DERP" ++ [0xf0, 0x9f, 0x94, 0x91]

/-- The key at index `i` of a byte string. -/
def keyAt (p : List UInt8) (i : ℕ) : Key := .ofFn fun j => p.getD (i + j) 0

/-! ## Frame types -/

/-- `tc_derp_frame_type`, and the types it does not name. -/
inductive FrameType
  | serverKey
  | clientInfo
  | serverInfo
  | sendPacket
  | recvPacket
  | keepAlive
  | notePreferred
  | peerGone
  | peerPresent
  | forwardPacket
  | watchConns
  | closePeer
  | ping
  | pong
  | health
  | restarting
  | unknown
  deriving DecidableEq, Repr

def FrameType.ofByte : UInt8 → FrameType
  | 0x01 => .serverKey
  | 0x02 => .clientInfo
  | 0x03 => .serverInfo
  | 0x04 => .sendPacket
  | 0x05 => .recvPacket
  | 0x06 => .keepAlive
  | 0x07 => .notePreferred
  | 0x08 => .peerGone
  | 0x09 => .peerPresent
  | 0x0a => .forwardPacket
  | 0x10 => .watchConns
  | 0x11 => .closePeer
  | 0x12 => .ping
  | 0x13 => .pong
  | 0x14 => .health
  | 0x15 => .restarting
  | _ => .unknown

/-- `TC_DERP_FRAME_CLIENT_INFO`. -/
def frameClientInfo : UInt8 := 0x02
/-- `TC_DERP_FRAME_SEND_PACKET`. -/
def frameSendPacket : UInt8 := 0x04
/-- `TC_DERP_FRAME_PONG`. -/
def framePong : UInt8 := 0x13

def frameName (type : UInt8) : String :=
  match FrameType.ofByte type with
  | .serverKey => "server-key"
  | .clientInfo => "client-info"
  | .serverInfo => "server-info"
  | .sendPacket => "send-packet"
  | .recvPacket => "recv-packet"
  | .keepAlive => "keep-alive"
  | .notePreferred => "note-preferred"
  | .peerGone => "peer-gone"
  | .peerPresent => "peer-present"
  | .forwardPacket => "forward-packet"
  | .watchConns => "watch-conns"
  | .closePeer => "close-peer"
  | .ping => "ping"
  | .pong => "pong"
  | .health => "health"
  | .restarting => "restarting"
  | .unknown => "unknown"

/-! ## Headers -/

def frameHeaderEncode (type : UInt8) (payloadLen : UInt32) : List UInt8 :=
  type :: writeBE32 payloadLen

/-- `tc_derp_frame_header_decode`: the length decides how much will be read, so it is bounded. -/
def frameHeaderDecode (hdr : List UInt8) : Except Err (UInt8 × ℕ) :=
  let n := (readBE32 hdr 1).toNat
  if n > maxFrameLen then .error .toomany else .ok (hdr.getD 0 0, n)

@[simp]
lemma length_frameHeaderEncode (type : UInt8) (n : UInt32) :
    (frameHeaderEncode type n).length = frameHeaderLen := rfl

/-- What is decoded is what was encoded. -/
theorem frameHeaderDecode_encode (type : UInt8) {n : ℕ} (hn : n ≤ maxFrameLen) :
    frameHeaderDecode (frameHeaderEncode type (UInt32.ofNat n)) = .ok (type, n) := by
  have hmax : maxFrameLen = 1048600 := rfl
  have hread : readBE32 (frameHeaderEncode type (UInt32.ofNat n)) 1 = UInt32.ofNat n := by
    have h := readBE32_append [type] (writeBE32 (UInt32.ofNat n)) 0
    rw [← List.append_nil (writeBE32 _), readBE32_writeBE32] at h
    exact h
  have hnat : (UInt32.ofNat n).toNat = n := by
    rw [UInt32.toNat_ofNat']
    omega
  rw [frameHeaderDecode, hread, hnat, if_neg (by omega)]
  rfl

/-! ## Payloads -/

/-- `tc_derp_parse_server_key`. A longer greeting is fine. -/
def parseServerKey (payload : List UInt8) : Except Err Key :=
  if payload.length < magic.length + keyLen then .error .trunc
  else if payload.take magic.length ≠ magic then .error .inval
  else .ok (keyAt payload magic.length)

/-- `tc_derp_build_send_packet`, with the size of the caller's buffer. -/
def buildSendPacket (cap : ℕ) (dstKey : Key) (pkt : List UInt8) : Except Err (List UInt8) :=
  if pkt.length > maxPacketSize then .error .toomany
  else if cap < keyLen + pkt.length then .error .nospace
  else .ok (dstKey.toList ++ pkt)

def parseRecvPacket (payload : List UInt8) : Except Err (Key × List UInt8) :=
  if payload.length < keyLen then .error .trunc
  else if payload.length - keyLen > maxPacketSize then .error .toomany
  else .ok (keyAt payload 0, payload.drop keyLen)

/-! ## The handshake -/

/-- `tc_box_seal` and `tc_box_open`, with the nonce, the text, the peer's public key and our
private key. -/
structure Box where
  boxSeal : List UInt8 → List UInt8 → Key → Key → Except Err (List UInt8)
  boxOpen : List UInt8 → List UInt8 → Key → Key → Except Err (List UInt8)

/-- `kInfo`, the client-info document. -/
def clientInfo : List UInt8 := ascii "\x7b\"version\":2,\"CanAckPings\":false\x7d"

/-- `tc_derp_build_client_info`, with the size of the caller's buffer and the result of drawing a
random nonce. -/
def buildClientInfo (box : Box) (cap : ℕ) (nonce : Except Err (List UInt8))
    (ourPublic ourPrivate serverKey : Key) : Except Err (List UInt8) :=
  if cap < keyLen + nonceLen + boxTagLen + clientInfo.length then .error .nospace
  else
    match nonce with
    | .error e => .error e
    | .ok nonce =>
      match box.boxSeal nonce clientInfo serverKey ourPrivate with
      | .error e => .error e
      | .ok sealed => .ok (ourPublic.toList ++ nonce ++ sealed)

/-- `tc_derp_open_server_info`, with the size of the caller's buffer. -/
def openServerInfo (box : Box) (cap : ℕ) (payload : List UInt8) (ourPrivate serverKey : Key) :
    Except Err (List UInt8) :=
  if payload.length < nonceLen + boxTagLen then .error .trunc
  else if payload.length > nonceLen + maxInfoLen then .error .toomany
  else if cap < payload.length - nonceLen - boxTagLen then .error .nospace
  else box.boxOpen (payload.take nonceLen) (payload.drop nonceLen) serverKey ourPrivate

end Derp
