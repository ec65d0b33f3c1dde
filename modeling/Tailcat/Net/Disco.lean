import Tailcat.Basic
import Tailcat.Net.Endpoint

/-!
# Disco messages

`src/net/disco.c`: the messages that two peers find a direct path with, and the packets they travel in.
A packet is sealed to the receiver's disco key; the box is a parameter.
-/

namespace Net

open ByteOrder Fields

/-- `TC_DISCO_TXID_LEN`. -/
def txidLen : ℕ := 12
/-- `TC_DISCO_MAGIC_LEN`. -/
def discoMagicLen : ℕ := 6
/-- `TC_DISCO_NONCE_LEN`. -/
def discoNonceLen : ℕ := 24
/-- `TC_DISCO_HEADER_LEN`. -/
def discoHeaderLen : ℕ := discoMagicLen + 32 + discoNonceLen
/-- `TC_DISCO_MAX_ENDPOINTS`. -/
def discoMaxEndpoints : ℕ := 16
/-- `TC_DISCO_MAX_PAYLOAD`. -/
def discoMaxPayload : ℕ := 2 + discoMaxEndpoints * 18 + 512
/-- `TC_BOX_TAG_LEN`. -/
def boxTagLen : ℕ := 16

abbrev Txid := Vector UInt8 txidLen
/-- A disco key, public or private. -/
abbrev DiscoKey := Vector UInt8 32
/-- The nonce of a packet. -/
abbrev DiscoNonce := Vector UInt8 discoNonceLen

inductive DiscoMsg
  | ping (txid : Txid) (nodeKey : Option DiscoKey) (padding : ℕ)
  | pong (txid : Txid) (src : Endpoint)
  | callMeMaybe (eps : List Endpoint)
  deriving DecidableEq

/-- The box of `include/tc/crypto.h`: the nonce, the text, the other side's public key and the own
private key. -/
structure Box where
  /-- `tc_box_seal`. -/
  boxSeal : List UInt8 → List UInt8 → DiscoKey → DiscoKey → Except Err (List UInt8)
  /-- `tc_box_open`. -/
  boxOpen : List UInt8 → List UInt8 → DiscoKey → DiscoKey → Except Err (List UInt8)

namespace Disco

def magic : List UInt8 := [0x54, 0x53, 0xf0, 0x9f, 0x92, 0xac]

def looksLike (pkt : List UInt8) : Bool := discoHeaderLen ≤ pkt.length && pkt.take discoMagicLen = magic

def writeEndpoint (ep : Endpoint) : List UInt8 := ep.to16 ++ writeBE16 ep.port

/-- The endpoint at index `i` of a message. -/
def readEndpoint (p : List UInt8) (i : ℕ) : Endpoint := .from16 p i (readBE16 p (i + 16))

/-- `build_payload`, with the size of the buffer. -/
def buildPayload (cap : ℕ) (msg : DiscoMsg) : Except Err (List UInt8) :=
  if cap < 2 then .error .nospace
  else
    match msg with
    | .ping txid nodeKey padding =>
      let text := [1, 0] ++ txid.toList ++ (nodeKey.map Vector.toList).getD []
      if text.length + padding > cap then .error .nospace else .ok (text ++ List.replicate padding 0)
    | .pong txid src =>
      let text := [2, 0] ++ txid.toList ++ writeEndpoint src
      if text.length > cap then .error .nospace else .ok text
    | .callMeMaybe eps =>
      if eps.length > discoMaxEndpoints then .error .toomany
      else
        let text := [3, 0] ++ eps.flatMap writeEndpoint
        if text.length > cap then .error .nospace else .ok text

def parsePayload (p : List UInt8) : Except Err DiscoMsg :=
  if p.length < 2 then .error .inval
  else
    let version := p.getD 1 0
    let body := p.drop 2
    match p.getD 0 0 with
    | 1 =>
      if body.length < txidLen then .error .inval
      else
        let rest := body.length - txidLen
        let key : DiscoKey := bytesAt 32 body txidLen
        -- a key of zeros is padding
        if rest ≥ 32 && !key.toList.all (· = 0) then
          .ok (.ping (bytesAt txidLen body 0) (some key) (rest - 32))
        else .ok (.ping (bytesAt txidLen body 0) none rest)
    | 2 =>
      if body.length < txidLen + 16 + 2 then .error .inval
      else .ok (.pong (bytesAt txidLen body 0) (readEndpoint body txidLen))
    | 3 =>
      -- what a newer peer may send counts as a message without endpoints
      if version ≠ 0 || body.length = 0 || body.length % 18 ≠ 0 then .ok (.callMeMaybe [])
      else
        let n := min (body.length / 18) discoMaxEndpoints
        .ok (.callMeMaybe ((List.range n).map fun i => readEndpoint body (i * 18)))
    | _ => .error .unsupported

variable (B : Box)

/-- `tc_disco_seal`, with the nonce that was drawn and the size of the buffer. -/
def sealMsg (cap : ℕ) (msg : DiscoMsg) (nonce : Option DiscoNonce) (ourPub ourPriv peerPub : DiscoKey) :
    Except Err (List UInt8) :=
  match buildPayload discoMaxPayload msg with
  | .error e => .error e
  | .ok payload =>
    if cap < discoHeaderLen + payload.length + boxTagLen then .error .nospace
    else
      match nonce with
      | none => .error .inval
      | some nonce =>
        match B.boxSeal nonce.toList payload peerPub ourPriv with
        | .error e => .error e
        | .ok sealed => .ok (magic ++ ourPub.toList ++ nonce.toList ++ sealed)

/-- `tc_disco_open`. -/
def openMsg (pkt : List UInt8) (ourPriv peerPub : DiscoKey) : Except Err DiscoMsg :=
  if looksLike pkt = false then .error .inval
  -- the sender must be who we expect, not who the packet says it is
  else if (bytesAt 32 pkt discoMagicLen : DiscoKey) ≠ peerPub then .error .inval
  else
    let sealed := pkt.drop discoHeaderLen
    if sealed.length < boxTagLen then .error .inval
    else if sealed.length - boxTagLen > discoMaxPayload then .error .toomany
    else
      match B.boxOpen (slice pkt (discoMagicLen + 32) discoNonceLen) sealed peerPub ourPriv with
      | .error _ => .error .inval
      | .ok payload => parsePayload payload

lemma looksLike_of_openMsg {B : Box} {pkt : List UInt8} {ourPriv peerPub : DiscoKey}
    {msg : DiscoMsg} (h : openMsg B pkt ourPriv peerPub = .ok msg) : looksLike pkt = true := by
  by_contra hnot
  rw [openMsg, if_pos (Bool.eq_false_iff.mpr hnot)] at h
  cases h

end Disco

/-- A box that hides nothing: its tag is zeros. -/
def plainBox : Box where
  boxSeal _ text _ _ := .ok (text ++ List.replicate boxTagLen 0)
  boxOpen _ sealed _ _ := .ok (sealed.take (sealed.length - boxTagLen))

end Net
