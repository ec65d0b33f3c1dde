import Tailcat.Library.Fields
import Tailcat.Wg.Crypto

/-!
# The Noise handshake

The functions of `src/wg/noise.c` that build and read handshake messages: initiation, response and
cookie reply. A function that changes a handshake returns it next to its result, also when it fails:
the source writes some fields before it finds out.
-/

namespace Wg

open ByteOrder Fields

/-! ## Messages -/

/-- `TC_WG_MSG_INITIATION`. -/
def msgInitiation : UInt32 := 1
/-- `TC_WG_MSG_RESPONSE`. -/
def msgResponse : UInt32 := 2
/-- `TC_WG_MSG_COOKIE_REPLY`. -/
def msgCookieReply : UInt32 := 3
/-- `TC_WG_MSG_TRANSPORT`. -/
def msgTransport : UInt32 := 4

/-- `TC_WG_INITIATION_SIZE`. -/
def initiationSize : ℕ := 148
/-- `TC_WG_RESPONSE_SIZE`. -/
def responseSize : ℕ := 92
/-- `TC_WG_COOKIE_REPLY_SIZE`. -/
def cookieReplySize : ℕ := 64

structure Identity where
  privateKey : Key
  publicKey : Key
  deriving DecidableEq

inductive HsState
  | zeroed
  | initiationCreated
  | initiationConsumed
  | responseCreated
  | responseConsumed
  deriving DecidableEq, Repr

structure Handshake where
  remoteStatic : Key
  hasRemoteStatic : Bool
  presharedKey : Key
  /-- The shared secret of the two static keys, cached. -/
  precomputedSs : Key
  hasPrecomputedSs : Bool
  hash : Key
  chainKey : Key
  localEphemeral : Key
  remoteEphemeral : Key
  localIndex : UInt32
  remoteIndex : UInt32
  state : HsState
  deriving DecidableEq

/-- A handshake that `memset` has cleared. -/
def Handshake.zero : Handshake :=
  { remoteStatic := zeroKey, hasRemoteStatic := false, presharedKey := zeroKey
    precomputedSs := zeroKey, hasPrecomputedSs := false, hash := zeroKey, chainKey := zeroKey
    localEphemeral := zeroKey, remoteEphemeral := zeroKey, localIndex := 0, remoteIndex := 0
    state := .zeroed }

namespace Crypto

variable (C : Crypto)

/-! ## Hashes and MACs -/

def mixHash (h : Key) (data : List UInt8) : Key := C.blake2s (h.toList ++ data)

def mixKey (c : Key) (data : List UInt8) : Key := C.kdf1 c data

/-- The chaining key of `initial_state`. -/
def initialChainKey : Key := C.blake2s (ascii "Noise_IKpsk2_25519_ChaChaPoly_BLAKE2s")

/-- The hash of `initial_state`. -/
def initialHash : Key := C.mixHash C.initialChainKey (ascii "WireGuard v1 zx2c4 Jason@zx2c4.com")

def mac1Key (publicKey : Key) : Key := C.blake2s (ascii "mac1----" ++ publicKey.toList)

/-- `add_macs`, on a message without its two last fields; `mac2` is left zero. -/
def addMacs (body : List UInt8) (key : Key) : List UInt8 :=
  body ++ (C.mac key.toList body).toList ++ zeroMac.toList

/-- `check_mac1`, on a message of length `len`. -/
def checkMac1 (msg : List UInt8) (len : ℕ) (key : Key) : Bool :=
  let mac1Off := len - macLen - macLen
  C.mac key.toList (msg.take mac1Off) = bytesAt macLen msg mac1Off

/-! ## Cookies -/

def cookieKey (publicKey : Key) : Key := C.blake2s (ascii "cookie--" ++ publicKey.toList)

def computeCookie (secret : Key) (srcId : List UInt8) : Mac := C.mac secret.toList srcId

def addMac2 (msg : List UInt8) (cookie : Mac) : List UInt8 :=
  if msg.length < 2 * macLen then msg
  else
    let rest := msg.take (msg.length - macLen)
    rest ++ (C.mac cookie.toList rest).toList

def checkMac2 (msg : List UInt8) (secret : Key) (srcId : List UInt8) : Bool :=
  if msg.length < 2 * macLen then false
  else
    let mac2Off := msg.length - macLen
    C.mac (C.computeCookie secret srcId).toList (msg.take mac2Off) = bytesAt macLen msg mac2Off

def createCookieReply (msg : List UInt8) (ourPublic secret : Key) (srcId : List UInt8) (d : Draw) :
    Except Err (List UInt8) :=
  if msg.length < 8 + 2 * macLen then .error .inval
  else
    match d.nonce with
    | .error _ => .error .inval
    | .ok nonce =>
      let mac1 := slice msg (msg.length - macLen - macLen) macLen
      match C.xaeadSeal (C.cookieKey ourPublic) nonce.toList mac1
          (C.computeCookie secret srcId).toList with
      | .error e => .error e
      -- the receiver index is the sender index of the message that is answered
      | .ok sealed =>
        .ok (writeLE32 msgCookieReply ++ slice msg 4 4 ++ nonce.toList ++ sealed)

def consumeCookieReply (msg : List UInt8) (peerPublic : Key) (sentMac1 : Mac) : Except Err Mac :=
  -- only the first byte of the type is looked at
  if msg.getD 0 0 ≠ 3 then .error .inval
  else
    match C.xaeadOpen (C.cookieKey peerPublic) (slice msg 8 cookieNonceLen) sentMac1.toList
        (slice msg (8 + cookieNonceLen) (cookieLen + tagLen)) with
    | .error e => .error e
    | .ok cookie => .ok (bytesAt cookieLen cookie 0)

/-! ## The handshake -/

def handshakeInit (id : Identity) (remoteStatic psk : Option Key) : Handshake × Except Err Unit :=
  let hs := { Handshake.zero with presharedKey := psk.getD zeroKey }
  match remoteStatic with
  | none => (hs, .ok ())
  | some remote =>
    match C.x25519 id.privateKey remote with
    -- a small-order peer key: the peer is unusable
    | .error e => (.zero, .error e)
    | .ok ss =>
      ({ hs with
          remoteStatic := remote, hasRemoteStatic := true
          precomputedSs := ss, hasPrecomputedSs := true }, .ok ())

def drawIndex (localIndex : UInt32) (d : Draw) : Except Err UInt32 :=
  if localIndex = 0 then d.index else .ok localIndex

/-- The fields of an initiation before its MACs. -/
def initiationBody (sender : UInt32) (ephemeral : Key) (static timestamp : List UInt8) :
    List UInt8 :=
  writeLE32 msgInitiation ++ writeLE32 sender ++ ephemeral.toList ++ static ++ timestamp

def responseBody (sender receiver : UInt32) (ephemeral : Key) (empty : List UInt8) : List UInt8 :=
  writeLE32 msgResponse ++ writeLE32 sender ++ writeLE32 receiver ++ ephemeral.toList ++ empty

def createInitiation (hs : Handshake) (id : Identity) (localIndex : UInt32) (d : Draw) :
    Handshake × Except Err (List UInt8) :=
  if !hs.hasRemoteStatic || !hs.hasPrecomputedSs then (hs, .error .inval)
  else
    -- the responder's identity is folded in first
    let hs := { hs with
      chainKey := C.initialChainKey, hash := C.mixHash C.initialHash hs.remoteStatic.toList }
    match C.x25519Keypair d with
    | .error e => ({ hs with localEphemeral := zeroKey }, .error e)
    | .ok (ephPriv, ephPub) =>
      let hs := { hs with localEphemeral := ephPriv }
      match drawIndex localIndex d with
      | .error e => (hs, .error e)
      | .ok localIndex =>
        let hs := { hs with
          localIndex
          chainKey := C.mixKey hs.chainKey ephPub.toList
          hash := C.mixHash hs.hash ephPub.toList }
        match C.x25519 hs.localEphemeral hs.remoteStatic with
        | .error e => (hs, .error e)
        | .ok ss =>
          let (chainKey, key) := C.kdf2 hs.chainKey ss.toList
          let hs := { hs with chainKey }
          match C.aeadSeal key 0 hs.hash.toList id.publicKey.toList with
          | .error e => (hs, .error e)
          | .ok static =>
            let (chainKey, key) := C.kdf2 hs.chainKey hs.precomputedSs.toList
            let hs := { hs with chainKey, hash := C.mixHash hs.hash static }
            match C.aeadSeal key 0 hs.hash.toList d.timestamp.toList with
            | .error e => (hs, .error e)
            | .ok timestamp =>
              let body := initiationBody localIndex ephPub static timestamp
              ({ hs with hash := C.mixHash hs.hash timestamp, state := .initiationCreated },
                .ok (C.addMacs body (C.mac1Key hs.remoteStatic)))

/-- `tc_wg_consume_initiation`: the initiator's static key and the timestamp. -/
def consumeInitiation (hs : Handshake) (id : Identity) (msg : List UInt8) :
    Handshake × Except Err (Key × Timestamp) :=
  if readLE32 msg 0 ≠ msgInitiation then (hs, .error .inval)
  else if C.checkMac1 msg initiationSize (C.mac1Key id.publicKey) = false then (hs, .error .inval)
  else
    let eph : Key := bytesAt keyLen msg 8
    let chainKey := C.mixKey C.initialChainKey eph.toList
    let hash := C.mixHash (C.mixHash C.initialHash id.publicKey.toList) eph.toList
    match C.x25519 id.privateKey eph with
    | .error e => (hs, .error e)
    | .ok ss =>
      let (chainKey, key) := C.kdf2 chainKey ss.toList
      let static := slice msg 40 (keyLen + tagLen)
      match C.aeadOpen key 0 hash.toList static with
      | .error e => (hs, .error e)
      | .ok peer =>
        let peerStatic : Key := bytesAt keyLen peer 0
        let hash := C.mixHash hash static
        -- an initiation that claims another identity is another peer
        if hs.hasRemoteStatic && peerStatic ≠ hs.remoteStatic then (hs, .error .inval)
        else
          let hs := if hs.hasRemoteStatic then hs
            else { hs with remoteStatic := peerStatic, hasRemoteStatic := true }
          match if hs.hasPrecomputedSs then .ok hs.precomputedSs
              else C.x25519 id.privateKey hs.remoteStatic with
          | .error e => (hs, .error e)
          | .ok precomputedSs =>
            let hs := { hs with precomputedSs, hasPrecomputedSs := true }
            let (chainKey, key) := C.kdf2 chainKey precomputedSs.toList
            let sealed := slice msg 88 (timestampLen + tagLen)
            match C.aeadOpen key 0 hash.toList sealed with
            | .error e => (hs, .error e)
            | .ok timestamp =>
              ({ hs with
                  hash := C.mixHash hash sealed, chainKey, remoteEphemeral := eph
                  remoteIndex := readLE32 msg 4, state := .initiationConsumed },
                .ok (peerStatic, bytesAt timestampLen timestamp 0))

def createResponse (hs : Handshake) (localIndex : UInt32) (d : Draw) :
    Handshake × Except Err (List UInt8) :=
  if hs.state ≠ .initiationConsumed then (hs, .error .inval)
  else
    match C.x25519Keypair d with
    | .error e => ({ hs with localEphemeral := zeroKey }, .error e)
    | .ok (ephPriv, ephPub) =>
      let hs := { hs with localEphemeral := ephPriv }
      match drawIndex localIndex d with
      | .error e => (hs, .error e)
      | .ok localIndex =>
        let hs := { hs with
          localIndex
          hash := C.mixHash hs.hash ephPub.toList
          chainKey := C.mixKey hs.chainKey ephPub.toList }
        match C.x25519 hs.localEphemeral hs.remoteEphemeral with
        | .error e => (hs, .error e)
        | .ok ss =>
          let hs := { hs with chainKey := C.mixKey hs.chainKey ss.toList }
          match C.x25519 hs.localEphemeral hs.remoteStatic with
          | .error e => (hs, .error e)
          | .ok ss =>
            -- the pre-shared key enters the chaining key, and the hash by way of tau
            let (chainKey, tau, key) :=
              C.kdf3 (C.mixKey hs.chainKey ss.toList) hs.presharedKey.toList
            let hs := { hs with chainKey, hash := C.mixHash hs.hash tau.toList }
            match C.aeadSeal key 0 hs.hash.toList [] with
            | .error e => (hs, .error e)
            | .ok empty =>
              let body := responseBody localIndex hs.remoteIndex ephPub empty
              ({ hs with hash := C.mixHash hs.hash empty, state := .responseCreated },
                .ok (C.addMacs body (C.mac1Key hs.remoteStatic)))

/-- `tc_wg_consume_response`. It works on copies, so a response that fails leaves the handshake as it
was. -/
def consumeResponse (hs : Handshake) (id : Identity) (msg : List UInt8) :
    Handshake × Except Err Unit :=
  if hs.state ≠ .initiationCreated then (hs, .error .inval)
  else if readLE32 msg 0 ≠ msgResponse then (hs, .error .inval)
  else if readLE32 msg 8 ≠ hs.localIndex then (hs, .error .inval)
  else if C.checkMac1 msg responseSize (C.mac1Key id.publicKey) = false then (hs, .error .inval)
  else
    let eph : Key := bytesAt keyLen msg 12
    let hash := C.mixHash hs.hash eph.toList
    let chainKey := C.mixKey hs.chainKey eph.toList
    match C.x25519 hs.localEphemeral eph with
    | .error e => (hs, .error e)
    | .ok ss =>
      let chainKey := C.mixKey chainKey ss.toList
      match C.x25519 id.privateKey eph with
      | .error e => (hs, .error e)
      | .ok ss =>
        let (chainKey, tau, key) := C.kdf3 (C.mixKey chainKey ss.toList) hs.presharedKey.toList
        let hash := C.mixHash hash tau.toList
        let empty := slice msg 44 tagLen
        match C.aeadOpen key 0 hash.toList empty with
        | .error e => (hs, .error e)
        | .ok _ =>
          ({ hs with
              hash := C.mixHash hash empty, chainKey, remoteEphemeral := eph
              remoteIndex := readLE32 msg 4, state := .responseConsumed }, .ok ())

/-! ## The key schedule

Both sides of a handshake go through the same keys and hashes; these are their values. -/

def staticHash (responder eph : Key) : Key :=
  C.mixHash (C.mixHash C.initialHash responder.toList) eph.toList

def staticKeys (eph ss : Key) : Key × Key := C.kdf2 (C.mixKey C.initialChainKey eph.toList) ss.toList

def stampHash (responder eph : Key) (static : List UInt8) : Key :=
  C.mixHash (C.staticHash responder eph) static

def stampKeys (eph ss precomputedSs : Key) : Key × Key :=
  C.kdf2 (C.staticKeys eph ss).1 precomputedSs.toList

/-- The chaining key, tau and the key under which the response is sealed, from the chaining key after
the initiation. -/
def emptyKeys (chainKey eph ss ss' psk : Key) : Key × Key × Key :=
  C.kdf3 (C.mixKey (C.mixKey (C.mixKey chainKey eph.toList) ss.toList) ss'.toList) psk.toList

def emptyHash (hash eph tau : Key) : Key := C.mixHash (C.mixHash hash eph.toList) tau.toList

variable {C}

variable {id : Identity} {msg : List UInt8} {hs hs' : Handshake} {localIndex : UInt32} {d : Draw}

/-! ## What the functions do when they succeed -/

lemma createInitiation_ok (h : C.createInitiation hs id localIndex d = (hs', .ok msg)) :
    ∃ ephPriv ephPub index ss static stamp,
      C.x25519Keypair d = .ok (ephPriv, ephPub) ∧ C.x25519 ephPriv hs.remoteStatic = .ok ss ∧
      C.aeadSeal (C.staticKeys ephPub ss).2 0 (C.staticHash hs.remoteStatic ephPub).toList
        id.publicKey.toList = .ok static ∧
      C.aeadSeal (C.stampKeys ephPub ss hs.precomputedSs).2 0
        (C.stampHash hs.remoteStatic ephPub static).toList d.timestamp.toList = .ok stamp ∧
      msg = C.addMacs (initiationBody index ephPub static stamp) (C.mac1Key hs.remoteStatic) ∧
      hs' = { hs with
        chainKey := (C.stampKeys ephPub ss hs.precomputedSs).1
        hash := C.mixHash (C.stampHash hs.remoteStatic ephPub static) stamp
        localEphemeral := ephPriv, localIndex := index, state := .initiationCreated } := by
  unfold createInitiation at h
  dsimp only at h
  repeat
    split at h
    · cases h
  rename_i ephPriv ephPub hkeypair _ index _ _ ss hss _ static hstatic _ stamp hstamp
  cases h
  exact ⟨ephPriv, ephPub, index, ss, static, stamp, hkeypair, hss, hstatic, hstamp, rfl, rfl⟩

lemma createResponse_ok (h : C.createResponse hs localIndex d = (hs', .ok msg)) :
    ∃ ephPriv ephPub index ss ss' empty keys,
      C.x25519Keypair d = .ok (ephPriv, ephPub) ∧ empty.length = tagLen ∧
      C.x25519 ephPriv hs.remoteEphemeral = .ok ss ∧ C.x25519 ephPriv hs.remoteStatic = .ok ss' ∧
      keys = C.emptyKeys hs.chainKey ephPub ss ss' hs.presharedKey ∧
      C.aeadSeal keys.2.2 0 (C.emptyHash hs.hash ephPub keys.2.1).toList [] = .ok empty ∧
      msg = C.addMacs (responseBody index hs.remoteIndex ephPub empty) (C.mac1Key hs.remoteStatic) ∧
      hs' = { hs with
        chainKey := keys.1, hash := C.mixHash (C.emptyHash hs.hash ephPub keys.2.1) empty
        localEphemeral := ephPriv, localIndex := index, state := .responseCreated } := by
  unfold createResponse at h
  dsimp only at h
  repeat
    split at h
    · cases h
  rename_i ephPriv ephPub hkeypair _ index _ _ ss hss _ ss' hss' _ empty hempty
  have hlen : empty.length = tagLen := by rw [C.length_aeadSeal hempty, List.length_nil, Nat.zero_add]
  cases h
  exact ⟨ephPriv, ephPub, index, ss, ss', empty, _, hkeypair, hlen, hss, hss', rfl, hempty, rfl, rfl⟩

/-- The parts of an initiation: what opening its two sealed fields takes, and what it gives. `pre` is
the shared secret of the static keys. -/
structure InitiationParts (C : Crypto) (hs : Handshake) (id : Identity) (msg : List UInt8)
    (ss pre : Key) (static stamp : List UInt8) : Prop where
  type : readLE32 msg 0 = msgInitiation
  mac1 : C.checkMac1 msg initiationSize (C.mac1Key id.publicKey) = true
  ephemeral : C.x25519 id.privateKey (bytesAt keyLen msg 8) = .ok ss
  openStatic : C.aeadOpen (C.staticKeys (bytesAt keyLen msg 8) ss).2 0
    (C.staticHash id.publicKey (bytesAt keyLen msg 8)).toList (slice msg 40 (keyLen + tagLen)) =
      .ok static
  known : hs.hasRemoteStatic = true → bytesAt keyLen static 0 = hs.remoteStatic
  precomputed : (if hs.hasPrecomputedSs then .ok hs.precomputedSs
    else C.x25519 id.privateKey (bytesAt keyLen static 0)) = .ok pre
  openStamp : C.aeadOpen (C.stampKeys (bytesAt keyLen msg 8) ss pre).2 0
    (C.stampHash id.publicKey (bytesAt keyLen msg 8) (slice msg 40 (keyLen + tagLen))).toList
    (slice msg 88 (timestampLen + tagLen)) = .ok stamp

/-- The handshake of a responder that has consumed an initiation. -/
def initiationConsumed (C : Crypto) (hs : Handshake) (id : Identity) (msg : List UInt8) (ss pre : Key)
    (static : List UInt8) : Handshake :=
  let eph : Key := bytesAt keyLen msg 8
  { hs with
    remoteStatic := bytesAt keyLen static 0, hasRemoteStatic := true
    precomputedSs := pre, hasPrecomputedSs := true
    hash := C.mixHash (C.stampHash id.publicKey eph (slice msg 40 (keyLen + tagLen)))
      (slice msg 88 (timestampLen + tagLen))
    chainKey := (C.stampKeys eph ss pre).1
    remoteEphemeral := eph, remoteIndex := readLE32 msg 4, state := .initiationConsumed }

@[simp] lemma initiationConsumed_presharedKey (hs : Handshake) (id : Identity) (msg : List UInt8)
    (ss pre : Key) (static : List UInt8) :
    (initiationConsumed C hs id msg ss pre static).presharedKey = hs.presharedKey := by
  simp only [initiationConsumed]

@[simp] lemma initiationConsumed_state (hs : Handshake) (id : Identity) (msg : List UInt8)
    (ss pre : Key) (static : List UInt8) :
    (initiationConsumed C hs id msg ss pre static).state = .initiationConsumed := by
  simp only [initiationConsumed]

lemma InitiationParts.consumeInitiation {ss pre : Key} {static stamp : List UInt8}
    (h : InitiationParts C hs id msg ss pre static stamp) :
    C.consumeInitiation hs id msg = (initiationConsumed C hs id msg ss pre static,
      .ok (bytesAt keyLen static 0, bytesAt timestampLen stamp 0)) := by
  have hopen := h.openStatic
  have hopen' := h.openStamp
  unfold staticHash staticKeys at hopen
  unfold stampHash stampKeys staticHash staticKeys at hopen'
  unfold Crypto.consumeInitiation
  rw [if_neg (not_not.mpr h.type), if_neg (by simp [h.mac1])]
  dsimp only
  rw [h.ephemeral]
  dsimp only
  rw [hopen]
  dsimp only
  cases hremote : hs.hasRemoteStatic with
  | false =>
    simp only [Bool.false_eq_true, if_false]
    rw [h.precomputed]
    dsimp only
    rw [hopen']
    rfl
  | true =>
    have hknown := h.known hremote
    have hpre := h.precomputed
    rw [hknown] at hpre
    rw [if_neg (by simp [hknown])]
    simp only [if_true]
    rw [hpre]
    dsimp only
    rw [hopen']
    unfold initiationConsumed
    rw [hknown, ← hremote]
    rfl

lemma consumeInitiation_ok {peer : Key} {timestamp : Timestamp}
    (h : C.consumeInitiation hs id msg = (hs', .ok (peer, timestamp))) :
    ∃ ss pre static stamp, InitiationParts C hs id msg ss pre static stamp ∧
      hs' = initiationConsumed C hs id msg ss pre static ∧
      timestamp = bytesAt timestampLen stamp 0 := by
  have hfull := h
  unfold consumeInitiation at h
  dsimp only at h
  iterate 7
    split at h
    · cases h
  rename_i htype hmac _ ss hss _ static hstatic hknown _ pre hpre _ stamp hstamp
  have hknown' : hs.hasRemoteStatic = true → bytesAt keyLen static 0 = hs.remoteStatic := by
    intro hremote
    simpa [hremote] using hknown
  have hpre' : (if hs.hasPrecomputedSs then .ok hs.precomputedSs
      else C.x25519 id.privateKey (bytesAt keyLen static 0)) = .ok pre := by
    rw [← hpre]
    cases hremote : hs.hasRemoteStatic with
    | false => simp
    | true => simp [hknown' hremote]
  have hparts : InitiationParts C hs id msg ss pre static stamp :=
    ⟨not_not.mp htype, by simpa using hmac, hss, hstatic, hknown', hpre', hstamp⟩
  have heq := hparts.consumeInitiation
  rw [hfull] at heq
  obtain ⟨hhs, hres⟩ := Prod.mk.inj heq
  exact ⟨ss, pre, static, stamp, hparts, hhs, (Prod.mk.inj (Except.ok.inj hres)).2⟩

/-- The parts of a response: what opening its sealed field takes. -/
structure ResponseParts (C : Crypto) (hs : Handshake) (id : Identity) (msg : List UInt8)
    (ss ss' : Key) (keys : Key × Key × Key) : Prop where
  state : hs.state = .initiationCreated
  type : readLE32 msg 0 = msgResponse
  receiver : readLE32 msg 8 = hs.localIndex
  mac1 : C.checkMac1 msg responseSize (C.mac1Key id.publicKey) = true
  ephemeral : C.x25519 hs.localEphemeral (bytesAt keyLen msg 12) = .ok ss
  static : C.x25519 id.privateKey (bytesAt keyLen msg 12) = .ok ss'
  keys_eq : keys = C.emptyKeys hs.chainKey (bytesAt keyLen msg 12) ss ss' hs.presharedKey
  openEmpty : ∃ opened, C.aeadOpen keys.2.2 0
    (C.emptyHash hs.hash (bytesAt keyLen msg 12) keys.2.1).toList (slice msg 44 tagLen) = .ok opened

/-- The handshake of an initiator that has consumed a response. -/
def responseConsumed (C : Crypto) (hs : Handshake) (msg : List UInt8) (keys : Key × Key × Key) :
    Handshake :=
  let eph : Key := bytesAt keyLen msg 12
  { hs with
    hash := C.mixHash (C.emptyHash hs.hash eph keys.2.1) (slice msg 44 tagLen), chainKey := keys.1
    remoteEphemeral := eph, remoteIndex := readLE32 msg 4, state := .responseConsumed }

lemma ResponseParts.consumeResponse {ss ss' : Key} {keys : Key × Key × Key}
    (h : ResponseParts C hs id msg ss ss' keys) :
    C.consumeResponse hs id msg = (responseConsumed C hs msg keys, .ok ()) := by
  obtain ⟨hstate, htype, hreceiver, hmac, hss, hss', rfl, opened, hopen⟩ := h
  unfold emptyHash emptyKeys at hopen
  unfold Crypto.consumeResponse
  rw [if_neg (not_not.mpr hstate), if_neg (not_not.mpr htype), if_neg (not_not.mpr hreceiver),
    if_neg (by simp [hmac])]
  dsimp only
  rw [hss]
  rw [hss']
  dsimp only
  rw [hopen]
  rfl

lemma consumeResponse_cases (C : Crypto) (hs : Handshake) (id : Identity) (msg : List UInt8) :
    (∃ e, C.consumeResponse hs id msg = (hs, .error e)) ∨
      ∃ ss ss' keys, ResponseParts C hs id msg ss ss' keys := by
  by_cases hfail : ∃ e, C.consumeResponse hs id msg = (hs, .error e)
  · exact .inl hfail
  refine .inr ?_
  unfold consumeResponse at hfail
  dsimp only at hfail
  repeat
    split at hfail
    · exact absurd ⟨_, rfl⟩ hfail
  rename_i hstate htype hreceiver hmac _ ss hss _ ss' hss' _ opened hopen
  exact ⟨ss, ss', _, not_not.mp hstate, not_not.mp htype, not_not.mp hreceiver,
    by simpa using hmac, hss, hss', rfl, opened, hopen⟩

end Crypto

end Wg
