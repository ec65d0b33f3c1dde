import Tailcat.Wg.Session

/-!
# A peer over time

`tc_wg_peer` of `src/wg/peer.c`. What a call draws from the system is an argument; one draw is enough,
since no call creates two handshake messages. The `history` is not in the source: it records, newest
first, what the peer transmits and what that is judged by.
-/

namespace Wg

open ByteOrder Fields

/-! ## Constants -/

/-- `TC_WG_REKEY_AFTER_TIME_MS`. -/
def rekeyAfterTimeMs : UInt64 := 120000
/-- `TC_WG_REJECT_AFTER_TIME_MS`. -/
def rejectAfterTimeMs : UInt64 := 180000
/-- `TC_WG_REKEY_ATTEMPT_TIME_MS`. -/
def rekeyAttemptTimeMs : UInt64 := 90000
/-- `TC_WG_REKEY_TIMEOUT_MS`. -/
def rekeyTimeoutMs : UInt64 := 5000
/-- `TC_WG_KEEPALIVE_TIMEOUT_MS`. -/
def keepaliveTimeoutMs : UInt64 := 10000
/-- `TC_WG_REKEY_AFTER_TIME_ON_RECV_MS`. -/
def rekeyAfterTimeOnRecvMs : UInt64 := rejectAfterTimeMs - keepaliveTimeoutMs - rekeyTimeoutMs
/-- `TC_WG_REKEY_AFTER_MESSAGES`. -/
def rekeyAfterMessages : UInt64 := (1 : UInt64) <<< (60 : UInt64)
/-- `TC_WG_COOKIE_REFRESH_MS`. -/
def cookieRefreshMs : UInt64 := 120000
/-- `TC_WG_MAX_PAYLOAD`. -/
def maxPayload : ℕ := 1200

/-! ## Keypairs -/

structure Keypair where
  s : Session
  /-- When the keys were derived. -/
  birthMs : UInt64
  valid : Bool
  deriving DecidableEq

namespace Keypair

/-- A keypair that `kill_keypair` has wiped. -/
def zero : Keypair := { s := .zero, birthMs := 0, valid := false }

def ageOf (k : Keypair) (now : UInt64) : UInt64 := if now > k.birthMs then now - k.birthMs else 0

def usableForSend (k : Keypair) (now : UInt64) : Bool :=
  k.valid && k.s.established && k.ageOf now < rejectAfterTimeMs &&
    k.s.sendCounter < rejectAfterMessages

def usableForRecv (k : Keypair) (now : UInt64) : Bool :=
  k.valid && k.s.established && k.ageOf now < rejectAfterTimeMs

end Keypair

/-- The names of the three keypairs that a peer holds. -/
inductive Slot
  | current
  | previous
  | next
  deriving DecidableEq, Repr

structure Slots where
  /-- The keypair to send under. -/
  current : Keypair
  /-- The one it replaced. -/
  previous : Keypair
  /-- Derived as responder and not proven yet. -/
  next : Keypair
  deriving DecidableEq

namespace Slots

def get (k : Slots) : Slot → Keypair
  | .current => k.current
  | .previous => k.previous
  | .next => k.next

def set (k : Slots) (slot : Slot) (v : Keypair) : Slots :=
  match slot with
  | .current => { k with current := v }
  | .previous => { k with previous := v }
  | .next => { k with next := v }

/-- The slots of `adopt_as_initiator`. -/
def adoptAsInitiator (k : Slots) (new : Keypair) : Slots :=
  -- packets under a keypair that was offered and never proven may still arrive
  if k.next.valid then { current := new, previous := k.next, next := .zero }
  else if k.current.valid then { k with current := new, previous := k.current }
  else { k with current := new, previous := .zero }

/-- The slots of `adopt_as_responder`. -/
def adoptAsResponder (k : Slots) (new : Keypair) : Slots := { k with previous := .zero, next := new }

/-- The slots of `promote_next`. -/
def promoteNext (k : Slots) : Slots :=
  { current := k.next, previous := if k.current.valid then k.current else .zero, next := .zero }

/-- The slots after the expiry check of `tc_wg_peer_tick`. -/
def expire (k : Slots) (now : UInt64) : Slots :=
  let check (k : Keypair) : Keypair := if k.valid && !k.usableForRecv now then .zero else k
  { current := check k.current, previous := check k.previous, next := check k.next }

end Slots

/-! ## Peers -/

inductive Event
  /-- An initiation was transmitted. -/
  | initiation (msg : List UInt8)
  /-- A response was transmitted. -/
  | response (msg : List UInt8)
  /-- A cookie reply was transmitted. -/
  | cookieReply (msg : List UInt8)
  /-- A packet was sealed under the keypair and transmitted. -/
  | transport (k : Keypair) (now : UInt64) (msg : List UInt8)
  /-- The response completed the pending handshake, which gave the keypair. -/
  | joined (k : Keypair) (hs : Handshake) (msg : List UInt8)
  /-- An initiation with the timestamp was accepted, and answering it gave the keypair. -/
  | answered (k : Keypair) (timestamp : Timestamp)
  /-- The packet was opened under the keypair. -/
  | opened (k : Keypair) (msg : List UInt8)

structure PeerStats where
  handshakesInitiated : UInt64 := 0
  handshakesResponded : UInt64 := 0
  handshakesCompleted : UInt64 := 0
  handshakesRetried : UInt64 := 0
  handshakesAbandoned : UInt64 := 0
  rekeys : UInt64 := 0
  keepalivesSent : UInt64 := 0
  promotions : UInt64 := 0
  recvOnPrevious : UInt64 := 0
  rejectedExpired : UInt64 := 0
  rejectedReplay : UInt64 := 0
  rejectedUnknownKey : UInt64 := 0
  cookiesSent : UInt64 := 0
  cookiesReceived : UInt64 := 0
  rejectedMac2 : UInt64 := 0
  deriving DecidableEq

structure Peer extends Slots where
  id : Identity
  remoteStatic : Key
  psk : Key
  hasPsk : Bool
  /-- The handshake that was started and waits for its response. -/
  hs : Handshake
  hsActive : Bool
  hsFirstMs : UInt64
  hsNextMs : UInt64
  keepaliveArmed : Bool
  keepaliveAt : UInt64
  lastTimestamp : Timestamp
  hasLastTimestamp : Bool
  cookie : Mac
  cookieAtMs : UInt64
  hasCookie : Bool
  lastMac1 : Mac
  hasLastMac1 : Bool
  cookieSecret : Key
  cookieSecretAtMs : UInt64
  hasCookieSecret : Bool
  underLoad : Bool
  rng : UInt64
  stats : PeerStats
  history : List Event

namespace Peer

def pskArg (p : Peer) : Option Key := if p.hasPsk then some p.psk else none

/-- `tc_wg_peer_init`, with the random bytes for the jitter. -/
def init (id : Identity) (remoteStatic : Key) (psk : Option Key) (seed : Except Err UInt64) : Peer :=
  { current := .zero, previous := .zero, next := .zero
    id, remoteStatic, psk := psk.getD zeroKey, hasPsk := psk.isSome
    hs := .zero, hsActive := false, hsFirstMs := 0, hsNextMs := 0
    keepaliveArmed := false, keepaliveAt := 0
    lastTimestamp := .replicate _ 0, hasLastTimestamp := false
    cookie := zeroMac, cookieAtMs := 0, hasCookie := false, lastMac1 := zeroMac, hasLastMac1 := false
    cookieSecret := zeroKey, cookieSecretAtMs := 0, hasCookieSecret := false, underLoad := false
    rng := match seed with
      | .ok rng => if rng = 0 then 0x9e3779b97f4a7c15 else rng
      | .error _ => 0x9e3779b97f4a7c15
    stats := {}, history := [] }

def note (p : Peer) (e : Event) : Peer := { p with history := e :: p.history }

def jitter (p : Peer) : Peer × UInt32 :=
  let x := p.rng
  let x := x ^^^ (x >>> 12)
  let x := x ^^^ (x <<< 25)
  let x := x ^^^ (x >>> 27)
  ({ p with rng := x }, ((x * 0x2545f4914f6cdd1d) >>> 32).toUInt32 % 333)

def setUnderLoad (p : Peer) (underLoad : Bool) : Peer := { p with underLoad }

section

variable (C : Crypto)

/-! ### Cookies -/

def haveCookie (p : Peer) (now : UInt64) : Bool := p.hasCookie && now - p.cookieAtMs < cookieRefreshMs

def finishMacs (p : Peer) (msg : List UInt8) (now : UInt64) : Peer × List UInt8 :=
  let msg := if p.haveCookie now then C.addMac2 msg p.cookie else msg
  ({ p with lastMac1 := bytesAt macLen msg (msg.length - 2 * macLen), hasLastMac1 := true }, msg)

def cookieSecretFor (p : Peer) (now : UInt64) (d : Draw) : Peer × Option Key :=
  if !p.hasCookieSecret || now - p.cookieSecretAtMs ≥ cookieRefreshMs then
    match d.secret with
    | .error _ => (p, none)
    | .ok secret =>
      ({ p with cookieSecret := secret, cookieSecretAtMs := now, hasCookieSecret := true },
        some secret)
  else (p, some p.cookieSecret)

/-! ### Starting a handshake -/

def emitInitiation (p : Peer) (now : UInt64) (d : Draw) : Peer × Except Err Unit :=
  match C.handshakeInit p.id (some p.remoteStatic) p.pskArg with
  | (hs, .error _) => ({ p with hs }, .error .inval)
  | (hs, .ok ()) =>
    match C.createInitiation hs p.id 0 d with
    | (hs, .error _) => ({ p with hs }, .error .inval)
    | (hs, .ok msg) =>
      let (p, msg) := finishMacs C { p with hs } msg now
      (p.note (.initiation msg), .ok ())

def startHandshake (p : Peer) (now : UInt64) (d : Draw) : Peer × Except Err Unit :=
  if p.hsActive then (p, .ok ())
  else
    match emitInitiation C p now d with
    | (p, .error e) => (p, .error e)
    | (p, .ok ()) =>
      let (p, delay) := jitter p
      ({ p with
          hsActive := true, hsFirstMs := now, hsNextMs := now + rekeyTimeoutMs + delay.toUInt64
          stats.handshakesInitiated := p.stats.handshakesInitiated + 1 }, .ok ())

def maybeRekey (p : Peer) (now : UInt64) (d : Draw) : Peer :=
  if p.hsActive || !p.current.valid then p
  else
    let limit := if p.current.s.isInitiator then rekeyAfterTimeMs else rekeyAfterTimeOnRecvMs
    if p.current.ageOf now ≥ limit || p.current.s.sendCounter ≥ rekeyAfterMessages then
      (startHandshake C p now d).1
    else p

/-! ### Keypair rotation -/

def adoptAsInitiator (p : Peer) (s : Session) (now : UInt64) : Peer :=
  { p with
    toSlots := p.toSlots.adoptAsInitiator { s, birthMs := now, valid := true }
    stats := { p.stats with
      rekeys := if p.current.valid then p.stats.rekeys + 1 else p.stats.rekeys
      handshakesCompleted := p.stats.handshakesCompleted + 1 } }

def adoptAsResponder (p : Peer) (s : Session) (now : UInt64) : Peer :=
  { p with
    toSlots := p.toSlots.adoptAsResponder { s, birthMs := now, valid := true }
    stats.handshakesCompleted := p.stats.handshakesCompleted + 1 }

def promoteNext (p : Peer) : Peer :=
  { p with
    toSlots := p.toSlots.promoteNext
    stats := { p.stats with
      rekeys := if p.current.valid then p.stats.rekeys + 1 else p.stats.rekeys
      promotions := p.stats.promotions + 1 } }

/-! ### Sending -/

def send (p : Peer) (text : List UInt8) (now : UInt64) (d : Draw) : Peer × Except Err Unit :=
  if p.current.usableForSend now = false then ((startHandshake C p now d).1, .error .again)
  else
    match p.current.s.encrypt C (transportHeaderSize + maxPayload + tagLen) text with
    | (s, .error e) => ({ p with current.s := s }, .error e)
    | (s, .ok msg) =>
      let p := { p with current.s := s, history := .transport p.current now msg :: p.history }
      -- what is sent answers the peer, so no keepalive is owed
      (maybeRekey C { p with keepaliveArmed := false } now d, .ok ())

def sendKeepalive (p : Peer) (now : UInt64) (d : Draw) : Peer :=
  if p.current.usableForSend now = false then p
  else
    match p.current.s.encrypt C (transportHeaderSize + tagLen) [] with
    | (s, .error _) => { p with current.s := s }
    | (s, .ok msg) =>
      let p := { p with current.s := s, history := .transport p.current now msg :: p.history }
      maybeRekey C { p with stats.keepalivesSent := p.stats.keepalivesSent + 1 } now d

/-! ### Receiving -/

/-- The part of `handle_initiation` after the check of the second MAC. -/
def acceptInitiation (p : Peer) (msg : List UInt8) (now : UInt64) (d : Draw) : Peer :=
  match C.handshakeInit p.id (some p.remoteStatic) p.pskArg with
  | (_, .error _) => p
  | (hs, .ok ()) =>
    match C.consumeInitiation hs p.id msg with
    | (_, .error _) => p
    | (hs, .ok (_, timestamp)) =>
      -- the order of `memcmp`
      if p.hasLastTimestamp && !(decide (p.lastTimestamp.toList < timestamp.toList)) then
        { p with stats.rejectedReplay := p.stats.rejectedReplay + 1 }
      else
        match C.createResponse hs 0 d with
        | (_, .error _) => p
        | (hs, .ok resp) =>
          let (p, resp) := finishMacs C p resp now
          match C.beginSession hs with
          | (_, .error _) => p
          | (_, .ok s) =>
            let p := { p with lastTimestamp := timestamp, hasLastTimestamp := true }
            let p := p.note (.response resp)
            let p := { p with stats.handshakesResponded := p.stats.handshakesResponded + 1 }
            adoptAsResponder (p.note (.answered { s, birthMs := now, valid := true } timestamp)) s now

def handleInitiation (p : Peer) (msg : List UInt8) (now : UInt64) (d : Draw) : Peer :=
  if msg.length ≠ initiationSize then p
  else if p.underLoad = false then acceptInitiation C p msg now d
  else
    match cookieSecretFor p now d with
    | (p, none) => acceptInitiation C p msg now d
    | (p, some secret) =>
      if C.checkMac2 msg secret p.remoteStatic.toList then acceptInitiation C p msg now d
      else
        let p :=
          match C.createCookieReply msg p.id.publicKey secret p.remoteStatic.toList d with
          | .error _ => p
          | .ok reply =>
            { p.note (.cookieReply reply) with stats.cookiesSent := p.stats.cookiesSent + 1 }
        { p with stats.rejectedMac2 := p.stats.rejectedMac2 + 1 }

def handleCookieReply (p : Peer) (msg : List UInt8) (now : UInt64) : Peer :=
  if msg.length ≠ cookieReplySize || !p.hasLastMac1 then p
  else
    match C.consumeCookieReply msg p.remoteStatic p.lastMac1 with
    | .error _ => p
    | .ok cookie =>
      { p with
        cookie, cookieAtMs := now, hasCookie := true
        stats.cookiesReceived := p.stats.cookiesReceived + 1
        -- the next attempt carries the cookie, so it is made at once
        hsNextMs := if p.hsActive then now else p.hsNextMs }

def handleResponse (p : Peer) (msg : List UInt8) (now : UInt64) : Peer :=
  if msg.length ≠ responseSize || !p.hsActive then p
  else if readLE32 msg 8 ≠ p.hs.localIndex then p
  else
    match C.consumeResponse p.hs p.id msg with
    | (hs, .error _) => { p with hs }
    | (hs, .ok ()) =>
      match C.beginSession hs with
      | (hs, .error _) => { p with hs }
      | (_, .ok s) =>
        let p := p.note (.joined { s, birthMs := now, valid := true } p.hs msg)
        adoptAsInitiator { p with hsActive := false, hs := .zero } s now

/-- The keypair that `handle_transport` picks for an index: the newest first. -/
def slotFor (p : Peer) (index : UInt32) : Option Slot :=
  if p.next.valid && p.next.s.localIndex = index then some .next
  else if p.current.valid && p.current.s.localIndex = index then some .current
  else if p.previous.valid && p.previous.s.localIndex = index then some .previous
  else none

/-- What `handle_transport` does with the slots once a packet under `slot` is proven. -/
def proven (p : Peer) : Slot → Peer
  | .next => promoteNext p
  | .previous => { p with stats.recvOnPrevious := p.stats.recvOnPrevious + 1 }
  | .current => p

/-- `handle_transport`, with the payload. -/
def handleTransport (p : Peer) (msg : List UInt8) (cap : ℕ) (now : UInt64) : Peer × List UInt8 :=
  if msg.length < transportHeaderSize + tagLen then (p, [])
  else
    match slotFor p (readLE32 msg 4) with
    | none => ({ p with stats.rejectedUnknownKey := p.stats.rejectedUnknownKey + 1 }, [])
    | some slot =>
      let k := p.toSlots.get slot
      if k.usableForRecv now = false then
        ({ p with stats.rejectedExpired := p.stats.rejectedExpired + 1 }, [])
      else
        match k.s.decrypt C cap msg with
        | (s, .error _) => ({ p with toSlots := p.toSlots.set slot { k with s } }, [])
        | (s, .ok text) =>
          let p := { p with toSlots := p.toSlots.set slot { k with s } }
          let p := proven (p.note (.opened k msg)) slot
          -- a keepalive needs no answer
          if text.isEmpty then (p, [])
          else if p.keepaliveArmed then (p, text)
          else ({ p with keepaliveArmed := true, keepaliveAt := now + keepaliveTimeoutMs }, text)

/-- `tc_wg_peer_input`, with the size of the caller's buffer, if there is one. -/
def input (p : Peer) (msg : List UInt8) (cap : Option ℕ) (now : UInt64) (d : Draw) :
    Peer × Except Err (List UInt8) :=
  if msg.length < 4 then (p, .ok [])
  else if msg.getD 1 0 ≠ 0 || msg.getD 2 0 ≠ 0 || msg.getD 3 0 ≠ 0 then (p, .ok [])
  else if msg.getD 0 0 = 1 then (handleInitiation C p msg now d, .ok [])
  else if msg.getD 0 0 = 2 then (handleResponse C p msg now, .ok [])
  else if msg.getD 0 0 = 4 then
    match cap with
    | none => (p, .error .inval)
    | some cap =>
      let (p, text) := handleTransport C p msg cap now
      (p, .ok text)
  else if msg.getD 0 0 = 3 then (handleCookieReply C p msg now, .ok [])
  else (p, .ok [])

/-! ### Timers -/

/-- The part of `tc_wg_peer_tick` that resends or gives up the pending handshake. -/
def retryHandshake (p : Peer) (now : UInt64) (d : Draw) : Peer :=
  if p.hsActive && now ≥ p.hsNextMs then
    if now - p.hsFirstMs ≥ rekeyAttemptTimeMs then
      { p with
        hsActive := false, hs := .zero
        stats.handshakesAbandoned := p.stats.handshakesAbandoned + 1 }
    else
      let (p, delay) := jitter (emitInitiation C p now d).1
      { p with
        hsNextMs := now + rekeyTimeoutMs + delay.toUInt64
        stats.handshakesRetried := p.stats.handshakesRetried + 1 }
  else p

def tick (p : Peer) (now : UInt64) (d : Draw) : Peer :=
  let p := { p with toSlots := p.toSlots.expire now }
  let p := retryHandshake C p now d
  if p.keepaliveArmed && now ≥ p.keepaliveAt then
    sendKeepalive C { p with keepaliveArmed := false } now d
  else p

/-! ### Runs -/

inductive Call
  | send (text : List UInt8) (now : UInt64) (d : Draw)
  | input (msg : List UInt8) (cap : Option ℕ) (now : UInt64) (d : Draw)
  | tick (now : UInt64) (d : Draw)
  | startHandshake (now : UInt64) (d : Draw)
  | setUnderLoad (underLoad : Bool)

def step (p : Peer) : Call → Peer
  | .send text now d => (send C p text now d).1
  | .input msg cap now d => (input C p msg cap now d).1
  | .tick now d => tick C p now d
  | .startHandshake now d => (startHandshake C p now d).1
  | .setUnderLoad underLoad => setUnderLoad p underLoad

end

/-! ### A peer to evaluate with -/

def plain : Peer := init ⟨zeroKey, zeroKey⟩ zeroKey none (.ok 0)

/-- A response in the plain suite, with the given `mac1`, for the index one. -/
def plainResponse (mac1 : Mac) : List UInt8 :=
  Crypto.responseBody 9 1 zeroKey (List.replicate tagLen 0) ++ mac1.toList ++ zeroMac.toList

end Peer

end Wg
