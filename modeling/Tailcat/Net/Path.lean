import Tailcat.Net.Disco

/-!
# Finding a direct path

`tc_path` of `src/net/path.c`. Times are natural numbers, in milliseconds. What a call draws from the
system and what its transmissions return are arguments; one transaction id for each candidate is
enough, since no call probes a candidate twice. A probe that could not be sealed or sent is a lost
one, as in the source.

The `history` (newest first) and the `clock` (the time of the last call) are not in the source.
-/

namespace Net

/-! ## Constants -/

/-- `TC_PATH_MAX_CANDIDATES`. -/
def maxCandidates : ℕ := 16
/-- `TC_PATH_MAX_LOCAL`. -/
def maxLocal : ℕ := 12
/-- `TC_PATH_TRUST_MS`. -/
def trustMs : ℕ := 6500
/-- `TC_PATH_HEARTBEAT_MS`. -/
def heartbeatMs : ℕ := 3000
/-- `TC_PATH_PROBE_MS`. -/
def probeMs : ℕ := 500
/-- `TC_PATH_PROBE_GIVEUP_MS`. -/
def probeGiveupMs : ℕ := 5000
/-- `TC_PATH_PROBE_MAX_BACKOFF_MS`. -/
def probeMaxBackoffMs : ℕ := 60000
/-- `TC_PATH_CMM_MS`. -/
def cmmMs : ℕ := 5000
/-- `TC_PATH_CMM_IDLE_MS`. -/
def cmmIdleMs : ℕ := 25000
/-- `TC_PATH_GOOD_ENOUGH_MS`. -/
def goodEnoughMs : ℤ := 5

/-! ## Candidates -/

structure Cand where
  ep : Endpoint
  /-- The transaction id of the last probe. -/
  txid : Txid
  probeOutstanding : Bool
  probeSentMs : ℕ
  lastPongMs : ℕ
  lastRecvMs : ℕ
  firstProbeMs : ℕ
  rttMs : ℤ
  proven : Bool
  sleeping : Bool
  deadRounds : ℕ
  wakeAtMs : ℕ
  deriving DecidableEq

namespace Cand

/-- The entry that `add_cand` makes. -/
def fresh (ep : Endpoint) : Cand :=
  { ep, txid := .replicate _ 0, probeOutstanding := false, probeSentMs := 0, lastPongMs := 0
    lastRecvMs := 0, firstProbeMs := 0, rttMs := -1, proven := false, sleeping := false
    deadRounds := 0, wakeAtMs := 0 }

def lastHeard (c : Cand) : ℕ := if c.lastRecvMs > c.lastPongMs then c.lastRecvMs else c.lastPongMs

/-- `wake_cand`. -/
def wake (c : Cand) : Cand :=
  { c with sleeping := false, deadRounds := 0, wakeAtMs := 0, firstProbeMs := 0 }

def heard (c : Cand) (now : ℕ) : Cand := { c with lastRecvMs := now }.wake

/-- What `send_ping` does to the candidate. -/
def pinged (c : Cand) (txid : Txid) (now : ℕ) : Cand :=
  { c with
    txid, probeOutstanding := true, probeSentMs := now
    firstProbeMs := if c.firstProbeMs = 0 then now else c.firstProbeMs }

/-- What `note_pong` does to the candidate. The round trip is an `int`. -/
def ponged (c : Cand) (now : ℕ) : Cand :=
  { c with
    probeOutstanding := false, lastPongMs := now, lastRecvMs := now, deadRounds := 0, wakeAtMs := 0
    sleeping := false
    rttMs := if now > c.probeSentMs then Int.bmod (now - c.probeSentMs : ℕ) (2 ^ 32) else 0
    proven := true }

def alive (c : Cand) (now : ℕ) : Bool := c.proven && now < c.lastHeard + trustMs

def givesUp (c : Cand) (now : ℕ) : Bool :=
  !c.proven && !c.sleeping && c.firstProbeMs ≠ 0 && now ≥ c.firstProbeMs + probeGiveupMs

/-- The loop of `tc_path_tick` that doubles the pause, for the rounds that are left. -/
def backoffLoop (back : ℕ) : ℕ → ℕ
  | 0 => back
  | rounds + 1 => if back * 2 ≥ probeMaxBackoffMs then back * 2 else backoffLoop (back * 2) rounds

def sleep (c : Cand) (now : ℕ) : Cand :=
  let deadRounds := if c.deadRounds < 32 then c.deadRounds + 1 else c.deadRounds
  let back := min (backoffLoop probeGiveupMs (deadRounds - 1)) probeMaxBackoffMs
  { c with sleeping := true, probeOutstanding := false, deadRounds, wakeAtMs := now + back }

/-- The candidate may be probed again: its pause has run out. -/
def resume (c : Cand) (now : ℕ) : Cand :=
  if c.sleeping && !c.proven && now ≥ c.wakeAtMs then
    { c with sleeping := false, firstProbeMs := 0, probeOutstanding := false }
  else c

/-- `probe_due`: when the candidate should be probed next, if ever. -/
def probeDue (c : Cand) (inUse : Bool) (now : ℕ) : Option ℕ :=
  if c.sleeping then none
  else if c.proven then
    -- stale and unused: it may go quiet
    if !inUse && now ≥ c.lastHeard + trustMs then none else some (c.lastHeard + heartbeatMs)
  else if c.probeOutstanding then some (c.probeSentMs + probeMs)
  else some (if c.firstProbeMs = 0 then now else c.firstProbeMs)

end Cand

/-! ## The path -/

inductive PathEvent
  /-- The endpoint was added to the table. -/
  | added (ep : Endpoint)
  /-- A probe was sent, by the schedule or at once. -/
  | ping (scheduled : Bool) (ep : Endpoint) (txid : Txid) (now : ℕ)
  /-- The packet was accepted as the answer to a probe. -/
  | pong (ep : Endpoint) (txid : Txid) (now : ℕ) (pkt : List UInt8)
  /-- A probe was answered. -/
  | answered (dst : Endpoint) (txid : Txid)
  /-- The addresses were offered through the relay. -/
  | callMeMaybe (eps : List Endpoint)
  deriving DecidableEq

structure PathStats where
  pingsSent : ℕ := 0
  pingsReceived : ℕ := 0
  pongsSent : ℕ := 0
  pongsReceived : ℕ := 0
  callMeMaybesSent : ℕ := 0
  callMeMaybesReceived : ℕ := 0
  upgrades : ℕ := 0
  downgrades : ℕ := 0
  switches : ℕ := 0
  discarded : ℕ := 0
  deriving DecidableEq

/-- What one call draws from the system, and what its transmissions return. -/
structure PathDraw where
  /-- The transaction id for the candidate of each index, if there are random bytes. -/
  txid : ℕ → Option Txid
  /-- The nonce of a packet. -/
  nonce : Option DiscoNonce
  /-- What the transmit function returns. -/
  sent : Except Err Unit

structure Path where
  ourDiscoPriv : DiscoKey
  ourDiscoPub : DiscoKey
  peerDiscoPub : DiscoKey
  cands : List Cand
  localEps : List Endpoint
  seenByPeer : Option Endpoint
  /-- The index of the chosen candidate, or none for the relay. -/
  best : Option ℕ
  bestSinceMs : ℕ
  nextCmmMs : ℕ
  stats : PathStats
  history : List PathEvent
  clock : ℕ

namespace Path

def init (ourDiscoPriv ourDiscoPub peerDiscoPub : DiscoKey) : Path :=
  { ourDiscoPriv, ourDiscoPub, peerDiscoPub, cands := [], localEps := [], seenByPeer := none
    best := none, bestSinceMs := 0, nextCmmMs := 0, stats := {}, history := [], clock := 0 }

def note (p : Path) (e : PathEvent) : Path := { p with history := e :: p.history }

def discard (p : Path) : Path := { p with stats.discarded := p.stats.discarded + 1 }

/-- The candidate of index `i` is changed. -/
def modify (p : Path) (i : ℕ) (f : Cand → Cand) : Path := { p with cands := p.cands.modify i f }

/-! ### The table -/

def findCand (p : Path) (ep : Endpoint) : Option ℕ := p.cands.findIdx? fun c => c.ep = ep

/-- One step of the loop of `worst_cand`. -/
def worse (best : Option ℕ) (worst : Option (Cand × ℕ)) (c : Cand × ℕ) : Option (Cand × ℕ) :=
  if best = some c.2 then worst
  else
    match worst with
    | none => some c
    | some w =>
      if w.1.proven ≠ c.1.proven then if !c.1.proven then some c else some w
      else if c.1.lastHeard < w.1.lastHeard then some c
      else some w

def worstCand (p : Path) : Option ℕ := (p.cands.zipIdx.foldl (worse p.best) none).map Prod.snd

/-- `add_cand`: the index of the entry. Entries are replaced in place. -/
def addCand (p : Path) (ep : Endpoint) : Path × Option ℕ :=
  if ep.ip = .unset || ep.port = 0 then (p, none)
  else
    match p.findCand ep with
    | some i => (p, some i)
    | none =>
      if p.cands.length < maxCandidates then
        ({ p with cands := p.cands ++ [Cand.fresh ep] }.note (.added ep), some p.cands.length)
      else
        match p.worstCand with
        | none => (p, none)
        | some i => ({ p with cands := p.cands.set i (Cand.fresh ep) }.note (.added ep), some i)

/-! ### Sending -/

/-- `send_ping`, for the candidate of index `i`. -/
def sendPing (p : Path) (scheduled : Bool) (i : ℕ) (now : ℕ) (d : PathDraw) : Path :=
  match p.cands[i]?, d.txid i with
  | some c, some txid =>
    { (p.modify i fun c => c.pinged txid now).note (.ping scheduled c.ep txid now) with
      stats.pingsSent := p.stats.pingsSent + 1 }
  | _, _ => p

def sendCallMeMaybe (B : Box) (p : Path) (d : PathDraw) : Path × Except Err Unit :=
  let eps := p.localEps.take discoMaxEndpoints
  let eps :=
    match p.seenByPeer with
    | some ep => if eps.length < discoMaxEndpoints && !eps.contains ep then eps ++ [ep] else eps
    | none => eps
  match Disco.sealMsg B 1024 (.callMeMaybe eps) d.nonce p.ourDiscoPub p.ourDiscoPriv
      p.peerDiscoPub with
  | .error e => (p, .error e)
  | .ok _ =>
    ({ p.note (.callMeMaybe eps) with
      stats.callMeMaybesSent := p.stats.callMeMaybesSent + 1 }, d.sent)

def sendPong (B : Box) (p : Path) (dst : Endpoint) (txid : Txid) (d : PathDraw) :
    Path × Except Err Unit :=
  let p := { p with stats.pongsSent := p.stats.pongsSent + 1 }
  match Disco.sealMsg B 1024 (.pong txid dst) d.nonce p.ourDiscoPub p.ourDiscoPriv
      p.peerDiscoPub with
  | .error e => (p, .error e)
  | .ok _ => (p.note (.answered dst txid), d.sent)

/-! ### Setup -/

/-- One step of the loop of `tc_path_set_local`. -/
def addLocal (eps : List Endpoint) (ep : Endpoint) : List Endpoint :=
  if eps.length < maxLocal && ep.isCandidate && !eps.contains ep then eps ++ [ep] else eps

def setLocal (p : Path) (eps : List Endpoint) : Path := { p with localEps := eps.foldl addLocal [] }

def start (B : Box) (p : Path) (now : ℕ) (d : PathDraw) : Path × Except Err Unit :=
  sendCallMeMaybe B { p with nextCmmMs := now + cmmMs } d

/-! ### Receiving -/

/-- The rest of `note_pong`: where the peer says that our packets come from. -/
def noteSeen (p : Path) (src : Endpoint) : Path :=
  if src.ip ≠ .unset && src.isCandidate then { p with seenByPeer := some src } else p

def addAll (p : Path) (eps : List Endpoint) : Path := eps.foldl (fun p ep => (p.addCand ep).1) p

def inputDisco (B : Box) (p : Path) (src : Endpoint) (pkt : List UInt8) (now : ℕ) (d : PathDraw) :
    Path × Except Err Unit :=
  if Disco.looksLike pkt = false then (p, .error .inval)
  else
    match Disco.openMsg B pkt p.ourDiscoPriv p.peerDiscoPub with
    | .error _ => (p.discard, .ok ())
    | .ok (.ping txid _ _) =>
      let p := { p with stats.pingsReceived := p.stats.pingsReceived + 1 }
      let p :=
        match p.addCand src with
        | (p, some i) => p.modify i fun c => c.heard now
        | (p, none) => p
      sendPong B p src txid d
    | .ok (.pong txid seen) =>
      match p.findCand src with
      | none => (p.discard, .ok ())
      | some i =>
        match p.cands[i]? with
        | none => (p.discard, .ok ())
        | some c =>
          -- the answer must be to the last probe of this very address
          if !c.probeOutstanding || c.txid ≠ txid then (p.discard, .ok ())
          else
            let p := (p.modify i fun c => c.ponged now).note (.pong src txid now pkt)
            (noteSeen { p with stats.pongsReceived := p.stats.pongsReceived + 1 } seen, .ok ())
    | .ok (.callMeMaybe eps) =>
      let p := p.addAll eps
      ({ p with stats.callMeMaybesReceived := p.stats.callMeMaybesReceived + 1 }, .ok ())

/-- One step of the loop of `tc_path_input_relay` that probes at once. -/
def probeNow (now : ℕ) (d : PathDraw) (p : Path) (i : ℕ) : Path :=
  match p.cands[i]? with
  | none => p
  | some c => if !c.sleeping && !c.probeOutstanding then p.sendPing false i now d else p

def inputRelay (B : Box) (p : Path) (pkt : List UInt8) (now : ℕ) (d : PathDraw) :
    Path × Except Err Unit :=
  if Disco.looksLike pkt = false then (p, .error .inval)
  else
    match Disco.openMsg B pkt p.ourDiscoPriv p.peerDiscoPub with
    | .ok (.callMeMaybe eps) =>
      let p := p.addAll eps
      let p := { p with stats.callMeMaybesReceived := p.stats.callMeMaybesReceived + 1 }
      ((List.range p.cands.length).foldl (probeNow now d) p, .ok ())
    -- a probe or an answer that the relay carried proves nothing
    | _ => (p.discard, .ok ())

def noteRecv (p : Path) (src : Endpoint) (now : ℕ) : Path :=
  match p.findCand src with
  | some i => p.modify i fun c => c.heard now
  | none =>
    match p.addCand src with
    | (p, some i) => p.modify i fun c => c.heard now
    | (p, none) => p

/-! ### Choosing -/

/-- One step of the loops of `rechoose`: the first of the least round trips. -/
def nearer (now : ℕ) (skip : Option ℕ) (best : Option (Cand × ℕ)) (c : Cand × ℕ) :
    Option (Cand × ℕ) :=
  if skip = some c.2 || !c.1.alive now then best
  else
    match best with
    | none => some c
    | some b => if c.1.rttMs < b.1.rttMs then some c else some b

def nearest (p : Path) (now : ℕ) (skip : Option ℕ) : Option (Cand × ℕ) :=
  p.cands.zipIdx.foldl (nearer now skip) none

def bestCand (p : Path) : Option Cand := p.best.bind fun i => p.cands[i]?

def rechoose (p : Path) (now : ℕ) : Path :=
  match p.bestCand.filter fun c => c.alive now with
  | some current =>
    match p.nearest now p.best with
    | some (other, i) =>
      if other.rttMs + goodEnoughMs < current.rttMs then
        { p with best := some i, bestSinceMs := now, stats.switches := p.stats.switches + 1 }
      else p
    | none => p
  | none =>
    let best := (p.nearest now none).map Prod.snd
    if best = p.best then p
    else
      { p with
        best, bestSinceMs := now
        stats :=
          if best = none then { p.stats with downgrades := p.stats.downgrades + 1 }
          else if p.best = none then { p.stats with upgrades := p.stats.upgrades + 1 }
          else { p.stats with switches := p.stats.switches + 1 } }

/-- `tc_path_best`: the direct endpoint, or none for the relay. -/
def direct (p : Path) (now : ℕ) : Option Endpoint :=
  (p.bestCand.filter fun c => c.alive now).map Cand.ep

/-! ### The schedule -/

/-- One step of the loop of `tc_path_tick`. -/
def tickCand (now : ℕ) (d : PathDraw) (p : Path) (i : ℕ) : Path :=
  match p.cands[i]? with
  | none => p
  | some c =>
    if c.givesUp now then p.modify i fun c => c.sleep now
    else
      let p := p.modify i fun c => c.resume now
      match (c.resume now).probeDue (p.best = some i) now with
      | none => p
      | some due => if due ≤ now then p.sendPing true i now d else p

def tick (B : Box) (p : Path) (now : ℕ) (d : PathDraw) : Path :=
  let p := (List.range p.cands.length).foldl (tickCand now d) p
  let p := p.rechoose now
  if now ≥ p.nextCmmMs then
    let p := (sendCallMeMaybe B p d).1
    { p with nextCmmMs := now + if p.best.isSome then cmmIdleMs else cmmMs }
  else p

/-! ### Runs -/

inductive Call
  | setLocal (eps : List Endpoint)
  | start (now : ℕ) (d : PathDraw)
  | inputDisco (src : Endpoint) (pkt : List UInt8) (now : ℕ) (d : PathDraw)
  | inputRelay (pkt : List UInt8) (now : ℕ) (d : PathDraw)
  | noteRecv (src : Endpoint) (now : ℕ)
  | tick (now : ℕ) (d : PathDraw)

/-- The time of a call, given the time of the last one. -/
def Call.time (clock : ℕ) : Call → ℕ
  | .setLocal _ => clock
  | .start now _ | .inputDisco _ _ now _ | .inputRelay _ now _ | .noteRecv _ now | .tick now _ => now

def call (B : Box) (p : Path) : Call → Path
  | .setLocal eps => p.setLocal eps
  | .start now d => (p.start B now d).1
  | .inputDisco src pkt now d => (p.inputDisco B src pkt now d).1
  | .inputRelay pkt now d => (p.inputRelay B pkt now d).1
  | .noteRecv src now => p.noteRecv src now
  | .tick now d => p.tick B now d

def step (B : Box) (p : Path) (c : Call) : Path := { p.call B c with clock := c.time p.clock }

/-! ### A path to evaluate with -/

def plain : Path := init (.replicate _ 0) (.replicate _ 0) (.replicate _ 0)

def plainTxid (byte : UInt8) : Txid := Fields.bytesAt _ [byte] 0

def plainDraw (byte : UInt8) : PathDraw :=
  { txid := fun _ => some (plainTxid byte), nonce := some (.replicate _ 0), sent := .ok () }

def plainPong (byte : UInt8) : List UInt8 :=
  Disco.magic ++ List.replicate 56 0 ++ [2, 0] ++ (plainTxid byte).toList ++ List.replicate 34 0

def plainEndpoint (byte : UInt8) : Endpoint :=
  { ip := .v4 (Fields.bytesAt _ [10, 0, 0, byte] 0), port := 1 }

end Path

end Net
