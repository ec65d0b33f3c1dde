import Tailcat.Tcp.Packet

/-!
# The TCP state machine

The functions of `src/net/tcp.c`. Longer functions are cut into the steps the source takes, in its
order: `handle_ack` into `fastRetransmit` and `takeAck`, `tc_tcp_input` into one definition per branch,
`tc_tcp_tick` into one per timer. `pick_iss` draws a random number; the initial sequence number is an
argument here.
-/

namespace Tcp

namespace Conn

/-- Record the time of a call: `tc_tcp_read` has no clock of its own. -/
def stamp (c : Conn) (now : ℕ) : Conn := { c with lastNow := now }

/-! ## Transmission -/

/-- `update_rto`: a round-trip sample, per Jacobson and Karels. -/
def updateRto (r : Rtt) (sample : ℤ) : Rtt :=
  let sample := if sample < 1 then 1 else sample
  let srtt := if r.srtt < 0 then sample else (7 * r.srtt + sample).tdiv 8
  let rttvar :=
    if r.srtt < 0 then sample.tdiv 2
    else
      let delta := sample - r.srtt
      let delta := if delta < 0 then -delta else delta
      (3 * r.rttvar + delta).tdiv 4
  let rto := srtt + 4 * rttvar
  let rto := if rto < rtoMin then (rtoMin : ℤ) else rto
  let rto := if rto > rtoMax then (rtoMax : ℤ) else rto
  { r with srtt, rttvar, rto := rto.toNat }

def currentRto (c : Conn) : ℕ := min (c.rtt.rto * 2 ^ c.tmr.rtoBackoff) rtoMax

def armRto (c : Conn) (now : ℕ) : Conn :=
  { c with tmr := { c.tmr with rtoDeadline := now + c.currentRto } }

def startRto (c : Conn) (now : ℕ) : Conn := if c.tmr.rtoDeadline = 0 then c.armRto now else c

/-- The segment `send_segment` puts on the wire: it acknowledges what has been received and
advertises what the receive buffer can still take. -/
def buildSegment (c : Conn) (seq : UInt32) (flags : UInt8) (payload : List UInt8) : Segment :=
  { sport := c.addr.localPort
    dport := c.addr.remotePort
    seq
    ack := if hasFlag flags thAck then c.rcv.nxt else 0
    flags
    wnd := UInt16.ofNat (min c.rcvSpace 65535)
    data := payload }

/-- `send_segment`. A round-trip sample starts only if none is being taken and the segment is
newly sent. -/
def sendSegment (c : Conn) (seq : UInt32) (flags : UInt8) (payload : List UInt8) (now : ℕ) :
    Conn :=
  { c with
    stats :=
      { c.stats with
        segsSent := c.stats.segsSent + 1
        bytesSent := c.stats.bytesSent + payload.length }
    out := c.out ++ [c.buildSegment seq flags payload]
    rtt :=
      if payload.length ≠ 0 ∧ c.rtt.timing = false ∧ seqGe seq c.snd.nxt then
        { c.rtt with timing := true, seq := seq + UInt32.ofNat payload.length, start := now }
      else c.rtt }

/-- The states in which `try_send` sends. -/
def canSend : State → Bool
  | .established | .closeWait | .finWait1 => true
  | _ => false

/-- How many bytes the next round of the loop of `try_send` sends: what is unsent, as far as the
windows and the segment size allow. In flight counts sequence space and can exceed the buffered
bytes by a SYN or FIN. -/
def sendable (c : Conn) : ℕ :=
  let flight := c.inFlight.toNat
  let window := min c.snd.wnd c.cc.cwnd
  if flight ≥ window then 0
  else
    let unsent := if flight ≤ c.snd.buf.len then c.snd.buf.len - flight else 0
    min (min unsent (window - flight)) mss

/-- One round of the loop of `try_send`: send the next `n` bytes. -/
def sendData (c : Conn) (n : ℕ) (now : ℕ) : Conn :=
  let seg := c.snd.buf.peek c.inFlight.toNat n
  let c := c.sendSegment c.snd.nxt (thAck ||| thPsh) seg now
  let c := { c with snd := { c.snd with nxt := c.snd.nxt + UInt32.ofNat n } }
  c.startRto now

/-- The loop of `try_send`. Each round sends at least one byte, so as many rounds as there are
bytes in the buffer are enough (`sendable_sendLoop_of_fuel`). -/
def sendLoop (now : ℕ) : ℕ → Conn → Conn
  | 0, c => c
  | fuel + 1, c => if c.sendable = 0 then c else sendLoop now fuel (c.sendData c.sendable now)

/-- The state after our FIN has gone out. -/
def finState : State → State
  | .established => .finWait1
  | .closeWait => .lastAck
  | st => st

/-- The end of `try_send`: the FIN goes out once everything queued has been sent. -/
def sendFin (c : Conn) (now : ℕ) : Conn :=
  if c.snd.finQueued && !c.snd.finSent && c.snd.buf.len == c.inFlight.toNat then
    let c := c.sendSegment c.snd.nxt (thAck ||| thFin) [] now
    let c := { c with snd := { c.snd with nxt := c.snd.nxt + 1, finSent := true } }
    let c := c.startRto now
    { c with state := finState c.state }
  else c

def trySend (c : Conn) (now : ℕ) : Conn :=
  if canSend c.state then (sendLoop now c.snd.buf.len c).sendFin now else c

def sendAck (c : Conn) (now : ℕ) : Conn :=
  let c := c.sendSegment c.snd.nxt thAck [] now
  { c with tmr := { c.tmr with delackDeadline := 0 } }

def sendRst (c : Conn) (seq : UInt32) (now : ℕ) : Conn :=
  c.sendSegment seq (thRst ||| thAck) [] now

/-! ## Reassembly -/

def oooInsert (c : Conn) (seq : UInt32) (p : List UInt8) : Conn :=
  if p.length = 0 ∨ mss < p.length then c
  else if c.rcv.ooo.any fun slot => slot.any fun held => held.seq == seq then c
  else
    match c.rcv.ooo.findFinIdx? Option.isNone with
    | some i =>
      { c with
        rcv := { c.rcv with ooo := c.rcv.ooo.set i.1 (some { seq, data := p }) i.2 }
        stats := { c.stats with oooQueued := c.stats.oooQueued + 1 } }
    | none => { c with stats := { c.stats with oooDropped := c.stats.oooDropped + 1 } }

end Conn

namespace Recv

/-- Take `p`, which starts at `nxt`, into the receive buffer as far as it fits: `rcv_push` and the
advance of `rcv_nxt`. -/
def take (r : Recv) (p : List UInt8) : Recv :=
  let n := min p.length r.buf.space
  { r with buf := r.buf.push (p.take n) (r.buf.length_take_space p), nxt := r.nxt + UInt32.ofNat n }

/-- The body of the inner loop of `ooo_drain` at slot `i`, with its `progress`. A slot that is
reached is freed even if the buffer has no room for it: its bytes have not been acknowledged. -/
def drainSlot (r : Recv) (i : Fin oooSegs) : Recv × Bool :=
  match r.ooo[i] with
  | none => (r, false)
  | some seg =>
    if seqGt seg.seq r.nxt then (r, false)
    else
      let r := { r with ooo := r.ooo.set i.1 none i.2 }
      if seqLe (seg.seq + UInt32.ofNat seg.data.length) r.nxt then (r, false)
      else
        let skip := (r.nxt - seg.seq).toNat
        let rest := seg.data.drop skip
        if min rest.length r.buf.space = 0 then (r, false) else (r.take rest, true)

/-- One pass of `ooo_drain` over the slots. -/
def drainPass (r : Recv) : Recv × Bool :=
  (List.finRange oooSegs).foldl
    (fun p i => ((p.1.drainSlot i).1, p.2 || (p.1.drainSlot i).2)) (r, false)

/-- The outer loop of `ooo_drain`. A pass that makes progress frees a slot, so one pass more than
there are slots is enough (`drained_drainLoop`). -/
def drainLoop : ℕ → Recv → Recv
  | 0, r => r
  | fuel + 1, r => if r.drainPass.2 then drainLoop fuel r.drainPass.1 else r.drainPass.1

end Recv

namespace Conn

def oooDrain (c : Conn) : Conn := { c with rcv := c.rcv.drainLoop (oooSegs + 1) }

/-! ## Input -/

/-- Half of what is in flight, but at least two segments: the slow-start threshold after a loss. -/
def lossThresh (c : Conn) : ℕ := max (c.inFlight.toNat / 2) (2 * mss)

/-- The first segment of the send buffer, sent again from `snd_una`. -/
def sendFirst (c : Conn) (now : ℕ) : Conn :=
  c.sendSegment c.snd.una (thAck ||| thPsh) (c.snd.buf.peek 0 (min c.snd.buf.len mss)) now

/-- The third duplicate acknowledgement in `handle_ack`: resend the first segment at once. -/
def fastRetransmit (c : Conn) (now : ℕ) : Conn :=
  let c :=
    { c with cc := { c.cc with ssthresh := c.lossThresh, cwnd := c.lossThresh + 3 * mss } }
  if min c.snd.buf.len mss > 0 then
    let c := c.sendFirst now
    { c with
      stats :=
        { c.stats with
          fastRetransmits := c.stats.fastRetransmits + 1
          retransmits := c.stats.retransmits + 1 } }
  else c

/-- How many buffered bytes an acknowledgement up to `ack` frees: SYN and FIN each occupy one
sequence number but no buffer space. -/
def dataAcked (c : Conn) (ack : UInt32) : ℕ :=
  let acked := (ack - c.snd.una).toNat
  let acked := if c.state = .synSent ∨ c.state = .synReceived then acked - 1 else acked
  let acked := if c.snd.finSent && seqGe ack c.snd.nxt then acked - 1 else acked
  min acked c.snd.buf.len

/-- The round-trip sample of `handle_ack`. Karn: only if the timed segment was never
retransmitted. -/
def sampleRtt (c : Conn) (ack : UInt32) (now : ℕ) : Conn :=
  if c.rtt.timing && seqGe ack c.rtt.seq then
    let rtt :=
      if c.tmr.rtoBackoff = 0 then updateRto c.rtt (Int.bmod ((now : ℤ) - c.rtt.start) (2 ^ 32))
      else c.rtt
    { c with rtt := { rtt with timing := false } }
  else c

/-- The retransmission timer after new data was acknowledged. -/
def rearmRto (c : Conn) (now : ℕ) : Conn :=
  let c := { c with tmr := { c.tmr with rtoBackoff := 0 } }
  if c.inFlight = 0 then { c with tmr := { c.tmr with rtoDeadline := 0 } } else c.armRto now

/-- Slow start and congestion avoidance. -/
def growCwnd (c : Conn) : Conn :=
  let cwnd :=
    if c.cc.cwnd < c.cc.ssthresh then c.cc.cwnd + mss
    else
      let inc := mss * mss / (if c.cc.cwnd ≠ 0 then c.cc.cwnd else 1)
      c.cc.cwnd + (if inc ≠ 0 then inc else 1)
  { c with cc := { c.cc with cwnd := min cwnd sndBufLen } }

/-- Free the acknowledged bytes and advance `snd_una`. -/
def freeAcked (c : Conn) (ack : UInt32) : Conn :=
  { c with
    cc := { c.cc with dupacks := 0 }
    snd := { c.snd with buf := c.snd.buf.drop (c.dataAcked ack), una := ack } }

/-- The part of `handle_ack` for an acknowledgement of something new. -/
def takeAck (c : Conn) (ack : UInt32) (now : ℕ) : Conn :=
  (((c.freeAcked ack).sampleRtt ack now).rearmRto now).growCwnd

def noteDupack (c : Conn) : Conn := { c with cc := { c.cc with dupacks := c.cc.dupacks + 1 } }

def handleAck (c : Conn) (ack : UInt32) (now : ℕ) : Conn :=
  if seqLe ack c.snd.una then
    if ack = c.snd.una ∧ 0 < c.inFlight.toNat then
      if c.noteDupack.cc.dupacks = 3 then c.noteDupack.fastRetransmit now else c.noteDupack
    else c
  else if seqGt ack c.snd.nxt then c
  else c.takeAck ack now

/-- `ka_active`: whether the idle timer means anything in this state. -/
def kaActive (c : Conn) : Bool :=
  c.tmr.kaDeadline != 0 &&
    (c.state == .established || c.state == .finWait2 || c.state == .closeWait)

/-- Any segment that passes the checks resets the idle timer. -/
def noteSegment (c : Conn) (now : ℕ) : Conn :=
  { c with
    stats := { c.stats with segsReceived := c.stats.segsReceived + 1 }
    tmr := { c.tmr with kaDeadline := now + keepaliveIdleMs, kaUnacked := 0 } }

def inputRst (c : Conn) (s : Segment) : Conn :=
  if c.state = .synSent ∨ s.seq = c.rcv.nxt then { c with reset := true, state := .closed } else c

/-- Take the peer's initial sequence number and window from its SYN. -/
def synchronise (c : Conn) (s : Segment) : Conn :=
  { c with
    rcv := { c.rcv with irs := s.seq, nxt := s.seq + 1 }
    snd := { c.snd with wnd := if s.wnd ≠ 0 then s.wnd.toNat else mss } }

/-- Start the send sequence space at `iss` in the state `st`. -/
def startSend (c : Conn) (iss : UInt32) (st : State) : Conn :=
  { c with snd := { c.snd with iss, una := iss, nxt := iss }, state := st }

/-- Send our SYN, which occupies the first sequence number. -/
def sendSyn (c : Conn) (flags : UInt8) (now : ℕ) : Conn :=
  let c := c.sendSegment c.snd.iss flags [] now
  { c with snd := { c.snd with nxt := c.snd.iss + 1 } }

/-- A segment in `LISTEN`. -/
def inputListen (c : Conn) (s : Segment) (iss : UInt32) (now : ℕ) : Conn :=
  if s.syn then
    let c := { c with addr := { c.addr with remotePort := s.sport } }
    ((((c.synchronise s).startSend iss .synReceived).sendSyn (thSyn ||| thAck) now).armRto now)
  else c

/-- A segment in `SYN_SENT`. -/
def inputSynSent (c : Conn) (s : Segment) (now : ℕ) : Conn :=
  if s.syn && s.acks then
    if s.ack ≠ c.snd.iss + 1 then c.sendRst s.ack now
    else
      let c := (c.synchronise s).handleAck s.ack now
      let c := { c with state := .established }
      (c.sendAck now).trySend now
  else c

/-- The handshake is complete once our SYN has been acknowledged. -/
def synAcked (c : Conn) : Conn :=
  if c.state = .synReceived ∧ seqGe c.snd.una (c.snd.iss + 1) then
    { c with state := .established }
  else c

/-- In-order payload: what is new of it goes to the receive buffer, as far as it fits, and closes
gaps. -/
def takeInOrder (c : Conn) (s : Segment) : Conn :=
  let rest := s.data.drop (c.rcv.nxt - s.seq).toNat
  let n := min rest.length c.rcvSpace
  if n > 0 then
    oooDrain
      { c with
        rcv := c.rcv.take rest
        stats := { c.stats with bytesReceived := c.stats.bytesReceived + n } }
  else c

/-- Schedule a delayed acknowledgement. -/
def delayAck (c : Conn) (now : ℕ) : Conn :=
  if c.tmr.delackDeadline = 0 then
    { c with tmr := { c.tmr with delackDeadline := now + delackMs } }
  else c

/-- Payload: anything wholly before `rcv_nxt` is a duplicate and acknowledged again, anything after
it goes to the reassembly store. -/
def acceptPayload (c : Conn) (s : Segment) (now : ℕ) : Conn :=
  if s.data.length > 0 ∧ c.rcv.finReceived = false then
    if seqLe s.seq c.rcv.nxt && seqGt (s.seq + UInt32.ofNat s.data.length) c.rcv.nxt then
      (c.takeInOrder s).delayAck now
    else if seqGt s.seq c.rcv.nxt then (c.oooInsert s.seq s.data).sendAck now
    else c.sendAck now
  else c

/-- A segment without data before `rcv_nxt` is a keepalive probe and is answered. -/
def answerProbe (c : Conn) (s : Segment) (now : ℕ) : Conn :=
  if s.data.length = 0 ∧ hasFlag s.flags (thFin ||| thSyn) = false ∧ seqGt c.rcv.nxt s.seq then
    c.sendAck now
  else c

/-- Enter `TIME_WAIT`. -/
def enterTimeWait (c : Conn) (now : ℕ) : Conn :=
  { c with
    state := .timeWait
    tmr := { c.tmr with timewaitDeadline := now + timewaitMs } }

def countFin (c : Conn) : Conn :=
  { c with rcv := { c.rcv with finReceived := true, nxt := c.rcv.nxt + 1 } }

/-- The state after the peer's FIN has been counted. -/
def closeRead (c : Conn) (now : ℕ) : Conn :=
  match c.state with
  | .established => { c with state := .closeWait }
  | .finWait1 =>
    if seqGe c.snd.una c.snd.nxt then c.enterTimeWait now else { c with state := .closing }
  | .finWait2 => c.enterTimeWait now
  | _ => c

/-- A FIN counts only once everything before it has been received. -/
def acceptFin (c : Conn) (s : Segment) (now : ℕ) : Conn :=
  if s.fin && seqLe (s.seq + UInt32.ofNat s.data.length) c.rcv.nxt && !c.rcv.finReceived then
    (c.countFin.sendAck now).closeRead now
  else c

/-- Our own FIN being acknowledged advances the closing states. -/
def finAcked (c : Conn) (now : ℕ) : Conn :=
  if c.snd.finSent && seqGe c.snd.una c.snd.nxt then
    match c.state with
    | .finWait1 => { c with state := .finWait2 }
    | .closing => c.enterTimeWait now
    | .lastAck => { c with state := .closed }
    | _ => c
  else c

/-- A SYN in these states is the peer retransmitting its handshake because our ACK was lost. -/
def answerSyn (c : Conn) (s : Segment) (now : ℕ) : Conn := if s.syn then c.sendAck now else c

def noteWindow (c : Conn) (s : Segment) : Conn :=
  { c with snd := { c.snd with wnd := s.wnd.toNat } }

def inputAck (c : Conn) (s : Segment) (now : ℕ) : Conn :=
  (((c.answerSyn s now).noteWindow s).handleAck s.ack now).synAcked

def inputSeq (c : Conn) (s : Segment) (now : ℕ) : Conn :=
  ((c.acceptPayload s now).answerProbe s now).acceptFin s now

/-- A segment in any other state, `CLOSED` included. -/
def inputOther (c : Conn) (s : Segment) (now : ℕ) : Conn :=
  if s.acks then (((c.inputAck s now).inputSeq s now).finAcked now).trySend now else c

/-- `tc_tcp_input` from the point where the packet has passed all checks. -/
def inputSegment (c : Conn) (s : Segment) (iss : UInt32) (now : ℕ) : Conn :=
  let c := c.noteSegment now
  if s.rst then c.inputRst s
  else
    match c.state with
    | .listen => c.inputListen s iss now
    | .synSent => c.inputSynSent s now
    | _ => c.inputOther s now

/-- `tc_tcp_input`, with the initial sequence number `iss` in case the connection listens. It
always returns `TC_OK`. -/
def tcpInput (c : Conn) (pkt : List UInt8) (iss : UInt32) (now : ℕ) : Conn :=
  let c := c.stamp now
  match parse c pkt with
  | .ignored => c
  | .badChecksum =>
    { c with stats := { c.stats with segsDroppedChecksum := c.stats.segsDroppedChecksum + 1 } }
  | .segment s => c.inputSegment s iss now

/-! ## Opening -/

/-- `tc_tcp_new`. The two buffers are uninitialised memory. -/
def tcpNew (localIp remoteIp : Ipv6Addr) (sndMem rcvMem : ℕ → UInt8) : Conn :=
  { addr := { localIp, remoteIp, localPort := 0, remotePort := 0 }, state := .closed
    snd :=
      { una := 0, nxt := 0, iss := 0, wnd := mss, buf := .empty sndMem (by decide)
        finQueued := false, finSent := false }
    rcv :=
      { nxt := 0, irs := 0, buf := .empty rcvMem (by decide), ooo := Vector.replicate _ none
        finReceived := false }
    cc := { cwnd := 2 * mss, ssthresh := 64 * 1024, dupacks := 0 }
    rtt := { srtt := -1, rttvar := 0, rto := rtoInitial, timing := false, seq := 0, start := 0 }
    tmr :=
      { rtoDeadline := 0, delackDeadline := 0, timewaitDeadline := 0, kaDeadline := 0
        rtoBackoff := 0, kaUnacked := 0 }
    reset := false, lastNow := 0, stats := {}, out := [] }

/-- `tc_tcp_connect`, with the initial sequence number `iss`. -/
def tcpConnect (c : Conn) (localPort remotePort : UInt16) (iss : UInt32) (now : ℕ) : Conn × Rc :=
  if c.state ≠ .closed then (c, .inval)
  else
    let c := { c with addr := { c.addr with localPort, remotePort } }
    (((c.startSend iss .synSent).sendSyn thSyn now).armRto now, .ok)

def tcpListen (c : Conn) (localPort : UInt16) : Conn × Rc :=
  if c.state ≠ .closed then (c, .inval)
  else ({ c with addr := { c.addr with localPort }, state := .listen }, .ok)

/-! ## Timers -/

/-- The `TIME_WAIT` timer of `tc_tcp_tick`. -/
def tickTimewait (c : Conn) (now : ℕ) : Conn :=
  if c.tmr.timewaitDeadline ≠ 0 ∧ now ≥ c.tmr.timewaitDeadline then
    { c with state := .closed, tmr := { c.tmr with timewaitDeadline := 0 } }
  else c

/-- The delayed-ACK timer of `tc_tcp_tick`. -/
def tickDelack (c : Conn) (now : ℕ) : Conn :=
  if c.tmr.delackDeadline ≠ 0 ∧ now ≥ c.tmr.delackDeadline then c.sendAck now else c

/-- A keepalive probe: a garbage octet at the sequence number before the next. -/
def sendProbe (c : Conn) (now : ℕ) : Conn :=
  let c := c.sendSegment (c.snd.nxt - 1) thAck [0] now
  { c with
    tmr := { c.tmr with kaUnacked := c.tmr.kaUnacked + 1, kaDeadline := now + keepaliveIntvlMs } }

def kaDue (c : Conn) (now : ℕ) : Bool := c.kaActive && decide (now ≥ c.tmr.kaDeadline)

def rtoDue (c : Conn) (now : ℕ) : Bool :=
  c.tmr.rtoDeadline != 0 && decide (now ≥ c.tmr.rtoDeadline)

/-- What a retransmission timeout resends. -/
def resend (c : Conn) (now : ℕ) : Conn :=
  if c.state = .synSent then c.sendSegment c.snd.iss thSyn [] now
  else if c.state = .synReceived then c.sendSegment c.snd.iss (thSyn ||| thAck) [] now
  else if c.snd.buf.len > 0 then c.sendFirst now
  else if c.snd.finSent then c.sendSegment (c.snd.nxt - 1) (thAck ||| thFin) [] now
  else c

/-- A timeout means congestion: drop to one segment and back off. -/
def backOff (c : Conn) : Conn :=
  { c with
    cc := { ssthresh := c.lossThresh, cwnd := mss, dupacks := 0 }
    rtt := { c.rtt with timing := false }
    tmr := { c.tmr with rtoBackoff := c.tmr.rtoBackoff + 1 }
    stats := { c.stats with retransmits := c.stats.retransmits + 1 } }

def retransmit (c : Conn) (now : ℕ) : Conn := (c.backOff.resend now).armRto now

/-- The retransmission timer of `tc_tcp_tick`, and what follows it. -/
def tickRto (c : Conn) (now : ℕ) : Conn × Rc :=
  if c.rtoDue now then
    if c.tmr.rtoBackoff ≥ maxRetries then
      ({ c with state := .closed, reset := true, tmr := { c.tmr with rtoDeadline := 0 } }, .timeout)
    else ((c.retransmit now).trySend now, .ok)
  else (c.trySend now, .ok)

/-- The idle timer of `tc_tcp_tick`, and what follows it: probe an idle connection, and give up on
one that never answers. -/
def tickKeepalive (c : Conn) (now : ℕ) : Conn × Rc :=
  if c.kaDue now then
    if c.tmr.kaUnacked ≥ keepaliveProbes then
      ({ c with state := .closed, reset := true, tmr := { c.tmr with kaDeadline := 0 } }, .timeout)
    else (c.sendProbe now).tickRto now
  else c.tickRto now

def tcpTick (c : Conn) (now : ℕ) : Conn × Rc :=
  (((c.stamp now).tickTimewait now).tickDelack now).tickKeepalive now

def nextDeadline (c : Conn) : ℕ :=
  let d := noDeadline
  let d := if c.tmr.rtoDeadline ≠ 0 ∧ c.tmr.rtoDeadline < d then c.tmr.rtoDeadline else d
  let d := if c.tmr.delackDeadline ≠ 0 ∧ c.tmr.delackDeadline < d then c.tmr.delackDeadline else d
  let d :=
    if c.tmr.timewaitDeadline ≠ 0 ∧ c.tmr.timewaitDeadline < d then c.tmr.timewaitDeadline else d
  if c.kaActive ∧ c.tmr.kaDeadline < d then c.tmr.kaDeadline else d

/-! ## Caller interface -/

/-- The states in which `tc_tcp_write` accepts data. -/
def canWrite : State → Bool
  | .established | .closeWait | .synSent | .synReceived => true
  | _ => false

/-- `tc_tcp_write`, with the number of bytes written. -/
def tcpWrite (c : Conn) (buf : List UInt8) (now : ℕ) : Conn × Rc × ℕ :=
  let c := c.stamp now
  if c.snd.finQueued then (c, .inval, 0)
  else if canWrite c.state = false then (c, .inval, 0)
  else
    let n := min buf.length c.sndSpace
    ((c.sndPush (buf.take n) (c.snd.buf.length_take_space buf)).trySend now, .ok, n)

def isEstablished (c : Conn) : Bool :=
  match c.state with
  | .established | .closeWait | .finWait1 | .finWait2 => true
  | _ => false

/-- `tc_tcp_read`, with the bytes read. Reopening a closed window announces itself. -/
def tcpRead (c : Conn) (cap : ℕ) : Conn × List UInt8 :=
  let spaceBefore := c.rcvSpace
  let n := min c.rcv.buf.len cap
  let bytes := c.rcv.buf.peek 0 n
  let c := { c with rcv := { c.rcv with buf := c.rcv.buf.drop n } }
  if n > 0 ∧ spaceBefore < mss ∧ c.rcvSpace ≥ mss ∧ c.isEstablished then
    (c.sendAck c.lastNow, bytes)
  else (c, bytes)

def queueFin (c : Conn) : Conn := { c with snd := { c.snd with finQueued := true } }

def tcpShutdownWrite (c : Conn) (now : ℕ) : Conn × Rc :=
  if c.snd.finQueued then (c, .ok)
  else if c.state ≠ .established ∧ c.state ≠ .closeWait then (c, .inval)
  else (c.queueFin.trySend now, .ok)

def tcpAbort (c : Conn) (now : ℕ) : Conn :=
  if c.state = .closed then c
  else
    let c := c.sendRst c.snd.nxt now
    { c with
      state := .closed
      tmr := { c.tmr with rtoDeadline := 0, delackDeadline := 0, timewaitDeadline := 0 } }

def readClosed (c : Conn) : Bool := c.rcv.finReceived && c.rcv.buf.len == 0

/-! ## Calls -/

/-- The calls an owner makes on an open connection. `iss` is the random number drawn if the input
opens a listening connection. -/
inductive Call
  | input (pkt : List UInt8) (iss : UInt32) (now : ℕ)
  | tick (now : ℕ)
  | write (buf : List UInt8) (now : ℕ)
  | read (cap : ℕ)
  | shutdownWrite (now : ℕ)
  | abort (now : ℕ)

def step (c : Conn) : Call → Conn
  | .input pkt iss now => c.tcpInput pkt iss now
  | .tick now => (c.tcpTick now).1
  | .write buf now => (c.tcpWrite buf now).1
  | .read cap => (c.tcpRead cap).1
  | .shutdownWrite now => (c.tcpShutdownWrite now).1
  | .abort now => c.tcpAbort now

/-- A condition on the time of a tick, and one on the segment that a packet carries. -/
def Call.Meets (c : Conn) (tick : ℕ → Prop) (segment : Segment → Prop) : Call → Prop
  | .tick now => tick now
  | .input pkt _ _ =>
    match parse c pkt with
    | .segment s => segment s
    | .ignored | .badChecksum => True
  | .write _ _ | .read _ | .shutdownWrite _ | .abort _ => True

instance (c : Conn) (tick : ℕ → Prop) (segment : Segment → Prop) [DecidablePred tick]
    [DecidablePred segment] : (call : Call) → Decidable (call.Meets c tick segment)
  | .tick .. | .input .. | .write .. | .read .. | .shutdownWrite .. | .abort .. => by
    dsimp only [Call.Meets]
    try split
    all_goals infer_instance

/-- A connection that has just been opened, actively or passively. -/
inductive Opened : Conn → Prop
  | connect (localIp remoteIp : Ipv6Addr) (sndMem rcvMem : ℕ → UInt8)
      (localPort remotePort : UInt16) (iss : UInt32) (now : ℕ) :
      Opened ((tcpNew localIp remoteIp sndMem rcvMem).tcpConnect localPort remotePort iss now).1
  | listen (localIp remoteIp : Ipv6Addr) (sndMem rcvMem : ℕ → UInt8) (localPort : UInt16) :
      Opened ((tcpNew localIp remoteIp sndMem rcvMem).tcpListen localPort).1

end Conn

end Tcp
