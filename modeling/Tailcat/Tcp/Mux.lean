import Tailcat.Basic
import Tailcat.Library.Fields
import Tailcat.Library.SwapRemove
import Tailcat.Tcp.Machine

/-!
# The TCP multiplexer

The functions of `src/net/tcpmux.c`, and `tc_tcp_reject` of `src/net/tcp.c`, which only the multiplexer
calls. The table of the source holds pointers; an entry here is a connection with the number `ptr` that
stands for its address, given out in the order of allocation and never again. The random draws, the
memory that `calloc` finds and the answer of the output callback are arguments.
-/

namespace Tcp

open ByteOrder

deriving instance DecidableEq for Addr

/-! ## Constants -/

/-- `TC_TCP_MAX_CONNS`. -/
def maxConns : ℕ := 64
/-- `TC_TCP_MAX_LISTENERS`. -/
def maxListeners : ℕ := 16
/-- `TC_TCP_BACKLOG`. -/
def backlogLen : ℕ := 8
/-- `TC_TCP_EPHEMERAL_LO`. -/
def ephemeralLo : UInt16 := 49152
/-- `TC_TCP_EPHEMERAL_HI`. -/
def ephemeralHi : UInt16 := 65535
/-- How many ephemeral ports there are, the `span` of the port searches. -/
def ephemeralSpan : ℕ := 65535 - 49152 + 1

/-! ## Refusals -/

def addrAt (pkt : List UInt8) (off : ℕ) : Ipv6Addr := Fields.bytesAt 16 pkt off

/-- The checks with which `tc_tcp_mux_input` and `tc_tcp_reject` begin: an IPv6 packet with a whole
TCP header. -/
def carriesTcp (pkt : List UInt8) : Bool :=
  decide (ipv6HeaderLen + tcpHeaderLen ≤ pkt.length) &&
    (pkt.getD 0 0 >>> 4 == 6 && pkt.getD 6 0 == 6) &&
    decide (tcpHeaderLen ≤ (rd16 pkt 4).toNat ∧ ipv6HeaderLen + (rd16 pkt 4).toNat ≤ pkt.length)

/-- `tc_tcp_reject`: the reset that goes back for a segment nobody owns. `none` is `TC_ERR_INVAL`:
a malformed packet, or a reset, which is never answered. -/
def tcpReject (pkt : List UInt8) : Option (List UInt8) :=
  if carriesTcp pkt = false then none
  else
    let payloadTotal := (rd16 pkt 4).toNat
    let th := pkt.drop ipv6HeaderLen
    let inFlags := th.getD 13 0
    if hasFlag inFlags thRst then none
    else
      let doff := (th.getD 12 0 >>> 4).toNat * 4
      if doff < tcpHeaderLen ∨ doff > payloadTotal then none
      else
        let segLen := UInt32.ofNat (payloadTotal - doff) +
          (if hasFlag inFlags thSyn then 1 else 0) + (if hasFlag inFlags thFin then 1 else 0)
        -- An acknowledgement says which sequence number the reset must carry.
        let (seq, ack, flags) :=
          if hasFlag inFlags thAck then (rd32 th 8, (0 : UInt32), thRst)
          else ((0 : UInt32), rd32 th 4 + segLen, thRst ||| thAck)
        some <| packet (addrAt pkt 24) (addrAt pkt 8)
          { sport := rd16 th 2, dport := rd16 th 0, seq, ack, flags, wnd := 0, data := [] }

/-! ## The multiplexer -/

/-- A connection of the table, with the number that stands for its address in memory. -/
structure Entry where
  ptr : ℕ
  conn : Conn

structure MuxStats where
  accepted : ℕ := 0
  dialled : ℕ := 0
  rejectedPort : ℕ := 0
  rejectedFull : ℕ := 0
  reaped : ℕ := 0

/-- `tc_tcp_mux`. The output callback is modelled by the log `resets` of what the multiplexer itself
hands to it; each connection keeps its own. -/
structure Mux where
  localIp : Ipv6Addr
  remoteIp : Ipv6Addr
  conns : List Entry
  listeners : List UInt16
  acceptFilter : Option (UInt16 → Bool)
  /-- The connections that wait to be accepted, oldest first: borrowed pointers. -/
  backlog : List ℕ
  nextPort : UInt16
  exitNode : Bool
  stats : MuxStats
  resets : List (List UInt8)
  /-- How many connections have been allocated: the next number for a pointer. -/
  allocated : ℕ

/-- The uninitialised memory of the two buffers of a new connection. -/
structure Memory where
  snd : ℕ → UInt8
  rcv : ℕ → UInt8

/-- What a call finds in its environment: memory for one connection, unless `calloc` fails, and an
initial sequence number. -/
structure Draw where
  mem : Option Memory
  iss : UInt32

namespace Mux

def ptrs (m : Mux) : List ℕ := m.conns.map Entry.ptr

/-! ## Table -/

/-- `find_conn`; an address that is not given matches any. -/
def findConn (m : Mux) (localIp : Option Ipv6Addr) (localPort : UInt16)
    (remoteIp : Option Ipv6Addr) (remotePort : UInt16) : Option Entry :=
  m.conns.find? fun e =>
    decide (e.conn.addr.localPort = localPort ∧ e.conn.addr.remotePort = remotePort) &&
      localIp.all (· == e.conn.addr.localIp) && remoteIp.all (· == e.conn.addr.remoteIp)

def localPortInUse (m : Mux) (port : UInt16) : Bool :=
  m.conns.any fun e => e.conn.addr.localPort == port

/-- `drop_at`: the connection is taken off the backlog, and the last entry fills its place in the
table. -/
def dropAt (m : Mux) (idx : ℕ) : Mux :=
  match m.conns[idx]? with
  | none => m
  | some e => { m with backlog := m.backlog.erase e.ptr, conns := swapRemove m.conns idx }

/-- The search for a pointer in the table, and `drop_at` where it is found. -/
def dropPtr (m : Mux) (ptr : ℕ) : Mux :=
  match m.conns.findIdx? (·.ptr == ptr) with
  | none => m
  | some i => m.dropAt i

def register (m : Mux) (c : Conn) : Mux :=
  { m with conns := m.conns ++ [⟨m.allocated, c⟩], allocated := m.allocated + 1 }

/-- What a function of `tcp.c` does to the connection behind a pointer. -/
def updateConn (m : Mux) (ptr : ℕ) (f : Conn → Conn) : Mux :=
  { m with conns := m.conns.map fun e => if e.ptr = ptr then { e with conn := f e.conn } else e }

/-- `tc_tcp_mux_new`, with the random `seed` of the port search. -/
def muxNew (localIp remoteIp : Ipv6Addr) (seed : UInt16) : Mux :=
  { localIp, remoteIp, conns := [], listeners := [], acceptFilter := none, backlog := []
    nextPort := ephemeralLo + UInt16.ofNat (seed.toNat % ephemeralSpan), exitNode := false
    stats := {}, resets := [], allocated := 0 }

/-! ## Listeners -/

/-- `tc_tcp_mux_is_listening`: the filter can only widen the list. -/
def isListening (m : Mux) (port : UInt16) : Bool :=
  if port = 0 then false
  else if m.listeners.contains port then true
  else m.acceptFilter.any (· port)

def listen (m : Mux) (port : UInt16) : Mux × Except Err Unit :=
  if port = 0 then (m, .error .inval)
  else if m.isListening port then (m, .error .exist)
  else if m.listeners.length ≥ maxListeners then (m, .error .toomany)
  else ({ m with listeners := m.listeners ++ [port] }, .ok ())

def unlisten (m : Mux) (port : UInt16) : Mux × Except Err Unit :=
  if m.listeners.contains port then ({ m with listeners := m.listeners.erase port }, .ok ())
  else (m, .error .inval)

/-! ## Opening -/

/-- The end of `tc_tcp_mux_connect_from` and of a round of `tc_tcp_mux_connect_to`: a new connection
to `dst` is registered and sends its SYN. -/
def dial (m : Mux) (dst : Ipv6Addr) (localPort remotePort : UInt16) (draw : Draw) (now : ℕ) :
    Mux × Except Err ℕ :=
  match draw.mem with
  | none => (m, .error .nospace)
  | some mem =>
    let (c, rc) :=
      (Conn.tcpNew m.localIp dst mem.snd mem.rcv).tcpConnect localPort remotePort draw.iss now
    -- The source registers the connection before the SYN goes out, so that the output callback may
    -- deliver it at once; what happens inside the callback is not modelled.
    let m' := m.register c
    if rc ≠ .ok then (m'.dropAt (m'.conns.length - 1), .error .inval)
    else ({ m' with stats := { m'.stats with dialled := m'.stats.dialled + 1 } }, .ok m.allocated)

def connectFrom (m : Mux) (localPort remotePort : UInt16) (draw : Draw) (now : ℕ) :
    Mux × Except Err ℕ :=
  if localPort = 0 ∨ remotePort = 0 then (m, .error .inval)
  else if m.conns.length ≥ maxConns then (m, .error .toomany)
  else if (m.findConn (some m.localIp) localPort none remotePort).isSome then (m, .error .exist)
  else m.dial m.remoteIp localPort remotePort draw now

def portAfter (port : UInt16) : UInt16 := if port ≥ ephemeralHi then ephemeralLo else port + 1

/-- The search for a free ephemeral port: as many tries as there are ports. -/
def pickPort : ℕ → Mux → Mux × Option UInt16
  | 0, m => (m, none)
  | tries + 1, m =>
    let port := m.nextPort
    let m := { m with nextPort := portAfter port }
    if m.localPortInUse port || m.isListening port then pickPort tries m else (m, some port)

def connectTo (m : Mux) (dst : Ipv6Addr) (remotePort : UInt16) (draw : Draw) (now : ℕ) :
    Mux × Except Err ℕ :=
  if remotePort = 0 then (m, .error .inval)
  else if m.conns.length ≥ maxConns then (m, .error .toomany)
  else
    match m.pickPort ephemeralSpan with
    | (m, none) => (m, .error .toomany)
    | (m, some port) => m.dial dst port remotePort draw now

def connect (m : Mux) (remotePort : UInt16) (draw : Draw) (now : ℕ) : Mux × Except Err ℕ :=
  match m.pickPort ephemeralSpan with
  | (m, none) => (m, .error .toomany)
  | (m, some port) => m.connectFrom port remotePort draw now

/-! ## Input -/

/-- Hand the reset for a packet to the output callback. -/
def reject (m : Mux) (pkt : List UInt8) : Mux :=
  { m with resets := m.resets ++ (tcpReject pkt).toList }

/-- `accept_syn`. A connection that does not reach `SYN_RECEIVED` has refused the segment and is
dropped again. -/
def acceptSyn (m : Mux) (localIp : Ipv6Addr) (localPort : UInt16) (pkt : List UInt8) (draw : Draw)
    (now : ℕ) : Mux :=
  let refuse := { m with stats := { m.stats with rejectedFull := m.stats.rejectedFull + 1 } }
  if m.conns.length ≥ maxConns ∨ m.backlog.length ≥ backlogLen then refuse.reject pkt
  else
    match draw.mem with
    | none => refuse.reject pkt
    | some mem =>
      let (c, rc) := (Conn.tcpNew localIp m.remoteIp mem.snd mem.rcv).tcpListen localPort
      if rc ≠ .ok then m
      else
        let c := c.tcpInput pkt draw.iss now
        let m' := m.register c
        if c.state ≠ .synReceived then m'.dropAt (m'.conns.length - 1)
        else
          { m' with
            backlog := m'.backlog ++ [m.allocated]
            stats := { m'.stats with accepted := m'.stats.accepted + 1 } }

/-- The addresses and ports of a packet, as the end it is addressed to sees them. -/
def fourTuple (pkt : List UInt8) : Addr :=
  { localIp := addrAt pkt 24, remoteIp := addrAt pkt 8
    localPort := rd16 (pkt.drop ipv6HeaderLen) 2, remotePort := rd16 (pkt.drop ipv6HeaderLen) 0 }

/-- The packet is a SYN without ACK and RST. -/
def bareSyn (pkt : List UInt8) : Bool :=
  let flags := (pkt.drop ipv6HeaderLen).getD 13 0
  hasFlag flags thSyn && !hasFlag flags (thAck ||| thRst)

/-- Whether a SYN for these ends is accepted: addressed to us, the listeners decide; addressed beyond
us, every port is open to an exit node. -/
def admits (m : Mux) (tuple : Addr) : Bool :=
  if tuple.localIp = m.localIp then m.isListening tuple.localPort else m.exitNode

/-- The part of `tc_tcp_mux_input` for a packet that no connection owns: its addresses decide what
it means. -/
def inputUnowned (m : Mux) (pkt : List UInt8) (draw : Draw) (sent : Bool) (now : ℕ) : Mux :=
  let tuple := fourTuple pkt
  if tuple.remoteIp ≠ m.remoteIp then m
  else if tuple.localIp ≠ m.localIp ∧ m.exitNode = false then m
  else if bareSyn pkt && m.admits tuple then
    m.acceptSyn tuple.localIp tuple.localPort pkt draw now
  else
    let m := m.reject pkt
    if (tcpReject pkt).isSome && sent then
      { m with stats := { m.stats with rejectedPort := m.stats.rejectedPort + 1 } }
    else m

/-- `tc_tcp_mux_input`. A bare SYN for a pair in `TIME_WAIT` is the peer reusing the port. -/
def input (m : Mux) (pkt : List UInt8) (draw : Draw) (sent : Bool) (now : ℕ) : Mux :=
  if carriesTcp pkt = false then m
  else
    let tuple := fourTuple pkt
    match m.findConn (some tuple.localIp) tuple.localPort (some tuple.remoteIp) tuple.remotePort with
    | some e =>
      if e.conn.state = .timeWait ∧ bareSyn pkt then
        (m.dropPtr e.ptr).inputUnowned pkt draw sent now
      else m.updateConn e.ptr fun c => c.tcpInput pkt draw.iss now
    | none => m.inputUnowned pkt draw sent now

/-! ## Accepting, driving, reaping -/

def accept (m : Mux) : Mux × Option ℕ :=
  match m.backlog with
  | [] => (m, none)
  | p :: rest => ({ m with backlog := rest }, some p)

def tick (m : Mux) (now : ℕ) : Mux :=
  { m with conns := m.conns.map fun e => { e with conn := (e.conn.tcpTick now).1 } }

def close (m : Mux) (ptr : ℕ) (now : ℕ) : Mux :=
  (m.updateConn ptr fun c => if c.state ≠ .closed then c.tcpAbort now else c).dropPtr ptr

/-- The loop of `tc_tcp_mux_reap` at index `i`, with the number of connections freed. After a
removal the last entry is at `i`, so the index stays. -/
def reapLoop : ℕ → ℕ → Mux → Mux × ℕ
  | 0, _, m => (m, 0)
  | fuel + 1, i, m =>
    match m.conns[i]? with
    | none => (m, 0)
    | some e =>
      if e.conn.state = .closed then
        let (m, freed) := reapLoop fuel i (m.dropAt i)
        (m, freed + 1)
      else reapLoop fuel (i + 1) m

/-- `tc_tcp_mux_reap`. Each round advances or removes an entry, so as many rounds as there are
entries are enough (`drops_reapLoop`). -/
def reap (m : Mux) : Mux × ℕ :=
  let (m, freed) := m.reapLoop m.conns.length 0
  ({ m with stats := { m.stats with reaped := m.stats.reaped + freed } }, freed)

/-! ## Calls -/

/-- The calls an owner makes, on the multiplexer or on a connection it has got from it. -/
inductive Call
  | listen (port : UInt16)
  | unlisten (port : UInt16)
  | setAcceptFilter (fn : Option (UInt16 → Bool))
  | setExitNode (on : Bool)
  | connect (remotePort : UInt16) (draw : Draw) (now : ℕ)
  | connectFrom (localPort remotePort : UInt16) (draw : Draw) (now : ℕ)
  | connectTo (dst : Ipv6Addr) (remotePort : UInt16) (draw : Draw) (now : ℕ)
  | input (pkt : List UInt8) (draw : Draw) (sent : Bool) (now : ℕ)
  | accept
  | tick (now : ℕ)
  | close (ptr : ℕ) (now : ℕ)
  | reap
  | onConn (ptr : ℕ) (call : Conn.Call)

def step (m : Mux) : Call → Mux
  | .listen port => (m.listen port).1
  | .unlisten port => (m.unlisten port).1
  | .setAcceptFilter fn => { m with acceptFilter := fn }
  | .setExitNode on => { m with exitNode := on }
  | .connect remotePort draw now => (m.connect remotePort draw now).1
  | .connectFrom localPort remotePort draw now => (m.connectFrom localPort remotePort draw now).1
  | .connectTo dst remotePort draw now => (m.connectTo dst remotePort draw now).1
  | .input pkt draw sent now => m.input pkt draw sent now
  | .accept => m.accept.1
  | .tick now => m.tick now
  | .close ptr now => m.close ptr now
  | .reap => m.reap.1
  | .onConn ptr call => m.updateConn ptr fun c => c.step call

def run (m : Mux) (calls : List Call) : Mux := calls.foldl step m

end Mux

end Tcp
