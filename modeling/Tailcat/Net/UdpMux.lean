import Tailcat.Basic
import Tailcat.Net.Endpoint
import Tailcat.Tcp.Packet

/-!
# The UDP multiplexer

The functions of `src/net/udpmux.c`. A binding slot that is not in use is `none`; a binding without
`has_remote_ip` has no remote address and stands for the peer. The queue is a ring in the source and a
list here, oldest first. The output callback is modelled by the log `sent`; what it answers is the
result of a send and changes nothing.
-/

namespace Udp

open ByteOrder Fields
open Tcp (Ipv6Addr csumAdd csumFold rd16 wr16 wr32 ipv6HeaderLen)
open Net (Endpoint)

/-! ## Constants -/

/-- `TC_UDP_HEADER_LEN`. -/
def udpHeaderLen : ℕ := 8
/-- `TC_UDP_MAX_DGRAM`. -/
def maxDgram : ℕ := Tcp.mss + Tcp.tcpHeaderLen - udpHeaderLen
/-- `TC_UDPMUX_MAX_BINDINGS`. -/
def maxBindings : ℕ := 64
/-- `TC_UDPMUX_MAX_LISTENERS`. -/
def maxListeners : ℕ := 16
/-- `TC_UDPMUX_QUEUE`. -/
def queueLen : ℕ := 32
/-- `TC_UDPMUX_BINDING_IDLE_MS`. -/
def bindingIdleMs : ℕ := 2 * 60 * 1000
/-- `TC_UDP_EPHEMERAL_LO`. -/
def ephemeralLo : UInt16 := 49152
/-- `TC_UDP_EPHEMERAL_HI`. -/
def ephemeralHi : UInt16 := 65535
/-- How many ephemeral ports there are, the `span` of `tc_udp_mux_bind`. -/
def ephemeralSpan : ℕ := 65535 - 49152 + 1

/-! ## Packets -/

/-- The part of the IPv6 pseudo-header behind the addresses: the length and the next header. -/
def pseudoHeader (udpLen : ℕ) : List UInt8 := wr32 (UInt32.ofNat udpLen) ++ [0, 0, 0, 17]

/-- The sum of `udp_checksum`, over the IPv6 pseudo-header and the datagram. -/
def udpSum (src dst : Ipv6Addr) (udp : List UInt8) : UInt32 :=
  let sum := csumAdd 0 src.toList
  let sum := csumAdd sum dst.toList
  let sum := csumAdd sum (pseudoHeader udp.length)
  csumAdd sum udp

def udpChecksum (src dst : Ipv6Addr) (udp : List UInt8) : UInt16 := csumFold (udpSum src dst udp)

/-- The UDP header with the checksum field `ck`. -/
def udpHeader (srcPort dstPort : UInt16) (udpLen : ℕ) (ck : UInt16) : List UInt8 :=
  wr16 srcPort ++ wr16 dstPort ++ wr16 (UInt16.ofNat udpLen) ++ wr16 ck

/-- The checksum that is sent: a computed zero goes out as all ones, since zero means that there is
no checksum. -/
def sentChecksum (src dst : Ipv6Addr) (srcPort dstPort : UInt16) (data : List UInt8) : UInt16 :=
  let udpLen := udpHeaderLen + data.length
  let ck := udpChecksum src dst (udpHeader srcPort dstPort udpLen 0 ++ data)
  if ck = 0 then 0xffff else ck

/-- The packet that `send_one` and `tc_udp_mux_send_as` build. -/
def udpPacket (src dst : Ipv6Addr) (srcPort dstPort : UInt16) (data : List UInt8) : List UInt8 :=
  let udpLen := udpHeaderLen + data.length
  [0x60, 0, 0, 0] ++ wr16 (UInt16.ofNat udpLen) ++ [17, 64] ++ src.toList ++ dst.toList ++
    (udpHeader srcPort dstPort udpLen (sentChecksum src dst srcPort dstPort data) ++ data)

def isUdp (pkt : List UInt8) : Bool :=
  decide (ipv6HeaderLen ≤ pkt.length) && pkt.getD 0 0 >>> 4 == 6 && pkt.getD 6 0 == 17

/-- A datagram as it is read from a packet. -/
structure Datagram where
  src : Ipv6Addr
  dst : Ipv6Addr
  srcPort : UInt16
  dstPort : UInt16
  data : List UInt8
  deriving DecidableEq

/-- Why `tc_udp_mux_input` drops a packet: the counter that goes up. -/
inductive Drop
  | notUdp
  | malformed
  | checksum
  | noListener
  | queueFull
  deriving DecidableEq

/-- The checks of `tc_udp_mux_input` from the lengths to the ports, in the order of the source. -/
def readDatagram (pkt : List UInt8) : Except Drop Datagram :=
  let payloadLen := (rd16 pkt 4).toNat
  if payloadLen < udpHeaderLen ∨ pkt.length < ipv6HeaderLen + payloadLen then .error .malformed
  else
    let uh := pkt.drop ipv6HeaderLen
    let udpLen := (rd16 uh 4).toNat
    if udpLen ≠ payloadLen ∨ udpLen < udpHeaderLen then .error .malformed
    else if rd16 uh 6 = 0 then .error .checksum
    -- Verifying with the field in place yields 0 when it is right.
    else if udpChecksum (bytesAt 16 pkt 8) (bytesAt 16 pkt 24) (uh.take udpLen) ≠ 0 then
      .error .checksum
    else if rd16 uh 0 = 0 ∨ rd16 uh 2 = 0 then .error .malformed
    else
      .ok
        { src := bytesAt 16 pkt 8, dst := bytesAt 16 pkt 24, srcPort := rd16 uh 0
          dstPort := rd16 uh 2, data := (uh.take udpLen).drop udpHeaderLen }

/-! ## The multiplexer -/

/-- A `binding` in use. -/
structure Binding where
  localPort : UInt16
  remotePort : UInt16
  remoteIp : Option Ipv6Addr
  lastUsed : ℕ
  deriving DecidableEq

/-- A datagram that waits, `queued`. -/
structure Queued where
  localPort : UInt16
  remotePort : UInt16
  /-- Unset if the datagram came from the peer to us. -/
  dst : Endpoint
  data : List UInt8
  deriving DecidableEq

structure Stats where
  dgramsSent : ℕ := 0
  dgramsReceived : ℕ := 0
  bytesSent : ℕ := 0
  bytesReceived : ℕ := 0
  droppedNotUdp : ℕ := 0
  droppedMalformed : ℕ := 0
  droppedChecksum : ℕ := 0
  droppedNoListener : ℕ := 0
  droppedQueueFull : ℕ := 0
  bindingsExpired : ℕ := 0

structure Mux where
  localIp : Ipv6Addr
  remoteIp : Ipv6Addr
  listeners : List UInt16
  accept : Option (UInt16 → Bool)
  bindings : Vector (Option Binding) maxBindings
  nextEphemeral : UInt16
  exitNode : Bool
  queue : List Queued
  stats : Stats
  sent : List (List UInt8)

/-- `touch`: a binding's idle timer only ever goes forwards. -/
def Binding.touch (b : Binding) (now : ℕ) : Binding :=
  if now > b.lastUsed then { b with lastUsed := now } else b

/-- The binding has been idle for too long at `now`. -/
def Binding.idleAt (b : Binding) (now : ℕ) : Bool := decide (now ≥ b.lastUsed + bindingIdleMs)

/-- The binding is that of the flow; no address means the peer. -/
def Binding.isFor (b : Binding) (localPort remotePort : UInt16) (remoteIp : Option Ipv6Addr) :
    Bool :=
  b.localPort == localPort && b.remotePort == remotePort && b.remoteIp == remoteIp

namespace Mux

def muxNew (localIp remoteIp : Ipv6Addr) : Mux :=
  { localIp, remoteIp, listeners := [], accept := none, bindings := Vector.replicate _ none
    nextEphemeral := ephemeralLo, exitNode := false, queue := [], stats := {}, sent := [] }

/-! ## Listeners -/

def listen (m : Mux) (port : UInt16) : Mux × Except Err Unit :=
  if port = 0 then (m, .error .inval)
  else if m.listeners.contains port then (m, .ok ())
  else if m.listeners.length ≥ maxListeners then (m, .error .toomany)
  else ({ m with listeners := m.listeners ++ [port] }, .ok ())

def listening (m : Mux) (port : UInt16) : Bool :=
  if m.listeners.contains port then true else m.accept.any (· port)

/-! ## Bindings -/

def findSlot (m : Mux) (p : Option Binding → Bool) : Option (Fin maxBindings) :=
  (List.finRange maxBindings).find? fun i => p m.bindings[i]

def findBinding (m : Mux) (localPort remotePort : UInt16) (remoteIp : Option Ipv6Addr) :
    Option (Fin maxBindings) :=
  m.findSlot fun slot => slot.any fun b => b.isFor localPort remotePort remoteIp

def freeSlot (m : Mux) : Option (Fin maxBindings) := m.findSlot Option.isNone

def setBinding (m : Mux) (i : Fin maxBindings) (b : Binding) : Mux :=
  { m with bindings := m.bindings.set i.1 (some b) i.2 }

/-- `touch` on the binding in a slot. -/
def touchAt (m : Mux) (i : Fin maxBindings) (now : ℕ) : Mux :=
  { m with bindings := m.bindings.set i.1 (m.bindings[i].map (·.touch now)) i.2 }

/-- `remember`. A full table loses only the way back. -/
def remember (m : Mux) (localPort remotePort : UInt16) (remoteIp : Option Ipv6Addr) (now : ℕ) :
    Mux :=
  match m.findBinding localPort remotePort remoteIp with
  | some i => m.touchAt i now
  | none =>
    match m.freeSlot with
    | some i => m.setBinding i { localPort, remotePort, remoteIp, lastUsed := now }
    | none => m

def localPortTaken (m : Mux) (port : UInt16) : Bool :=
  m.bindings.any (fun slot => slot.any fun b => b.localPort == port) || m.listeners.contains port

def portAfter (port : UInt16) : UInt16 := if port ≥ ephemeralHi then ephemeralLo else port + 1

/-- The walk over the ephemeral range in `tc_udp_mux_bind`. -/
def pickPort : ℕ → Mux → Mux × Option UInt16
  | 0, m => (m, none)
  | tries + 1, m =>
    let cand := m.nextEphemeral
    let m := { m with nextEphemeral := portAfter cand }
    if m.localPortTaken cand then pickPort tries m else (m, some cand)

/-- `tc_udp_mux_bind`, with the local port. A binding to the remote port is used again. -/
def bind (m : Mux) (remotePort : UInt16) (now : ℕ) : Mux × Except Err UInt16 :=
  if remotePort = 0 then (m, .error .inval)
  else
    match m.findSlot fun slot => slot.any fun b =>
      b.remoteIp.isNone && b.remotePort == remotePort with
    | some i =>
      match m.bindings[i] with
      | some b => (m.setBinding i (b.touch now), .ok b.localPort)
      -- The search finds only slots that are in use.
      | none => (m, .error .inval)
    | none =>
      match m.freeSlot with
      | none => (m, .error .toomany)
      | some i =>
        match m.pickPort ephemeralSpan with
        | (m, none) => (m, .error .toomany)
        | (m, some port) =>
          (m.setBinding i { localPort := port, remotePort, remoteIp := none, lastUsed := now },
            .ok port)

def tick (m : Mux) (now : ℕ) : Mux :=
  { m with
    bindings := m.bindings.map fun slot => slot.filter fun b => !b.idleAt now
    stats :=
      { m.stats with
        bindingsExpired := m.stats.bindingsExpired +
          m.bindings.toList.countP fun slot => slot.any fun b => b.idleAt now } }

/-! ## Sending -/

/-- Hand a packet with `n` bytes of data to the output callback. -/
def emit (m : Mux) (pkt : List UInt8) (n : ℕ) : Mux :=
  { m with
    stats :=
      { m.stats with dgramsSent := m.stats.dgramsSent + 1, bytesSent := m.stats.bytesSent + n }
    sent := m.sent ++ [pkt] }

/-- `send_one`. Every send is recorded, so that a flow that is talking does not expire. -/
def sendOne (m : Mux) (localPort remotePort : UInt16) (dst : Ipv6Addr) (data : List UInt8)
    (now : ℕ) : Mux × Except Err Unit :=
  if localPort = 0 ∨ remotePort = 0 then (m, .error .inval)
  else if data.length > maxDgram then (m, .error .toomany)
  else
    let remoteIp := if dst = m.remoteIp then none else some dst
    ((m.remember localPort remotePort remoteIp now).emit
      (udpPacket m.localIp dst localPort remotePort data) data.length, .ok ())

def send (m : Mux) (localPort remotePort : UInt16) (data : List UInt8) (now : ℕ) :
    Mux × Except Err Unit :=
  m.sendOne localPort remotePort m.remoteIp data now

def sendTo (m : Mux) (localPort : UInt16) (dst : Endpoint) (data : List UInt8) (now : ℕ) :
    Mux × Except Err Unit :=
  match dst.ip with
  | .v6 ip => m.sendOne localPort dst.port ip data now
  | _ => (m, .error .inval)

/-- `tc_udp_mux_send_as`: a datagram in the name of `src`, which opens no flow. -/
def sendAs (m : Mux) (src : Endpoint) (dstPort : UInt16) (data : List UInt8) :
    Mux × Except Err Unit :=
  match src.ip with
  | .v6 ip =>
    if dstPort = 0 then (m, .error .inval)
    else if src.port = 0 then (m, .error .inval)
    else if data.length > maxDgram then (m, .error .toomany)
    else (m.emit (udpPacket ip m.remoteIp src.port dstPort data) data.length, .ok ())
  | _ => (m, .error .inval)

/-! ## Receiving -/

def count (m : Mux) (d : Drop) : Mux :=
  { m with
    stats :=
      match d with
      | .notUdp => { m.stats with droppedNotUdp := m.stats.droppedNotUdp + 1 }
      | .malformed => { m.stats with droppedMalformed := m.stats.droppedMalformed + 1 }
      | .checksum => { m.stats with droppedChecksum := m.stats.droppedChecksum + 1 }
      | .noListener => { m.stats with droppedNoListener := m.stats.droppedNoListener + 1 }
      | .queueFull => { m.stats with droppedQueueFull := m.stats.droppedQueueFull + 1 } }

/-- What is queued for a datagram: one that was addressed beyond us keeps its destination, one from
beyond the peer its source. -/
def queuedFor (m : Mux) (d : Datagram) : Queued :=
  { localPort := d.dstPort, remotePort := d.srcPort, data := d.data
    dst :=
      if d.dst ≠ m.localIp then { ip := .v6 d.dst, port := d.dstPort }
      else if d.src ≠ m.remoteIp then { ip := .v6 d.src, port := d.srcPort }
      else { ip := .unset, port := 0 } }

/-- The binding that a datagram answers. One that is addressed beyond us answers none. -/
def bindingFor (m : Mux) (d : Datagram) : Option (Fin maxBindings) :=
  if d.dst = m.localIp then
    m.findBinding d.dstPort d.srcPort (if d.src = m.remoteIp then none else some d.src)
  else none

/-- The end of `tc_udp_mux_input`: the datagram is queued if there is room for it. -/
def enqueue (m : Mux) (d : Datagram) : Mux × Except Err Unit :=
  if d.data.length > maxDgram then (m.count .malformed, .error .inval)
  else if m.queue.length ≥ queueLen then (m.count .queueFull, .error .again)
  else
    ({ m with
        queue := m.queue ++ [m.queuedFor d]
        stats :=
          { m.stats with
            dgramsReceived := m.stats.dgramsReceived + 1
            bytesReceived := m.stats.bytesReceived + d.data.length } }, .ok ())

/-- The part of `tc_udp_mux_input` from the search for a flow. The binding is touched whether or not
the datagram is queued. -/
def deliver (m : Mux) (d : Datagram) (now : ℕ) : Mux × Except Err Unit :=
  match m.bindingFor d with
  | some i => (m.touchAt i now).enqueue d
  | none =>
    -- A foreign source has to answer a flow; a listener is not enough.
    if d.dst = m.localIp ∧ (d.src ≠ m.remoteIp ∨ m.listening d.dstPort = false) then
      (m.count .noListener, .error .inval)
    else m.enqueue d

/-- The checks of `tc_udp_mux_input` before the search for a flow. From the peer to us is the ordinary
case; from the peer to somewhere else is for an exit node; from somewhere else to us is an answer. -/
def arrival (m : Mux) (pkt : List UInt8) : Except Drop Datagram :=
  if isUdp pkt = false then .error .notUdp
  else if bytesAt 16 pkt 24 ≠ m.localIp ∧ ¬(bytesAt 16 pkt 8 = m.remoteIp ∧ m.exitNode = true) then
    .error .malformed
  else readDatagram pkt

def input (m : Mux) (pkt : List UInt8) (now : ℕ) : Mux × Except Err Unit :=
  match m.arrival pkt with
  | .error d => (m.count d, .error .inval)
  | .ok d => m.deliver d now

/-- `tc_udp_mux_recv`, and `tc_udp_mux_recv_addrs`, with the datagram. One that does not fit stays. -/
def recv (m : Mux) (cap : ℕ) : Mux × Except Err Queued :=
  match m.queue with
  | [] => (m, .error .again)
  | q :: rest => if q.data.length > cap then (m, .error .nospace) else ({ m with queue := rest }, .ok q)

/-! ## Calls -/

inductive Call
  | listen (port : UInt16)
  | setAcceptFilter (fn : Option (UInt16 → Bool))
  | setExitNode (on : Bool)
  | bind (remotePort : UInt16) (now : ℕ)
  | send (localPort remotePort : UInt16) (data : List UInt8) (now : ℕ)
  | sendTo (localPort : UInt16) (dst : Endpoint) (data : List UInt8) (now : ℕ)
  | sendAs (src : Endpoint) (dstPort : UInt16) (data : List UInt8) (now : ℕ)
  | input (pkt : List UInt8) (now : ℕ)
  | recv (cap : ℕ)
  | tick (now : ℕ)

def step (m : Mux) : Call → Mux
  | .listen port => (m.listen port).1
  | .setAcceptFilter fn => { m with accept := fn }
  | .setExitNode on => { m with exitNode := on }
  | .bind remotePort now => (m.bind remotePort now).1
  | .send localPort remotePort data now => (m.send localPort remotePort data now).1
  | .sendTo localPort dst data now => (m.sendTo localPort dst data now).1
  | .sendAs src dstPort data _ => (m.sendAs src dstPort data).1
  | .input pkt now => (m.input pkt now).1
  | .recv cap => (m.recv cap).1
  | .tick now => m.tick now

def run (m : Mux) (calls : List Call) : Mux := calls.foldl step m

end Mux

end Udp
