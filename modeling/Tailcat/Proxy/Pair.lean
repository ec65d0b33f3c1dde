import Tailcat.Tcp.Receiver
import Tailcat.Tcp.Handshake

/-!
# A proxied pair

`src/net/proxy.c` for one pair. A staging buffer is the list of the bytes in it that are still to be
moved on: the source resets its offset and its length as soon as they meet. The socket answers each
call of `send` and `recv` as it likes. The local variable `moved` of the source is a field of the pair
with its two ends (`Link`); where the source returns early after an error, what is left of the
function does nothing.
-/

def Tcp.Conn.sendUnacked (c : Conn) : ℕ := c.snd.buf.len

namespace Proxy

open Tcp (Conn)
open Tcp.Conn (Call)

def bufsz : ℕ := 8192

/-- What a call of `send` returns: a number of bytes taken, which is at least one, or an error. -/
inductive SendAnswer
  /-- `more + 1` bytes, or all that is offered if that is less. -/
  | took (more : ℕ)
  /-- `EINTR`. -/
  | intr
  /-- `EAGAIN` or `EWOULDBLOCK`. -/
  | again
  /-- Any other error. -/
  | fail
  deriving DecidableEq, Repr

/-- What a call of `recv` returns: bytes, the end of the stream, or an error. -/
inductive RecvAnswer
  | got (b : UInt8) (bs : List UInt8)
  | eof
  /-- `EINTR`. -/
  | intr
  /-- `EAGAIN` or `EWOULDBLOCK`. -/
  | again
  /-- Any other error. -/
  | fail
  deriving DecidableEq, Repr

/-- `pair`, apart from its two ends. -/
structure Pair where
  toHost : List UInt8 := []
  toTun : List UInt8 := []
  /-- The peer has finished sending. -/
  tunEof : Bool := false
  /-- The local service has finished sending. -/
  hostEof : Bool := false
  /-- The host socket has been shut down for writing. -/
  hostShut : Bool := false
  /-- The write side of the tunnel connection has been asked to close. -/
  tunShut : Bool := false
  failed : Bool := false
  done : Bool := false
  deriving DecidableEq, Repr

/-- The tunnel connection of a pair, with what it has received in order, what has been read from it
and what has been written into it. -/
structure Tunnel where
  conn : Conn
  received : List UInt8
  read : List UInt8
  written : List UInt8

/-- The bytes that a call adds to the receive buffer. -/
def bytesReceived (c : Conn) : Call → List UInt8
  | .input pkt iss now => (c.tcpInput pkt iss now).rcv.buf.toList.drop c.rcv.buf.len
  | _ => []

/-- The tunnel connection after a call. -/
def Tunnel.step (t : Tunnel) (call : Call) : Tunnel :=
  { conn := t.conn.step call
    received := t.received ++ bytesReceived t.conn call
    read := t.read ++ call.bytesRead t.conn
    written := t.written ++ call.bytesWritten t.conn }

/-- The host socket of a pair: what it has taken and given, whether it has come to its end, and how
much it had taken when it was shut down for writing, once it has been. -/
structure Host where
  sent : List UInt8 := []
  got : List UInt8 := []
  ended : Bool := false
  shutAt : Option ℕ := none

/-- A pair with its two ends, and whether the pass has moved anything. -/
structure Link where
  pair : Pair
  tun : Tunnel
  host : Host
  moved : Bool := false

namespace Link

/-- A pair as `tc_proxy_add` sets it up. -/
def start (c : Conn) : Link :=
  { pair := {}, tun := { conn := c, received := c.rcv.buf.toList, read := [], written := [] }
    host := {} }

def fail (l : Link) : Link := { l with pair := { l.pair with failed := true }, moved := true }

/-! ## `pump_tunnel_to_host` -/

/-- Drain the tunnel into the staging buffer, once that is empty. -/
def drainTunnel (l : Link) : Link :=
  if l.pair.tunEof = false ∧ l.pair.toHost = [] then
    let bytes := (l.tun.conn.tcpRead bufsz).2
    let l :=
      { l with
        tun := l.tun.step (.read bufsz), pair := { l.pair with toHost := bytes }
        moved := l.moved || !bytes.isEmpty }
    if l.tun.conn.readClosed then
      { l with pair := { l.pair with tunEof := true }, moved := true }
    else l
  else l

/-- The first `n` bytes of the staging buffer have gone to the socket. -/
def send (l : Link) (n : ℕ) : Link :=
  { l with
    pair := { l.pair with toHost := l.pair.toHost.drop n }
    host := { l.host with sent := l.host.sent ++ l.pair.toHost.take n }
    moved := true }

/-- The loop that empties the staging buffer into the socket. When the answers run out the socket
would block. -/
def sendLoop : List SendAnswer → Link → Link
  | [], l => l
  | a :: as, l =>
    if l.pair.toHost = [] then l
    else
      match a with
      | .took more => sendLoop as (l.send (more + 1))
      | .intr => sendLoop as l
      | .again => l
      | .fail => l.fail

/-- Pass the end of the tunnel's stream on, once everything before it has been delivered. -/
def shutHost (l : Link) : Link :=
  if l.pair.tunEof ∧ l.pair.toHost = [] ∧ l.pair.hostShut = false then
    { l with
      host := { l.host with shutAt := some l.host.sent.length }
      pair := { l.pair with hostShut := true }
      moved := true }
  else l

/-- `pump_tunnel_to_host`. A failed `send` leaves bytes staged, so that nothing is shut down. -/
def pumpTunnelToHost (sends : List SendAnswer) (l : Link) : Link :=
  (sendLoop sends l.drainTunnel).shutHost

/-! ## `pump_host_to_tunnel` -/

/-- The loop that reads from the socket until it has an answer that is no interruption. -/
def recvLoop : List RecvAnswer → Link → Link
  | [], l => l
  | .got b bs :: _, l =>
    { l with
      pair := { l.pair with toTun := (b :: bs).take bufsz }
      host := { l.host with got := l.host.got ++ (b :: bs).take bufsz }
      moved := true }
  | .eof :: _, l =>
    { l with
      pair := { l.pair with hostEof := true }
      host := { l.host with ended := true }
      moved := true }
  | .intr :: as, l => recvLoop as l
  | .again :: _, l => l
  | .fail :: _, l => l.fail

def readHost (recvs : List RecvAnswer) (l : Link) : Link :=
  if l.pair.hostEof = false ∧ l.pair.toTun = [] then recvLoop recvs l else l

/-- The loop that writes the staging buffer into the tunnel. Each round moves at least one byte, so
as many rounds as there are bytes are enough. -/
def writeLoop (now : ℕ) : ℕ → Link → Link
  | 0, l => l
  | fuel + 1, l =>
    if l.pair.toTun = [] then l
    else
      let (_, rc, wrote) := l.tun.conn.tcpWrite l.pair.toTun now
      let l' := { l with tun := l.tun.step (.write l.pair.toTun now) }
      if rc ≠ .ok then l'
      -- the send buffer is full
      else if wrote = 0 then l'
      else
        writeLoop now fuel
          { l' with pair := { l.pair with toTun := l.pair.toTun.drop wrote }, moved := true }

/-- Pass the end of the socket's stream on, once everything before it has been acknowledged. The
result of `tc_tcp_shutdown_write` is not looked at. -/
def shutTunnel (now : ℕ) (l : Link) : Link :=
  if l.pair.hostEof ∧ l.pair.toTun = [] ∧ l.pair.tunShut = false then
    if l.tun.conn.sendUnacked = 0 then
      { l with
        tun := l.tun.step (.shutdownWrite now), pair := { l.pair with tunShut := true }
        moved := true }
    else l
  else l

/-- `pump_host_to_tunnel`. After a failed `recv` nothing is staged and no end has been seen, so that
nothing is written or shut down. -/
def pumpHostToTunnel (recvs : List RecvAnswer) (now : ℕ) (l : Link) : Link :=
  let l := l.readHost recvs
  (writeLoop now l.pair.toTun.length l).shutTunnel now

/-! ## `tc_proxy_pump` -/

def finished (pr : Pair) : Bool :=
  pr.tunEof && pr.hostEof && pr.hostShut && pr.tunShut && pr.toHost.isEmpty && pr.toTun.isEmpty

/-- The end of a pass: a pair that has failed, that has lost its tunnel connection or that has
nothing more to do is done. -/
def settle (l : Link) : Link :=
  if l.pair.failed ∨ l.tun.conn.state = .closed ∨ finished l.pair then
    { l with pair := { l.pair with done := true }, moved := true }
  else l

/-- `tc_proxy_pump` for one pair, with the answers of its socket. -/
def pump (sends : List SendAnswer) (recvs : List RecvAnswer) (now : ℕ) (l : Link) : Link :=
  if l.pair.done then l
  else (({ l with moved := false }.pumpTunnelToHost sends).pumpHostToTunnel recvs now).settle

/-! ## Schedules -/

/-- What happens to a pair: the tunnel takes in a packet, its clock ticks, or the pair is pumped. -/
inductive Event
  | input (pkt : List UInt8) (iss : UInt32) (now : ℕ)
  | tick (now : ℕ)
  | pump (sends : List SendAnswer) (recvs : List RecvAnswer) (now : ℕ)

def step (l : Link) : Event → Link
  | .input pkt iss now => { l with tun := l.tun.step (.input pkt iss now) }
  | .tick now => { l with tun := l.tun.step (.tick now) }
  | .pump sends recvs now => l.pump sends recvs now

end Link

/-! ## Connections a pair is made of -/

def Arrives : Call → Prop
  | .input _ _ _ | .tick _ => True
  | .write _ _ | .read _ | .shutdownWrite _ | .abort _ => False

/-- The connections of which the program makes pairs: a multiplexer has opened them, packets and the
clock may have moved them on since, and they do not listen. -/
structure Adopted (c : Conn) : Prop where
  history : ∃ (c0 : Conn) (calls : List Call), Tcp.Conn.Opened c0 ∧
    (∀ call ∈ calls, Arrives call) ∧ c = calls.foldl Conn.step c0
  state : c.state ≠ .listen

end Proxy
