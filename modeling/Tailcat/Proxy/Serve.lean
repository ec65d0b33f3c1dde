import Tailcat.Proxy.Streams
import Tailcat.Tcp.MuxTable

/-!
# The serve loop

One multiplexer per client, and the table of the proxy: the functions of `src/net/proxy.c` on the
table and the part of `serve_pump_once` of `src/cli/main.c` that moves connections between the two. A
pair refers to a connection by its client and its number in that client's multiplexer. The `recv`
service is left out, and a turn is told which clients are idle.
-/

namespace Proxy

open Tcp (Conn Mux Draw Ipv6Addr)
open Tcp.Conn (Call)

def maxClients : ℕ := 8

/-- A pair in use, with the connection it refers to. -/
structure Slot where
  client : Fin maxClients
  ptr : ℕ
  pair : Pair

structure Stats where
  opened : ℕ := 0
  closed : ℕ := 0
  failed : ℕ := 0
  bytesToHost : ℕ := 0
  bytesToTun : ℕ := 0

/-- The clients of a serving node and its proxy, which holds at most `cap` pairs. -/
structure Server (cap : ℕ) where
  clients : Fin maxClients → Option Mux
  slots : Fin cap → Option Slot
  stats : Stats := {}

abbrev Answers (cap : ℕ) := Fin cap → List SendAnswer × List RecvAnswer

def linkOf (pr : Pair) (c : Conn) : Link :=
  { pair := pr, tun := { conn := c, received := [], read := [], written := [] }, host := {} }

namespace Server

variable {cap : ℕ}

def new (cap : ℕ) : Server cap := { clients := fun _ => none, slots := fun _ => none }

/-! ## The proxy -/

/-- `tc_proxy_add`: the first free slot, if there is one. -/
def proxyAdd (s : Server cap) (client : Fin maxClients) (ptr : ℕ) : Option (Server cap) :=
  ((List.finRange cap).find? fun j => (s.slots j).isNone).map fun j =>
    { s with
      slots := Function.update s.slots j (some { client, ptr, pair := {} })
      stats := { s.stats with opened := s.stats.opened + 1 } }

/-- The round of `tc_proxy_pump` for one slot. If the connection has been freed the source reads
memory it no longer owns; here nothing happens then. -/
def pumpSlot (answers : Answers cap) (now : ℕ) (s : Server cap) (j : Fin cap) : Server cap :=
  match s.slots j with
  | none => s
  | some r =>
    if r.pair.done then s
    else
      match s.clients r.client with
      | none => s
      | some m =>
        match m.conns.find? (·.ptr == r.ptr) with
        | none => s
        | some e =>
          let pass (c : Conn) := (linkOf r.pair c).pump (answers j).1 (answers j).2 now
          { clients :=
              Function.update s.clients r.client
                (some (m.updateConn r.ptr fun c => (pass c).tun.conn))
            slots := Function.update s.slots j (some { r with pair := (pass e.conn).pair })
            stats :=
              { s.stats with
                bytesToHost := s.stats.bytesToHost + (pass e.conn).host.sent.length
                bytesToTun := s.stats.bytesToTun + (pass e.conn).tun.written.length } }

def pump (s : Server cap) (answers : Answers cap) (now : ℕ) : Server cap :=
  (List.finRange cap).foldl (pumpSlot answers now) s

/-- The round of `tc_proxy_reap` for one slot. -/
def reapSlot (s : Server cap) (j : Fin cap) : Server cap :=
  match s.slots j with
  | none => s
  | some r =>
    if r.pair.done then
      { s with
        slots := Function.update s.slots j none
        stats :=
          { s.stats with
            failed := s.stats.failed + if r.pair.failed then 1 else 0
            closed := s.stats.closed + 1 } }
    else s

def proxyReap (s : Server cap) : Server cap := (List.finRange cap).foldl reapSlot s

/-- `tc_proxy_forget`: the first pair that refers to the connection goes. -/
def forget (client : Fin maxClients) (s : Server cap) (ptr : ℕ) : Server cap :=
  match (List.finRange cap).find? fun j =>
      (s.slots j).any fun r => r.client == client && r.ptr == ptr with
  | none => s
  | some j =>
    { s with
      slots := Function.update s.slots j none
      stats := { s.stats with closed := s.stats.closed + 1 } }

/-! ## Clients -/

/-- `add_client`, as far as the multiplexer goes: the first free place, if there is one. -/
def addClient (s : Server cap) (localIp remoteIp : Ipv6Addr) (seed : UInt16)
    (filter : UInt16 → Bool) (exitNode : Bool) : Server cap :=
  match (List.finRange maxClients).find? fun i => (s.clients i).isNone with
  | none => s
  | some i =>
    let m := { Mux.muxNew localIp remoteIp seed with acceptFilter := some filter, exitNode }
    { s with clients := Function.update s.clients i (some m) }

/-- `drop_client`: the proxy lets go of every connection of the client before they are freed. -/
def dropClient (s : Server cap) (i : Fin maxClients) : Server cap :=
  match s.clients i with
  | none => s
  | some m =>
    let s := m.ptrs.reverse.foldl (forget i) s
    { s with clients := Function.update s.clients i none }

/-- The round of `expire_idle` for one client: one that has been idle for long and has no connection
is dropped. -/
def expireClient (idle : Fin maxClients → Bool) (s : Server cap) (i : Fin maxClients) :
    Server cap :=
  match s.clients i with
  | none => s
  | some m => if m.conns.length = 0 ∧ idle i then s.dropClient i else s

def onMux (s : Server cap) (i : Fin maxClients) (f : Mux → Mux) : Server cap :=
  { s with clients := Function.update s.clients i ((s.clients i).map f) }

/-- A round of the loop that accepts connections: one for which no socket could be opened, or no
pair is left, is closed again. -/
def accept (s : Server cap) (i : Fin maxClients) (dialled : Bool) (now : ℕ) : Server cap :=
  match s.clients i with
  | none => s
  | some m =>
    match m.accept with
    | (_, none) => s
    | (m, some p) =>
      let s := { s with clients := Function.update s.clients i (some m) }
      let refused := s.onMux i (·.close p now)
      if dialled then (s.proxyAdd i p).getD refused else refused

/-- The end of a turn of `serve_pump_once`: the proxy is pumped and reaped before the multiplexers
are, and idle clients go last. -/
def turn (s : Server cap) (answers : Answers cap) (idle : Fin maxClients → Bool) (now : ℕ) :
    Server cap :=
  let s := (s.pump answers now).proxyReap
  let s := { s with clients := fun i => (s.clients i).map fun m => m.reap.1 }
  (List.finRange maxClients).foldl (expireClient idle) s

/-! ## Runs -/

/-- What happens to a serving node. Packets, ticks and accepted connections come in any order; the
end of a turn is one step. -/
inductive Event (cap : ℕ)
  | join (localIp remoteIp : Ipv6Addr) (seed : UInt16) (filter : UInt16 → Bool) (exitNode : Bool)
  | input (i : Fin maxClients) (pkt : List UInt8) (draw : Draw) (sent : Bool) (now : ℕ)
  | tick (i : Fin maxClients) (now : ℕ)
  | accept (i : Fin maxClients) (dialled : Bool) (now : ℕ)
  | turn (answers : Answers cap) (idle : Fin maxClients → Bool) (now : ℕ)

def step (s : Server cap) : Event cap → Server cap
  | .join localIp remoteIp seed filter exitNode => s.addClient localIp remoteIp seed filter exitNode
  | .input i pkt draw sent now => s.onMux i (·.input pkt draw sent now)
  | .tick i now => s.onMux i (·.tick now)
  | .accept i dialled now => s.accept i dialled now
  | .turn answers idle now => s.turn answers idle now

end Server

end Proxy
