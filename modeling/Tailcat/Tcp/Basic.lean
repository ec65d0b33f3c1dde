import Tailcat.Library.RingBuffer
import Tailcat.Library.SerialNumber

/-!
# The TCP connection record

The data model of `src/net/tcp.c`. Sequence numbers are `UInt32`, as they wrap. Clock readings and
deadlines are `ℕ`: they are 64-bit millisecond counts, which no run wraps. The windows and the
congestion variables stay below `2 ^ 32` by construction and are `ℕ` as well.
-/

namespace Tcp

/-! ## Constants -/

/-- `TC_TCP_MSS`. -/
def mss : ℕ := 1140
/-- `TC_TCP_SNDBUF`. -/
def sndBufLen : ℕ := 65536
/-- `TC_TCP_RCVBUF`. -/
def rcvBufLen : ℕ := 65536
/-- `TC_TCP_OOO_SEGS`. -/
def oooSegs : ℕ := 16
/-- `TC_TCP_KEEPALIVE_IDLE_MS`. -/
def keepaliveIdleMs : ℕ := 60000
/-- `TC_TCP_KEEPALIVE_INTVL_MS`. -/
def keepaliveIntvlMs : ℕ := 10000
/-- `TC_TCP_KEEPALIVE_PROBES`. -/
def keepaliveProbes : ℕ := 6
/-- `RTO_INITIAL`. -/
def rtoInitial : ℕ := 1000
/-- `RTO_MIN`. -/
def rtoMin : ℕ := 200
/-- `RTO_MAX`. -/
def rtoMax : ℕ := 60000
/-- `DELACK_MS`. -/
def delackMs : ℕ := 40
/-- `TIMEWAIT_MS`. -/
def timewaitMs : ℕ := 10000
/-- `MAX_RETRIES`. -/
def maxRetries : ℕ := 12
/-- `UINT64_MAX`, what `tc_tcp_next_deadline` reports when no timer is pending. -/
def noDeadline : ℕ := 2 ^ 64 - 1

/-- The return codes of `tc.h` that the TCP functions use. -/
inductive Rc
  | ok
  | inval
  | timeout
  deriving DecidableEq, Repr

/-! ## Sequence arithmetic -/

/-- `seq_le`: the difference is read as a signed 32-bit value, so the comparison stays correct
across the wrap. -/
def seqLe (a b : UInt32) : Bool := (a - b).toInt32 ≤ 0

def seqGt (a b : UInt32) : Bool := (a - b).toInt32 > 0

def seqGe (a b : UInt32) : Bool := (a - b).toInt32 ≥ 0

open SerialNumber

variable (base : UInt32) (a : UInt32)

lemma seqLe_place {m n : ℕ} (hm : m < n + 2 ^ 31) (hn : n ≤ m + 2 ^ 31) :
    seqLe (place base m) (place base n) = decide (m ≤ n) := by
  rw [seqLe, decide_eq_decide, Int32.le_iff_toInt_le, toInt_place_sub base hm hn]
  simp

lemma seqGt_place {m n : ℕ} (hm : m < n + 2 ^ 31) (hn : n ≤ m + 2 ^ 31) :
    seqGt (place base m) (place base n) = decide (n < m) := by
  rw [seqGt, decide_eq_decide, gt_iff_lt, Int32.lt_iff_toInt_lt, toInt_place_sub base hm hn]
  simp

lemma seqGe_place {m n : ℕ} (hm : m < n + 2 ^ 31) (hn : n ≤ m + 2 ^ 31) :
    seqGe (place base m) (place base n) = decide (n ≤ m) := by
  rw [seqGe, decide_eq_decide, ge_iff_le, Int32.le_iff_toInt_le, toInt_place_sub base hm hn]
  simp

lemma seqLe_eq_false {a b : UInt32} :
    seqLe a b = false ↔ 0 < (a - b).toNat ∧ (a - b).toNat < 2 ^ 31 := by
  have hlt := (a - b).toNat_lt
  rw [seqLe, decide_eq_false_iff_not, Int32.le_iff_toInt_le, SerialNumber.toInt_toInt32]
  change ¬_ ≤ (0 : ℤ) ↔ _
  split <;> omega

lemma seqLe_self : seqLe a a = true := by
  rw [seqLe, sub_self]
  rfl

lemma seqGt_self : seqGt a a = false := by
  rw [seqGt, sub_self]
  rfl

lemma seqGe_self : seqGe a a = true := by
  rw [seqGe, sub_self]
  rfl

lemma seqLe_succ_self : seqLe (a + 1) a = false := by
  have h := seqLe_place a (m := 1) (n := 0) (by decide) (by decide)
  rwa [place_zero] at h

lemma seqGe_succ : seqGe a (a + 1) = false := by
  have h := seqGe_place a (m := 0) (n := 1) (by decide) (by decide)
  rwa [place_zero] at h

/-! ## Flags and segments -/

/-- `TH_FIN`. -/
def thFin : UInt8 := 0x01
/-- `TH_SYN`. -/
def thSyn : UInt8 := 0x02
/-- `TH_RST`. -/
def thRst : UInt8 := 0x04
/-- `TH_PSH`. -/
def thPsh : UInt8 := 0x08
/-- `TH_ACK`. -/
def thAck : UInt8 := 0x10

/-- `flags & bit`, as a condition. -/
def hasFlag (flags bit : UInt8) : Bool := flags &&& bit != 0

/-- A TCP segment: the header fields that are read or written, and the payload. -/
structure Segment where
  sport : UInt16
  dport : UInt16
  seq : UInt32
  ack : UInt32
  flags : UInt8
  wnd : UInt16
  data : List UInt8
  deriving DecidableEq, Repr

namespace Segment

def fin (s : Segment) : Bool := hasFlag s.flags thFin
/-- The segment carries a SYN. -/
def syn (s : Segment) : Bool := hasFlag s.flags thSyn
/-- The segment carries a RST. -/
def rst (s : Segment) : Bool := hasFlag s.flags thRst
/-- The acknowledgement field of the segment counts. -/
def acks (s : Segment) : Bool := hasFlag s.flags thAck

/-- A keepalive probe on the wire: the only segment with payload that is sent with `TH_ACK` and
no other flag. Stream data always goes out with `TH_PSH` too. -/
def isProbe (s : Segment) : Bool := s.flags == thAck && !s.data.isEmpty

end Segment

/-! ## Connections -/

inductive State
  | closed
  | listen
  | synSent
  | synReceived
  | established
  | finWait1
  | finWait2
  | closing
  | timeWait
  | closeWait
  | lastAck
  deriving DecidableEq, Repr

/-- An occupied slot of the reassembly store, `ooo_seg`. A slot that is not in use is `none`: its
stale contents are never read. -/
structure OooSeg where
  seq : UInt32
  data : List UInt8

/-- The send half: sequence space, peer window and the ring of bytes not yet acknowledged. The
first byte of the ring is the one at `una`. -/
structure Send where
  una : UInt32
  nxt : UInt32
  iss : UInt32
  wnd : ℕ
  buf : RingBuffer UInt8 sndBufLen
  /-- The caller has asked to close the write side. -/
  finQueued : Bool
  /-- Our FIN has gone out. -/
  finSent : Bool

/-- The receive half: sequence space, the ring of in-order bytes waiting for the caller, and the
reassembly store. -/
structure Recv where
  nxt : UInt32
  irs : UInt32
  buf : RingBuffer UInt8 rcvBufLen
  ooo : Vector (Option OooSeg) oooSegs
  /-- The peer's FIN has arrived in order. -/
  finReceived : Bool

structure Congestion where
  cwnd : ℕ
  ssthresh : ℕ
  dupacks : UInt32

/-- Round-trip estimation. `srtt` is negative until the first sample. -/
structure Rtt where
  srtt : ℤ
  rttvar : ℤ
  rto : ℕ
  timing : Bool
  seq : UInt32
  start : ℕ

/-- The timers; a deadline of 0 is a timer that is off. -/
structure Timers where
  rtoDeadline : ℕ
  delackDeadline : ℕ
  timewaitDeadline : ℕ
  kaDeadline : ℕ
  rtoBackoff : ℕ
  /-- Probes sent since anything was last received. -/
  kaUnacked : ℕ

structure Stats where
  segsSent : ℕ := 0
  segsReceived : ℕ := 0
  segsDroppedChecksum : ℕ := 0
  retransmits : ℕ := 0
  fastRetransmits : ℕ := 0
  oooQueued : ℕ := 0
  oooDropped : ℕ := 0
  bytesSent : ℕ := 0
  bytesReceived : ℕ := 0

abbrev Ipv6Addr := Vector UInt8 16

/-- The addresses and ports of the two ends. -/
structure Addr where
  localIp : Ipv6Addr
  remoteIp : Ipv6Addr
  localPort : UInt16
  remotePort : UInt16

/-- `tc_tcp_conn`. The output callback is modelled by the log `out` of the segments handed to it,
oldest first; its return value is ignored by the source. -/
structure Conn where
  addr : Addr
  state : State
  snd : Send
  rcv : Recv
  cc : Congestion
  rtt : Rtt
  tmr : Timers
  reset : Bool
  lastNow : ℕ
  stats : Stats
  out : List Segment

/-- The segments handed to the output callback between `c` and the later `c'`. -/
def newOut (c c' : Conn) : List Segment := c'.out.drop c.out.length

/-! ## Buffers -/

namespace Conn

abbrev sndSpace (c : Conn) : ℕ := c.snd.buf.space

def sndPush (c : Conn) (p : List UInt8) (h : p.length ≤ c.sndSpace) : Conn :=
  { c with snd := { c.snd with buf := c.snd.buf.push p h } }

def rcvSpace (c : Conn) : ℕ := c.rcv.buf.space

/-- `in_flight`: how much sequence space has been sent but not acknowledged. -/
def inFlight (c : Conn) : UInt32 := c.snd.nxt - c.snd.una

end Conn

end Tcp
