import Tailcat.Library.ByteOrder
import Tailcat.Tcp.Basic

/-!
# IPv6 packets

The wire format of `src/net/tcp.c`: the packet that `send_segment` builds for a segment, and the checks
with which `tc_tcp_input` takes a received packet apart.

## Main results

* `parse_packet`: a packet built for one end is accepted by the other end, with the same segment;
* `csumFold_terminates`: the folding loop of the checksum ends, which makes `csumFold` total.
-/

namespace Tcp

open ByteOrder

/-- `TC_IPV6_HEADER_LEN`. -/
def ipv6HeaderLen : ℕ := 40
/-- `TC_TCP_HEADER_LEN`. -/
def tcpHeaderLen : ℕ := 20

abbrev rd16 := readBE16
/-- `rd32`. -/
abbrev rd32 := readBE32
/-- `wr16`. -/
abbrev wr16 := writeBE16
/-- `wr32`. -/
abbrev wr32 := writeBE32

/-! ## Checksum -/

/-- `csum_add`: add up big-endian 16-bit words, an odd trailing byte being zero-padded. -/
def csumAdd (sum : UInt32) : List UInt8 → UInt32
  | [] => sum
  | [b] => sum + b.toUInt32 <<< 8
  | b :: b' :: rest => csumAdd (sum + (b.toUInt32 <<< 8 ||| b'.toUInt32)) rest

lemma toNat_shiftRight_sixteen (sum : UInt32) : (sum >>> 16).toNat = sum.toNat / 65536 := by
  rw [UInt32.toNat_shiftRight, Nat.shiftRight_eq_div_pow]
  rfl

lemma toNat_fold (sum : UInt32) :
    ((sum &&& (0xffff : UInt32)) + (sum >>> 16)).toNat = sum.toNat % 65536 + sum.toNat / 65536 := by
  have hlow : (sum &&& (0xffff : UInt32)).toNat = sum.toNat % 2 ^ 16 :=
    Nat.and_two_pow_sub_one_eq_mod sum.toNat 16
  have hhigh := toNat_shiftRight_sixteen sum
  have hlt := sum.toNat_lt
  rw [UInt32.toNat_add, hlow, hhigh]
  exact Nat.mod_eq_of_lt (by omega)

/-- One round of the loop of `csum_fold` makes the sum smaller. -/
theorem csumFold_terminates {sum : UInt32} (h : sum >>> 16 ≠ 0) :
    ((sum &&& (0xffff : UInt32)) + (sum >>> 16)).toNat < sum.toNat := by
  have hpos : sum.toNat / 65536 ≠ 0 := by
    rw [← toNat_shiftRight_sixteen]
    exact fun h0 => h (UInt32.toNat_inj.mp h0)
  rw [toNat_fold]
  omega

/-- `csum_fold`: add the carries back in until 16 bits are left, then complement. -/
def csumFold (sum : UInt32) : UInt16 :=
  if sum >>> 16 ≠ 0 then csumFold ((sum &&& (0xffff : UInt32)) + (sum >>> 16)) else (~~~sum).toUInt16
termination_by sum.toNat
decreasing_by exact csumFold_terminates ‹_›

/-- `tcp_checksum`: the checksum over the IPv6 pseudo-header and the segment. -/
def tcpChecksum (src dst : Ipv6Addr) (seg : List UInt8) : UInt16 :=
  let sum := csumAdd 0 src.toList
  let sum := csumAdd sum dst.toList
  let sum := csumAdd sum (wr32 (UInt32.ofNat seg.length) ++ [0, 0, 0, 6])
  csumFold (csumAdd sum seg)

/-! ## Building a packet -/

/-- The TCP header of `send_segment`, with the checksum field `ck`: five words and no options. -/
def tcpHeader (s : Segment) (ck : UInt16) : List UInt8 :=
  wr16 s.sport ++ wr16 s.dport ++ wr32 s.seq ++ wr32 s.ack ++ [(5 : UInt8) <<< 4, s.flags] ++
    wr16 s.wnd ++ wr16 ck ++ [0, 0]

/-- The IPv6 packet `send_segment` hands to the output callback for a segment. -/
def packet (src dst : Ipv6Addr) (s : Segment) : List UInt8 :=
  let segLen := tcpHeaderLen + s.data.length
  let ck := tcpChecksum src dst (tcpHeader s 0 ++ s.data)
  [0x60, 0, 0, 0] ++ wr16 (UInt16.ofNat segLen) ++ [6, 64] ++ src.toList ++ dst.toList ++
    (tcpHeader s ck ++ s.data)

/-! ## Taking a packet apart -/

/-- What the checks at the head of `tc_tcp_input` make of a packet. -/
inductive Parsed
  /-- Not for this connection, or malformed. -/
  | ignored
  /-- For this connection, but the checksum is wrong. -/
  | badChecksum
  /-- A segment for this connection. -/
  | segment (s : Segment)

/-- The checks at the head of `tc_tcp_input`, in the order of the source. -/
def parse (c : Conn) (pkt : List UInt8) : Parsed :=
  if pkt.length < ipv6HeaderLen + tcpHeaderLen then .ignored
  else if pkt.getD 0 0 >>> 4 ≠ 6 ∨ pkt.getD 6 0 ≠ 6 then .ignored
  else
    let payloadTotal := (rd16 pkt 4).toNat
    if payloadTotal < tcpHeaderLen ∨ ipv6HeaderLen + payloadTotal > pkt.length then .ignored
    else if (pkt.drop 8).take 16 ≠ c.addr.remoteIp.toList ∨
        (pkt.drop 24).take 16 ≠ c.addr.localIp.toList then .ignored
    else
      let th := pkt.drop ipv6HeaderLen
      let sport := rd16 th 0
      let dport := rd16 th 2
      if dport ≠ c.addr.localPort then .ignored
      else if c.state ≠ .listen ∧ sport ≠ c.addr.remotePort then .ignored
      else if payloadTotal > ipv6HeaderLen + 65535 then .ignored
      else
        let gotCk := rd16 th 16
        let seg := ((th.take payloadTotal).set 16 0).set 17 0
        if tcpChecksum c.addr.remoteIp c.addr.localIp seg ≠ gotCk then .badChecksum
        else
          let doff := (th.getD 12 0 >>> 4).toNat * 4
          if doff < tcpHeaderLen ∨ doff > payloadTotal then .ignored
          else
            .segment
              { sport, dport, seq := rd32 th 4, ack := rd32 th 8, flags := th.getD 13 0,
                wnd := rd16 th 14, data := (th.take payloadTotal).drop doff }

lemma length_of_parse {c : Conn} {pkt : List UInt8} {s : Segment}
    (h : parse c pkt = .segment s) : s.data.length < 65536 := by
  unfold parse at h
  dsimp only at h
  split_ifs at h
  cases h
  have hlen := (rd16 pkt 4).toNat_lt
  simp only [List.length_drop, List.length_take]
  omega

/-! ## Round trip -/

/-- The two ends of a segment agree on its addresses and ports: `s` as sent from `src` to `dst` is
addressed to `c`. A connection that listens takes segments from any port. -/
structure AddressedTo (c : Conn) (src dst : Ipv6Addr) (s : Segment) : Prop where
  remoteIp : c.addr.remoteIp = src
  localIp : c.addr.localIp = dst
  dport : s.dport = c.addr.localPort
  sport : c.state = .listen ∨ s.sport = c.addr.remotePort

lemma length_tcpHeader (s : Segment) (ck : UInt16) : (tcpHeader s ck).length = tcpHeaderLen := rfl

private lemma drop_packet (src dst : Ipv6Addr) (s : Segment) :
    (packet src dst s).drop ipv6HeaderLen =
      tcpHeader s (tcpChecksum src dst (tcpHeader s 0 ++ s.data)) ++ s.data := by
  simp [packet, ipv6HeaderLen, List.drop_append, writeBE16]

private lemma clear_checksum (s : Segment) (ck : UInt16) (rest : List UInt8) :
    (((tcpHeader s ck ++ rest).set 16 0).set 17 0) = tcpHeader s 0 ++ rest := rfl

/-- A packet built for a segment is accepted by the end it is addressed to, with the same
segment. -/
theorem parse_packet {c : Conn} {src dst : Ipv6Addr} {s : Segment} (h : AddressedTo c src dst s)
    (hlen : s.data.length ≤ 65515) : parse c (packet src dst s) = .segment s := by
  obtain ⟨hrem, hloc, hdport, hsport⟩ := h
  subst hrem hloc
  have hport : ¬(c.state ≠ .listen ∧ s.sport ≠ c.addr.remotePort) := by
    rcases hsport with h | h <;> simp [h]
  have htotal : (rd16 (packet c.addr.remoteIp c.addr.localIp s) 4).toNat = 20 + s.data.length := by
    have : rd16 (packet c.addr.remoteIp c.addr.localIp s) 4 = UInt16.ofNat (20 + s.data.length) :=
      bytes16 _
    rw [this, UInt16.toNat_ofNat', Nat.mod_eq_of_lt (by omega)]
  have hpkt : (packet c.addr.remoteIp c.addr.localIp s).length = 60 + s.data.length := by
    simp [packet, tcpHeader]
    omega
  have hsrc : ((packet c.addr.remoteIp c.addr.localIp s).drop 8).take 16 = c.addr.remoteIp.toList := by
    simp [packet, writeBE16]
  have hdst : ((packet c.addr.remoteIp c.addr.localIp s).drop 24).take 16 = c.addr.localIp.toList := by
    simp [packet, writeBE16]
  have hver : (packet c.addr.remoteIp c.addr.localIp s).getD 0 0 = 0x60 := rfl
  have hnext : (packet c.addr.remoteIp c.addr.localIp s).getD 6 0 = 6 := rfl
  have htake : ∀ ck, (tcpHeader s ck ++ s.data).take (20 + s.data.length) =
      tcpHeader s ck ++ s.data := by
    intro ck
    simp [length_tcpHeader, tcpHeaderLen]
  have hoff : ∀ ck, (((tcpHeader s ck ++ s.data).getD 12 0) >>> 4).toNat * 4 = 20 :=
    fun _ => show (((5 : UInt8) <<< 4) >>> 4).toNat * 4 = 20 by decide
  simp only [parse, hpkt, hver, hnext, htotal, hsrc, hdst, drop_packet, htake, hoff, clear_checksum]
  generalize tcpChecksum c.addr.remoteIp c.addr.localIp (tcpHeader s 0 ++ s.data) = ck
  have h0 : rd16 (tcpHeader s ck ++ s.data) 0 = s.sport := bytes16 _
  have h2 : rd16 (tcpHeader s ck ++ s.data) 2 = s.dport := bytes16 _
  have h4 : rd32 (tcpHeader s ck ++ s.data) 4 = s.seq := bytes32 _
  have h8 : rd32 (tcpHeader s ck ++ s.data) 8 = s.ack := bytes32 _
  have h14 : rd16 (tcpHeader s ck ++ s.data) 14 = s.wnd := bytes16 _
  have h16 : rd16 (tcpHeader s ck ++ s.data) 16 = ck := bytes16 _
  have h13 : (tcpHeader s ck ++ s.data).getD 13 0 = s.flags := rfl
  have hdata : (tcpHeader s ck ++ s.data).drop 20 = s.data := rfl
  rw [h0, h2, h4, h8, h13, h14, h16, hdata, if_neg (by simp [ipv6HeaderLen, tcpHeaderLen]),
    if_neg (by decide), if_neg (by simp [ipv6HeaderLen, tcpHeaderLen]; omega),
    if_neg (by simp), if_neg (by simpa using hdport), if_neg hport,
    if_neg (by simp; omega), if_neg (by simp),
    if_neg (by simp [tcpHeaderLen])]

end Tcp
