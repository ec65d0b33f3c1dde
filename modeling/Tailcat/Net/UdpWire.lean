import Tailcat.Net.Checksum
import Tailcat.Net.UdpMux

/-!
# UDP datagrams on the wire

What passes the checks of `tc_udp_mux_input` is well formed. The checksum stands in a packet that is
sent, a computed zero as all ones, so that the packet verifies as it is, and no longer with one bit
changed.

## Main results

* `wellFormed_of_arrival`: what passes the checks is well formed with a correct checksum;
* `send_roundtrip`: what one multiplexer sends, another queues, unless a bit has changed.
-/

namespace Udp

open Mux ByteOrder Fields OnesComplement
open Tcp (Ipv6Addr csumAdd csumFold rd16 wr16 wr32 ipv6HeaderLen toNat_csumFold toNat_csumAdd
  csumFold_eq_zero)

variable {src dst : Ipv6Addr} {srcPort dstPort : UInt16} {data udp pkt : List UInt8} {m : Mux}
  {now : ℕ} {d : Datagram}

/-! ## Well-formed datagrams -/

def udpPart (pkt : List UInt8) : List UInt8 := (pkt.drop ipv6HeaderLen).take (rd16 pkt 4).toNat

/-- What the checksum covers: the addresses, the length and the next header, and the datagram. -/
def covered (src dst : Ipv6Addr) (udp : List UInt8) : List UInt8 :=
  src.toList ++ dst.toList ++ pseudoHeader udp.length ++ udp

/-- The packet is a well-formed IPv6 packet that carries the UDP datagram `d` with a correct
checksum, which is not zero. -/
structure WellFormed (pkt : List UInt8) (d : Datagram) : Prop where
  version : pkt.getD 0 0 >>> 4 = 6
  nextHeader : pkt.getD 6 0 = 17
  header_le : udpHeaderLen ≤ (rd16 pkt 4).toNat
  length_le : ipv6HeaderLen + (rd16 pkt 4).toNat ≤ pkt.length
  udpLen : rd16 (pkt.drop ipv6HeaderLen) 4 = rd16 pkt 4
  src : d.src = bytesAt 16 pkt 8
  dst : d.dst = bytesAt 16 pkt 24
  srcPort : d.srcPort = rd16 (pkt.drop ipv6HeaderLen) 0
  dstPort : d.dstPort = rd16 (pkt.drop ipv6HeaderLen) 2
  srcPort_ne : d.srcPort ≠ 0
  dstPort_ne : d.dstPort ≠ 0
  data : d.data = (udpPart pkt).drop udpHeaderLen
  checksum_ne : rd16 (pkt.drop ipv6HeaderLen) 6 ≠ 0
  checksum : Verifies (covered d.src d.dst (udpPart pkt))

lemma toNat_udpSum (src dst : Ipv6Addr) (hlen : udp.length < 65536) :
    (udpSum src dst udp).toNat = wordSum (covered src dst udp) := by
  have hle := wordSum_le (covered src dst udp)
  have hsize : (covered src dst udp).length = 40 + udp.length := by
    simp [covered, pseudoHeader]
    omega
  have hsum : wordSum (covered src dst udp) = wordSum src.toList + wordSum dst.toList +
      wordSum (pseudoHeader udp.length) + wordSum udp := by
    rw [covered, wordSum_append, wordSum_append, wordSum_append] <;> simp [pseudoHeader]
  rw [hsum] at hle ⊢
  simp only [udpSum, toNat_csumAdd, UInt32.toNat_zero, Nat.zero_add, Nat.mod_add_mod]
  exact Nat.mod_eq_of_lt (by omega)

lemma udpChecksum_eq_zero (src dst : Ipv6Addr) (hlen : udp.length < 65536) :
    udpChecksum src dst udp = 0 ↔ Verifies (covered src dst udp) :=
  csumFold_eq_zero (toNat_udpSum src dst hlen)

/-- A packet that passes the checks is well formed. -/
theorem wellFormed_of_arrival {m : Mux} (h : m.arrival pkt = .ok d) : WellFormed pkt d := by
  unfold arrival isUdp readDatagram at h
  dsimp only at h
  split_ifs at h with hudp haddr hlen hudpLen hzero hck hport
  cases h
  simp only [Bool.not_eq_false, Bool.and_eq_true, beq_iff_eq] at hudp
  push Not at hlen hudpLen hport
  have hpart : (pkt.drop ipv6HeaderLen).take (rd16 (pkt.drop ipv6HeaderLen) 4).toNat =
      udpPart pkt := by rw [hudpLen.1]; rfl
  have hpartLen : (udpPart pkt).length < 65536 := by
    rw [udpPart, List.length_take]
    exact (Nat.min_le_left _ _).trans_lt (rd16 pkt 4).toNat_lt
  refine ⟨hudp.1.2, hudp.2, hlen.1, hlen.2, UInt16.toNat_inj.mp hudpLen.1, rfl, rfl, rfl, rfl,
    hport.1, hport.2, by rw [hpart], hzero, ?_⟩
  rw [← udpChecksum_eq_zero _ _ hpartLen, ← hpart]
  exact not_not.mp hck

/-! ## What a packet does -/

namespace Mux

/-- The datagram is one to queue: it answers a flow, or it comes from the peer to a listening port or
through an exit node. -/
def Admits (m : Mux) (d : Datagram) : Prop :=
  (m.bindingFor d).isSome ∨ d.src = m.remoteIp ∧ d.dst = m.localIp ∧ m.listening d.dstPort ∨
    d.src = m.remoteIp ∧ d.dst ≠ m.localIp ∧ m.exitNode

/-- Whether a datagram is queued: one for us that answers no flow has to come from the peer to a
listening port. -/
def verdict (m : Mux) (d : Datagram) : Except Err Unit :=
  if (m.bindingFor d).isNone ∧ d.dst = m.localIp ∧
      (d.src ≠ m.remoteIp ∨ m.listening d.dstPort = false) then .error .inval
  else if d.data.length > maxDgram then .error .inval
  else if m.queue.length ≥ queueLen then .error .again
  else .ok ()

/-- The bindings once the flow of a datagram has been found. -/
def matched (m : Mux) (d : Datagram) (now : ℕ) : Vector (Option Binding) maxBindings :=
  (m.bindingFor d).elim m.bindings fun i => (m.touchAt i now).bindings

def queueAfter (m : Mux) (d : Datagram) : List Queued :=
  match m.verdict d with
  | .ok _ => m.queue ++ [m.queuedFor d]
  | .error _ => m.queue

lemma deliver_eq (m : Mux) (d : Datagram) (now : ℕ) :
    ∃ stats, m.deliver d now =
      ({ m with bindings := m.matched d now, queue := m.queueAfter d, stats }, m.verdict d) := by
  unfold deliver queueAfter verdict matched enqueue
  cases m.bindingFor d with
  | some i =>
    have hqueue : (m.touchAt i now).queue = m.queue := rfl
    simp only [Option.isNone_some, Bool.false_eq_true, false_and, if_false, hqueue]
    split_ifs <;> exact ⟨_, rfl⟩
  | none =>
    simp only [Option.isNone_none, true_and]
    split_ifs <;> exact ⟨_, rfl⟩

lemma admits_of_verdict (harr : m.arrival pkt = .ok d) (h : m.verdict d = .ok ()) :
    d.data.length ≤ maxDgram ∧ m.Admits d := by
  have haddr : d.dst = m.localIp ∨ d.src = m.remoteIp ∧ m.exitNode = true := by
    have hwf := wellFormed_of_arrival harr
    unfold arrival at harr
    split_ifs at harr with hudp haddr
    rw [hwf.src, hwf.dst]
    by_contra hc
    push Not at hc
    exact haddr ⟨hc.1, fun h => hc.2 h.1 h.2⟩
  unfold verdict at h
  split_ifs at h with hno hsize hfull
  refine ⟨by omega, ?_⟩
  rw [Admits]
  cases hfor : m.bindingFor d with
  | some i => exact .inl rfl
  | none =>
    rw [hfor, Option.isNone_none, eq_self] at hno
    by_cases hdst : d.dst = m.localIp
    · have hok : d.src = m.remoteIp ∧ m.listening d.dstPort = true := by simpa [hdst] using hno
      exact .inr (.inl ⟨hok.1, hdst, hok.2⟩)
    · obtain ⟨hsrc, hexit⟩ := haddr.resolve_left hdst
      exact .inr (.inr ⟨hsrc, hdst, hexit⟩)

lemma input_cases (pkt : List UInt8) (now : ℕ) :
    (m.input pkt now).1.queue = m.queue ∧ (m.input pkt now).2 ≠ .ok () ∨
      ∃ d, m.arrival pkt = .ok d ∧ d.data.length ≤ maxDgram ∧ m.Admits d ∧
        (m.input pkt now).1.queue = m.queue ++ [m.queuedFor d] ∧ (m.input pkt now).2 = .ok () := by
  cases harr : m.arrival pkt with
  | error d =>
    simp only [input, harr]
    exact .inl ⟨rfl, nofun⟩
  | ok d =>
    obtain ⟨stats, heq⟩ := m.deliver_eq d now
    simp only [input, harr, heq, queueAfter]
    cases hv : m.verdict d with
    | error e => exact .inl ⟨rfl, nofun⟩
    | ok u =>
      obtain ⟨hsize, hadm⟩ := admits_of_verdict harr hv
      exact .inr ⟨d, rfl, hsize, hadm, rfl, rfl⟩

end Mux

/-! ## The checksum -/

lemma wordSum_writeBE16 (v : UInt16) : wordSum (wr16 v) = v.toNat := by
  have hlt := v.toNat_lt
  simp [wordSum, weigh, writeBE16]
  omega

lemma wordSum_udpHeader (srcPort dstPort : UInt16) (n : ℕ) (ck : UInt16) (data : List UInt8) :
    wordSum (udpHeader srcPort dstPort n ck ++ data) =
      srcPort.toNat + dstPort.toNat + (UInt16.ofNat n).toNat + ck.toNat + wordSum data := by
  rw [udpHeader, wordSum_append (by simp), wordSum_append (by simp), wordSum_append (by simp),
    wordSum_append (by simp)]
  simp only [wordSum_writeBE16]

lemma wordSum_covered (src dst : Ipv6Addr) (srcPort dstPort : UInt16) (n : ℕ) (ck : UInt16)
    (data : List UInt8) :
    wordSum (covered src dst (udpHeader srcPort dstPort n ck ++ data)) =
      wordSum (covered src dst (udpHeader srcPort dstPort n 0 ++ data)) + ck.toNat := by
  have hsum : ∀ ck, wordSum (covered src dst (udpHeader srcPort dstPort n ck ++ data)) =
      wordSum (src.toList ++ dst.toList ++ pseudoHeader (8 + data.length)) +
        (srcPort.toNat + dstPort.toNat + (UInt16.ofNat n).toNat + ck.toNat + wordSum data) := by
    intro ck
    have hlen : (udpHeader srcPort dstPort n ck ++ data).length = 8 + data.length := by
      simp [udpHeader]
      omega
    have heven : (src.toList ++ dst.toList ++ pseudoHeader (8 + data.length)).length % 2 = 0 := by
      simp [pseudoHeader]
    rw [covered, hlen, wordSum_append heven, wordSum_udpHeader]
  rw [hsum, hsum, UInt16.toNat_zero]
  omega

lemma verifies_sent (src dst : Ipv6Addr) (srcPort dstPort : UInt16) (hlen : data.length ≤ 65527) :
    Verifies (covered src dst
      (udpHeader srcPort dstPort (8 + data.length) (sentChecksum src dst srcPort dstPort data) ++
        data)) := by
  have hudp : (udpHeader srcPort dstPort (8 + data.length) 0 ++ data).length < 65536 := by
    simp [udpHeader]
    omega
  obtain ⟨hmod, -⟩ :=
    toNat_csumFold (udpSum src dst (udpHeader srcPort dstPort (8 + data.length) 0 ++ data))
  rw [toNat_udpSum src dst hudp] at hmod
  change ((udpChecksum src dst _).toNat + _) % 65535 = 0 at hmod
  rw [Verifies, wordSum_covered, sentChecksum, udpHeaderLen]
  split
  · next hzero =>
    rw [hzero, UInt16.toNat_zero] at hmod
    change _ + 65535 ≠ 0 ∧ (_ + 65535) % 65535 = 0
    omega
  · next hne =>
    have hpos := fun h0 => hne (UInt16.toNat_inj.mp h0)
    change (udpChecksum src dst _).toNat ≠ 0 at hpos
    omega

lemma sentChecksum_ne_zero : sentChecksum src dst srcPort dstPort data ≠ 0 := by
  unfold sentChecksum
  dsimp only
  split
  · decide
  · assumption

/-! ## Reading what was built -/

lemma drop_udpPacket : (udpPacket src dst srcPort dstPort data).drop ipv6HeaderLen =
    udpHeader srcPort dstPort (8 + data.length) (sentChecksum src dst srcPort dstPort data) ++
      data := by
  simp [udpPacket, ipv6HeaderLen, udpHeaderLen, List.drop_append, writeBE16]

lemma length_udpPacket : (udpPacket src dst srcPort dstPort data).length = 48 + data.length := by
  simp [udpPacket, udpHeader]
  omega

lemma isUdp_udpPacket : isUdp (udpPacket src dst srcPort dstPort data) = true := by
  have hver : (udpPacket src dst srcPort dstPort data).getD 0 0 = 0x60 := rfl
  have hlen : ipv6HeaderLen ≤ 48 + data.length := (by decide : 40 ≤ 48).trans (Nat.le_add_right _ _)
  rw [isUdp, length_udpPacket, hver, decide_eq_true hlen]
  rfl

lemma src_udpPacket : bytesAt 16 (udpPacket src dst srcPort dstPort data) 8 = src :=
  bytesAt_eq_of_slice (by simp [slice, udpPacket, writeBE16])

lemma dst_udpPacket : bytesAt 16 (udpPacket src dst srcPort dstPort data) 24 = dst :=
  bytesAt_eq_of_slice (by simp [slice, udpPacket, writeBE16])

lemma payloadLen_udpPacket (hlen : data.length ≤ 65527) :
    (rd16 (udpPacket src dst srcPort dstPort data) 4).toNat = 8 + data.length := by
  have h : rd16 (udpPacket src dst srcPort dstPort data) 4 = UInt16.ofNat (8 + data.length) :=
    bytes16 _
  rw [h, UInt16.toNat_ofNat', Nat.mod_eq_of_lt (by omega)]

/-- Reading a packet inverts building it. -/
theorem readDatagram_udpPacket (hsrc : srcPort ≠ 0) (hdst : dstPort ≠ 0)
    (hlen : data.length ≤ 65527) :
    readDatagram (udpPacket src dst srcPort dstPort data) =
      .ok ⟨src, dst, srcPort, dstPort, data⟩ := by
  have hverifies := verifies_sent src dst srcPort dstPort hlen
  have hck := @sentChecksum_ne_zero src dst srcPort dstPort data
  simp only [readDatagram, payloadLen_udpPacket hlen, length_udpPacket, drop_udpPacket,
    src_udpPacket, dst_udpPacket]
  generalize sentChecksum src dst srcPort dstPort data = ck at hverifies hck
  set udp := udpHeader srcPort dstPort (8 + data.length) ck ++ data with hudp
  have hsize : udp.length = 8 + data.length := by
    simp [hudp, udpHeader]
    omega
  have h0 : rd16 udp 0 = srcPort := bytes16 _
  have h2 : rd16 udp 2 = dstPort := bytes16 _
  have h6 : rd16 udp 6 = ck := bytes16 _
  have h4 : (rd16 udp 4).toNat = 8 + data.length := by
    have h : rd16 udp 4 = UInt16.ofNat (8 + data.length) := bytes16 _
    rw [h, UInt16.toNat_ofNat', Nat.mod_eq_of_lt (by omega)]
  have hdata : udp.drop udpHeaderLen = data := rfl
  rw [h0, h2, h4, h6, List.take_of_length_le hsize.le, hdata,
    (udpChecksum_eq_zero src dst (by omega)).mpr hverifies,
    if_neg (by simp [udpHeaderLen, ipv6HeaderLen]; omega), if_neg (by simp [udpHeaderLen]),
    if_neg hck, if_neg (by simp), if_neg (by simp [hsrc, hdst])]

lemma Mux.arrival_udpPacket (hsrc : srcPort ≠ 0) (hdst : dstPort ≠ 0)
    (hlen : data.length ≤ 65527) (hus : m.localIp = dst) :
    m.arrival (udpPacket src dst srcPort dstPort data) = .ok ⟨src, dst, srcPort, dstPort, data⟩ := by
  rw [arrival, isUdp_udpPacket, if_neg (by simp), dst_udpPacket, if_neg (by simp [hus]),
    readDatagram_udpPacket hsrc hdst hlen]

/-! ## Changing a bit -/

lemma udpPart_udpPacket (hlen : data.length ≤ 65527) :
    udpPart (udpPacket src dst srcPort dstPort data) =
      (udpPacket src dst srcPort dstPort data).drop ipv6HeaderLen := by
  rw [udpPart, payloadLen_udpPacket hlen]
  refine List.take_of_length_le ?_
  rw [List.length_drop, length_udpPacket, ipv6HeaderLen]
  omega

lemma getD_set_of_lt {i j : ℕ} (hj : j < i) (b : UInt8) : (pkt.set i b).getD j 0 = pkt.getD j 0 := by
  rw [List.getD_eq_getElem?_getD, List.getD_eq_getElem?_getD, List.getElem?_set_ne (by omega)]

lemma covered_set (udp : List UInt8) (j : ℕ) (b : UInt8) :
    covered src dst (udp.set j b) = (covered src dst udp).set (40 + j) b := by
  have hlen : (src.toList ++ dst.toList ++ pseudoHeader udp.length).length = 40 := by
    simp [pseudoHeader]
  rw [covered, covered, List.length_set, List.set_append_right _ _ (by omega), hlen,
    Nat.add_sub_cancel_left]

/-- A packet with a correct checksum is dropped once a bit that the checksum covers has changed. -/
lemma Mux.input_flipped {p : List UInt8} (hsrc : bytesAt 16 p 8 = src) (hdst : bytesAt 16 p 24 = dst)
    (hpart : udpPart p = p.drop ipv6HeaderLen)
    (hp : Verifies (covered src dst (p.drop ipv6HeaderLen))) {i k : ℕ} (hi : ipv6HeaderLen ≤ i)
    (hi' : i < p.length) (hk : k < 8) :
    let pkt := p.set i (flipBit p[i] k)
    (m.input pkt now).1.queue = m.queue ∧ (m.input pkt now).2 ≠ .ok () := by
  intro pkt
  obtain hdropped | ⟨d, harr, -⟩ := input_cases pkt now
  · exact hdropped
  exfalso
  have hwf := wellFormed_of_arrival harr
  have hhead : ∀ j < ipv6HeaderLen, pkt.getD j 0 = p.getD j 0 :=
    fun j hj => getD_set_of_lt (by omega) _
  have haddr : ∀ j, j + 16 ≤ ipv6HeaderLen → bytesAt 16 pkt j = bytesAt 16 p j := by
    intro j hj
    refine Vector.ext fun l hl => ?_
    simpa [bytesAt] using hhead (j + l) (by omega)
  have hpart' : udpPart pkt = (p.drop ipv6HeaderLen).set (i - ipv6HeaderLen) (flipBit p[i] k) := by
    have hn : rd16 pkt 4 = rd16 p 4 := by
      simp only [readBE16, hhead 4 (by decide), hhead (4 + 1) (by decide)]
    rw [udpPart, hn, List.drop_set, if_neg (by omega), List.take_set]
    exact congrArg (List.set · _ _) hpart
  have hsize : (src.toList ++ dst.toList ++ pseudoHeader (p.drop ipv6HeaderLen).length).length =
      40 := by
    simp [pseudoHeader]
  have hlt : 40 + (i - ipv6HeaderLen) < (covered src dst (p.drop ipv6HeaderLen)).length := by
    rw [covered, List.length_append, hsize, List.length_drop]
    omega
  have hbyte : (covered src dst (p.drop ipv6HeaderLen))[40 + (i - ipv6HeaderLen)] = p[i] := by
    simp only [covered]
    rw [List.getElem_append_right (by omega), List.getElem_drop]
    congr 1
    omega
  -- the checksum covers the changed bit, so the packet cannot have been read
  apply not_verifies_flip hp hlt hk
  rw [hbyte, ← covered_set, ← hpart', ← hsrc, ← hdst, ← haddr 8 (by decide),
    ← haddr 24 (by decide), ← hwf.src, ← hwf.dst]
  exact hwf.checksum

/-! ## The round trip -/

lemma Mux.deliver_spec (m : Mux) (now : ℕ) (hlen : d.data.length ≤ maxDgram)
    (hsrc : d.src = m.remoteIp) (hdst : d.dst = m.localIp) (hlisten : m.listening d.dstPort = true) :
    if m.queue.length < queueLen then
      (m.deliver d now).2 = .ok () ∧ (m.deliver d now).1.queue = m.queue ++
        [{ localPort := d.dstPort, remotePort := d.srcPort, dst := ⟨.unset, 0⟩, data := d.data }]
    else (m.deliver d now).2 = .error .again ∧ (m.deliver d now).1.queue = m.queue := by
  have hverdict : m.verdict d = if m.queue.length ≥ queueLen then .error .again else .ok () := by
    rw [verdict, if_neg (by simp [hsrc, hlisten]), if_neg (Nat.not_lt.mpr hlen)]
  obtain ⟨stats, heq⟩ := m.deliver_eq d now
  rw [heq, queueAfter, hverdict]
  split
  · next hroom =>
    rw [if_neg (Nat.not_le.mpr hroom)]
    simp [queuedFor, hsrc, hdst]
  · next hfull =>
    rw [if_pos (Nat.not_lt.mp hfull)]
    exact ⟨rfl, rfl⟩

/-- For every payload up to the maximum size, all addresses and all non-zero ports: the packet that
one multiplexer sends is queued by the multiplexer at the destination, where the port is listened on,
with exactly its payload and ports and as coming from the peer, if there is room in the queue; and
with any one bit of its UDP header or payload changed it is dropped. -/
theorem send_roundtrip (a b : Mux) (srcPort dstPort : UInt16) (data : List UInt8) (now now' : ℕ)
    (hsrc : srcPort ≠ 0) (hdst : dstPort ≠ 0) (hlen : data.length ≤ maxDgram)
    (hpeer : b.remoteIp = a.localIp) (hlisten : b.listening dstPort = true) :
    ∃ pkt, (a.sendOne srcPort dstPort b.localIp data now).2 = .ok () ∧
      (a.sendOne srcPort dstPort b.localIp data now).1.sent = a.sent ++ [pkt] ∧
      (if b.queue.length < queueLen then
        (b.input pkt now').2 = .ok () ∧ (b.input pkt now').1.queue = b.queue ++
          [{ localPort := dstPort, remotePort := srcPort, dst := ⟨.unset, 0⟩, data }]
      else (b.input pkt now').2 = .error .again ∧ (b.input pkt now').1.queue = b.queue) ∧
      ∀ i k, ipv6HeaderLen ≤ i → ∀ hi : i < pkt.length, k < 8 →
        (b.input (pkt.set i (flipBit pkt[i] k)) now').2 ≠ .ok () ∧
          (b.input (pkt.set i (flipBit pkt[i] k)) now').1.queue = b.queue := by
  have hmax : data.length ≤ 65527 := hlen.trans (by decide)
  refine ⟨udpPacket a.localIp b.localIp srcPort dstPort data, ?_, ?_, ?_, ?_⟩
  · rw [sendOne, if_neg (by simp [hsrc, hdst]), if_neg (by omega)]
  · have hsent : ∀ (m : Mux) (ip : Option Ipv6Addr),
        (m.remember srcPort dstPort ip now).sent = m.sent := by
      intro m ip
      unfold remember
      split
      · rfl
      · split <;> rfl
    rw [sendOne, if_neg (by simp [hsrc, hdst]), if_neg (by omega)]
    simp only [emit, hsent]
  · have harr : b.arrival (udpPacket a.localIp b.localIp srcPort dstPort data) =
        .ok ⟨a.localIp, b.localIp, srcPort, dstPort, data⟩ :=
      arrival_udpPacket hsrc hdst hmax rfl
    simp only [input, harr]
    exact b.deliver_spec now' hlen hpeer.symm rfl hlisten
  · intro i k hi hi' hk
    refine (input_flipped src_udpPacket dst_udpPacket (udpPart_udpPacket hmax) ?_ hi hi' hk).symm
    rw [drop_udpPacket]
    exact verifies_sent _ _ srcPort dstPort hmax

def nodeIp : Ipv6Addr := Vector.replicate 16 1

/-- The peer of `nodeIp`. -/
def peerIp : Ipv6Addr := Vector.replicate 16 2

/-- A payload of odd length on its way between two fresh multiplexers. -/
theorem send_roundtrip_odd :
    let a := muxNew nodeIp peerIp
    let b := ((muxNew peerIp nodeIp).listen 53).1
    ∃ pkt, (a.sendOne 49152 53 peerIp [1, 2, 3] 0).2 = .ok () ∧
      (a.sendOne 49152 53 peerIp [1, 2, 3] 0).1.sent = [] ++ [pkt] ∧
      (if 0 < queueLen then
        (b.input pkt 5).2 = .ok () ∧ (b.input pkt 5).1.queue = [] ++
          [{ localPort := 53, remotePort := 49152, dst := ⟨.unset, 0⟩, data := [1, 2, 3] }]
      else (b.input pkt 5).2 = .error .again ∧ (b.input pkt 5).1.queue = []) ∧
      ∀ i k, ipv6HeaderLen ≤ i → ∀ hi : i < pkt.length, k < 8 →
        (b.input (pkt.set i (flipBit pkt[i] k)) 5).2 ≠ .ok () ∧
          (b.input (pkt.set i (flipBit pkt[i] k)) 5).1.queue = [] :=
  send_roundtrip (muxNew nodeIp peerIp) ((muxNew peerIp nodeIp).listen 53).1 49152 53
    [1, 2, 3] 0 5 (by decide) (by decide) (by decide) rfl (by decide)

end Udp
