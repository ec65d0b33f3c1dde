import Tailcat.Tcp.MuxTable
import Tailcat.Tcp.Early

/-!
# Damaged packets

A packet whose checksum or data offset is wrong is refused by the connection it is handed to. But the
multiplexer acts on one such packet before any connection has seen it: a bare SYN for a pair in
`TIME_WAIT` frees that pair.

## Main results

* `damaged_inert_iff`: a damaged packet leaves the table and the backlog alone iff it is no such SYN;
* `damaged_syn_frees`: a damaged SYN frees a connection.
-/

namespace Tcp

open Conn (fromPeer)

variable {c : Conn} {pkt : List UInt8} {now : ℕ}

/-- The bytes that the TCP checksum of a packet is taken over, after the pseudo-header. -/
def checksummed (pkt : List UInt8) : List UInt8 :=
  (((pkt.drop ipv6HeaderLen).take (rd16 pkt 4).toNat).set 16 0).set 17 0

/-- The checksum of the packet is wrong, or its data offset is out of range. -/
def Damaged (pkt : List UInt8) : Prop :=
  tcpChecksum (addrAt pkt 8) (addrAt pkt 24) (checksummed pkt) ≠ rd16 (pkt.drop ipv6HeaderLen) 16 ∨
    ((pkt.drop ipv6HeaderLen).getD 12 0 >>> 4).toNat * 4 < tcpHeaderLen ∨
    ((pkt.drop ipv6HeaderLen).getD 12 0 >>> 4).toNat * 4 > (rd16 pkt 4).toNat
deriving Decidable

lemma parse_of_damaged (h : Damaged pkt) (s : Segment) : parse c pkt ≠ .segment s := by
  intro hparse
  unfold parse at hparse
  dsimp only at hparse
  split_ifs at hparse with hlen hver htotal haddr hport hsport hmax hck hoff
  obtain ⟨hsrc, hdst⟩ := not_or.mp haddr
  have hsrc : addrAt pkt 8 = c.addr.remoteIp := Fields.bytesAt_eq_of_slice (not_not.mp hsrc)
  have hdst : addrAt pkt 24 = c.addr.localIp := Fields.bytesAt_eq_of_slice (not_not.mp hdst)
  rcases h with hbad | hbad
  · rw [hsrc, hdst] at hbad
    exact hck hbad
  · exact hoff hbad

def SameProtocol (c c' : Conn) : Prop := c' = { c with lastNow := c'.lastNow, stats := c'.stats }

lemma sameProtocol_tcpInput (h : Damaged pkt) (c : Conn) (iss : UInt32) (now : ℕ) :
    SameProtocol c (c.tcpInput pkt iss now) := by
  unfold Conn.tcpInput
  dsimp only
  split
  · rfl
  · rfl
  · next s hparse => exact absurd hparse (parse_of_damaged h s)

namespace Mux

variable {m m' : Mux} {draw : Draw} {sent : Bool}

/-- The table holds the same connections, with the same protocol state and buffers, and the backlog
is the same. -/
structure Inert (m m' : Mux) : Prop where
  conns : List.Forall₂ (fun e e' => e'.ptr = e.ptr ∧ SameProtocol e.conn e'.conn) m.conns m'.conns
  backlog : m'.backlog = m.backlog

lemma SameTable.inert (h : SameTable m m') : Inert m m' := by
  refine ⟨?_, h.backlog⟩
  rw [h.conns]
  exact List.forall₂_same.mpr fun _ _ => ⟨rfl, rfl⟩

lemma Inert.ptrs (h : Inert m m') : m'.ptrs = m.ptrs := by
  have hmap : ∀ {l l' : List Entry},
      List.Forall₂ (fun e e' => e'.ptr = e.ptr ∧ SameProtocol e.conn e'.conn) l l' →
        l'.map Entry.ptr = l.map Entry.ptr := by
    intro l l' hl
    induction hl with
    | nil => rfl
    | cons hd _ ih => rw [List.map_cons, List.map_cons, hd.1, ih]
  exact hmap h.conns

lemma sameTable_acceptSyn (h : m.Valid) (hbad : Damaged pkt) (localIp : Ipv6Addr)
    (localPort : UInt16) (draw : Draw) (now : ℕ) :
    SameTable m (m.acceptSyn localIp localPort pkt draw now) := by
  unfold acceptSyn
  dsimp only
  split
  · exact ⟨rfl, rfl, le_rfl⟩
  split
  · exact ⟨rfl, rfl, le_rfl⟩
  rename_i mem _
  split
  · exact ⟨rfl, rfl, le_rfl⟩
  rw [if_pos]
  · exact sameTable_register_dropAt h _
  · -- it is still listening
    rw [sameProtocol_tcpInput hbad _ draw.iss now]
    nofun

lemma sameTable_inputUnowned (h : m.Valid) (hbad : Damaged pkt) (draw : Draw) (sent : Bool)
    (now : ℕ) : SameTable m (m.inputUnowned pkt draw sent now) := by
  unfold inputUnowned
  dsimp only
  split_ifs
  · exact ⟨rfl, rfl, le_rfl⟩
  · exact ⟨rfl, rfl, le_rfl⟩
  · exact sameTable_acceptSyn h hbad _ _ draw now
  · exact ⟨rfl, rfl, le_rfl⟩
  · exact ⟨rfl, rfl, le_rfl⟩

/-- The packet is taken for the peer reusing a pair in `TIME_WAIT`. -/
def reusesPair (m : Mux) (pkt : List UInt8) : Bool :=
  let tuple := fourTuple pkt
  carriesTcp pkt && bareSyn pkt &&
    (m.findConn (some tuple.localIp) tuple.localPort (some tuple.remoteIp) tuple.remotePort).any
      fun e => e.conn.state == .timeWait

lemma inert_input_iff (h : m.Valid) (hbad : Damaged pkt) (draw : Draw) (sent : Bool) (now : ℕ) :
    Inert m (m.input pkt draw sent now) ↔ m.reusesPair pkt = false := by
  unfold input reusesPair
  split
  · next htcp => exact ⟨fun _ => by simp [htcp], fun _ => SameTable.inert ⟨rfl, rfl, le_rfl⟩⟩
  rename_i htcp
  rw [show carriesTcp pkt = true by simpa using htcp]
  dsimp only
  cases hfind : m.findConn (some (fourTuple pkt).localIp) (fourTuple pkt).localPort
      (some (fourTuple pkt).remoteIp) (fourTuple pkt).remotePort with
  | none =>
    refine ⟨fun _ => by simp, fun _ => ?_⟩
    exact (sameTable_inputUnowned h hbad draw sent now).inert
  | some e =>
    obtain ⟨he, -⟩ := mem_of_findConn hfind
    dsimp only
    split
    · next hreuse =>
      refine ⟨fun hinert => ?_, fun hno => ?_⟩
      · -- the freed connection is missing from the table
        have hdrop := drops_dropPtr h e.ptr
        have hsame := sameTable_inputUnowned (hdrop.valid h) hbad draw sent now
        have hmem : e.ptr ∈ m.ptrs := mem_ptrs.mpr ⟨e, he, rfl⟩
        rw [← hinert.ptrs, ptrs, hsame.conns] at hmem
        obtain ⟨d, hd, heq⟩ := List.mem_map.mp hmem
        exact absurd heq (by simpa using (hdrop.mem_conns.mp hd).2)
      · simp [hreuse.1, hreuse.2] at hno
    · next hreuse =>
      refine ⟨fun _ => ?_, fun _ => ⟨?_, rfl⟩⟩
      · by_contra hyes
        simp only [Bool.not_eq_false, Bool.and_eq_true, Option.any_some, beq_iff_eq,
          Bool.true_and] at hyes
        exact hreuse ⟨hyes.2, hyes.1⟩
      · change List.Forall₂ _ m.conns (m.conns.map _)
        rw [List.forall₂_map_right_iff]
        refine List.forall₂_same.mpr fun d _ => ?_
        split
        · exact ⟨rfl, sameProtocol_tcpInput hbad d.conn draw.iss now⟩
        · exact ⟨rfl, rfl⟩

/-- In every state of the multiplexer, a damaged packet changes no connection's protocol state and
neither adds nor removes anything, iff it is not taken for a pair in `TIME_WAIT` being reused. -/
theorem damaged_inert_iff (localIp remoteIp : Ipv6Addr) (seed : UInt16) (calls : List Call)
    (pkt : List UInt8) (hbad : Damaged pkt) (draw : Draw) (sent : Bool) (now : ℕ) :
    let m := (muxNew localIp remoteIp seed).run calls
    Inert m (m.input pkt draw sent now) ↔ m.reusesPair pkt = false :=
  inert_input_iff (valid_run localIp remoteIp seed calls) hbad draw sent now

/-! ## A pair in `TIME_WAIT` -/

def someDraw : Draw := { mem := some ⟨fun _ => 0, fun _ => 0⟩, iss := 100 }

/-- A connection is accepted, closed by both ends and left in `TIME_WAIT`. -/
def closedByBoth : List Call :=
  [.listen 9, .input (fromPeer synFor) someDraw true 1, .accept,
    .input (fromPeer { synFor with seq := 6, ack := 101, flags := thAck }) someDraw true 2,
    .onConn 0 (.shutdownWrite 3),
    .input (fromPeer { synFor with seq := 6, ack := 102, flags := thAck ||| thFin }) someDraw true 4]

def inTimeWait : Mux := (muxNew (Vector.replicate 16 1) (Vector.replicate 16 2) 0).run closedByBoth

def damage (s : Segment) : List UInt8 := (fromPeer s).modify 56 (· + 1)

theorem damaged_inert_ack :
    Inert inTimeWait (inTimeWait.input (damage { synFor with flags := thAck }) someDraw true 5) ∧
      inTimeWait.conns.length = 1 :=
  ⟨(damaged_inert_iff (Vector.replicate 16 1) (Vector.replicate 16 2) 0 closedByBoth
    (damage { synFor with flags := thAck }) (by decide +kernel) someDraw true 5).mpr
      (by decide +kernel), by decide +kernel⟩

/-- A damaged SYN frees the connection in `TIME_WAIT`. -/
theorem damaged_syn_frees :
    ¬∀ (localIp remoteIp : Ipv6Addr) (seed : UInt16) (calls : List Call) (pkt : List UInt8),
      Damaged pkt → ∀ (draw : Draw) (sent : Bool) (now : ℕ),
        Inert ((muxNew localIp remoteIp seed).run calls)
          (((muxNew localIp remoteIp seed).run calls).input pkt draw sent now) := by
  intro h
  have hinert := h (Vector.replicate 16 1) (Vector.replicate 16 2) 0 closedByBoth (damage synFor)
    (by decide +kernel) someDraw true 5
  exact absurd hinert.conns.length_eq (by decide +kernel)

end Mux

end Tcp
