import Tailcat.Addr.Parse

/-!
# Addresses round trip

`elide` says what the encoder drops; the parser gives back what is left, with the dropped fields
restored, and the encoder writes the same address for that.

## Main results

* `parse_encode`: an address that is written is read, and written again as it was.
-/

namespace Addr

open Base64Url Appending Cbor List

/-! ## What the encoder drops -/

def Node.elide (n : Node) : Node := { n with name := n.writtenName, regionId := 0 }

def Region.elide (reg : Region) : Region := ⟨0, [], [], reg.nodes.map Node.elide⟩

def elide (ci : ConnInfo) : ConnInfo := { ci with regions := ci.regions.map Region.elide }

/-- The fields of a node that are not dropped are the same. -/
structure Node.Agrees (n n' : Node) : Prop where
  name : n.hostname = [] → n'.name = n.name
  hostname : n'.hostname = n.hostname
  certName : n'.certName = n.certName
  ipv4 : n'.ipv4 = n.ipv4
  ipv6 : n'.ipv6 = n.ipv6
  stunPort : n'.stunPort = n.stunPort
  derpPort : n'.derpPort = n.derpPort
  insecureForTests : n'.insecureForTests = n.insecureForTests

/-- The fields of a connection information that are not dropped are the same. -/
structure Agrees (ci ci' : ConnInfo) : Prop where
  serverPublic : ci'.serverPublic = ci.serverPublic
  serverDiscoPublic : ci'.serverDiscoPublic = ci.serverDiscoPublic
  presharedKey : ci'.presharedKey = ci.presharedKey
  regionId : ci'.regionId = ci.regionId
  regions : List.Forall₂ (fun reg reg' => List.Forall₂ Node.Agrees reg.nodes reg'.nodes)
    ci.regions ci'.regions

/-- The ports of a node are ports, or −1. -/
structure Node.PortsFit (n : Node) : Prop where
  stunPort : -1 ≤ n.stunPort ∧ n.stunPort ≤ 65535
  derpPort : -1 ≤ n.derpPort ∧ n.derpPort ≤ 65535

/-! ## Nodes -/

lemma IsText.readText {cap : ℕ} {s : List UInt8} (h : IsText cap s) (hcap : cap < 2 ^ 64)
    (rest : List UInt8) : Cbor.readText cap (text s ++ rest) = .ok (s, rest) :=
  readText_text h.fits h.nul h.utf8 (lt_trans h.fits hcap) rest

lemma readPort_int {v : Int32} (h : -1 ≤ v ∧ v ≤ 65535) (rest : List UInt8) :
    readPort (int v.toInt64 ++ rest) = .ok (v, rest) := by
  have hlow : (-1 : Int) ≤ v.toInt := Int32.le_iff_toInt_le.mp h.1
  have hhigh : v.toInt ≤ 65535 := Int32.le_iff_toInt_le.mp h.2
  have hrange : ¬ (v.toInt64 < -1 ∨ v.toInt64 > 65535) := by
    rw [gt_iff_lt, Int64.lt_iff_toInt_lt, Int64.lt_iff_toInt_lt, Int32.toInt_toInt64]
    change ¬ (v.toInt < -1 ∨ 65535 < v.toInt)
    omega
  rw [readPort, readInt_int]
  change (if v.toInt64 < -1 ∨ v.toInt64 > 65535 then _ else _) = _
  rw [if_neg hrange, Int32.toInt32_toInt64]

variable {n : Node} {ci : ConnInfo}

lemma Node.Fits.writtenName (h : n.Fits) : IsText dnsNameMax n.writtenName := by
  unfold Node.writtenName
  split_ifs
  · exact ⟨by decide, not_mem_nil, rfl⟩
  · exact h.name

lemma nodePairCount_le (n : Node) (name : List UInt8) :
    nodePairCount n name ≤ 1 + 1 + 1 + 1 + 1 + 1 + 1 + 1 := by
  repeat' apply Nat.add_le_add
  all_goals exact pair_le_one _

lemma parseNode_node (hfits : n.Fits) (hports : n.PortsFit) (rest : List UInt8) :
    parseNode (node n ++ rest) = .ok (n.elide, rest) := by
  refine parseMap_map ?_ ((nodePairCount_le n _).trans_lt (by decide)) ?_
  · simp only [nodePairCount, Nat.add_assoc]
    repeat apply two_mul_pair_append_le
    exact two_mul_pair_le _ _
  rw [nodePairCount, ← Nat.add_zero (pair n.insecureForTests)]
  simp only [Nat.add_assoc, append_assoc]
  let n1 : Node := { Node.zero with name := n.writtenName }
  let n2 : Node := { n1 with hostname := n.hostname }
  let n3 : Node := { n2 with certName := n.certName }
  let n4 : Node := { n3 with ipv4 := n.ipv4 }
  let n5 : Node := { n4 with ipv6 := n.ipv6 }
  let n6 : Node := { n5 with stunPort := n.stunPort }
  let n7 : Node := { n6 with derpPort := n.derpPort }
  refine (fields_entry_ne (fun s => { Node.zero with name := s })
    (hfits.writtenName.readText (by decide)) _).trans ?_
  refine (fields_entry_ne (fun s => { n1 with hostname := s })
    (hfits.hostname.readText (by decide)) _).trans ?_
  refine (fields_entry_ne (fun s => { n2 with certName := s })
    (hfits.certName.readText (by decide)) _).trans ?_
  refine (fields_entry_ne (fun s => { n3 with ipv4 := s })
    (hfits.ipv4.readText (by decide)) _).trans ?_
  refine (fields_entry_ne (fun s => { n4 with ipv6 := s })
    (hfits.ipv6.readText (by decide)) _).trans ?_
  refine (fields_entry_ne (fun v => { n5 with stunPort := v })
    (readPort_int hports.stunPort) _).trans ?_
  refine (fields_entry_ne (fun v => { n6 with derpPort := v })
    (readPort_int hports.derpPort) _).trans ?_
  refine (fields_entry (fun v => { n7 with insecureForTests := v }) n.insecureForTests
    (fun h rest => by rw [h]; exact readBool_bool true rest)
    (fun h => by rw [Bool.not_eq_true] at h; rw [h]; rfl) rest).trans ?_
  rfl

/-! ## Regions -/

lemma parseRegion_region {reg : Region} (hfits : reg.Fits)
    (hports : ∀ n ∈ reg.nodes, n.PortsFit) (rest : List UInt8) :
    parseRegion (region reg ++ rest) = .ok (reg.elide, rest) := by
  have hcount : reg.nodes.length ≤ 8 := hfits.count
  have hpos : ∀ n ∈ reg.nodes, 0 < (node n).length := by
    intro n _
    have hhead := length_head_pos 5 (nodePairCount n n.writtenName)
    rw [node, length_append]
    omega
  have harray := parseArray_array hfits.count (by omega) hpos
    fun n hn => parseNode_node (hfits.nodes n hn) (hports n hn)
  have hpair := pair_le_one (reg.nodes ≠ [])
  refine parseMap_map (two_mul_pair_le 'N' _) (by omega) ?_
  rw [← Nat.add_zero (pair (reg.nodes ≠ []))]
  refine (fields_entry (fun l => { Region.zero with nodes := l }) (reg.nodes.map Node.elide)
    (fun _ => harray) (fun h => by rw [not_not.mp h]; rfl) rest).trans ?_
  rfl

/-! ## The whole -/

lemma readKey_bytes (v : Key) (rest : List UInt8) :
    readBytesExact 32 (bytes v.toList ++ rest) = .ok (v, rest) :=
  readBytesExact_bytes v (by decide) rest

lemma fields_key {key : Option Key} {k : Char} {pairs : ℕ} {x : ConnInfo × Bool}
    (set : Option Key → ConnInfo × Bool) (rest : List UInt8) (hk : k.toNat < 0x80 := by decide)
    (hfield : infoField k x = into (fun v => set (some v)) (readBytesExact 32) := by rfl)
    (hnone : set none = x := by rfl) :
    fields infoField (pair key.isSome + pairs) x
        (entry key.isSome k (bytes (key.getD (Vector.replicate 32 0)).toList) ++ rest) =
      fields infoField pairs (set key) rest := by
  cases key with
  | none =>
    rw [hnone, pair, if_neg (by simp), entry, if_neg (by simp), Nat.zero_add, nil_append]
  | some v => exact fields_entry _ v (fun _ => readKey_bytes v) (fun h => absurd rfl h) rest hk hfield

lemma parseMap_info (hfits : ci.Fits) (hports : ∀ reg ∈ ci.regions, ∀ n ∈ reg.nodes, n.PortsFit)
    (rest : List UInt8) :
    parseMap infoField (ConnInfo.zero, false) (info ci ++ rest) = .ok ((elide ci, true), rest) := by
  have hcount : ci.regions.length ≤ 2 := hfits.count
  have hpos : ∀ reg ∈ ci.regions, 0 < (region reg).length := by
    intro reg _
    have hhead := length_head_pos 5 (pair (reg.nodes ≠ []))
    rw [region, length_append]
    omega
  have harray := parseArray_array hfits.count (by omega) hpos
    fun reg hreg => parseRegion_region (hfits.regions reg hreg) (hports reg hreg)
  have hk := pair_le_one ci.serverDiscoPublic.isSome
  have hq := pair_le_one ci.presharedKey.isSome
  have hr := pair_le_one (ci.regions ≠ [])
  have hi := pair_le_one (ci.regionId ≠ 0)
  refine parseMap_map ?_ (by omega) ?_
  · change 2 * (pair True + _ + _ + _ + _) ≤ _
    simp only [Nat.add_assoc]
    repeat apply two_mul_pair_append_le
    exact two_mul_pair_le _ _
  rw [← Nat.add_zero (pair (ci.regionId ≠ 0))]
  simp only [Nat.add_assoc, append_assoc]
  let ci1 : ConnInfo := { ConnInfo.zero with serverPublic := ci.serverPublic }
  let ci2 : ConnInfo := { ci1 with serverDiscoPublic := ci.serverDiscoPublic }
  let ci3 : ConnInfo := { ci2 with presharedKey := ci.presharedKey }
  let ci4 : ConnInfo := { ci3 with regions := ci.regions.map Region.elide }
  refine (fields_entry (fun v => ({ ConnInfo.zero with serverPublic := v }, true)) ci.serverPublic
    (fun _ => readKey_bytes _) (fun h => absurd trivial h) _).trans ?_
  refine (fields_key (fun v => ({ ci1 with serverDiscoPublic := v }, true)) _).trans ?_
  refine (fields_key (fun v => ({ ci2 with presharedKey := v }, true)) _).trans ?_
  refine (fields_entry (fun l => ({ ci3 with regions := l }, true)) (ci.regions.map Region.elide)
    (fun _ => harray) (fun h => by rw [not_not.mp h]; rfl) _).trans ?_
  refine (fields_entry_ne (fun v => ({ ci4 with regionId := v }, true)) (readInt_int _) _).trans ?_
  rfl

lemma parse_info (hfits : ci.Fits) (hports : ∀ reg ∈ ci.regions, ∀ n ∈ reg.nodes, n.PortsFit)
    (hlen : (info ci).length ≤ addrCborMax) :
    parse (addrTag ++ encodeLoop (info ci)) = .ok (restoreElided (elide ci)) := by
  have hmap := parseMap_info hfits hports []
  rw [append_nil] at hmap
  have hmax : ¬ decodedMax (encodeLoop (info ci)).length > addrCborMax := by
    rw [length_encodeLoop, decodedMax_encodedLen]
    omega
  rw [parse, parseInto, drop_left]
  rw [if_neg hmax, decode_encodeLoop hlen]
  change (parseMap infoField (ConnInfo.zero, false) (info ci) >>= _) = _
  rw [hmap]
  rfl

/-! ## Writing again -/

lemma writtenName_restore (regionId : Int64) (n : Node) :
    (restoreNode regionId n.elide).writtenName = n.writtenName := by
  unfold Node.writtenName restoreNode Node.elide
  dsimp only
  split_ifs with hhost hname
  · rfl
  · -- neither has a name
    rw [not_not.mp hhost]
    simpa [Node.writtenName, hhost] using hname.symm
  · simp [Node.writtenName, hhost]

lemma node_restore (regionId : Int64) (n : Node) :
    node (restoreNode regionId n.elide) = node n := by
  unfold node
  rw [writtenName_restore]
  rfl

lemma region_restore (ri : ℕ) (reg : Region) :
    region (restoreRegion ri reg.elide) = region reg := by
  simp only [region, restoreRegion, Region.elide, ne_eq, map_eq_nil_iff, length_map,
    flatMap_map, node_restore]

lemma forall₂_mapIdx {R : Region → Region → Prop} {f : ℕ → Region → Region}
    (h : ∀ ri reg, R reg (f ri reg.elide)) (l : List Region) :
    List.Forall₂ R l ((l.map Region.elide).mapIdx f) := by
  induction l generalizing f with
  | nil => exact .nil
  | cons reg l ih =>
    rw [map_cons, mapIdx_cons]
    exact .cons (h 0 reg) (ih fun ri => h (ri + 1))

lemma flatMap_region_eq {l l' : List Region}
    (h : List.Forall₂ (fun reg reg' => region reg = region reg') l l') :
    l.flatMap region = l'.flatMap region := by
  induction h with
  | nil => rfl
  | cons hreg _ ih => rw [flatMap_cons, flatMap_cons, hreg, ih]

lemma info_restore (ci : ConnInfo) : info (restoreElided (elide ci)) = info ci := by
  have hregions := flatMap_region_eq
    (forall₂_mapIdx (fun ri reg => (region_restore ri reg).symm) ci.regions)
  have hlen : (restoreElided (elide ci)).regions.length = ci.regions.length := by
    simp [restoreElided, elide]
  have hnil : (restoreElided (elide ci)).regions ≠ [] ↔ ci.regions ≠ [] := by
    simp [restoreElided, elide]
  unfold info
  simp only [hnil, hlen, hregions]
  rfl

lemma agrees_restoreNode (regionId : Int64) (n : Node) :
    n.Agrees (restoreNode regionId n.elide) where
  name h := by
    have hname := writtenName_restore regionId n
    have hhost : (restoreNode regionId n.elide).hostname = [] := h
    simpa only [Node.writtenName, h, hhost, ne_eq, not_true_eq_false, if_false] using hname
  hostname := rfl
  certName := rfl
  ipv4 := rfl
  ipv6 := rfl
  stunPort := rfl
  derpPort := rfl
  insecureForTests := rfl

lemma agrees_restore (ci : ConnInfo) : Agrees ci (restoreElided (elide ci)) where
  serverPublic := rfl
  serverDiscoPublic := rfl
  presharedKey := rfl
  regionId := rfl
  regions := by
    refine forall₂_mapIdx (fun ri reg => ?_) ci.regions
    simp only [restoreRegion, Region.elide, forall₂_map_right_iff, forall₂_same]
    exact fun n _ => agrees_restoreNode _ n

/-- For every connection information within the limits of its arrays, with strings in UTF-8 and ports
from −1 to 65535: if an address is written for it, then the address is read as what is left after
dropping and restoring the fields that can be derived, which agrees with the original in every other
field, and the same address is written for that. -/
theorem parse_encode {ci : ConnInfo} (hfits : ci.Fits)
    (hports : ∀ reg ∈ ci.regions, ∀ n ∈ reg.nodes, n.PortsFit) {cap : ℕ} {out : List UInt8}
    (henc : encode cap ci = .ok out) :
    parse out = .ok (restoreElided (elide ci)) ∧ Agrees ci (restoreElided (elide ci)) ∧
      encode cap (restoreElided (elide ci)) = .ok out := by
  obtain ⟨hcount, hlen, hcap, rfl⟩ := encode_eq_ok_iff.mp henc
  refine ⟨parse_info hfits hports hlen, agrees_restore ci, encode_eq_ok_iff.mpr ?_⟩
  rw [info_restore]
  exact ⟨by simpa [restoreElided, elide] using hcount, hlen, hcap, rfl⟩

/-- One relay with a hostname, in a region with an ID of its own. -/
def oneRelay : ConnInfo :=
  ⟨Vector.replicate 32 7, none, none,
    [⟨900, ascii "lab", [], [⟨ascii "a", ascii "relay.example", [], [], [], 900, 0, 443, false⟩]⟩], 0⟩

/-- The region and the node are numbered anew, and the node takes the name of its host. -/
theorem parse_encode_oneRelay :
    ∃ out, encode 128 oneRelay = .ok out ∧
      parse out = .ok ⟨Vector.replicate 32 7, none, none, [⟨1, ascii "1", [],
        [⟨ascii "relay.example", ascii "relay.example", [], [], [], 1, 0, 443, false⟩]⟩], 0⟩ := by
  have hfits : oneRelay.Fits := by
    refine ⟨by decide, fun reg hreg => ?_⟩
    obtain rfl := mem_singleton.mp hreg
    refine ⟨?_, ?_, by decide, fun n hn => ?_⟩
    · exact ⟨by decide, by decide, by decide⟩
    · exact ⟨by decide, by decide, by decide⟩
    · obtain rfl := mem_singleton.mp hn
      refine ⟨?_, ?_, ?_, ?_, ?_⟩ <;> exact ⟨by decide, by decide, by decide⟩
  have hports : ∀ reg ∈ oneRelay.regions, ∀ n ∈ reg.nodes, n.PortsFit := by
    intro reg hreg n hn
    obtain rfl := mem_singleton.mp hreg
    obtain rfl := mem_singleton.mp hn
    exact ⟨by decide, by decide⟩
  have henc : encode 128 oneRelay =
      .ok (addrTag ++ encodeLoop (info oneRelay)) :=
    encode_eq_ok_iff.mpr ⟨by decide, by decide +kernel, by decide +kernel, rfl⟩
  exact ⟨_, henc, (parse_encode hfits hports henc).1⟩

end Addr
