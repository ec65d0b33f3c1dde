import Tailcat.Json.Writing
import Tailcat.Keyfile.Parse

/-!
# Key files are read back

What is printed for strings that need no escapes is a document, and `tc_keyfile_parse` makes of its
events what has been printed.

## Main results

* `parse_text`: the text of a key file whose strings need no escapes is read back.
-/

open Addr Json List
open Rfc8259 (quoted Structural valueSeparator)

namespace Keyfile

/-! ## What is saved -/

def savedNode (node : Node) : Node :=
  { Node.zero with hostname := node.hostname, ipv4 := node.ipv4, ipv6 := node.ipv6 }

def savedRegion (reg : Region) : Region :=
  { Region.zero with regionId := reg.regionId, nodes := reg.nodes.map savedNode }

def saved (k : Keyfile) : Keyfile :=
  { k with pub := { k.pub with regions := k.pub.regions.map savedRegion } }

def nodeStrings (node : Node) : List (List UInt8) := [node.hostname, node.ipv4, node.ipv6]

def strings (k : Keyfile) : List (List UInt8) :=
  k.pub.regions.flatMap fun reg => reg.nodes.flatMap nodeStrings

/-- No string needs an escape: none has a quotation mark, a backslash or a control character. -/
def Clean (k : Keyfile) : Prop := ∀ s ∈ strings k, ∀ b ∈ s, isPlain b = true
deriving Decidable

/-! ## Texts -/

variable {c : Prop} {name label : String} {cap : ℕ} {s : List UInt8} {node : Node} {reg : Region}
  {k : Keyfile}

section Texts

variable {d : ℕ} {t before sep value : List UInt8} {evs evs' : List Event}

def memberText (name : String) (value : List UInt8) : List UInt8 :=
  quoted (ascii name) ++ (ascii ": " ++ value)

def IsName (name : String) : Prop := ∀ b ∈ ascii name, isPlain b = true ∧ b < 0x80
deriving Decidable

lemma member_text (name : String) (hname : IsName name) (h : ValueText d value evs) :
    MembersText d (memberText name value) (.key ⟨0, ascii name⟩ :: evs) :=
  .member (chars_of_ascii hname) (structural_of (by decide)) h

lemma optional_text [Decidable c] {u : List UInt8} (h : MembersText d t evs)
    (hs : isStructural valueSeparator sep = true) (h' : c → MembersText d u evs') :
    MembersText d (t ++ if c then sep ++ u else []) (evs ++ if c then evs' else []) := by
  split_ifs with hc
  · exact h.append (structural_of hs) (h' hc)
  · rwa [append_nil, append_nil]

lemma string_text (h : before = sep ++ (quoted (ascii name) ++ ascii ": \"")) (s : List UInt8) :
    before ++ (s ++ ascii "\"") = sep ++ memberText name (quoted s) := by
  have hcolon : ascii ": \"" = ascii ": " ++ [Rfc8259.quote] := by decide
  have hquote : ascii "\"" = [Rfc8259.quote] := by decide
  rw [h, hcolon, hquote, memberText]
  simp [quoted]

lemma number_text (h : before = sep ++ (quoted (ascii name) ++ ascii ": ")) (value : List UInt8) :
    before ++ value = sep ++ memberText name value := by
  rw [h, memberText]
  simp only [append_assoc]

lemma items_text {α : Type} {text : α → List UInt8} {events : α → List Event} {a : α}
    {l : List α} (h : ∀ b ∈ a :: l, ValueText d (text b) (events b)) :
    ItemsText d (text a ++ l.flatMap fun b => ascii "," ++ text b) ((a :: l).flatMap events) := by
  induction l generalizing a with
  | nil =>
    rw [flatMap_nil, append_nil, flatMap_singleton]
    exact .last (h a mem_cons_self)
  | cons b l ih =>
    have hrest := ih fun c hc => h c (mem_cons_of_mem a hc)
    rw [flatMap_cons, flatMap_cons, append_assoc]
    exact .more (h a mem_cons_self) (structural_of (by decide)) hrest

/-! ## The text of a node -/

/-- A string that fits its field and needs no escapes. -/
structure Field (cap : ℕ) (s : List UInt8) : Prop where
  text : IsText cap s
  plain : ∀ b ∈ s, isPlain b = true

lemma Field.valueText (h : Field cap s) : ValueText d (quoted s) [.string ⟨0, s⟩] :=
  .string (chars_of_plain h.text.utf8 h.plain)

lemma Field.copy (h : Field cap s) : stringCopy s cap = .ok s := by
  refine stringCopy_plain ?_ h.text.nul h.text.fits
  exact fun hmem => absurd (h.plain _ hmem) (by decide)

/-- The strings of a node need no escapes. -/
structure PlainNode (node : Node) : Prop where
  hostname : Field dnsNameMax node.hostname
  ipv4 : Field ipStrMax node.ipv4
  ipv6 : Field ipStrMax node.ipv6

def nodeEvents (node : Node) : List Event :=
  [.key ⟨0, ascii "HostName"⟩, .string ⟨0, node.hostname⟩] ++
    (if node.ipv4 ≠ [] then [.key ⟨0, ascii "IPv4"⟩, .string ⟨0, node.ipv4⟩] else []) ++
    if node.ipv6 ≠ [] then [.key ⟨0, ascii "IPv6"⟩, .string ⟨0, node.ipv6⟩] else []

def objectEvents (evs : List Event) : List Event := .objectBegin :: (evs ++ [.objectEnd])

lemma nodeText_eq (node : Node) :
    nodeText node = ascii "\n\t\t\t\t\t\x7b\n\t\t\t\t\t\t" ++
      (memberText "HostName" (quoted node.hostname) ++
        (if node.ipv4 ≠ [] then ascii ",\n\t\t\t\t\t\t" ++ memberText "IPv4" (quoted node.ipv4)
          else []) ++
        (if node.ipv6 ≠ [] then ascii ",\n\t\t\t\t\t\t" ++ memberText "IPv6" (quoted node.ipv6)
          else []) ++ ascii "\n\t\t\t\t\t\x7d") := by
  have hhost : ascii "\n\t\t\t\t\t\x7b\n\t\t\t\t\t\t\"HostName\": \"" =
      ascii "\n\t\t\t\t\t\x7b\n\t\t\t\t\t\t" ++ (quoted (ascii "HostName") ++ ascii ": \"") := by decide
  have hv4 : ascii ",\n\t\t\t\t\t\t\"IPv4\": \"" =
      ascii ",\n\t\t\t\t\t\t" ++ (quoted (ascii "IPv4") ++ ascii ": \"") := by decide
  have hv6 : ascii ",\n\t\t\t\t\t\t\"IPv6\": \"" =
      ascii ",\n\t\t\t\t\t\t" ++ (quoted (ascii "IPv6") ++ ascii ": \"") := by decide
  rw [nodeText, string_text hhost, string_text hv4, string_text hv6]
  simp only [append_assoc]

lemma node_text (h : PlainNode node) :
    ValueText 1 (nodeText node) (objectEvents (nodeEvents node)) := by
  rw [nodeText_eq]
  refine .object (structural_of (by decide)) ?_ (structural_of (by decide))
  refine optional_text (optional_text
    (member_text "HostName" (by decide +kernel) h.hostname.valueText) (by decide) ?_) (by decide) ?_
  · exact fun _ => member_text "IPv4" (by decide +kernel) h.ipv4.valueText
  · exact fun _ => member_text "IPv6" (by decide +kernel) h.ipv6.valueText

/-! ## The text of a region -/

def arrayEvents (evs : List Event) : List Event := .arrayBegin :: (evs ++ [.arrayEnd])

lemma array_text {α : Type} {text : α → List UInt8} {events : α → List Event}
    (close : List UInt8) (hclose : isStructural Rfc8259.endArray close = true) {l : List α}
    (h : ∀ a ∈ l, ValueText d (text a) (events a)) :
    ValueText (d + 1) (ascii "[" ++ (separated [] (ascii ",") text l ++ close))
      (arrayEvents (l.flatMap events)) := by
  cases l with
  | nil => exact .emptyArray (structural_of (by decide)) (structural_of hclose)
  | cons a l =>
    rw [separated_cons, nil_append]
    exact .array (structural_of (by decide)) (items_text h) (structural_of hclose)

lemma integer_text (id : Int64) :
    ValueText d (Decimal.ofInt id.toInt) [.number (some id.toInt)] :=
  .integer id.le_toInt id.toInt_lt

def regionEvents (reg : Region) : List Event :=
  (if reg.regionId ≠ 0 then [.key ⟨0, ascii "RegionID"⟩, .number (some reg.regionId.toInt)]
    else []) ++
    .key ⟨0, ascii "Nodes"⟩ :: arrayEvents (reg.nodes.flatMap fun n => objectEvents (nodeEvents n))

lemma region_text (h : ∀ n ∈ reg.nodes, PlainNode n) :
    ValueText 3 (regionText reg) (objectEvents (regionEvents reg)) := by
  have hnodes := array_text (ascii "\n\t\t\t\t]") (by decide) fun n hn => node_text (h n hn)
  have hmember := member_text "Nodes" (by decide +kernel) hnodes
  have hopen : ascii "\n\t\t\t\x7b\n\t\t\t\t" = ascii "\n\t\t\t\x7b" ++ ascii "\n\t\t\t\t" := by decide
  have hid : ascii "\n\t\t\t\t\"RegionID\": " =
      ascii "\n\t\t\t\t" ++ (quoted (ascii "RegionID") ++ ascii ": ") := by decide
  have hnodesText : ascii "\n\t\t\t\t\"Nodes\": [" =
      ascii "\n\t\t\t\t" ++ (quoted (ascii "Nodes") ++ (ascii ": " ++ ascii "[")) := by decide
  have hsep : ascii ",\n\t\t\t\t" = ascii "," ++ ascii "\n\t\t\t\t" := by decide
  have hclose : ascii "\n\t\t\t\t]\n\t\t\t\x7d" = ascii "\n\t\t\t\t]" ++ ascii "\n\t\t\t\x7d" := by decide
  have hobject : ∀ {t evs}, MembersText 2 t evs →
      ValueText 3 (ascii "\n\t\t\t\x7b\n\t\t\t\t" ++ (t ++ ascii "\n\t\t\t\x7d")) (objectEvents evs) :=
    fun h => .object (structural_of (by decide)) h (structural_of (by decide))
  unfold regionText regionEvents
  rw [hclose, hnodesText]
  split_ifs with hzero
  · have hboth := (member_text "RegionID" (by decide +kernel) (integer_text reg.regionId)).append
      (structural_of (t := ascii ",\n\t\t\t\t") (by decide)) hmember
    have htext := hobject hboth
    rw [hopen, hsep] at htext
    rw [number_text hid]
    simpa only [memberText, append_assoc] using htext
  · have htext := hobject hmember
    rw [hopen] at htext
    simpa only [memberText, append_assoc, nil_append] using htext

/-! ## The text of a key file -/

lemma plain_labelled (h : IsName label) (key : Key) :
    ∀ b ∈ labelled label key, isPlain b = true ∧ b < 0x80 := by
  have hhex : ∀ i < 16, isPlain (kHex.getD i 0) = true ∧ kHex.getD i 0 < 0x80 := by decide +kernel
  intro b hb
  rcases mem_append.mp hb with hb | hb
  · exact h b hb
  rcases mem_cons.mp hb with rfl | hb
  · decide
  obtain ⟨c, -, hc⟩ := mem_flatMap.mp hb
  rcases mem_pair.mp hc with rfl | rfl
  · have hlt := c.toNat_lt
    refine hhex _ ?_
    rw [UInt8.toNat_shiftRight, Nat.shiftRight_eq_div_pow]
    exact Nat.div_lt_of_lt_mul hlt
  · refine hhex _ ?_
    rw [UInt8.toNat_and]
    exact Nat.and_lt_two_pow _ (show 0x0f < 2 ^ 4 by decide)

lemma labelled_text (label : String) (h : IsName label) (key : Key) :
    ValueText d (quoted (labelled label key)) [.string ⟨0, labelled label key⟩] :=
  .string (chars_of_ascii (plain_labelled h key))

def keyEvents (name label : String) (key : Option Key) : List Event :=
  match key with
  | none => []
  | some key => [.key ⟨0, ascii name⟩, .string ⟨0, labelled label key⟩]

lemma key_text {before : String} (hname : IsName name) (hlabel : IsName label)
    (hbefore : ascii before = ascii ",\n\t\t" ++ (quoted (ascii name) ++ ascii ": \""))
    (key : Option Key) (h : MembersText d t evs) :
    MembersText d (t ++ keyMember before label key) (evs ++ keyEvents name label key) := by
  cases key with
  | none => rwa [keyMember, keyEvents, append_nil, append_nil]
  | some key =>
    rw [keyMember, keyEvents, string_text hbefore]
    exact h.append (structural_of (by decide)) (member_text name hname (labelled_text label hlabel key))

def regionsEvents (regions : List Region) : List Event :=
  if regions = [] then []
  else .key ⟨0, ascii "Region"⟩ :: arrayEvents (regions.flatMap fun reg =>
    objectEvents (regionEvents reg))

lemma regions_text {regions : List Region} (h : ∀ reg ∈ regions, ∀ n ∈ reg.nodes, PlainNode n)
    (ht : MembersText 4 t evs) :
    MembersText 4 (t ++ (separated (ascii ",\n\t\t\"Region\": [") (ascii ",") regionText regions ++
      if regions.length > 0 then ascii "\n\t\t]" else [])) (evs ++ regionsEvents regions) := by
  cases regions with
  | nil =>
    rw [separated_nil, if_neg (by simp), regionsEvents, if_pos rfl, append_nil, append_nil,
      append_nil]
    exact ht
  | cons reg regions =>
    have harray := array_text (ascii "\n\t\t]") (by decide) fun reg' hreg => region_text (h reg' hreg)
    have hboth := ht.append (structural_of (t := ascii ",\n\t\t") (by decide))
      (member_text "Region" (by decide +kernel) harray)
    have hbefore : ascii ",\n\t\t\"Region\": [" =
        ascii ",\n\t\t" ++ (quoted (ascii "Region") ++ (ascii ": " ++ ascii "[")) := by decide
    rw [regionsEvents, if_neg (cons_ne_nil _ _), if_pos (by simp), separated_cons, hbefore]
    rw [separated_cons] at hboth
    simpa only [memberText, append_assoc, nil_append] using hboth

def publicEvents (pub : ConnInfo) : List Event :=
  [.key ⟨0, ascii "ServerPublic"⟩, .string ⟨0, labelled "nodekey" pub.serverPublic⟩] ++
    keyEvents "ServerDiscoPublic" "discokey" pub.serverDiscoPublic ++
    keyEvents "PresharedKey" "psk" pub.presharedKey ++
    (if pub.regionId ≠ 0 then [.key ⟨0, ascii "RegionID"⟩, .number (some pub.regionId.toInt)]
      else []) ++
    regionsEvents pub.regions

def fileEvents (k : Keyfile) : List Event :=
  objectEvents ([.key ⟨0, ascii "Private"⟩, .string ⟨0, labelled "privkey" k.privateKey⟩] ++
    .key ⟨0, ascii "Public"⟩ :: objectEvents (publicEvents k.pub))

def PlainNodes (k : Keyfile) : Prop := ∀ reg ∈ k.pub.regions, ∀ n ∈ reg.nodes, PlainNode n

lemma public_text (h : PlainNodes k) :
    MembersText 4 (memberText "ServerPublic" (quoted (labelled "nodekey" k.pub.serverPublic)) ++
      keyMember ",\n\t\t\"ServerDiscoPublic\": \"" "discokey" k.pub.serverDiscoPublic ++
      keyMember ",\n\t\t\"PresharedKey\": \"" "psk" k.pub.presharedKey ++
      (if k.pub.regionId ≠ 0 then
        ascii ",\n\t\t" ++ memberText "RegionID" (Decimal.ofInt k.pub.regionId.toInt) else []) ++
      (separated (ascii ",\n\t\t\"Region\": [") (ascii ",") regionText k.pub.regions ++
        if k.pub.regions.length > 0 then ascii "\n\t\t]" else [])) (publicEvents k.pub) := by
  have hpub := labelled_text (d := 4) "nodekey" (by decide +kernel) k.pub.serverPublic
  refine regions_text h (optional_text ?_ (by decide) ?_)
  · refine key_text (by decide +kernel) (by decide +kernel) (by decide) _ ?_
    refine key_text (by decide +kernel) (by decide +kernel) (by decide) _ ?_
    exact member_text "ServerPublic" (by decide +kernel) hpub
  · exact fun _ => member_text "RegionID" (by decide +kernel) (integer_text k.pub.regionId)

lemma feeds_text (h : PlainNodes k) : Feeds (Reader.init (text k)) (fileEvents k) := by
  have hpublic := ValueText.object (structural_of (t := ascii "\x7b\n\t\t") (by decide))
    (public_text h) (structural_of (t := ascii "\n\t\x7d") (by decide))
  have hpriv := labelled_text (d := 5) "privkey" (by decide +kernel) k.privateKey
  have hboth := (member_text "Private" (by decide +kernel) hpriv).append
    (structural_of (t := ascii ",\n\t") (by decide))
    (member_text "Public" (by decide +kernel) hpublic)
  have hfile := ValueText.object (structural_of (t := ascii "\x7b\n\t") (by decide)) hboth
    (structural_of (t := ascii "\n\x7d") (by decide))
  have hfeeds := hfile.feeds (w := ascii "\n") (by decide) (all_eq_true.mp (by decide))
  -- The text, taken apart where a member begins.
  have hopen : ascii "\x7b\n\t\"Private\": \"" =
      ascii "\x7b\n\t" ++ (quoted (ascii "Private") ++ (ascii ": " ++ [Rfc8259.quote])) := by decide
  have hmiddle : ascii "\",\n\t\"Public\": \x7b\n\t\t\"ServerPublic\": \"" =
      [Rfc8259.quote] ++ (ascii ",\n\t" ++ (quoted (ascii "Public") ++ (ascii ": " ++
        (ascii "\x7b\n\t\t" ++ (quoted (ascii "ServerPublic") ++
          (ascii ": " ++ [Rfc8259.quote])))))) := by decide
  have hquote : ascii "\"" = [Rfc8259.quote] := by decide
  have hid : ascii ",\n\t\t\"RegionID\": " =
      ascii ",\n\t\t" ++ (quoted (ascii "RegionID") ++ ascii ": ") := by decide
  have hclose : ascii "\n\t\x7d\n\x7d\n" = ascii "\n\t\x7d" ++ (ascii "\n\x7d" ++ ascii "\n") := by
    decide
  rw [text, headText, restText, hopen, hmiddle, hquote, hclose, number_text hid]
  simp only [memberText, quoted, fileEvents, objectEvents, append_assoc, cons_append,
    nil_append] at hfeeds ⊢
  exact hfeeds

end Texts

/-! ## What is read -/

section Reading

variable {evs : List Event} {nodes : List Node} {publicKey discoKey : Key → Option Key}

lemma readString_consumes (h : Field cap s) : Consumes (readString cap) [.string ⟨0, s⟩] s := by
  intro r evs' hfeeds
  obtain ⟨off, q, hnext, hq⟩ := hfeeds.next_string
  refine ⟨q, ?_, hq⟩
  rw [readString, hnext]
  dsimp only
  rw [h.copy]

lemma nodeMember_consumes (name : List UInt8) (node : Node) (host v4 : Bool)
    (hhost : keyIs name (ascii "HostName") = host) (hv4 : keyIs name (ascii "IPv4") = v4)
    (hknown : (!host && !v4 && !keyIs name (ascii "IPv6")) = false)
    (h : Field (if host then dnsNameMax else ipStrMax) s) :
    Consumes (nodeMember name node) [.string ⟨0, s⟩]
      (if host then { node with hostname := s }
        else if v4 then { node with ipv4 := s } else { node with ipv6 := s }) := by
  refine (readString_consumes h).map fun r q hread => ?_
  rw [nodeMember]
  dsimp only
  rw [hhost, hv4, hknown, if_neg Bool.false_ne_true, hread]
  rfl

lemma run_optional {α ε : Type} {last : Event}
    {entry : Event → Update ε α} {a b : α} [Decidable c]
    (h : c → Run last entry a evs b) (h' : ¬c → a = b) :
    Run last entry a (if c then evs else []) b := by
  split_ifs with hc
  · exact h hc
  · rw [h' hc]
    exact .nil b

lemma node_run (h : PlainNode node) :
    Run .objectEnd (onKey invalid nodeMember) Node.zero (nodeEvents node) (savedNode node) := by
  have hhost := nodeMember_consumes (ascii "HostName") Node.zero true false (by decide) (by decide)
    (by decide) h.hostname
  have hv4 := nodeMember_consumes (ascii "IPv4") { Node.zero with hostname := node.hostname }
    false true (by decide) (by decide) (by decide) h.ipv4
  have hv6 := nodeMember_consumes (ascii "IPv6")
    { Node.zero with hostname := node.hostname, ipv4 := node.ipv4 } false false (by decide)
    (by decide) (by decide) h.ipv6
  refine ((Run.key hhost).append (run_optional (fun _ => .key hv4) ?_)).append
    (run_optional (fun _ => .key hv6) ?_)
  · intro hnil
    rw [not_not.mp hnil]
    rfl
  · intro hnil
    rw [savedNode, not_not.mp hnil]
    rfl

lemma parseNode_consumes (h : PlainNode node) (hlen : nodes.length < maxNodes) :
    Consumes (parseNode nodes) (nodeEvents node ++ [.objectEnd]) (nodes ++ [savedNode node]) := by
  refine (members_consumes (node_run h)).map fun r q hmembers => ?_
  rw [parseNode, if_neg (by omega), hmembers]
  rfl

lemma items_run {α β ε : Type} {bad : ε} {item : Update ε (List β)}
    {events : α → List Event} {save : α → β} {max : ℕ} {l : List α}
    (h : ∀ (acc : List β), ∀ a ∈ l, acc.length < max →
      Consumes (item acc) (events a ++ [.objectEnd]) (acc ++ [save a]))
    {acc : List β} (hlen : acc.length + l.length ≤ max) :
    Run .arrayEnd (onObject bad item) acc (l.flatMap fun a => objectEvents (events a))
      (acc ++ l.map save) := by
  induction l generalizing acc with
  | nil =>
    rw [map_nil, append_nil]
    exact .nil acc
  | cons a l ih =>
    rw [length_cons] at hlen
    have hlen' : (acc ++ [save a]).length + l.length ≤ max := by
      rw [length_append, length_singleton]
      omega
    have hrest := ih (fun acc b hb => h acc b (mem_cons_of_mem a hb)) hlen'
    rw [append_assoc, singleton_append] at hrest
    exact (Run.object (h acc a mem_cons_self (by omega))).append hrest

lemma array_consumes {β : Type} {item : Update Failure (List β)}
    {b c : List β} (h : Run .arrayEnd (onObject invalid item) b evs c) :
    Consumes (fun r => do let r ← beginArray r; items invalid item b r) (arrayEvents evs) c := by
  intro r evs' hfeeds
  obtain ⟨q1, hnext, hq1⟩ := Feeds.next_plain hfeeds nofun nofun
  obtain ⟨q, hitems, hq⟩ := items_consumes h hq1
  refine ⟨q, ?_, hq⟩
  dsimp only
  rw [beginArray, hnext]
  exact hitems

lemma parseNodes_consumes (h : ∀ n ∈ nodes, PlainNode n) (hlen : nodes.length ≤ maxNodes) :
    Consumes (parseNodes [])
      (arrayEvents (nodes.flatMap fun n => objectEvents (nodeEvents n))) (nodes.map savedNode) :=
  array_consumes (items_run (fun _ n hn hacc => parseNode_consumes (h n hn) hacc)
    (by rwa [length_nil, Nat.zero_add]))

/-! ## What is read of a region -/

lemma regionMember_nodes (reg : Region) (hreg : reg.nodes = []) (h : ∀ n ∈ nodes, PlainNode n)
    (hlen : nodes.length ≤ maxNodes) :
    Consumes (regionMember (ascii "Nodes") reg)
      (arrayEvents (nodes.flatMap fun n => objectEvents (nodeEvents n)))
      { reg with nodes := nodes.map savedNode } := by
  have hkey : keyIs (ascii "Nodes") (ascii "Nodes") = true := by decide
  refine (parseNodes_consumes h hlen).map fun r q hparse => ?_
  rw [regionMember, if_pos hkey, hreg, hparse]

lemma regionMember_id (reg : Region) (id : Int64) :
    Consumes (regionMember (ascii "RegionID") reg) [.number (some id.toInt)]
      { reg with regionId := id } := by
  intro r evs' hfeeds
  obtain ⟨q, hnext, hq⟩ := hfeeds.next_plain nofun nofun
  have hnodes : ¬keyIs (ascii "RegionID") (ascii "Nodes") = true := by decide
  have hkey : keyIs (ascii "RegionID") (ascii "RegionID") = true := by decide
  refine ⟨q, ?_, hq⟩
  rw [regionMember, if_neg hnodes, if_pos hkey, hnext]
  dsimp only
  rw [Option.getD_some, Int64.ofInt_toInt]

lemma region_run (h : ∀ n ∈ reg.nodes, PlainNode n) (hlen : reg.nodes.length ≤ maxNodes) :
    Run .objectEnd (onKey invalid regionMember) Region.zero (regionEvents reg) (savedRegion reg) := by
  have hid := regionMember_id Region.zero reg.regionId
  have hnodes := regionMember_nodes { Region.zero with regionId := reg.regionId } rfl h hlen
  refine (run_optional (fun _ => .key hid) ?_).append (.key hnodes)
  intro hzero
  rw [not_not.mp hzero]
  rfl

variable {regions : List Region} (ci : ConnInfo)

lemma parseRegion_consumes (h : ∀ n ∈ reg.nodes, PlainNode n)
    (hcount : reg.nodes.length ≤ maxNodes) (hlen : regions.length < maxRegions) :
    Consumes (parseRegion regions) (regionEvents reg ++ [.objectEnd])
      (regions ++ [savedRegion reg]) := by
  refine (members_consumes (region_run h hcount)).map fun r q hmembers => ?_
  rw [parseRegion, if_neg (by omega), hmembers]
  rfl

lemma parseRegions_consumes (h : ∀ reg ∈ regions, ∀ n ∈ reg.nodes, PlainNode n)
    (hcount : ∀ reg ∈ regions, reg.nodes.length ≤ maxNodes) (hlen : regions.length ≤ maxRegions) :
    Consumes (parseRegions [])
      (arrayEvents (regions.flatMap fun reg => objectEvents (regionEvents reg)))
      (regions.map savedRegion) :=
  array_consumes (items_run
    (fun _ reg hreg hacc => parseRegion_consumes (h reg hreg) (hcount reg hreg) hacc)
    (by rwa [length_nil, Nat.zero_add]))

/-! ## What is read of the keys -/

lemma hexBytes_flatMap (bytes : List UInt8) : hexBytes (bytes.flatMap hexByte) = some bytes := by
  have hbyte : ∀ n < 256, hexval (kHex.getD ((UInt8.ofNat n) >>> 4).toNat 0) =
      some ((UInt8.ofNat n) >>> 4) ∧ hexval (kHex.getD ((UInt8.ofNat n) &&& 0x0f).toNat 0) =
      some ((UInt8.ofNat n) &&& 0x0f) ∧
      ((UInt8.ofNat n) >>> 4) <<< 4 ||| ((UInt8.ofNat n) &&& 0x0f) = UInt8.ofNat n := by
    decide +kernel
  induction bytes with
  | nil => rfl
  | cons b bytes ih =>
    obtain ⟨hhi, hlo, hb⟩ := hbyte b.toNat b.toNat_lt
    rw [UInt8.ofNat_toNat] at hhi hlo hb
    rw [flatMap_cons, hexByte]
    change hexBytes (_ :: _ :: bytes.flatMap hexByte) = _
    rw [hexBytes, hhi, hlo, ih]
    dsimp only
    rw [hb]

lemma keyOf_toList (key : Key) : keyOf key.toList = key := by
  ext i hi
  rw [keyOf, Vector.getElem_ofFn, getD_eq_getElem?_getD, Vector.getElem?_toList,
    Vector.getElem?_eq_getElem hi, Option.getD_some]

lemma parsePrefixedKey_labelled (label : String) (key : Key) :
    parsePrefixedKey (labelled label key) label = .ok key := by
  have htake : (labelled label key).take (ascii label).length = ascii label := take_left
  have hcolon : (labelled label key)[(ascii label).length]? = some 0x3a := by
    rw [labelled, getElem?_append_right le_rfl, Nat.sub_self]
    rfl
  have hdrop : (labelled label key).drop ((ascii label).length + 1) =
      key.toList.flatMap hexByte := by
    rw [labelled, drop_append, drop_of_length_le (Nat.le_succ _)]
    simp
  have hlen : (key.toList.flatMap hexByte).length = 64 := by
    have hlabelled := length_labelled label key
    rw [← hdrop, length_drop, hlabelled]
    omega
  rw [parsePrefixedKey]
  dsimp only
  rw [if_neg (by rw [htake, hcolon]; simp), hdrop, if_neg (by rw [hlen]; simp), hexBytes_flatMap]
  dsimp only
  rw [keyOf_toList]

lemma copy_labelled (hname : IsName label) (hlen : (ascii label).length ≤ 30) (key : Key) :
    stringCopy (labelled label key) 128 = .ok (labelled label key) := by
  have hplain := plain_labelled hname key
  refine stringCopy_plain ?_ ?_ (by rw [length_labelled]; omega)
  · exact fun hmem => absurd (hplain _ hmem).1 (by decide)
  · exact fun hmem => absurd (hplain _ hmem).1 (by decide)

lemma readKey_consumes (label : String) (hname : IsName label) (hlen : (ascii label).length ≤ 30)
    (key : Key) : Consumes (readKey label) [.string ⟨0, labelled label key⟩] key := by
  intro r evs' hfeeds
  obtain ⟨off, q, hnext, hq⟩ := hfeeds.next_string
  refine ⟨q, ?_, hq⟩
  rw [readKey, hnext]
  dsimp only
  rw [copy_labelled hname hlen]
  dsimp only
  rw [parsePrefixedKey_labelled]

/-! ## What is read of the public section -/

lemma publicMember_key (name label : String) (set : Key → ConnInfo) (hname : IsName label)
    (hlen : (ascii label).length ≤ 30) (hbranch : ∀ r, publicMember (ascii name) ci r =
      readKey label r >>= fun p => .ok (set p.1, p.2)) (key : Key) :
    Consumes (publicMember (ascii name) ci) [.string ⟨0, labelled label key⟩] (set key) := by
  refine (readKey_consumes label hname hlen key).map fun r q hread => ?_
  rw [hbranch, hread]
  rfl

lemma publicMember_regionId (id : Int64) :
    Consumes (publicMember (ascii "RegionID") ci) [.number (some id.toInt)]
      { ci with regionId := id } := by
  intro r evs' hfeeds
  obtain ⟨q, hnext, hq⟩ := hfeeds.next_plain (by simp) (by simp)
  refine ⟨q, ?_, hq⟩
  rw [publicMember, if_neg (by decide), if_neg (by decide), if_pos (by decide), hnext]
  dsimp only
  rw [Int64.ofInt_toInt]

lemma publicMember_regions {evs : List Event} (hci : ci.regions = [])
    (h : Consumes (parseRegions []) evs regions) :
    Consumes (publicMember (ascii "Region") ci) evs { ci with regions } := by
  have hkey : keyIs (ascii "Region") (ascii "Region") = true := by decide
  refine h.map fun r q hparse => ?_
  rw [publicMember]
  dsimp only
  rw [if_pos hkey, hci, hparse]

lemma key_run {ci ci' : ConnInfo} (key : Option Key) (hsome : ∀ key' ∈ key,
      Consumes (publicMember (ascii name) ci) [.string ⟨0, labelled label key'⟩] ci')
    (hnone : key = none → ci = ci') :
    Run .objectEnd (onKey invalid publicMember) ci (keyEvents name label key) ci' := by
  cases key with
  | none =>
    rw [hnone rfl]
    exact .nil ci'
  | some key => exact .key (hsome key rfl)

lemma public_run (h : PlainNodes k) (hfits : k.pub.Fits) :
    Run .objectEnd (onKey invalid publicMember) ConnInfo.zero (publicEvents k.pub) k.saved.pub := by
  have hcount : ∀ reg ∈ k.pub.regions, reg.nodes.length ≤ maxNodes :=
    fun reg hreg => (hfits.regions reg hreg).count
  obtain ⟨priv, has, ⟨serverPublic, disco, psk, regions, regionId⟩⟩ := k
  have hdisco : Run .objectEnd (onKey invalid publicMember) ⟨serverPublic, none, none, [], 0⟩
      (keyEvents "ServerDiscoPublic" "discokey" disco) ⟨serverPublic, disco, none, [], 0⟩ := by
    refine key_run disco ?_ ?_
    · rintro key ⟨⟩
      exact publicMember_key _ "ServerDiscoPublic" "discokey" (fun key => ⟨_, some key, none, [], 0⟩)
        (by decide +kernel) (by decide) (fun _ => rfl) key
    · rintro rfl
      rfl
  have hpsk : Run .objectEnd (onKey invalid publicMember) ⟨serverPublic, disco, none, [], 0⟩
      (keyEvents "PresharedKey" "psk" psk) ⟨serverPublic, disco, psk, [], 0⟩ := by
    refine key_run psk ?_ ?_
    · rintro key ⟨⟩
      exact publicMember_key _ "PresharedKey" "psk" (fun key => ⟨_, _, some key, [], 0⟩)
        (by decide +kernel) (by decide) (fun _ => rfl) key
    · rintro rfl
      rfl
  have hpub := publicMember_key ConnInfo.zero "ServerPublic" "nodekey" (⟨·, none, none, [], 0⟩)
    (by decide +kernel) (by decide) (fun _ => rfl) serverPublic
  refine ((((Run.key hpub).append hdisco).append hpsk).append
    (run_optional (fun _ => .key (publicMember_regionId _ regionId)) ?_)).append ?_
  · intro hzero
    have hid : regionId = 0 := not_not.mp hzero
    rw [hid]
  · unfold regionsEvents
    dsimp only
    split_ifs with hnil
    · rw [hnil]
      exact .nil _
    · exact .key (publicMember_regions _ rfl (parseRegions_consumes h hcount hfits.count))

/-! ## What is read of a key file -/

lemma fileMember_private (p : Progress) (key : Key) :
    Consumes (fileMember (ascii "Private") p) [.string ⟨0, labelled "privkey" key⟩]
      { p with k := { p.k with privateKey := key, hasPrivate := true } } := by
  intro r evs' hfeeds
  obtain ⟨off, q, hnext, hq⟩ := hfeeds.next_string
  have hkey : keyIs (ascii "Private") (ascii "Private") = true := by decide
  refine ⟨q, ?_, hq⟩
  rw [fileMember, if_pos hkey, hnext]
  dsimp only
  rw [copy_labelled (by decide +kernel) (by decide)]
  dsimp only
  rw [parsePrefixedKey_labelled]

lemma fileMember_public (p : Progress) (hp : p.k.pub = ConnInfo.zero) (h : PlainNodes k)
    (hfits : k.pub.Fits) :
    Consumes (fileMember (ascii "Public") p) (objectEvents (publicEvents k.pub))
      ⟨{ p.k with pub := k.saved.pub }, true⟩ := by
  intro r evs' hfeeds
  obtain ⟨q1, hnext, hq1⟩ := Feeds.next_plain hfeeds nofun nofun
  obtain ⟨q, hmembers, hq⟩ := members_consumes (public_run h hfits) hq1
  have hprivate : ¬keyIs (ascii "Public") (ascii "Private") = true := by decide
  have hkey : keyIs (ascii "Public") (ascii "Public") = true := by decide
  refine ⟨q, ?_, hq⟩
  rw [fileMember, if_neg hprivate, if_pos hkey, hnext]
  dsimp only
  rw [parsePublic, hp, hmembers]

/-- The keys of a key file fit together. -/
structure Matching (publicKey discoKey : Key → Option Key) (k : Keyfile) : Prop where
  hasPrivate : k.hasPrivate = true
  serverPublic : publicKey k.privateKey = some k.pub.serverPublic
  serverDiscoPublic : ∀ disco ∈ k.pub.serverDiscoPublic, discoKey k.privateKey = some disco

lemma checkKeys_of_matching (h : Matching publicKey discoKey k) :
    checkKeys publicKey discoKey k = .ok k := by
  rw [checkKeys, h.serverPublic]
  dsimp only
  rw [if_neg (not_not.mpr rfl)]
  cases hdisco : k.pub.serverDiscoPublic with
  | none => rfl
  | some disco =>
    dsimp only
    rw [h.serverDiscoPublic disco hdisco]
    exact if_neg (not_not.mpr rfl)

/-- The text of a key file whose strings need no escapes is read back. -/
theorem parse_text (h : PlainNodes k) (hfits : k.pub.Fits) (hkeys : Matching publicKey discoKey k) :
    parse publicKey discoKey (text k) = .ok k.saved := by
  obtain ⟨q1, hnext, hq1⟩ := (feeds_text h).next_plain nofun nofun
  rw [← append_nil (_ ++ _)] at hq1
  obtain ⟨q, hmembers, -⟩ := members_consumes
    ((Run.key (fileMember_private Progress.zero k.privateKey)).append
      (Run.key (fileMember_public _ rfl h hfits))) hq1
  have hsaved : Matching publicKey discoKey k.saved :=
    ⟨hkeys.hasPrivate, hkeys.serverPublic, hkeys.serverDiscoPublic⟩
  have hk : (⟨k.privateKey, true, k.saved.pub⟩ : Keyfile) = k.saved := by
    rw [← hkeys.hasPrivate]
    rfl
  rw [parse, hnext]
  dsimp only
  rw [hmembers]
  dsimp only
  rw [if_neg (by decide), if_neg (by decide), hk, checkKeys_of_matching hsaved]

end Reading

end Keyfile
