import Tailcat.Keyfile.Readback

/-!
# Key files round trip

A key file is read back as what it was exactly if no string of a node needs an escape, since
`tc_keyfile_format` writes none. That nothing else is read back is an argument about lengths: a string
with a quotation mark or a backslash in it can only be read from an escape, which is longer; a literal
with an escape lies within one of the strings that were written; so that string is longer, and needs
an escape itself.

## Main results

* `within_slot`: a literal with an escape lies within a string that was written;
* `roundtrip_iff`: which key files are read back.
-/

open Addr Json Appending List
open Rfc8259 (quoted quote escape chars)

namespace Keyfile

/-! ## Where strings come from -/

variable {node : Node} {s : List UInt8} {label : String}

section Origin

variable {text : List UInt8} {r q : Reader} {publicKey discoKey : Key → Option Key}

/-- A string that has not been set, or is the text of a string literal. -/
def Origin (text s : List UInt8) : Prop :=
  s = [] ∨ ∃ raw before behind cap, raw ∈ chars ∧ text = before ++ (quoted raw ++ behind) ∧
    stringCopy raw cap = .ok s

def NodeOrigin (text : List UInt8) (node : Node) : Prop := ∀ s ∈ nodeStrings node, Origin text s

lemma nodeOrigin_iff :
    NodeOrigin text node ↔ Origin text node.hostname ∧ Origin text node.ipv4 ∧ Origin text node.ipv6 := by
  simp [NodeOrigin, nodeStrings]

def RegionOrigin (text : List UInt8) (reg : Region) : Prop := ∀ n ∈ reg.nodes, NodeOrigin text n

lemma readString_origin {cap : ℕ} (hr : r.rest <:+ text) (h : readString cap r = .ok (s, q)) :
    Origin text s ∧ q.rest <:+ text := by
  unfold readString at h
  split at h
  · next s' r' hnext =>
    split at h
    · next copy hcopy =>
      cases h
      obtain ⟨before, t, behind, hrest, -, hq, hs⟩ := next_token hnext nofun
      obtain ⟨hraw, rfl⟩ := hs s' rfl
      obtain ⟨skipped, rfl⟩ := hr
      refine ⟨.inr ⟨s'.bytes, skipped ++ before, behind, cap, hraw, ?_, hcopy⟩, ?_⟩
      · rw [hrest, append_assoc]
      · exact (next_suffix hnext).trans (suffix_append skipped _)
    · cases h
  · cases h

variable {α : Type} {I : α → Prop}

lemma skip_keeps (bad : Failure) : Keeps text I (skip bad) := by
  intro a b r q ha hr h
  unfold skip at h
  split at h
  · next hskip =>
    cases h
    exact ⟨ha, (skipValue_suffix hskip).trans hr⟩
  · cases h

variable (name : List UInt8)

lemma nodeMember_keeps : Keeps text (NodeOrigin text) (nodeMember name) := by
  intro node node' r q hnode hr h
  unfold nodeMember at h
  by_cases hknown : (!keyIs name (ascii "HostName") && !keyIs name (ascii "IPv4") &&
      !keyIs name (ascii "IPv6")) = true
  · rw [if_pos hknown] at h
    exact skip_keeps invalid hnode hr h
  · rw [if_neg hknown] at h
    obtain ⟨⟨s, r'⟩, hread, h⟩ := bind_eq_ok h
    obtain ⟨hs, hr'⟩ := readString_origin hr hread
    cases h
    refine ⟨?_, hr'⟩
    obtain ⟨hhost, hv4, hv6⟩ := nodeOrigin_iff.mp hnode
    split_ifs
    · exact nodeOrigin_iff.mpr ⟨hs, hv4, hv6⟩
    · exact nodeOrigin_iff.mpr ⟨hhost, hs, hv6⟩
    · exact nodeOrigin_iff.mpr ⟨hhost, hv4, hs⟩

lemma nodeOrigin_zero : NodeOrigin text Node.zero :=
  nodeOrigin_iff.mpr ⟨.inl rfl, .inl rfl, .inl rfl⟩

lemma forall_mem_concat {P : α → Prop} {l : List α} {a : α} (h : ∀ b ∈ l, P b)
    (ha : P a) : ∀ b ∈ l ++ [a], P b := by
  intro b hb
  rcases mem_append.mp hb with hb | hb
  · exact h b hb
  · rw [mem_singleton.mp hb]
    exact ha

lemma append_keeps {zero : α} {max : ℕ}
    {member : List UInt8 → Update Failure α}
    (h : ∀ name, Keeps text I (member name)) (hzero : I zero) :
    Keeps text (fun l : List α => ∀ a ∈ l, I a) fun l r =>
      if l.length ≥ max then .error ⟨.toomany, []⟩
      else do
        let (a, r) ← members invalid member zero r
        return (l ++ [a], r) := by
  intro l l' r q hl hr hok
  dsimp only at hok
  split_ifs at hok
  obtain ⟨⟨a, r'⟩, hmembers, hok⟩ := bind_eq_ok hok
  obtain ⟨ha, hr'⟩ := members_invariant h hzero hr hmembers
  cases hok
  exact ⟨forall_mem_concat hl ha, hr'⟩

lemma array_keeps {item : Update Failure (List α)}
    (h : Keeps text (fun l : List α => ∀ a ∈ l, I a) item) :
    Keeps text (fun l : List α => ∀ a ∈ l, I a)
      fun l r => (do let r ← beginArray r; items invalid item l r) := by
  intro l l' r q hl hr hok
  obtain ⟨r', hbegin, hitems⟩ := bind_eq_ok hok
  unfold beginArray at hbegin
  split at hbegin
  · next hnext =>
    cases hbegin
    exact items_invariant h hl ((next_suffix hnext).trans hr) hitems
  · cases hbegin

lemma parseNodes_keeps :
    Keeps text (fun nodes => ∀ n ∈ nodes, NodeOrigin text n) parseNodes :=
  array_keeps (append_keeps nodeMember_keeps nodeOrigin_zero)

lemma regionMember_keeps : Keeps text (RegionOrigin text) (regionMember name) := by
  intro reg reg' r q hreg hr h
  revert h
  fun_cases regionMember name reg r <;> intro h
  case case5 => exact skip_keeps invalid hreg hr h
  all_goals cases h
  · exact parseNodes_keeps hreg hr ‹_›
  · exact ⟨hreg, (next_suffix ‹_›).trans hr⟩

lemma parseRegions_keeps :
    Keeps text (fun regions => ∀ reg ∈ regions, RegionOrigin text reg) parseRegions :=
  array_keeps (append_keeps regionMember_keeps fun _ h => absurd h not_mem_nil)

def InfoOrigin (text : List UInt8) (ci : ConnInfo) : Prop := ∀ reg ∈ ci.regions, RegionOrigin text reg

lemma readKey_suffix {key : Key} (h : readKey label r = .ok (key, q)) : q.rest <:+ r.rest := by
  revert h
  fun_cases readKey label r <;> intro h <;> cases h
  exact next_suffix ‹_›

lemma publicMember_keeps : Keeps text (InfoOrigin text) (publicMember name) := by
  intro ci ci' r q hci hr h
  unfold publicMember at h
  dsimp only at h
  split_ifs at h
  · split at h <;> cases h
    exact parseRegions_keeps hci hr ‹_›
  · exact skip_keeps invalid hci hr h
  · split at h <;> cases h
    exact ⟨hci, (next_suffix ‹_›).trans hr⟩
  all_goals
    obtain ⟨⟨key, r'⟩, hread, h⟩ := bind_eq_ok h
    cases h
    exact ⟨hci, (readKey_suffix hread).trans hr⟩

lemma fileMember_keeps : Keeps text (fun p => InfoOrigin text p.k.pub) (fileMember name) := by
  intro p p' r q hp hr h
  revert h
  fun_cases fileMember name p r <;> intro h
  case case8 => exact skip_keeps (I := fun p : Progress => InfoOrigin text p.k.pub) _ hp hr h
  all_goals cases h
  · exact ⟨hp, (next_suffix ‹_›).trans hr⟩
  · next hnext _ hpublic =>
    exact members_invariant publicMember_keeps hp ((next_suffix hnext).trans hr) hpublic

lemma checkKeys_eq {k k' : Keyfile} (h : checkKeys publicKey discoKey k = .ok k') : k' = k := by
  revert h
  fun_cases checkKeys publicKey discoKey k <;> intro h <;> cases h <;> rfl

/-- The strings of a key file that has been parsed have been read from it. -/
theorem strings_origin {k : Keyfile} (h : parse publicKey discoKey text = .ok k) :
    ∀ s ∈ strings k, Origin text s := by
  have hpub : InfoOrigin text k.pub := by
    revert h
    fun_cases parse publicKey discoKey text <;> intro h
    case case4 hnext _ _ hmembers _ _ =>
      have hzero : InfoOrigin text Progress.zero.k.pub := nofun
      obtain ⟨hp, -⟩ := members_invariant fileMember_keeps hzero (next_suffix hnext) hmembers
      rwa [checkKeys_eq h]
    all_goals cases h
  intro s hs
  obtain ⟨reg, hreg, hs⟩ := mem_flatMap.mp hs
  obtain ⟨n, hn, hs⟩ := mem_flatMap.mp hs
  exact hpub reg hreg n hn s hs

end Origin

/-! ## Where backslashes are -/

section Slots

variable {S : List (List UInt8)} {t u s before : List UInt8}

def Breaks (t : List UInt8) : Prop := ∃ t', t = 0x0a :: t' ∨ t = 0x2c :: 0x0a :: t'

/-- Every backslash of the text lies within one of the strings `S`, with a space and a quotation mark
before the string and a quotation mark and the end of the line behind it. -/
def Slots (S : List (List UInt8)) (t : List UInt8) : Prop :=
  ∀ x y, t = x ++ escape :: y → ∃ before s1 s2 behind, s1 ++ escape :: s2 ∈ S ∧
    x = before ++ (0x20 :: quote :: s1) ∧ y = s2 ++ quote :: behind ∧ (behind = [] ∨ Breaks behind)

lemma slots_of_not_mem (h : escape ∉ t) : Slots S t := by
  rintro x y rfl
  exact absurd (mem_append_right _ mem_cons_self) h

lemma split_of_not_mem {x y : List UInt8} (ht : escape ∉ t) (h : t ++ u = x ++ escape :: y) :
    ∃ x', x = t ++ x' ∧ u = x' ++ escape :: y := by
  rcases append_eq_append_iff.mp h with ⟨x', hx, hu⟩ | ⟨y', hx, hu⟩
  · exact ⟨x', hx, hu⟩
  cases y' with
  | nil => exact ⟨[], by rw [hx, append_nil, append_nil], hu.symm⟩
  | cons c y' =>
    cases hu
    rw [hx] at ht
    exact absurd (mem_append_right _ mem_cons_self) ht

lemma slots_string (hbefore : escape ∉ before) (hs : s ∈ S) :
    Slots S (before ++ (0x20 :: quote :: (s ++ [quote]))) := by
  intro x y h
  have hquote : escape ∉ [0x20, quote] := by decide
  obtain ⟨x1, rfl, h1⟩ := split_of_not_mem hbefore h
  obtain ⟨x2, rfl, h2⟩ := split_of_not_mem hquote h1
  rcases append_eq_append_iff.mp h2 with ⟨x', rfl, h3⟩ | ⟨y', rfl, h3⟩
  · -- the backslash would be the closing quotation mark
    cases x' with
    | nil => cases h3
    | cons c x' => simp at h3
  · cases y' with
    | nil => cases h3
    | cons c y' =>
      cases h3
      exact ⟨before, x2, y', [], hs, rfl, rfl, .inl rfl⟩

lemma Breaks.append (h : Breaks t) (u : List UInt8) : Breaks (t ++ u) := by
  obtain ⟨t', rfl | rfl⟩ := h
  · exact ⟨t' ++ u, .inl rfl⟩
  · exact ⟨t' ++ u, .inr rfl⟩

lemma Slots.append (ht : Slots S t) (hu : Slots S u) (hbreaks : u = [] ∨ Breaks u) :
    Slots S (t ++ u) := by
  intro x y h
  rcases append_eq_append_iff.mp h with ⟨x', rfl, hrest⟩ | ⟨y', hx, hrest⟩
  · -- the backslash is in `u`
    obtain ⟨before, s1, s2, behind, hs, rfl, hy, hbehind⟩ := hu x' y hrest
    exact ⟨t ++ before, s1, s2, behind, hs, (append_assoc _ _ _).symm, hy, hbehind⟩
  cases y' with
  | nil =>
    obtain ⟨before, s1, s2, behind, hs, hx', hy, hbehind⟩ := hu [] y hrest.symm
    simp at hx'
  | cons c y' =>
    cases hrest
    obtain ⟨before, s1, s2, behind, hs, hx', rfl, hbehind⟩ := ht x y' hx
    refine ⟨before, s1, s2, behind ++ u, hs, hx', by simp, ?_⟩
    rcases hbehind with rfl | hbehind
    · exact hbreaks
    · exact .inr (hbehind.append u)

/-- A piece of the text: it begins a line, or what separates two entries. -/
structure Piece (S : List (List UInt8)) (t : List UInt8) : Prop where
  slots : Slots S t
  breaks : t = [] ∨ Breaks t

namespace Piece

lemma nil : Piece S [] := ⟨slots_of_not_mem not_mem_nil, .inl rfl⟩

lemma plain (h : escape ∉ t) (hbreaks : Breaks t) : Piece S t := ⟨slots_of_not_mem h, .inr hbreaks⟩

lemma append (ht : Piece S t) (hu : Piece S u) : Piece S (t ++ u) := by
  refine ⟨ht.slots.append hu.slots hu.breaks, ?_⟩
  rcases ht.breaks with rfl | hbreaks
  · exact hu.breaks
  · exact .inr (hbreaks.append u)

lemma ite {c : Prop} [Decidable c] (h : c → Piece S t) : Piece S (if c then t else []) := by
  split_ifs with hc
  · exact h hc
  · exact nil

lemma flatMap {α : Type} {l : List α} {text : α → List UInt8} (h : ∀ a ∈ l, Piece S (text a)) :
    Piece S (l.flatMap text) := by
  induction l with
  | nil => exact nil
  | cons a l ih =>
    exact (h a mem_cons_self).append (ih fun b hb => h b (mem_cons_of_mem a hb))

lemma string (before : List UInt8) (hbefore : t = before ++ [0x20, quote])
    (hesc : escape ∉ before) (hbreaks : Breaks t) (hs : s ∈ S) :
    Piece S (t ++ (s ++ ascii "\"")) := by
  refine ⟨?_, .inr (hbreaks.append _)⟩
  rw [hbefore, append_assoc]
  exact slots_string hesc hs

lemma comma (h : Piece S t) (hstart : t.head? = some 0x0a) : Piece S (ascii "," ++ t) := by
  refine ⟨(slots_of_not_mem (by decide)).append h.slots h.breaks, .inr ?_⟩
  obtain ⟨t', rfl⟩ := head?_eq_some_iff.mp hstart
  exact ⟨t', .inr rfl⟩

lemma separated {α : Type} {first : List UInt8} {l : List α} {text : α → List UInt8}
    (hfirst : Piece S first) (h : ∀ a ∈ l, Piece S (text a))
    (hstart : ∀ a, (text a).head? = some 0x0a) :
    Piece S (separated first (ascii ",") text l) := by
  cases l with
  | nil => exact nil
  | cons a l =>
    rw [separated_cons]
    refine hfirst.append ((h a mem_cons_self).append (flatMap fun b hb => ?_))
    exact (h b (mem_cons_of_mem a hb)).comma (hstart b)

end Piece

/-- A string literal with an escape lies within one of the strings. -/
theorem within_slot {raw behind : List UInt8} (h : Slots S t) (hraw : raw ∈ chars)
    (ht : t = before ++ (quoted raw ++ behind)) (hesc : escape ∈ raw) :
    ∃ s ∈ S, escape ∈ s ∧ raw.length ≤ s.length := by
  obtain ⟨r1, r2, rfl⟩ := append_of_mem hesc
  have hsplit : t = (before ++ quote :: r1) ++ escape :: (r2 ++ quote :: behind) := by
    rw [ht, quoted]
    simp
  obtain ⟨a, s1, s2, b, hs, hx, hy, hb⟩ := h _ _ hsplit
  -- The literal does not begin before the string: the quotation mark there is not escaped.
  have hleft : r1.length ≤ s1.length := by
    have hx' : (before ++ [quote]) ++ r1 = (a ++ [0x20, quote]) ++ s1 := by simpa using hx
    rcases append_eq_append_iff.mp hx' with ⟨z, ha, rfl⟩ | ⟨z, -, rfl⟩
    · rcases eq_nil_or_concat z with rfl | ⟨z, c, rfl⟩
      · simp
      · have hlast : a ++ [0x20] = before ++ [quote] ++ z ∧ quote = c := by
          have ha' : (a ++ [0x20]) ++ [quote] = (before ++ [quote] ++ z) ++ [c] := by simpa using ha
          exact append_singleton_inj.mp ha'
        obtain ⟨hlast, rfl⟩ := hlast
        obtain ⟨u, rfl⟩ := escaped_of_chars hraw (u := z) (v := s1 ++ escape :: r2) (by simp)
        rw [← append_assoc] at hlast
        exact absurd (append_singleton_inj.mp hlast).2 (by decide)
    · rw [length_append]
      omega
  -- Nor does it end behind it: the line ends there.
  have hright : r2.length ≤ s2.length := by
    have hline : ∀ z, r2 = s2 ++ quote :: z → 0x0a ∉ z := by
      rintro z rfl hmem
      have hle := le_of_mem_chars hraw (b := 0x0a) (by simp [hmem])
      exact absurd hle (by decide)
    rcases append_eq_append_iff.mp hy with ⟨z, rfl, -⟩ | ⟨z, hz, hrest⟩
    · rw [length_append]
      omega
    cases z with
    | nil => rw [hz, append_nil]
    | cons c z =>
      cases hrest
      have hline := hline z hz
      rcases hb with hb | ⟨t', hb | hb⟩
      · simp at hb
      · cases z with
        | nil => cases hb
        | cons c z =>
          cases hb
          exact absurd mem_cons_self hline
      · cases z with
        | nil => cases hb
        | cons c z =>
          obtain ⟨-, hb⟩ := cons.inj hb
          cases z with
          | nil => cases hb
          | cons c' z =>
            obtain ⟨rfl, -⟩ := cons.inj hb
            exact absurd (mem_cons_of_mem c mem_cons_self) hline
  refine ⟨_, hs, mem_append_right _ mem_cons_self, ?_⟩
  simp only [length_append, length_cons]
  omega

/-! ## The pieces of a key file -/

lemma node_piece (h : ∀ s ∈ nodeStrings node, s ∈ S) : Piece S (nodeText node) := by
  have hhost := h node.hostname (by simp [nodeStrings])
  have hv4 := h node.ipv4 (by simp [nodeStrings])
  have hv6 := h node.ipv6 (by simp [nodeStrings])
  exact (Piece.string (ascii "\n\t\t\t\t\t\x7b\n\t\t\t\t\t\t\"HostName\":") (by decide) (by decide)
      ⟨_, .inl rfl⟩ hhost).append
    ((Piece.ite fun _ => .string (ascii ",\n\t\t\t\t\t\t\"IPv4\":") (by decide) (by decide)
      ⟨_, .inr rfl⟩ hv4).append
    ((Piece.ite fun _ => .string (ascii ",\n\t\t\t\t\t\t\"IPv6\":") (by decide) (by decide)
      ⟨_, .inr rfl⟩ hv6).append (.plain (by decide) ⟨_, .inl rfl⟩)))

lemma escape_not_mem_ofInt (z : ℤ) : escape ∉ Decimal.ofInt z := by
  have hdigits : ∀ n, escape ∉ Decimal.ofNat n := fun n hmem =>
    absurd (Decimal.digit_of_mem hmem).2 (by decide)
  unfold Decimal.ofInt
  split_ifs
  · exact not_mem_cons_of_ne_of_not_mem (by decide) (hdigits _)
  · exact hdigits _

lemma region_piece {reg : Region} (h : ∀ n ∈ reg.nodes, ∀ s ∈ nodeStrings n, s ∈ S) :
    Piece S (regionText reg) := by
  have hid : escape ∉
      ascii "\n\t\t\t\t\"RegionID\": " ++ (Decimal.ofInt reg.regionId.toInt ++ ascii ",") := by
    have hz := escape_not_mem_ofInt reg.regionId.toInt
    have hbefore : escape ∉ ascii "\n\t\t\t\t\"RegionID\": " := by decide
    have hbehind : escape ∉ ascii "," := by decide
    simp only [mem_append, not_or]
    exact ⟨hbefore, hz, hbehind⟩
  exact (Piece.plain (by decide) ⟨_, .inl rfl⟩).append
    ((Piece.ite fun _ => .plain hid ⟨_, .inl rfl⟩).append
    ((Piece.plain (by decide) ⟨_, .inl rfl⟩).append
    ((Piece.separated .nil (fun n hn => node_piece (h n hn)) fun _ => rfl).append
      (.plain (by decide) ⟨_, .inl rfl⟩))))

lemma escape_not_mem_labelled (h : IsName label) (key : Key) : escape ∉ labelled label key :=
  fun hmem => absurd (plain_labelled h key _ hmem).1 (by decide)

lemma key_piece {before : String} (hbefore : escape ∉ ascii before)
    (hbreaks : Breaks (ascii before)) (hlabel : IsName label) (key : Option Key) :
    Piece S (keyMember before label key) := by
  cases key with
  | none => exact .nil
  | some key =>
    refine .plain ?_ (hbreaks.append _)
    have hquote : escape ∉ ascii "\"" := by decide
    simp only [keyMember, mem_append, not_or]
    exact ⟨hbefore, escape_not_mem_labelled hlabel key, hquote⟩

lemma text_slots (k : Keyfile) : Slots (strings k) (text k) := by
  have hregions : ∀ reg ∈ k.pub.regions, Piece (strings k) (regionText reg) := by
    intro reg hreg
    refine region_piece fun n hn s hs => ?_
    exact mem_flatMap.mpr ⟨reg, hreg, mem_flatMap.mpr ⟨n, hn, hs⟩⟩
  have hid : escape ∉ ascii ",\n\t\t\"RegionID\": " ++ Decimal.ofInt k.pub.regionId.toInt := by
    have hbefore : escape ∉ ascii ",\n\t\t\"RegionID\": " := by decide
    simp only [mem_append, not_or]
    exact ⟨hbefore, escape_not_mem_ofInt _⟩
  have hrest : Piece (strings k) (restText k.pub) :=
    (key_piece (by decide) ⟨_, .inr rfl⟩ (by decide +kernel) _).append
    ((key_piece (by decide) ⟨_, .inr rfl⟩ (by decide +kernel) _).append
    ((Piece.ite fun _ => .plain hid ⟨_, .inr rfl⟩).append
    ((Piece.separated (.plain (by decide) ⟨_, .inr rfl⟩) hregions fun _ => rfl).append
    ((Piece.ite fun _ => .plain (by decide) ⟨_, .inl rfl⟩).append
      (.plain (by decide) ⟨_, .inl rfl⟩)))))
  have hhead : escape ∉ headText k := by
    have hopen : escape ∉ ascii "\x7b\n\t\"Private\": \"" := by decide
    have hmiddle : escape ∉ ascii "\",\n\t\"Public\": \x7b\n\t\t\"ServerPublic\": \"" := by decide
    have hquote : escape ∉ ascii "\"" := by decide
    simp only [headText, mem_append, not_or]
    exact ⟨hopen, escape_not_mem_labelled (by decide +kernel) _, hmiddle,
      escape_not_mem_labelled (by decide +kernel) _, hquote⟩
  exact (slots_of_not_mem hhead).append hrest.slots hrest.breaks

end Slots

/-! ## Round trips -/

section Roundtrip

variable {publicKey discoKey : Key → Option Key} {k k' : Keyfile}

lemma strings_saved (k : Keyfile) : strings k.saved = strings k := by
  simp only [strings, saved, flatMap_map, savedRegion]
  rfl

lemma saved_saved (k : Keyfile) : k.saved.saved = k.saved := by
  have hnode : savedNode ∘ savedNode = savedNode := rfl
  have hregion : savedRegion ∘ savedRegion = savedRegion := by
    funext reg
    simp [savedRegion, hnode]
  simp [saved, hregion]

lemma exists_longer (h : ∀ s ∈ strings k, Origin (text k) s) (hs : s ∈ strings k)
    (hplain : ¬∀ b ∈ s, isPlain b = true) :
    ∃ s' ∈ strings k, (¬∀ b ∈ s', isPlain b = true) ∧ s.length < s'.length := by
  rcases h s hs with rfl | ⟨raw, before, behind, cap, hraw, htext, hcopy⟩
  · exact absurd (fun _ h => absurd h not_mem_nil) hplain
  rcases stringCopy_cases hcopy with ⟨hesc, rfl⟩ | ⟨hesc, hlt⟩
  · -- a literal without escapes is plain
    refine absurd (fun b hb => isPlain_iff.mpr ⟨le_of_mem_chars hraw hb, ?_, ?_⟩) hplain
    · intro hquote
      obtain ⟨u, v, rfl⟩ := append_of_mem hb
      have hb' : b = quote := UInt8.toNat_inj.mp hquote
      subst hb'
      obtain ⟨u', rfl⟩ := escaped_of_chars hraw rfl
      exact hesc (by simp)
    · intro hescape
      have hb' : b = escape := UInt8.toNat_inj.mp hescape
      exact hesc (hb' ▸ hb)
  · obtain ⟨s', hs', hesc', hle⟩ := within_slot (text_slots k) hraw htext hesc
    exact ⟨s', hs', fun h => absurd (h escape hesc') (by decide), by omega⟩

lemma length_lt_of_fits (hfits : k.pub.Fits) (hs : s ∈ strings k) : s.length < dnsNameMax := by
  obtain ⟨reg, hreg, hs⟩ := mem_flatMap.mp hs
  obtain ⟨n, hn, hs⟩ := mem_flatMap.mp hs
  have hnode := (hfits.regions reg hreg).nodes n hn
  simp only [nodeStrings, mem_cons, not_mem_nil, or_false] at hs
  have hmax : ipStrMax ≤ dnsNameMax := by decide
  rcases hs with rfl | rfl | rfl
  · exact hnode.hostname.fits
  · exact lt_of_lt_of_le hnode.ipv4.fits hmax
  · exact lt_of_lt_of_le hnode.ipv6.fits hmax

lemma clean_of_origin (hfits : k.pub.Fits) (h : ∀ s ∈ strings k, Origin (text k) s) :
    Clean k := by
  -- Otherwise there would be longer and longer strings, which do not fit their fields.
  have hlong : ∀ n, ∀ s ∈ strings k, (¬∀ b ∈ s, isPlain b = true) →
      dnsNameMax ≤ s.length + n → False := by
    intro n
    induction n with
    | zero =>
      intro s hs _ hn
      exact absurd (length_lt_of_fits hfits hs) (Nat.not_lt.mpr hn)
    | succ n ih =>
      intro s hs hplain hn
      obtain ⟨s', hs', hplain', hlt⟩ := exists_longer h hs hplain
      exact ih s' hs' hplain' (by omega)
  intro s hs
  by_contra hplain
  exact hlong dnsNameMax s hs hplain (Nat.le_add_left _ _)

lemma plainNodes_of_clean (hfits : k.pub.Fits) (h : Clean k) : PlainNodes k := by
  intro reg hreg n hn
  have hnode := (hfits.regions reg hreg).nodes n hn
  have hplain : ∀ s ∈ nodeStrings n, ∀ b ∈ s, isPlain b = true := fun s hs =>
    h s (mem_flatMap.mpr ⟨reg, hreg, mem_flatMap.mpr ⟨n, hn, hs⟩⟩)
  exact ⟨⟨hnode.hostname, hplain _ (by simp [nodeStrings])⟩,
    ⟨hnode.ipv4, hplain _ (by simp [nodeStrings])⟩, ⟨hnode.ipv6, hplain _ (by simp [nodeStrings])⟩⟩

lemma clean_of_parse (hfits : k.pub.Fits) (h : parse publicKey discoKey (text k) = .ok k')
    (hsame : k'.saved = k.saved) : Clean k := by
  refine clean_of_origin hfits ?_
  rw [← strings_saved, ← hsame, strings_saved]
  exact strings_origin h

/-- A key file that has been written is read back exactly if none of the host names and addresses has a
quotation mark, a backslash or a control character in it. -/
theorem roundtrip_iff {cap : ℕ} {k : Keyfile} {out : List UInt8} (hfits : k.pub.Fits)
    (hkeys : Matching publicKey discoKey k) (hformat : format cap k = .ok out) :
    (∃ k', parse publicKey discoKey out = .ok k' ∧ k'.saved = k.saved) ↔ Clean k := by
  rw [format_eq hformat]
  constructor
  · rintro ⟨k', hparse, hsame⟩
    exact clean_of_parse hfits hparse hsame
  · intro hclean
    exact ⟨k.saved, parse_text (plainNodes_of_clean hfits hclean) hfits hkeys, saved_saved k⟩

/-- A key file with one node of the given name. -/
def sample (hostname : List UInt8) : Keyfile :=
  let key : Key := Vector.replicate 32 7
  let node := { Node.zero with hostname := hostname }
  ⟨key, true, key, some key, none, [{ Region.zero with nodes := [node] }], 1⟩

lemma sample_fits {hostname : List UInt8} (h : IsText dnsNameMax hostname) :
    (sample hostname).pub.Fits := by
  have hempty : ∀ cap, 0 < cap → IsText cap [] := fun cap hcap => ⟨hcap, not_mem_nil, rfl⟩
  refine ⟨Nat.le_of_ble_eq_true rfl, forall_mem_singleton.mpr ?_⟩
  refine ⟨hempty _ (by decide), hempty _ (by decide), Nat.le_of_ble_eq_true rfl,
    forall_mem_singleton.mpr ?_⟩
  exact ⟨hempty _ (by decide), h, hempty _ (by decide), hempty _ (by decide), hempty _ (by decide)⟩

lemma sample_matching (hostname : List UInt8) : Matching some some (sample hostname) :=
  ⟨rfl, rfl, fun _ h => h⟩

lemma exists_of_toBool {ε α : Type} {x : Except ε α} (h : x.toBool = true) : ∃ a, x = .ok a := by
  cases x with
  | error e => cases h
  | ok a => exact ⟨a, rfl⟩

/-- A relay with an ordinary name is read back. -/
theorem roundtrip_relay : ∃ out, format 1024 (sample (ascii "relay")) = .ok out ∧
    ∃ k', parse some some out = .ok k' ∧ k'.saved = (sample (ascii "relay")).saved := by
  obtain ⟨out, hout⟩ : ∃ out, format 1024 (sample (ascii "relay")) = .ok out :=
    exists_of_toBool (by decide +kernel)
  have hname : IsText dnsNameMax (ascii "relay") := ⟨by decide, by decide, by decide⟩
  refine ⟨out, hout, (roundtrip_iff (sample_fits hname) (sample_matching _) hout).mpr ?_⟩
  decide +kernel

/-- A relay with a quotation mark for a name is not. -/
theorem not_roundtrip_quote : ∃ out, (sample (ascii "\"")).pub.Fits ∧
    Matching some some (sample (ascii "\"")) ∧ format 1024 (sample (ascii "\"")) = .ok out ∧
      ¬∃ k', parse some some out = .ok k' ∧ k'.saved = (sample (ascii "\"")).saved := by
  obtain ⟨out, hout⟩ : ∃ out, format 1024 (sample (ascii "\"")) = .ok out :=
    exists_of_toBool (by decide +kernel)
  have hfits : (sample (ascii "\"")).pub.Fits := sample_fits ⟨by decide, by decide, by decide⟩
  refine ⟨out, hfits, sample_matching _, hout, ?_⟩
  rintro ⟨k', hparse, hsame⟩
  rw [format_eq hout] at hparse
  have hclean := clean_of_parse hfits hparse hsame
  exact absurd (hclean (ascii "\"") (by decide) quote (by decide)) (by decide)

end Roundtrip

end Keyfile
