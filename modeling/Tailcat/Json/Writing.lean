import Tailcat.Json.Walk
import Tailcat.Library.Decimal

/-!
# Texts that are written

A program that writes a document by hand puts it together from texts. `ValueText`, `MembersText` and
`ItemsText` say of a text that it is a value, some members or some elements wherever it stands, with
the events that are read from it; there is a rule for each construction.

## Main results

* `ValueText.feeds`: the events of a document;
* `chars_of_plain`: the strings that can be written without escapes.
-/

namespace Json

open Utf8 Rfc8259 List

/-! ## Strings without escapes -/

def isPlain (b : UInt8) : Bool := 0x20 ≤ b && b ≠ quote && b ≠ escape

variable {b : UInt8} {s raw t a : List UInt8}

lemma isPlain_iff : isPlain b = true ↔ 0x20 ≤ b.toNat ∧ b.toNat ≠ 0x22 ∧ b.toNat ≠ 0x5c := by
  rw [isPlain, Bool.and_eq_true, Bool.and_eq_true, decide_eq_true_iff, decide_eq_true_iff,
    decide_eq_true_iff, and_assoc, ← UInt8.toNat_inj.ne, ← UInt8.toNat_inj.ne]
  rfl

/-- A string in UTF-8 can be written without escapes if its bytes stand for themselves. -/
theorem chars_of_plain (hutf8 : valid s = true) (hplain : ∀ b ∈ s, isPlain b = true) :
    s ∈ chars := by
  obtain ⟨l, rfl⟩ := valid_iff.mp hutf8
  induction l with
  | nil => exact chars_nil
  | cons ch l ih =>
    have hrest := fun b hb => hplain b (mem_append_right _ hb)
    refine chars_cons ?_ (ih (valid_iff.mpr ⟨l, rfl⟩) hrest)
    -- A character of one byte is that byte, and any other is none of the exceptions.
    have hbyte : 0x20 ≤ ch.toNat ∧ ch.toNat ≠ 0x22 ∧ ch.toNat ≠ 0x5c := by
      by_cases hlow : ch.toNat < 0x80
      · obtain ⟨c, tail, hc⟩ := exists_cons_of_ne_nil (String.utf8EncodeChar_ne_nil)
        have hval := encode_ascii hc (.inr hlow)
        have hmem : isPlain c = true := hplain c (mem_append_left _ (hc ▸ mem_cons_self))
        rw [← hval]
        exact isPlain_iff.mp hmem
      · omega
    exact .unescaped ch hbyte.1 hbyte.2.1 hbyte.2.2

lemma chars_of_ascii (h : ∀ b ∈ s, isPlain b = true ∧ b < 0x80) : s ∈ chars :=
  chars_of_plain (valid_of_ascii fun b hb => UInt8.lt_iff_toNat_lt.mp (h b hb).2)
    fun b hb => (h b hb).1

lemma le_of_isHex (h : isHex b = true) : 0x30 ≤ b.toNat := by
  simp only [isHex, isDigit, Bool.or_eq_true, Bool.and_eq_true, decide_eq_true_eq] at h
  rcases h with (⟨h, -⟩ | ⟨h, -⟩) | ⟨h, -⟩
  · exact h
  · exact le_trans (by decide) h
  · exact le_trans (by decide) h

lemma le_of_mem_chars (h : raw ∈ chars) (hb : b ∈ raw) : 0x20 ≤ b.toNat := by
  obtain ⟨l, rfl, hl⟩ := Language.mem_kstar.mp h
  obtain ⟨t, ht, hb⟩ := mem_flatten.mp hb
  cases hl t ht with
  | unescaped ch hctl _ _ =>
    rcases encode_mem hb with heq | hhigh <;> omega
  | short c hc =>
    rcases mem_cons.mp hb with rfl | hb
    · decide
    rw [mem_singleton.mp hb]
    simp only [isShortEscape, Bool.or_eq_true, decide_eq_true_eq] at hc
    rcases hc with ((((((rfl | rfl) | rfl) | rfl) | rfl) | rfl) | rfl) | rfl <;> decide
  | unicode _ _ _ _ hhex =>
    rcases mem_cons.mp hb with rfl | hb
    · decide
    rcases mem_cons.mp hb with rfl | hb
    · decide
    exact le_trans (by decide) (le_of_isHex (hhex b hb))

lemma escaped_of_isChar {u v : List UInt8} (h : IsChar t) (ht : t = u ++ quote :: v) :
    u = [escape] := by
  have hmem : quote ∈ t := by
    rw [ht]
    exact mem_append_right _ mem_cons_self
  cases h with
  | unescaped ch _ hquote _ =>
    rcases encode_mem hmem with heq | hhigh
    · exact absurd heq.symm hquote
    · exact absurd hhigh (by decide)
  | short c _ =>
    cases u with
    | nil => cases ht
    | cons a u =>
      cases u with
      | nil =>
        cases ht
        rfl
      | cons a' u => simp at ht
  | unicode _ _ _ _ hhex =>
    rcases mem_cons.mp hmem with heq | hmem
    · exact absurd heq (by decide)
    rcases mem_cons.mp hmem with heq | hmem
    · exact absurd heq (by decide)
    exact absurd (le_of_isHex (hhex _ hmem)) (by decide)

lemma escaped_of_chars {u v : List UInt8} (h : raw ∈ chars) (hraw : raw = u ++ quote :: v) :
    ∃ u', u = u' ++ [escape] := by
  obtain ⟨l, rfl, hl⟩ := Language.mem_kstar.mp h
  clear h
  induction l generalizing u with
  | nil => simp at hraw
  | cons t l ih =>
    have ih := fun u => ih (u := u) fun t ht => hl t (mem_cons_of_mem _ ht)
    rcases append_eq_append_iff.mp hraw with ⟨u1, rfl, hrest⟩ | ⟨v1, ht, hrest⟩
    · obtain ⟨u', rfl⟩ := ih u1 hrest
      exact ⟨t ++ u', (append_assoc _ _ _).symm⟩
    cases v1 with
    | nil =>
      -- the quotation mark begins what follows
      obtain ⟨u', hu'⟩ := ih [] hrest.symm
      simp at hu'
    | cons c v1 =>
      cases hrest
      exact ⟨[], escaped_of_isChar (hl t mem_cons_self) ht⟩

/-! ## Structural characters -/

/-- Whether a text is the structural character `b`, with white space around it. -/
def isStructural (b : UInt8) (t : List UInt8) : Bool :=
  match t.dropWhile isWs with
  | [] => false
  | c :: w => c = b && w.all isWs

lemma structural_of (h : isStructural b t = true) : Structural b t := by
  unfold isStructural at h
  split at h
  · cases h
  rename_i c w hdrop
  rw [Bool.and_eq_true, decide_eq_true_iff, all_eq_true] at h
  refine ⟨t.takeWhile isWs, w, ws_takeWhile t, h.2, ?_⟩
  rw [← h.1, ← hdrop, takeWhile_append_dropWhile]

/-! ## Texts -/

variable {d : ℕ} {t u : List UInt8} {evs evs' : List Event}

/-- The text is a value wherever it stands, nested up to `d`, with these events. -/
def ValueText (d : ℕ) (t : List UInt8) (evs : List Event) : Prop :=
  ∀ p, ∃ v, Derives p (.value v) t ∧ v.depth ≤ d ∧ (eventsOf v).map Event.strip = evs

def ItemsText (d : ℕ) (t : List UInt8) (evs : List Event) : Prop :=
  ∀ p, ∃ vs, Derives p (.items vs) t ∧ depthItems vs ≤ d ∧ (eventsOfItems vs).map Event.strip = evs

def MembersText (d : ℕ) (t : List UInt8) (evs : List Event) : Prop :=
  ∀ p, ∃ ms, Derives p (.members ms) t ∧ depthMembers ms ≤ d ∧
    (eventsOfMembers ms).map Event.strip = evs

lemma ValueText.string (h : raw ∈ chars) : ValueText d (quoted raw) [.string ⟨0, raw⟩] := by
  intro p
  exact ⟨_, .string h, by rw [Value.depth]; exact Nat.zero_le d, rfl⟩

/-- The number that an integer is written as. -/
def integerNumber (z : ℤ) : Number where
  minus := z < 0
  int := Decimal.ofNat z.natAbs
  frac := []
  exp := []
  isInt := by
    by_cases hz : z.natAbs = 0
    · exact .inl (if_pos hz)
    refine .inr ⟨⟨Decimal.ofNat_ne_nil _, fun d hd => ?_⟩, Decimal.head_ne_zero hz⟩
    have hdigit := Decimal.digit_of_mem hd
    rw [isDigit, Bool.and_eq_true, decide_eq_true_iff, decide_eq_true_iff]
    exact ⟨UInt8.le_iff_toNat_le.mpr hdigit.1, UInt8.le_iff_toNat_le.mpr hdigit.2⟩
  isFrac := .inl rfl
  isExp := .inl rfl

lemma ValueText.integer {z : ℤ} (hlo : -2 ^ 63 ≤ z) (hhi : z < 2 ^ 63) :
    ValueText d (Decimal.ofInt z) [.number (some z)] := by
  intro p
  have htext : (integerNumber z).text = Decimal.ofInt z := by
    rw [Number.text, Decimal.ofInt, integerNumber]
    by_cases hz : z < 0 <;> simp [hz]
  have hinteger : (integerNumber z).integer = some z := by
    have hdecimal : decimal (Decimal.ofNat z.natAbs) = z.natAbs := Decimal.ofDigits_ofNat _
    rw [Number.integer, if_pos ⟨rfl, rfl⟩, integerNumber]
    dsimp only
    by_cases hz : z < 0
    · rw [if_pos (decide_eq_true hz)]
      congr 1
      omega
    · rw [if_neg (by rwa [decide_eq_true_iff])]
      congr 1
      omega
  have hreported : reported (integerNumber z) = some z := by
    rw [reported, hinteger, Option.filter_some, if_pos (decide_eq_true ⟨hlo, hhi⟩)]
  refine ⟨.number (integerNumber z), ?_, by rw [Value.depth]; exact Nat.zero_le d, ?_⟩
  · rw [← htext]
    exact .number _
  · rw [eventsOf, hreported]
    rfl

lemma ValueText.object {b : List UInt8} (ha : Structural beginObject a) (h : MembersText d t evs)
    (hb : Structural endObject b) :
    ValueText (d + 1) (a ++ (t ++ b)) (.objectBegin :: (evs ++ [.objectEnd])) := by
  intro p
  obtain ⟨ms, hderives, hdepth, rfl⟩ := h (p + a.length)
  refine ⟨.object ms, .object ha hderives hb, ?_, ?_⟩
  · rw [Value.depth]
    omega
  · rw [eventsOf, map_cons, map_append]
    rfl

lemma ValueText.array {b : List UInt8} (ha : Structural beginArray a) (h : ItemsText d t evs)
    (hb : Structural endArray b) :
    ValueText (d + 1) (a ++ (t ++ b)) (.arrayBegin :: (evs ++ [.arrayEnd])) := by
  intro p
  obtain ⟨vs, hderives, hdepth, rfl⟩ := h (p + a.length)
  refine ⟨.array vs, .array ha hderives hb, ?_, ?_⟩
  · rw [Value.depth]
    omega
  · rw [eventsOf, map_cons, map_append]
    rfl

lemma ValueText.emptyArray {b : List UInt8} (ha : Structural beginArray a)
    (hb : Structural endArray b) : ValueText (d + 1) (a ++ b) [.arrayBegin, .arrayEnd] := by
  intro p
  refine ⟨.array [], .emptyArray ha hb, ?_, rfl⟩
  rw [Value.depth, depthItems]
  omega

lemma ItemsText.last (h : ValueText d t evs) : ItemsText d t evs := by
  intro p
  obtain ⟨v, hderives, hdepth, rfl⟩ := h p
  refine ⟨[v], .lastItem hderives, ?_, ?_⟩
  · rw [depthItems, depthItems]
    omega
  · rw [eventsOfItems, eventsOfItems, append_nil]

lemma ItemsText.more (h : ValueText d t evs) (hs : Structural valueSeparator s)
    (h' : ItemsText d u evs') : ItemsText d (t ++ (s ++ u)) (evs ++ evs') := by
  intro p
  obtain ⟨v, hderives, hdepth, rfl⟩ := h p
  obtain ⟨vs, hderives', hdepth', rfl⟩ := h' (p + t.length + s.length)
  refine ⟨v :: vs, .moreItems hderives hs hderives', ?_, ?_⟩
  · rw [depthItems]
    omega
  · rw [eventsOfItems, map_append]

lemma MembersText.member (hraw : raw ∈ chars) (hs : Structural nameSeparator s)
    (h : ValueText d t evs) :
    MembersText d (quoted raw ++ (s ++ t)) (.key ⟨0, raw⟩ :: evs) := by
  intro p
  obtain ⟨v, hderives, hdepth, rfl⟩ := h (p + (quoted raw).length + s.length)
  refine ⟨[(⟨p + 1, raw⟩, v)], .lastMember (.member hraw hs hderives), ?_, ?_⟩
  · rw [depthMembers, depthMembers]
    omega
  · rw [eventsOfMembers, eventsOfMembers, append_nil]
    rfl

lemma derives_members_append {p : ℕ} {ms ms' : List (Literal × Value)}
    (h : Derives p (.members ms) t) (hs : Structural valueSeparator s)
    (h' : Derives (p + t.length + s.length) (.members ms') u) :
    Derives p (.members (ms ++ ms')) (t ++ (s ++ u)) := by
  generalize hφ : Phrase.members ms = φ at h
  induction h generalizing ms with
  | lastMember hm =>
    cases hφ
    exact .moreMembers hm hs h'
  | @moreMembers p m t s1 ms1 u1 hm hs1 _ _ ih =>
    cases hφ
    have hpos : p + (t ++ (s1 ++ u1)).length + s.length =
        p + t.length + s1.length + u1.length + s.length := by
      simp only [length_append]
      omega
    rw [hpos] at h'
    have hmore := Derives.moreMembers hm hs1 (ih h' rfl)
    rw [← append_assoc s1, ← append_assoc] at hmore
    exact hmore
  | _ => cases hφ

lemma eventsOfMembers_append (ms ms' : List (Literal × Value)) :
    eventsOfMembers (ms ++ ms') = eventsOfMembers ms ++ eventsOfMembers ms' := by
  induction ms with
  | nil => rfl
  | cons m ms ih =>
    rw [cons_append, eventsOfMembers, eventsOfMembers, ih, cons_append, append_assoc]

lemma depthMembers_append (ms ms' : List (Literal × Value)) :
    depthMembers (ms ++ ms') = max (depthMembers ms) (depthMembers ms') := by
  induction ms with
  | nil =>
    rw [nil_append, depthMembers]
    omega
  | cons m ms ih =>
    rw [cons_append, depthMembers, depthMembers, ih, max_assoc]

lemma MembersText.append (h : MembersText d t evs) (hs : Structural valueSeparator s)
    (h' : MembersText d u evs') :
    MembersText d (t ++ (s ++ u)) (evs ++ evs') := by
  intro p
  obtain ⟨ms, hderives, hdepth, rfl⟩ := h p
  obtain ⟨ms', hderives', hdepth', rfl⟩ := h' (p + t.length + s.length)
  refine ⟨ms ++ ms', derives_members_append hderives hs hderives', ?_, ?_⟩
  · rw [depthMembers_append]
    omega
  · rw [eventsOfMembers_append, map_append]

/-- The events of a document. -/
theorem ValueText.feeds {w : List UInt8} (h : ValueText d t evs) (hd : d ≤ maxDepth) (hw : Ws w) :
    Feeds (Reader.init (t ++ w)) evs := by
  obtain ⟨v, hderives, hdepth, rfl⟩ := h 0
  have hdoc : Document (t ++ w) v := ⟨[], t, w, .nil, hw, rfl, hderives⟩
  exact ⟨eventsOf v, ends_of_document hdoc (hdepth.trans hd), rfl⟩

end Json
