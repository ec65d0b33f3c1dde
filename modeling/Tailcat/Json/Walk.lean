import Tailcat.Json.Text

/-!
# Walking over objects and arrays

The functions that parse a document call `tc_json_next` in loops over members and elements, which are
the same but for what they do with a name or an element, here their parameter.

## Main results

* `members_invariant` and `items_invariant`: invariants of the loops;
* `members_consumes` and `items_consumes`: the loops with known events.
-/

namespace Json

open Rfc8259 List

variable {r q : Reader} {ev : Event} {evs : List Event} {p : ℕ} {t : List UInt8} {obj : Bool}

/-! ## What a call takes -/

/-- An event has taken some text: what is left stands behind it. The text of a string is its slice,
in quotes. -/
def Token (ev : Event) (r q : Reader) : Prop :=
  ∃ before t behind, r.rest = before ++ (t ++ behind) ∧ t ≠ [] ∧ q.rest <:+ behind ∧
    ∀ s, ev = .string s → s.bytes ∈ chars ∧ t = quoted s.bytes

namespace Token

lemma of_suffix {r' q' : Reader} (h : Token ev r q) (hr : r.rest <:+ r'.rest)
    (hq : q'.rest <:+ q.rest) : Token ev r' q' := by
  obtain ⟨before, t, behind, hrest, ht, hbehind, hs⟩ := h
  obtain ⟨skipped, hskipped⟩ := hr
  refine ⟨skipped ++ before, t, behind, ?_, ht, hq.trans hbehind, hs⟩
  rw [← hskipped, hrest, append_assoc]

lemma suffix (h : Token ev r q) : q.rest <:+ r.rest := by
  obtain ⟨before, t, behind, hrest, -, hbehind, -⟩ := h
  rw [hrest]
  exact (hbehind.trans (suffix_append t behind)).trans (suffix_append before _)

lemma length_lt (h : Token ev r q) : q.rest.length < r.rest.length := by
  obtain ⟨before, t, behind, hrest, ht, hbehind, -⟩ := h
  have hpos := length_pos_iff.mpr ht
  have hle := hbehind.length_le
  rw [hrest, length_append, length_append]
  omega

lemma of_cons {b : UInt8} {behind : List UInt8} (hev : ∀ s, ev ≠ .string s)
    (hr : b :: behind <:+ r.rest) (hq : q.rest <:+ behind) : Token ev r q := by
  obtain ⟨before, hbefore⟩ := hr
  exact ⟨before, [b], behind, hbefore.symm, cons_ne_nil _ _, hq, fun s h => absurd h (hev s)⟩

end Token

lemma advance_suffix (r : Reader) (n : ℕ) : (r.advance n).rest <:+ r.rest := drop_suffix n _

lemma skipWs_suffix (r : Reader) : r.skipWs.rest <:+ r.rest := advance_suffix r _

lemma endDocument_suffix (h : r.endDocument = .ok q) : q.rest <:+ r.rest := by
  unfold Reader.endDocument at h
  split_ifs at h
  cases h
  exact skipWs_suffix r

lemma scalar_string {v : Value} {s : Literal} (h : Reader.Scalar p v t (.string s)) :
    s.bytes ∈ chars ∧ t = quoted s.bytes := by
  have hderives := h.derives
  have hevents := h.events
  cases hderives with
  | string hraw =>
    cases hevents
    exact ⟨hraw, rfl⟩
  | null => cases hevents
  | true => cases hevents
  | false => cases hevents
  | number n => cases hevents
  | emptyArray _ _ => cases hevents
  | array _ _ _ => cases hevents
  | emptyObject _ _ => cases hevents
  | object _ _ _ => cases hevents

lemma derives_ne_nil {φ : Phrase} (h : Derives p φ t) : t ≠ [] := by
  have hstructural : ∀ {b : UInt8} {a : List UInt8}, Structural b a → a ≠ [] := by
    rintro b _ ⟨w, w', -, -, rfl⟩
    exact append_ne_nil_of_right_ne_nil _ (cons_ne_nil _ _)
  induction h with
  | null => exact cons_ne_nil _ _
  | true => exact cons_ne_nil _ _
  | false => exact cons_ne_nil _ _
  | number n =>
    obtain ⟨c, t, htext, -⟩ := Reader.head_text n
    rw [htext]
    exact cons_ne_nil _ _
  | string _ => exact cons_ne_nil _ _
  | emptyArray ha _ => exact append_ne_nil_of_left_ne_nil (hstructural ha) _
  | array ha _ _ _ => exact append_ne_nil_of_left_ne_nil (hstructural ha) _
  | emptyObject ha _ => exact append_ne_nil_of_left_ne_nil (hstructural ha) _
  | object ha _ _ _ => exact append_ne_nil_of_left_ne_nil (hstructural ha) _
  | lastItem _ ih => exact ih
  | moreItems _ _ _ ih _ => exact append_ne_nil_of_left_ne_nil ih _
  | member _ _ _ _ => exact cons_ne_nil _ _
  | lastMember _ ih => exact ih
  | moreMembers _ _ _ ih _ => exact append_ne_nil_of_left_ne_nil ih _

lemma readValue_token (h : r.readValue = .ok (ev, q)) : Token ev r q := by
  rcases Reader.readValue_cases h with ⟨obj, rest, hrest, -, rfl, rfl⟩ | ⟨v, t, hv, htext, rfl⟩
  · refine Token.of_cons (by cases obj <;> exact nofun) ⟨[], hrest.symm⟩ ?_
    change r.rest.drop 1 <:+ rest
    rw [hrest]
    exact suffix_rfl
  · obtain ⟨behind, hbehind⟩ := htext
    refine ⟨[], t, behind, hbehind.symm, derives_ne_nil hv.derives, ?_, ?_⟩
    · change r.rest.drop t.length <:+ behind
      rw [← hbehind, drop_left]
    · rintro s rfl
      exact scalar_string hv

lemma memberName_token (h : r.memberName = .ok (ev, q)) : Token ev r q := by
  unfold Reader.memberName at h
  split at h
  · cases h
  rename_i s r1 hs
  obtain ⟨raw, -, ⟨behind, hbehind⟩, rfl, rfl⟩ := scanString_sound hs
  dsimp only at h
  split at h
  · cases h
  split_ifs at h
  cases h
  have hrest : (r.advance (quoted raw).length).rest <:+ raw ++ [quote] ++ behind := by
    change r.rest.drop (quoted raw).length <:+ _
    rw [← hbehind, drop_left]
    exact suffix_append _ _
  have hr : quote :: (raw ++ [quote] ++ behind) <:+ r.rest := by
    rw [← hbehind]
    exact suffix_rfl
  exact Token.of_cons nofun hr (((advance_suffix _ 1).trans (skipWs_suffix _)).trans hrest)

lemma element_token {lvl : ℕ} (h : r.element lvl = .ok (ev, q)) : Token ev r q := by
  unfold Reader.element at h
  obtain ⟨x, hread, ⟨⟩⟩ := map_eq_ok h
  refine (readValue_token hread).of_suffix suffix_rfl ?_
  split_ifs
  · exact suffix_rfl
  · exact suffix_rfl

lemma pop_token (hne : r.rest ≠ []) (h : r.pop obj = .ok (ev, q)) : Token ev r q := by
  obtain ⟨b, rest, hrest⟩ := exists_cons_of_ne_nil hne
  have hdrop : r.rest.drop 1 = rest := by rw [hrest, drop_one, tail_cons]
  rw [Reader.pop_eq] at h
  obtain ⟨q', hok, ⟨⟩⟩ := map_eq_ok h
  refine Token.of_cons (by cases obj <;> exact nofun) ⟨[], hrest.symm⟩ ?_
  rw [← hdrop]
  unfold Reader.complete at hok
  split_ifs at hok
  · exact endDocument_suffix hok
  · cases hok
    exact suffix_rfl

lemma comma_suffix {seen : Bool} (h : r.comma obj seen = .ok q) : q.rest <:+ r.rest := by
  unfold Reader.comma at h
  dsimp only at h
  split_ifs at h
  · cases h
    exact (skipWs_suffix _).trans (advance_suffix r 1)
  · cases h
    exact suffix_rfl

lemma next_token_or (h : r.next = .ok (ev, q)) :
    Token ev r q ∨ ev = .finish ∧ q.rest <:+ r.rest := by
  unfold Reader.next at h
  split_ifs at h
  · cases h
    exact .inr ⟨rfl, suffix_rfl⟩
  · -- the document
    unfold Reader.nextTop at h
    split_ifs at h
    · cases h
      exact .inr ⟨rfl, skipWs_suffix r⟩
    left
    split at h
    · cases h
    rename_i ev' r1 hread
    have htoken : Token ev' r r1 := (readValue_token hread).of_suffix (skipWs_suffix r) suffix_rfl
    split_ifs at h
    · obtain ⟨r2, hend, ⟨⟩⟩ := map_eq_ok h
      exact htoken.of_suffix suffix_rfl (endDocument_suffix hend)
    · cases h
      exact htoken
  · -- inside a level
    left
    refine Token.of_suffix ?_ (skipWs_suffix r) suffix_rfl
    unfold Reader.nextIn at h
    by_cases hnil : r.skipWs.rest = []
    · rw [if_pos hnil] at h
      cases h
    rw [if_neg hnil] at h
    split at h
    · split_ifs at h
      exact pop_token hnil h
    split at h
    · exact (element_token h).of_suffix suffix_rfl suffix_rfl
    split at h
    · cases h
    · next r1 hcomma =>
      refine Token.of_suffix ?_ (comma_suffix hcomma) suffix_rfl
      split_ifs at h
      · exact memberName_token h
      · exact element_token h

lemma next_token (h : r.next = .ok (ev, q)) (hev : ev ≠ .finish) : Token ev r q :=
  (next_token_or h).resolve_right fun hfinish => hev hfinish.1

lemma next_suffix (h : r.next = .ok (ev, q)) : q.rest <:+ r.rest := by
  rcases next_token_or h with htoken | ⟨-, hsuffix⟩
  · exact htoken.suffix
  · exact hsuffix

lemma Ends.length_le (h : Ends r evs) : evs.length ≤ r.rest.length := by
  induction h with
  | finish _ => exact Nat.zero_le _
  | event hnext hev _ ih =>
    have hlt := (next_token hnext hev).length_lt
    rw [length_cons]
    omega

lemma skipLoop_suffix {target fuel : ℕ} (h : skipLoop target fuel r = .ok q) :
    q.rest <:+ r.rest := by
  induction fuel generalizing r with
  | zero => cases h
  | succ fuel ih =>
    rw [skipLoop] at h
    split_ifs at h
    · split at h
      · cases h
      · next ev r1 hnext =>
        split_ifs at h
        exact (ih h).trans (next_suffix hnext)
    · cases h
      exact suffix_rfl

lemma skipValue_suffix (h : r.skipValue = .ok q) : q.rest <:+ r.rest := by
  unfold Reader.skipValue at h
  split at h
  · cases h
  rename_i ev r1 hnext
  split_ifs at h
  · exact (skipLoop_suffix h).trans (next_suffix hnext)
  · cases h
    exact next_suffix hnext

/-! ## Loops -/

section Loops

/-- A function that reads something and updates a value with it. -/
abbrev Update (ε α : Type) : Type := α → Reader → Except ε (α × Reader)

variable {α β ε : Type} {bad : ε} {last : Event} {a b c : α}
  {entry : Event → Update ε α} {member : List UInt8 → Update ε α} {item : Update ε α}

/-- A loop up to the event `last`, that calls `entry` with every event before it. -/
def walkLoop (bad : ε) (last : Event) (entry : Event → Update ε α) : ℕ → Update ε α
  | 0, _, _ => .error bad
  | fuel + 1, a, r =>
    match r.next with
    | .error _ => .error bad
    | .ok (ev, r) =>
      if ev = last then .ok (a, r)
      else
        match entry ev a r with
        | .error e => .error e
        | .ok (a, r) => walkLoop bad last entry fuel a r

/-- The loop, with a bound on its rounds that is never reached, since every round takes some of the
text. -/
def walk (bad : ε) (last : Event) (entry : Event → Update ε α) : Update ε α := fun a r =>
  walkLoop bad last entry (r.rest.length + 1) a r

/-- Behind each name `member` is called. -/
def onKey (bad : ε) (member : List UInt8 → Update ε α) (ev : Event) : Update ε α := fun a r =>
  match ev with
  | .key s => member s.bytes a r
  | _ => .error bad

/-- Where an object has been begun `item` is called. -/
def onObject (bad : ε) (item : Update ε α) (ev : Event) : Update ε α := fun a r =>
  match ev with
  | .objectBegin => item a r
  | _ => .error bad

/-- The loop over the members of an object that has been begun. -/
def members (bad : ε) (member : List UInt8 → Update ε α) : Update ε α :=
  walk bad .objectEnd (onKey bad member)

/-- The loop over the elements of an array that has been begun, where these are objects. -/
def items (bad : ε) (item : Update ε α) : Update ε α :=
  walk bad .arrayEnd (onObject bad item)

/-! ## Invariants -/

variable {text : List UInt8} {I : α → Prop}

def Keeps (text : List UInt8) (I : α → Prop) (f : Update ε α) : Prop :=
  ∀ ⦃a b : α⦄ ⦃r q : Reader⦄, I a → r.rest <:+ text → f a r = .ok (b, q) → I b ∧ q.rest <:+ text

lemma walk_invariant (h : ∀ ev, Keeps text I (entry ev)) : Keeps text I (walk bad last entry) := by
  intro a b r q ha hr hok
  unfold walk at hok
  generalize r.rest.length + 1 = fuel at hok
  induction fuel generalizing a r with
  | zero => cases hok
  | succ fuel ih =>
    rw [walkLoop] at hok
    split at hok
    · cases hok
    rename_i ev r1 hnext
    have hr1 := (next_suffix hnext).trans hr
    split_ifs at hok
    · cases hok
      exact ⟨ha, hr1⟩
    · split at hok
      · cases hok
      · next a1 r2 hentry =>
        obtain ⟨ha1, hr2⟩ := h ev ha hr1 hentry
        exact ih ha1 hr2 hok

theorem members_invariant (h : ∀ name, Keeps text I (member name)) :
    Keeps text I (members bad member) := by
  refine walk_invariant fun ev => ?_
  intro a b r q ha hr hok
  cases ev with
  | key s => exact h _ ha hr hok
  | _ => cases hok

theorem items_invariant (h : Keeps text I item) : Keeps text I (items bad item) := by
  refine walk_invariant fun ev => ?_
  intro a b r q ha hr hok
  cases ev with
  | objectBegin => exact h ha hr hok
  | _ => cases hok

/-! ## Known events -/

/-- An event without its place in the text. -/
def Event.strip : Event → Event
  | .key s => .key ⟨0, s.bytes⟩
  | .string s => .string ⟨0, s.bytes⟩
  | ev => ev

lemma eq_of_strip {ev' : Event} (hkey : ∀ s, ev ≠ .key s) (hstring : ∀ s, ev ≠ .string s)
    (h : ev'.strip = ev) : ev' = ev := by
  cases ev' with
  | key s => exact absurd h.symm (hkey _)
  | string s => exact absurd h.symm (hstring _)
  | _ => exact h

def Feeds (r : Reader) (evs : List Event) : Prop :=
  ∃ evs', Ends r evs' ∧ evs'.map Event.strip = evs

lemma Feeds.length_le (h : Feeds r evs) : evs.length ≤ r.rest.length := by
  obtain ⟨evs', hends, rfl⟩ := h
  rw [length_map]
  exact hends.length_le

lemma Feeds.next (h : Feeds r (ev :: evs)) :
    ∃ (ev' : Event) (q : Reader), r.next = .ok (ev', q) ∧ ev'.strip = ev ∧ Feeds q evs := by
  obtain ⟨evs', hends, hmap⟩ := h
  obtain ⟨ev', evs', rfl, hev, hevs⟩ := map_eq_cons_iff.mp hmap
  cases hends with
  | event hnext _ hrest => exact ⟨ev', _, hnext, hev, _, hrest, hevs⟩

lemma Feeds.next_plain (h : Feeds r (ev :: evs)) (hkey : ∀ s, ev ≠ .key s)
    (hstring : ∀ s, ev ≠ .string s) : ∃ q : Reader, r.next = .ok (ev, q) ∧ Feeds q evs := by
  obtain ⟨ev', q, hnext, hev, hq⟩ := h.next
  have heq : ev' = ev := eq_of_strip hkey hstring hev
  exact ⟨q, heq ▸ hnext, hq⟩

lemma Feeds.next_string {s : List UInt8} (h : Feeds r (.string ⟨0, s⟩ :: evs)) :
    ∃ (off : ℕ) (q : Reader), r.next = .ok (.string ⟨off, s⟩, q) ∧ Feeds q evs := by
  obtain ⟨ev', q, hnext, hev, hq⟩ := h.next
  cases ev' with
  | string s =>
    cases hev
    exact ⟨s.off, q, hnext, hq⟩
  | _ => cases hev

/-- With these events to come the function takes them and returns `b`. -/
def Consumes (f : Reader → Except ε (β × Reader)) (evs : List Event) (b : β) : Prop :=
  ∀ ⦃r : Reader⦄ ⦃evs' : List Event⦄, Feeds r (evs ++ evs') → ∃ q, f r = .ok (b, q) ∧ Feeds q evs'

/-- What is made of the result of a function that consumes events. -/
theorem Consumes.map {γ : Type} {f : Reader → Except ε (β × Reader)}
    {g : Reader → Except ε (γ × Reader)} {x : β} {y : γ} (h : Consumes f evs x)
    (hg : ∀ r q, f r = .ok (x, q) → g r = .ok (y, q)) : Consumes g evs y := by
  intro r evs' hfeeds
  obtain ⟨q, hread, hq⟩ := h hfeeds
  exact ⟨q, hg r q hread, hq⟩

/-- What the rounds of a loop make of events. -/
inductive Run (last : Event) (entry : Event → Update ε α) :
    α → List Event → α → Prop
  | nil (a : α) : Run last entry a [] a
  | cons {ev : Event} {a b c : α} {evs evs' : List Event} (hev : ev ≠ last)
      (h : ∀ ev', ev'.strip = ev → Consumes (entry ev' a) evs b) (hrest : Run last entry b evs' c) :
      Run last entry a (ev :: (evs ++ evs')) c

namespace Run

lemma append {evs' : List Event} (h : Run last entry a evs b) (h' : Run last entry b evs' c) :
    Run last entry a (evs ++ evs') c := by
  induction h with
  | nil a => exact h'
  | @cons ev a b _ evs evs1 hev hc _ ih =>
    have hrun := Run.cons hev hc (ih h')
    rwa [← append_assoc] at hrun

lemma single (hev : ev ≠ last) (h : ∀ ev', ev'.strip = ev → Consumes (entry ev' a) evs b) :
    Run last entry a (ev :: evs) b := by
  have hrun := Run.cons hev h (.nil b)
  rwa [append_nil] at hrun

lemma key {name : List UInt8} (h : Consumes (member name a) evs b) :
    Run .objectEnd (onKey bad member) a (.key ⟨0, name⟩ :: evs) b := by
  refine single nofun fun ev' hev => ?_
  cases ev' with
  | key s =>
    cases hev
    exact h
  | _ => cases hev

lemma object (h : Consumes (item a) evs b) :
    Run .arrayEnd (onObject bad item) a (.objectBegin :: evs) b := by
  refine single nofun fun ev' hev => ?_
  cases ev' with
  | objectBegin => exact h
  | _ => cases hev

end Run

lemma walk_consumes (h : Run last entry a evs b) (hkey : ∀ s, last ≠ .key s)
    (hstring : ∀ s, last ≠ .string s) :
    Consumes (walk bad last entry a) (evs ++ [last]) b := by
  intro r evs' hfeeds
  have hfuel : evs.length < r.rest.length + 1 := by
    have hlen := hfeeds.length_le
    rw [length_append, length_append] at hlen
    omega
  unfold walk
  generalize r.rest.length + 1 = fuel at hfuel
  induction h generalizing r fuel with
  | nil a =>
    obtain ⟨fuel, rfl⟩ := Nat.exists_eq_succ_of_ne_zero (Nat.ne_zero_of_lt hfuel)
    obtain ⟨ev, q, hnext, hev, hq⟩ := hfeeds.next
    have hev' : ev = last := eq_of_strip hkey hstring hev
    refine ⟨q, ?_, hq⟩
    rw [walkLoop, hnext]
    exact if_pos hev'
  | @cons ev a b c evs1 evs2 hev hc _ ih =>
    obtain ⟨fuel, rfl⟩ := Nat.exists_eq_succ_of_ne_zero (Nat.ne_zero_of_lt hfuel)
    rw [length_cons, length_append] at hfuel
    rw [append_assoc, cons_append, append_assoc] at hfeeds
    obtain ⟨ev', q1, hnext, hstrip, hq1⟩ := hfeeds.next
    obtain ⟨q2, hentry, hq2⟩ := hc ev' hstrip hq1
    rw [← append_assoc] at hq2
    obtain ⟨q, hloop, hq⟩ := ih hq2 fuel (by omega)
    have hne : ev' ≠ last := by
      rintro rfl
      refine hev (hstrip.symm.trans ?_)
      cases ev' with
      | key s => exact absurd rfl (hkey s)
      | string s => exact absurd rfl (hstring s)
      | _ => rfl
    refine ⟨q, ?_, hq⟩
    rw [walkLoop, hnext]
    dsimp only
    rw [if_neg hne, hentry]
    exact hloop

theorem members_consumes (h : Run .objectEnd (onKey bad member) a evs b) :
    Consumes (members bad member a) (evs ++ [.objectEnd]) b :=
  walk_consumes h nofun nofun

theorem items_consumes (h : Run .arrayEnd (onObject bad item) a evs b) :
    Consumes (items bad item a) (evs ++ [.arrayEnd]) b :=
  walk_consumes h nofun nofun

end Loops

end Json
