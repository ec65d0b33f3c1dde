import Mathlib.Data.Vector.Defs
import Tailcat.Json.Tokens

/-!
# The calls of the reader

What one call of `tc_json_next` does, in terms of the open levels: `levels` are their kinds, innermost
first, and of the other bits only that of the innermost level matters, since a level below it gets its
bit when the level above it is closed.

## Main results

* `readValue_cases` and `next_cases`: what a call that succeeds has read.
-/

namespace Json

open Rfc8259
open List hiding Vector

/-! ## Events of a value -/

mutual

/-- The preorder traversal of a value. -/
def eventsOf : Value → List Event
  | .null => [.null]
  | .bool b => [.bool b]
  | .number n => [.number (reported n)]
  | .string s => [.string s]
  | .array items => .arrayBegin :: (eventsOfItems items ++ [.arrayEnd])
  | .object members => .objectBegin :: (eventsOfMembers members ++ [.objectEnd])

def eventsOfItems : List Value → List Event
  | [] => []
  | v :: vs => eventsOf v ++ eventsOfItems vs

/-- The names and the traversals of some members. -/
def eventsOfMembers : List (Literal × Value) → List Event
  | [] => []
  | (name, v) :: ms => .key name :: (eventsOf v ++ eventsOfMembers ms)

end

def opener (obj : Bool) : UInt8 := if obj then beginObject else beginArray

def beginEvent (obj : Bool) : Event := if obj then .objectBegin else .arrayBegin

def endEvent (obj : Bool) : Event := if obj then .objectEnd else .arrayEnd

namespace Reader

/-! ## The levels -/

def levels (r : Reader) : List Bool := (r.inObject.toList.take r.depth).reverse

def seenTop (r : Reader) : Bool := r.seen.getD (r.depth - 1) false

variable {r r' : Reader} {below : List Bool} {obj expect : Bool} {p : ℕ} {s : List UInt8}
  {ev : Event}

lemma length_levels (h : r.depth ≤ maxDepth) : r.levels.length = r.depth := by
  rw [levels, length_reverse, length_take, Vector.length_toList]
  omega

lemma levels_push (h : r.depth < maxDepth) (obj : Bool) :
    (r.push obj).levels = obj :: r.levels := by
  have hlen : r.depth < (r.inObject.toList.set r.depth obj).length := by
    rwa [length_set, Vector.length_toList]
  rw [levels, levels, push]
  rw [Vector.toList_setIfInBounds, take_succ_eq_append_getElem hlen, getElem_set_self,
    take_set_of_le le_rfl, reverse_concat]

lemma levels_eq_cons (hlevels : r.levels = obj :: below) (hbound : r.depth ≤ maxDepth) :
    r.inObject.getD (r.depth - 1) false = obj ∧
      (r.inObject.toList.take (r.depth - 1)).reverse = below := by
  have hlen := length_levels hbound
  rw [hlevels, length_cons] at hlen
  have hlt : r.depth - 1 < r.inObject.toList.length := by
    rw [Vector.length_toList]
    omega
  have htake := take_succ_eq_append_getElem hlt
  rw [Nat.sub_add_cancel (by omega)] at htake
  rw [levels, htake, reverse_concat, cons.injEq] at hlevels
  refine ⟨?_, hlevels.2⟩
  rw [Vector.getD, Array.getD_eq_getD_getElem?, Vector.getElem?_toArray, ← Vector.getElem?_toList,
    getElem?_eq_getElem hlt, hlevels.1]
  rfl

/-! ## Where the reader stands -/

/-- The reader stands at offset `p` in front of `s`, in the given levels. -/
structure At (r : Reader) (levels : List Bool) (expect : Bool) (p : ℕ) (s : List UInt8) : Prop where
  pos : r.pos = p
  rest : r.rest = s
  levels : r.levels = levels
  bound : r.depth ≤ maxDepth
  expectValue : r.expectValue = expect
  done : r.done = false

variable {levels : List Bool} {rest w word raw : List UInt8} {q : Reader}

lemma At.depth_eq (h : r.At levels expect p s) : r.depth = levels.length := by
  rw [← h.levels, length_levels h.bound]

lemma At.advance {t : List UInt8} (h : r.At levels expect p (t ++ rest)) :
    (r.advance t.length).At levels expect (p + t.length) rest where
  pos := congrArg (· + t.length) h.pos
  rest := by rw [Reader.advance, h.rest, drop_left]
  levels := h.levels
  bound := h.bound
  expectValue := h.expectValue
  done := h.done

lemma At.skipWs (h : r.At levels expect p (w ++ rest)) (hw : Ws w)
    (hrest : ∀ b ∈ rest.head?, isWs b = false) :
    r.skipWs.At levels expect (p + w.length) rest := by
  have htake : r.rest.takeWhile isWs = w := by
    rw [h.rest, takeWhile_ws_append hw]
    cases rest with
    | nil => exact append_nil w
    | cons b rest =>
      rw [takeWhile_cons_of_neg (by rw [hrest b rfl]; exact Bool.false_ne_true), append_nil]
  rw [Reader.skipWs, htake]
  exact h.advance

lemma At.exists_skipWs (h : r.At levels expect p s) :
    ∃ w rest, s = w ++ rest ∧ Ws w ∧ (∀ b ∈ rest.head?, isWs b = false) ∧
      r.skipWs.At levels expect (p + w.length) rest := by
  have hsplit : s = s.takeWhile isWs ++ s.dropWhile isWs := takeWhile_append_dropWhile.symm
  have hhead : ∀ b ∈ (s.dropWhile isWs).head?, isWs b = false := by
    intro b hb
    have hnot := head?_dropWhile_not isWs s
    rw [Option.mem_def.mp hb] at hnot
    exact Bool.eq_false_iff.mpr (by simpa using hnot)
  rw [hsplit] at h
  exact ⟨_, _, hsplit, ws_takeWhile s, hhead, h.skipWs (ws_takeWhile s) hhead⟩

lemma At.setSeen (h : r.At levels expect p s) (lvl : ℕ) (b : Bool) :
    (r.setSeen lvl b).At levels expect p s :=
  ⟨h.pos, h.rest, h.levels, h.bound, h.expectValue, h.done⟩

lemma At.push (h : r.At levels expect p (opener obj :: rest)) (hdepth : r.depth < maxDepth) :
    (r.push obj).At (obj :: levels) expect (p + 1) rest where
  pos := congrArg (· + 1) h.pos
  rest := by
    rw [Reader.push, Reader.advance]
    rw [h.rest, drop_one, tail_cons]
  levels := by rw [levels_push hdepth, h.levels]
  bound := hdepth
  expectValue := h.expectValue
  done := h.done

lemma getD_setIfInBounds {lvl : ℕ} (h : lvl < maxDepth) (bits : Vector Bool maxDepth) (b : Bool) :
    (bits.setIfInBounds lvl b).getD lvl false = b := by
  rw [Vector.getD, Array.getD_eq_getD_getElem?, Vector.getElem?_toArray,
    Vector.getElem?_setIfInBounds_self_of_lt h]
  rfl

lemma seenTop_push (hdepth : r.depth < maxDepth) (obj : Bool) : (r.push obj).seenTop = false :=
  getD_setIfInBounds hdepth r.seen false

/-! ## Complete values -/

def complete (r : Reader) : Except Err Reader :=
  if r.depth = 0 then r.endDocument else .ok (r.setSeen (r.depth - 1) true)

/-- The reader has read a complete value: it is done if that was the document, and otherwise stands
behind it in a level that is no longer empty. -/
def After (r : Reader) (levels : List Bool) (p : ℕ) (s : List UInt8) : Prop :=
  if levels = [] then r.done = true ∧ Ws s else r.At levels false p s ∧ r.seenTop = true

lemma complete_sound (h : r.At levels false p s) (hok : r.complete = .ok r') :
    r'.After levels p s := by
  unfold complete at hok
  unfold After
  cases levels with
  | nil =>
    have hdepth : r.depth = 0 := h.depth_eq
    rw [endDocument] at hok
    split_ifs at hok with hend
    cases hok
    obtain ⟨w, rest, rfl, hw, -, hat⟩ := h.exists_skipWs
    rw [hat.rest] at hend
    rw [hend, append_nil]
    exact ⟨rfl, hw⟩
  | cons obj below =>
    have hdepth := h.depth_eq
    rw [length_cons] at hdepth
    rw [if_neg (by omega)] at hok
    cases hok
    have hbound := h.bound
    exact ⟨h.setSeen _ _, getD_setIfInBounds (by omega) r.seen true⟩

lemma complete_complete (h : r.At levels false p s) (hws : levels = [] → Ws s) :
    ∃ r', r.complete = .ok r' ∧ r'.After levels p s := by
  suffices hok : ∃ r', r.complete = .ok r' by
    obtain ⟨r', hok⟩ := hok
    exact ⟨r', hok, complete_sound h hok⟩
  unfold complete
  split_ifs with hdepth
  · have hnil : levels = [] := eq_nil_of_length_eq_zero (h.depth_eq ▸ hdepth)
    have hend : r.At levels false p (s ++ []) := by rwa [append_nil]
    have hat := hend.skipWs (hws hnil) nofun
    rw [endDocument, if_pos hat.rest]
    exact ⟨_, rfl⟩
  · exact ⟨_, rfl⟩

/-- `read_value`, and what follows if the value is complete. -/
def value (r : Reader) : Except Err (Event × Reader) :=
  match r.readValue with
  | .error e => .error e
  | .ok (ev, r') => if ev.isBegin then .ok (ev, r') else r'.complete.map fun r' => (ev, r')

/-! ## `read_value` -/

lemma lit_sound (h : r.lit word = .ok r') : word <+: r.rest ∧ r' = r.advance word.length := by
  unfold lit at h
  split_ifs at h with hpre
  cases h
  exact ⟨ isPrefixOf_iff_prefix.mp hpre, rfl⟩

lemma lit_complete (h : r.rest = word ++ rest) : r.lit word = .ok (r.advance word.length) := by
  rw [lit, if_pos]
  rw [h]
  exact isPrefixOf_iff_prefix.mpr (prefix_append word rest)

/-- A value that is neither an array nor an object, with its text and its event. -/
structure Scalar (p : ℕ) (v : Value) (t : List UInt8) (ev : Event) : Prop where
  derives : Derives p (.value v) t
  depth : v.depth = 0
  events : eventsOf v = [ev]
  isBegin : ev.isBegin = false

lemma lit_cases {ev' : Event} {v : Value}
    (h : ((r.lit word).map fun r => (ev', r)) = .ok (ev, r')) (hv : Scalar r.pos v word ev') :
    ∃ v t, Scalar r.pos v t ev ∧ t <+: r.rest ∧ r' = r.advance t.length := by
  obtain ⟨r1, hlit, ⟨⟩⟩ := map_eq_ok h
  obtain ⟨hpre, hr⟩ := lit_sound hlit
  exact ⟨v, word, hv, hpre, hr⟩

/-- What `read_value` reads: it opens a level, or it reads a scalar. -/
theorem readValue_cases (h : r.readValue = .ok (ev, r')) :
    (∃ obj rest, r.rest = opener obj :: rest ∧ r.depth < maxDepth ∧ ev = beginEvent obj ∧
      r' = r.push obj) ∨
    ∃ v t, Scalar r.pos v t ev ∧ t <+: r.rest ∧ r' = r.advance t.length := by
  unfold readValue at h
  split at h
  · cases h
  next c rest hrest =>
  split_ifs at h with hopen hdepth hobj hquote htrue hfalse hnull
  · cases h
    exact .inl ⟨true, rest, by rw [hrest, hobj]; rfl, by omega, rfl, rfl⟩
  · cases h
    have hc : c = beginArray := hopen.resolve_left hobj
    exact .inl ⟨false, rest, by rw [hrest, hc]; rfl, by omega, rfl, rfl⟩
  · right
    obtain ⟨x, hs, ⟨⟩⟩ := map_eq_ok h
    obtain ⟨raw, hraw, hpre, hx, hr⟩ := scanString_sound hs
    exact ⟨_, _, ⟨.string hraw, rfl, by rw [hx]; rfl, rfl⟩, hpre, hr⟩
  · exact .inr (lit_cases h ⟨.true, rfl, rfl, rfl⟩)
  · exact .inr (lit_cases h ⟨.false, rfl, rfl, rfl⟩)
  · exact .inr (lit_cases h ⟨.null, rfl, rfl, rfl⟩)
  · right
    obtain ⟨x, hn, ⟨⟩⟩ := map_eq_ok h
    obtain ⟨n, hpre, hk, hnum⟩ := scanNumber_sound hn
    refine ⟨_, n.text, ⟨.number n, rfl, ?_, rfl⟩, hpre, by rw [hk]⟩
    rw [eventsOf, hnum]

lemma readValue_open (h : r.rest = opener obj :: rest) (hdepth : r.depth < maxDepth) :
    r.readValue = .ok (beginEvent obj, r.push obj) := by
  unfold readValue
  rw [h]
  cases obj with
  | true =>
    dsimp only
    rw [if_pos (.inl rfl), if_neg (by omega)]
    rfl
  | false =>
    dsimp only
    rw [if_pos (.inr rfl), if_neg (by omega)]
    rfl

lemma readValue_string (hraw : raw ∈ chars) (h : r.rest = quoted raw ++ rest) :
    r.readValue = .ok (.string ⟨r.pos + 1, raw⟩, r.advance (quoted raw).length) := by
  have hs := scanString_complete hraw h
  unfold readValue
  rw [hs, h, quoted, cons_append]
  dsimp only
  rfl

lemma readValue_true (h : r.rest = ascii "true" ++ rest) :
    r.readValue = .ok (.bool true, r.advance 4) := by
  have hl := lit_complete h
  unfold readValue
  rw [hl, h]
  rfl

lemma readValue_false (h : r.rest = ascii "false" ++ rest) :
    r.readValue = .ok (.bool false, r.advance 5) := by
  have hl := lit_complete h
  unfold readValue
  rw [hl, h]
  rfl

lemma readValue_null (h : r.rest = ascii "null" ++ rest) :
    r.readValue = .ok (.null, r.advance 4) := by
  have hl := lit_complete h
  unfold readValue
  rw [hl, h]
  rfl

lemma head_text (n : Number) : ∃ c t, n.text = c :: t ∧ (c = 0x2d ∨ isDigit c = true) := by
  cases hminus : n.minus with
  | true => exact ⟨0x2d, _, by rw [Number.text, hminus]; rfl, .inl rfl⟩
  | false =>
    obtain ⟨c, ds, hc, hdigit⟩ := int_eq_cons n
    exact ⟨c, _, by rw [Number.text, hminus, hc]; rfl, .inr hdigit⟩

lemma readValue_number (n : Number) (h : r.rest = n.text ++ rest) (hfollow : Follow rest) :
    r.readValue = .ok (.number (reported n), r.advance n.text.length) := by
  have hn := scanNumber_complete n hfollow
  obtain ⟨c, t, hc, hfirst⟩ := head_text n
  have hother : ∀ b : UInt8, b ≠ 0x2d → isDigit b = false → c ≠ b := by
    rintro b hsign hdigit rfl
    rcases hfirst with rfl | hfirst
    · exact hsign rfl
    · exact absurd hfirst (by rw [hdigit]; exact Bool.false_ne_true)
  unfold readValue
  rw [h, hn, hc, cons_append]
  dsimp only
  rw [if_neg (not_or.mpr ⟨hother _ (by decide) (by decide), hother _ (by decide) (by decide)⟩),
    if_neg (hother _ (by decide) (by decide)), if_neg (hother _ (by decide) (by decide)),
    if_neg (hother _ (by decide) (by decide)), if_neg (hother _ (by decide) (by decide))]
  rfl

/-! ## Entries -/

lemma element_eq_value (h : r.At (obj :: below) expect p s) :
    r.element (r.depth - 1) = r.value := by
  have hdepth := h.depth_eq
  rw [length_cons] at hdepth
  unfold element value
  cases hread : r.readValue with
  | error e => rfl
  | ok x =>
    obtain ⟨ev, r'⟩ := x
    dsimp only [Except.map]
    split_ifs with hbegin
    · rfl
    rcases readValue_cases hread with ⟨obj', rest, -, -, rfl, -⟩ | ⟨v, t, -, -, rfl⟩
    · cases obj' <;> exact absurd rfl hbegin
    have hne : ¬(r.advance t.length).depth = 0 := by
      change ¬r.depth = 0
      omega
    rw [complete, if_neg hne]
    rfl

def entry (r : Reader) (obj : Bool) : Except Err (Event × Reader) :=
  if obj then r.memberName else r.value

lemma memberName_cases (h : r.At levels false p s) (hok : r.memberName = .ok (ev, r')) :
    ∃ raw w rest, raw ∈ chars ∧ s = quoted raw ++ (w ++ nameSeparator :: rest) ∧ Ws w ∧
      ev = .key ⟨p + 1, raw⟩ ∧ r'.At levels true (p + (quoted raw).length + w.length + 1) rest := by
  unfold memberName at hok
  split at hok
  · cases hok
  next name r1 hname =>
  obtain ⟨raw, hraw, ⟨tail, htail⟩, rfl, rfl⟩ := scanString_sound hname
  have hat : (r.advance (quoted raw).length).At levels false (p + (quoted raw).length) tail := by
    refine At.advance ?_
    rw [htail, h.rest]
    exact h
  obtain ⟨w, rest, rfl, hw, -, hskip⟩ := hat.exists_skipWs
  dsimp only at hok
  split at hok
  · cases hok
  next c rest' hrest =>
  split_ifs at hok with hcolon
  cases hok
  rw [hskip.rest] at hrest
  subst hrest hcolon
  refine ⟨raw, w, rest', hraw, by rw [← h.rest, htail], hw, by rw [h.pos], ?_⟩
  have hbehind := At.advance (t := [nameSeparator]) hskip
  exact ⟨hbehind.pos, hbehind.rest, hbehind.levels, hbehind.bound, rfl, hbehind.done⟩

lemma memberName_complete (hraw : raw ∈ chars) (hw : Ws w)
    (h : r.At levels false p (quoted raw ++ (w ++ nameSeparator :: rest))) :
    ∃ r', r.memberName = .ok (.key ⟨p + 1, raw⟩, r') ∧
      r'.At levels true (p + (quoted raw).length + w.length + 1) rest := by
  have hskip := h.advance.skipWs hw fun b hb => by
    cases hb
    decide
  have hbehind := At.advance (t := [nameSeparator]) hskip
  refine ⟨{ (r.advance (quoted raw).length).skipWs.advance 1 with expectValue := true }, ?_,
    ⟨hbehind.pos, hbehind.rest, hbehind.levels, hbehind.bound, rfl, hbehind.done⟩⟩
  rw [memberName, scanString_complete hraw h.rest, h.pos]
  dsimp only
  rw [hskip.rest]
  dsimp only
  rw [if_pos rfl]

/-! ## Calls -/

lemma next_top (h : r.At [] false p (w ++ rest)) (hw : Ws w)
    (hhead : ∀ b ∈ rest.head?, isWs b = false) (hseen : r.seen.get ⟨0, by decide⟩ = false) :
    ∃ q : Reader, q.At [] false (p + w.length) rest ∧ r.next = q.value := by
  refine ⟨r.skipWs.setSeen 0 true, (h.skipWs hw hhead).setSeen 0 true, ?_⟩
  have hdepth : r.depth = 0 := h.depth_eq
  have hseen' : ¬r.skipWs.seen.get ⟨0, by decide⟩ = true := by
    change ¬r.seen.get ⟨0, by decide⟩ = true
    rw [hseen]
    exact Bool.false_ne_true
  rw [next, if_neg (by rw [h.done]; exact Bool.false_ne_true), if_pos hdepth, nextTop,
    if_neg hseen', value]
  cases hread : (r.skipWs.setSeen 0 true).readValue with
  | error e => rfl
  | ok x =>
    obtain ⟨ev, r'⟩ := x
    dsimp only
    -- A level has been opened exactly if the event says so.
    rcases readValue_cases hread with ⟨obj', rest, -, -, rfl, rfl⟩ | ⟨v, t, hv, -, rfl⟩
    · have hbegin : (beginEvent obj').isBegin = true := by cases obj' <;> rfl
      have hopen : ¬((r.skipWs.setSeen 0 true).push obj').depth = 0 := Nat.succ_ne_zero _
      rw [if_pos hbegin, if_neg hopen]
    · have hzero : ((r.skipWs.setSeen 0 true).advance t.length).depth = 0 := hdepth
      have hbegin : ¬ev.isBegin = true := by
        rw [hv.isBegin]
        exact Bool.false_ne_true
      rw [if_pos hzero, if_neg hbegin, complete, if_pos hzero]

/-- What a call reads inside a level, of which `seen` tells whether it has had an entry: the end of
the level, the value of a member, the first entry, or a comma and one more entry, each behind white
space. -/
inductive Call (obj : Bool) (below : List Bool) (expect seen : Bool) (p : ℕ) (s : List UInt8)
    (ev : Event) (r' : Reader) : Prop
  | close {w rest : List UInt8} {q : Reader} (hw : Ws w) (hs : s = w ++ closer obj :: rest)
      (hexpect : expect = false) (hev : ev = endEvent obj)
      (hat : q.At below false (p + w.length + 1) rest) (hok : q.complete = .ok r')
  | member {w rest : List UInt8} {q : Reader} (hw : Ws w) (hs : s = w ++ rest)
      (hexpect : expect = true) (hat : q.At (obj :: below) false (p + w.length) rest)
      (hok : q.value = .ok (ev, r'))
  | first {w rest : List UInt8} {q : Reader} (hw : Ws w) (hs : s = w ++ rest)
      (hexpect : expect = false) (hseen : seen = false)
      (hat : q.At (obj :: below) false (p + w.length) rest) (hok : q.entry obj = .ok (ev, r'))
  | more {w w' rest : List UInt8} {q : Reader} (hw : Ws w) (hw' : Ws w')
      (hs : s = w ++ valueSeparator :: (w' ++ rest)) (hexpect : expect = false)
      (hseen : seen = true) (hat : q.At (obj :: below) false (p + w.length + 1 + w'.length) rest)
      (hok : q.entry obj = .ok (ev, r'))

lemma At.expectFalse (h : r.At levels expect p s) :
    ({ r with expectValue := false } : Reader).At levels false p s :=
  ⟨h.pos, h.rest, h.levels, h.bound, rfl, h.done⟩

lemma At.popped {b : UInt8} (h : r.At (obj :: below) expect p (b :: rest)) :
    ({ r.advance 1 with depth := r.depth - 1 } : Reader).At below expect (p + 1) rest := by
  have hadv := At.advance (t := [b]) h
  exact ⟨hadv.pos, hadv.rest, (levels_eq_cons h.levels h.bound).2,
    le_trans (Nat.sub_le _ _) h.bound, hadv.expectValue, hadv.done⟩

lemma next_eq_nextIn (h : r.At (obj :: below) expect p s) :
    r.next = r.skipWs.nextIn (r.depth - 1) := by
  have hdepth := h.depth_eq
  rw [length_cons] at hdepth
  rw [next, if_neg (by rw [h.done]; exact Bool.false_ne_true), if_neg (by omega)]

lemma entry_eq (h : q.At (obj :: below) expect p s) (hdepth : q.depth = r.depth) :
    (if obj then q.memberName else q.element (r.depth - 1)) = q.entry obj := by
  rw [entry, ← hdepth, element_eq_value h]

lemma comma_cases {seen : Bool} (h : r.At levels expect p s) (hok : r.comma obj seen = .ok q) :
    seen = false ∧ q = r ∨ seen = true ∧ ∃ w rest, s = valueSeparator :: (w ++ rest) ∧ Ws w ∧
      q.At levels expect (p + 1 + w.length) rest := by
  unfold comma at hok
  cases seen with
  | false =>
    cases hok
    exact .inl ⟨rfl, rfl⟩
  | true =>
    rw [if_pos rfl] at hok
    dsimp only at hok
    split_ifs at hok with hcomma hend hclose
    cases hok
    rw [not_not, h.rest] at hcomma
    obtain ⟨tail, rfl⟩ := head?_eq_some_iff.mp hcomma
    have hadv := At.advance (t := [valueSeparator]) h
    obtain ⟨w, rest, rfl, hw, -, hat⟩ := hadv.exists_skipWs
    exact .inr ⟨rfl, w, rest, rfl, hw, hat⟩

lemma pop_eq (r : Reader) (obj : Bool) :
    r.pop obj = ({ r.advance 1 with depth := r.depth - 1 } : Reader).complete.map
      fun r' => (endEvent obj, r') := by
  unfold pop complete
  by_cases hzero : r.depth - 1 = 0
  · rw [if_pos hzero, if_pos hzero]
    rfl
  · rw [if_neg hzero, if_neg hzero]
    rfl

/-- What a call inside a level that succeeds has read. -/
theorem next_cases (h : r.At (obj :: below) expect p s) (hok : r.next = .ok (ev, r')) :
    Call obj below expect r.seenTop p s ev r' := by
  obtain ⟨w, rest, hs, hw, -, hskip⟩ := h.exists_skipWs
  have hobj := (levels_eq_cons hskip.levels hskip.bound).1
  have hlvl : r.skipWs.depth = r.depth := rfl
  rw [hlvl] at hobj
  rw [next_eq_nextIn h, nextIn, hobj] at hok
  by_cases hend : r.skipWs.rest = []
  · rw [if_pos hend] at hok
    cases hok
  rw [if_neg hend] at hok
  by_cases hclose : r.skipWs.rest.head? = some (closer obj)
  · rw [if_pos hclose, hskip.expectValue] at hok
    rw [hskip.rest] at hclose
    obtain ⟨rest', rfl⟩ := head?_eq_some_iff.mp hclose
    split_ifs at hok with hexpect
    rw [Bool.not_eq_true] at hexpect
    subst hexpect
    have hat := hskip.popped
    rw [pop_eq] at hok
    generalize ({ r.skipWs.advance 1 with depth := r.skipWs.depth - 1 } : Reader) = q at hok hat
    obtain ⟨q', hcomplete, ⟨⟩⟩ := map_eq_ok hok
    exact .close hw hs rfl rfl hat hcomplete
  rw [if_neg hclose] at hok
  by_cases hexpect : r.skipWs.expectValue = true
  · rw [if_pos hexpect] at hok
    rw [hskip.expectValue] at hexpect
    have hat := hskip.expectFalse
    exact .member hw hs hexpect hat (element_eq_value hat ▸ hok)
  rw [if_neg hexpect] at hok
  rw [hskip.expectValue, Bool.not_eq_true] at hexpect
  subst hexpect
  split at hok
  · cases hok
  next q hcomma =>
  have hseen : r.skipWs.seen.getD (r.depth - 1) false = r.seenTop := rfl
  rcases comma_cases hskip hcomma with ⟨hno, rfl⟩ | ⟨hyes, w', rest', rfl, hw', hat⟩
  · rw [entry_eq hskip hlvl] at hok
    exact .first hw hs rfl (hseen ▸ hno) hskip hok
  · have hdepth : q.depth = r.depth := by rw [hat.depth_eq, h.depth_eq]
    rw [entry_eq hat hdepth] at hok
    exact .more hw hw' hs rfl (hseen ▸ hyes) hat hok

/-! ## Calls on a text that is there -/

/-- An entry can begin with this text: not with white space, and not with the end of a level. -/
def Start (s : List UInt8) : Prop :=
  ∃ c t, s = c :: t ∧ isWs c = false ∧ c ≠ endArray ∧ c ≠ endObject

lemma Start.append (h : Start s) (rest : List UInt8) : Start (s ++ rest) := by
  obtain ⟨c, t, rfl, hc⟩ := h
  exact ⟨c, t ++ rest, rfl, hc⟩

lemma Start.notWs (h : Start s) : ∀ b ∈ s.head?, isWs b = false := by
  obtain ⟨c, t, rfl, hc, -⟩ := h
  intro b hb
  cases hb
  exact hc

lemma Start.notCloser (h : Start s) (obj : Bool) : s.head? ≠ some (closer obj) := by
  obtain ⟨c, t, rfl, -, harray, hobject⟩ := h
  intro heq
  cases obj with
  | true => exact hobject (Option.some.inj heq)
  | false => exact harray (Option.some.inj heq)

lemma Start.ne_nil (h : Start s) : s ≠ [] := by
  obtain ⟨c, t, rfl, -⟩ := h
  exact cons_ne_nil c t

lemma next_close (h : r.At (obj :: below) false p (w ++ closer obj :: rest)) (hw : Ws w)
    (hws : below = [] → Ws rest) :
    ∃ r', r.next = .ok (endEvent obj, r') ∧ r'.After below (p + w.length + 1) rest := by
  have hcloser : isWs (closer obj) = false := by cases obj <;> rfl
  have hskip := h.skipWs hw fun b hb => by
    cases hb
    exact hcloser
  have hobj := (levels_eq_cons hskip.levels hskip.bound).1
  obtain ⟨r', hok, hafter⟩ := complete_complete hskip.popped hws
  refine ⟨r', ?_, hafter⟩
  have hexpect : ¬r.skipWs.expectValue = true := by
    rw [hskip.expectValue]
    exact Bool.false_ne_true
  rw [next_eq_nextIn h, nextIn, show r.depth - 1 = r.skipWs.depth - 1 from rfl, hobj,
    if_neg (by rw [hskip.rest]; exact cons_ne_nil _ _), if_pos (by rw [hskip.rest]; rfl),
    if_neg hexpect, pop_eq, hok]
  rfl

lemma next_member (h : r.At (obj :: below) true p (w ++ rest)) (hw : Ws w) (hstart : Start rest) :
    ∃ q : Reader, q.At (obj :: below) false (p + w.length) rest ∧ r.next = q.value := by
  have hskip := h.skipWs hw hstart.notWs
  have hobj := (levels_eq_cons hskip.levels hskip.bound).1
  refine ⟨_, hskip.expectFalse, ?_⟩
  rw [← element_eq_value hskip.expectFalse, next_eq_nextIn h, nextIn,
    show r.depth - 1 = r.skipWs.depth - 1 from rfl, hobj,
    if_neg (by rw [hskip.rest]; exact hstart.ne_nil),
    if_neg (by rw [hskip.rest]; exact hstart.notCloser obj), if_pos hskip.expectValue]

lemma next_entry {p' p'' : ℕ} {s' : List UInt8} (h : r.At (obj :: below) false p s)
    (hskip : r.skipWs.At (obj :: below) false p' rest) (hend : rest ≠ [])
    (hclose : rest.head? ≠ some (closer obj)) (hcomma : r.skipWs.comma obj r.seenTop = .ok q)
    (hq : q.At (obj :: below) false p'' s') :
    r.next = q.entry obj := by
  have hobj := (levels_eq_cons hskip.levels hskip.bound).1
  have hexpect : ¬r.skipWs.expectValue = true := by
    rw [hskip.expectValue]
    exact Bool.false_ne_true
  have hdepth : q.depth = r.depth := by rw [hq.depth_eq, h.depth_eq]
  have hseen : r.skipWs.seen.getD (r.skipWs.depth - 1) false = r.seenTop := rfl
  rw [← entry_eq hq hdepth, next_eq_nextIn h, nextIn,
    show r.depth - 1 = r.skipWs.depth - 1 from rfl, hobj, hseen,
    if_neg (by rw [hskip.rest]; exact hend), if_neg (by rw [hskip.rest]; exact hclose),
    if_neg hexpect, hcomma]

lemma next_first (h : r.At (obj :: below) false p (w ++ rest)) (hw : Ws w)
    (hseen : r.seenTop = false) (hstart : Start rest) :
    ∃ q : Reader, q.At (obj :: below) false (p + w.length) rest ∧ r.next = q.entry obj := by
  have hskip := h.skipWs hw hstart.notWs
  refine ⟨r.skipWs, hskip, next_entry h hskip hstart.ne_nil (hstart.notCloser obj) ?_ hskip⟩
  rw [hseen]
  rfl

lemma next_more {w' : List UInt8}
    (h : r.At (obj :: below) false p (w ++ valueSeparator :: (w' ++ rest))) (hw : Ws w)
    (hw' : Ws w') (hseen : r.seenTop = true) (hstart : Start rest) :
    ∃ q : Reader, q.At (obj :: below) false (p + w.length + 1 + w'.length) rest ∧
      r.next = q.entry obj := by
  have hskip := h.skipWs hw fun b hb => by
    cases hb
    decide
  have hat := (At.advance (t := [valueSeparator]) hskip).skipWs hw' hstart.notWs
  have hcloser : (valueSeparator :: (w' ++ rest)).head? ≠ some (closer obj) := by
    cases obj <;> exact fun heq => absurd (Option.some.inj heq) (by decide)
  refine ⟨_, hat, next_entry h hskip (cons_ne_nil _ _) hcloser ?_ hat⟩
  have hcomma : r.skipWs.rest.head? = some valueSeparator := by rw [hskip.rest]; rfl
  have hrest : (r.skipWs.advance 1).skipWs.rest = rest := hat.rest
  rw [hseen, comma, if_neg (not_not.mpr hcomma)]
  dsimp only
  rw [hrest, if_neg hstart.ne_nil, if_neg (hstart.notCloser obj)]
  rfl

end Reader

end Json
