import Tailcat.Json.Steps

/-!
# What the reader reads is JSON

Where repeated calls of `tc_json_next` reach the end without an error, the text is a document. The
induction is on the number of events: what the reader has read of a level is kept as a derivation that
the rest of the level completes.

## Main results

* `valueSound`: values and the rests of levels are read soundly.
-/

namespace Json

open Rfc8259 Reader List

/-! ## Runs -/

/-- The calls give these events and then the end. -/
inductive Ends : Reader → List Event → Prop
  | finish {r r' : Reader} (h : r.next = .ok (.finish, r')) : Ends r []
  | event {r r' : Reader} {ev : Event} {evs : List Event} (h : r.next = .ok (ev, r'))
      (hev : ev ≠ .finish) (hrest : Ends r' evs) : Ends r (ev :: evs)

/-- The calls give these events and lead from one reader to another. -/
inductive Steps : Reader → List Event → Reader → Prop
  | refl (r : Reader) : Steps r [] r
  | step {r r1 r2 : Reader} {ev : Event} {evs : List Event} (h : r.next = .ok (ev, r1))
      (hev : ev ≠ .finish) (hrest : Steps r1 evs r2) : Steps r (ev :: evs) r2

variable {r : Reader} {evs evs' : List Event} {expect : Bool} {n : ℕ}

lemma Steps.trans {r1 r2 : Reader} (h : Steps r evs r1) (h' : Steps r1 evs' r2) :
    Steps r (evs ++ evs') r2 := by
  induction h with
  | refl r => exact h'
  | step hnext hev _ ih => exact .step hnext hev (ih h')

lemma Steps.ends {r' : Reader} (h : Steps r evs r') (h' : Ends r' evs') : Ends r (evs ++ evs') := by
  induction h with
  | refl r => exact h'
  | step hnext hev _ ih => exact .event hnext hev (ih h')

lemma exists_events_iff : (∃ n, r.events n = some evs) ↔ Ends r evs := by
  constructor
  · rintro ⟨n, h⟩
    induction n generalizing r evs with
    | zero => cases h
    | succ n ih =>
      rw [events] at h
      split at h
      · cases h
      next ev r' hnext =>
      split_ifs at h with hev
      · cases h
        exact .finish (hev ▸ hnext)
      · obtain ⟨evs', hevs', rfl⟩ := Option.map_eq_some_iff.mp h
        exact .event hnext hev (ih hevs')
  · intro h
    induction h with
    | finish hnext =>
      refine ⟨1, ?_⟩
      rw [events, hnext]
      rfl
    | event hnext hev _ ih =>
      obtain ⟨n, hn⟩ := ih
      refine ⟨n + 1, ?_⟩
      rw [events, hnext]
      dsimp only
      rw [if_neg hev, hn]
      rfl

/-! ## Values, one call -/

variable {r r' q : Reader} {levels below : List Bool} {obj : Bool} {p : ℕ} {s : List UInt8}
  {ev : Event} {evs : List Event}

lemma eventsOf_ne_nil (v : Value) : eventsOf v ≠ [] := by
  cases v <;> rw [eventsOf] <;> exact cons_ne_nil _ _

lemma value_cases (h : q.At levels false p s) (hok : q.value = .ok (ev, r')) :
    (∃ obj rest, s = opener obj :: rest ∧ levels.length < maxDepth ∧ ev = beginEvent obj ∧
      r'.At (obj :: levels) false (p + 1) rest ∧ r'.seenTop = false) ∨
    ∃ v t rest, Scalar p v t ev ∧ s = t ++ rest ∧ r'.After levels (p + t.length) rest := by
  unfold Reader.value at hok
  split at hok
  · cases hok
  next ev' q' hread =>
  rcases readValue_cases hread with ⟨obj, rest, hrest, hdepth, rfl, rfl⟩ | ⟨v, t, hv, hpre, rfl⟩
  · have hbegin : (beginEvent obj).isBegin = true := by cases obj <;> rfl
    rw [if_pos hbegin] at hok
    cases hok
    rw [h.rest] at hrest
    subst hrest
    exact .inl ⟨obj, rest, rfl, h.depth_eq ▸ hdepth, rfl, h.push hdepth, seenTop_push hdepth obj⟩
  · have hbegin : ¬ev'.isBegin = true := by
      rw [hv.isBegin]
      exact Bool.false_ne_true
    obtain ⟨rest, hrest⟩ := hpre
    rw [h.rest] at hrest
    subst hrest
    rw [if_neg hbegin] at hok
    obtain ⟨q1, hcomplete, ⟨⟩⟩ := map_eq_ok hok
    rw [h.pos] at hv
    exact .inr ⟨v, t, rest, hv, rfl, complete_sound h.advance hcomplete⟩

lemma ends_of_done (h : r.done = true) (hends : Ends r evs) : evs = [] := by
  have hnext : r.next = .ok (.finish, r) := by rw [Reader.next, if_pos h]
  cases hends with
  | finish _ => rfl
  | event h hev _ =>
    rw [hnext] at h
    cases h
    exact absurd rfl hev

/-! ## Levels -/

/-- The entry of a level: a member of an object, or a value of an array, which has no name. -/
def entryPhrase (obj : Bool) (m : Literal × Value) : Phrase := if obj then .member m else .value m.2

def entriesPhrase (obj : Bool) (ms : List (Literal × Value)) : Phrase :=
  if obj then .members ms else .items (ms.map Prod.snd)

/-- The value that a level with these entries is. -/
def levelValue (obj : Bool) (ms : List (Literal × Value)) : Value :=
  if obj then .object ms else .array (ms.map Prod.snd)

def eventsOfEntry (obj : Bool) (m : Literal × Value) : List Event :=
  if obj then .key m.1 :: eventsOf m.2 else eventsOf m.2

def eventsOfEntries (obj : Bool) (ms : List (Literal × Value)) : List Event :=
  ms.flatMap (eventsOfEntry obj)

variable {m : Literal × Value} {ms : List (Literal × Value)} {t u a b c : List UInt8}

lemma derives_last (h : Derives p (entryPhrase obj m) t) : Derives p (entriesPhrase obj [m]) t := by
  cases obj with
  | false => exact .lastItem h
  | true => exact .lastMember h

lemma derives_more (h : Derives p (entryPhrase obj m) t) (hc : Structural valueSeparator c)
    (hu : Derives (p + t.length + c.length) (entriesPhrase obj ms) u) :
    Derives p (entriesPhrase obj (m :: ms)) (t ++ (c ++ u)) := by
  cases obj with
  | false => exact .moreItems h hc hu
  | true => exact .moreMembers h hc hu

lemma derives_level (ha : Structural (opener obj) a)
    (ht : Derives (p + a.length) (entriesPhrase obj ms) t) (hb : Structural (closer obj) b) :
    Derives p (.value (levelValue obj ms)) (a ++ (t ++ b)) := by
  cases obj with
  | false => exact .array ha ht hb
  | true => exact .object ha ht hb

lemma derives_empty (ha : Structural (opener obj) a) (hb : Structural (closer obj) b) :
    Derives p (.value (levelValue obj [])) (a ++ b) := by
  cases obj with
  | false => exact .emptyArray ha hb
  | true => exact .emptyObject ha hb

lemma depth_levelValue (obj : Bool) (ms : List (Literal × Value)) :
    (levelValue obj ms).depth = depthMembers ms + 1 := by
  have hitems : depthItems (ms.map Prod.snd) = depthMembers ms := by
    induction ms with
    | nil => rw [map_nil, depthItems, depthMembers]
    | cons m ms ih => rw [map_cons, depthItems, depthMembers, ih]
  cases obj with
  | false =>
    change (Value.array _).depth = _
    rw [Value.depth, hitems]
  | true =>
    change (Value.object _).depth = _
    rw [Value.depth]

lemma eventsOf_levelValue (obj : Bool) (ms : List (Literal × Value)) :
    eventsOf (levelValue obj ms) = beginEvent obj :: (eventsOfEntries obj ms ++ [endEvent obj]) := by
  cases obj with
  | false =>
    have hitems : eventsOfItems (ms.map Prod.snd) = eventsOfEntries false ms := by
      induction ms with
      | nil => rfl
      | cons m ms ih => exact congrArg (eventsOf m.2 ++ ·) ih
    rw [← hitems]
    rfl
  | true =>
    have hmembers : eventsOfMembers ms = eventsOfEntries true ms := by
      induction ms with
      | nil => rfl
      | cons m ms ih => exact congrArg (eventsOfEntry true m ++ ·) ih
    rw [← hmembers]
    rfl

/-! ## Soundness -/

/-- What the rest of a level reads like, behind an entry. -/
def LevelRest (obj : Bool) (below : List Bool) (p : ℕ) (s : List UInt8) (evs : List Event) : Prop :=
  ∃ ms u w rest evs' r', s = u ++ (w ++ closer obj :: rest) ∧ Ws w ∧
    (∀ p0 m0 t0, Derives p0 (entryPhrase obj m0) t0 → p0 + t0.length = p →
      Derives p0 (entriesPhrase obj (m0 :: ms)) (t0 ++ u)) ∧
    depthMembers ms + (below.length + 1) ≤ maxDepth ∧
    evs = eventsOfEntries obj ms ++ endEvent obj :: evs' ∧
    After r' below (p + u.length + w.length + 1) rest ∧ Ends r' evs'

def ValueRead (levels : List Bool) (p : ℕ) (s : List UInt8) (evs : List Event) : Prop :=
  ∃ v t rest evs' r', s = t ++ rest ∧ Derives p (.value v) t ∧
    v.depth + levels.length ≤ maxDepth ∧ evs = eventsOf v ++ evs' ∧
    After r' levels (p + t.length) rest ∧ Ends r' evs'

/-- What an entry of a level reads like. -/
def EntryRead (obj : Bool) (below : List Bool) (p : ℕ) (s : List UInt8) (evs : List Event) : Prop :=
  ∃ m t rest evs' r', s = t ++ rest ∧ Derives p (entryPhrase obj m) t ∧
    m.2.depth + (below.length + 1) ≤ maxDepth ∧ evs = eventsOfEntry obj m ++ evs' ∧
    After r' (obj :: below) (p + t.length) rest ∧ Ends r' evs'

/-- Values are read soundly, in runs with fewer than `n` events to come. -/
def ValueSound (n : ℕ) : Prop :=
  ∀ {q r : Reader} {levels : List Bool} {p : ℕ} {s : List UInt8} {ev : Event} {evs : List Event},
    q.At levels false p s → q.value = .ok (ev, r) → Ends r evs → evs.length < n →
      ValueRead levels p s (ev :: evs)

def LevelSound (n : ℕ) : Prop :=
  ∀ {r : Reader} {obj : Bool} {below : List Bool} {p : ℕ} {s : List UInt8} {evs : List Event},
    r.At (obj :: below) false p s → r.seenTop = true → Ends r evs → evs.length < n →
      LevelRest obj below p s evs

lemma value_ne_finish (h : q.At levels false p s) (hok : q.value = .ok (ev, r')) :
    ev ≠ .finish := by
  rintro rfl
  rcases value_cases h hok with ⟨obj, -, -, -, hev, -⟩ | ⟨v, _, _, hv, -, -⟩
  · cases obj <;> cases hev
  · have hevents := hv.events
    cases v <;> rw [eventsOf] at hevents <;> cases hevents

lemma entry_ne_finish (h : q.At levels false p s) (hok : q.entry obj = .ok (ev, r')) :
    ev ≠ .finish := by
  cases obj with
  | false => exact value_ne_finish h hok
  | true =>
    obtain ⟨_, _, _, -, -, -, rfl, -⟩ := memberName_cases h hok
    exact nofun

lemma next_ne_finish (h : r.At (obj :: below) expect p s) (hok : r.next = .ok (ev, r')) :
    ev ≠ .finish := by
  cases next_cases h hok with
  | close _ _ _ hev _ _ =>
    rw [hev]
    cases obj <;> exact nofun
  | member _ _ _ hat hok => exact value_ne_finish hat hok
  | first _ _ _ _ hat hok => exact entry_ne_finish hat hok
  | more _ _ _ _ _ hat hok => exact entry_ne_finish hat hok

lemma ends_inside (h : r.At (obj :: below) expect p s) (hends : Ends r evs) :
    ∃ ev evs' r', evs = ev :: evs' ∧ Call obj below expect r.seenTop p s ev r' ∧ Ends r' evs' := by
  cases hends with
  | finish hok => exact absurd rfl (next_ne_finish h hok)
  | event hok _ hrest => exact ⟨_, _, _, rfl, next_cases h hok, hrest⟩

lemma memberRead (hvalue : ValueSound n) (hat : q.At (true :: below) false p s)
    (hok : q.memberName = .ok (ev, r)) (hends : Ends r evs) (hn : evs.length ≤ n) :
    EntryRead true below p s (ev :: evs) := by
  obtain ⟨raw, w, rest, hraw, rfl, hw, rfl, hat1⟩ := memberName_cases hat hok
  obtain ⟨ev1, evs1, r1, rfl, hcall, hends1⟩ := ends_inside hat1 hends
  rw [length_cons] at hn
  cases hcall with
  | close _ _ hexpect _ _ _ => cases hexpect
  | first _ _ hexpect _ _ _ => cases hexpect
  | more _ _ _ hexpect _ _ _ => cases hexpect
  | @member w' rest' q' hw' hs _ hq hok' =>
    obtain ⟨v, t, rest1, evs2, r2, rfl, hv, hdepth, hevs, hafter, hends2⟩ :=
      hvalue hq hok' hends1 (by omega)
    refine ⟨(⟨p + 1, raw⟩, v), quoted raw ++ (w ++ nameSeparator :: w' ++ t), rest1, evs2, r2, ?_,
      ?_, hdepth, by rw [hevs]; rfl, ?_, hends2⟩
    · rw [hs]
      simp only [append_assoc, cons_append]
    · refine .member hraw (.of_ws_ws hw hw') ?_
      convert hv using 1
      simp only [length_append, length_cons]
      omega
    · convert hafter using 1
      simp only [length_append, length_cons]
      omega

lemma entryRead (hvalue : ValueSound n) (hat : q.At (obj :: below) false p s)
    (hok : q.entry obj = .ok (ev, r)) (hends : Ends r evs) (hn : evs.length < n) :
    EntryRead obj below p s (ev :: evs) := by
  cases obj with
  | true => exact memberRead hvalue hat hok hends hn.le
  | false =>
    obtain ⟨v, t, rest, evs', r', hs, hv, hdepth, hevs, hafter, hends'⟩ := hvalue hat hok hends hn
    exact ⟨(⟨0, []⟩, v), t, rest, evs', r', hs, hv, hdepth, hevs, hafter, hends'⟩

lemma length_lt_of_eventsOfEntry (h : ev :: evs = eventsOfEntry obj m ++ evs')
    (hn : evs.length < n) : evs'.length < n := by
  have hlen := congrArg length h
  have hpos := length_pos_iff.mpr (eventsOf_ne_nil m.2)
  cases obj <;> simp [eventsOfEntry] at hlen <;> omega

lemma levelSound_succ (hvalue : ValueSound n) (hlevel : LevelSound n) : LevelSound (n + 1) := by
  intro r obj below p s evs hat hseen hends hn
  obtain ⟨ev, evs1, r1, rfl, hcall, hends1⟩ := ends_inside hat hends
  rw [length_cons] at hn
  cases hcall with
  | close hw hs _ hev hq hok =>
    refine ⟨[], [], _, _, evs1, r1, hs, hw, ?_, ?_, by rw [hev]; rfl, complete_sound hq hok, hends1⟩
    · intro p0 m0 t0 hm0 _
      rw [append_nil]
      exact derives_last hm0
    · have hbound := hat.bound
      rw [hat.depth_eq, length_cons] at hbound
      rw [depthMembers]
      omega
  | member _ _ hexpect _ _ => cases hexpect
  | first _ _ _ hno _ _ =>
    rw [hseen] at hno
    cases hno
  | @more w w' rest q hw hw' hs _ _ hq hok =>
    obtain ⟨m, t, rest1, evs2, r2, rfl, hm, hdepth, hevs, ⟨hat2, hseen2⟩, hends2⟩ :=
      entryRead hvalue hq hok hends1 (by omega)
    obtain ⟨ms, u, w2, rest2, evs3, r3, rfl, hw2, hentries, hdepth', hevs', hafter, hends3⟩ :=
      hlevel hat2 hseen2 hends2 (length_lt_of_eventsOfEntry hevs (by omega))
    refine ⟨m :: ms, w ++ valueSeparator :: w' ++ (t ++ u), w2, rest2, evs3, r3, ?_, hw2, ?_, ?_,
      ?_, ?_, hends3⟩
    · rw [hs]
      simp only [append_assoc, cons_append]
    · intro p0 m0 t0 hm0 hp0
      refine derives_more hm0 (.of_ws_ws hw hw') (hentries _ _ _ ?_ ?_)
      · convert hm using 1
        simp only [length_append, length_cons]
        omega
      · simp only [length_append, length_cons]
        omega
    · rw [depthMembers]
      omega
    · rw [hevs, hevs', eventsOfEntries, eventsOfEntries, flatMap_cons, append_assoc]
    · convert hafter using 1
      simp only [length_append, length_cons]
      omega

lemma valueSound_succ (hvalue : ValueSound n) (hlevel : LevelSound n) : ValueSound (n + 1) := by
  intro q r levels p s ev evs hat hok hends hn
  rcases value_cases hat hok with
    ⟨obj, rest, rfl, hdepth, rfl, hat1, hseen⟩ | ⟨v, t, rest, hv, rfl, hafter⟩
  · -- A level has been opened; it ends at once, or has a first entry and a rest.
    obtain ⟨ev1, evs1, r1, rfl, hcall, hends1⟩ := ends_inside hat1 hends
    rw [length_cons] at hn
    cases hcall with
    | member _ _ hexpect _ _ => cases hexpect
    | more _ _ _ _ hyes _ _ =>
      rw [hseen] at hyes
      cases hyes
    | @close w rest' q' hw hs _ hev hq hcomplete =>
      refine ⟨levelValue obj [], opener obj :: w ++ [closer obj], rest', evs1, r1, ?_,
        derives_empty (.of_ws hw) (.of_ws .nil), ?_, ?_, ?_, hends1⟩
      · rw [hs]
        simp
      · rw [depth_levelValue, depthMembers]
        omega
      · rw [hev, eventsOf_levelValue]
        rfl
      · convert complete_sound hq hcomplete using 1
        simp only [length_append, length_cons, length_nil]
        omega
    | @first w rest' q' hw hs _ _ hq hentry =>
      obtain ⟨m, t, rest1, evs2, r2, rfl, hm, hdepth', hevs, ⟨hat2, hseen2⟩, hends2⟩ :=
        entryRead hvalue hq hentry hends1 (by omega)
      obtain ⟨ms, u, w2, rest2, evs3, r3, rfl, hw2, hentries, hdepth'', hevs', hafter, hends3⟩ :=
        hlevel hat2 hseen2 hends2 (length_lt_of_eventsOfEntry hevs (by omega))
      refine ⟨levelValue obj (m :: ms), opener obj :: w ++ (t ++ u ++ (w2 ++ [closer obj])), rest2,
        evs3, r3, ?_, ?_, ?_, ?_, ?_, hends3⟩
      · rw [hs]
        simp
      · refine derives_level (.of_ws hw) (hentries _ _ _ ?_ ?_) (.of_ws_ws hw2 .nil)
        · convert hm using 1
          simp only [length_cons]
          omega
        · simp only [length_cons]
          omega
      · rw [depth_levelValue, depthMembers]
        omega
      · rw [hevs, hevs', eventsOf_levelValue]
        simp [eventsOfEntries]
      · convert hafter using 1
        simp only [length_append, length_cons, length_nil]
        omega
  · have hbound := hat.bound
    rw [hat.depth_eq] at hbound
    exact ⟨v, t, rest, evs, r, rfl, hv.derives, by rw [hv.depth]; omega, by rw [hv.events]; rfl,
      hafter, hends⟩

theorem valueSound (n : ℕ) : ValueSound n ∧ LevelSound n := by
  induction n with
  | zero =>
    refine ⟨?_, ?_⟩
    · intro q r levels p s ev evs _ _ _ hn
      exact absurd hn (Nat.not_lt_zero _)
    · intro r obj below p s evs _ _ _ hn
      exact absurd hn (Nat.not_lt_zero _)
  | succ n ih => exact ⟨valueSound_succ ih.1 ih.2, levelSound_succ ih.1 ih.2⟩

end Json
