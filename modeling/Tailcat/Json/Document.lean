import Tailcat.Json.Soundness

/-!
# The reader reads JSON

Repeated calls of `tc_json_next` reach the end without an error exactly if the text is a document of
the grammar that is not nested too deeply, and the events are the traversal of its value. A derivation
may count the white space around a bracket to the bracket, which the reader has not yet looked at; so
the reader is said to stand in front of some white space that ends where the phrase does.

## Main results

* `events_iff`: the reader accepts exactly the documents, and its events are their traversals.
-/

namespace Json

open Rfc8259 Reader List

variable {q : Reader} {levels : List Bool} {p : ℕ} {s t a b c : List UInt8}
  {evs : List Event} {v : Value}

/-! ## Completeness -/

/-- A phrase at offset `p` whose text begins with what `start` reads, and of which the calls give
these events. -/
def Readable (start : Reader → Except Err (Event × Reader)) (levels : List Bool) (p : ℕ)
    (t : List UInt8) (evs : List Event) : Prop :=
  ∃ w0 t0, t = w0 ++ t0 ∧ Ws w0 ∧ Start t0 ∧ ∀ {q : Reader} {rest : List UInt8},
    q.At levels false (p + w0.length) (t0 ++ rest) → Follow rest → (levels = [] → Ws rest) →
      ∃ ev q1 evs' r' w' p', start q = .ok (ev, q1) ∧ ev ≠ .finish ∧ evs = ev :: evs' ∧
        Steps q1 evs' r' ∧ Ws w' ∧ p' + w'.length = p + t.length ∧
        After r' levels p' (w' ++ rest)

lemma not_number_of_isWs {c : UInt8} (h : isWs c = true) :
    isDigit c = false ∧ c ≠ 0x2e ∧ c ≠ 0x65 ∧ c ≠ 0x45 := by
  simp only [isWs, Bool.or_eq_true, decide_eq_true_eq] at h
  rcases h with ((rfl | rfl) | rfl) | rfl <;> decide

lemma follow_structural {b : UInt8} (hs : Structural b s)
    (hb : isDigit b = false ∧ b ≠ 0x2e ∧ b ≠ 0x65 ∧ b ≠ 0x45) (rest : List UInt8) :
    Follow (s ++ rest) := by
  obtain ⟨w, w', hw, -, rfl⟩ := hs
  intro c hc
  cases w with
  | nil =>
    cases hc
    exact hb
  | cons c' w =>
    cases hc
    exact not_number_of_isWs (hw c mem_cons_self)

lemma readable_scalar {ev : Event} (hv : Scalar p v t ev) (hstart : Start t)
    (hread : ∀ {q : Reader} {rest : List UInt8}, q.pos = p → q.rest = t ++ rest → Follow rest →
      q.readValue = .ok (ev, q.advance t.length)) :
    Readable value levels p t (eventsOf v) := by
  refine ⟨[], t, rfl, .nil, hstart, ?_⟩
  intro q rest hat hfollow hws
  obtain ⟨r', hok, hafter⟩ := complete_complete hat.advance hws
  have hbegin : ¬ev.isBegin = true := by
    rw [hv.isBegin]
    exact Bool.false_ne_true
  have hvalue : q.value = .ok (ev, r') := by
    rw [value, hread hat.pos hat.rest hfollow]
    dsimp only
    rw [if_neg hbegin, hok]
    rfl
  exact ⟨ev, r', [], r', [], _, hvalue, value_ne_finish hat hvalue, hv.events, .refl r', .nil, rfl,
    hafter⟩

lemma value_open {obj : Bool} {rest : List UInt8} (h : q.At levels false p (opener obj :: rest))
    (hdepth : levels.length < maxDepth) :
    ∃ q1, q.value = .ok (beginEvent obj, q1) ∧ q1.At (obj :: levels) false (p + 1) rest ∧
      q1.seenTop = false := by
  have hdepth' : q.depth < maxDepth := by rwa [h.depth_eq]
  have hbegin : (beginEvent obj).isBegin = true := by cases obj <;> rfl
  refine ⟨q.push obj, ?_, h.push hdepth', seenTop_push hdepth' obj⟩
  rw [value, readValue_open h.rest hdepth']
  dsimp only
  rw [if_pos hbegin]

variable (obj : Bool)

lemma start_opener (rest : List UInt8) : Start (opener obj :: rest) :=
  ⟨opener obj, rest, rfl, by cases obj <;> decide, by cases obj <;> decide, by cases obj <;> decide⟩

lemma beginEvent_ne_finish : beginEvent obj ≠ .finish := by cases obj <;> decide

lemma endEvent_ne_finish : endEvent obj ≠ .finish := by cases obj <;> decide

lemma readable_empty (ha : Structural (opener obj) a)
    (hb : Structural (closer obj) b) (hdepth : levels.length < maxDepth) :
    Readable value levels p (a ++ b) [beginEvent obj, endEvent obj] := by
  obtain ⟨w1, w2, hw1, hw2, rfl⟩ := ha
  obtain ⟨w3, w4, hw3, hw4, rfl⟩ := hb
  refine ⟨w1, opener obj :: (w2 ++ (w3 ++ closer obj :: w4)), by simp, hw1, start_opener obj _, ?_⟩
  intro q rest hat _ hws
  rw [cons_append] at hat
  obtain ⟨q1, hok, hat1, -⟩ := value_open hat hdepth
  have hsplit : (w2 ++ (w3 ++ closer obj :: w4)) ++ rest =
      (w2 ++ w3) ++ closer obj :: (w4 ++ rest) := by simp
  rw [hsplit] at hat1
  obtain ⟨r', hnext, hafter⟩ := next_close hat1 (hw2.append hw3) fun h => hw4.append (hws h)
  refine ⟨beginEvent obj, q1, [endEvent obj], r', w4, _, hok, beginEvent_ne_finish obj, rfl,
    .step hnext (endEvent_ne_finish obj) (.refl r'), hw4, ?_, hafter⟩
  simp only [length_append, length_cons]
  omega

lemma readable_level (ha : Structural (opener obj) a)
    (hbody : Readable (entry · obj) (obj :: levels) (p + a.length) t evs)
    (hb : Structural (closer obj) b) (hdepth : levels.length < maxDepth) :
    Readable value levels p (a ++ (t ++ b)) (beginEvent obj :: (evs ++ [endEvent obj])) := by
  have hfollow : ∀ rest, Follow (b ++ rest) := follow_structural hb (by cases obj <;> decide)
  obtain ⟨w1, w2, hw1, hw2, rfl⟩ := ha
  obtain ⟨w3, w4, hw3, hw4, rfl⟩ := hb
  obtain ⟨w0, t0, rfl, hw0, hstart, hread⟩ := hbody
  refine ⟨w1, opener obj :: (w2 ++ (w0 ++ t0 ++ (w3 ++ closer obj :: w4))), by simp, hw1,
    start_opener obj _, ?_⟩
  intro q rest hat _ hws
  rw [cons_append] at hat
  obtain ⟨q1, hok, hat1, hseen⟩ := value_open hat hdepth
  -- the first entry
  have hsplit : w2 ++ (w0 ++ t0 ++ (w3 ++ closer obj :: w4)) ++ rest =
      (w2 ++ w0) ++ (t0 ++ ((w3 ++ closer obj :: w4) ++ rest)) := by simp
  rw [hsplit] at hat1
  obtain ⟨q2, hat2, hnext⟩ := next_first hat1 (hw2.append hw0) hseen (hstart.append _)
  have hpos : p + w1.length + 1 + (w2 ++ w0).length =
      p + (w1 ++ opener obj :: w2).length + w0.length := by
    simp only [length_append, length_cons]
    omega
  rw [hpos] at hat2
  obtain ⟨ev, q3, evs', r', w', p', hok', hev, rfl, hsteps, hw', hp', hat3, hseen3⟩ :=
    hread hat2 (hfollow rest) nofun
  -- the end of the level
  have hsplit' : w' ++ ((w3 ++ closer obj :: w4) ++ rest) =
      (w' ++ w3) ++ closer obj :: (w4 ++ rest) := by simp
  rw [hsplit'] at hat3
  obtain ⟨r'', hclose, hafter⟩ := next_close hat3 (hw'.append hw3) fun h => hw4.append (hws h)
  refine ⟨beginEvent obj, q1, _, r'', w4, _, hok, beginEvent_ne_finish obj, rfl, ?_, hw4, ?_,
    hafter⟩
  · have hlast : Steps r' [endEvent obj] r'' := .step hclose (endEvent_ne_finish obj) (.refl r'')
    exact .step (hnext.trans hok') hev (hsteps.trans hlast)
  · simp only [length_append, length_cons] at hp' ⊢
    omega

lemma readable_more {u : List UInt8} {evs' : List Event}
    (hfirst : Readable (entry · obj) (obj :: levels) p t evs)
    (hc : Structural valueSeparator c)
    (hmore : Readable (entry · obj) (obj :: levels) (p + t.length + c.length) u evs') :
    Readable (entry · obj) (obj :: levels) p (t ++ (c ++ u)) (evs ++ evs') := by
  have hfollow : ∀ rest, Follow (c ++ rest) := follow_structural hc (by decide)
  obtain ⟨w1, w2, hw1, hw2, rfl⟩ := hc
  obtain ⟨w0, t0, rfl, hw0, hstart, hread⟩ := hfirst
  obtain ⟨w0', u0, rfl, hw0', hstart', hread'⟩ := hmore
  refine ⟨w0, t0 ++ (w1 ++ valueSeparator :: w2 ++ (w0' ++ u0)), by simp, hw0,
    hstart.append _, ?_⟩
  intro q rest hat hrest _
  rw [append_assoc, append_assoc] at hat
  obtain ⟨ev, q1, evs1, r1, w, p1, hok, hev, rfl, hsteps, hw, hp1, hat1, hseen⟩ :=
    hread hat (hfollow _) nofun
  have hsplit : w ++ (w1 ++ valueSeparator :: w2 ++ (w0' ++ u0 ++ rest)) =
      (w ++ w1) ++ valueSeparator :: ((w2 ++ w0') ++ (u0 ++ rest)) := by simp
  rw [hsplit] at hat1
  obtain ⟨q2, hat2, hnext⟩ :=
    next_more hat1 (hw.append hw1) (hw2.append hw0') hseen (hstart'.append rest)
  have hpos : p1 + (w ++ w1).length + 1 + (w2 ++ w0').length =
      p + (w0 ++ t0).length + (w1 ++ valueSeparator :: w2).length + w0'.length := by
    simp only [length_append, length_cons] at hp1 ⊢
    omega
  rw [hpos] at hat2
  obtain ⟨ev', q3, evs2, r2, w', p2, hok', hev', rfl, hsteps', hw', hp2, hafter⟩ :=
    hread' hat2 hrest nofun
  refine ⟨ev, q1, evs1 ++ ev' :: evs2, r2, w', p2, hok, hev, rfl, ?_, hw', ?_, hafter⟩
  · exact hsteps.trans (.step (hnext.trans hok') hev' hsteps')
  · simp only [length_append] at hp2 ⊢
    omega

lemma readable_member {raw : List UInt8} (hraw : raw ∈ chars) (hc : Structural nameSeparator c)
    (hv : Readable value (true :: levels) (p + (quoted raw).length + c.length) t evs) :
    Readable (entry · true) (true :: levels) p (quoted raw ++ (c ++ t))
      (.key ⟨p + 1, raw⟩ :: evs) := by
  obtain ⟨w1, w2, hw1, hw2, rfl⟩ := hc
  obtain ⟨w0, t0, rfl, hw0, hstart, hread⟩ := hv
  refine ⟨[], quoted raw ++ (w1 ++ nameSeparator :: w2 ++ (w0 ++ t0)), rfl, .nil,
    ⟨quote, _, rfl, by decide, by decide, by decide⟩, ?_⟩
  intro q rest hat hrest _
  have hsplit : quoted raw ++ (w1 ++ nameSeparator :: w2 ++ (w0 ++ t0)) ++ rest =
      quoted raw ++ (w1 ++ nameSeparator :: ((w2 ++ w0) ++ (t0 ++ rest))) := by simp
  rw [hsplit] at hat
  obtain ⟨q1, hok, hat1⟩ := memberName_complete hraw hw1 hat
  obtain ⟨q2, hat2, hnext⟩ := next_member hat1 (hw2.append hw0) (hstart.append rest)
  have hpos : p + ([] : List UInt8).length + (quoted raw).length + w1.length + 1 +
      (w2 ++ w0).length =
        p + (quoted raw).length + (w1 ++ nameSeparator :: w2).length + w0.length := by
    simp only [length_append, length_cons, length_nil]
    omega
  rw [hpos] at hat2
  obtain ⟨ev, q3, evs', r', w', p', hok', hev, rfl, hsteps, hw', hp', hafter⟩ :=
    hread hat2 hrest nofun
  refine ⟨_, q1, ev :: evs', r', w', p', hok, nofun, rfl, .step (hnext.trans hok') hev hsteps, hw',
    ?_, hafter⟩
  simp only [length_append] at hp' ⊢
  omega

/-- What a phrase is to be read as: a value anywhere, and entries in a level of their kind. -/
def PhraseReadable (p : ℕ) (t : List UInt8) : Phrase → Prop
  | .value v => ∀ levels : List Bool, v.depth + levels.length ≤ maxDepth →
      Readable value levels p t (eventsOf v)
  | .items vs => ∀ levels : List Bool, depthItems vs + (levels.length + 1) ≤ maxDepth →
      Readable (entry · false) (false :: levels) p t (eventsOfItems vs)
  | .member m => ∀ levels : List Bool, m.2.depth + (levels.length + 1) ≤ maxDepth →
      Readable (entry · true) (true :: levels) p t (.key m.1 :: eventsOf m.2)
  | .members ms => ∀ levels : List Bool, depthMembers ms + (levels.length + 1) ≤ maxDepth →
      Readable (entry · true) (true :: levels) p t (eventsOfMembers ms)

/-- What a derivation has derived is read as a whole. -/
theorem derives_readable {φ : Phrase} (h : Derives p φ t) : PhraseReadable p t φ := by
  induction h with
  | null =>
    intro levels _
    exact readable_scalar ⟨.null, rfl, rfl, rfl⟩ ⟨0x6e, _, rfl, by decide, by decide, by decide⟩
      fun _ hrest _ => readValue_null hrest
  | true =>
    intro levels _
    exact readable_scalar ⟨.true, rfl, rfl, rfl⟩ ⟨0x74, _, rfl, by decide, by decide, by decide⟩
      fun _ hrest _ => readValue_true hrest
  | false =>
    intro levels _
    exact readable_scalar ⟨.false, rfl, rfl, rfl⟩ ⟨0x66, _, rfl, by decide, by decide, by decide⟩
      fun _ hrest _ => readValue_false hrest
  | number n =>
    intro levels _
    refine readable_scalar ⟨.number n, rfl, rfl, rfl⟩ ?_
      fun _ hrest hfollow => readValue_number n hrest hfollow
    obtain ⟨c, t, htext, hc⟩ := head_text n
    refine ⟨c, t, htext, ?_⟩
    rcases hc with rfl | hc
    · decide
    have hother : ∀ b : UInt8, isDigit b = false → c ≠ b := by
      rintro b hb rfl
      exact absurd hc (by rw [hb]; exact Bool.false_ne_true)
    refine ⟨?_, hother _ (by decide), hother _ (by decide)⟩
    simp only [isWs, Bool.or_eq_false_iff, decide_eq_false_iff_not]
    exact ⟨⟨⟨hother _ (by decide), hother _ (by decide)⟩, hother _ (by decide)⟩,
      hother _ (by decide)⟩
  | string hraw =>
    intro levels _
    refine readable_scalar ⟨.string hraw, rfl, rfl, rfl⟩
      ⟨quote, _, rfl, by decide, by decide, by decide⟩ ?_
    intro q rest hpos hrest _
    rw [← hpos]
    exact readValue_string hraw hrest
  | emptyArray ha hb =>
    intro levels hdepth
    rw [Value.depth] at hdepth
    exact readable_empty false ha hb (by omega)
  | array ha _ hb ih =>
    intro levels hdepth
    rw [Value.depth] at hdepth
    exact readable_level false ha (ih levels (by omega)) hb (by omega)
  | emptyObject ha hb =>
    intro levels hdepth
    rw [Value.depth] at hdepth
    exact readable_empty true ha hb (by omega)
  | object ha _ hb ih =>
    intro levels hdepth
    rw [Value.depth] at hdepth
    exact readable_level true ha (ih levels (by omega)) hb (by omega)
  | lastItem _ ih =>
    intro levels hdepth
    rw [depthItems] at hdepth
    rw [eventsOfItems, eventsOfItems, append_nil]
    exact ih (false :: levels) (by rw [length_cons]; omega)
  | moreItems _ hs _ ih ih' =>
    intro levels hdepth
    rw [depthItems] at hdepth
    exact readable_more false (ih (false :: levels) (by rw [length_cons]; omega)) hs
      (ih' levels (by omega))
  | member hraw hs _ ih =>
    intro levels hdepth
    exact readable_member hraw hs (ih (true :: levels) (by rw [length_cons]; omega))
  | @lastMember p m t _ ih =>
    intro levels hdepth
    rw [depthMembers] at hdepth
    rw [eventsOfMembers, eventsOfMembers, append_nil]
    exact ih levels (by omega)
  | @moreMembers p m t s ms u _ hs _ ih ih' =>
    intro levels hdepth
    rw [depthMembers] at hdepth
    exact readable_more true (ih levels (by omega)) hs (ih' levels (by omega))

/-! ## Documents -/

lemma init_at (text : List UInt8) : (init text).At [] false 0 text :=
  ⟨rfl, rfl, rfl, Nat.zero_le _, rfl, rfl⟩

lemma ends_of_document (h : Document t v) (hdepth : v.depth ≤ maxDepth) :
    Ends (init t) (eventsOf v) := by
  obtain ⟨w, t1, w', hw, hw', rfl, hderives⟩ := h
  obtain ⟨w0, t0, rfl, hw0, hstart, hread⟩ := derives_readable hderives [] hdepth
  have hat := init_at (w ++ (w0 ++ t0 ++ w'))
  rw [append_assoc, ← append_assoc] at hat
  obtain ⟨q, hq, hnext⟩ := next_top hat (hw.append hw0) (hstart.append w').notWs rfl
  rw [Nat.zero_add, length_append] at hq
  have hfollow : Follow w' := fun b hb => not_number_of_isWs (hw' b (mem_of_mem_head? hb))
  obtain ⟨ev, q1, evs, r', w1, p', hok, hev, hevs, hsteps, -, -, hdone, -⟩ :=
    hread hq hfollow fun _ => hw'
  have hnext' : r'.next = .ok (.finish, r') := by rw [Reader.next, if_pos hdone]
  have hend : Ends r' [] := .finish hnext'
  have hends := hsteps.ends hend
  rw [append_nil] at hends
  rw [hevs, append_assoc, ← append_assoc]
  exact .event (hnext.trans hok) hev hends

/-- Repeated calls of `tc_json_next` reach the end of a text without an error exactly if it is a
document of the grammar, nested no deeper than the limit, and then the events are the preorder
traversal of its value: names and values in order, a number as the integer that it denotes if it is
an integer that fits, and strings as their place in the text. -/
theorem events_iff (text : List UInt8) (evs : List Event) :
    (∃ n, (init text).events n = some evs) ↔
      ∃ v, Document text v ∧ v.depth ≤ maxDepth ∧ evs = eventsOf v := by
  rw [exists_events_iff]
  constructor
  · intro hends
    have hat := init_at text
    obtain ⟨w, rest, rfl, hw, hhead, -⟩ := hat.exists_skipWs
    obtain ⟨q, hq, hnext⟩ := next_top hat hw hhead rfl
    cases hends with
    | finish h => exact absurd rfl (value_ne_finish hq (hnext ▸ h))
    | @event _ r' ev evs h hev hrest =>
      obtain ⟨v, t, rest', evs', r'', rfl, hv, hdepth, hevs, ⟨hdone, hws⟩, hends'⟩ :=
        (valueSound (evs.length + 1)).1 hq (hnext ▸ h) hrest (Nat.lt_succ_self _)
      rw [ends_of_done hdone hends', append_nil] at hevs
      rw [Nat.zero_add] at hv
      exact ⟨v, ⟨w, t, rest', hw, hws, rfl, hv⟩, hdepth, hevs⟩
  · rintro ⟨v, hv, hdepth, rfl⟩
    exact ends_of_document hv hdepth

example : (init (ascii "[-0, \x7b\"a\": 1e5\x7d] ")).events 8 =
    some [.arrayBegin, .number (some 0), .objectBegin, .key ⟨7, ascii "a"⟩, .number none,
      .objectEnd, .arrayEnd] := by
  decide +kernel

end Json
