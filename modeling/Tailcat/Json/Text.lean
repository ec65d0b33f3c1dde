import Tailcat.Json.Document

/-!
# The text of a string

`tc_json_string_copy`, `tc_json_key_is` and `tc_json_skip_value` of `src/json.c`.

## Main results

* `stringCopy_plain`: a slice without escapes that fits is its own text;
* `stringCopy_cases`: the text of any other slice is shorter than the slice.
-/

namespace Json

open Rfc8259 List

/-! ## Expansion -/

def hexnib (c : UInt8) : Option ℕ :=
  if 0x30 ≤ c && c ≤ 0x39 then some (c.toNat - 0x30)
  else if 0x61 ≤ c && c ≤ 0x66 then some (c.toNat - 0x61 + 10)
  else if 0x41 ≤ c && c ≤ 0x46 then some (c.toNat - 0x41 + 10)
  else none

def hex4 (a b c d : UInt8) : Option ℕ := do
  let a ← hexnib a
  let b ← hexnib b
  let c ← hexnib c
  let d ← hexnib d
  return ((a <<< 4 ||| b) <<< 4 ||| c) <<< 4 ||| d

def utf8Put (cp : ℕ) : List UInt8 :=
  if cp < 0x80 then [cp.toUInt8]
  else if cp < 0x800 then [(0xc0 ||| cp >>> 6).toUInt8, (0x80 ||| (cp &&& 0x3f)).toUInt8]
  else if cp < 0x10000 then
    [(0xe0 ||| cp >>> 12).toUInt8, (0x80 ||| (cp >>> 6 &&& 0x3f)).toUInt8,
      (0x80 ||| (cp &&& 0x3f)).toUInt8]
  else
    [(0xf0 ||| cp >>> 18).toUInt8, (0x80 ||| (cp >>> 12 &&& 0x3f)).toUInt8,
      (0x80 ||| (cp >>> 6 &&& 0x3f)).toUInt8, (0x80 ||| (cp &&& 0x3f)).toUInt8]

/-- The byte that a short escape stands for. -/
def simpleEscape (e : UInt8) : Option UInt8 :=
  if e = 0x22 || e = 0x5c || e = 0x2f then some e
  else if e = 0x62 then some 0x08
  else if e = 0x66 then some 0x0c
  else if e = 0x6e then some 0x0a
  else if e = 0x72 then some 0x0d
  else if e = 0x74 then some 0x09
  else none

/-- A `\u` escape whose four digits have been read: what is written, and what is left. -/
def copyUnicode (cp : ℕ) (rest : List UInt8) : Except Err (List UInt8 × List UInt8) :=
  if 0xd800 ≤ cp && cp ≤ 0xdbff then
    -- A high surrogate must be followed by its low half.
    match rest with
    | 0x5c :: 0x75 :: a :: b :: c :: d :: rest =>
      match hex4 a b c d with
      | none => .error .inval
      | some lo =>
        if lo < 0xdc00 || lo > 0xdfff then .error .inval
        else .ok (utf8Put (0x10000 + ((cp - 0xd800) <<< 10) + (lo - 0xdc00)), rest)
    | _ => .error .inval
  else if 0xdc00 ≤ cp && cp ≤ 0xdfff then .error .inval
  -- It would truncate the C string.
  else if cp = 0 then .error .inval
  else .ok (utf8Put cp, rest)

/-- One round of `tc_json_string_copy`: what is written, and what is left. That a valid escape
follows a backslash has been checked by `scan_string`. -/
def copyChar (c : UInt8) (rest : List UInt8) : Except Err (List UInt8 × List UInt8) :=
  if c ≠ escape then if c = 0 then .error .inval else .ok ([c], rest)
  else
    match rest with
    | [] => .error .inval
    | e :: rest =>
      match simpleEscape e with
      | some b => .ok ([b], rest)
      | none =>
        match rest with
        | a :: b :: c :: d :: rest =>
          match hex4 a b c d with
          | none => .error .inval
          | some cp => copyUnicode cp rest
        | _ => .error .inval

/-- The loop of `tc_json_string_copy`. -/
def copyLoop (cap : ℕ) : ℕ → List UInt8 → List UInt8 → Except Err (List UInt8)
  | _, out, [] => .ok out
  | 0, _, _ => .error .inval
  | fuel + 1, out, c :: rest =>
    match copyChar c rest with
    | .error e => .error e
    | .ok (bytes, rest') =>
      if out.length + bytes.length ≥ cap then .error .nospace
      else copyLoop cap fuel (out ++ bytes) rest'

/-- `tc_json_string_copy`, of the slice of an event into `cap` bytes. -/
def stringCopy (raw : List UInt8) (cap : ℕ) : Except Err (List UInt8) :=
  if cap = 0 then .error .inval else copyLoop cap raw.length [] raw

/-- `tc_json_key_is`, for the slice of a key. -/
def keyIs (raw name : List UInt8) : Bool :=
  if escape ∉ raw then raw = name
  else
    match stringCopy raw 256 with
    | .error _ => false
    | .ok text => text = name

/-- The loop of `tc_json_skip_value`: until the depth is back at `target`. -/
def skipLoop (target : ℕ) : ℕ → Reader → Except Err Reader
  | 0, _ => .error .trunc
  | fuel + 1, r =>
    if r.depth > target then
      match r.next with
      | .error e => .error e
      | .ok (ev, r) => if ev = .finish then .error .trunc else skipLoop target fuel r
    else .ok r

def Reader.skipValue (r : Reader) : Except Err Reader :=
  match r.next with
  | .error e => .error e
  | .ok (ev, r) =>
    if ev.isBegin then skipLoop (r.depth - 1) (r.rest.length + 1) r else .ok r

/-! ## What the text is -/

lemma length_utf8Put_le (cp : ℕ) : (utf8Put cp).length ≤ 4 := by
  unfold utf8Put
  split_ifs <;> simp

variable {rest bytes rest' out text raw : List UInt8} {cap fuel : ℕ}

lemma copyUnicode_length {cp : ℕ} (h : copyUnicode cp rest = .ok (bytes, rest')) :
    bytes.length + rest'.length ≤ rest.length + 4 := by
  unfold copyUnicode at h
  split_ifs at h
  · split at h
    · split at h
      · cases h
      · split_ifs at h
        simp only [Except.ok.injEq, Prod.mk.injEq] at h
        obtain ⟨rfl, rfl⟩ := h
        simp only [length_cons]
        have hput := length_utf8Put_le
        exact le_trans (Nat.add_le_add_right (hput _) _) (by omega)
    · cases h
  · cases h
    have hput := length_utf8Put_le cp
    omega

lemma copyChar_cases {c : UInt8} (h : copyChar c rest = .ok (bytes, rest')) :
    c ≠ escape ∧ bytes = [c] ∧ rest' = rest ∨
      c = escape ∧ bytes.length + rest'.length < rest.length + 1 := by
  unfold copyChar at h
  by_cases hc : c ≠ escape
  · split_ifs at h
    cases h
    exact .inl ⟨hc, rfl, rfl⟩
  · rw [if_neg hc] at h
    refine .inr ⟨not_not.mp hc, ?_⟩
    split at h
    · cases h
    split at h
    · cases h
      simp only [length_cons, length_nil]
      omega
    split at h
    · split at h
      · cases h
      · have hlen := copyUnicode_length h
        simp only [length_cons]
        omega
    · cases h

lemma copyLoop_cases {s : List UInt8} (h : copyLoop cap fuel out s = .ok text) :
    escape ∉ s ∧ text = out ++ s ∨ escape ∈ s ∧ text.length < out.length + s.length := by
  induction fuel generalizing s out with
  | zero =>
    cases s with
    | nil =>
      cases h
      exact .inl ⟨not_mem_nil, (append_nil _).symm⟩
    | cons c rest => cases h
  | succ fuel ih =>
    cases s with
    | nil =>
      cases h
      exact .inl ⟨not_mem_nil, (append_nil _).symm⟩
    | cons c rest =>
      rw [copyLoop] at h
      cases hchar : copyChar c rest with
      | error e =>
        rw [hchar] at h
        cases h
      | ok x =>
        obtain ⟨bytes, rest'⟩ := x
        rw [hchar] at h
        dsimp only at h
        split_ifs at h
        have hrest := ih h
        rw [length_append] at hrest
        rcases copyChar_cases hchar with ⟨hc, rfl, rfl⟩ | ⟨rfl, hlen⟩
        · rcases hrest with ⟨hesc, rfl⟩ | ⟨hesc, hlt⟩
          · refine .inl ⟨?_, by rw [append_assoc, singleton_append]⟩
            rintro (_ | ⟨_, hmem⟩)
            · exact hc rfl
            · exact hesc hmem
          · refine .inr ⟨mem_cons_of_mem c hesc, ?_⟩
            simp only [length_cons, length_nil] at hlt ⊢
            omega
        · -- The escape alone makes the text shorter, whatever follows.
          refine .inr ⟨mem_cons_self, ?_⟩
          rw [length_cons]
          rcases hrest with ⟨-, rfl⟩ | ⟨-, hlt⟩
          · simp only [length_append]
            omega
          · omega

/-- A slice without escapes is its own text, and the text of any other is shorter than the slice. -/
theorem stringCopy_cases (h : stringCopy raw cap = .ok text) :
    escape ∉ raw ∧ text = raw ∨ escape ∈ raw ∧ text.length < raw.length := by
  unfold stringCopy at h
  split_ifs at h
  rcases copyLoop_cases h with hcopy | ⟨hesc, hlt⟩
  · exact .inl hcopy
  · rw [length_nil, Nat.zero_add] at hlt
    exact .inr ⟨hesc, hlt⟩

lemma copyLoop_plain {s : List UInt8} (hesc : escape ∉ s) (hnul : 0 ∉ s)
    (hcap : out.length + s.length < cap) (hfuel : s.length ≤ fuel) :
    copyLoop cap fuel out s = .ok (out ++ s) := by
  induction s generalizing fuel out with
  | nil => rw [copyLoop, append_nil]
  | cons c rest ih =>
    rw [length_cons] at hcap hfuel
    obtain ⟨fuel, rfl⟩ := Nat.exists_eq_add_of_lt hfuel
    have hc : c ≠ escape := fun heq => hesc (heq ▸ mem_cons_self)
    have hzero : c ≠ 0 := fun heq => hnul (heq ▸ mem_cons_self)
    have hchar : copyChar c rest = .ok ([c], rest) := by
      unfold copyChar
      rw [if_pos hc, if_neg hzero]
    rw [copyLoop, hchar]
    dsimp only
    have hlen : (out ++ [c]).length = out.length + 1 := by simp
    rw [if_neg (by rw [length_singleton]; omega),
      ih (fun h => hesc (mem_cons_of_mem _ h)) (fun h => hnul (mem_cons_of_mem _ h))
        (by omega) (by omega), append_assoc, singleton_append]

/-- A slice without escapes that fits is copied as it is. -/
theorem stringCopy_plain (hesc : escape ∉ raw) (hnul : 0 ∉ raw) (hcap : raw.length < cap) :
    stringCopy raw cap = .ok raw := by
  rw [stringCopy, if_neg (by omega), copyLoop_plain hesc hnul (by simpa using hcap) le_rfl]
  rfl

end Json
