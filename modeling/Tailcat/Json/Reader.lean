import Tailcat.Basic
import Tailcat.Library.JsonGrammar

/-!
# The JSON reader

The pull parser of `src/json.c`: `tc_json_next` gives one event after the other, with two bits for
each open array or object. The reader keeps its position and, in place of the buffer, the bytes from
there on. What it holds after an error is not modelled, since every caller stops there.
-/

namespace Json

open Rfc8259 (isWs isDigit isHex isShortEscape)

/-- `TC_JSON_MAX_DEPTH`. -/
def maxDepth : ℕ := 32

/-- `tc_json_event`. A `KEY` or `STRING` has the slice between the quotes, escapes not expanded; a
`NUMBER` has the integer that it is, if it is one that fits. -/
inductive Event
  /-- `TC_JSON_END` -/
  | finish
  | objectBegin
  | objectEnd
  | arrayBegin
  | arrayEnd
  | key (s : Rfc8259.Literal)
  | string (s : Rfc8259.Literal)
  | number (num : Option ℤ)
  | bool (b : Bool)
  | null
  deriving DecidableEq, Repr

/-- The event begins an array or an object. -/
def Event.isBegin : Event → Bool
  | .objectBegin | .arrayBegin => true
  | _ => false

/-- `tc_json_reader`, with the bytes from the position on. -/
structure Reader where
  pos : ℕ
  rest : List UInt8
  depth : ℕ
  /-- Which levels are objects. -/
  inObject : Vector Bool maxDepth
  /-- Which levels have had a member or an element. -/
  seen : Vector Bool maxDepth
  /-- A `KEY` was just given. -/
  expectValue : Bool
  done : Bool

namespace Reader

def init (buf : List UInt8) : Reader where
  pos := 0
  rest := buf
  depth := 0
  inObject := .replicate maxDepth false
  seen := .replicate maxDepth false
  expectValue := false
  done := false

/-- The position moves over `n` bytes. -/
def advance (r : Reader) (n : ℕ) : Reader := { r with pos := r.pos + n, rest := r.rest.drop n }

def skipWs (r : Reader) : Reader := r.advance (r.rest.takeWhile isWs).length

/-- An assignment to `seen`. -/
def setSeen (r : Reader) (lvl : ℕ) (b : Bool) : Reader :=
  { r with seen := r.seen.setIfInBounds lvl b }

end Reader

/-! ## Strings -/

/-- How many bytes the escape at the front of a text has behind its backslash. -/
def scanEscape : List UInt8 → Except Err ℕ
  | [] => .error .trunc
  | e :: rest =>
    if isShortEscape e then .ok 1
    else if e = 0x75 then
      if rest.length < 4 then .error .trunc
      else if (rest.take 4).all isHex then .ok 5
      else .error .inval
    else .error .inval

/-- How many bytes a UTF-8 sequence has, if `extra` bytes are to follow its lead byte. -/
def scanSequence (c : UInt8) (extra : ℕ) (rest : List UInt8) : Except Err ℕ :=
  if rest.length < extra then .error .trunc
  else if (rest.take extra).any fun cc => cc &&& 0xc0 ≠ 0x80 then .error .inval
  else
    let cp := if extra = 0 then c.toNat else c.toNat &&& (0xff >>> (extra + 2))
    let cp := (rest.take extra).foldl (fun cp cc => cp <<< 6 ||| (cc &&& 0x3f).toNat) cp
    if extra = 1 && cp < 0x80 then .error .inval
    else if extra = 2 && cp < 0x800 then .error .inval
    else if extra = 3 && cp < 0x10000 then .error .inval
    else if cp > 0x10ffff || 0xd800 ≤ cp && cp ≤ 0xdfff then .error .inval
    else .ok (extra + 1)

/-- How many bytes the character at the front of a string has: one round of the loop of
`scan_string`, for a byte that is not a quote. -/
def scanChar (c : UInt8) (rest : List UInt8) : Except Err ℕ :=
  if c < 0x20 then .error .inval
  else if c = Rfc8259.escape then (scanEscape rest).map (· + 1)
  else if c < 0x80 then scanSequence c 0 rest
  else if c &&& 0xe0 = 0xc0 then scanSequence c 1 rest
  else if c &&& 0xf0 = 0xe0 then scanSequence c 2 rest
  else if c &&& 0xf8 = 0xf0 then scanSequence c 3 rest
  else .error .inval

/-- The loop of `scan_string`: how many bytes stand before the closing quote. -/
def scanChars : ℕ → List UInt8 → Except Err ℕ
  | _, [] => .error .trunc
  -- Every round takes a byte, so that there are always enough rounds.
  | 0, _ => .error .trunc
  | fuel + 1, c :: rest =>
    if c = Rfc8259.quote then .ok 0
    else
      match scanChar c rest with
      | .error e => .error e
      | .ok n => (scanChars fuel ((c :: rest).drop n)).map (n + ·)

def Reader.scanString (r : Reader) : Except Err (Rfc8259.Literal × Reader) :=
  match r.rest with
  | [] => .error .inval
  | c :: rest =>
    if c = Rfc8259.quote then
      match scanChars rest.length rest with
      | .error e => .error e
      | .ok n => .ok (⟨r.pos + 1, rest.take n⟩, r.advance (n + 2))
    else .error .inval

/-! ## Numbers -/

def scanInt : List UInt8 → Except Err (List UInt8)
  | [] => .error .trunc
  | c :: rest =>
    if c = 0x30 then .ok [c]
    else if 0x31 ≤ c && c ≤ 0x39 then .ok ((c :: rest).takeWhile isDigit)
    else .error .inval

def scanDigits (s : List UInt8) : Except Err (List UInt8) :=
  if s.takeWhile isDigit = [] then .error .inval else .ok (s.takeWhile isDigit)

/-- The fraction with its point, or nothing. -/
def scanFrac : List UInt8 → Except Err (List UInt8)
  | [] => .ok []
  | c :: rest => if c = 0x2e then (scanDigits rest).map (c :: ·) else .ok []

/-- The sign of an exponent, or nothing. -/
def scanSign : List UInt8 → List UInt8
  | [] => []
  | c :: _ => if c = 0x2b || c = 0x2d then [c] else []

def scanExp : List UInt8 → Except Err (List UInt8)
  | [] => .ok []
  | c :: rest =>
    if c = 0x65 || c = 0x45 then
      (scanDigits (rest.drop (scanSign rest).length)).map (c :: scanSign rest ++ ·)
    else .ok []

def int64Max : ℕ := 2 ^ 63 - 1

/-- One more digit of a magnitude, unless it overflows a `uint64_t`. -/
def addDigit (mag : ℕ) (c : UInt8) : Option ℕ :=
  if mag > (2 ^ 64 - 1 - (c.toNat - 0x30)) / 10 then none else some (mag * 10 + (c.toNat - 0x30))

def magnitude (digits : List UInt8) : Option ℕ := digits.foldlM addDigit 0

/-- The integer that is reported for digits. -/
def toInt64 (neg : Bool) (digits : List UInt8) : Option ℤ :=
  match magnitude digits with
  | none => none
  | some mag =>
    if mag ≤ (if neg then int64Max + 1 else int64Max) then
      some (if neg then -(mag : ℤ) else mag)
    else none

/-- `scan_number`: how many bytes the number has, and the integer that it is reported as. -/
def scanNumber (s : List UInt8) : Except Err (ℕ × Option ℤ) := do
  let neg := s.head? = some 0x2d
  let sign := if neg then 1 else 0
  let int ← scanInt (s.drop sign)
  let frac ← scanFrac (s.drop (sign + int.length))
  let exp ← scanExp (s.drop (sign + int.length + frac.length))
  let num := if frac.isEmpty && exp.isEmpty then toInt64 neg int else none
  return (sign + int.length + frac.length + exp.length, num)

/-! ## Events -/

namespace Reader

def lit (r : Reader) (word : List UInt8) : Except Err Reader :=
  if word.isPrefixOf r.rest then .ok (r.advance word.length) else .error .inval

def push (r : Reader) (obj : Bool) : Reader :=
  { r.advance 1 with
    inObject := r.inObject.setIfInBounds r.depth obj
    seen := r.seen.setIfInBounds r.depth false
    depth := r.depth + 1 }

def readValue (r : Reader) : Except Err (Event × Reader) :=
  match r.rest with
  | [] => .error .trunc
  | c :: _ =>
    if c = Rfc8259.beginObject ∨ c = Rfc8259.beginArray then
      if r.depth ≥ maxDepth then .error .toomany
      else if c = Rfc8259.beginObject then .ok (.objectBegin, r.push true)
      else .ok (.arrayBegin, r.push false)
    else if c = Rfc8259.quote then r.scanString.map fun x => (.string x.1, x.2)
    else if c = 0x74 then (r.lit (ascii "true")).map fun r => (.bool true, r)
    else if c = 0x66 then (r.lit (ascii "false")).map fun r => (.bool false, r)
    else if c = 0x6e then (r.lit (ascii "null")).map fun r => (.null, r)
    else (scanNumber r.rest).map fun x => (.number x.2, r.advance x.1)

def endDocument (r : Reader) : Except Err Reader :=
  if r.skipWs.rest = [] then .ok { r.skipWs with done := true } else .error .inval

/-- `tc_json_next` at the top level, behind white space. -/
def nextTop (r : Reader) : Except Err (Event × Reader) :=
  if r.seen.get ⟨0, by decide⟩ then
    if r.rest = [] then .ok (.finish, { r with done := true }) else .error .inval
  else
    match (r.setSeen 0 true).readValue with
    | .error e => .error e
    | .ok (ev, r) =>
      if r.depth = 0 then r.endDocument.map fun r => (ev, r) else .ok (ev, r)

def closer (obj : Bool) : UInt8 := if obj then Rfc8259.endObject else Rfc8259.endArray

def pop (r : Reader) (obj : Bool) : Except Err (Event × Reader) :=
  let r := { r.advance 1 with depth := r.depth - 1 }
  let ev := if obj then .objectEnd else .arrayEnd
  if r.depth = 0 then r.endDocument.map fun r => (ev, r)
  else .ok (ev, r.setSeen (r.depth - 1) true)

def element (r : Reader) (lvl : ℕ) : Except Err (Event × Reader) :=
  r.readValue.map fun x => (x.1, if x.1.isBegin then x.2 else x.2.setSeen lvl true)

/-- The comma between elements: required behind the first, and forbidden before it and behind the
last. -/
def comma (r : Reader) (obj seen : Bool) : Except Err Reader :=
  if seen then
    if r.rest.head? ≠ some Rfc8259.valueSeparator then .error .inval
    else
      let r := (r.advance 1).skipWs
      if r.rest = [] then .error .trunc
      else if r.rest.head? = some (closer obj) then .error .inval
      else .ok r
  else .ok r

def memberName (r : Reader) : Except Err (Event × Reader) :=
  match r.scanString with
  | .error e => .error e
  | .ok (s, r) =>
    let r := r.skipWs
    match r.rest with
    | [] => .error .trunc
    | c :: _ =>
      if c = Rfc8259.nameSeparator then .ok (.key s, { r.advance 1 with expectValue := true })
      else .error .inval

/-- `tc_json_next` in level `lvl`, behind white space. -/
def nextIn (r : Reader) (lvl : ℕ) : Except Err (Event × Reader) :=
  let obj := r.inObject.getD lvl false
  if r.rest = [] then .error .trunc
  else if r.rest.head? = some (closer obj) then
    -- A key with no value.
    if r.expectValue then .error .inval else r.pop obj
  else if r.expectValue then element { r with expectValue := false } lvl
  else
    match r.comma obj (r.seen.getD lvl false) with
    | .error e => .error e
    | .ok r => if obj then r.memberName else r.element lvl

def next (r : Reader) : Except Err (Event × Reader) :=
  if r.done then .ok (.finish, r)
  else if r.depth = 0 then r.skipWs.nextTop
  else r.skipWs.nextIn (r.depth - 1)

/-- The events of up to `n` calls of `tc_json_next`, if these reach the end without an error. -/
def events : ℕ → Reader → Option (List Event)
  | 0, _ => none
  | n + 1, r =>
    match r.next with
    | .error _ => none
    | .ok (ev, r) => if ev = .finish then some [] else (events n r).map (ev :: ·)

end Reader

end Json
