import Mathlib.Computability.Language
import Mathlib.Data.List.TakeWhile
import Mathlib.Data.Nat.Digits.Defs
import Mathlib.Data.UInt

/-!
# The grammar of JSON

RFC 8259, production by production, over the bytes of a text in UTF-8. A string literal of a value
keeps the bytes between its quotes and where they stand in the text, so that a derivation says at
which offset of the text its phrase begins.
-/

namespace Rfc8259

/-! ## White space and structural characters -/

def isWs (b : UInt8) : Bool := b = 0x20 || b = 0x09 || b = 0x0a || b = 0x0d

def Ws (w : List UInt8) : Prop := ∀ b ∈ w, isWs b = true

def Structural (b : UInt8) (t : List UInt8) : Prop := ∃ w w', Ws w ∧ Ws w' ∧ t = w ++ b :: w'

/-- `[` -/
def beginArray : UInt8 := 0x5b
/-- `]` -/
def endArray : UInt8 := 0x5d
/-- `{` -/
def beginObject : UInt8 := 0x7b
/-- `}` -/
def endObject : UInt8 := 0x7d
/-- `:` -/
def nameSeparator : UInt8 := 0x3a
/-- `,` -/
def valueSeparator : UInt8 := 0x2c

/-! ## Numbers -/

/-- `DIGIT`. -/
def isDigit (b : UInt8) : Bool := 0x30 ≤ b && b ≤ 0x39

/-- `1*DIGIT`. -/
def Digits (ds : List UInt8) : Prop := ds ≠ [] ∧ ∀ d ∈ ds, isDigit d = true

/-- `int`: a zero, or digits that do not begin with one. -/
def IsInt (ds : List UInt8) : Prop := ds = [0x30] ∨ Digits ds ∧ ds.head? ≠ some 0x30

/-- `frac`. -/
def IsFrac (t : List UInt8) : Prop := ∃ ds, Digits ds ∧ t = 0x2e :: ds

/-- `exp`. -/
def IsExp (t : List UInt8) : Prop :=
  ∃ e sign ds, (e = 0x65 ∨ e = 0x45) ∧ (sign = [] ∨ sign = [0x2b] ∨ sign = [0x2d]) ∧ Digits ds ∧
    t = e :: (sign ++ ds)

/-- `number`: a sign, an integer, and perhaps a fraction and an exponent. -/
@[ext]
structure Number where
  minus : Bool
  int : List UInt8
  frac : List UInt8
  exp : List UInt8
  isInt : IsInt int
  isFrac : frac = [] ∨ IsFrac frac
  isExp : exp = [] ∨ IsExp exp

def Number.text (n : Number) : List UInt8 :=
  (if n.minus then [0x2d] else []) ++ (n.int ++ (n.frac ++ n.exp))

def decimal (ds : List UInt8) : ℕ := Nat.ofDigits 10 (ds.reverse.map fun d => d.toNat - 0x30)

/-- The integer that a literal without fraction and exponent denotes. -/
def Number.integer (n : Number) : Option ℤ :=
  if n.frac = [] ∧ n.exp = [] then
    some (if n.minus then -(decimal n.int : ℤ) else decimal n.int)
  else none

/-! ## Strings -/

/-- The quotation mark. -/
def quote : UInt8 := 0x22
/-- The escape character. -/
def escape : UInt8 := 0x5c

/-- `HEXDIG`, in either case. -/
def isHex (b : UInt8) : Bool :=
  isDigit b || 0x61 ≤ b && b ≤ 0x66 || 0x41 ≤ b && b ≤ 0x46

def isShortEscape (b : UInt8) : Bool :=
  b = 0x22 || b = 0x5c || b = 0x2f || b = 0x62 || b = 0x66 || b = 0x6e || b = 0x72 || b = 0x74

/-- `char`, in UTF-8. -/
inductive IsChar : List UInt8 → Prop
  | unescaped (ch : Char) (hctl : 0x20 ≤ ch.toNat) (hquote : ch.toNat ≠ 0x22)
      (hescape : ch.toNat ≠ 0x5c) : IsChar (String.utf8EncodeChar ch)
  | short (b : UInt8) (h : isShortEscape b = true) : IsChar [escape, b]
  | unicode (a b c d : UInt8) (h : ∀ x ∈ [a, b, c, d], isHex x = true) :
      IsChar [escape, 0x75, a, b, c, d]

/-- `*char`: what stands between the quotation marks of a string. -/
def chars : Language UInt8 := KStar.kstar {t | IsChar t}

/-- A string literal: the bytes between the quotation marks, and the offset of the first of them. -/
structure Literal where
  off : ℕ
  bytes : List UInt8
  deriving DecidableEq, Repr

def quoted (raw : List UInt8) : List UInt8 := quote :: (raw ++ [quote])

/-! ## Values -/

inductive Value
  | null
  | bool (b : Bool)
  | number (n : Number)
  | string (s : Literal)
  | array (items : List Value)
  | object (members : List (Literal × Value))

mutual

/-- How deep arrays and objects are nested. -/
def Value.depth : Value → ℕ
  | .null => 0
  | .bool _ => 0
  | .number _ => 0
  | .string _ => 0
  | .array items => depthItems items + 1
  | .object members => depthMembers members + 1

/-- The depth of the deepest of some values. -/
def depthItems : List Value → ℕ
  | [] => 0
  | v :: vs => max v.depth (depthItems vs)

/-- The depth of the deepest of some members. -/
def depthMembers : List (Literal × Value) → ℕ
  | [] => 0
  | (_, v) :: ms => max v.depth (depthMembers ms)

end

inductive Phrase
  | value (v : Value)
  | items (vs : List Value)
  | member (m : Literal × Value)
  | members (ms : List (Literal × Value))

/-- `Derives p φ t`: the text `t`, which begins at offset `p`, is the phrase `φ`. -/
inductive Derives : ℕ → Phrase → List UInt8 → Prop
  | null {p} : Derives p (.value .null) [0x6e, 0x75, 0x6c, 0x6c]
  | true {p} : Derives p (.value (.bool true)) [0x74, 0x72, 0x75, 0x65]
  | false {p} : Derives p (.value (.bool false)) [0x66, 0x61, 0x6c, 0x73, 0x65]
  | number {p} (n : Number) : Derives p (.value (.number n)) n.text
  | string {p raw} (h : raw ∈ chars) : Derives p (.value (.string ⟨p + 1, raw⟩)) (quoted raw)
  | emptyArray {p a b} (ha : Structural beginArray a) (hb : Structural endArray b) :
      Derives p (.value (.array [])) (a ++ b)
  | array {p a vs t b} (ha : Structural beginArray a) (ht : Derives (p + a.length) (.items vs) t)
      (hb : Structural endArray b) : Derives p (.value (.array vs)) (a ++ (t ++ b))
  | emptyObject {p a b} (ha : Structural beginObject a) (hb : Structural endObject b) :
      Derives p (.value (.object [])) (a ++ b)
  | object {p a ms t b} (ha : Structural beginObject a)
      (ht : Derives (p + a.length) (.members ms) t) (hb : Structural endObject b) :
      Derives p (.value (.object ms)) (a ++ (t ++ b))
  | lastItem {p v t} (hv : Derives p (.value v) t) : Derives p (.items [v]) t
  | moreItems {p v t s vs u} (hv : Derives p (.value v) t) (hs : Structural valueSeparator s)
      (hu : Derives (p + t.length + s.length) (.items vs) u) :
      Derives p (.items (v :: vs)) (t ++ (s ++ u))
  | member {p raw s v t} (h : raw ∈ chars) (hs : Structural nameSeparator s)
      (hv : Derives (p + (quoted raw).length + s.length) (.value v) t) :
      Derives p (.member (⟨p + 1, raw⟩, v)) (quoted raw ++ (s ++ t))
  | lastMember {p m t} (hm : Derives p (.member m) t) : Derives p (.members [m]) t
  | moreMembers {p m t s ms u} (hm : Derives p (.member m) t) (hs : Structural valueSeparator s)
      (hu : Derives (p + t.length + s.length) (.members ms) u) :
      Derives p (.members (m :: ms)) (t ++ (s ++ u))

/-- `JSON-text`: a value with white space around it. -/
def Document (text : List UInt8) (v : Value) : Prop :=
  ∃ w t w', Ws w ∧ Ws w' ∧ text = w ++ (t ++ w') ∧ Derives w.length (.value v) t

/-! ## White space, lemmas -/

lemma Ws.nil : Ws [] := nofun

variable {w : List UInt8} {b : UInt8}

lemma Ws.append {w' : List UInt8} (h : Ws w) (h' : Ws w') : Ws (w ++ w') := by
  intro b hb
  rcases List.mem_append.mp hb with hb | hb
  · exact h b hb
  · exact h' b hb

lemma ws_takeWhile (s : List UInt8) : Ws (s.takeWhile isWs) := fun _ hb => List.mem_takeWhile_imp hb

lemma takeWhile_ws_append (h : Ws w) (s : List UInt8) :
    (w ++ s).takeWhile isWs = w ++ s.takeWhile isWs :=
  List.takeWhile_append_of_pos h

lemma Structural.of_ws (h : Ws w) : Structural b (b :: w) := ⟨[], w, .nil, h, rfl⟩

lemma Structural.of_ws_ws {w' : List UInt8} (h : Ws w) (h' : Ws w') :
    Structural b (w ++ b :: w') :=
  ⟨w, w', h, h', rfl⟩

end Rfc8259
