import Tailcat.Basic
import Tailcat.Library.Appending
import Tailcat.Library.ByteOrder
import Tailcat.Library.Utf8

/-!
# CBOR

`src/cbor.c`. A reader is the list of bytes it has not read yet, and reading returns what is left
(`pos` is advanced only by a read that succeeds). A writer with its sticky error is a function that
appends to a buffer of `cap` bytes or fails. Each read gives back what the matching write wrote.

## Main results

* `readHead_head`: a head in its shortest form is read back;
* `readInt_int`, `readText_text`, `readBytesExact_bytes` and `readBool_bool`: so are the items.
-/

namespace Cbor

open Appending ByteOrder

/-- `tc_cbor_item`, one constructor for each `type`. -/
inductive Item
  | uint (val : ℕ)
  | nint (val : ℕ)
  | bytes (data : List UInt8)
  | text (data : List UInt8)
  | array (val : ℕ)
  | map (val : ℕ)
  | simple (val : ℕ)
  deriving DecidableEq

/-- `TC_CBOR_FALSE`. -/
def cborFalse : ℕ := 20
/-- `TC_CBOR_TRUE`. -/
def cborTrue : ℕ := 21
/-- `TC_CBOR_UNDEFINED`. -/
def cborUndefined : ℕ := 23

def major (b : UInt8) : ℕ := (b >>> 5).toNat

def ai (b : UInt8) : ℕ := (b &&& 0x1f).toNat

/-! ## Reader -/

/-- `read_head`: the major type, the value, and what is left. -/
def readHead : List UInt8 → Except Err (ℕ × ℕ × List UInt8)
  | [] => .error .trunc
  | ib :: buf =>
    if ai ib < 24 then .ok (major ib, ai ib, buf)
    else if ai ib ≤ 27 then
      let nbytes := 1 <<< (ai ib - 24)
      if buf.length < nbytes then .error .trunc
      else .ok (major ib, readBE 0 (buf.take nbytes), buf.drop nbytes)
    else if ai ib = 31 then .error .unsupported
    else .error .inval

/-- `read_item`, and `tc_cbor_read`. -/
def read (buf : List UInt8) : Except Err (Item × List UInt8) := do
  let (mt, v, buf) ← readHead buf
  match mt with
  | 0 => .ok (.uint v, buf)
  | 1 => .ok (.nint v, buf)
  | 2 => if v > buf.length then .error .trunc else .ok (.bytes (buf.take v), buf.drop v)
  | 3 =>
    if v > buf.length then .error .trunc
    else if ¬ Utf8.valid (buf.take v) then .error .inval
    else .ok (.text (buf.take v), buf.drop v)
  | 4 => if v > buf.length then .error .trunc else .ok (.array v, buf)
  | 5 => if v > buf.length / 2 then .error .trunc else .ok (.map v, buf)
  | 6 => .error .unsupported
  | _ => if v < cborFalse ∨ v > cborUndefined then .error .unsupported else .ok (.simple v, buf)

/-- How many more items an item announces. -/
def Item.announces : Item → ℕ
  | .array n => n
  | .map n => n * 2
  | _ => 0

/-- The loop of `tc_cbor_skip`, with `pending` items still to skip. Each round reads a byte at least,
so a buffer of `fuel` bytes takes at most `fuel` rounds (`skipLoop_succ_fuel`). -/
def skipLoop : ℕ → ℕ → List UInt8 → Except Err (List UInt8)
  | _, 0, buf => .ok buf
  | 0, _ + 1, _ => .error .trunc
  | fuel + 1, pending + 1, buf => do
    let (it, buf) ← read buf
    skipLoop fuel (pending + it.announces) buf

def skip (buf : List UInt8) : Except Err (List UInt8) := skipLoop (buf.length + 1) 1 buf

def readInt (buf : List UInt8) : Except Err (Int64 × List UInt8) := do
  match ← read buf with
  | (.uint v, buf) => if v > 2 ^ 63 - 1 then .error .range else .ok (Int64.ofNat v, buf)
  | (.nint v, buf) => if v > 2 ^ 63 - 1 then .error .range else .ok (-1 - Int64.ofNat v, buf)
  | _ => .error .inval

def readBool (buf : List UInt8) : Except Err (Bool × List UInt8) := do
  match ← read buf with
  | (.simple v, buf) =>
    if v ≠ cborFalse ∧ v ≠ cborTrue then .error .inval else .ok (decide (v = cborTrue), buf)
  | _ => .error .inval

def readBytesExact (n : ℕ) (buf : List UInt8) : Except Err (Vector UInt8 n × List UInt8) := do
  match ← read buf with
  | (.bytes data, buf) =>
    if h : data.length = n then .ok (⟨data.toArray, h⟩, buf) else .error .inval
  | _ => .error .inval

def readText (cap : ℕ) (buf : List UInt8) : Except Err (List UInt8 × List UInt8) := do
  match ← read buf with
  | (.text data, buf) =>
    if cap = 0 ∨ data.length > cap - 1 then .error .nospace
    -- an embedded NUL would truncate the string
    else if 0 ∈ data then .error .inval
    else .ok (data, buf)
  | _ => .error .inval

/-! ## Writer -/

/-- The bytes that `write_head` puts together in `b`. -/
def head (mt v : ℕ) : List UInt8 :=
  let mt := UInt8.ofNat (mt <<< 5)
  if v < 24 then [mt ||| UInt8.ofNat v]
  else if v ≤ 0xff then (mt ||| 24) :: writeBE 1 v
  else if v ≤ 0xffff then (mt ||| 25) :: writeBE 2 v
  else if v ≤ 0xffffffff then (mt ||| 26) :: writeBE 4 v
  else (mt ||| 27) :: writeBE 8 v

section Writer

variable (cap : ℕ)

def writeHead (mt v : ℕ) (out : List UInt8) : Except Err (List UInt8) :=
  put .nospace cap (head mt v) out

def writeInt (v : Int64) : List UInt8 → Except Err (List UInt8) :=
  if 0 ≤ v then writeHead cap 0 v.toInt.toNat else writeHead cap 1 (-(v + 1)).toInt.toNat

def writeBool (v : Bool) : List UInt8 → Except Err (List UInt8) :=
  writeHead cap 7 (if v then cborTrue else cborFalse)

def writeBytes (p : List UInt8) (out : List UInt8) : Except Err (List UInt8) :=
  writeHead cap 2 p.length out >>= put .nospace cap p

def writeText (s : List UInt8) (out : List UInt8) : Except Err (List UInt8) :=
  writeHead cap 3 s.length out >>= put .nospace cap s

def writeArrayHeader (count : ℕ) : List UInt8 → Except Err (List UInt8) := writeHead cap 4 count

def writeMapHeader (pairs : ℕ) : List UInt8 → Except Err (List UInt8) := writeHead cap 5 pairs

end Writer

/-! ## What is written -/

def int (v : Int64) : List UInt8 :=
  if 0 ≤ v then head 0 v.toInt.toNat else head 1 (-(v + 1)).toInt.toNat

def bool (v : Bool) : List UInt8 := head 7 (if v then cborTrue else cborFalse)

def bytes (p : List UInt8) : List UInt8 := head 2 p.length ++ p

def text (s : List UInt8) : List UInt8 := head 3 s.length ++ s

variable {cap mt v n : ℕ} {rest s buf : List UInt8}

lemma puts_writeHead (mt v : ℕ) : Puts Err.nospace cap (writeHead cap mt v) (head mt v) :=
  Puts.piece _

lemma puts_writeInt (v : Int64) : Puts Err.nospace cap (writeInt cap v) (int v) := by
  unfold writeInt int
  split_ifs
  · exact puts_writeHead _ _
  · exact puts_writeHead _ _

lemma puts_writeBool (v : Bool) : Puts Err.nospace cap (writeBool cap v) (bool v) :=
  puts_writeHead _ _

lemma puts_writeBytes (p : List UInt8) : Puts Err.nospace cap (writeBytes cap p) (bytes p) :=
  (puts_writeHead _ _).bind (Puts.piece p)

lemma puts_writeText (s : List UInt8) : Puts Err.nospace cap (writeText cap s) (text s) :=
  (puts_writeHead _ _).bind (Puts.piece s)

/-! ## Reading heads back -/

lemma major_or {a : ℕ} (hmt : mt < 8) (ha : a < 32) :
    major (UInt8.ofNat (mt <<< 5) ||| UInt8.ofNat a) = mt ∧
      ai (UInt8.ofNat (mt <<< 5) ||| UInt8.ofNat a) = a := by
  have hall : ∀ mt < 8, ∀ a < 32, major (UInt8.ofNat (mt <<< 5) ||| UInt8.ofNat a) = mt ∧
      ai (UInt8.ofNat (mt <<< 5) ||| UInt8.ofNat a) = a := by decide +kernel
  exact hall mt hmt a ha

lemma readHead_long {k : ℕ} (hmt : mt < 8) (hk : k < 4) (hv : v < 256 ^ 2 ^ k) (rest : List UInt8) :
    readHead ((UInt8.ofNat (mt <<< 5) ||| UInt8.ofNat (24 + k)) :: (writeBE (2 ^ k) v ++ rest)) =
      .ok (mt, v, rest) := by
  obtain ⟨hmajor, hai⟩ := major_or hmt (show 24 + k < 32 by omega)
  have hshift : 1 <<< (24 + k - 24) = 2 ^ k := by
    rw [Nat.shiftLeft_eq, Nat.add_sub_cancel_left, Nat.one_mul]
  have hlen : (writeBE (2 ^ k) v).length = 2 ^ k := length_writeBE _ _
  unfold readHead
  simp only [hai, hmajor, hshift]
  rw [if_neg (by omega), if_pos (by omega), List.take_left' hlen, readBE_writeBE, Nat.mod_eq_of_lt hv]
  simp

/-- A head is read back. -/
theorem readHead_head (hmt : mt < 8) (hv : v < 2 ^ 64) (rest : List UInt8) :
    readHead (head mt v ++ rest) = .ok (mt, v, rest) := by
  unfold head
  split_ifs with h0 h1 h2 h3
  · obtain ⟨hmajor, hai⟩ := major_or hmt (show v < 32 by omega)
    rw [List.singleton_append, readHead, hmajor, hai, if_pos h0]
  · exact readHead_long hmt (show 0 < 4 by decide) (by omega) rest
  · exact readHead_long hmt (show 1 < 4 by decide) (by omega) rest
  · exact readHead_long hmt (show 2 < 4 by decide) (by omega) rest
  · exact readHead_long hmt (show 3 < 4 by decide) (by omega) rest

lemma length_head_pos (mt v : ℕ) : 0 < (head mt v).length := by
  unfold head
  split_ifs <;> simp

/-! ## Reading items back -/

lemma read_array (hn : n ≤ rest.length) (h64 : n < 2 ^ 64) :
    read (head 4 n ++ rest) = .ok (.array n, rest) := by
  rw [read, readHead_head (by decide) h64]
  exact if_neg (by omega)

lemma read_map (hn : 2 * n ≤ rest.length) (h64 : n < 2 ^ 64) :
    read (head 5 n ++ rest) = .ok (.map n, rest) := by
  rw [read, readHead_head (by decide) h64]
  exact if_neg (by omega)

lemma read_text (hs : Utf8.valid s = true) (h64 : s.length < 2 ^ 64) (rest : List UInt8) :
    read (text s ++ rest) = .ok (.text s, rest) := by
  rw [read, text, List.append_assoc, readHead_head (by decide) h64]
  have hfits : ¬ s.length > (s ++ rest).length := by simp
  change (if s.length > (s ++ rest).length then _ else _) = _
  rw [if_neg hfits, List.take_left, List.drop_left, if_neg (by simp [hs])]

lemma read_bytes {p : List UInt8} (h64 : p.length < 2 ^ 64) (rest : List UInt8) :
    read (bytes p ++ rest) = .ok (.bytes p, rest) := by
  rw [read, bytes, List.append_assoc, readHead_head (by decide) h64]
  have hfits : ¬ p.length > (p ++ rest).length := by simp
  change (if p.length > (p ++ rest).length then _ else _) = _
  rw [if_neg hfits, List.take_left, List.drop_left]

/-- A text that fits its field is read back. -/
theorem readText_text {cap : ℕ} (hfits : s.length < cap) (hnul : 0 ∉ s)
    (hutf8 : Utf8.valid s = true) (h64 : s.length < 2 ^ 64) (rest : List UInt8) :
    readText cap (text s ++ rest) = .ok (s, rest) := by
  rw [readText, read_text hutf8 h64]
  change (if cap = 0 ∨ s.length > cap - 1 then _ else _) = _
  rw [if_neg (by omega), if_neg hnul]

theorem readBytesExact_bytes (v : Vector UInt8 n) (h64 : n < 2 ^ 64) (rest : List UInt8) :
    readBytesExact n (bytes v.toList ++ rest) = .ok (v, rest) := by
  have hlen : v.toList.length = n := v.length_toList
  rw [readBytesExact, read_bytes (by omega)]
  change (if h : v.toList.length = n then _ else _) = _
  rw [dif_pos]
  rfl

theorem readBool_bool (v : Bool) (rest : List UInt8) :
    readBool (bool v ++ rest) = .ok (v, rest) := by
  cases v
  · rfl
  · rfl

lemma ofNat_toInt {v : Int64} (h : 0 ≤ v) : Int64.ofNat v.toInt.toNat = v := by
  have hnat : 0 ≤ v.toInt := Int64.le_iff_toInt_le.mp h
  have hhigh := v.toInt_lt
  apply Int64.toInt_inj.mp
  rw [Int64.toInt_ofNat_of_lt (by omega)]
  omega

lemma neg_succ_nonneg {v : Int64} (h : ¬ 0 ≤ v) : 0 ≤ -(v + 1) := by
  have hlow := v.le_toInt
  have hneg : v.toInt < 0 := by simpa [Int64.le_iff_toInt_le] using h
  have hsucc : (v + 1).toInt = v.toInt + 1 := by
    rw [Int64.toInt_add, Int64.toInt_one]
    exact Int.bmod_eq_of_le (by omega) (by omega)
  rw [Int64.le_iff_toInt_le, Int64.toInt_neg, hsucc, Int.bmod_eq_of_le (by omega) (by omega)]
  change 0 ≤ -(v.toInt + 1)
  omega

/-- An integer is read back. -/
theorem readInt_int (v : Int64) (rest : List UInt8) : readInt (int v ++ rest) = .ok (v, rest) := by
  unfold int
  split_ifs with hv
  · have hhigh := v.toInt_lt
    rw [readInt, read, readHead_head (by decide) (by omega)]
    change (if v.toInt.toNat > 2 ^ 63 - 1 then _ else _) = _
    rw [if_neg (by omega), ofNat_toInt hv]
  · have hhigh := (-(v + 1)).toInt_lt
    have hback : -1 - -(v + 1) = v := by grind
    rw [readInt, read, readHead_head (by decide) (by omega)]
    change (if (-(v + 1)).toInt.toNat > 2 ^ 63 - 1 then _ else _) = _
    rw [if_neg (by omega), ofNat_toInt (neg_succ_nonneg hv), hback]

/-! ## Skipping -/

lemma length_readHead (h : readHead buf = .ok (mt, v, rest)) : rest.length < buf.length := by
  unfold readHead at h
  split at h
  · cases h
  dsimp only at h
  split_ifs at h
  · cases h
    exact Nat.lt_succ_self _
  · cases h
    rw [List.length_drop]
    exact Nat.lt_succ_of_le (Nat.sub_le _ _)

lemma length_read {it : Item} (h : read buf = .ok (it, rest)) : rest.length < buf.length := by
  obtain ⟨⟨mt, v, mid⟩, hhead, hitem⟩ := bind_eq_ok h
  have hmid := length_readHead hhead
  have hrest : rest.length ≤ mid.length := by
    dsimp only at hitem
    split at hitem <;> (try split_ifs at hitem) <;> cases hitem <;> simp
  omega

/-- More rounds than there are bytes are not needed. -/
theorem skipLoop_succ_fuel {fuel pending : ℕ} (h : buf.length < fuel) :
    skipLoop (fuel + 1) pending buf = skipLoop fuel pending buf := by
  induction fuel generalizing pending buf with
  | zero => omega
  | succ fuel ih =>
    cases pending with
    | zero => rfl
    | succ pending =>
      rw [skipLoop, skipLoop]
      cases hread : read buf with
      | error e => rfl
      | ok p =>
        have hlen := length_read hread
        exact ih (by omega)

end Cbor
