import Tailcat.Basic
import Tailcat.Library.Fields

/-!
# The data types of the wire

`src/ssh/wire.c`: a writer that latches when a field does not fit, and a reader that latches when a
field is not there. A pointer into the buffer of a reader is its offset.

## Main results

* `Wbuf.finish_putRaw` and `Rbuf.At.getSlice`: a field that is written is read.
-/

namespace Ssh

open ByteOrder List

/-! ## Writing -/

structure Wbuf where
  cap : ℕ
  bytes : List UInt8
  full : Bool

namespace Wbuf

/-- `tc_ssh_wbuf_init`, for a buffer of `cap` bytes. -/
def init (cap : ℕ) : Wbuf := { cap, bytes := [], full := false }

/-- `tc_ssh_put_raw`, with what `reserve` does. -/
def putRaw (w : Wbuf) (b : List UInt8) : Wbuf :=
  if w.full then w
  else if b.length > w.cap - w.bytes.length then { w with full := true }
  else { w with bytes := w.bytes ++ b }

def putByte (w : Wbuf) (v : UInt8) : Wbuf := w.putRaw [v]

def putBool (w : Wbuf) (v : Bool) : Wbuf := w.putByte (if v then 1 else 0)

def putU32 (w : Wbuf) (v : ℕ) : Wbuf := w.putRaw (writeBE32 (.ofNat v))

def putString (w : Wbuf) (b : List UInt8) : Wbuf :=
  if b.length > 0xffffffff then { w with full := true } else (w.putU32 b.length).putRaw b

/-- The names of a name-list, with commas between them. -/
def commas : List (List UInt8) → List UInt8
  | [] => []
  | [name] => name
  | name :: names => name ++ 0x2c :: commas names

/-- `tc_ssh_put_namelist`: all names must be printable and without a comma. -/
def putNamelist (w : Wbuf) (names : List (List UInt8)) : Wbuf :=
  if names.any fun name => name.any fun c => c = 0x2c || c < 0x21 || c > 0x7e then
    { w with full := true }
  else (w.putU32 (commas names).length).putRaw (commas names)

/-- `tc_ssh_wbuf_ok` and `tc_ssh_wbuf_len`: the message, or none if it did not fit. -/
def finish (w : Wbuf) : Except Err (List UInt8) := if w.full then .error .nospace else .ok w.bytes

end Wbuf

/-! ## Reading -/

def sizeMax : ℕ := 2 ^ 64 - 1

structure Rbuf where
  buf : List UInt8
  off : ℕ
  bad : Bool

namespace Rbuf

def init (buf : List UInt8) : Rbuf := { buf, off := 0, bad := false }

def ok (r : Rbuf) : Bool := !r.bad

def fail (r : Rbuf) : Rbuf := { r with bad := true }

/-- `take`: the offset of the next `n` bytes. -/
def take (r : Rbuf) (n : ℕ) : Option ℕ × Rbuf :=
  if r.bad then (none, r)
  else if n > r.buf.length - r.off then (none, r.fail)
  else (some r.off, { r with off := r.off + n })

def getByte (r : Rbuf) : UInt8 × Rbuf :=
  match r.take 1 with
  | (none, r) => (0, r)
  | (some i, r) => (r.buf.getD i 0, r)

def getBool (r : Rbuf) : Bool × Rbuf := (r.getByte.1 ≠ 0, r.getByte.2)

def getU32 (r : Rbuf) : ℕ × Rbuf :=
  match r.take 4 with
  | (none, r) => (0, r)
  | (some i, r) => ((readBE32 r.buf i).toNat, r)

def getRaw (r : Rbuf) (n : ℕ) : Option ℕ × Rbuf :=
  if n = 0 then (if r.bad then none else some r.off, r) else r.take n

/-- `tc_ssh_get_string`: the offset and the length. -/
def getString (r : Rbuf) (max : ℕ) : Option (ℕ × ℕ) × Rbuf :=
  let (n, r) := r.getU32
  if r.bad then (none, r)
  else if n > r.buf.length - r.off then (none, r.fail)
  else if n > max then (none, r.fail)
  else (some (r.off, n), { r with off := r.off + n })

/-- `tc_ssh_get_cstring`, for an array of `cap` bytes: the string without its terminator. -/
def getCstring (r : Rbuf) (cap : ℕ) : Option (List UInt8) × Rbuf :=
  match r.getString (cap - 1) with
  | (none, r) => (none, r)
  | (some (i, n), r) =>
    let s := Fields.slice r.buf i n
    if s.contains 0 then (none, r.fail) else (some s, r)

/-- `tc_ssh_get_string`, where only the bytes matter. -/
def getSlice (r : Rbuf) (max : ℕ) : Option (List UInt8) × Rbuf :=
  match r.getString max with
  | (none, r) => (none, r)
  | (some (i, n), r) => (some (Fields.slice r.buf i n), r)

def getStringEq (r : Rbuf) (s : List UInt8) : Bool × Rbuf :=
  match r.getSlice sizeMax with
  | (none, r) => (false, r)
  | (some b, r) => (b = s, r)

def remaining (r : Rbuf) : ℕ := if r.bad then 0 else r.buf.length - r.off

end Rbuf

/-! ## Name-lists -/

/-- The names that `next_name` walks through. Nothing comes after a comma at the end. -/
def namelistNames (list : List UInt8) : List (List UInt8) :=
  let names := list.splitOn 0x2c
  if names.getLast? = some [] then names.dropLast else names

def namelistHas (list name : List UInt8) : Bool := (namelistNames list).contains name

/-- `tc_ssh_namelist_first_supported`: the index of the first of our names that is in the list. -/
def namelistFirstSupported (peer : List UInt8) (ours : List (List UInt8)) : Option ℕ :=
  ours.findIdx? (namelistHas peer)

/-! ## Rules -/

namespace Wbuf

variable {w : Wbuf} {b m : List UInt8}

lemma finish_ne_done {w : Wbuf} {e : Err} (h : w.finish = .error e) : e ≠ .done := by
  rintro rfl
  unfold finish at h
  split at h <;> cases h

lemma finish_init (cap : ℕ) : (init cap).finish = .ok [] := rfl

/-- A message that was written ends with its last field. -/
theorem of_finish_putRaw (h : (w.putRaw b).finish = .ok m) :
    ∃ m', w.finish = .ok m' ∧ m = m' ++ b := by
  unfold putRaw at h
  split at h
  · next hfull => simp [finish, hfull] at h
  rename_i hfull
  split at h
  · simp [finish] at h
  · simp only [finish, hfull] at h ⊢
    exact ⟨w.bytes, rfl, (Except.ok.inj h).symm⟩

lemma of_finish_putString (h : (w.putString b).finish = .ok m) :
    ∃ m', w.finish = .ok m' ∧ m = m' ++ writeBE32 (.ofNat b.length) ++ b := by
  unfold putString at h
  split at h
  · simp [finish] at h
  obtain ⟨m', hlen, rfl⟩ := of_finish_putRaw h
  obtain ⟨m'', hw, rfl⟩ := of_finish_putRaw hlen
  exact ⟨m'', hw, rfl⟩

lemma cap_putRaw (w : Wbuf) (b : List UInt8) : (w.putRaw b).cap = w.cap := by
  unfold putRaw
  split
  · rfl
  · split <;> rfl

/-- A field that fits is written. -/
theorem finish_putRaw (h : w.finish = .ok m) (hfits : m.length + b.length ≤ w.cap) :
    (w.putRaw b).finish = .ok (m ++ b) := by
  unfold finish at h
  split at h
  · cases h
  rename_i hfull
  obtain rfl := Except.ok.inj h
  rw [putRaw, if_neg (by simp [hfull]), if_neg (by omega), finish, if_neg (by simp [hfull])]

lemma finish_foldl_putRaw (cap : ℕ) (fields : List (List UInt8)) (h : fields.flatten.length ≤ cap) :
    (fields.foldl putRaw (init cap)).finish = .ok fields.flatten := by
  induction fields using reverseRecOn with
  | nil => exact finish_init cap
  | append_singleton fields b ih =>
    have hcap : ∀ (l : List (List UInt8)), (l.foldl putRaw (init cap)).cap = cap := by
      intro l
      induction l using reverseRecOn with
      | nil => rfl
      | append_singleton l b ihl => rw [foldl_append, foldl_cons, foldl_nil, cap_putRaw, ihl]
    rw [flatten_append, flatten_singleton, length_append] at h
    rw [foldl_append, foldl_cons, flatten_append, flatten_singleton]
    exact finish_putRaw (ih (by omega)) (by rw [hcap]; omega)

lemma putString_eq (w : Wbuf) {b : List UInt8} (h : b.length ≤ 0xffffffff) :
    w.putString b = (w.putRaw (writeBE32 (.ofNat b.length))).putRaw b :=
  if_neg (by omega)

def Starts (w : Wbuf) (first : UInt8) : Prop :=
  w.full = true ∨ ∃ rest, w.bytes = first :: rest

variable {first : UInt8}

lemma starts_putByte (cap : ℕ) (first : UInt8) : ((init cap).putByte first).Starts first := by
  unfold putByte putRaw
  split
  · next hfull => exact .inl hfull
  split
  · exact .inl rfl
  · exact .inr ⟨[], rfl⟩

section

variable (h : w.Starts first)

include h

lemma Starts.putRaw (b : List UInt8) : (w.putRaw b).Starts first := by
  unfold Wbuf.putRaw
  split
  · exact h
  rename_i hfull
  split
  · exact .inl rfl
  · obtain ⟨rest, hrest⟩ := h.resolve_left hfull
    exact .inr ⟨rest ++ b, by simp [hrest]⟩

lemma Starts.putU32 (v : ℕ) : (w.putU32 v).Starts first := h.putRaw _

lemma Starts.putBool (v : Bool) : (w.putBool v).Starts first := h.putRaw _

lemma Starts.putString (b : List UInt8) : (w.putString b).Starts first := by
  unfold Wbuf.putString
  split
  · exact .inl rfl
  · exact (h.putRaw _).putRaw b

lemma Starts.putNamelist (names : List (List UInt8)) : (w.putNamelist names).Starts first := by
  unfold Wbuf.putNamelist
  split
  · exact .inl rfl
  · exact (h.putRaw _).putRaw _

lemma Starts.finish (hm : w.finish = .ok m) : m.getD 0 0 = first := by
  unfold Wbuf.finish at hm
  split at hm
  · cases hm
  rename_i hfull
  obtain ⟨rest, hrest⟩ := h.resolve_left hfull
  rw [← Except.ok.inj hm, hrest]
  rfl

end

end Wbuf

namespace Rbuf

variable {r : Rbuf}

lemma getU32_lt (r : Rbuf) : r.getU32.1 < 2 ^ 32 := by
  unfold getU32
  split
  · exact Nat.two_pow_pos 32
  · exact UInt32.toNat_lt _

lemma getByte_init (buf : List UInt8) : (init buf).getByte.1 = buf.getD 0 0 := by
  cases buf <;> rfl

def Within (buf : List UInt8) (r : Rbuf) : Prop := r.buf = buf ∧ r.off ≤ buf.length

variable {buf : List UInt8} {max : ℕ} {v : UInt8}

lemma within_init (buf : List UInt8) : (init buf).Within buf := ⟨rfl, Nat.zero_le _⟩

lemma Within.take (h : r.Within buf) (n : ℕ) : (r.take n).2.Within buf := by
  unfold Rbuf.take
  split
  · exact h
  split
  · exact h
  rename_i hn
  obtain ⟨rfl, hoff⟩ := h
  exact ⟨rfl, by dsimp only; omega⟩

lemma Within.getByte (h : r.Within buf) : r.getByte.2.Within buf := by
  have htake := h.take 1
  unfold Rbuf.getByte
  generalize r.take 1 = t at htake ⊢
  obtain ⟨i, r'⟩ := t
  cases i <;> exact htake

lemma Within.getU32 (h : r.Within buf) : r.getU32.2.Within buf := by
  have htake := h.take 4
  unfold Rbuf.getU32
  generalize r.take 4 = t at htake ⊢
  obtain ⟨i, r'⟩ := t
  cases i <;> exact htake

lemma Within.getString (h : r.Within buf) {i n : ℕ} (hs : (r.getString max).1 = some (i, n)) :
    i + n ≤ buf.length ∧ n ≤ max := by
  obtain ⟨hbuf, hoff⟩ := h.getU32
  unfold Rbuf.getString at hs
  dsimp only at hs
  split_ifs at hs with _ hn hmax
  obtain ⟨rfl, rfl⟩ := Prod.mk.inj (Option.some.inj hs)
  rw [hbuf] at hn
  omega

/-! ### Reading what was written -/

def At (r : Rbuf) (rest : List UInt8) : Prop :=
  r.bad = false ∧ r.off ≤ r.buf.length ∧ r.buf.drop r.off = rest

variable {rest b : List UInt8}

lemma at_init (buf : List UInt8) : (init buf).At buf := ⟨rfl, Nat.zero_le _, rfl⟩

lemma At.ok (h : r.At rest) : r.ok = true := by simp [Rbuf.ok, h.1]

lemma At.length (h : r.At rest) : r.buf.length = r.off + rest.length := by
  obtain ⟨-, hoff, hdrop⟩ := h
  have hlen := congrArg List.length hdrop
  rw [List.length_drop] at hlen
  omega

lemma At.remaining (h : r.At rest) : r.remaining = rest.length := by
  have hlen := h.length
  rw [Rbuf.remaining, h.1]
  simp [hlen]

lemma At.take (h : r.At (b ++ rest)) :
    ∃ r', r.take b.length = (some r.off, r') ∧ r'.buf = r.buf ∧ r'.At rest := by
  have hlen := h.length
  rw [length_append] at hlen
  refine ⟨{ r with off := r.off + b.length }, ?_, rfl, h.1, by dsimp only; omega, ?_⟩
  · rw [Rbuf.take, if_neg (by simp [h.1]), if_neg (by omega)]
  · rw [← drop_drop, h.2.2, drop_left]

lemma At.slice (h : r.At (b ++ rest)) : Fields.slice r.buf r.off b.length = b := by
  rw [Fields.slice, h.2.2, take_left]

lemma At.getByte (h : r.At (v :: rest)) : ∃ r', r.getByte = (v, r') ∧ r'.At rest := by
  obtain ⟨r', htake, hbuf, hr'⟩ := At.take (b := [v]) h
  refine ⟨r', ?_, hr'⟩
  rw [length_singleton] at htake
  rw [Rbuf.getByte, htake]
  dsimp only
  rw [hbuf, getD_eq_getElem?_getD]
  have hget : r.buf[r.off]? = some v := by
    rw [← head?_drop, h.2.2]
    rfl
  rw [hget]
  rfl

lemma At.getBool (h : r.At (v :: rest)) : ∃ r', r.getBool = (decide (v ≠ 0), r') ∧ r'.At rest := by
  obtain ⟨r', hbyte, hr'⟩ := h.getByte
  exact ⟨r', by rw [Rbuf.getBool, hbyte], hr'⟩

lemma At.getRaw (h : r.At (b ++ rest)) (hb : b ≠ []) :
    ∃ r', r.getRaw b.length = (some r.off, r') ∧ r'.buf = r.buf ∧ r'.At rest := by
  rw [Rbuf.getRaw, if_neg (by simpa using hb)]
  exact h.take

lemma At.getU32 {v : UInt32} (h : r.At (writeBE32 v ++ rest)) :
    ∃ r', r.getU32 = (v.toNat, r') ∧ r'.buf = r.buf ∧ r'.At rest := by
  obtain ⟨r', htake, hbuf, hr'⟩ := h.take
  refine ⟨r', ?_, hbuf, hr'⟩
  rw [length_writeBE32] at htake
  rw [Rbuf.getU32, htake]
  dsimp only
  -- the integer stands at the position of the reader
  have hsplit : r.buf = r.buf.take r.off ++ (writeBE32 v ++ rest) := by
    rw [← h.2.2, take_append_drop]
  have hlen : (r.buf.take r.off).length = r.off := length_take_of_le h.2.1
  have hread : readBE32 r.buf r.off = v := by
    rw [hsplit]
    nth_rewrite 2 [← hlen]
    exact (readBE32_append _ _ 0).trans (readBE32_writeBE32 v rest)
  rw [hbuf, hread]

section

variable (h : r.At (writeBE32 (.ofNat b.length) ++ b ++ rest))

include h

lemma At.getString (hmax : b.length ≤ max) (hlen : b.length < 2 ^ 32) :
    ∃ i r', r.getString max = (some (i, b.length), r') ∧ r'.buf = r.buf ∧
      Fields.slice r.buf i b.length = b ∧ r'.At rest := by
  rw [append_assoc] at h
  obtain ⟨r1, hu32, hbuf1, hr1⟩ := h.getU32
  have hnat : (UInt32.ofNat b.length).toNat = b.length := UInt32.toNat_ofNat_of_lt' hlen
  have hlen1 := hr1.length
  rw [length_append] at hlen1
  refine ⟨r1.off, { r1 with off := r1.off + b.length }, ?_, hbuf1, hbuf1 ▸ hr1.slice, hr1.1,
    by dsimp only; omega, ?_⟩
  · rw [Rbuf.getString, hu32]
    dsimp only
    rw [hnat, if_neg (by simp [hr1.1]), if_neg (by omega), if_neg (by omega)]
  · rw [← drop_drop, hr1.2.2, drop_left]

theorem At.getSlice (hmax : b.length ≤ max) (hlen : b.length < 2 ^ 32) :
    ∃ r', r.getSlice max = (some b, r') ∧ r'.At rest := by
  obtain ⟨i, r', hstring, hbuf, hslice, hr'⟩ := h.getString hmax hlen
  refine ⟨r', ?_, hr'⟩
  rw [Rbuf.getSlice, hstring]
  dsimp only
  rw [hbuf, hslice]

lemma At.getStringEq
    (hlen : b.length < 2 ^ 32) : ∃ r', r.getStringEq b = (true, r') ∧ r'.At rest := by
  have hmax : b.length ≤ sizeMax := by
    rw [sizeMax]
    omega
  obtain ⟨r', hslice, hr'⟩ := h.getSlice hmax hlen
  refine ⟨r', ?_, hr'⟩
  rw [Rbuf.getStringEq, hslice]
  simp

end

end Rbuf

-- messages are made of symbolic fields as well, and there is nothing to compute in those
attribute [irreducible] Wbuf.finish

end Ssh
