import Tailcat.Json.Writing

/-!
# The decoders of UTF-8

`tc_utf8_valid` of `src/cbor.c`, `scan_string` of `src/json.c` and `utf8_len`, which the writer of
JSON uses, each decode UTF-8. The first two are `Utf8.valid` and `Reader.scanString`; `utf8_len` is
translated here.

## Main results

* `utf8_checks_agree`: they accept the same strings, which are those of RFC 3629.
-/

namespace Json

open Utf8 Rfc8259 List

/-- The tests at the end of `utf8_len`: overlong, surrogate, or out of range. -/
def utf8Check (n v : ℕ) : Option (ℕ × ℕ) :=
  if n = 2 && v < 0x80 || n = 3 && v < 0x800 || n = 4 && v < 0x10000 then none
  else if 0xd800 ≤ v && v ≤ 0xdfff then none
  else if v > 0x10ffff then none
  else some (n, v)

/-- `utf8_len` behind the lead byte of a sequence of `n` bytes, with the bits `v` of that byte. -/
def utf8Tail (n v : ℕ) (rest : List UInt8) : Option (ℕ × ℕ) :=
  if rest.length + 1 < n then none
  else if (rest.take (n - 1)).any fun b => b &&& 0xc0 ≠ 0x80 then none
  else utf8Check n ((rest.take (n - 1)).foldl (fun v b => v <<< 6 ||| (b &&& 0x3f).toNat) v)

/-- `utf8_len`: the length of the sequence at the front, and its code point. -/
def utf8Len : List UInt8 → Option (ℕ × ℕ)
  | [] => none
  | c :: rest =>
    if c < 0x80 then some (1, c.toNat)
    else if c &&& 0xe0 = 0xc0 then utf8Tail 2 (c &&& 0x1f).toNat rest
    else if c &&& 0xf0 = 0xe0 then utf8Tail 3 (c &&& 0x0f).toNat rest
    else if c &&& 0xf8 = 0xf0 then utf8Tail 4 (c &&& 0x07).toNat rest
    else none

/-- Repeated use of `utf8_len` consumes a string, in as many rounds as it has bytes at most. -/
def utf8Takes : ℕ → List UInt8 → Bool
  | _, [] => true
  | 0, _ => false
  | fuel + 1, c :: rest =>
    match utf8Len (c :: rest) with
    | none => false
    | some (n, _) => utf8Takes fuel ((c :: rest).drop n)

variable {c : UInt8} {s rest : List UInt8} {n cp : ℕ}

lemma utf8Check_eq (extra cp : ℕ) :
    utf8Check (extra + 1) cp = if isScalar extra cp then some (extra + 1, cp) else none := by
  unfold utf8Check isScalar
  grind

lemma utf8Tail_eq {extra : ℕ} (h : extraOf c = some extra) :
    utf8Tail (extra + 1) (leadBits extra c) rest =
      (decode c rest).toOption.map fun x => (x.2 + 1, x.1) := by
  simp only [decode, h, utf8Tail, Nat.add_sub_cancel, Nat.add_lt_add_iff_right]
  change (if _ then none else if _ then none else utf8Check _ (codePoint _ _)) = _
  rw [utf8Check_eq]
  split_ifs <;> rfl

lemma utf8Len_cons :
    utf8Len (c :: rest) = (decode c rest).toOption.map fun x => (x.2 + 1, x.1) := by
  unfold utf8Len
  dsimp only
  split_ifs with h0 h1 h2 h3
  · have h : extraOf c = some 0 := if_pos h0
    rw [← utf8Tail_eq h]
    have hscalar : isScalar 0 c.toNat = true := by
      have hlow : c.toNat < 0x80 := UInt8.lt_iff_toNat_lt.mp h0
      exact isScalar_iff.mpr ⟨nofun, nofun, nofun, .inl (by omega)⟩
    exact (if_pos hscalar).symm.trans (utf8Check_eq 0 c.toNat).symm
  · exact utf8Tail_eq (by rw [extraOf, if_neg h0, if_pos h1])
  · exact utf8Tail_eq (by rw [extraOf, if_neg h0, if_neg h1, if_pos h2])
  · exact utf8Tail_eq (by rw [extraOf, if_neg h0, if_neg h1, if_neg h2, if_pos h3])
  · have h : extraOf c = none := by
      rw [extraOf, if_neg h0, if_neg h1, if_neg h2, if_neg h3]
    rw [decode, h]
    rfl

lemma utf8Takes_eq (fuel : ℕ) : utf8Takes fuel s = validLoop fuel s := by
  induction fuel generalizing s with
  | zero => cases s <;> rfl
  | succ fuel ih =>
    cases s with
    | nil => rfl
    | cons c rest =>
      rw [utf8Takes, utf8Len_cons, validLoop]
      cases decode c rest with
      | error e => rfl
      | ok x => exact ih

/-- A lead or continuation byte is its mark and some bits of the code point. -/
theorem toUInt8_or {m k i x y : ℕ} (hm : k <<< i = m) (hx : x < 2 ^ i) (hy : x = y) :
    (m ||| x).toUInt8 = UInt8.ofNat (y + m) := by
  rw [← hm, ← Nat.shiftLeft_add_eq_or_of_lt hx, hy, Nat.add_comm]

lemma utf8Put_toNat (ch : Char) : utf8Put ch.toNat = String.utf8EncodeChar ch := by
  have hvalid : ch.toNat.isValidChar := ch.valid
  have hcont : ∀ x : ℕ, (0x80 ||| (x &&& 0x3f)).toUInt8 = UInt8.ofNat (x % 64 + 128) := fun x =>
    toUInt8_or (k := 2) (i := 6) rfl (Nat.and_lt_two_pow x (by decide))
      (Nat.and_two_pow_sub_one_eq_mod x 6)
  rw [utf8EncodeChar_eq, utf8Put]
  simp only [hcont, Nat.shiftRight_eq_div_pow, Nat.lt_succ_iff]
  split_ifs
  · rfl
  · exact congrArg (· :: _) (toUInt8_or (k := 3) (i := 6) rfl (by omega) (by omega))
  · exact congrArg (· :: _) (toUInt8_or (k := 7) (i := 5) rfl (by omega) (by omega))
  · exact congrArg (· :: _) (toUInt8_or (k := 15) (i := 4) rfl (by omega) (by omega))

lemma utf8Put_of_utf8Len (h : utf8Len s = some (n, cp)) : utf8Put cp = s.take n := by
  cases s with
  | nil => cases h
  | cons c rest =>
    rw [utf8Len_cons] at h
    cases hdecode : decode c rest with
    | error e =>
      rw [hdecode] at h
      cases h
    | ok x =>
      rw [hdecode] at h
      cases h
      obtain ⟨-, ch, hch, henc⟩ := decode_eq_ok_iff.mp hdecode
      rw [← hch, utf8Put_toNat, henc]
      rfl

lemma escape_not_mem (hplain : ∀ b ∈ s, isPlain b = true) : escape ∉ s :=
  fun hmem => absurd (hplain _ hmem) (by decide)

/-- What stands between quotation marks without escapes is UTF-8. -/
theorem valid_of_chars (h : s ∈ chars) (hescape : escape ∉ s) : valid s = true := by
  obtain ⟨l, rfl, hl⟩ := Language.mem_kstar.mp h
  refine valid_iff.mpr ?_
  clear h
  induction l with
  | nil => exact ⟨[], rfl⟩
  | cons t l ih =>
    rw [flatten_cons, mem_append, not_or] at hescape
    obtain ⟨cs, hcs⟩ := ih (fun t ht => hl t (mem_cons_of_mem _ ht)) hescape.2
    cases hl t mem_cons_self with
    | unescaped ch _ _ _ => exact ⟨ch :: cs, by rw [flatten_cons, flatMap_cons, hcs]⟩
    | short b _ => exact absurd mem_cons_self hescape.1
    | unicode a b c d _ => exact absurd mem_cons_self hescape.1

/-- The string that `scan_string` reads from quotation marks around plain bytes is all of them. -/
theorem eq_of_quoted_isPrefix {raw : List UInt8} (hplain : ∀ b ∈ s, isPlain b = true)
    (hraw : raw ∈ chars) (h : quoted raw <+: quoted s ++ rest) : raw = s := by
  obtain ⟨t, ht⟩ := h
  simp only [quoted, cons_append, append_assoc, cons.injEq, true_and] at ht
  rcases append_eq_append_iff.mp ht with ⟨u, rfl, hu⟩ | ⟨u, rfl, hu⟩
  · cases u with
    | nil => rw [append_nil]
    | cons q u =>
      cases hu
      exact absurd (hplain quote (mem_append_right _ mem_cons_self)) (by decide)
  · cases u with
    | nil => rw [append_nil]
    | cons q u =>
      cases hu
      obtain ⟨v, rfl⟩ := escaped_of_chars hraw rfl
      exact absurd (mem_append_right v mem_cons_self) (escape_not_mem hplain)

lemma scanString_plain_iff (hplain : ∀ b ∈ s, isPlain b = true) {r : Reader}
    (hr : r.rest = quoted s ++ rest) : valid s = true ↔ ∃ x, r.scanString = .ok x := by
  constructor
  · intro h
    exact ⟨_, scanString_complete (chars_of_plain h hplain) hr⟩
  · rintro ⟨⟨lit, r'⟩, h⟩
    obtain ⟨raw, hraw, hpre, -, -⟩ := scanString_sound h
    rw [hr] at hpre
    obtain rfl := eq_of_quoted_isPrefix hplain hraw hpre
    exact valid_of_chars hraw (escape_not_mem hplain)

/-- `tc_utf8_valid` accepts the encodings of Unicode scalar values, what `utf8_len` consumes, and of
the strings that need no escape those that `scan_string` accepts between quotation marks. What
`utf8_len` decodes, `utf8_put` encodes to the same bytes. -/
theorem utf8_checks_agree (s : List UInt8) :
    (valid s = true ↔ ∃ cs : List Char, s = cs.flatMap String.utf8EncodeChar) ∧
    (valid s = true ↔ utf8Takes s.length s = true) ∧
    ((∀ b ∈ s, isPlain b = true) → ∀ (r : Reader) rest, r.rest = quoted s ++ rest →
      (valid s = true ↔ ∃ x, r.scanString = .ok x)) ∧
    ∀ n cp, utf8Len s = some (n, cp) → utf8Put cp = s.take n := by
  refine ⟨valid_iff, ?_, fun hplain r rest hr => scanString_plain_iff hplain hr,
    fun n cp h => utf8Put_of_utf8Len h⟩
  rw [utf8Takes_eq, valid]

end Json
