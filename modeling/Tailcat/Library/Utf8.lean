import Mathlib.Data.UInt

/-!
# Strict UTF-8

A decoder for one UTF-8 sequence, as programs in C write it. What it accepts is exactly what
`String.utf8EncodeChar` writes.

## Main results

* `decode_eq_ok_iff`: the decoder reads a character exactly where the encoding of one stands;
* `valid_iff`: a text is valid exactly if it is the encoding of some characters.
-/

namespace Utf8

open List

/-- What can be wrong with a sequence. -/
inductive Fault
  | invalid
  | truncated
  deriving DecidableEq, Repr

/-- How many bytes follow a lead byte. -/
def extraOf (c : UInt8) : Option ℕ :=
  if c < 0x80 then some 0
  else if c &&& 0xe0 = 0xc0 then some 1
  else if c &&& 0xf0 = 0xe0 then some 2
  else if c &&& 0xf8 = 0xf0 then some 3
  -- A continuation byte, or one of the forms with five or six bytes.
  else none

/-- The bits of the code point in a lead byte that `extra` bytes follow. -/
def leadBits (extra : ℕ) (c : UInt8) : ℕ :=
  match extra with
  | 0 => c.toNat
  | 1 => (c &&& 0x1f).toNat
  | 2 => (c &&& 0x0f).toNat
  | _ => (c &&& 0x07).toNat

def codePoint (lead : ℕ) (tail : List UInt8) : ℕ :=
  tail.foldl (fun cp cc => cp <<< 6 ||| (cc &&& 0x3f).toNat) lead

/-- The code point may be encoded with `extra` continuation bytes. -/
def isScalar (extra cp : ℕ) : Bool :=
  !(extra = 1 && cp < 0x80 || extra = 2 && cp < 0x800 || extra = 3 && cp < 0x10000) &&
    !(cp > 0x10ffff || 0xd800 ≤ cp && cp ≤ 0xdfff)

/-- The sequence with lead byte `c` at the front of a text: its code point, and how many bytes of it
follow the lead byte. -/
def decode (c : UInt8) (rest : List UInt8) : Except Fault (ℕ × ℕ) :=
  match extraOf c with
  | none => .error .invalid
  | some extra =>
    if rest.length < extra then .error .truncated
    else if (rest.take extra).any fun cc => cc &&& 0xc0 ≠ 0x80 then .error .invalid
    else
      let cp := codePoint (leadBits extra c) (rest.take extra)
      if isScalar extra cp then .ok (cp, extra) else .error .invalid

/-! ## Bytes as numbers -/

variable {c : UInt8} {n extra cp : ℕ} {rest : List UInt8} {ch : Char}

lemma extraOf_eq_some_iff :
    extraOf c = some n ↔
      n = 0 ∧ c.toNat < 0x80 ∨ n = 1 ∧ 0xc0 ≤ c.toNat ∧ c.toNat < 0xe0 ∨
        n = 2 ∧ 0xe0 ≤ c.toNat ∧ c.toNat < 0xf0 ∨ n = 3 ∧ 0xf0 ≤ c.toNat ∧ c.toNat < 0xf8 := by
  have hall : ∀ n < 256, ((n &&& 0xe0) = 0xc0 ↔ 0xc0 ≤ n ∧ n < 0xe0) ∧
      ((n &&& 0xf0) = 0xe0 ↔ 0xe0 ≤ n ∧ n < 0xf0) ∧
      ((n &&& 0xf8) = 0xf0 ↔ 0xf0 ≤ n ∧ n < 0xf8) := by decide +kernel
  obtain ⟨h1, h2, h3⟩ := hall c.toNat c.toNat_lt
  have hone : c &&& 0xe0 = 0xc0 ↔ 0xc0 ≤ c.toNat ∧ c.toNat < 0xe0 := by
    rw [← UInt8.toNat_inj]
    exact h1
  have htwo : c &&& 0xf0 = 0xe0 ↔ 0xe0 ≤ c.toNat ∧ c.toNat < 0xf0 := by
    rw [← UInt8.toNat_inj]
    exact h2
  have hthree : c &&& 0xf8 = 0xf0 ↔ 0xf0 ≤ c.toNat ∧ c.toNat < 0xf8 := by
    rw [← UInt8.toNat_inj]
    exact h3
  have hzero : c < 0x80 ↔ c.toNat < 0x80 := UInt8.lt_iff_toNat_lt
  unfold extraOf
  simp only [hzero, hone, htwo, hthree]
  split_ifs
  case neg =>
    rw [false_iff]
    omega
  all_goals
    rw [Option.some.injEq]
    omega

lemma and_c0_eq_iff (c : UInt8) : c &&& 0xc0 = 0x80 ↔ 0x80 ≤ c.toNat ∧ c.toNat < 0xc0 := by
  have hall : ∀ n < 256, ((n &&& 0xc0) = 0x80 ↔ 0x80 ≤ n ∧ n < 0xc0) := by decide +kernel
  rw [← UInt8.toNat_inj]
  exact hall c.toNat c.toNat_lt

lemma and_mask (c : UInt8) {k : ℕ} {m : UInt8} (hm : m.toNat = 2 ^ k - 1) :
    (c &&& m).toNat = c.toNat % 2 ^ k := by
  rw [UInt8.toNat_and, hm, Nat.and_two_pow_sub_one_eq_mod]

lemma codePoint_cons (lead : ℕ) (b : UInt8) (tail : List UInt8) :
    codePoint lead (b :: tail) = codePoint (lead * 64 + b.toNat % 64) tail := by
  have hlow : (b &&& 0x3f).toNat = b.toNat % 64 := and_mask b (k := 6) rfl
  rw [codePoint, foldl_cons, hlow, ← Nat.shiftLeft_add_eq_or_of_lt (Nat.mod_lt _ (by decide)),
    Nat.shiftLeft_eq]
  rfl

/-! ## Encoded characters -/

lemma isScalar_iff :
    isScalar extra cp = true ↔
      (extra = 1 → 0x80 ≤ cp) ∧ (extra = 2 → 0x800 ≤ cp) ∧ (extra = 3 → 0x10000 ≤ cp) ∧
        cp.isValidChar := by
  simp only [isScalar, Bool.and_eq_true, Bool.not_eq_true', Bool.or_eq_false_iff,
    Bool.and_eq_false_imp, decide_eq_true_eq, decide_eq_false_iff_not]
  omega

/-- What the decoder checks, with the continuation bytes as a list. -/
structure Sequence (c : UInt8) (tail : List UInt8) (cp : ℕ) : Prop where
  lead : extraOf c = some tail.length
  continuation : ∀ b ∈ tail, 0x80 ≤ b.toNat ∧ b.toNat < 0xc0
  code : codePoint (leadBits tail.length c) tail = cp
  scalar : isScalar tail.length cp = true

lemma decode_eq_ok_iff_sequence :
    decode c rest = .ok (cp, extra) ↔ extra ≤ rest.length ∧ Sequence c (rest.take extra) cp := by
  constructor
  · intro h
    unfold decode at h
    split at h
    · cases h
    rename_i n hn
    dsimp only at h
    split_ifs at h with hlen hcont hscalar
    cases h
    have htake : (rest.take extra).length = extra := length_take_of_le (by omega)
    refine ⟨by omega, ?_, ?_, ?_, ?_⟩
    · rw [htake, hn]
    · intro b hb
      by_contra hno
      have hne : b &&& 0xc0 ≠ 0x80 := fun h => hno ((and_c0_eq_iff b).mp h)
      exact hcont (any_eq_true.mpr ⟨b, hb, decide_eq_true hne⟩)
    · rw [htake]
    · rwa [htake]
  · rintro ⟨hlen, hseq⟩
    have htake : (rest.take extra).length = extra := length_take_of_le hlen
    obtain ⟨hlead, hcont, rfl, hscalar⟩ := hseq
    rw [htake] at hlead hscalar ⊢
    have hany : ¬(rest.take extra).any (fun cc => cc &&& 0xc0 ≠ 0x80) = true := by
      intro hany
      obtain ⟨b, hb, hne⟩ := any_eq_true.mp hany
      exact of_decide_eq_true hne ((and_c0_eq_iff b).mpr (hcont b hb))
    simp only [decode, hlead]
    rw [if_neg (by omega), if_neg hany, if_pos hscalar]

lemma leadBits_one (c : UInt8) : leadBits 1 c = c.toNat % 32 := and_mask c (k := 5) rfl

lemma leadBits_two (c : UInt8) : leadBits 2 c = c.toNat % 16 := and_mask c (k := 4) rfl

lemma leadBits_three (c : UInt8) : leadBits 3 c = c.toNat % 8 := and_mask c (k := 3) rfl

lemma ofNat_eq (h : n = c.toNat) : UInt8.ofNat n = c := by
  rw [h, UInt8.ofNat_toNat]

lemma utf8EncodeChar_eq (ch : Char) :
    String.utf8EncodeChar ch =
      if ch.toNat ≤ 0x7f then [UInt8.ofNat ch.toNat]
      else if ch.toNat ≤ 0x7ff then
        [UInt8.ofNat (ch.toNat / 64 % 32 + 192), UInt8.ofNat (ch.toNat % 64 + 128)]
      else if ch.toNat ≤ 0xffff then
        [UInt8.ofNat (ch.toNat / 4096 % 16 + 224), UInt8.ofNat (ch.toNat / 64 % 64 + 128),
          UInt8.ofNat (ch.toNat % 64 + 128)]
      else
        [UInt8.ofNat (ch.toNat / 262144 % 8 + 240), UInt8.ofNat (ch.toNat / 4096 % 64 + 128),
          UInt8.ofNat (ch.toNat / 64 % 64 + 128), UInt8.ofNat (ch.toNat % 64 + 128)] :=
  rfl

variable {tail : List UInt8} {s : List UInt8}

/-- A checked sequence is the encoding of its code point. -/
theorem Sequence.encode (h : Sequence c tail ch.toNat) : String.utf8EncodeChar ch = c :: tail := by
  obtain ⟨hlead, hcont, hcode, hscalar⟩ := h
  obtain ⟨h1, h2, h3, hvalid⟩ := isScalar_iff.mp hscalar
  rw [extraOf_eq_some_iff] at hlead
  rw [utf8EncodeChar_eq]
  -- The length of the tail says which of the four forms this is.
  match tail, hlead, hcont, hcode, h1, h2, h3 with
  | [], hlead, _, hcode, _, _, _ =>
    replace hcode : c.toNat = ch.toNat := hcode
    have hc : c.toNat < 0x80 := by simpa using hlead
    rw [if_pos (by omega), ofNat_eq hcode.symm]
  | [a], hlead, hcont, hcode, h1, _, _ =>
    rw [codePoint_cons, length_singleton, leadBits_one] at hcode
    replace hcode : c.toNat % 32 * 64 + a.toNat % 64 = ch.toNat := hcode
    have ha := hcont a (by simp)
    have hc : 0xc0 ≤ c.toNat ∧ c.toNat < 0xe0 := by simpa using hlead
    rw [if_neg (by omega), if_pos (by omega), ofNat_eq (c := c) (by omega),
      ofNat_eq (c := a) (by omega)]
  | [a, b], hlead, hcont, hcode, _, h2, _ =>
    rw [codePoint_cons, codePoint_cons, show [a, b].length = 2 from rfl, leadBits_two] at hcode
    replace hcode : (c.toNat % 16 * 64 + a.toNat % 64) * 64 + b.toNat % 64 = ch.toNat := hcode
    have ha := hcont a (by simp)
    have hb := hcont b (by simp)
    have hc : 0xe0 ≤ c.toNat ∧ c.toNat < 0xf0 := by simpa using hlead
    rw [if_neg (by omega), if_neg (by omega), if_pos (by omega), ofNat_eq (c := c) (by omega),
      ofNat_eq (c := a) (by omega), ofNat_eq (c := b) (by omega)]
  | [a, b, d], hlead, hcont, hcode, _, _, h3 =>
    rw [codePoint_cons, codePoint_cons, codePoint_cons, show [a, b, d].length = 3 from rfl,
      leadBits_three] at hcode
    replace hcode : ((c.toNat % 8 * 64 + a.toNat % 64) * 64 + b.toNat % 64) * 64 + d.toNat % 64 =
      ch.toNat := hcode
    have ha := hcont a (by simp)
    have hb := hcont b (by simp)
    have hd := hcont d (by simp)
    have hc : 0xf0 ≤ c.toNat ∧ c.toNat < 0xf8 := by simpa using hlead
    rw [if_neg (by omega), if_neg (by omega), if_neg (by omega), ofNat_eq (c := c) (by omega),
      ofNat_eq (c := a) (by omega), ofNat_eq (c := b) (by omega), ofNat_eq (c := d) (by omega)]
  | _ :: _ :: _ :: _ :: _, hlead, _, _, _, _, _ =>
    simp only [length_cons] at hlead
    omega

lemma Sequence.of_encode (h : String.utf8EncodeChar ch = c :: tail) : Sequence c tail ch.toNat := by
  have hvalid : ch.toNat.isValidChar := ch.valid
  have hof : ∀ n < 256, (UInt8.ofNat n).toNat = n := fun n hn => UInt8.toNat_ofNat_of_lt hn
  rw [utf8EncodeChar_eq] at h
  split_ifs at h with h1 h2 h3
  · cases h
    have hc := hof ch.toNat (by omega)
    refine ⟨extraOf_eq_some_iff.mpr (.inl ⟨rfl, by omega⟩), nofun, hc, ?_⟩
    exact isScalar_iff.mpr ⟨nofun, nofun, nofun, hvalid⟩
  · cases h
    have hc := hof (ch.toNat / 64 % 32 + 192) (by omega)
    have ha := hof (ch.toNat % 64 + 128) (by omega)
    refine ⟨extraOf_eq_some_iff.mpr (.inr (.inl ⟨rfl, by omega⟩)), ?_, ?_, ?_⟩
    · simp only [mem_singleton, forall_eq]
      omega
    · rw [codePoint_cons, length_singleton, leadBits_one]
      change _ * 64 + _ = _
      omega
    · exact isScalar_iff.mpr ⟨fun _ => by omega, nofun, nofun, hvalid⟩
  · cases h
    have hc := hof (ch.toNat / 4096 % 16 + 224) (by omega)
    have ha := hof (ch.toNat / 64 % 64 + 128) (by omega)
    have hb := hof (ch.toNat % 64 + 128) (by omega)
    refine ⟨extraOf_eq_some_iff.mpr (.inr (.inr (.inl ⟨rfl, by omega⟩))),
      ?_, ?_, ?_⟩
    · simp only [mem_cons, not_mem_nil, or_false, forall_eq_or_imp, forall_eq]
      omega
    · rw [codePoint_cons, codePoint_cons, show length [_, _] = 2 from rfl, leadBits_two]
      change (_ * 64 + _) * 64 + _ = _
      omega
    · exact isScalar_iff.mpr ⟨nofun, fun _ => by omega, nofun, hvalid⟩
  · cases h
    have hc := hof (ch.toNat / 262144 % 8 + 240) (by omega)
    have ha := hof (ch.toNat / 4096 % 64 + 128) (by omega)
    have hb := hof (ch.toNat / 64 % 64 + 128) (by omega)
    have hd := hof (ch.toNat % 64 + 128) (by omega)
    refine ⟨extraOf_eq_some_iff.mpr (.inr (.inr (.inr ⟨rfl, by omega⟩))),
      ?_, ?_, ?_⟩
    · simp only [mem_cons, not_mem_nil, or_false, forall_eq_or_imp, forall_eq]
      omega
    · rw [codePoint_cons, codePoint_cons, codePoint_cons, show length [_, _, _] = 3 from rfl,
        leadBits_three]
      change ((_ * 64 + _) * 64 + _) * 64 + _ = _
      omega
    · exact isScalar_iff.mpr ⟨nofun, nofun, fun _ => by omega, hvalid⟩

/-- The decoder reads a character exactly where the encoding of one stands. -/
theorem decode_eq_ok_iff :
    decode c rest = .ok (cp, extra) ↔ extra ≤ rest.length ∧
      ∃ ch : Char, ch.toNat = cp ∧ String.utf8EncodeChar ch = c :: rest.take extra := by
  rw [decode_eq_ok_iff_sequence]
  refine and_congr_right fun _ => ⟨?_, ?_⟩
  · intro h
    have hvalid := (isScalar_iff.mp h.scalar).2.2.2
    exact ⟨Char.ofNatAux cp hvalid, rfl, Sequence.encode h⟩
  · rintro ⟨ch, rfl, h⟩
    exact .of_encode h

lemma encode_ascii (h : String.utf8EncodeChar ch = c :: tail)
    (hlow : c.toNat < 0x80 ∨ ch.toNat < 0x80) :
    c.toNat = ch.toNat := by
  rcases hlow with hlow | hlow
  · obtain ⟨hlead, -, hcode, -⟩ := Sequence.of_encode h
    have hlen : tail.length = 0 := by
      have := extraOf_eq_some_iff.mp hlead
      omega
    obtain rfl := eq_nil_of_length_eq_zero hlen
    exact hcode
  · rw [utf8EncodeChar_eq, if_pos (by omega)] at h
    cases h
    exact UInt8.toNat_ofNat_of_lt (Nat.lt_trans hlow (by decide))

lemma encode_mem {b : UInt8} (h : b ∈ String.utf8EncodeChar ch) :
    b.toNat = ch.toNat ∨ 0x80 ≤ b.toNat := by
  rw [utf8EncodeChar_eq] at h
  have hof : ∀ n < 256, (UInt8.ofNat n).toNat = n := fun n hn => UInt8.toNat_ofNat_of_lt hn
  split_ifs at h
  · rw [mem_singleton.mp h, hof _ (by omega)]
    exact .inl rfl
  all_goals
    right
    simp only [mem_cons, not_mem_nil, or_false] at h
  · rcases h with rfl | rfl <;> rw [hof _ (by omega)] <;> omega
  · rcases h with rfl | rfl | rfl <;> rw [hof _ (by omega)] <;> omega
  · rcases h with rfl | rfl | rfl | rfl <;> rw [hof _ (by omega)] <;> omega

/-! ## Texts -/

/-- A text of UTF-8 sequences, checked in as many rounds as there are bytes at most. -/
def validLoop : ℕ → List UInt8 → Bool
  | _, [] => true
  | 0, _ => false
  | fuel + 1, c :: rest =>
    match decode c rest with
    | .error _ => false
    | .ok (_, extra) => validLoop fuel (rest.drop extra)

def valid (s : List UInt8) : Bool := validLoop s.length s

lemma validLoop_iff {fuel : ℕ} (hfuel : s.length ≤ fuel) :
    validLoop fuel s = true ↔ ∃ chars : List Char, s = chars.flatMap String.utf8EncodeChar := by
  induction fuel generalizing s with
  | zero =>
    obtain rfl := eq_nil_of_length_eq_zero (Nat.le_zero.mp hfuel)
    exact ⟨fun _ => ⟨[], rfl⟩, fun _ => rfl⟩
  | succ fuel ih =>
    cases s with
    | nil => exact ⟨fun _ => ⟨[], rfl⟩, fun _ => rfl⟩
    | cons c rest =>
      have hdrop : ∀ extra, (rest.drop extra).length ≤ fuel := by
        intro extra
        rw [length_drop]
        rw [length_cons] at hfuel
        omega
      constructor
      · intro h
        rw [validLoop] at h
        split at h
        · cases h
        rename_i cp extra hdecode
        obtain ⟨-, ch, -, hch⟩ := decode_eq_ok_iff.mp hdecode
        obtain ⟨chars, hchars⟩ := (ih (hdrop extra)).mp h
        refine ⟨ch :: chars, ?_⟩
        rw [flatMap_cons, hch, ← hchars, cons_append, take_append_drop]
      · rintro ⟨chars, hchars⟩
        cases chars with
        | nil => cases hchars
        | cons ch chars =>
          rw [flatMap_cons] at hchars
          cases hch : String.utf8EncodeChar ch with
          | nil => exact absurd hch String.utf8EncodeChar_ne_nil
          | cons c' tail =>
            rw [hch, cons_append] at hchars
            obtain ⟨rfl, rfl⟩ := hchars
            have hdecode : decode c (tail ++ chars.flatMap String.utf8EncodeChar) =
                .ok (ch.toNat, tail.length) := by
              rw [decode_eq_ok_iff, take_left, length_append]
              exact ⟨by omega, ch, rfl, hch⟩
            rw [validLoop, hdecode]
            have hrest := (ih (hdrop tail.length)).mpr ⟨chars, drop_left⟩
            exact hrest

/-- A text is valid exactly if it is the encoding of some characters. -/
theorem valid_iff : valid s = true ↔ ∃ chars : List Char, s = chars.flatMap String.utf8EncodeChar :=
  validLoop_iff le_rfl

lemma valid_of_ascii (h : ∀ b ∈ s, b.toNat < 0x80) : valid s = true := by
  refine valid_iff.mpr ⟨s.map fun b => Char.ofNat b.toNat, ?_⟩
  induction s with
  | nil => rfl
  | cons b s ih =>
    have hb := h b mem_cons_self
    have hnat : (Char.ofNat b.toNat).toNat = b.toNat := by
      have hvalid : b.toNat.isValidChar := Or.inl (by omega)
      rw [Char.ofNat, dif_pos hvalid]
      rfl
    have hchar : String.utf8EncodeChar (Char.ofNat b.toNat) = [b] := by
      rw [utf8EncodeChar_eq, hnat, if_pos (by omega), ofNat_eq rfl]
    rw [map_cons, flatMap_cons, hchar, singleton_append,
      ← ih fun c hc => h c (mem_cons_of_mem b hc)]

end Utf8
