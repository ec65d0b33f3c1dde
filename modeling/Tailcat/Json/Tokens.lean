import Tailcat.Json.Reader
import Tailcat.Library.Utf8

/-!
# Strings and numbers of the reader

What is scanned is a literal of the grammar, and a literal at the front of the text is scanned as a
whole, a number if nothing follows that could belong to it.

## Main results

* `scanString_sound` and `scanString_complete`;
* `scanNumber_sound` and `scanNumber_complete`.
-/

namespace Json

open Utf8 Rfc8259 List

lemma map_eq_ok {ε α β : Type} {x : Except ε α} {f : α → β} {b : β} (h : x.map f = .ok b) :
    ∃ a, x = .ok a ∧ f a = b := by
  cases x with
  | error e => cases h
  | ok a => exact ⟨a, rfl, Except.ok.inj h⟩

/-! ## Characters of a string -/

variable {c : UInt8} {t rest s ds frac exp : List UInt8} {n fuel : ℕ}

lemma ne_quote_of_isChar (h : IsChar (c :: t)) : c ≠ quote := by
  generalize hs : c :: t = s at h
  cases h with
  | unescaped ch hctl hquote hescape =>
    rintro rfl
    have hch := encode_ascii hs.symm (.inl (by decide))
    exact hquote hch.symm
  | short b h =>
    cases hs
    decide
  | unicode a b c d h =>
    cases hs
    decide

/-- What `scan_string` returns for a fault of the decoder. -/
def faultErr : Fault → Err
  | .invalid => .inval
  | .truncated => .trunc

lemma scanSequence_eq {extra : ℕ} (h : extraOf c = some extra) :
    scanSequence c extra rest = ((decode c rest).map (·.2 + 1)).mapError faultErr := by
  have hlead : leadBits extra c =
      if extra = 0 then c.toNat else c.toNat &&& (0xff >>> (extra + 2)) := by
    obtain ⟨rfl, -⟩ | ⟨rfl, -⟩ | ⟨rfl, -⟩ | ⟨rfl, -⟩ := extraOf_eq_some_iff.mp h <;> rfl
  simp only [decode, h, scanSequence, hlead, codePoint]
  generalize foldl _ _ _ = cp
  unfold isScalar
  split_ifs <;> first | rfl | grind

/-- A character that is no escape is decoded as `Utf8.decode` does it. -/
lemma scanChar_eq (hctl : ¬c < 0x20) (hesc : c ≠ escape) :
    scanChar c rest = ((decode c rest).map (·.2 + 1)).mapError faultErr := by
  rw [scanChar, if_neg hctl, if_neg hesc]
  split_ifs with h0 h1 h2 h3
  · exact scanSequence_eq (if_pos h0)
  · exact scanSequence_eq (by rw [extraOf, if_neg h0, if_pos h1])
  · exact scanSequence_eq (by rw [extraOf, if_neg h0, if_neg h1, if_pos h2])
  · exact scanSequence_eq (by rw [extraOf, if_neg h0, if_neg h1, if_neg h2, if_pos h3])
  · rw [decode, show extraOf c = none by
      rw [extraOf, if_neg h0, if_neg h1, if_neg h2, if_neg h3]]
    rfl

lemma scanChar_sound (hq : c ≠ quote) (h : scanChar c rest = .ok n) :
    ∃ t, IsChar (c :: t) ∧ t <+: rest ∧ n = t.length + 1 := by
  by_cases hctl : c < 0x20
  · rw [scanChar, if_pos hctl] at h
    cases h
  by_cases hesc : c = escape
  · subst hesc
    rw [scanChar, if_neg hctl, if_pos rfl] at h
    cases rest with
    | nil => cases h
    | cons e rest =>
      unfold scanEscape at h
      dsimp only at h
      split_ifs at h with hshort hu hlen hhex
      · cases h
        exact ⟨[e], .short e hshort, ⟨rest, rfl⟩, rfl⟩
      · cases h
      · cases h
        subst hu
        match rest, hlen, hhex with
        | a :: b :: c :: d :: rest, _, hhex =>
          refine ⟨[0x75, a, b, c, d], .unicode a b c d ?_, ⟨rest, rfl⟩, rfl⟩
          intro x hx
          exact all_eq_true.mp hhex x hx
        | [], hlen, _ => exact absurd (by decide) hlen
        | [_], hlen, _ => exact absurd (by simp) hlen
        | [_, _], hlen, _ => exact absurd (by simp) hlen
        | [_, _, _], hlen, _ => exact absurd (by simp) hlen
      · cases h
      · cases h
  · rw [scanChar_eq hctl hesc] at h
    cases hdecode : decode c rest with
    | error e =>
      rw [hdecode] at h
      cases h
    | ok x =>
      obtain ⟨cp, extra⟩ := x
      rw [hdecode] at h
      cases h
      obtain ⟨hle, ch, -, hch⟩ := decode_eq_ok_iff.mp hdecode
      refine ⟨rest.take extra, ?_, take_prefix extra rest, ?_⟩
      · -- The three excluded characters are ASCII, so that they would be the byte itself.
        have hval : ∀ k : UInt8, k.toNat < 0x80 → ch.toNat = k.toNat → c = k := by
          intro k hk heq
          have hc := encode_ascii hch (.inr (by omega))
          exact UInt8.toNat_inj.mp (hc.trans heq)
        rw [← hch]
        refine .unescaped ch ?_ ?_ ?_
        · by_contra hlow
          have hc := encode_ascii hch (.inr (by omega))
          exact hctl (UInt8.lt_iff_toNat_lt.mpr (by
            rw [hc]
            exact Nat.lt_of_not_le hlow))
        · exact fun heq => hq (hval quote (by decide) heq)
        · exact fun heq => hesc (hval escape (by decide) heq)
      · rw [length_take_of_le hle]

lemma scanChar_complete (h : IsChar (c :: t)) (tail : List UInt8) :
    scanChar c (t ++ tail) = .ok (t.length + 1) := by
  generalize hs : c :: t = s at h
  cases h with
  | unescaped ch hctl hquote hescape =>
    have hval : c.toNat < 0x80 → c.toNat = ch.toNat := fun hlow =>
      encode_ascii hs.symm (.inl hlow)
    have hdecode : decode c (t ++ tail) = .ok (ch.toNat, t.length) := by
      rw [decode_eq_ok_iff, take_left, length_append]
      exact ⟨by omega, ch, rfl, hs.symm⟩
    have hnc : ¬c < 0x20 := by
      intro hlow
      have hlow' : c.toNat < 0x20 := UInt8.lt_iff_toNat_lt.mp hlow
      omega
    have hne : c ≠ escape := by
      rintro rfl
      exact hescape (hval (by decide)).symm
    rw [scanChar_eq hnc hne, hdecode]
    rfl
  | short b h =>
    cases hs
    rw [scanChar, singleton_append, scanEscape, if_pos h]
    rfl
  | unicode a b c d h =>
    cases hs
    have hall : ([a, b, c, d] ++ tail).take 4 = [a, b, c, d] := rfl
    have hhex : [a, b, c, d].all isHex = true := all_eq_true.mpr h
    rw [scanChar, if_neg (by decide), if_pos rfl, cons_append, scanEscape,
      if_neg (by decide), if_pos rfl, hall, if_pos hhex]
    rfl

/-! ## Strings -/

lemma chars_nil : [] ∈ chars := Language.nil_mem_kstar _

lemma chars_cons (ht : IsChar t) (hs : s ∈ chars) : t ++ s ∈ chars := by
  obtain ⟨l, rfl, hl⟩ := Language.mem_kstar.mp hs
  refine Language.mem_kstar.mpr ⟨t :: l, rfl, ?_⟩
  intro y hy
  rcases mem_cons.mp hy with rfl | hy
  · exact ht
  · exact hl y hy

lemma scanChars_sound (h : scanChars fuel s = .ok n) :
    ∃ raw rest, raw ∈ chars ∧ s = raw ++ quote :: rest ∧ n = raw.length := by
  induction fuel generalizing s n with
  | zero => cases s <;> cases h
  | succ fuel ih =>
    cases s with
    | nil => cases h
    | cons c rest =>
      rw [scanChars] at h
      split_ifs at h with hq
      · cases h
        subst hq
        exact ⟨[], rest, chars_nil, rfl, rfl⟩
      split at h
      · cases h
      rename_i k hk
      obtain ⟨t, ht, ⟨tail, rfl⟩, rfl⟩ := scanChar_sound hq hk
      rw [drop_succ_cons, drop_left] at h
      obtain ⟨m, hm, ⟨⟩⟩ := map_eq_ok h
      obtain ⟨raw, rest, hraw, rfl, rfl⟩ := ih hm
      refine ⟨c :: t ++ raw, rest, chars_cons ht hraw, ?_, ?_⟩
      · rw [cons_append, cons_append, append_assoc]
      · rw [length_append, length_cons]

lemma scanChars_complete {l : List (List UInt8)} (hl : ∀ t ∈ l, IsChar t)
    (hfuel : (l.flatten ++ quote :: rest).length ≤ fuel) :
    scanChars fuel (l.flatten ++ quote :: rest) = .ok l.flatten.length := by
  induction l generalizing fuel with
  | nil =>
    cases fuel with
    | zero => exact absurd hfuel (by simp)
    | succ fuel => rfl
  | cons t l ih =>
    have ht := hl t mem_cons_self
    cases t with
    | nil =>
      generalize hs : ([] : List UInt8) = s at ht
      cases ht with
      | unescaped ch _ _ _ => exact absurd hs.symm String.utf8EncodeChar_ne_nil
      | short b h => cases hs
      | unicode a b c d h => cases hs
    | cons c t =>
      cases fuel with
      | zero => exact absurd hfuel (by simp)
      | succ fuel =>
        have hfuel' : (l.flatten ++ quote :: rest).length ≤ fuel := by
          simp only [flatten_cons, length_append, length_cons] at hfuel ⊢
          omega
        have hrest := ih (fun u hu => hl u (mem_cons_of_mem _ hu)) hfuel'
        rw [flatten_cons, append_assoc, cons_append, scanChars,
          if_neg (ne_quote_of_isChar ht), scanChar_complete ht]
        dsimp only
        rw [drop_succ_cons, drop_left, hrest, length_append]
        rfl

/-- `scan_string` accepts string literals only. -/
theorem scanString_sound {r r' : Reader} {s : Literal} (h : r.scanString = .ok (s, r')) :
    ∃ raw ∈ chars, quoted raw <+: r.rest ∧ s = ⟨r.pos + 1, raw⟩ ∧
      r' = r.advance (quoted raw).length := by
  unfold Reader.scanString at h
  split at h
  · cases h
  rename_i c rest hrest
  split_ifs at h with hq
  split at h
  · cases h
  rename_i n hn
  obtain ⟨raw, tail, hraw, rfl, rfl⟩ := scanChars_sound hn
  rw [take_left] at h
  cases h
  refine ⟨raw, hraw, ⟨tail, ?_⟩, rfl, ?_⟩
  · rw [hrest, hq, quoted, cons_append, append_assoc, singleton_append]
  · rw [quoted, length_cons, length_append, length_singleton]

/-- `scan_string` reads a string literal as a whole. -/
theorem scanString_complete {r : Reader} {raw : List UInt8} (hraw : raw ∈ chars)
    (h : r.rest = quoted raw ++ rest) :
    r.scanString = .ok (⟨r.pos + 1, raw⟩, r.advance (quoted raw).length) := by
  obtain ⟨l, rfl, hl⟩ := Language.mem_kstar.mp hraw
  rw [quoted, cons_append, append_assoc, singleton_append] at h
  unfold Reader.scanString
  rw [h]
  dsimp only
  rw [if_pos rfl, scanChars_complete hl le_rfl]
  dsimp only
  rw [take_left, quoted, length_cons, length_append, length_singleton]

/-! ## Parts of a number -/

def NoDigit (rest : List UInt8) : Prop := ∀ b ∈ rest.head?, isDigit b = false

def Follow (rest : List UInt8) : Prop :=
  ∀ b ∈ rest.head?, isDigit b = false ∧ b ≠ 0x2e ∧ b ≠ 0x65 ∧ b ≠ 0x45

lemma takeWhile_isDigit (hds : ∀ d ∈ ds, isDigit d = true) (hrest : NoDigit rest) :
    (ds ++ rest).takeWhile isDigit = ds := by
  rw [takeWhile_append_of_pos hds]
  cases rest with
  | nil => rw [takeWhile_nil, append_nil]
  | cons b rest =>
    rw [takeWhile_cons_of_neg (by rw [hrest b rfl]; exact Bool.false_ne_true), append_nil]

lemma scanInt_sound (h : scanInt s = .ok ds) : IsInt ds ∧ ds <+: s := by
  cases s with
  | nil => cases h
  | cons c rest =>
    rw [scanInt] at h
    split_ifs at h with hzero hdigit
    · cases h
      exact ⟨.inl (by rw [hzero]), ⟨rest, rfl⟩⟩
    cases h
    have hc : isDigit c = true := by
      rw [isDigit, Bool.and_eq_true, decide_eq_true_iff, decide_eq_true_iff]
      rw [Bool.and_eq_true, decide_eq_true_iff, decide_eq_true_iff] at hdigit
      exact ⟨le_trans (b := 0x31) (by decide) hdigit.1, hdigit.2⟩
    refine ⟨.inr ⟨⟨?_, fun d hd => mem_takeWhile_imp hd⟩, ?_⟩, takeWhile_prefix _⟩
    · rw [takeWhile_cons_of_pos hc]
      exact cons_ne_nil _ _
    · rw [takeWhile_cons_of_pos hc]
      exact fun heq => hzero (Option.some.inj heq)

lemma scanInt_complete (h : IsInt ds) (hrest : NoDigit rest) : scanInt (ds ++ rest) = .ok ds := by
  rcases h with rfl | ⟨⟨hne, hds⟩, hzero⟩
  · rfl
  cases ds with
  | nil => exact absurd rfl hne
  | cons c ds =>
    have hc := hds c mem_cons_self
    have hc0 : c ≠ 0x30 := fun heq => hzero (congrArg some heq)
    have hc1 : (0x31 ≤ c && c ≤ 0x39) = true := by
      rw [isDigit, Bool.and_eq_true, decide_eq_true_iff, decide_eq_true_iff] at hc
      rw [Bool.and_eq_true, decide_eq_true_iff, decide_eq_true_iff]
      rw [UInt8.le_iff_toNat_le] at hc ⊢
      have hne0 : c.toNat ≠ 0x30 := fun heq => hc0 (UInt8.toNat_inj.mp heq)
      have h0 : (0x30 : UInt8).toNat = 0x30 := rfl
      have h1 : (0x31 : UInt8).toNat = 0x31 := rfl
      exact ⟨by omega, hc.2⟩
    have htake := takeWhile_isDigit hds hrest
    rw [cons_append] at htake ⊢
    rw [scanInt, if_neg hc0, if_pos hc1, htake]

lemma scanDigits_sound (h : scanDigits s = .ok ds) : Digits ds ∧ ds <+: s := by
  unfold scanDigits at h
  split_ifs at h with hnil
  cases h
  exact ⟨⟨hnil, fun d hd => mem_takeWhile_imp hd⟩, takeWhile_prefix _⟩

lemma scanDigits_complete (h : Digits ds) (hrest : NoDigit rest) :
    scanDigits (ds ++ rest) = .ok ds := by
  rw [scanDigits, takeWhile_isDigit h.2 hrest, if_neg h.1]

lemma scanFrac_sound (h : scanFrac s = .ok t) : (t = [] ∨ IsFrac t) ∧ t <+: s := by
  cases s with
  | nil =>
    cases h
    exact ⟨.inl rfl, nil_prefix⟩
  | cons c rest =>
    rw [scanFrac] at h
    split_ifs at h with hpoint
    · obtain ⟨ds, hds, ⟨⟩⟩ := map_eq_ok h
      obtain ⟨hdigits, tail, rfl⟩ := scanDigits_sound hds
      exact ⟨.inr ⟨ds, hdigits, by rw [hpoint]⟩, ⟨tail, rfl⟩⟩
    · cases h
      exact ⟨.inl rfl, nil_prefix⟩

lemma scanFrac_complete (h : t = [] ∨ IsFrac t) (hrest : NoDigit rest)
    (hpoint : t = [] → rest.head? ≠ some 0x2e) : scanFrac (t ++ rest) = .ok t := by
  rcases h with rfl | ⟨ds, hds, rfl⟩
  · cases rest with
    | nil => rfl
    | cons c rest =>
      rw [nil_append, scanFrac, if_neg fun heq => hpoint rfl (congrArg some heq)]
  · rw [cons_append, scanFrac, scanDigits_complete hds hrest]
    rfl

lemma scanSign_sound (s : List UInt8) :
    (scanSign s = [] ∨ scanSign s = [0x2b] ∨ scanSign s = [0x2d]) ∧ scanSign s <+: s := by
  cases s with
  | nil => exact ⟨.inl rfl, nil_prefix⟩
  | cons c rest =>
    rw [scanSign]
    split_ifs with hsign
    · refine ⟨.inr ?_, ⟨rest, rfl⟩⟩
      simpa using hsign
    · exact ⟨.inl rfl, nil_prefix⟩

lemma scanSign_complete {sign : List UInt8} (h : sign = [] ∨ sign = [0x2b] ∨ sign = [0x2d])
    (hds : Digits ds) (rest : List UInt8) : scanSign (sign ++ (ds ++ rest)) = sign := by
  rcases h with rfl | rfl | rfl
  · cases ds with
    | nil => exact absurd rfl hds.1
    | cons d ds =>
      -- a digit is no sign
      have hd := hds.2 d mem_cons_self
      have hno : (d = 0x2b || d = 0x2d) = false := by
        rw [Bool.or_eq_false_iff, decide_eq_false_iff_not, decide_eq_false_iff_not]
        constructor
        · rintro rfl
          exact absurd hd (by decide)
        · rintro rfl
          exact absurd hd (by decide)
      rw [nil_append, cons_append, scanSign, hno]
      rfl
  · rfl
  · rfl

lemma scanExp_sound (h : scanExp s = .ok t) : (t = [] ∨ IsExp t) ∧ t <+: s := by
  cases s with
  | nil =>
    cases h
    exact ⟨.inl rfl, nil_prefix⟩
  | cons c rest =>
    rw [scanExp] at h
    split_ifs at h with he
    · obtain ⟨hsign, hpre⟩ := scanSign_sound rest
      have htail := prefix_iff_eq_append.mp hpre
      obtain ⟨ds, hds, ⟨⟩⟩ := map_eq_ok h
      obtain ⟨hdigits, tail', htail'⟩ := scanDigits_sound hds
      refine ⟨.inr ⟨c, scanSign rest, ds, by simpa using he, hsign, hdigits, rfl⟩, tail', ?_⟩
      rw [cons_append, cons_append, append_assoc, htail', htail]
    · cases h
      exact ⟨.inl rfl, nil_prefix⟩

lemma scanExp_complete (h : t = [] ∨ IsExp t) (hrest : NoDigit rest)
    (hexp : t = [] → ∀ b ∈ rest.head?, b ≠ 0x65 ∧ b ≠ 0x45) : scanExp (t ++ rest) = .ok t := by
  rcases h with rfl | ⟨e, sign, ds, he, hsign, hds, rfl⟩
  · cases rest with
    | nil => rfl
    | cons c rest =>
      have hc := hexp rfl c rfl
      rw [nil_append, scanExp, if_neg (by simpa using hc)]
  · rw [cons_append, append_assoc, scanExp, if_pos (by simpa using he),
      scanSign_complete hsign hds, drop_left, scanDigits_complete hds hrest]
    rfl

/-! ## The integer of a number -/

/-- The integer that is reported for a number: the one that it denotes, if it fits a signed 64-bit
value. -/
def reported (n : Number) : Option ℤ := n.integer.filter fun z => -2 ^ 63 ≤ z ∧ z < 2 ^ 63

lemma decimal_concat (ds : List UInt8) (d : UInt8) :
    decimal (ds ++ [d]) = decimal ds * 10 + (d.toNat - 0x30) := by
  rw [decimal, reverse_append, reverse_singleton, singleton_append, map_cons,
    Nat.ofDigits_cons, decimal]
  ring

lemma magnitude_eq (hds : ∀ d ∈ ds, isDigit d = true) :
    magnitude ds = if decimal ds < 2 ^ 64 then some (decimal ds) else none := by
  induction ds using reverseRecOn with
  | nil => rfl
  | append_singleton ds d ih =>
    have hd : d.toNat - 0x30 ≤ 9 := by
      have hd := hds d (by simp)
      rw [isDigit, Bool.and_eq_true, decide_eq_true_iff, decide_eq_true_iff] at hd
      have hle : d.toNat ≤ 0x39 := UInt8.le_iff_toNat_le.mp hd.2
      omega
    have ih := ih fun b hb => hds b (mem_append_left [d] hb)
    rw [decimal_concat]
    -- Once the magnitude has overflowed, it only grows.
    have hstep : magnitude (ds ++ [d]) = (magnitude ds).bind fun mag => addDigit mag d := by
      simp [magnitude]
    rw [hstep, ih]
    split_ifs
    · rw [Option.bind_some, addDigit, if_neg (by omega)]
    · rw [Option.bind_some, addDigit, if_pos (by omega)]
    · omega
    · rfl

lemma toInt64_eq (hds : ∀ d ∈ ds, isDigit d = true) (neg : Bool) :
    toInt64 neg ds = (some (if neg then -(decimal ds : ℤ) else decimal ds)).filter
      fun z => -2 ^ 63 ≤ z ∧ z < 2 ^ 63 := by
  unfold toInt64
  rw [magnitude_eq hds, int64Max]
  by_cases hlt : decimal ds < 2 ^ 64
  · rw [if_pos hlt]
    cases neg with
    | true =>
      simp only [Option.filter_some, decide_eq_true_eq]
      split_ifs <;> first | rfl | omega
    | false =>
      simp only [Option.filter_some, decide_eq_true_eq]
      split_ifs <;> first | rfl | omega
  · rw [if_neg hlt]
    symm
    cases neg with
    | true => simp; omega
    | false => simp; omega

lemma digits_of_isInt (h : IsInt ds) : ∀ d ∈ ds, isDigit d = true := by
  rcases h with rfl | ⟨h, -⟩
  · decide +kernel
  · exact h.2

/-- An integer begins with a digit. -/
theorem int_eq_cons (n : Number) : ∃ c ds, n.int = c :: ds ∧ isDigit c = true := by
  obtain ⟨c, ds, hc⟩ : ∃ c ds, n.int = c :: ds := by
    rcases n.isInt with hz | ⟨⟨hne, -⟩, -⟩
    · exact ⟨0x30, [], hz⟩
    · exact exists_cons_of_ne_nil hne
  exact ⟨c, ds, hc, digits_of_isInt n.isInt c (by rw [hc]; exact mem_cons_self)⟩

lemma reported_eq (n : Number) :
    reported n = if n.frac.isEmpty && n.exp.isEmpty then toInt64 n.minus n.int else none := by
  rw [toInt64_eq (digits_of_isInt n.isInt), reported, Number.integer]
  simp only [List.isEmpty_iff, Bool.and_eq_true]
  split_ifs <;> rfl

/-! ## Numbers -/

lemma parts_sound {int : List UInt8} (hint : scanInt s = .ok int)
    (hfrac : scanFrac (s.drop int.length) = .ok frac)
    (hexp : scanExp (s.drop (int.length + frac.length)) = .ok exp) (minus : Bool) :
    ∃ n : Number, n.minus = minus ∧ n.int = int ∧ n.frac = frac ∧ n.exp = exp ∧
      int ++ (frac ++ exp) <+: s := by
  obtain ⟨hisInt, hpre⟩ := scanInt_sound hint
  obtain ⟨hisFrac, hpre'⟩ := scanFrac_sound hfrac
  obtain ⟨hisExp, hpre''⟩ := scanExp_sound hexp
  refine ⟨⟨minus, int, frac, exp, hisInt, hisFrac, hisExp⟩, rfl, rfl, rfl, rfl, ?_⟩
  -- each part stands behind the one before it
  rw [← prefix_iff_eq_append.mp hpre, prefix_append_right_inj,
    ← prefix_iff_eq_append.mp hpre', prefix_append_right_inj, drop_drop]
  exact hpre''

/-- `scan_number` accepts numbers only, and reports the integer that they denote. -/
theorem scanNumber_sound {k : ℕ} {num : Option ℤ} (h : scanNumber s = .ok (k, num)) :
    ∃ n : Number, n.text <+: s ∧ k = n.text.length ∧ num = reported n := by
  unfold scanNumber at h
  simp only [bind, Except.bind] at h
  split at h
  · cases h
  next int hint =>
  split at h
  · cases h
  next frac hfrac =>
  split at h
  · cases h
  next exp hexp =>
  cases h
  by_cases hneg : s.head? = some 0x2d
  · obtain ⟨s, rfl⟩ : ∃ t, s = 0x2d :: t := by
      cases s with
      | nil => cases hneg
      | cons c t => exact ⟨t, by rw [Option.some.inj hneg]⟩
    rw [if_pos hneg, Nat.add_comm] at hfrac
    rw [if_pos hneg, Nat.add_comm 1, Nat.add_right_comm] at hexp
    obtain ⟨n, hminus, rfl, rfl, rfl, hpre⟩ := parts_sound hint hfrac hexp true
    refine ⟨n, ?_, ?_, ?_⟩
    · rw [Number.text, hminus, if_pos rfl]
      exact cons_prefix_cons.mpr ⟨rfl, hpre⟩
    · rw [Number.text, hminus, if_pos rfl, if_pos hneg]
      simp only [length_append, length_singleton]
      omega
    · rw [reported_eq, hminus, decide_eq_true hneg]
  · rw [if_neg hneg, Nat.zero_add] at hfrac
    rw [if_neg hneg, Nat.zero_add] at hexp
    rw [if_neg hneg] at hint
    obtain ⟨n, hminus, rfl, rfl, rfl, hpre⟩ := parts_sound hint hfrac hexp false
    refine ⟨n, ?_, ?_, ?_⟩
    · rw [Number.text, hminus, if_neg Bool.false_ne_true]
      exact hpre
    · rw [Number.text, hminus, if_neg Bool.false_ne_true, if_neg hneg]
      simp only [length_append, length_nil]
      omega
    · rw [reported_eq, hminus, decide_eq_false hneg]

lemma follow_exp (h : exp = [] ∨ IsExp exp) (hrest : Follow rest) :
    ∀ b ∈ (exp ++ rest).head?, isDigit b = false ∧ b ≠ 0x2e := by
  rcases h with rfl | ⟨e, sign, ds, he, -, -, rfl⟩
  · intro b hb
    exact ⟨(hrest b hb).1, (hrest b hb).2.1⟩
  · intro b hb
    cases hb
    rcases he with rfl | rfl <;> decide

lemma noDigit_frac (h : frac = [] ∨ IsFrac frac) (hrest : NoDigit rest) :
    NoDigit (frac ++ rest) := by
  rcases h with rfl | ⟨ds, -, rfl⟩
  · exact hrest
  intro b hb
  cases hb
  decide

/-- `scan_number` reads a number as a whole. -/
theorem scanNumber_complete (n : Number) (h : Follow rest) :
    scanNumber (n.text ++ rest) = .ok (n.text.length, reported n) := by
  have hexp : scanExp (n.exp ++ rest) = .ok n.exp :=
    scanExp_complete n.isExp (fun b hb => (h b hb).1) fun _ b hb => (h b hb).2.2
  have hfollow := follow_exp n.isExp h
  have hfrac : scanFrac (n.frac ++ (n.exp ++ rest)) = .ok n.frac :=
    scanFrac_complete n.isFrac (fun b hb => (hfollow b hb).1) fun _ hb => (hfollow _ hb).2 rfl
  have hint : scanInt (n.int ++ (n.frac ++ (n.exp ++ rest))) = .ok n.int :=
    scanInt_complete n.isInt (noDigit_frac n.isFrac fun b hb => (hfollow b hb).1)
  rw [reported_eq]
  cases hminus : n.minus with
  | true =>
    have htext : n.text ++ rest = 0x2d :: (n.int ++ (n.frac ++ (n.exp ++ rest))) := by
      simp [Number.text, hminus]
    have hlen : n.text.length = 1 + n.int.length + n.frac.length + n.exp.length := by
      simp [Number.text, hminus]
      omega
    have hdrop : ∀ k, (0x2d :: (n.int ++ (n.frac ++ (n.exp ++ rest)))).drop (1 + k) =
        (n.int ++ (n.frac ++ (n.exp ++ rest))).drop k := by
      intro k
      rw [Nat.add_comm, drop_succ_cons]
    have hneg : (0x2d :: (n.int ++ (n.frac ++ (n.exp ++ rest)))).head? = some 0x2d := rfl
    rw [htext, hlen]
    simp only [scanNumber, bind, Except.bind, hneg, if_true]
    rw [drop_one, tail_cons, hint]
    dsimp only
    rw [hdrop, drop_left, hfrac]
    dsimp only
    rw [Nat.add_assoc, hdrop, ← drop_drop, drop_left, drop_left, hexp]
    rfl
  | false =>
    have htext : n.text ++ rest = n.int ++ (n.frac ++ (n.exp ++ rest)) := by
      simp [Number.text, hminus]
    have hlen : n.text.length = n.int.length + n.frac.length + n.exp.length := by
      simp [Number.text, hminus]
      omega
    have hneg : (n.int ++ (n.frac ++ (n.exp ++ rest))).head? ≠ some 0x2d := by
      obtain ⟨c, ds, hc, hdigit⟩ := int_eq_cons n
      rw [hc]
      rintro ⟨⟩
      exact absurd hdigit (by decide)
    rw [htext, hlen]
    simp only [scanNumber, bind, Except.bind, if_neg hneg, decide_eq_false hneg, drop_zero]
    rw [hint]
    dsimp only
    rw [Nat.zero_add, drop_left, hfrac]
    dsimp only
    rw [← drop_drop, drop_left, drop_left, hexp]
    rfl

end Json
