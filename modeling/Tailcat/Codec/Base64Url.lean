import Tailcat.Basic
import Tailcat.Library.ByteOrder

/-!
# Base64url without padding

`src/base64url.c`. The decoder takes one character at a time and keeps the bits it has not used yet
in an accumulator, of which only the low bits count.

## Main results

* `decode_encodeLoop`: what is encoded is decoded;
* `decode_exact`: what is decoded, and what it is decoded to.
-/

namespace Base64Url

open ByteOrder List

def kEnc : List UInt8 := ascii "ABCDEFGHIJKLMNOPQRSTUVWXYZabcdefghijklmnopqrstuvwxyz0123456789-_"

/-- `kDec`: the value of a character, and 0 for one that is not in the alphabet. -/
def kDec (c : UInt8) : UInt8 :=
  if 0x41 ≤ c ∧ c ≤ 0x5a then c - 0x41
  else if 0x61 ≤ c ∧ c ≤ 0x7a then c - 0x61 + 26
  else if 0x30 ≤ c ∧ c ≤ 0x39 then c - 0x30 + 52
  else if c = 0x2d then 62
  else if c = 0x5f then 63
  else 0

def dec6 (c : UInt8) : Option UInt32 :=
  if c = 0x41 then some 0 else if kDec c = 0 then none else some (kDec c).toUInt32

/-- `kEnc[v & 0x3f]`. -/
def enc6 (v : UInt32) : UInt8 := kEnc.getD (v &&& 0x3f).toNat 0

def encodedLen (n : ℕ) : ℕ := n / 3 * 4 + if n % 3 = 0 then 0 else n % 3 + 1

def decodedMax (n : ℕ) : ℕ :=
  n / 4 * 3 + if n % 4 = 0 then 0 else if n % 4 - 1 > 2 then 2 else n % 4 - 1

def word (a b c : UInt8) : UInt32 := a.toUInt32 <<< 16 ||| b.toUInt32 <<< 8 ||| c.toUInt32

/-- The loop of `tc_base64url_encode` and the rest of the input after it. -/
def encodeLoop : List UInt8 → List UInt8
  | a :: b :: c :: rest =>
    let v := word a b c
    enc6 (v >>> 18) :: enc6 (v >>> 12) :: enc6 (v >>> 6) :: enc6 v :: encodeLoop rest
  | [a, b] =>
    let v := word a b 0
    [enc6 (v >>> 18), enc6 (v >>> 12), enc6 (v >>> 6)]
  | [a] =>
    let v := word a 0 0
    [enc6 (v >>> 18), enc6 (v >>> 12)]
  | [] => []

def encode (cap : ℕ) (inp : List UInt8) : Except Err (List UInt8) :=
  if cap < encodedLen inp.length + 1 then .error .nospace else .ok (encodeLoop inp)

/-- The loop of `tc_base64url_decode`: `acc` holds the bits read so far, of which the low `nbits` have
not been used yet. -/
def decodeLoop (cap : ℕ) (acc : UInt32) (nbits : ℕ) (out : List UInt8) :
    List UInt8 → Except Err (List UInt8)
  | [] => if nbits = 6 then .error .inval else .ok out
  | c :: cs =>
    if c = 0x0d ∨ c = 0x0a then decodeLoop cap acc nbits out cs
    else
      match dec6 c with
      | none => .error .inval
      | some v =>
        let acc := acc <<< 6 ||| v
        if nbits + 6 ≥ 8 then
          if out.length ≥ cap then .error .nospace
          else
            decodeLoop cap acc (nbits + 6 - 8)
              (out ++ [(acc >>> UInt32.ofNat (nbits + 6 - 8) &&& 0xff).toUInt8]) cs
        else decodeLoop cap acc (nbits + 6) out cs

def decode (cap : ℕ) (inp : List UInt8) : Except Err (List UInt8) := decodeLoop cap 0 0 [] inp

/-! ## What a text stands for -/

/-- The characters that count. -/
def kept (inp : List UInt8) : List UInt8 := inp.filter fun c => c ≠ 0x0d ∧ c ≠ 0x0a

/-- The number that characters are, six bits each, after the number `v`. -/
def value (v : ℕ) (cs : List UInt8) : ℕ := cs.foldl (fun v c => v * 64 + kEnc.idxOf c) v

/-- The whole bytes of that number. The bits that are left over are dropped. -/
def decoded (cs : List UInt8) : List UInt8 :=
  writeBE (6 * cs.length / 8) (value 0 cs / 2 ^ (6 * cs.length % 8))

/-! ## Lengths -/

lemma length_encodeLoop (inp : List UInt8) : (encodeLoop inp).length = encodedLen inp.length := by
  fun_induction encodeLoop inp with
  | case1 a b c rest v ih =>
    simp only [length_cons, ih, encodedLen]
    split_ifs <;> omega
  | case2 => simp [encodedLen]
  | case3 => simp [encodedLen]
  | case4 => rfl

lemma decodedMax_encodedLen (n : ℕ) : decodedMax (encodedLen n) = n := by
  unfold decodedMax encodedLen
  split_ifs <;> omega

lemma decodedMax_eq (n : ℕ) : decodedMax n = 6 * n / 8 := by
  unfold decodedMax
  split_ifs <;> omega

/-! ## Characters -/

lemma idxOf_kEnc {i : ℕ} (h : i < 64) : kEnc.idxOf (kEnc.getD i 0) = i ∧ kEnc.getD i 0 ∈ kEnc := by
  revert i
  decide +kernel

lemma dec6_eq (c : UInt8) :
    dec6 c = if c ∈ kEnc then some (UInt32.ofNat (kEnc.idxOf c)) else none := by
  have hall : ∀ n < 256, dec6 (.ofNat n) =
      if .ofNat n ∈ kEnc then some (UInt32.ofNat (kEnc.idxOf (.ofNat n))) else none := by
    decide +kernel
  have hc := hall c.toNat c.toNat_lt
  rwa [UInt8.ofNat_toNat] at hc

lemma toNat_and_63 (v : UInt32) : (v &&& 0x3f).toNat = v.toNat % 64 := by
  exact Nat.and_two_pow_sub_one_eq_mod v.toNat 6

lemma idxOf_enc6 (v : UInt32) : kEnc.idxOf (enc6 v) = v.toNat % 64 ∧ enc6 v ∈ kEnc := by
  unfold enc6
  rw [toNat_and_63]
  exact idxOf_kEnc (Nat.mod_lt _ (by decide))

/-! ## Shifts -/

variable {n cap : ℕ} {inp : List UInt8}

lemma toNat_ofNat (h : n < 32) : (UInt32.ofNat n).toNat % 32 = n := by
  rw [UInt32.toNat_ofNat_of_lt' (h.trans (by decide)), Nat.mod_eq_of_lt h]

lemma toNat_shift_or (x y : UInt32) (hn : n < 32) (hy : y.toNat < 2 ^ n) :
    (x <<< UInt32.ofNat n ||| y).toNat = (x.toNat * 2 ^ n + y.toNat) % 2 ^ 32 := by
  have hpow : 2 ^ 32 = 2 ^ n * 2 ^ (32 - n) := by rw [← pow_add, Nat.add_sub_cancel' hn.le]
  rw [UInt32.toNat_or, UInt32.toNat_shiftLeft, toNat_ofNat hn, Nat.shiftLeft_eq, hpow,
    mul_comm, Nat.mul_mod_mul_left, mul_comm, ← Nat.shiftLeft_eq,
    ← Nat.shiftLeft_add_eq_or_of_lt hy, Nat.shiftLeft_eq, Nat.mod_mul, Nat.mul_add_mod,
    Nat.mod_eq_of_lt hy, Nat.mul_add_div (Nat.two_pow_pos n), Nat.div_eq_of_lt hy, add_zero,
    add_comm, mul_comm]

/-- A byte of the bits that are kept. -/
theorem toUInt8_shift {acc : UInt32} {v : ℕ} (h : n ≤ 24) (hacc : acc.toNat = v % 2 ^ 32) :
    (acc >>> UInt32.ofNat n &&& 0xff).toUInt8 = UInt8.ofNat (v / 2 ^ n) := by
  have hmask : v % 2 ^ 32 / 2 ^ n &&& (0xff : UInt32).toNat = v % 2 ^ 32 / 2 ^ n % 2 ^ 8 :=
    Nat.and_two_pow_sub_one_eq_mod _ 8
  have hpow : 2 ^ 32 = 2 ^ n * 2 ^ (32 - n) := by
    rw [← pow_add, Nat.add_sub_cancel' (by omega)]
  apply UInt8.toNat_inj.mp
  rw [UInt32.toNat_toUInt8, UInt32.toNat_and, UInt32.toNat_shiftRight, toNat_ofNat (by omega),
    Nat.shiftRight_eq_div_pow, hacc, hmask, Nat.mod_mod, hpow,
    Nat.mod_mul_right_div_self]
  exact Nat.mod_mod_of_dvd _ (pow_dvd_pow 2 (by omega))

lemma toNat_word (a b c : UInt8) :
    (word a b c).toNat = a.toNat * 65536 + b.toNat * 256 + c.toNat := by
  have ha := a.toNat_lt
  have hb := b.toNat_lt
  have hc := c.toNat_lt
  have hlow : (b.toUInt32 <<< 8 ||| c.toUInt32).toNat = _ :=
    toNat_shift_or b.toUInt32 c.toUInt32 (by decide) hc
  have hword : (a.toUInt32 <<< 16 ||| (b.toUInt32 <<< 8 ||| c.toUInt32)).toNat = _ :=
    toNat_shift_or a.toUInt32 _ (by decide) (by rw [hlow]; simp; omega)
  rw [word, UInt32.or_assoc, hword, hlow]
  simp
  omega

/-! ## Decoding -/

section Decoding

variable {cap : ℕ} {out : List UInt8} (acc : UInt32)

lemma value_concat (v : ℕ) (cs : List UInt8) (c : UInt8) :
    value v (cs ++ [c]) = value v cs * 64 + kEnc.idxOf c := by
  rw [value, foldl_append]
  rfl

/-- A character after whole bytes, or what it adds to the bits that are left over. -/
theorem decoded_concat (cs : List UInt8) {c : UInt8} (hc : c ∈ kEnc) :
    decoded (cs ++ [c]) = if 6 * cs.length % 8 = 0 then decoded cs
      else decoded cs ++ [UInt8.ofNat (value 0 (cs ++ [c]) / 2 ^ (6 * cs.length % 8 - 2))] := by
  have hidx : kEnc.idxOf c < 64 := idxOf_lt_length_iff.mpr hc
  rw [decoded, value_concat, length_append, length_singleton, decoded]
  generalize cs.length = n
  split_ifs with hn
  · have hlen : 6 * (n + 1) / 8 = 6 * n / 8 := by omega
    have hleft : 6 * (n + 1) % 8 = 6 := by omega
    rw [hleft, hn]
    congr 1
    omega
  · have hlen : 6 * (n + 1) / 8 = 6 * n / 8 + 1 := by omega
    have hleft : 6 * (n + 1) % 8 = 6 * n % 8 - 2 := by omega
    have hpow : 2 ^ (6 * n % 8 - 2) * 256 = 64 * 2 ^ (6 * n % 8) := by
      obtain ⟨k, hk⟩ := Nat.exists_eq_add_of_le (show 2 ≤ 6 * n % 8 by omega)
      rw [hk, Nat.add_sub_cancel_left, pow_add]
      omega
    rw [hlen, hleft, writeBE_concat, Nat.div_div_eq_div_mul, hpow, ← Nat.div_div_eq_div_mul]
    congr 3
    omega

/-- What the loop does, with the characters `done` behind it. -/
theorem decodeLoop_eq_ok {done : List UInt8} (hacc : acc.toNat = value 0 done % 2 ^ 32)
    (hroom : 6 * done.length / 8 ≤ cap) (cs : List UInt8) :
    decodeLoop cap acc (6 * done.length % 8) (decoded done) cs = .ok out ↔
      (∀ c ∈ kept cs, c ∈ kEnc) ∧ (done ++ kept cs).length % 4 ≠ 1 ∧
        6 * (done ++ kept cs).length / 8 ≤ cap ∧ out = decoded (done ++ kept cs) := by
  induction cs generalizing acc done with
  | nil =>
    have hnil : kept [] = [] := rfl
    rw [decodeLoop, hnil]
    split_ifs
    · simp
      omega
    · simp [hroom, eq_comm]
      omega
  | cons c cs ih =>
    rw [decodeLoop]
    by_cases hskip : c = 0x0d ∨ c = 0x0a
    · have hkept : kept (c :: cs) = kept cs := by
        rcases hskip with rfl | rfl <;> rfl
      rw [if_pos hskip, hkept]
      exact ih acc hacc hroom
    have hkept : kept (c :: cs) = c :: kept cs := filter_cons_of_pos (by simpa using hskip)
    rw [if_neg hskip, hkept, dec6_eq]
    by_cases hc : c ∈ kEnc
    swap
    · simp [hc]
    have hidx : kEnc.idxOf c < 64 := idxOf_lt_length_iff.mpr hc
    have hacc' : (acc <<< 6 ||| UInt32.ofNat (kEnc.idxOf c)).toNat =
        value 0 (done ++ [c]) % 2 ^ 32 := by
      have hdigit : (UInt32.ofNat (kEnc.idxOf c)).toNat = kEnc.idxOf c :=
        UInt32.toNat_ofNat_of_lt' (hidx.trans (by decide))
      have hor := toNat_shift_or acc (.ofNat (kEnc.idxOf c)) (n := 6) (by decide) (by rwa [hdigit])
      refine hor.trans ?_
      rw [hacc, value_concat]
      omega
    have hdone : (done ++ [c]).length = done.length + 1 := by simp
    have happ : done ++ c :: kept cs = (done ++ [c]) ++ kept cs := by simp
    have hall : (∀ x ∈ c :: kept cs, x ∈ kEnc) ↔ ∀ x ∈ kept cs, x ∈ kEnc := by simp [hc]
    have hlen : (decoded done).length = 6 * done.length / 8 := length_writeBE _ _
    rw [if_pos hc, happ, hall]
    dsimp only
    split_ifs
    · have hlong : 6 * done.length / 8 + 1 ≤ 6 * (done ++ [c] ++ kept cs).length / 8 := by
        rw [length_append]
        omega
      simp only [false_iff]
      omega
    · have hbits : 6 * done.length % 8 + 6 - 8 = 6 * (done ++ [c]).length % 8 := by
        omega
      have hsub : 6 * done.length % 8 + 6 - 8 = 6 * done.length % 8 - 2 := by omega
      have hout : decoded (done ++ [c]) = decoded done ++
          [UInt8.ofNat (value 0 (done ++ [c]) / 2 ^ (6 * done.length % 8 - 2))] := by
        rw [decoded_concat done hc, if_neg (by omega)]
      rw [toUInt8_shift (by omega) hacc', hsub, ← hout, ← hsub, hbits]
      exact ih _ hacc' (by rw [hdone]; omega)
    · have hbits : 6 * done.length % 8 + 6 = 6 * (done ++ [c]).length % 8 := by
        omega
      have hout : decoded done = decoded (done ++ [c]) := by
        rw [decoded_concat done hc, if_pos (by omega)]
      rw [hbits, hout]
      exact ih _ hacc' (by rw [hdone]; omega)

end Decoding

/-! ## Decoding what has been encoded -/

/-- The four characters of three bytes. -/
theorem digits_word (a b c : UInt8) :
    (word a b c >>> 18).toNat % 64 = a.toNat / 4 ∧
    (word a b c >>> 12).toNat % 64 = a.toNat % 4 * 16 + b.toNat / 16 ∧
    (word a b c >>> 6).toNat % 64 = b.toNat % 16 * 4 + c.toNat / 64 ∧
    (word a b c).toNat % 64 = c.toNat % 64 := by
  have ha := a.toNat_lt
  have hb := b.toNat_lt
  have hc := c.toNat_lt
  simp only [UInt32.toNat_shiftRight, toNat_word, UInt32.reduceToNat, Nat.reduceMod]
  omega

lemma value_enc6 (v : ℕ) (w : UInt32) (cs : List UInt8) :
    value v (enc6 w :: cs) = value (v * 64 + w.toNat % 64) cs := by
  rw [value, foldl_cons, (idxOf_enc6 w).1]
  rfl

/-- The characters stand for the bytes, followed by bits that are zero. -/
theorem value_encodeLoop (v : ℕ) (inp : List UInt8) :
    value v (encodeLoop inp) = readBE v inp * 2 ^ (6 * (encodeLoop inp).length % 8) := by
  fun_induction encodeLoop inp generalizing v with
  | case1 a b c rest w ih =>
    obtain ⟨h18, h12, h6, h0⟩ := digits_word a b c
    have hblock : (((v * 64 + a.toNat / 4) * 64 + (a.toNat % 4 * 16 + b.toNat / 16)) * 64 +
        (b.toNat % 16 * 4 + c.toNat / 64)) * 64 + c.toNat % 64 =
        ((v * 256 + a.toNat) * 256 + b.toNat) * 256 + c.toNat := by omega
    have hlen : ∀ n, 6 * (n + 1 + 1 + 1 + 1) % 8 = 6 * n % 8 := by omega
    have hread : readBE v (a :: b :: c :: rest) =
        readBE (((v * 256 + a.toNat) * 256 + b.toNat) * 256 + c.toNat) rest := by
      simp only [readBE, foldl_cons]
    rw [value_enc6, value_enc6, value_enc6, value_enc6, h18, h12, h6, h0, hblock, ih, hread]
    simp only [length_cons, hlen]
  | case2 a b w =>
    obtain ⟨h18, h12, h6, -⟩ := digits_word a b 0
    rw [value_enc6, value_enc6, value_enc6, h18, h12, h6]
    simp [value, readBE]
    omega
  | case3 a w =>
    obtain ⟨h18, h12, -, -⟩ := digits_word a 0 0
    rw [value_enc6, value_enc6, h18, h12]
    simp [value, readBE]
    omega
  | case4 => simp [value, readBE]

lemma decoded_encodeLoop (inp : List UInt8) : decoded (encodeLoop inp) = inp := by
  have hlen : 6 * (encodeLoop inp).length / 8 = inp.length := by
    rw [← decodedMax_eq, length_encodeLoop, decodedMax_encodedLen]
  rw [decoded, value_encodeLoop, Nat.mul_div_cancel _ (Nat.two_pow_pos _), hlen, writeBE_readBE]

lemma mem_kEnc_encodeLoop (inp : List UInt8) : ∀ c ∈ encodeLoop inp, c ∈ kEnc := by
  have henc : ∀ v, enc6 v ∈ kEnc := fun v => (idxOf_enc6 v).2
  fun_induction encodeLoop inp with
  | case1 a b c rest w ih => simpa [henc] using ih
  | _ => simp [henc]

lemma kept_encodeLoop (inp : List UInt8) : kept (encodeLoop inp) = encodeLoop inp := by
  refine filter_eq_self.mpr fun c hc => ?_
  have hmem := mem_kEnc_encodeLoop inp c hc
  have hcr : c ≠ 0x0d := fun heq => absurd (heq ▸ hmem) (by decide +kernel)
  have hlf : c ≠ 0x0a := fun heq => absurd (heq ▸ hmem) (by decide +kernel)
  simp [hcr, hlf]

lemma decode_eq_ok {out : List UInt8} : decode cap inp = .ok out ↔
    (∀ c ∈ kept inp, c ∈ kEnc) ∧ (kept inp).length % 4 ≠ 1 ∧
      decodedMax (kept inp).length ≤ cap ∧ out = decoded (kept inp) := by
  rw [decodedMax_eq]
  have hzero : (0 : UInt32).toNat = value 0 [] % 2 ^ 32 := rfl
  exact decodeLoop_eq_ok 0 hzero (Nat.zero_le _) inp

/-- What is encoded is decoded. -/
theorem decode_encodeLoop (hcap : inp.length ≤ cap) : decode cap (encodeLoop inp) = .ok inp := by
  rw [decode_eq_ok, kept_encodeLoop, length_encodeLoop, decodedMax_encodedLen, decoded_encodeLoop]
  refine ⟨mem_kEnc_encodeLoop inp, ?_, hcap, rfl⟩
  unfold encodedLen
  split_ifs <;> omega

/-- What is encoded is decoded, in the announced sizes; and what is decoded at all, and to what. -/
theorem decode_exact :
    (∀ inp : List UInt8, (∃ out, encode (encodedLen inp.length + 1) inp = .ok out) ∧
      ∀ cap out, encode cap inp = .ok out →
        out.length = encodedLen inp.length ∧ decodedMax out.length = inp.length ∧
          ∀ room, inp.length ≤ room → decode room out = .ok inp) ∧
    ∀ (inp : List UInt8) (cap : ℕ) (out : List UInt8), decode cap inp = .ok out ↔
      (∀ c ∈ kept inp, c ∈ kEnc) ∧ (kept inp).length % 4 ≠ 1 ∧
        decodedMax (kept inp).length ≤ cap ∧ out = decoded (kept inp) := by
  refine ⟨fun inp => ⟨⟨_, if_neg (lt_irrefl _)⟩, fun cap out hout => ?_⟩, fun _ _ _ => decode_eq_ok⟩
  unfold encode at hout
  split at hout
  · cases hout
  obtain rfl := Except.ok.inj hout
  have hlen := length_encodeLoop inp
  exact ⟨hlen, by rw [hlen, decodedMax_encodedLen], fun _ hroom => decode_encodeLoop hroom⟩

end Base64Url
