import Tailcat.Basic

/-!
# The keystream of XSalsa20

`tc_xsalsa20_xor`, `tc_secretbox_seal` and `tc_secretbox_open` of `src/crypto/salsa20.c`, over any
block function, HSalsa20 and Poly1305.

## Main results

* `xsalsa20Xor_eq`: byte `i` of a message meets byte `i` behind the offset in the keystream;
* `keystream_addressing`: messages can be cut anywhere, and exactly what was sealed opens.
-/

namespace Salsa20

/-- What a secret box is built from, with its key and nonce. -/
structure Keyed where
  hsalsa20 : Vector UInt8 32 → Vector UInt8 16 → Vector UInt8 32
  /-- `salsa20_block`. -/
  block : Vector UInt8 32 → Vector UInt8 8 → UInt64 → Vector UInt8 64
  /-- `mbedtls_poly1305_mac`, which can fail. -/
  poly1305 : Vector UInt8 32 → List UInt8 → Option (Vector UInt8 16)
  key : Vector UInt8 32
  nonce : Vector UInt8 24

variable (K : Keyed)

/-- The blocks of the keystream: the first bytes of the nonce make the subkey. -/
def Keyed.blocks : UInt64 → Vector UInt8 64 :=
  K.block (K.hsalsa20 K.key (K.nonce.take 16)) (K.nonce.drop 16)

/-- The loop of `tc_xsalsa20_xor`. -/
def xorLoop (blocks : UInt64 → Vector UInt8 64) (ctr : UInt64) (skip : Fin 64)
    (inp : List UInt8) : List UInt8 :=
  if inp = [] then []
  else
    let take := min inp.length (64 - skip)
    List.zipWith (· ^^^ ·) (inp.take take) ((blocks ctr).toList.drop skip) ++
      xorLoop blocks (ctr + 1) 0 (inp.drop take)
termination_by inp.length
decreasing_by
  have := List.length_pos_iff.mpr ‹_›
  rw [List.length_drop]
  omega

def xsalsa20Xor (inp : List UInt8) (keystreamOffset : UInt64) : List UInt8 :=
  xorLoop K.blocks (keystreamOffset / 64) (.ofNat 64 (keystreamOffset % 64).toNat) inp

def polyKey : Vector UInt8 32 := (K.blocks 0).take 32

/-- `tc_secretbox_seal`: the tag, and the ciphertext behind it. -/
def secretboxSeal (pt : List UInt8) : Except Err (List UInt8) :=
  if pt.length > 2 ^ 64 - 1 - 16 then .error .range
  else
    let ct := xsalsa20Xor K pt 32
    match K.poly1305 (polyKey K) ct with
    | none => .error .inval
    | some tag => .ok (tag.toList ++ ct)

def secretboxOpen (ct : List UInt8) : Except Err (List UInt8) :=
  if ct.length < 16 then .error .inval
  else
    match K.poly1305 (polyKey K) (ct.drop 16) with
    | none => .error .inval
    | some tag =>
      if tag.toList ≠ ct.take 16 then .error .inval else .ok (xsalsa20Xor K (ct.drop 16) 32)

/-! ## The keystream -/

/-- Where byte `i` of the keystream stands: in which block, and where in it. -/
def address (i : ℕ) : UInt64 × Fin 64 := (.ofNat (i / 64), .ofNat 64 i)

def keystream (i : ℕ) : UInt8 := (K.blocks (address i).1).get (address i).2

/-- The message, xored with the keystream behind the key of its tag. -/
def boxed (pt : List UInt8) : List UInt8 := pt.mapIdx fun i b => b ^^^ keystream K (32 + i)

open List

variable {K} {pt ct : List UInt8}

lemma address_add {off i : ℕ} (h : off % 64 + i < 64) :
    address (off + i) = ((address off).1, ⟨off % 64 + i, h⟩) := by
  have hdiv : (off + i) / 64 = off / 64 := by omega
  have hmod : (off + i) % 64 = off % 64 + i := by omega
  rw [address, hdiv]
  exact congrArg (Prod.mk _) (Fin.ext hmod)

lemma address_next {off n : ℕ} (h : off % 64 + n = 64) :
    address (off + n) = ((address off).1 + 1, 0) := by
  have hdiv : (off + n) / 64 = off / 64 + 1 := by omega
  have hmod : (off + n) % 64 = 0 := by omega
  rw [address, hdiv, UInt64.ofNat_add]
  exact congrArg (Prod.mk _) (Fin.ext hmod)

lemma xorLoop_eq (off : ℕ) (inp : List UInt8) :
    xorLoop K.blocks (address off).1 (address off).2 inp =
      inp.mapIdx fun i b => b ^^^ keystream K (off + i) := by
  rw [xorLoop]
  split_ifs with hinp
  · rw [hinp, mapIdx_nil]
  have hskip : (address off).2.val = off % 64 := rfl
  generalize htake : min inp.length (64 - (address off).2) = n
  have hfirst : zipWith (· ^^^ ·) (inp.take n)
      ((K.blocks (address off).1).toList.drop (address off).2) =
      (inp.take n).mapIdx fun i b => b ^^^ keystream K (off + i) := by
    refine ext_getElem ?_ fun i hi _ => ?_
    · simp only [length_zipWith, length_mapIdx, length_take, length_drop, Vector.length_toList]
      omega
    · have hn : off % 64 + i < 64 := by
        simp only [length_zipWith, length_take, length_drop, Vector.length_toList] at hi
        omega
      rw [getElem_zipWith, getElem_mapIdx, keystream, address_add hn]
      rw [getElem_take, getElem_drop, Vector.getElem_toList]
      rfl
  have hrest : xorLoop K.blocks ((address off).1 + 1) 0 (inp.drop n) =
      (inp.drop n).mapIdx fun i b => b ^^^ keystream K (off + n + i) := by
    by_cases hall : inp.length ≤ n
    · rw [drop_eq_nil_of_le hall, xorLoop, if_pos rfl, mapIdx_nil]
    · have ih := xorLoop_eq (off + n) (inp.drop n)
      rwa [address_next (by omega)] at ih
  dsimp only
  rw [hfirst, hrest]
  conv_rhs => rw [← take_append_drop n inp, mapIdx_append]
  congr 1
  have hlen : (inp.take n).length = n := length_take_of_le (by omega)
  simp only [hlen, Nat.add_assoc, Nat.add_comm n]
termination_by inp.length
decreasing_by
  rw [length_drop]
  omega

theorem xsalsa20Xor_eq (inp : List UInt8) (off : UInt64) :
    xsalsa20Xor K inp off = inp.mapIdx fun i b => b ^^^ keystream K (off.toNat + i) := by
  have hblock : off / 64 = (address off.toNat).1 := by
    rw [address, ← UInt64.toNat_inj, UInt64.toNat_div, UInt64.toNat_ofNat']
    exact (Nat.mod_eq_of_lt ((Nat.div_le_self ..).trans_lt off.toNat_lt)).symm
  have hplace : Fin.ofNat 64 (off % 64).toNat = (address off.toNat).2 := Fin.ext (Nat.mod_mod ..)
  rw [xsalsa20Xor, hblock, hplace, xorLoop_eq]

lemma xsalsa20Xor_append {off : UInt64} {a : List UInt8} (h : off.toNat + a.length < 2 ^ 64)
    (b : List UInt8) :
    xsalsa20Xor K (a ++ b) off =
      xsalsa20Xor K a off ++ xsalsa20Xor K b (off + .ofNat a.length) := by
  have hoff : (off + .ofNat a.length).toNat = off.toNat + a.length := by
    rw [UInt64.toNat_add, UInt64.toNat_ofNat', Nat.add_mod_mod, Nat.mod_eq_of_lt h]
  simp only [xsalsa20Xor_eq, hoff, mapIdx_append, Nat.add_assoc, Nat.add_comm a.length]

lemma xsalsa20Xor_twice (off : UInt64) (m : List UInt8) :
    xsalsa20Xor K (xsalsa20Xor K m off) off = m := by
  simp only [xsalsa20Xor_eq, mapIdx_mapIdx, Function.comp_def, UInt8.xor_assoc, UInt8.xor_self,
    UInt8.xor_zero]
  exact ext_getElem (length_mapIdx ..) fun i _ _ => getElem_mapIdx ..

lemma toList_polyKey : (polyKey K).toList = (range 32).map (keystream K) := by
  refine ext_getElem (by simp) fun i hi _ => ?_
  have hlt : i < 32 := by simpa using hi
  have haddr := @address_add 0 i (by omega)
  simp only [Nat.zero_add, Nat.zero_mod] at haddr
  rw [getElem_map, getElem_range, keystream, haddr, Vector.getElem_toList]
  exact Vector.getElem_take ..

lemma address_ne {i j : ℕ} (hi : i < 2 ^ 64) (hj : j < 32) : address (32 + i) ≠ address j := by
  intro h
  have hblock : (UInt64.ofNat ((32 + i) / 64)).toNat = (UInt64.ofNat (j / 64)).toNat :=
    congrArg (fun x => x.1.toNat) h
  have hplace : (32 + i) % 64 = j % 64 := congrArg (fun x => x.2.val) h
  rw [UInt64.toNat_ofNat', UInt64.toNat_ofNat'] at hblock
  omega

/-! ## Boxes -/

lemma xsalsa20Xor_eq_boxed (pt : List UInt8) : xsalsa20Xor K pt 32 = boxed K pt := xsalsa20Xor_eq pt 32

lemma secretboxSeal_eq {tag} (hlen : pt.length ≤ 2 ^ 64 - 1 - 16)
    (htag : K.poly1305 (polyKey K) (boxed K pt) = some tag) :
    secretboxSeal K pt = .ok (tag.toList ++ boxed K pt) := by
  rw [secretboxSeal, if_neg (by omega), xsalsa20Xor_eq_boxed]
  simp only [htag]

lemma secretboxOpen_eq_ok_iff : secretboxOpen K ct = .ok pt ↔
    ∃ tag, K.poly1305 (polyKey K) (boxed K pt) = some tag ∧ ct = tag.toList ++ boxed K pt := by
  constructor
  · intro h
    unfold secretboxOpen at h
    split at h
    · cases h
    split at h
    · cases h
    next tag htag =>
    split_ifs at h with hsame
    -- what was decrypted is encrypted again
    obtain rfl := Except.ok.inj h
    rw [← xsalsa20Xor_eq_boxed, xsalsa20Xor_twice]
    exact ⟨tag, htag, by rw [not_not.mp hsame, take_append_drop]⟩
  · rintro ⟨tag, htag, rfl⟩
    have hlen : tag.toList.length = 16 := tag.length_toList
    rw [secretboxOpen, if_neg (by simp), drop_left' hlen, take_left' hlen, htag]
    simp only [ne_eq, not_true_eq_false, if_false]
    rw [← xsalsa20Xor_eq_boxed, xsalsa20Xor_twice]

/-- A message can be cut anywhere and its pieces encrypted at their own offsets, and encryption undoes
itself. In a box the message meets the keystream right behind the key of its tag, at no place of that
key. Whatever the MAC can authenticate is sealed, and exactly what was sealed opens. -/
theorem keystream_addressing (K : Keyed) :
    (∀ (off : UInt64) (a b : List UInt8), off.toNat + a.length < 2 ^ 64 →
      xsalsa20Xor K (a ++ b) off =
        xsalsa20Xor K a off ++ xsalsa20Xor K b (off + .ofNat a.length)) ∧
    (∀ off m, xsalsa20Xor K (xsalsa20Xor K m off) off = m) ∧
    (polyKey K).toList = (range 32).map (keystream K) ∧
    (∀ m, xsalsa20Xor K m 32 = boxed K m) ∧
    (∀ i < 2 ^ 64, ∀ j < 32, address (32 + i) ≠ address j) ∧
    (∀ pt tag, pt.length ≤ 2 ^ 64 - 1 - 16 →
      K.poly1305 (polyKey K) (boxed K pt) = some tag →
      secretboxSeal K pt = .ok (tag.toList ++ boxed K pt) ∧
        secretboxOpen K (tag.toList ++ boxed K pt) = .ok pt) ∧
    ∀ ct pt, secretboxOpen K ct = .ok pt →
      ∃ tag, K.poly1305 (polyKey K) (boxed K pt) = some tag ∧ ct = tag.toList ++ boxed K pt :=
  ⟨fun _ _ b h => xsalsa20Xor_append h b, xsalsa20Xor_twice, toList_polyKey,
    xsalsa20Xor_eq_boxed, fun _ hi _ hj => address_ne hi hj,
    fun _ tag hlen htag => ⟨secretboxSeal_eq hlen htag, secretboxOpen_eq_ok_iff.mpr ⟨tag, htag, rfl⟩⟩,
    fun _ _ => secretboxOpen_eq_ok_iff.mp⟩

end Salsa20
