import Mathlib.Data.UInt

/-!
# Fixed-width integers in byte strings

Integers most or least significant byte first. Reading past the end of the string yields zero bytes;
callers check lengths first.

## Main results

* `readBE32_writeBE32`, `readLE32_writeLE32`, `readLE64_writeLE64` and `readBE_writeBE`: reading
  inverts writing.
-/

namespace ByteOrder

/-- The 16-bit integer at index `i`, most significant byte first. -/
def readBE16 (p : List UInt8) (i : ℕ) : UInt16 :=
  (p.getD i 0).toUInt16 <<< 8 ||| (p.getD (i + 1) 0).toUInt16

/-- The 32-bit integer at index `i`, most significant byte first. -/
def readBE32 (p : List UInt8) (i : ℕ) : UInt32 :=
  (p.getD i 0).toUInt32 <<< 24 ||| (p.getD (i + 1) 0).toUInt32 <<< 16 |||
    (p.getD (i + 2) 0).toUInt32 <<< 8 ||| (p.getD (i + 3) 0).toUInt32

def writeBE16 (v : UInt16) : List UInt8 := [(v >>> 8).toUInt8, v.toUInt8]

def writeBE32 (v : UInt32) : List UInt8 :=
  [(v >>> 24).toUInt8, (v >>> 16).toUInt8, (v >>> 8).toUInt8, v.toUInt8]

@[simp]
lemma length_writeBE16 (v : UInt16) : (writeBE16 v).length = 2 := rfl

variable (p q : List UInt8) (i : ℕ) (v : UInt32) (rest : List UInt8)

@[simp]
lemma length_writeBE32 : (writeBE32 v).length = 4 := rfl

lemma bytes16 (v : UInt16) : (v >>> 8).toUInt8.toUInt16 <<< 8 ||| v.toUInt8.toUInt16 = v := by
  apply UInt16.toBitVec_inj.mp
  ext i hi
  simp [-UInt16.toUInt16_toUInt8]
  grind

lemma bytes32 :
    (v >>> 24).toUInt8.toUInt32 <<< 24 ||| (v >>> 16).toUInt8.toUInt32 <<< 16 |||
      (v >>> 8).toUInt8.toUInt32 <<< 8 ||| v.toUInt8.toUInt32 = v := by
  apply UInt32.toBitVec_inj.mp
  ext i hi
  simp [-UInt32.toUInt32_toUInt8]
  grind

lemma readBE32_append : readBE32 (p ++ q) (p.length + i) = readBE32 q i := by
  simp [readBE32, List.getElem?_append_right, Nat.add_assoc]

@[simp]
theorem readBE32_writeBE32 :
    readBE32 (writeBE32 v ++ rest) 0 = v := bytes32 v

theorem writeBE32_readBE32 (h : 4 ≤ p.length - i) :
    writeBE32 (readBE32 p i) = (p.drop i).take 4 := by
  have hread : readBE32 p i = readBE32 (p.drop i) 0 := by simp [readBE32]
  rw [hread]
  rw [← List.length_drop] at h
  match p.drop i, h with
  | a :: b :: c :: d :: _, _ =>
    simp only [writeBE32, List.take_succ_cons, List.take_zero, List.cons.injEq, and_true]
    refine ⟨?_, ?_, ?_, ?_⟩ <;>
    · apply UInt8.toBitVec_inj.mp
      ext i hi
      simp [readBE32] <;> grind

/-! ## Least significant byte first -/

/-- The 32-bit integer at index `i`, least significant byte first. -/
def readLE32 (p : List UInt8) (i : ℕ) : UInt32 :=
  (p.getD i 0).toUInt32 ||| (p.getD (i + 1) 0).toUInt32 <<< 8 |||
    (p.getD (i + 2) 0).toUInt32 <<< 16 ||| (p.getD (i + 3) 0).toUInt32 <<< 24

/-- The 64-bit integer at index `i`, least significant byte first. -/
def readLE64 (p : List UInt8) (i : ℕ) : UInt64 :=
  (readLE32 p i).toUInt64 ||| (readLE32 p (i + 4)).toUInt64 <<< 32

def writeLE32 (v : UInt32) : List UInt8 :=
  [v.toUInt8, (v >>> 8).toUInt8, (v >>> 16).toUInt8, (v >>> 24).toUInt8]

def writeLE64 (v : UInt64) : List UInt8 :=
  writeLE32 v.toUInt32 ++ writeLE32 (v >>> 32).toUInt32

@[simp]
lemma length_writeLE32 : (writeLE32 v).length = 4 := rfl

@[simp]
lemma length_writeLE64 (v : UInt64) : (writeLE64 v).length = 8 := rfl

lemma readLE32_append : readLE32 (p ++ q) (p.length + i) = readLE32 q i := by
  simp [readLE32, List.getElem?_append_right, Nat.add_assoc]

lemma readLE64_append : readLE64 (p ++ q) (p.length + i) = readLE64 q i := by
  rw [readLE64, Nat.add_assoc, readLE32_append, readLE32_append, readLE64]

/-- Reading inverts writing, whatever follows. -/
@[simp]
theorem readLE32_writeLE32 : readLE32 (writeLE32 v ++ rest) 0 = v := by
  change v.toUInt8.toUInt32 ||| (v >>> 8).toUInt8.toUInt32 <<< 8 |||
    (v >>> 16).toUInt8.toUInt32 <<< 16 ||| (v >>> 24).toUInt8.toUInt32 <<< 24 = v
  apply UInt32.toBitVec_inj.mp
  ext i hi
  simp [-UInt32.toUInt32_toUInt8]
  grind

@[simp]
theorem readLE64_writeLE64 (v : UInt64) (rest : List UInt8) :
    readLE64 (writeLE64 v ++ rest) 0 = v := by
  have hhigh : readLE32 (writeLE64 v ++ rest) 4 = (v >>> 32).toUInt32 := by
    rw [writeLE64, List.append_assoc]
    exact (readLE32_append (writeLE32 v.toUInt32) _ 0).trans (readLE32_writeLE32 _ _)
  rw [readLE64, hhigh, writeLE64, List.append_assoc, readLE32_writeLE32]
  apply UInt64.toBitVec_inj.mp
  ext i hi
  simp [-UInt64.toUInt64_toUInt32]
  grind

/-! ## Any width -/

/-- The low `k` bytes of a number, most significant first. -/
def writeBE : ℕ → ℕ → List UInt8
  | 0, _ => []
  | k + 1, v => UInt8.ofNat (v >>> (8 * k)) :: writeBE k v

/-- The number that a byte string is, most significant byte first, after the number `v`. -/
def readBE (v : ℕ) (p : List UInt8) : ℕ := p.foldl (fun v b => v * 256 + b.toNat) v

@[simp]
lemma length_writeBE (k v : ℕ) : (writeBE k v).length = k := by
  induction k with
  | zero => rfl
  | succ k ih => rw [writeBE, List.length_cons, ih]

theorem readBE_writeBE (a k v : ℕ) : readBE a (writeBE k v) = a * 256 ^ k + v % 256 ^ k := by
  induction k generalizing a with
  | zero => simp [writeBE, readBE, Nat.mod_one]
  | succ k ih =>
    have hstep : readBE a (writeBE (k + 1) v) =
        readBE (a * 256 + v / 256 ^ k % 256) (writeBE k v) := by
      rw [writeBE, readBE, List.foldl_cons, Nat.shiftRight_eq_div_pow, pow_mul]
      rfl
    rw [hstep, ih, Nat.add_mul, pow_succ, Nat.mod_mul, mul_assoc, Nat.mul_comm 256,
      Nat.mul_comm (v / 256 ^ k % 256)]
    omega

lemma writeBE_concat (k v : ℕ) : writeBE (k + 1) v = writeBE k (v / 256) ++ [UInt8.ofNat v] := by
  induction k with
  | zero => rfl
  | succ k ih =>
    have hhigh : v >>> (8 * (k + 1)) = (v / 256) >>> (8 * k) := by
      rw [Nat.shiftRight_eq_div_pow, Nat.shiftRight_eq_div_pow, Nat.div_div_eq_div_mul, mul_add,
        pow_add, mul_comm]
      rfl
    rw [writeBE, ih, hhigh]
    rfl

/-- Writing inverts reading. -/
theorem writeBE_readBE (p : List UInt8) : writeBE p.length (readBE 0 p) = p := by
  induction p using List.reverseRecOn with
  | nil => rfl
  | append_singleton p b ih =>
    have hread : readBE 0 (p ++ [b]) = readBE 0 p * 256 + b.toNat := by
      rw [readBE, List.foldl_append]
      rfl
    have hhigh : (readBE 0 p * 256 + b.toNat) / 256 = readBE 0 p := by
      have hb := b.toNat_lt
      omega
    rw [List.length_append, List.length_singleton, hread, writeBE_concat, hhigh]
    congr 2
    apply UInt8.toNat_inj.mp
    rw [UInt8.toNat_ofNat']
    omega

end ByteOrder
