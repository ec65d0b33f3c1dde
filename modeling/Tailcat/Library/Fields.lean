import Mathlib.Data.List.GetD
import Tailcat.Library.ByteOrder

/-!
# Fields at fixed offsets of a byte string

Each rule reads the field `f` of a string that is split as `a ++ f ++ b`, at the offset `a.length`.

## Main results

* `slice_eq_of_split` and `bytesAt_eq_of_split`: a field of bytes;
* `readLE32_eq_of_split` and `readLE64_eq_of_split`: an integer.
-/

namespace Fields

open ByteOrder

variable {p a b f : List UInt8} {i n : ℕ} {v : Vector UInt8 n}

/-- The `n` bytes at index `i`, or as many as there are. -/
def slice (p : List UInt8) (i n : ℕ) : List UInt8 := (p.drop i).take n

/-- The `n` bytes at index `i`, with zeros past the end. -/
def bytesAt (n : ℕ) (p : List UInt8) (i : ℕ) : Vector UInt8 n := .ofFn fun j => p.getD (i + j) 0

theorem slice_eq_of_split (h : p = a ++ f ++ b) (hi : a.length = i) (hn : f.length = n) :
    slice p i n = f := by
  subst hi hn h
  rw [slice, List.append_assoc, List.drop_left, List.take_left]

theorem bytesAt_eq_of_split (h : p = a ++ v.toList ++ b) (hi : a.length = i) : bytesAt n p i = v := by
  subst hi h
  ext j hj
  have hlen : j < v.toList.length := by simpa using hj
  simp [bytesAt, List.getElem?_append_right, List.getElem?_append_left hlen, hj]

lemma bytesAt_eq_of_slice (h : slice p i n = v.toList) : bytesAt n p i = v := by
  have hlen := congrArg List.length h
  rw [slice, List.length_take, List.length_drop, Vector.length_toList] at hlen
  -- the vector stands between what is before it and what is behind it
  have hsplit : p = p.take i ++ v.toList ++ p.drop (i + n) := by
    rw [← h, slice, List.append_assoc, ← List.drop_drop, List.take_append_drop,
      List.take_append_drop]
  by_cases hi : i ≤ p.length
  · exact bytesAt_eq_of_split hsplit (List.length_take_of_le hi)
  · obtain rfl : n = 0 := by omega
    exact Vector.ext fun j hj => absurd hj (Nat.not_lt_zero j)

theorem readLE32_eq_of_split {v : UInt32} (h : p = a ++ writeLE32 v ++ b) (hi : a.length = i) :
    readLE32 p i = v := by
  rw [h, List.append_assoc, ← hi]
  exact (readLE32_append a _ 0).trans (readLE32_writeLE32 v b)

theorem readLE64_eq_of_split {v : UInt64} (h : p = a ++ writeLE64 v ++ b) (hi : a.length = i) :
    readLE64 p i = v := by
  rw [h, List.append_assoc, ← hi]
  exact (readLE64_append a _ 0).trans (readLE64_writeLE64 v b)

/-! ## Writing what was read -/

lemma slice_add (p : List UInt8) (i m n : ℕ) :
    slice p i (m + n) = slice p i m ++ slice p (i + m) n := by
  rw [slice, slice, slice, List.take_add, List.drop_drop]

lemma slice_four (h : i + 4 ≤ p.length) :
    slice p i 4 = [p.getD i 0, p.getD (i + 1) 0, p.getD (i + 2) 0, p.getD (i + 3) 0] := by
  rw [List.getD_eq_getElem _ _ (by omega : i < p.length),
    List.getD_eq_getElem _ _ (by omega : i + 1 < p.length),
    List.getD_eq_getElem _ _ (by omega : i + 2 < p.length),
    List.getD_eq_getElem _ _ (by omega : i + 3 < p.length), slice,
    List.drop_eq_getElem_cons (by omega), List.drop_eq_getElem_cons (by omega),
    List.drop_eq_getElem_cons (by omega), List.drop_eq_getElem_cons (by omega)]
  rfl

lemma writeLE32_bytes (a b c d : UInt8) :
    writeLE32 (a.toUInt32 ||| b.toUInt32 <<< 8 ||| c.toUInt32 <<< 16 ||| d.toUInt32 <<< 24) =
      [a, b, c, d] := by
  unfold writeLE32
  congr 1
  · apply UInt8.toBitVec_inj.mp
    ext i hi
    simp
  congr 1
  · apply UInt8.toBitVec_inj.mp
    ext i hi
    simp
    grind
  congr 1
  · apply UInt8.toBitVec_inj.mp
    ext i hi
    simp
    grind
  congr 1
  · apply UInt8.toBitVec_inj.mp
    ext i hi
    simp
    grind

lemma writeLE64_halves (low high : UInt32) :
    writeLE64 (low.toUInt64 ||| high.toUInt64 <<< 32) = writeLE32 low ++ writeLE32 high := by
  have hlow : (low.toUInt64 ||| high.toUInt64 <<< 32).toUInt32 = low := by
    apply UInt32.toBitVec_inj.mp
    ext i hi
    simp
  have hhigh : ((low.toUInt64 ||| high.toUInt64 <<< 32) >>> 32).toUInt32 = high := by
    apply UInt32.toBitVec_inj.mp
    ext i hi
    simp
    grind
  rw [writeLE64, hlow, hhigh]

lemma writeLE32_readLE32 (h : i + 4 ≤ p.length) : writeLE32 (readLE32 p i) = slice p i 4 := by
  rw [slice_four h]
  exact writeLE32_bytes _ _ _ _

lemma writeLE64_readLE64 (h : i + 8 ≤ p.length) : writeLE64 (readLE64 p i) = slice p i 8 := by
  rw [readLE64, writeLE64_halves, writeLE32_readLE32 (by omega), writeLE32_readLE32 (by omega)]
  exact (slice_add p i 4 4).symm

end Fields
