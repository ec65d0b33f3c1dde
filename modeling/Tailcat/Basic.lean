import Mathlib.Data.UInt

/-!
# Error codes and strings

What the modules of the source share: the error codes of `include/tc/tc.h`, and C strings as byte
strings without the terminator. A function that returns `TC_OK` or an error code is an `Except Err`.
-/

/-- The error codes of `tc.h`. -/
inductive Err
  /-- Malformed or unacceptable input. -/
  | inval
  /-- The caller's output buffer is too small. -/
  | nospace
  /-- The input ended in the middle of an item. -/
  | trunc
  /-- The value does not fit the destination type. -/
  | range
  /-- Well-formed, but not a feature that is implemented. -/
  | unsupported
  /-- More elements than a fixed limit allows. -/
  | toomany
  /-- The deadline passed with nothing to read. -/
  | timeout
  /-- The thing being created is already there. -/
  | exist
  /-- Not ready yet. -/
  | again
  /-- The peer hung up. -/
  | closed
  /-- Nothing left to do. -/
  | done
  /-- Looked for and not there. -/
  | notfound
  deriving DecidableEq, Repr

def ascii (s : String) : List UInt8 := s.toList.map fun c => c.toNat.toUInt8
