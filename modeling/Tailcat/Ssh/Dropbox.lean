import Tailcat.Basic
import Tailcat.Library.ByteOrder
import Tailcat.Library.Run

/-!
# The size of an upload

The requests of `src/ssh/dropbox.c` that concern the file that is uploaded, after the client has been
told the version. What becomes of a name, and how much one `pwrite` takes, are given with the request.

## Main results

* `fstat_truthful_iff`: the size that is told is that of the file while each write begins at its end.
-/

namespace Ssh

open ByteOrder List

/-- `TC_DROPBOX_MAX_FILE`. -/
def maxFile : ℕ := 1024 * 1024 * 1024

structure Dropbox where
  isOpen : Bool := false
  written : UInt64 := 0
  bytes : UInt64 := 0
  files : UInt32 := 0
  generation : UInt32 := 0
  /-- What is in the file. -/
  file : List UInt8 := []

namespace Dropbox

inductive Request
  /-- With what `open_upload` returns. -/
  | create (pflags : UInt32) (upload : Except Err Unit)
  /-- With what the calls of `pwrite` return. -/
  | write (handle : List UInt8) (offset : UInt64) (data : List UInt8) (counts : List ℕ)
  | fstat (handle : List UInt8)
  | close (handle : List UInt8)

inductive Reply
  | status (code : ℕ) (message : String)
  | handle (bytes : List UInt8)
  | attrs (size : UInt64)

def makeHandle (db : Dropbox) : List UInt8 := writeBE32 db.generation ++ ascii "file"

def handleMatches (db : Dropbox) (handle : List UInt8) : Bool :=
  db.isOpen && handle = makeHandle db

/-- The file after some bytes were written at an offset. -/
def pwrite (file : List UInt8) (offset : ℕ) (data : List UInt8) : List UInt8 :=
  file.takeD offset 0 ++ data ++ file.drop (offset + data.length)

/-- The loop of a write: the file, and whether all was written. -/
def writeLoop (file : List UInt8) (offset : ℕ) (data : List UInt8) : List ℕ → List UInt8 × Bool
  | [] => (file, data = [])
  | n :: counts =>
    if data = [] then (file, true)
    else if n = 0 then (file, false)
    else writeLoop (pwrite file offset (data.take n)) (offset + n) (data.drop n) counts

/-- `tc_dropbox_handle`. -/
def handle (db : Dropbox) : Request → Dropbox × Reply
  | .create pflags upload =>
    if pflags &&& 1 ≠ 0 || pflags &&& 2 = 0 then (db, .status 3 "write-only drop box")
    else if db.isOpen then (db, .status 4 "one file at a time")
    else
      match upload with
      | .error .inval => (db, .status 4 "unusable name")
      | .error _ => (db, .status 4 "could not create the file")
      | .ok _ =>
        let db := { db with isOpen := true, written := 0, generation := db.generation + 1, file := [] }
        (db, .handle (makeHandle db))
  | .write handle offset data counts =>
    if !handleMatches db handle then (db, .status 4 "bad handle")
    else if offset.toNat > maxFile || data.length > maxFile - offset.toNat then
      (db, .status 4 "file too large")
    else
      match writeLoop db.file offset.toNat data counts with
      | (file, false) => ({ db with file }, .status 4 "write failed")
      | (file, true) =>
        ({ db with file, written := db.written + .ofNat data.length
                   bytes := db.bytes + .ofNat data.length }, .status 0 "")
  | .fstat handle =>
    if !handleMatches db handle then (db, .status 4 "bad handle") else (db, .attrs db.written)
  | .close handle =>
    if !handleMatches db handle then (db, .status 4 "bad handle")
    else ({ db with isOpen := false, files := db.files + 1 }, .status 0 "")

def step (db : Dropbox) (req : Request) : Dropbox := (handle db req).1

/-! ## Sizes -/

/-- The size that is told is that of the file. -/
def Truthful (db : Dropbox) : Prop :=
  ∀ h size, (handle db (.fstat h)).2 = .attrs size → size.toNat = db.file.length

/-- The request is not a write that fails. -/
def Succeeds : Request → Prop
  | .write _ _ data counts => ∀ file offset, (writeLoop file offset data counts).2 = true
  | _ => True

/-- What is written, if the write is accepted, is written at the end. -/
def AtEnd (db : Dropbox) : Request → Prop
  | .write h offset data _ => handleMatches db h = true → offset.toNat + data.length ≤ maxFile →
    data = [] ∨ offset.toNat = db.file.length
  | _ => True

variable {db : Dropbox} {file data : List UInt8} {offset : ℕ}

lemma length_pwrite : (pwrite file offset data).length = max file.length (offset + data.length) := by
  rw [pwrite, length_append, length_append, takeD_length, length_drop]
  omega

lemma length_writeLoop {counts : List ℕ} (h : (writeLoop file offset data counts).2 = true) :
    (writeLoop file offset data counts).1.length =
      if data = [] then file.length else max file.length (offset + data.length) := by
  induction counts generalizing file offset data with
  | nil =>
    rw [if_pos (by simpa [writeLoop] using h)]
    rfl
  | cons n counts ih =>
    unfold writeLoop at h ⊢
    split at h
    · next hnil => rw [if_pos hnil, if_pos hnil]
    next hdata =>
    split at h
    · cases h
    next hn =>
    rw [if_neg hdata, if_neg hn, if_neg hdata, ih h, length_pwrite, length_take, length_drop]
    split
    · next hnil => rw [Nat.min_eq_right (drop_eq_nil_iff.mp hnil)]
    · next hne =>
      have hlt := Nat.not_le.mp (mt drop_eq_nil_iff.mpr hne)
      rw [Nat.min_eq_left hlt.le, Nat.add_assoc, Nat.add_sub_cancel' hlt.le]
      omega

/-- What holds while the size is right. -/
def Exact (db : Dropbox) : Prop :=
  db.isOpen = true → db.written.toNat = db.file.length ∧ db.file.length ≤ maxFile

lemma truthful_iff : Truthful db ↔ (db.isOpen = true → db.written.toNat = db.file.length) := by
  constructor
  · intro h hopen
    refine h (makeHandle db) db.written ?_
    simp [handle, handleMatches, hopen]
  · intro h bytes size hreply
    rw [handle] at hreply
    split at hreply
    · cases hreply
    next hmatch =>
    obtain rfl := Reply.attrs.inj hreply
    exact h (by simp_all [handleMatches])

lemma exact_step (h : Exact db) {req : Request} (hio : Succeeds req) :
    (Truthful (step db req) ↔ AtEnd db req) ∧ (AtEnd db req → Exact (step db req)) := by
  suffices hstep : Exact (step db req) ∧ AtEnd db req ∨ ¬Truthful (step db req) ∧ ¬AtEnd db req by
    obtain ⟨hexact, hend⟩ | ⟨hno, hend⟩ := hstep
    · exact ⟨iff_of_true (truthful_iff.mpr fun hopen => (hexact hopen).1) hend, fun _ => hexact⟩
    · exact ⟨iff_of_false hno hend, fun hc => absurd hc hend⟩
  cases req with
  | create pflags upload =>
    refine .inl ⟨?_, trivial⟩
    unfold step handle
    dsimp only
    split_ifs
    · exact h
    · exact h
    split
    · exact h
    · exact h
    · exact fun _ => ⟨rfl, Nat.zero_le _⟩
  | fstat bytes =>
    refine .inl ⟨?_, trivial⟩
    rw [step, handle]
    split_ifs <;> exact h
  | close bytes =>
    refine .inl ⟨?_, trivial⟩
    rw [step, handle]
    split_ifs
    · exact h
    · exact nofun
  | write bytes offset data counts =>
    rw [step, handle]
    split_ifs with hmatch hlimit
    · exact .inl ⟨h, fun hc => by simp [hc] at hmatch⟩
    · refine .inl ⟨h, fun _ hc => ?_⟩
      simp at hlimit
      omega
    have hok := hio db.file offset.toNat
    have hlen := length_writeLoop hok
    generalize writeLoop db.file offset.toNat data counts = done at hlen hok ⊢
    obtain ⟨file, ok⟩ := done
    obtain rfl : ok = true := hok
    have hopen : db.isOpen = true := by simp_all [handleMatches]
    obtain ⟨hwritten, hmax⟩ := h hopen
    have hfits : offset.toNat + data.length ≤ maxFile := by
      simp only [Bool.or_eq_true, decide_eq_true_eq, not_or] at hlimit
      omega
    have hsum : (db.written + .ofNat data.length).toNat = db.file.length + data.length := by
      rw [UInt64.toNat_add, UInt64.toNat_ofNat', hwritten]
      simp only [maxFile] at hmax hfits
      omega
    dsimp only at hlen ⊢
    by_cases hend : data = [] ∨ offset.toNat = db.file.length
    · refine .inl ⟨fun _ => ?_, fun _ _ => hend⟩
      dsimp only
      rw [hsum]
      obtain hnil | hoff := hend
      · rw [if_pos hnil] at hlen
        simp [hlen, hnil, hmax]
      · have hle : file.length = db.file.length + data.length := by
          rw [hlen]
          split_ifs with hnil
          · simp [hnil]
          · omega
        omega
    · obtain ⟨hne, hoff⟩ := not_or.mp hend
      refine .inr ⟨fun hc => ?_, fun hc => hend (hc (by simpa using hmatch) hfits)⟩
      have hpos := length_pos_iff.mpr hne
      have htold := truthful_iff.mp hc hopen
      dsimp only at htold
      rw [hsum, hlen, if_neg hne] at htold
      omega

/-- In a run without I/O errors, the size is that of the file as long as each write begins at its
end. -/
theorem fstat_truthful_iff {reqs : List Request} (hio : ∀ req ∈ reqs, Succeeds req) :
    (∀ before, before <+: reqs → Truthful (before.foldl step {})) ↔ Run.Ok step AtEnd {} reqs := by
  refine Run.forall_prefix_iff_of (I := Exact) (fun db h => ?_) (fun db req h hreq => ?_)
    (fun db req h hreq => ?_) nofun hio
  · exact truthful_iff.mpr fun hopen => (h hopen).1
  · exact (exact_step h hreq).1
  · exact (exact_step h hreq).2

/-- A file of two bytes, written twice where `second` is the offset of the second time. -/
def twice (second : UInt64) : List Request :=
  [.create 2 (.ok ()), .write (writeBE32 1 ++ ascii "file") 0 [1, 2] [2],
    .write (writeBE32 1 ++ ascii "file") second [3, 4] [1, 1]]

lemma succeeds_twice {second : UInt64} : ∀ req ∈ twice second, Succeeds req := by
  simp [twice, Succeeds, writeLoop]

theorem fstat_truthful_append : Truthful ((twice 2).foldl step {}) := by
  refine (fstat_truthful_iff succeeds_twice).mpr
    ⟨trivial, fun _ _ => .inr rfl, fun _ _ => .inr ?_, trivial⟩ (twice 2) prefix_rfl
  decide +kernel

/-- The second write replaces what the first wrote, and is counted all the same. -/
theorem fstat_counts_twice :
    (∀ req ∈ twice 0, Succeeds req) ∧ ¬Truthful ((twice 0).foldl step {}) := by
  refine ⟨succeeds_twice, fun h => ?_⟩
  have htold := truthful_iff.mp h (by decide +kernel)
  revert htold
  decide +kernel

end Dropbox

end Ssh
