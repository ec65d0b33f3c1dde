import Tailcat.Basic
import Tailcat.Library.Chunks

/-!
# Byte streams

The stream interface of `include/tc/tls.h` and `tc_stream_read_full` of `src/net/tls.c`. `read_some`
goes through the chunks of `input`, and `write_all` through the results in `writes`.

## Main results

* `readFull_of_steady`: how the bytes are cut into chunks, and pauses within an item, do not matter;
* `readFull_of_paused`: a pause before the first byte is passed on, with nothing consumed.
-/

namespace Net

open List

/-- What `read_some` returns when it fails for good. -/
abbrev ReadError := { e : Err // e ≠ .timeout }

structure Stream where
  /-- What the calls of `read_some` will bring. When it is used up, nothing more arrives. -/
  input : List (Chunk UInt8 ReadError)
  /-- What the calls of `write_all` will return. When it is used up, they succeed. -/
  writes : List (Except Err Unit)
  /-- What has been written. -/
  output : List UInt8

def maxPartialStalls : ℕ := 100

namespace Stream

/-- `write_all`: it writes every byte or fails. -/
def writeAll (s : Stream) (bytes : List UInt8) : Stream × Except Err Unit :=
  match s.writes with
  | [] => ({ s with output := s.output ++ bytes }, .ok ())
  | .ok () :: rest => ({ s with writes := rest, output := s.output ++ bytes }, .ok ())
  | .error e :: rest => ({ s with writes := rest }, .error e)

lemma writeAll_of_nil {s : Stream} (h : s.writes = []) (bytes : List UInt8) :
    s.writeAll bytes = ({ s with output := s.output ++ bytes }, .ok ()) := by
  unfold writeAll
  split
  · rfl
  · next heq => simp [h] at heq
  · next heq => simp [h] at heq

/-- The loop of `tc_stream_read_full`, with the bytes it has got and the number of stalls since it
last got any. It returns what is left of the input. -/
def readFullLoop (len : ℕ) :
    List (Chunk UInt8 ReadError) → List UInt8 → ℕ →
      List (Chunk UInt8 ReadError) × Except Err (List UInt8)
  | input, got, stalls =>
    if got.length < len then
      match input with
      -- nothing more arrives: every further read times out, up to the limit
      | [] => ([], .error (if got = [] then .timeout else .trunc))
      | .pause :: rest =>
        if got = [] then (rest, .error .timeout)
        else if stalls + 1 > maxPartialStalls then (rest, .error .trunc)
        else readFullLoop len rest got (stalls + 1)
      | .fail e :: rest => (rest, .error e)
      -- no bytes, and no error: the end of the stream
      | .data [] :: rest => (rest, .error .trunc)
      | .data (b :: bs) :: rest =>
        let want := len - got.length
        if (b :: bs).length ≤ want then readFullLoop len rest (got ++ b :: bs) 0
        else (.data ((b :: bs).drop want) :: rest, .ok (got ++ (b :: bs).take want))
    else (input, .ok got)

def readFull (s : Stream) (len : ℕ) : Stream × Except Err (List UInt8) :=
  let r := readFullLoop len s.input [] 0
  ({ s with input := r.1 }, r.2)

section ReadFull

variable {s : Stream} {input rest : List (Chunk UInt8 ReadError)} {got bytes : List UInt8}
  {len stalls : ℕ}

lemma readFullLoop_of_steady (hsteady : Chunk.Steady maxPartialStalls input)
    (hle : got.length ≤ len) (hlen : len ≤ got.length + (Chunk.contents input).length)
    (hstart : got = [] → len = 0 ∨ ¬Chunk.Paused input)
    (hstalls : stalls + Chunk.pauses input ≤ maxPartialStalls) :
    readFullLoop len input got stalls =
      (Chunk.skip (len - got.length) input,
        .ok (got ++ (Chunk.contents input).take (len - got.length))) := by
  -- induction on the input: a pause uses up one of the stalls that are left, and bytes reset them
  induction input generalizing got stalls with
  | nil =>
    have hfull : len = got.length := by
      simp at hlen
      omega
    unfold readFullLoop
    simp [hfull]
  | cons c input ih =>
    unfold readFullLoop
    split
    · next hmore =>
      rcases hsteady.brings c mem_cons_self with rfl | ⟨xs, hxs, rfl⟩
      · have hgot : got ≠ [] := fun hnil => by
          rcases hstart hnil with hzero | hno
          · omega
          · exact hno ⟨input, rfl⟩
        have hlimit : stalls + (Chunk.pauses input + 1) ≤ maxPartialStalls := hstalls
        simp only [hgot, if_false]
        rw [if_neg (by omega), ih hsteady.tail hle (by simpa using hlen) (fun h => absurd h hgot)
          (by omega), Chunk.skip_pause (by omega), Chunk.contents_pause]
      · obtain ⟨b, bs, rfl⟩ := exists_cons_of_ne_nil hxs
        rw [Chunk.contents_data, length_append] at hlen
        dsimp only
        split
        · next hfits =>
          have hsub : len - (got ++ b :: bs).length = len - got.length - (b :: bs).length := by
            rw [length_append]
            omega
          have hpauses := hsteady.tail.pauses_le suffix_rfl
          rw [ih hsteady.tail (by rw [length_append]; omega)
            (by rw [length_append]; omega) (by simp) (by omega), hsub,
            Chunk.skip_data_of_le hfits, if_neg (by omega), Chunk.contents_data, take_append,
            take_of_length_le hfits, append_assoc]
        · next hcut =>
          rw [Chunk.skip_data_of_lt (by omega), Chunk.contents_data,
            take_append_of_le_length (by omega)]
    · next hdone =>
      have hfull : len - got.length = 0 := by omega
      simp [hfull]

/-- How the bytes are cut into chunks, and pauses within an item, do not matter. -/
theorem readFull_of_steady (hsteady : Chunk.Steady maxPartialStalls s.input)
    (hlen : len ≤ (Chunk.contents s.input).length) (hstart : len = 0 ∨ ¬Chunk.Paused s.input) :
    s.readFull len =
      ({ s with input := Chunk.skip len s.input }, .ok ((Chunk.contents s.input).take len)) := by
  have hpauses := hsteady.pauses_le suffix_rfl
  have hloop : readFullLoop len s.input [] 0 = _ :=
    readFullLoop_of_steady hsteady (Nat.zero_le _) (by simpa using hlen) (fun _ => hstart) (by omega)
  rw [readFull, hloop]
  simp

/-- A pause before the first byte is passed on, with nothing consumed. -/
theorem readFull_of_paused (hlen : 0 < len) (hinput : s.input = .pause :: rest) :
    s.readFull len = ({ s with input := rest }, .error .timeout) := by
  rw [readFull, hinput, readFullLoop]
  simp [hlen]

lemma readFull_of_nil (hlen : 0 < len) (hinput : s.input = []) :
    s.readFull len = (s, .error .timeout) := by
  rw [readFull, hinput, readFullLoop]
  simp [hlen, ← hinput]

end ReadFull

end Stream

end Net
