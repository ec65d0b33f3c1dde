import Tailcat.Derp.Client

/-!
# Reception

`tc_derp_recv` returns the packets of a relay in order, however the stream is cut and wherever it
pauses, with one exception: a pause between the header of a frame and its payload is returned as a
timeout after the header has been consumed, and the next call takes the payload for a header.

## Main results

* `reception_iff`: reception is right iff the stream never pauses there;
* `packet_misread`: a packet that is lost to such a pause.
-/

namespace Derp

open Chunk List
open Net (maxPartialStalls ReadError)

/-! ## Frames on the wire -/

structure Frame where
  type : UInt8
  payload : List UInt8

namespace Frame

def encode (f : Frame) : List UInt8 :=
  frameHeaderEncode f.type (.ofNat f.payload.length) ++ f.payload

def packet? (f : Frame) : Option (Key × List UInt8) :=
  if FrameType.ofByte f.type = .recvPacket then some (keyAt f.payload 0, f.payload.drop keyLen)
  else none

/-- A frame within the size limits, for a caller whose buffer has `cap` bytes, that does not announce
a restart. -/
structure WellFormed (cap : ℕ) (f : Frame) : Prop where
  length_le : f.payload.length ≤ keyLen + maxPacketSize
  packet : FrameType.ofByte f.type = .recvPacket →
    keyLen ≤ f.payload.length ∧ f.payload.length ≤ keyLen + cap
  running : FrameType.ofByte f.type ≠ .restarting

@[simp]
lemma length_encode (f : Frame) : f.encode.length = frameHeaderLen + f.payload.length := by
  simp [encode]

end Frame

def encodeAll (frames : List Frame) : List UInt8 := frames.flatMap Frame.encode

def packets (frames : List Frame) : List (Key × List UInt8) := frames.filterMap Frame.packet?

@[simp]
lemma encodeAll_nil : encodeAll [] = [] := rfl

@[simp]
lemma encodeAll_cons (f : Frame) (fs : List Frame) : encodeAll
    (f :: fs) = f.encode ++ encodeAll fs :=
  flatMap_cons ..

lemma encodeAll_append (fs gs : List Frame) : encodeAll
    (fs ++ gs) = encodeAll fs ++ encodeAll gs :=
  flatMap_append ..

lemma packets_append (fs gs : List Frame) : packets (fs ++ gs) = packets fs ++ packets gs :=
  filterMap_append ..

lemma length_encodeAll_of_suffix {fs gs : List Frame} (h : fs <:+ gs) :
    (encodeAll fs).length ≤ (encodeAll gs).length := by
  obtain ⟨front, rfl⟩ := h
  rw [encodeAll_append, length_append]
  exact Nat.le_add_left _ _

lemma length_le_encodeAll (fs : List Frame) : fs.length ≤ (encodeAll fs).length := by
  induction fs with
  | nil => exact le_rfl
  | cons f fs ih =>
    rw [encodeAll_cons, length_append, Frame.length_encode, length_cons, frameHeaderLen]
    omega

/-- The stream does not pause between the header of a frame and its payload. -/
def Unbroken (frames : List Frame) (input : List (Chunk UInt8 ReadError)) : Prop :=
  ∀ before f after, frames = before ++ f :: after → f.payload ≠ [] →
    ¬Chunk.Paused (skip ((encodeAll before).length + frameHeaderLen) input)

section Unbroken

variable {f : Frame} {fs : List Frame} {input : List (Chunk UInt8 ReadError)}

lemma unbroken_nil : Unbroken [] input := fun before f after heq => by
  cases before <;> cases heq

lemma unbroken_cons : Unbroken (f :: fs) input ↔
    (f.payload ≠ [] → ¬Chunk.Paused (skip frameHeaderLen input)) ∧
      Unbroken fs (skip f.encode.length input) := by
  constructor
  · refine fun h => ⟨fun hne => ?_, fun before g after heq hne => ?_⟩
    · simpa using h [] f fs rfl hne
    · have hlater := h (f :: before) g after (by rw [heq]; rfl) hne
      rwa [encodeAll_cons, length_append, Nat.add_assoc, ← skip_skip] at hlater
  · rintro ⟨hfirst, hlater⟩ before g after heq hne
    cases before with
    | nil =>
      cases heq
      simpa using hfirst hne
    | cons f' before =>
      cases heq
      rw [encodeAll_cons, length_append, Nat.add_assoc, ← skip_skip]
      exact hlater before g after rfl hne

instance Unbroken.instDecidable :
    ∀ (frames : List Frame) (input : List (Chunk UInt8 ReadError)),
      Decidable (Unbroken frames input)
  | [], _ => isTrue unbroken_nil
  | f :: fs, input =>
    have := instDecidable fs (skip f.encode.length input)
    decidable_of_iff _ unbroken_cons.symm

end Unbroken

/-! ## Reading a frame -/

namespace Client

def withInput (c : Client) (input : List (Chunk UInt8 ReadError)) : Client :=
  { c with stream := { c.stream with input } }

/-- The client is connected and has the frames `frames` in front of it, on a stream that does not
fail or stall and takes what is written. -/
structure At (frames : List Frame) (c : Client) : Prop where
  connected : c.connected = true
  running : c.restarting = false
  writes : c.stream.writes = []
  steady : Chunk.Steady maxPartialStalls c.stream.input
  bytes : contents c.stream.input = encodeAll frames

def size (c : Client) : ℕ := (contents c.stream.input).length + c.stream.input.length

variable {c : Client} {f : Frame} {fs frames : List Frame} {cap now : ℕ}
  {rest : List (Chunk UInt8 ReadError)}

lemma readFrame_of_paused (hinput : c.stream.input = .pause :: rest) (cap : ℕ) :
    c.readFrame cap = (c.withInput rest, .error .timeout) := by
  unfold readFrame
  rw [Net.Stream.readFull_of_paused (by decide) hinput]
  rfl

lemma readFrame_of_nil (hinput : c.stream.input = []) (cap : ℕ) :
    c.readFrame cap = (c, .error .timeout) := by
  unfold readFrame
  rw [Net.Stream.readFull_of_nil (by decide) hinput]

section

variable (h : At (f :: fs) c)

include h

lemma readFull_header (hstart : ¬Chunk.Paused c.stream.input) :
    c.stream.readFull frameHeaderLen =
      ({ c.stream with input := skip frameHeaderLen c.stream.input },
        .ok (frameHeaderEncode f.type (.ofNat f.payload.length))) := by
  have hbytes : contents c.stream.input =
      frameHeaderEncode f.type (.ofNat f.payload.length) ++ (f.payload ++ encodeAll fs) := by
    rw [h.bytes, encodeAll_cons, Frame.encode, append_assoc]
  rw [Net.Stream.readFull_of_steady h.steady (by rw [hbytes]; simp) (.inr hstart), hbytes]
  rfl

lemma contents_after_header :
    contents (skip frameHeaderLen c.stream.input) = f.payload ++ encodeAll fs := by
  rw [contents_skip, h.bytes, encodeAll_cons, Frame.encode]
  rfl

lemma readFrame_of_broken (hwf : f.WellFormed cap)
    (hstart : ¬Chunk.Paused c.stream.input) (hne : f.payload ≠ [])
    (hbroken : skip frameHeaderLen c.stream.input = .pause :: rest) :
    c.readFrame (keyLen + maxPacketSize) = (c.withInput rest, .error .timeout) := by
  have hlen := hwf.length_le
  have hpos : 0 < f.payload.length := length_pos_iff.mpr hne
  unfold readFrame
  rw [readFull_header h hstart]
  dsimp only
  rw [frameHeaderDecode_encode f.type (hlen.trans (by decide))]
  dsimp only
  rw [if_neg (by omega), if_pos (by omega), Net.Stream.readFull_of_paused hpos hbroken]
  rfl

lemma readFrame_of_unbroken (hwf : f.WellFormed cap) (hstart : ¬Chunk.Paused c.stream.input)
    (hunbroken : f.payload ≠ [] → ¬Chunk.Paused (skip frameHeaderLen c.stream.input)) :
    c.readFrame (keyLen + maxPacketSize) =
      (c.withInput (skip f.encode.length c.stream.input), .ok (f.type, f.payload)) := by
  have hlen := hwf.length_le
  unfold readFrame
  rw [readFull_header h hstart]
  dsimp only
  rw [frameHeaderDecode_encode f.type (hlen.trans (by decide))]
  dsimp only
  rw [if_neg (by omega), Frame.length_encode, ← skip_skip]
  split
  · next hne =>
    have hpayload : f.payload ≠ [] := fun hnil => hne (by rw [hnil]; rfl)
    have hcontents := contents_after_header h
    rw [Net.Stream.readFull_of_steady (h.steady.skip _) (by rw [hcontents]; simp)
      (.inr (hunbroken hpayload)), hcontents]
    simp [withInput]
  · next hzero =>
    have hnil : f.payload = [] := eq_nil_of_length_eq_zero (by omega)
    rw [hnil, length_nil, skip_zero]
    rfl

end

/-- Only the input has changed. -/
lemma At.of_same {c' : Client} (h : At frames c) (hsame : (c'.connected, c'.restarting,
    c'.stream.writes) = (c.connected, c.restarting, c.stream.writes))
    (hsteady : Chunk.Steady maxPartialStalls c'.stream.input)
    (hbytes : contents c'.stream.input = encodeAll fs) : At fs c' := by
  rw [h.connected, h.running, h.writes, Prod.mk.injEq, Prod.mk.injEq] at hsame
  exact ⟨hsame.1, hsame.2.1, hsame.2.2, hsteady, hbytes⟩

lemma At.next (h : At (f :: fs) c) : At fs (c.withInput (skip f.encode.length c.stream.input)) := by
  refine h.of_same rfl (h.steady.skip _) ((contents_skip ..).trans ?_)
  rw [h.bytes, encodeAll_cons, drop_left]

lemma At.wake (h : At frames c) (hinput : c.stream.input = .pause :: rest) :
    At frames (c.withInput rest) := by
  have hbytes := h.bytes
  rw [hinput] at hbytes
  exact h.of_same rfl (hinput ▸ h.steady).tail hbytes

/-! ## One call -/

lemma writeFrame_of_writes (hwrites : c.stream.writes = []) (type : UInt8) {payload : List UInt8}
    (hlen : payload.length ≤ maxFrameLen) :
    ∃ output, c.writeFrame type payload = ({ c with stream := { c.stream with output } }, .ok ()) := by
  unfold writeFrame
  rw [if_neg (by omega), Net.Stream.writeAll_of_nil hwrites]
  dsimp only
  split
  · exact ⟨_, rfl⟩
  rw [Net.Stream.writeAll_of_nil (s := { c.stream with
    output := c.stream.output ++ frameHeaderEncode type (.ofNat payload.length) }) hwrites]
  exact ⟨_, rfl⟩

lemma deliver_of_wellFormed (hwf : f.WellFormed cap)
    (htype : FrameType.ofByte f.type = .recvPacket) :
    c.deliver cap f.payload = (c, .ok (keyAt f.payload 0, f.payload.drop keyLen)) := by
  have hlen := hwf.length_le
  obtain ⟨hkey, hcap⟩ := hwf.packet htype
  have hparse : parseRecvPacket f.payload = .ok (keyAt f.payload 0, f.payload.drop keyLen) := by
    rw [parseRecvPacket, if_neg (by omega), if_neg (by omega)]
  rw [deliver, hparse]
  dsimp only
  rw [length_drop, if_neg (by omega)]

/-- From `c` to `c'` the frames `gone` have been read, and the client is in front of `left`. The
result is the packet among `gone`, or a timeout if there is none. -/
structure Stops (gone left : List Frame) (c c' : Client)
    (r : Except Err (Key × List UInt8)) : Prop where
  next : At left c'
  unbroken : Unbroken (gone ++ left) c.stream.input ↔ Unbroken left c'.stream.input
  size : c'.size < c.size ∨ (c.stream.input = [] ∧ c'.stream.input = [])
  result : (r = .error .timeout ∧ packets gone = []) ∨ ∃ p, r = .ok p ∧ packets gone = [p]

/-- From `c` to `c'` the frames `gone` and the header of `f` have been read, and the client is in
front of the payload of `f`. -/
structure Breaks (gone : List Frame) (f : Frame) (left : List Frame) (c c' : Client)
    (r : Except Err (Key × List UInt8)) : Prop where
  payload : f.payload ≠ []
  bytes : contents c'.stream.input = f.payload ++ encodeAll left
  broken : ¬Unbroken (gone ++ f :: left) c.stream.input
  result : r = .error .timeout

/-- What a call does that has `frames` in front of it. -/
def Outcome (frames : List Frame) (c : Client) (r : Client × Except Err (Key × List UInt8)) : Prop :=
  (∃ gone left, frames = gone ++ left ∧ Stops gone left c r.1 r.2) ∨
    ∃ gone g left, frames = gone ++ g :: left ∧ Breaks gone g left c r.1 r.2

/-- A frame that is no packet, and what comes after it. -/
theorem Outcome.cons {d : Client} {r : Client × Except Err (Key × List UInt8)}
    (hunbroken : f.payload ≠ [] → ¬Chunk.Paused (skip frameHeaderLen c.stream.input))
    (hnone : f.packet? = none) (hinput : d.stream.input = skip f.encode.length c.stream.input)
    (hsize : d.size < c.size) (h : Outcome fs d r) : Outcome (f :: fs) c r := by
  have hiff : ∀ gs, Unbroken (f :: gs) c.stream.input ↔ Unbroken gs d.stream.input := fun gs => by
    rw [unbroken_cons, hinput]
    exact and_iff_right hunbroken
  have hpackets : ∀ gs, packets (f :: gs) = packets gs := fun gs => filterMap_cons_none hnone
  rcases h with ⟨gone, left, rfl, h⟩ | ⟨gone, g, left, rfl, h⟩
  · refine .inl ⟨f :: gone, left, rfl, h.next, ?_, .inl ?_, by rw [hpackets]; exact h.result⟩
    · exact (hiff _).trans h.unbroken
    · rcases h.size with hlt | ⟨-, hnil⟩
      · exact hlt.trans hsize
      · refine Nat.lt_of_le_of_lt (Nat.le_of_eq ?_) (Nat.zero_lt_of_lt hsize)
        rw [Client.size, hnil]
        rfl
  · refine .inr ⟨f :: gone, g, left, rfl, h.payload, h.bytes, ?_, h.result⟩
    exact mt (hiff _).mp h.broken

lemma outcome_recvLoop (hwf : ∀ f ∈ frames, f.WellFormed cap) (h : At frames c) {fuel : ℕ}
    (hfuel : frames.length < fuel) : Outcome frames c (recvLoop cap now fuel c) := by
  -- a pause in front of the client ends the call, whatever comes after it
  have hpaused : ∀ {c : Client} {frames rest fuel}, At frames c → c.stream.input = .pause :: rest →
      Outcome frames c (recvLoop cap now (fuel + 1) c) := by
    intro c frames rest fuel h hinput
    refine .inl ⟨[], frames, rfl, ?_⟩
    rw [recvLoop, readFrame_of_paused hinput]
    refine ⟨h.wake hinput, ?_, .inl ?_, .inl ⟨rfl, rfl⟩⟩
    · rw [hinput]
      rfl
    · simp [size, withInput, hinput]
  induction frames generalizing c fuel with
  | nil =>
    obtain ⟨fuel, rfl⟩ := Nat.exists_eq_succ_of_ne_zero (by omega : fuel ≠ 0)
    rcases h.steady.eq_nil_or_paused h.bytes with hinput | ⟨rest, hinput⟩
    · refine .inl ⟨[], [], rfl, ?_⟩
      rw [recvLoop, readFrame_of_nil hinput]
      exact ⟨h, Iff.rfl, .inr ⟨hinput, hinput⟩, .inl ⟨rfl, rfl⟩⟩
    · exact hpaused h hinput
  | cons f fs ih =>
    obtain ⟨fuel, rfl⟩ := Nat.exists_eq_succ_of_ne_zero (by omega : fuel ≠ 0)
    have hf := hwf f mem_cons_self
    by_cases hstart : Chunk.Paused c.stream.input
    · obtain ⟨rest, hinput⟩ := hstart
      exact hpaused h hinput
    by_cases hbroken : f.payload ≠ [] ∧ Chunk.Paused (skip frameHeaderLen c.stream.input)
    · -- the header is consumed, and the call ends
      obtain ⟨hne, rest, hrest⟩ := hbroken
      refine .inr ⟨[], f, fs, rfl, ?_⟩
      rw [recvLoop, readFrame_of_broken h hf hstart hne hrest]
      refine ⟨hne, ?_, fun hun => (unbroken_cons.mp hun).1 hne ⟨rest, hrest⟩, rfl⟩
      have hcontents := contents_after_header h
      rwa [hrest] at hcontents
    have hunbroken : f.payload ≠ [] → ¬Chunk.Paused (skip frameHeaderLen c.stream.input) :=
      fun hne hp => hbroken ⟨hne, hp⟩
    let d := { c.withInput (skip f.encode.length c.stream.input) with lastRecvMs := now }
    have hd : At fs d := h.of_same rfl h.next.steady h.next.bytes
    have hsize : d.size < c.size := by
      have hlen := length_skip_le f.encode.length c.stream.input
      have hless : (contents d.stream.input).length < (contents c.stream.input).length := by
        rw [hd.bytes, h.bytes, encodeAll_cons, length_append, Frame.length_encode, frameHeaderLen]
        omega
      exact Nat.add_lt_add_of_lt_of_le hless hlen
    have hskip : ∀ {e : Client}, e.stream.input = d.stream.input → At fs e → e.size = d.size →
        FrameType.ofByte f.type ≠ .recvPacket → Outcome (f :: fs) c (recvLoop cap now fuel e) := by
      intro e hinput he hes htype
      exact (ih (fun g hg => hwf g (mem_cons_of_mem f hg)) he (by simpa using hfuel)).cons
        hunbroken (if_neg htype) hinput (hes ▸ hsize)
    rw [recvLoop, readFrame_of_unbroken h hf hstart hunbroken]
    dsimp only
    split
    · next htype =>
      refine .inl ⟨[f], fs, rfl, ?_⟩
      rw [deliver_of_wellFormed hf htype]
      refine ⟨hd, ?_, .inl hsize, .inr ⟨_, rfl, ?_⟩⟩
      · rw [singleton_append, unbroken_cons]
        exact and_iff_right hunbroken
      · simp [packets, Frame.packet?, htype]
    · next htype =>
      obtain ⟨output, hpong⟩ := writeFrame_of_writes hd.writes framePong
        (hf.length_le.trans (by decide))
      rw [hpong]
      exact hskip rfl (hd.of_same rfl hd.steady hd.bytes) rfl (by rw [htype]; nofun)
    · next htype => exact absurd htype hf.running
    · next htype _ _ => exact hskip rfl hd rfl htype

lemma outcome_recv (hwf : ∀ f ∈ frames, f.WellFormed cap) (h : At frames c) (now : ℕ) :
    Outcome frames c (c.recv cap now) := by
  have hlen := length_le_encodeAll frames
  rw [← h.bytes] at hlen
  rw [recv, h.connected, h.running]
  exact outcome_recvLoop hwf h (Nat.lt_succ_of_le hlen)

end Client

/-! ## Successive calls -/

/-- A client, and what the calls of `tc_derp_recv` on it have returned. -/
structure Reader where
  client : Client
  results : List (Except Err (Key × List UInt8))

/-- Whether a call returned a timeout. -/
def isTimeout : Except Err (Key × List UInt8) → Bool
  | .error .timeout => true
  | _ => false

namespace Reader

def start (c : Client) : Reader := { client := c, results := [] }

/-- One more call, at the time `now`. -/
def recv (cap : ℕ) (w : Reader) (now : ℕ) : Reader :=
  let r := w.client.recv cap now
  { client := r.1, results := w.results ++ [r.2] }

def received (w : Reader) : List (Except Err (Key × List UInt8)) :=
  w.results.filter fun r => !isTimeout r

/-- The reader stands at the boundary of two frames, and has returned the packets before it. -/
def Aligned (frames : List Frame) (w : Reader) : Prop :=
  ∃ gone left, frames = gone ++ left ∧ contents w.client.stream.input = encodeAll left ∧
    w.received = (packets gone).map .ok

open Client (At Stops Breaks)

variable {w : Reader} {frames gone left : List Frame} {cap : ℕ}

/-- The reader stands at the boundary of `gone` and `left`, and has returned the packets of
`gone`. -/
structure Has (gone left : List Frame) (w : Reader) : Prop where
  next : At left w.client
  received : w.received = (packets gone).map .ok

lemma Has.aligned (h : Has gone left w) : Aligned (gone ++ left) w :=
  ⟨gone, left, rfl, h.next.bytes, h.received⟩

lemma Has.recv {now : ℕ} {gone' left' : List Frame} (h : Has gone left w)
    (hstops : Stops gone' left' w.client (w.client.recv cap now).1 (w.client.recv cap now).2) :
    Has (gone ++ gone') left' (w.recv cap now) := by
  refine ⟨hstops.next, ?_⟩
  have hsplit : (w.recv cap now).received =
      w.received ++ [(w.client.recv cap now).2].filter fun r => !isTimeout r := by
    rw [Reader.received, Reader.recv, filter_append]
    rfl
  rw [hsplit, h.received, packets_append, map_append]
  rcases hstops.result with ⟨hr, hpackets⟩ | ⟨p, hr, hpackets⟩ <;> rw [hr, hpackets] <;> rfl

lemma Has.run (hwf : ∀ f ∈ left, f.WellFormed cap) (h : Has gone left w)
    (hunbroken : Unbroken left w.client.stream.input) (times : List ℕ) :
    ∃ gone' left', gone ++ left = gone' ++ left' ∧ Has gone' left' (times.foldl (Reader.recv cap) w) ∧
      (w.client.size ≤ times.length → left' = []) := by
  induction times generalizing w gone left with
  | nil =>
    refine ⟨gone, left, rfl, h, fun hsize => ?_⟩
    -- no bytes are left, and every frame has some
    have hlen := length_le_encodeAll left
    rw [← h.next.bytes] at hlen
    have hzero : w.client.size = 0 := Nat.le_zero.mp hsize
    rw [Client.size] at hzero
    exact eq_nil_of_length_eq_zero (by omega)
  | cons now times ih =>
    rcases Client.outcome_recv hwf h.next now with ⟨gone', left', rfl, hstops⟩ | ⟨_, _, _, rfl, hbreaks⟩
    · have hwf' : ∀ f ∈ left', f.WellFormed cap := fun f hf => hwf f (mem_append_right _ hf)
      obtain ⟨gone'', left'', heq, hrun, hend⟩ := ih hwf' (h.recv hstops) (hstops.unbroken.mp hunbroken)
      refine ⟨gone'', left'', by rw [← heq, append_assoc], hrun, fun hsize => ?_⟩
      rcases hstops.size with hlt | ⟨-, hnil⟩
      · refine hend ?_
        change (w.client.recv cap now).1.size ≤ times.length
        rw [length_cons] at hsize
        omega
      · refine hend ?_
        change (w.client.recv cap now).1.size ≤ times.length
        rw [Client.size, hnil]
        exact Nat.zero_le _
    · exact absurd hunbroken hbreaks.broken

lemma not_aligned_of_breaks {c : Client} {f : Frame} {fs : List Frame}
    {r : Except Err (Key × List UInt8)} (hbreaks : Breaks gone f left c w.client r)
    (hframes : frames = fs ++ f :: left) : ¬Aligned frames w := by
  rintro ⟨gone', left', heq, hbytes, -⟩
  have hpos : 0 < f.payload.length := length_pos_iff.mpr hbreaks.payload
  have hlen : (encodeAll left').length = f.payload.length + (encodeAll left).length := by
    rw [← hbytes, hbreaks.bytes, length_append]
  have hcons : (encodeAll (f :: left)).length =
      frameHeaderLen + f.payload.length + (encodeAll left).length := by
    rw [encodeAll_cons, length_append, Frame.length_encode]
  -- the two ends of the sequence are ends of one another
  have hsuffix : f :: left <:+ frames := ⟨fs, hframes.symm⟩
  have hsuffix' : left' <:+ frames := ⟨gone', heq.symm⟩
  rw [frameHeaderLen] at hcons
  rcases suffix_or_suffix_of_suffix hsuffix hsuffix' with hs | hs
  · have hle := length_encodeAll_of_suffix hs
    omega
  · rcases suffix_cons_iff.mp hs with rfl | hs
    · omega
    · have hle := length_encodeAll_of_suffix hs
      omega

lemma Has.exists_not_aligned (hwf : ∀ f ∈ left, f.WellFormed cap) (h : Has gone left w)
    (hbroken : ¬Unbroken left w.client.stream.input) :
    ∃ times : List ℕ, ¬Aligned (gone ++ left) (times.foldl (Reader.recv cap) w) := by
  -- induction on what is to come: a call that stops at a boundary leaves less of it
  induction hn : w.client.size using Nat.strong_induction_on generalizing w gone left with
  | _ n ih =>
    subst hn
    rcases Client.outcome_recv hwf h.next 0 with ⟨gone', left', rfl, hstops⟩ | ⟨g, f, l, rfl, hbreaks⟩
    · have hbroken' : ¬Unbroken left' (w.recv cap 0).client.stream.input :=
        mt hstops.unbroken.mpr hbroken
      have hlt : (w.recv cap 0).client.size < w.client.size := by
        refine hstops.size.resolve_right fun hnil => hbroken ?_
        -- an input that is used up has no frames left
        have hbytes := h.next.bytes
        rw [hnil.1] at hbytes
        have hlen := length_le_encodeAll (gone' ++ left')
        rw [← hbytes] at hlen
        rw [eq_nil_of_length_eq_zero (Nat.le_zero.mp hlen)]
        exact unbroken_nil
      obtain ⟨times, hno⟩ := ih _ hlt (fun f hf => hwf f (mem_append_right _ hf))
        (h.recv hstops) hbroken' rfl
      refine ⟨0 :: times, ?_⟩
      rwa [← append_assoc]
    · have heq : gone ++ (g ++ f :: l) = (gone ++ g) ++ f :: l := (append_assoc ..).symm
      exact ⟨[0], not_aligned_of_breaks hbreaks heq⟩

end Reader

/-- Whatever the chunks and the pauses, successive calls return the packets of the frames in order,
stay aligned to the frames, and come to the end, iff the stream does not pause between the header of
a frame and its payload. -/
theorem reception_iff {cap : ℕ} {frames : List Frame} {c : Client}
    (hwf : ∀ f ∈ frames, f.WellFormed cap) (hat : c.At frames) :
    ((∀ times : List ℕ, Reader.Aligned frames (times.foldl (Reader.recv cap) (.start c))) ∧
      ∃ n, ∀ times : List ℕ, n ≤ times.length →
        (times.foldl (Reader.recv cap) (.start c)).received = (packets frames).map .ok) ↔
      Unbroken frames c.stream.input := by
  have hstart : Reader.Has [] frames (.start c) := ⟨hat, rfl⟩
  constructor
  · rintro ⟨haligned, -⟩
    by_contra hbroken
    obtain ⟨times, hno⟩ := hstart.exists_not_aligned hwf hbroken
    exact hno (haligned times)
  · refine fun hunbroken => ⟨fun times => ?_, c.size, fun times hsize => ?_⟩
    · obtain ⟨gone, left, heq, hrun, -⟩ := hstart.run hwf hunbroken times
      rw [nil_append] at heq
      exact heq ▸ hrun.aligned
    · obtain ⟨gone, left, heq, hrun, hend⟩ := hstart.run hwf hunbroken times
      rw [hrun.received, show frames = gone by rw [hend hsize] at heq; simpa using heq]

/-- A client that is connected to a relay which sends `input`. -/
def connectedTo (input : List (Chunk UInt8 ReadError)) : Client :=
  { Client.prepare { hostname := [], dialAddr := none, port := 0, insecureSkipVerify := false
                     timeoutMs := 0 } (.replicate _ 0) (.replicate _ 0) with
    stream := { input, writes := [], output := [] }, connected := true }

def twoBytes : Frame := { type := 0x05, payload := replicate keyLen 0xff ++ [1, 2] }

def pingFrame : Frame := { type := 0x12, payload := replicate 8 0 }

lemma wellFormed_examples : ∀ f ∈ [pingFrame, twoBytes], f.WellFormed maxPacketSize := by
  intro f hf
  rcases mem_pair.mp hf with rfl | rfl
  · exact ⟨by decide, by decide, by decide⟩
  · exact ⟨by decide, by decide, by decide⟩

/-- A ping and a packet, with pauses before them and within the header of the first. -/
def fineInput : List (Chunk UInt8 ReadError) :=
  [.pause, .data ((encodeAll [pingFrame, twoBytes]).take 3), .pause, .pause,
    .data ((encodeAll [pingFrame, twoBytes]).drop 3)]

theorem reception_ping_packet :
    ∃ n, ∀ times : List ℕ, n ≤ times.length →
      (times.foldl (Reader.recv maxPacketSize) (.start (connectedTo fineInput))).received =
        [.ok (.replicate keyLen 0xff, [1, 2])] :=
  ((reception_iff wellFormed_examples
    ⟨rfl, rfl, rfl, .pause_cons (.data_cons (.pause_cons (.pause_cons
      (.data_cons .nil (by decide +kernel)) (by decide)) (by decide)) (by decide +kernel)) (by decide), by decide +kernel⟩).mpr
    (by decide +kernel)).2

def brokenInput : List (Chunk UInt8 ReadError) :=
  [.data (twoBytes.encode.take frameHeaderLen), .pause, .data twoBytes.payload]

/-- A packet that is lost to a pause: the second call takes its source key for a header. -/
theorem packet_misread :
    ¬∀ (cap : ℕ) (frames : List Frame) (c : Client), (∀ f ∈ frames, f.WellFormed cap) → c.At frames →
      (∀ times : List ℕ,
        (times.foldl (Reader.recv cap) (.start c)).received <+: (packets frames).map .ok) ∧
      ∃ n, ∀ times : List ℕ, n ≤ times.length →
        (times.foldl (Reader.recv cap) (.start c)).received = (packets frames).map .ok := by
  intro h
  have hat : (connectedTo brokenInput).At [twoBytes] :=
    ⟨rfl, rfl, rfl, .data_cons (.pause_cons (.data_cons .nil (by decide)) (by decide)) (by decide),
      by decide +kernel⟩
  have hwf : ∀ f ∈ [twoBytes], f.WellFormed maxPacketSize := fun f hf =>
    wellFormed_examples f (mem_cons_of_mem _ hf)
  have hprefix := (h maxPacketSize [twoBytes] (connectedTo brokenInput) hwf hat).1 [0, 0]
  have hreceived : ([0, 0].foldl (Reader.recv maxPacketSize)
      (.start (connectedTo brokenInput))).received = [.error .toomany] := by decide +kernel
  rw [hreceived] at hprefix
  simp [packets, Frame.packet?, twoBytes, FrameType.ofByte] at hprefix

end Derp
