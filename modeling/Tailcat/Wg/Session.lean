import Tailcat.Library.Bitmap
import Tailcat.Wg.Noise

/-!
# Sessions

`tc_wg_session` and the functions of `src/wg/noise.c` on it: deriving one from a handshake, and
sealing and opening transport packets, with the replay window of the receiver.

## Main results

* `encrypt_cases`: a packet is sealed under the next counter, or nothing changes;
* `decrypt_ok_iff` and `decrypt_cases`: which packets are opened, and what that does to the window.
-/

namespace Wg

open ByteOrder Fields

/-- `TC_WG_TRANSPORT_HEADER_SIZE`. -/
def transportHeaderSize : ℕ := 16
/-- `TC_WG_REPLAY_WINDOW_BITS`. -/
def replayWindowBits : ℕ := 2048
/-- `TC_WG_REPLAY_WORDS`. -/
def replayWords : ℕ := replayWindowBits / 64
/-- `TC_WG_REJECT_AFTER_MESSAGES`. -/
def rejectAfterMessages : UInt64 := (0xffffffffffffffff : UInt64) - (1 : UInt64) <<< (13 : UInt64)
/-- `SIZE_MAX`. -/
def sizeMax : ℕ := 2 ^ 64 - 1

structure Session where
  sendKey : Key
  recvKey : Key
  localIndex : UInt32
  remoteIndex : UInt32
  sendCounter : UInt64
  /-- The largest counter that was accepted. -/
  recvMax : UInt64
  /-- Which of the counters in the window were accepted, each at its residue. -/
  recvBitmap : Bitmap replayWords 64
  isInitiator : Bool
  established : Bool
  deriving DecidableEq

/-- A session that `memset` has cleared. -/
def Session.zero : Session :=
  { sendKey := zeroKey, recvKey := zeroKey, localIndex := 0, remoteIndex := 0, sendCounter := 0
    recvMax := 0, recvBitmap := .empty _ _, isInitiator := false, established := false }

namespace Crypto

variable (C : Crypto)

/-- `tc_wg_begin_session`: the session of a handshake that has come to a response, and the handshake
without its secrets. -/
def beginSession (hs : Handshake) : Handshake × Except Err Session :=
  let (t0, t1) := C.kdf2 hs.chainKey []
  let done := { hs with
    chainKey := zeroKey, hash := zeroKey, localEphemeral := zeroKey, state := .zeroed }
  match hs.state with
  | .responseConsumed =>
    (done, .ok { Session.zero with
      sendKey := t0, recvKey := t1, isInitiator := true
      localIndex := hs.localIndex, remoteIndex := hs.remoteIndex, established := true })
  | .responseCreated =>
    (done, .ok { Session.zero with
      recvKey := t0, sendKey := t1, isInitiator := false
      localIndex := hs.localIndex, remoteIndex := hs.remoteIndex, established := true })
  | _ => (hs, .error .inval)

end Crypto

namespace Session

variable (s : Session)

def transportPacket (receiver : UInt32) (counter : UInt64) (sealed : List UInt8) : List UInt8 :=
  writeLE32 msgTransport ++ writeLE32 receiver ++ writeLE64 counter ++ sealed

/-- `tc_wg_encrypt`, with the size of the caller's buffer. -/
def encrypt (C : Crypto) (cap : ℕ) (text : List UInt8) : Session × Except Err (List UInt8) :=
  if s.established = false then (s, .error .inval)
  else if text.length > sizeMax - transportHeaderSize - tagLen then (s, .error .range)
  else if cap < transportHeaderSize + text.length + tagLen then (s, .error .nospace)
  -- a counter that comes again would repeat a nonce
  else if s.sendCounter ≥ rejectAfterMessages then (s, .error .range)
  else
    match C.aeadSeal s.sendKey s.sendCounter [] text with
    | .error e => (s, .error e)
    | .ok sealed =>
      ({ s with sendCounter := s.sendCounter + 1 },
        .ok (transportPacket s.remoteIndex s.sendCounter sealed))

def replayCheck (counter : UInt64) : Bool :=
  if counter ≥ rejectAfterMessages then false
  else if counter > s.recvMax then true
  else if (s.recvMax - counter).toNat ≥ replayWindowBits then false
  else !s.recvBitmap.test (counter.toNat % replayWindowBits)

/-- `replay_record`. The loop counts from `recv_max + 1` to `counter`. -/
def replayRecord (counter : UInt64) : Session :=
  let s :=
    if counter > s.recvMax then
      let jump := (counter - s.recvMax).toNat
      let recvBitmap :=
        if jump ≥ replayWindowBits then .empty _ _
        else s.recvBitmap.clearRun replayWindowBits s.recvMax.toNat jump
      { s with recvBitmap, recvMax := counter }
    else s
  { s with recvBitmap := s.recvBitmap.mark (counter.toNat % replayWindowBits) }

@[simp] lemma replayRecord_sendKey (counter : UInt64) :
    (s.replayRecord counter).sendKey = s.sendKey := by
  unfold replayRecord
  split <;> rfl

@[simp] lemma replayRecord_sendCounter (counter : UInt64) :
    (s.replayRecord counter).sendCounter = s.sendCounter := by
  unfold replayRecord
  split <;> rfl

/-- `tc_wg_decrypt`, with the size of the caller's buffer. -/
def decrypt (C : Crypto) (cap : ℕ) (msg : List UInt8) : Session × Except Err (List UInt8) :=
  if s.established = false then (s, .error .inval)
  else if msg.length < transportHeaderSize + tagLen then (s, .error .trunc)
  else if readLE32 msg 0 ≠ msgTransport then (s, .error .inval)
  else if readLE32 msg 4 ≠ s.localIndex then (s, .error .inval)
  else
    let counter := readLE64 msg 8
    if s.replayCheck counter = false then (s, .error .inval)
    else if cap < msg.length - transportHeaderSize - tagLen then (s, .error .nospace)
    else
      match C.aeadOpen s.recvKey counter [] (msg.drop transportHeaderSize) with
      | .error e => (s, .error e)
      -- the window moves only now that the packet is proven
      | .ok text => (s.replayRecord counter, .ok text)

lemma readLE64_transportPacket (receiver : UInt32) (n : UInt64) (sealed : List UInt8) :
    readLE64 (transportPacket receiver n sealed) 8 = n :=
  readLE64_eq_of_split rfl rfl

/-! ## What sealing and opening do -/

variable {s} {C : Crypto} {cap : ℕ} {s' : Session} {text msg : List UInt8}

/-- A packet is sealed under the next counter, which is below the limit, or nothing changes. -/
theorem encrypt_cases (s : Session) (C : Crypto) (cap : ℕ) (text : List UInt8) :
    (∃ e, s.encrypt C cap text = (s, .error e)) ∨
      ∃ sealed, s.encrypt C cap text = ({ s with sendCounter := s.sendCounter + 1 },
          .ok (transportPacket s.remoteIndex s.sendCounter sealed)) ∧
        s.sendCounter < rejectAfterMessages ∧
        C.aeadSeal s.sendKey s.sendCounter [] text = .ok sealed := by
  unfold encrypt
  split_ifs with _ _ _ hlimit
  · exact .inl ⟨_, rfl⟩
  · exact .inl ⟨_, rfl⟩
  · exact .inl ⟨_, rfl⟩
  · exact .inl ⟨_, rfl⟩
  · split
    · exact .inl ⟨_, rfl⟩
    · next sealed hseal => exact .inr ⟨sealed, rfl, UInt64.not_le.mp hlimit, hseal⟩

lemma encrypt_ok (h : s.encrypt C cap text = (s', .ok msg)) :
    ∃ sealed, s' = { s with sendCounter := s.sendCounter + 1 } ∧
      msg = transportPacket s.remoteIndex s.sendCounter sealed ∧ s.sendCounter < rejectAfterMessages ∧
      C.aeadSeal s.sendKey s.sendCounter [] text = .ok sealed := by
  obtain ⟨e, hfail⟩ | ⟨sealed, hok, hlimit, hseal⟩ := s.encrypt_cases C cap text
  · rw [hfail] at h
    cases h
  · rw [hok] at h
    obtain ⟨hs, hmsg⟩ := Prod.mk.inj h
    exact ⟨sealed, hs.symm, (Except.ok.inj hmsg).symm, hlimit, hseal⟩

lemma encrypt_error {e : Err} (h : s.encrypt C cap text = (s', .error e)) : s' = s := by
  obtain ⟨e', hfail⟩ | ⟨sealed, hok, -⟩ := s.encrypt_cases C cap text
  · exact (Prod.mk.inj (h.symm.trans hfail)).1
  · cases (Prod.mk.inj (h.symm.trans hok)).2

/-- The packet is a transport packet for this session. -/
def Addressed (s : Session) (msg : List UInt8) : Prop :=
  transportHeaderSize + tagLen ≤ msg.length ∧ readLE32 msg 0 = msgTransport ∧
    readLE32 msg 4 = s.localIndex

/-- A packet is opened iff it is a packet for this session that passes the replay check, fits the
buffer and is authentic. -/
theorem decrypt_ok_iff :
    (s.decrypt C cap msg).2 = .ok text ↔
      s.established = true ∧ s.Addressed msg ∧ s.replayCheck (readLE64 msg 8) = true ∧
        msg.length - transportHeaderSize - tagLen ≤ cap ∧
        C.aeadOpen s.recvKey (readLE64 msg 8) [] (msg.drop transportHeaderSize) = .ok text := by
  unfold decrypt Addressed
  dsimp only
  split_ifs with hest hlen htype hindex hcheck hroom
  · simp [hest]
  · simp [Nat.not_le.mpr hlen]
  · simp [htype]
  · simp [hindex]
  · simp [hcheck]
  · simp [Nat.not_le.mpr hroom]
  · simp only [hest]
    split <;> simp_all

/-- The window moves with a packet that is opened, and nothing changes with any other. -/
theorem decrypt_cases (s : Session) (C : Crypto) (cap : ℕ) (msg : List UInt8) :
    (∃ e, s.decrypt C cap msg = (s, .error e)) ∨
      ∃ text, s.decrypt C cap msg = (s.replayRecord (readLE64 msg 8), .ok text) := by
  unfold decrypt
  dsimp only
  split_ifs
  iterate 6 exact .inl ⟨_, rfl⟩
  split
  · exact .inl ⟨_, rfl⟩
  · next text _ => exact .inr ⟨text, rfl⟩

lemma decrypt_ok (h : s.decrypt C cap msg = (s', .ok text)) :
    s' = s.replayRecord (readLE64 msg 8) := by
  obtain ⟨e, hfail⟩ | ⟨text', hok⟩ := s.decrypt_cases C cap msg
  · rw [hfail] at h
    cases h
  · rw [hok] at h
    exact (Prod.mk.inj h).1.symm

end Session

end Wg
