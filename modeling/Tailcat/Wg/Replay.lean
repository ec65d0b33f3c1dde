import Tailcat.Library.Run
import Tailcat.Wg.Session

/-!
# The replay window

`Session.Tracks s accepted` says what the window of a session stands for: the largest accepted
counter, and for each counter less than the size of the window behind it whether it was accepted.

## Main results

* `Session.Tracks.replayCheck_iff`: the check accepts the counters that it should;
* `replay_exact`: which packets a session accepts, in every sequence of packets.
-/

namespace Wg

open Session ByteOrder Fields List

/-- The counter is greater than the largest accepted one, or less than the window behind it. -/
def InWindow (accepted : List UInt64) (counter : UInt64) : Prop :=
  ∀ m ∈ accepted, (∀ c ∈ accepted, c ≤ m) → m < counter ∨ (m - counter).toNat < replayWindowBits

namespace Session

variable {s : Session} {accepted : List UInt64} {counter : UInt64}

/-- The window stands for the counters that were accepted. -/
structure Tracks (s : Session) (accepted : List UInt64) : Prop where
  le_recvMax : ∀ c ∈ accepted, c ≤ s.recvMax
  recvMax_mem : accepted ≠ [] → s.recvMax ∈ accepted
  recvMax_zero : accepted = [] → s.recvMax = 0
  test_iff : ∀ c : UInt64, c ≤ s.recvMax → s.recvMax.toNat - c.toNat < replayWindowBits →
    (s.recvBitmap.test (c.toNat % replayWindowBits) = true ↔ c ∈ accepted)

/-- A session as `tc_wg_begin_session` makes it, before the first packet. -/
structure Fresh (s : Session) : Prop where
  established : s.established = true
  recvMax : s.recvMax = 0
  recvBitmap : s.recvBitmap = .empty _ _

lemma fresh_of_beginSession {C : Crypto} {hs : Handshake} (h : (C.beginSession hs).2 = .ok s) :
    s.Fresh := by
  unfold Crypto.beginSession at h
  dsimp only at h
  split at h <;> cases h
  · exact ⟨rfl, rfl, rfl⟩
  · exact ⟨rfl, rfl, rfl⟩

lemma Fresh.tracks (h : s.Fresh) : s.Tracks [] where
  le_recvMax := nofun
  recvMax_mem := fun hne => absurd rfl hne
  recvMax_zero := fun _ => h.recvMax
  test_iff := fun c _ _ => by simp [h.recvBitmap]

lemma mod_lt_window (a : ℕ) : a % replayWindowBits < replayWords * 64 := Nat.mod_lt a (by decide)

lemma mod_ne_mod {a b : ℕ} (hlt : a < b) (hwin : b - a < replayWindowBits) :
    a % replayWindowBits ≠ b % replayWindowBits := by
  unfold replayWindowBits at hwin ⊢
  omega

section

variable (h : s.Tracks accepted)

include h

lemma Tracks.inWindow_iff :
    InWindow accepted counter ↔
      s.recvMax < counter ∨ (s.recvMax - counter).toNat < replayWindowBits := by
  constructor
  · intro hwin
    by_cases hnil : accepted = []
    · -- nothing was accepted: the largest counter reads as zero
      rw [h.recvMax_zero hnil]
      rcases eq_or_ne counter 0 with rfl | hne
      · exact .inr (by decide)
      · exact .inl (UInt64.pos_iff_ne_zero.mpr hne)
    · exact hwin _ (h.recvMax_mem hnil) h.le_recvMax
  · intro hwin m hm hmax
    have hnil : accepted ≠ [] := ne_nil_of_mem hm
    obtain rfl : m = s.recvMax :=
      UInt64.le_antisymm (h.le_recvMax m hm) (hmax _ (h.recvMax_mem hnil))
    exact hwin

/-- The check accepts the counters below the limit that are new and in the window. -/
theorem Tracks.replayCheck_iff :
    s.replayCheck counter = true ↔
      counter < rejectAfterMessages ∧ counter ∉ accepted ∧ InWindow accepted counter := by
  rw [h.inWindow_iff]
  unfold replayCheck
  split_ifs with hlimit hnew hold
  · simp [UInt64.not_lt.mpr hlimit]
  · have hmem : counter ∉ accepted := fun hmem =>
      absurd (h.le_recvMax counter hmem) (UInt64.not_le.mpr hnew)
    simp [UInt64.not_le.mp hlimit, hnew, hmem]
  · simp [UInt64.not_lt.mpr (UInt64.not_lt.mp hnew), Nat.not_lt.mpr hold]
  · have hle : counter ≤ s.recvMax := UInt64.not_lt.mp hnew
    have hwin : (s.recvMax - counter).toNat < replayWindowBits := not_le.mp hold
    have htest := h.test_iff counter hle (by rwa [← UInt64.toNat_sub_of_le _ _ hle])
    rw [Bool.not_eq_true', ← Bool.not_eq_true, htest]
    simp [UInt64.not_le.mp hlimit, hwin]

lemma Tracks.replayRecord_of_le (hle : counter ≤ s.recvMax)
    (hwin : s.recvMax.toNat - counter.toNat < replayWindowBits) :
    (s.replayRecord counter).Tracks (counter :: accepted) := by
  have hold : ¬counter > s.recvMax := UInt64.not_lt.mpr hle
  have hrecord : s.replayRecord counter =
      { s with recvBitmap := s.recvBitmap.mark (counter.toNat % replayWindowBits) } := by
    unfold replayRecord
    rw [if_neg hold]
  rw [hrecord]
  refine ⟨?_, fun _ => ?_, nofun, fun c (hc : c ≤ s.recvMax)
    (hcwin : s.recvMax.toNat - c.toNat < replayWindowBits) => ?_⟩
  · rintro c (_ | ⟨_, hc⟩)
    · exact hle
    · exact h.le_recvMax c hc
  · by_cases hnil : accepted = []
    · -- the largest counter reads as zero, so the first one is zero
      have hzero := h.recvMax_zero hnil
      rw [hzero] at hle
      rw [mem_cons, hzero]
      exact .inl (UInt64.le_antisymm UInt64.zero_le hle)
    · exact mem_cons_of_mem _ (h.recvMax_mem hnil)
  · rw [Bitmap.test_mark (mod_lt_window _), Bool.or_eq_true, decide_eq_true_iff,
      h.test_iff c hc hcwin, mem_cons]
    refine or_congr_left ⟨fun heq => ?_, fun heq => heq ▸ rfl⟩
    -- both counters are in the window, so they are equal if their residues are
    have hle' := UInt64.le_iff_toNat_le.mp hle
    have hc' := UInt64.le_iff_toNat_le.mp hc
    rcases lt_trichotomy c.toNat counter.toNat with hlt | heq' | hlt
    · exact absurd heq.symm (mod_ne_mod hlt (by omega))
    · exact UInt64.toNat_inj.mp heq'
    · exact absurd heq (mod_ne_mod hlt (by omega))

lemma Tracks.test_slid (hnew : s.recvMax < counter) {c : UInt64}
    (hc : c < counter) (hcwin : counter.toNat - c.toNat < replayWindowBits) :
    (if (counter - s.recvMax).toNat ≥ replayWindowBits then .empty _ _
      else s.recvBitmap.clearRun replayWindowBits s.recvMax.toNat
        (counter - s.recvMax).toNat : Bitmap replayWords 64).test (c.toNat % replayWindowBits) = true ↔
      c ∈ accepted := by
  have hnew' := UInt64.lt_iff_toNat_lt.mp hnew
  have hc' := UInt64.lt_iff_toNat_lt.mp hc
  have hjump : (counter - s.recvMax).toNat = counter.toNat - s.recvMax.toNat :=
    UInt64.toNat_sub_of_le _ _ (UInt64.le_of_lt hnew)
  have hup : s.recvMax.toNat < c.toNat → c ∉ accepted := fun hlt hmem =>
    absurd (UInt64.le_iff_toNat_le.mp (h.le_recvMax c hmem)) (by omega)
  rw [hjump]
  split_ifs
  · -- the window has moved past all old counters
    simp [hup (by omega)]
  have hclear := Bitmap.test_clearRun (m := s.recvBitmap) (a := s.recvMax.toNat)
    (k := counter.toNat - s.recvMax.toNat) (by decide : 0 < replayWords * 64)
    (mod_lt_window c.toNat)
  have hsize : replayWords * 64 = replayWindowBits := by decide
  rw [hsize] at hclear
  rw [hclear]
  by_cases hlow : c.toNat ≤ s.recvMax.toNat
  · rw [h.test_iff c (UInt64.le_iff_toNat_le.mpr hlow) (by omega)]
    refine ⟨fun hboth => hboth.1, fun hmem => ⟨hmem, fun l hl hl' => ?_⟩⟩
    exact (mod_ne_mod (by omega : c.toNat < l) (by omega)).symm
  · refine ⟨fun hboth => ?_, fun hmem => absurd hmem (hup (by omega))⟩
    exact absurd rfl (hboth.2 c.toNat (by omega) (by omega))

lemma Tracks.replayRecord_of_lt (hnew : s.recvMax < counter) :
    (s.replayRecord counter).Tracks (counter :: accepted) := by
  have hmax : (s.replayRecord counter).recvMax = counter := by
    unfold replayRecord
    rw [if_pos hnew]
  refine ⟨?_, fun _ => ?_, nofun, fun c hc hcwin => ?_⟩
  · rw [hmax]
    rintro c (_ | ⟨_, hc⟩)
    · exact UInt64.le_refl _
    · exact UInt64.le_of_lt (UInt64.lt_of_le_of_lt (h.le_recvMax c hc) hnew)
  · rw [hmax]
    exact mem_cons_self
  · rw [hmax] at hc hcwin
    unfold replayRecord
    rw [if_pos hnew]
    rw [Bitmap.test_mark (mod_lt_window _), Bool.or_eq_true]
    rcases UInt64.lt_or_eq_of_le hc with hlt | rfl
    · have hne : counter.toNat % replayWindowBits ≠ c.toNat % replayWindowBits :=
        (mod_ne_mod (UInt64.lt_iff_toNat_lt.mp hlt) hcwin).symm
      have hne' : c ≠ counter := UInt64.ne_of_lt hlt
      rw [h.test_slid hnew hlt hcwin]
      simp [hne, hne']
    · simp

/-- Recording an accepted counter keeps the window right. -/
theorem Tracks.replayRecord (hcheck : s.replayCheck counter = true) :
    (s.replayRecord counter).Tracks (counter :: accepted) := by
  obtain ⟨-, -, hwin⟩ := h.replayCheck_iff.mp hcheck
  by_cases hnew : s.recvMax < counter
  · exact h.replayRecord_of_lt hnew
  have hle := UInt64.not_lt.mp hnew
  refine h.replayRecord_of_le hle ?_
  rw [← UInt64.toNat_sub_of_le _ _ hle]
  exact (h.inWindow_iff.mp hwin).resolve_left hnew

end

lemma Addressed.eq_transportPacket {msg : List UInt8} (h : s.Addressed msg) :
    msg = transportPacket s.localIndex (readLE64 msg 8) (msg.drop transportHeaderSize) := by
  obtain ⟨hlen, htype, hindex⟩ := h
  have hlen' : 16 ≤ msg.length := by
    unfold transportHeaderSize at hlen
    omega
  have hheader : msg.take 16 = slice msg 0 4 ++ slice msg 4 4 ++ slice msg 8 8 := by
    rw [← slice_add, ← slice_add]
    rfl
  rw [transportPacket, ← htype, ← hindex, writeLE32_readLE32 (by omega),
    writeLE32_readLE32 (by omega), writeLE64_readLE64 (by omega), ← hheader]
  exact (take_append_drop 16 msg).symm

lemma drop_transportPacket (receiver : UInt32) (n : UInt64) (sealed : List UInt8) :
    (transportPacket receiver n sealed).drop transportHeaderSize = sealed := rfl

lemma addressed_transportPacket {n : UInt64} {sealed : List UInt8} (h : tagLen ≤ sealed.length) :
    s.Addressed (transportPacket s.localIndex n sealed) := by
  refine ⟨?_, ?_, ?_⟩
  · simp only [transportPacket, length_append, length_writeLE32, length_writeLE64]
    unfold transportHeaderSize
    omega
  · exact readLE32_eq_of_split (by rw [transportPacket, append_assoc,
      append_assoc, nil_append]) rfl
  · exact readLE32_eq_of_split (by rw [transportPacket, append_assoc]) rfl

end Session

/-! ## Sequences of packets -/

/-- What was sealed under a key: the AEAD opens exactly these pairs of a counter and a ciphertext. -/
def Crypto.OpensExactly (C : Crypto) (key : Key) (sealed : Set (UInt64 × List UInt8)) : Prop :=
  ∀ n text, (∃ opened, C.aeadOpen key n [] text = .ok opened) ↔ (n, text) ∈ sealed

/-- A session that is given packets, and the counters that it has accepted. -/
structure Receiver where
  session : Session
  accepted : List UInt64

namespace Receiver

/-- One packet is given to `tc_wg_decrypt`, with the size of the buffer. -/
def step (C : Crypto) (w : Receiver) (call : ℕ × List UInt8) : Receiver :=
  match w.session.decrypt C call.1 call.2 with
  | (s, .ok _) => { session := s, accepted := readLE64 call.2 8 :: w.accepted }
  | (s, .error _) => { w with session := s }

def Accepts (C : Crypto) (w : Receiver) (call : ℕ × List UInt8) : Prop :=
  ∃ text, (w.session.decrypt C call.1 call.2).2 = .ok text

/-- The packet is one that was sealed, the payload fits the buffer, and the counter is below the
limit, new and in the window. -/
def Acceptable (sealed : Set (UInt64 × List UInt8)) (localIndex : UInt32) (w : Receiver)
    (call : ℕ × List UInt8) : Prop :=
  ∃ n text, (n, text) ∈ sealed ∧ call.2 = transportPacket localIndex n text ∧
    text.length - tagLen ≤ call.1 ∧ n < rejectAfterMessages ∧ n ∉ w.accepted ∧ InWindow w.accepted n

/-- The packet is accepted iff it should be, and a packet that is rejected changes nothing. -/
def Exact (C : Crypto) (sealed : Set (UInt64 × List UInt8)) (localIndex : UInt32) (w : Receiver)
    (call : ℕ × List UInt8) : Prop :=
  (w.Accepts C call ↔ w.Acceptable sealed localIndex call) ∧
    (¬w.Accepts C call → (w.step C call).session = w.session)

/-- What every packet leaves as it is, and what the window stands for. -/
structure Inv (key : Key) (localIndex : UInt32) (w : Receiver) : Prop where
  established : w.session.established = true
  recvKey : w.session.recvKey = key
  localIndex_eq : w.session.localIndex = localIndex
  tracks : w.session.Tracks w.accepted

variable {C : Crypto} {key : Key} {localIndex : UInt32} {w : Receiver}

lemma step_cases (C : Crypto) (w : Receiver) (call : ℕ × List UInt8) :
    (¬w.Accepts C call ∧ w.step C call = w) ∨
      (w.Accepts C call ∧ w.step C call =
        { session := w.session.replayRecord (readLE64 call.2 8)
          accepted := readLE64 call.2 8 :: w.accepted }) := by
  unfold Accepts step
  obtain ⟨e, hdec⟩ | ⟨text, hdec⟩ := w.session.decrypt_cases C call.1 call.2
  · exact .inl ⟨by simp [hdec], by simp only [hdec]⟩
  · exact .inr ⟨⟨text, by rw [hdec]⟩, by simp only [hdec]⟩

lemma Inv.step (h : Inv key localIndex w) (call : ℕ × List UInt8) :
    Inv key localIndex (w.step C call) := by
  rcases step_cases C w call with ⟨-, hsame⟩ | ⟨⟨text, htext⟩, hnew⟩
  · rwa [hsame]
  obtain ⟨-, -, hcheck, -, -⟩ := decrypt_ok_iff.mp htext
  rw [hnew]
  have hframe : ∀ n, (w.session.replayRecord n).established = w.session.established ∧
      (w.session.replayRecord n).recvKey = w.session.recvKey ∧
      (w.session.replayRecord n).localIndex = w.session.localIndex := by
    intro n
    unfold replayRecord
    split <;> exact ⟨rfl, rfl, rfl⟩
  obtain ⟨hest, hkey, hindex⟩ := hframe (readLE64 call.2 8)
  exact ⟨hest.trans h.established, hkey.trans h.recvKey, hindex.trans h.localIndex_eq,
    h.tracks.replayRecord hcheck⟩

lemma Inv.accepts_iff {sealed : Set (UInt64 × List UInt8)} (h : Inv key localIndex w)
    (hsealed : C.OpensExactly key sealed) (call : ℕ × List UInt8) :
    w.Accepts C call ↔ w.Acceptable sealed localIndex call := by
  unfold Accepts
  simp only [decrypt_ok_iff, h.tracks.replayCheck_iff, h.recvKey, h.established]
  constructor
  · rintro ⟨text, -, haddr, hcheck, hroom, hopen⟩
    refine ⟨_, _, (hsealed _ _).mp ⟨text, hopen⟩, h.localIndex_eq ▸ haddr.eq_transportPacket, ?_,
      hcheck⟩
    rwa [length_drop]
  · rintro ⟨n, text, hmem, hmsg, hroom, hcheck⟩
    obtain ⟨opened, hopen⟩ := (hsealed n text).mpr hmem
    have hlen := C.length_aeadOpen hopen
    rw [hmsg, readLE64_transportPacket]
    refine ⟨opened, trivial, ?_, hcheck, ?_, hopen⟩
    · rw [← h.localIndex_eq]
      exact addressed_transportPacket (by omega)
    · have hdrop := drop_transportPacket localIndex n text
      exact hroom

end Receiver

/-- In every sequence of packets, authentic or forged and with any counters, a session accepts
exactly the packets that were sealed, that fit the buffer and whose counter is below the limit, was
not accepted before and is greater than the largest accepted one or less than the window behind it.
A packet that is rejected leaves the window as it was. -/
theorem replay_exact (C : Crypto) (s : Session) (hfresh : s.Fresh)
    (sealed : Set (UInt64 × List UInt8)) (hsealed : C.OpensExactly s.recvKey sealed)
    (calls : List (ℕ × List UInt8)) :
    Run.Ok (Receiver.step C) (Receiver.Exact C sealed s.localIndex) ⟨s, []⟩ calls := by
  have hstart : Receiver.Inv s.recvKey s.localIndex ⟨s, []⟩ :=
    ⟨hfresh.established, rfl, rfl, hfresh.tracks⟩
  have hall : Run.Ok (Receiver.step C) (fun _ _ => True) ⟨s, []⟩ calls :=
    Run.ok_of_forall (fun _ _ => trivial) _ _
  refine hall.of_invariant hstart (fun w call h _ => h.step call) fun w call h _ => ?_
  refine ⟨h.accepts_iff hsealed call, fun hnot => ?_⟩
  rcases Receiver.step_cases C w call with ⟨-, hsame⟩ | ⟨hacc, -⟩
  · rw [hsame]
  · exact absurd hacc hnot

lemma opensExactly_clearSuite (key : Key) : clearSuite.OpensExactly key
      {x | tagLen ≤ x.2.length ∧ x.2.drop (x.2.length - tagLen) = clearTag key} := by
  intro n text
  constructor
  · rintro ⟨opened, hopen⟩
    change (if _ then _ else _) = _ at hopen
    split at hopen
    · assumption
    · cases hopen
  · exact fun h => ⟨_, if_pos h⟩

def unusedSession : Session :=
  { zero with recvKey := halfKey [9], localIndex := 7, established := true }

/-- An empty packet for `unusedSession`. -/
def emptyPacket (n : UInt64) : List UInt8 := transportPacket 7 n (clearTag (halfKey [9]))

theorem replay_exact_reordered :
    ([(0, emptyPacket 5), (0, emptyPacket 5), (0, emptyPacket 3000), (0, emptyPacket 900),
        (0, emptyPacket 953)].foldl (Receiver.step clearSuite) ⟨unusedSession, []⟩).accepted =
      [953, 3000, 5] ∧
    Run.Ok (Receiver.step clearSuite)
      (Receiver.Exact clearSuite {x | tagLen ≤ x.2.length ∧
        x.2.drop (x.2.length - tagLen) = clearTag (halfKey [9])} 7) ⟨unusedSession, []⟩
      [(0, emptyPacket 5), (0, emptyPacket 5), (0, emptyPacket 3000), (0, emptyPacket 900),
        (0, emptyPacket 953)] :=
  ⟨by decide +kernel, replay_exact clearSuite unusedSession ⟨rfl, rfl, rfl⟩ _
    (opensExactly_clearSuite _) _⟩

end Wg
