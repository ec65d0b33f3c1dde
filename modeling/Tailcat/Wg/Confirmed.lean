import Tailcat.Wg.KeyRing

/-!
# A peer sends under confirmed and fresh keys

A keypair is confirmed once a response that opened has completed a handshake of this side with it, or
once this side has answered an initiation with it and has opened a packet under it. `Sound` says that
each event of a history is justified by the ones before it, and the invariant says what each slot holds.

## Main results

* `Peer.sends_under_confirmed_keys`: the history of every run is sound.
-/

namespace Wg

open ByteOrder Fields

variable {k : Keypair}

namespace Keypair

/-- The keypair as it was when it was derived: only its counters and its window have changed since. -/
def origin (k : Keypair) : Keypair :=
  { k with s := { k.s with sendCounter := 0, recvMax := 0, recvBitmap := .empty _ _ } }

lemma origin_replayRecord (k : Keypair) (counter : UInt64) :
    { k with s := k.s.replayRecord counter : Keypair }.origin = k.origin := by
  unfold Session.replayRecord
  split <;> simp only [origin]

lemma origin_sendCounter (k : Keypair) (counter : UInt64) :
    { k with s := { k.s with sendCounter := counter } : Keypair }.origin = k.origin := by
  simp only [origin]

lemma origin_of_beginSession {C : Crypto} {hs : Handshake} {s : Session} (birthMs : UInt64)
    (h : (C.beginSession hs).2 = .ok s) :
    Keypair.origin { s, birthMs, valid := true } = { s, birthMs, valid := true } := by
  unfold Crypto.beginSession at h
  dsimp only at h
  split at h
  · obtain rfl := Except.ok.inj h
    simp only [origin, Session.zero]
  · obtain rfl := Except.ok.inj h
    simp only [origin, Session.zero]
  · cases h

variable {now : UInt64}

lemma lt_of_usableForSend (h : k.usableForSend now = true) :
    now.toNat < k.birthMs.toNat + rejectAfterTimeMs.toNat := by
  have hage : k.ageOf now < rejectAfterTimeMs := by
    simp only [usableForSend, Bool.and_eq_true, decide_eq_true_eq] at h
    exact h.1.2
  unfold ageOf at hage
  split at hage
  · next hlater =>
    have hle : k.birthMs ≤ now := UInt64.le_of_lt hlater
    rw [UInt64.lt_iff_toNat_lt, UInt64.toNat_sub_of_le _ _ hle] at hage
    omega
  · next hearlier =>
    have hle : now.toNat ≤ k.birthMs.toNat := UInt64.le_iff_toNat_le.mp (UInt64.not_lt.mp hearlier)
    have hpos : 0 < rejectAfterTimeMs.toNat := by decide
    omega

lemma valid_of_usableForSend (h : k.usableForSend now = true) : k.valid = true := by
  simp only [usableForSend, Bool.and_eq_true] at h
  exact h.1.1.1

lemma valid_of_usableForRecv (h : k.usableForRecv now = true) : k.valid = true := by
  simp only [usableForRecv, Bool.and_eq_true] at h
  exact h.1.1

end Keypair

/-! ## Histories -/

namespace History

variable {h : List Event} {k : Keypair} {e : Event}

def Joined (h : List Event) (k : Keypair) : Prop := ∃ hs msg, .joined k hs msg ∈ h

def Answered (h : List Event) (k : Keypair) : Prop := ∃ timestamp, .answered k timestamp ∈ h

def Opened (h : List Event) (k : Keypair) : Prop := ∃ k' msg, .opened k' msg ∈ h ∧ k'.origin = k

def Known (h : List Event) (k : Keypair) : Prop := Joined h k ∨ Answered h k

def Confirmed (h : List Event) (k : Keypair) : Prop := Joined h k ∨ (Answered h k ∧ Opened h k)

lemma Joined.cons (hk : Joined h k) : Joined (e :: h) k := by
  obtain ⟨hs, msg, hmem⟩ := hk
  exact ⟨hs, msg, List.mem_cons_of_mem _ hmem⟩

lemma Answered.cons (hk : Answered h k) : Answered (e :: h) k := by
  obtain ⟨timestamp, hmem⟩ := hk
  exact ⟨timestamp, List.mem_cons_of_mem _ hmem⟩

lemma Opened.cons (hk : Opened h k) : Opened (e :: h) k := by
  obtain ⟨k', msg, hmem, horigin⟩ := hk
  exact ⟨k', msg, List.mem_cons_of_mem _ hmem, horigin⟩

lemma Known.cons (hk : Known h k) : Known (e :: h) k := hk.imp .cons .cons

lemma Confirmed.cons (hk : Confirmed h k) : Confirmed (e :: h) k :=
  hk.imp .cons fun ⟨hanswered, hopened⟩ => ⟨hanswered.cons, hopened.cons⟩

lemma Confirmed.known (hk : Confirmed h k) : Known h k := hk.imp_right And.left

/-- The event is justified by the events before it. A packet is transmitted under a keypair that is
confirmed and less than the reject age old; a handshake is joined with a response that opens; a packet
is opened under a keypair from a handshake. -/
def Justified (C : Crypto) (id : Identity) (h : List Event) : Event → Prop
  | .transport k now msg =>
    Confirmed h k.origin ∧ now.toNat < k.birthMs.toNat + rejectAfterTimeMs.toNat ∧
      ∃ text sealed, C.aeadSeal k.s.sendKey k.s.sendCounter [] text = .ok sealed ∧
        msg = Session.transportPacket k.s.remoteIndex k.s.sendCounter sealed
  | .joined k hs msg =>
    ∃ ss ss' keys, Crypto.ResponseParts C hs id msg ss ss' keys ∧
      (C.beginSession (Crypto.responseConsumed C hs msg keys)).2 = .ok k.s
  | .opened k msg =>
    Known h k.origin ∧ k.s.Addressed msg ∧
      ∃ text, C.aeadOpen k.s.recvKey (readLE64 msg 8) [] (msg.drop transportHeaderSize) = .ok text
  | _ => True

/-- Every event is justified by the events before it; the newest is the first. -/
def Sound (C : Crypto) (id : Identity) : List Event → Prop
  | [] => True
  | e :: h => Justified C id h e ∧ Sound C id h

end History

/-! ## The slots -/

namespace KeyRing

open History

variable {C : Crypto} {r r' : KeyRing} {h : List Event} {slot : Slot} {e : Event} {new : Keypair}

/-- What a slot says about the keypair in it. -/
def Standing (h : List Event) : Slot → Keypair → Prop
  | .current => Confirmed h
  | .previous => Known h
  | .next => Answered h

lemma Standing.known (hk : Standing h slot k) : Known h k := by
  cases slot with
  | current => exact Confirmed.known hk
  | previous => exact hk
  | next => exact .inr hk

lemma Standing.cons (hk : Standing h slot k) : Standing (e :: h) slot k := by
  cases slot with
  | current => exact Confirmed.cons hk
  | previous => exact Known.cons hk
  | next => exact Answered.cons hk

/-- The invariant: the current keypair is confirmed, the next one was answered with, and the previous
one comes from a handshake. -/
structure HoldsConfirmed (C : Crypto) (id : Identity) (r : KeyRing) : Prop where
  id_eq : r.id = id
  sound : Sound C id r.history
  standing : ∀ slot, (r.toSlots.get slot).valid = true →
    Standing r.history slot (r.toSlots.get slot).origin

variable {id : Identity}

lemma HoldsConfirmed.cons (h : HoldsConfirmed C id r) (he : Justified C id r.history e) :
    HoldsConfirmed C id { r with history := e :: r.history } :=
  ⟨h.id_eq, ⟨he, h.sound⟩, fun slot hvalid => (h.standing slot hvalid).cons⟩

lemma HoldsConfirmed.expire (h : HoldsConfirmed C id r) (now : UInt64) :
    HoldsConfirmed C id { r with toSlots := r.toSlots.expire now } := by
  refine ⟨h.id_eq, h.sound, ?_⟩
  intro slot hvalid
  have hsame := Slots.get_expire hvalid
  rw [hsame] at hvalid ⊢
  exact h.standing slot hvalid

lemma HoldsConfirmed.adoptAsInitiator (h : HoldsConfirmed C id r)
    (hnew : Joined r.history new.origin) :
    HoldsConfirmed C id { r with toSlots := r.toSlots.adoptAsInitiator new } := by
  refine ⟨h.id_eq, h.sound, ?_⟩
  intro slot hvalid
  obtain ⟨rfl, hget⟩ | ⟨rfl, old, -, hold, hget⟩ := Slots.get_adoptAsInitiator hvalid
  · rw [hget]
    exact .inl hnew
  · rw [hget]
    exact (h.standing old hold).known

lemma HoldsConfirmed.adoptAsResponder (h : HoldsConfirmed C id r)
    (hnew : Answered r.history new.origin) (last : Option Timestamp) :
    HoldsConfirmed C id { r with toSlots := r.toSlots.adoptAsResponder new, last } := by
  refine ⟨h.id_eq, h.sound, ?_⟩
  intro slot hvalid
  obtain ⟨rfl, hget⟩ | ⟨rfl, hget⟩ := Slots.get_adoptAsResponder hvalid
  · exact hnew
  · exact h.standing .current (hget ▸ hvalid)

lemma HoldsConfirmed.promoteNext (h : HoldsConfirmed C id r)
    (hopened : Opened r.history r.next.origin) :
    HoldsConfirmed C id { r with toSlots := r.toSlots.promoteNext } := by
  refine ⟨h.id_eq, h.sound, ?_⟩
  intro slot hvalid
  obtain ⟨rfl, hget⟩ | ⟨rfl, hget⟩ := Slots.get_promoteNext hvalid
  · exact .inr ⟨h.standing .next (hget ▸ hvalid), hopened⟩
  · rw [hget]
    exact (h.standing .current (hget ▸ hvalid)).known

lemma HoldsConfirmed.set (h : HoldsConfirmed C id r) (slot : Slot) (new : Keypair)
    (hvalid : new.valid = (r.toSlots.get slot).valid)
    (horigin : new.origin = (r.toSlots.get slot).origin) :
    HoldsConfirmed C id { r with toSlots := r.toSlots.set slot new } := by
  refine ⟨h.id_eq, h.sound, ?_⟩
  intro slot' hvalid'
  rw [Slots.get_set] at hvalid' ⊢
  split at hvalid'
  · next hslot =>
    rw [if_pos hslot, horigin, hslot]
    exact h.standing slot (hvalid ▸ hvalid')
  · next hslot =>
    rw [if_neg hslot]
    exact h.standing slot' hvalid'

/-- Every move keeps the invariant. -/
theorem Move.holdsConfirmed (hmove : Move C r r') (h : HoldsConfirmed C id r) :
    HoldsConfirmed C id r' := by
  cases hmove with
  | expire now => exact h.expire now
  | @transmit e he =>
    refine h.cons ?_
    cases e <;> trivial
  | @send now cap text s msg husable hseal =>
    have hvalid := Keypair.valid_of_usableForSend husable
    obtain ⟨sealed, rfl, rfl, -, haead⟩ := Session.encrypt_ok hseal
    have hjustified : Justified C id r.history (.transport r.current now _) :=
      ⟨h.standing .current hvalid, Keypair.lt_of_usableForSend husable, text, sealed, haead, rfl⟩
    exact (h.cons hjustified).set .current _ rfl (Keypair.origin_sendCounter _ _)
  | @join hs msg ss ss' keys s now hparts hsession =>
    have hjustified : Justified C id r.history (.joined ⟨s, now, true⟩ hs msg) :=
      ⟨ss, ss', keys, h.id_eq ▸ hparts, hsession⟩
    refine (h.cons hjustified).adoptAsInitiator ?_
    rw [Keypair.origin_of_beginSession now hsession]
    exact ⟨hs, msg, List.mem_cons_self⟩
  | @answer hs s now timestamp hsession hnewer =>
    have hcons := h.cons (e := .answered ⟨s, now, true⟩ timestamp) trivial
    refine hcons.adoptAsResponder ?_ _
    rw [Keypair.origin_of_beginSession now hsession]
    exact ⟨timestamp, List.mem_cons_self⟩
  | @receive slot now cap msg text s husable hopen =>
    have hvalid := Keypair.valid_of_usableForRecv husable
    obtain ⟨-, haddressed, -, -, haead⟩ := Session.decrypt_ok_iff.mp (congrArg Prod.snd hopen)
    obtain rfl := Session.decrypt_ok hopen
    have hjustified : Justified C id r.history (.opened (r.toSlots.get slot) msg) :=
      ⟨(h.standing slot hvalid).known, haddressed, text, haead⟩
    have hset := (h.cons hjustified).set slot
      { r.toSlots.get slot with s := (r.toSlots.get slot).s.replayRecord (readLE64 msg 8) } rfl
      (Keypair.origin_replayRecord _ _)
    cases slot with
    | current => exact hset
    | previous => exact hset
    | next =>
      -- the packet that was just opened is the proof that the keypair was waiting for
      exact hset.promoteNext ⟨_, msg, List.mem_cons_self, (Keypair.origin_replayRecord _ _).symm⟩

end KeyRing

/-- Whatever a peer is called with, in any order and on any clock, every event of its history is
justified by the ones before it. In particular every transport packet was sealed under a keypair that
this side obtained as initiator from a response that opened, or as responder with a packet opened under
it since, and less than the reject age before. -/
theorem Peer.sends_under_confirmed_keys (C : Crypto) (id : Identity) (remoteStatic : Key)
    (psk : Option Key) (seed : Except Err UInt64) (calls : List Peer.Call) :
    History.Sound C id (calls.foldl (Peer.step C) (.init id remoteStatic psk seed)).history := by
  have hmoves := Peer.run_moves C (.init id remoteStatic psk seed) calls
  have hstart : KeyRing.HoldsConfirmed C id (.start id) :=
    ⟨rfl, trivial, fun slot hvalid => by simp [KeyRing.valid_start] at hvalid⟩
  exact (hmoves.invariant (fun _ _ => KeyRing.Move.holdsConfirmed) hstart).sound

end Wg
