import Tailcat.Wg.Confirmed

/-!
# No nonce is used twice

The counter lives in a keypair, and keypairs are copied from slot to slot, so a copy whose original
survives would count twice. The invariant ties each counter to the history: it is the number of packets
that were sent under the key, and no two slots hold the same key. That needs every handshake to give a
sending key that no earlier one gave.

## Main results

* `Peer.nonces_never_repeat`: in every run with fresh sending keys the nonces are all different, and
  their counters are below the limit.
-/

namespace Wg

open ByteOrder List

/-! ## Histories -/

namespace Event

/-- The sending key of the handshake that was completed. -/
def sendingKey : Event → Option Key
  | .joined k _ _ | .answered k _ => some k.s.sendKey
  | _ => none

/-- The sending key of the packet that was transmitted, and the counter that it carries. -/
def nonce : Event → Option (Key × UInt64)
  | .transport k _ msg => some (k.s.sendKey, readLE64 msg 8)
  | _ => none

end Event

namespace History

def sendingKeys (h : List Event) : List Key := h.filterMap Event.sendingKey

def nonces (h : List Event) : List (Key × UInt64) := h.filterMap Event.nonce

def sentUnder (h : List Event) (key : Key) : ℕ := (nonces h).countP (·.1 = key)

variable {h : List Event} {e : Event} {key : Key} {n : Key × UInt64}

lemma sendingKeys_cons_none (he : e.sendingKey = none) : sendingKeys (e :: h) = sendingKeys h :=
  filterMap_cons_none he

lemma sendingKeys_cons_some (he : e.sendingKey = some key) :
    sendingKeys (e :: h) = key :: sendingKeys h := filterMap_cons_some he

lemma nonces_cons_none (he : e.nonce = none) : nonces (e :: h) = nonces h := filterMap_cons_none he

lemma nonces_cons_some (he : e.nonce = some n) : nonces
    (e :: h) = n :: nonces h :=
  filterMap_cons_some he

lemma nodup_of_cons (hfresh : (sendingKeys (e :: h)).Nodup) : (sendingKeys h).Nodup := by
  cases he : e.sendingKey with
  | none => rwa [sendingKeys_cons_none he] at hfresh
  | some key =>
    rw [sendingKeys_cons_some he] at hfresh
    exact hfresh.of_cons

lemma mem_sendingKeys_cons (hkey : key ∈ sendingKeys h) : key ∈ sendingKeys (e :: h) := by
  cases he : e.sendingKey with
  | none => rwa [sendingKeys_cons_none he]
  | some key' =>
    rw [sendingKeys_cons_some he]
    exact mem_cons_of_mem _ hkey

lemma sentUnder_cons_none (he : e.nonce = none) : sentUnder (e :: h) key = sentUnder h key := by
  rw [sentUnder, sentUnder, nonces_cons_none he]

lemma sentUnder_cons_some (he : e.nonce = some n) :
    sentUnder (e :: h) key = sentUnder h key + if n.1 = key then 1 else 0 := by
  rw [sentUnder, sentUnder, nonces_cons_some he, countP_cons]
  simp only [decide_eq_true_eq]

lemma sentUnder_eq_zero (hall : ∀ n ∈ nonces h, n.1 ∈ sendingKeys h) (hkey : key ∉ sendingKeys h) :
    sentUnder h key = 0 := by
  rw [sentUnder, countP_eq_zero]
  intro n hn heq
  rw [← decide_eq_true_eq.mp heq] at hkey
  exact hkey (hall n hn)

end History

/-! ## The slots -/

namespace KeyRing

open History

variable {C : Crypto} {r r' : KeyRing} {slots : Slots} {last : Option Timestamp} {e : Event}

/-- The invariant: each counter is the number of packets that were sent under its key, no two slots
hold the same key, and all nonces are different. -/
structure CountsSent (r : KeyRing) : Prop where
  known : ∀ slot, (r.toSlots.get slot).valid = true →
    (r.toSlots.get slot).s.sendKey ∈ sendingKeys r.history
  counter : ∀ slot, (r.toSlots.get slot).valid = true →
    (r.toSlots.get slot).s.sendCounter.toNat = sentUnder r.history (r.toSlots.get slot).s.sendKey
  distinct : ∀ slot slot', (r.toSlots.get slot).valid = true → (r.toSlots.get slot').valid = true →
    (r.toSlots.get slot).s.sendKey = (r.toSlots.get slot').s.sendKey → slot = slot'
  sent_known : ∀ n ∈ nonces r.history, n.1 ∈ sendingKeys r.history
  below : ∀ n ∈ nonces r.history, n.2.toNat < sentUnder r.history n.1 ∧ n.2 < rejectAfterMessages
  nodup : (nonces r.history).Nodup

section

variable (h : CountsSent r)

include h

lemma CountsSent.of_slots
    (hslots : ∀ slot, (slots.get slot).valid = true → ∃ old, (r.toSlots.get old).valid = true ∧
      (slots.get slot).s.sendKey = (r.toSlots.get old).s.sendKey ∧
      (slots.get slot).s.sendCounter = (r.toSlots.get old).s.sendCounter)
    (hdistinct : ∀ slot slot', (slots.get slot).valid = true → (slots.get slot').valid = true →
      (slots.get slot).s.sendKey = (slots.get slot').s.sendKey → slot = slot') :
    CountsSent { r with toSlots := slots, last } := by
  refine ⟨?_, ?_, hdistinct, h.sent_known, h.below, h.nodup⟩
  · intro slot hvalid
    obtain ⟨old, hold, hkey, -⟩ := hslots slot hvalid
    rw [hkey]
    exact h.known old hold
  · intro slot hvalid
    obtain ⟨old, hold, hkey, hcounter⟩ := hslots slot hvalid
    rw [hkey, hcounter]
    exact h.counter old hold

lemma CountsSent.set (slot : Slot) (new : Keypair) (hvalid : new.valid = (r.toSlots.get slot).valid)
    (hkey : new.s.sendKey = (r.toSlots.get slot).s.sendKey)
    (hcounter : new.s.sendCounter = (r.toSlots.get slot).s.sendCounter) :
    CountsSent { r with toSlots := r.toSlots.set slot new } := by
  have hget (slot' : Slot) :
      ((r.toSlots.set slot new).get slot').valid = (r.toSlots.get slot').valid ∧
      ((r.toSlots.set slot new).get slot').s.sendKey = (r.toSlots.get slot').s.sendKey ∧
      ((r.toSlots.set slot new).get slot').s.sendCounter = (r.toSlots.get slot').s.sendCounter := by
    rw [Slots.get_set]
    split
    · next hslot =>
      rw [hslot]
      exact ⟨hvalid, hkey, hcounter⟩
    · exact ⟨rfl, rfl, rfl⟩
  refine h.of_slots ?_ ?_
  · intro slot' hslot
    obtain ⟨hvalid', hkey', hcounter'⟩ := hget slot'
    exact ⟨slot', hvalid' ▸ hslot, hkey', hcounter'⟩
  · intro slot1 slot2 hslot1 hslot2 heq
    rw [(hget _).1] at hslot1 hslot2
    rw [(hget _).2.1, (hget _).2.1] at heq
    exact h.distinct slot1 slot2 hslot1 hslot2 heq

lemma CountsSent.promoteNext : CountsSent { r with toSlots := r.toSlots.promoteNext } := by
  have hget (slot : Slot) (hvalid : (r.toSlots.promoteNext.get slot).valid = true) :
      ∃ old, r.toSlots.promoteNext.get slot = r.toSlots.get old ∧
        ((slot = .current ∧ old = .next) ∨ (slot = .previous ∧ old = .current)) := by
    obtain ⟨hslot, hget⟩ | ⟨hslot, hget⟩ := Slots.get_promoteNext hvalid
    · exact ⟨.next, hget, .inl ⟨hslot, rfl⟩⟩
    · exact ⟨.current, hget, .inr ⟨hslot, rfl⟩⟩
  refine h.of_slots ?_ ?_
  · intro slot hvalid
    obtain ⟨old, hold, -⟩ := hget slot hvalid
    exact ⟨old, hold ▸ hvalid, by rw [hold], by rw [hold]⟩
  intro slot slot' hvalid hvalid' heq
  obtain ⟨old, hold, hslot⟩ := hget slot hvalid
  obtain ⟨old', hold', hslot'⟩ := hget slot' hvalid'
  rw [hold, hold'] at heq
  obtain rfl := h.distinct old old' (hold ▸ hvalid) (hold' ▸ hvalid') heq
  -- each slot is filled from a slot of its own
  grind

lemma CountsSent.cons_quiet (hkey : e.sendingKey = none)
    (hnonce : e.nonce = none) : CountsSent { r with history := e :: r.history } := by
  refine ⟨?_, ?_, h.distinct, ?_, ?_, ?_⟩
  · intro slot hvalid
    rw [sendingKeys_cons_none hkey]
    exact h.known slot hvalid
  · intro slot hvalid
    rw [sentUnder_cons_none hnonce]
    exact h.counter slot hvalid
  · rw [nonces_cons_none hnonce, sendingKeys_cons_none hkey]
    exact h.sent_known
  · intro n hn
    rw [nonces_cons_none hnonce] at hn
    rw [sentUnder_cons_none hnonce]
    exact h.below n hn
  · rw [nonces_cons_none hnonce]
    exact h.nodup

lemma CountsSent.adopt {new : Keypair}
    (hkey : e.sendingKey = some new.s.sendKey) (hnonce : e.nonce = none)
    (hfresh : (sendingKeys (e :: r.history)).Nodup) (hzero : new.s.sendCounter = 0)
    (target keep : Slot)
    (hslots : ∀ slot, (slots.get slot).valid = true → (slot = target ∧ slots.get slot = new) ∨
      (slot = keep ∧ ∃ old, (r.toSlots.get old).valid = true ∧ slots.get slot = r.toSlots.get old)) :
    CountsSent { r with toSlots := slots, last, history := e :: r.history } := by
  rw [sendingKeys_cons_some hkey, nodup_cons] at hfresh
  have hunsent : sentUnder r.history new.s.sendKey = 0 := sentUnder_eq_zero h.sent_known hfresh.1
  have hother : ∀ old, (r.toSlots.get old).valid = true →
      new.s.sendKey ≠ (r.toSlots.get old).s.sendKey := by
    intro old hold heq
    rw [heq] at hfresh
    exact hfresh.1 (h.known old hold)
  refine ⟨?_, ?_, ?_, ?_, ?_, ?_⟩
  · intro slot hvalid
    rw [sendingKeys_cons_some hkey]
    obtain ⟨-, hget⟩ | ⟨-, old, hold, hget⟩ := hslots slot hvalid
    · rw [hget]
      exact mem_cons_self
    · rw [hget]
      exact mem_cons_of_mem _ (h.known old hold)
  · intro slot hvalid
    rw [sentUnder_cons_none hnonce]
    obtain ⟨-, hget⟩ | ⟨-, old, hold, hget⟩ := hslots slot hvalid
    · rw [hget, hunsent, hzero]
      rfl
    · rw [hget]
      exact h.counter old hold
  · intro slot slot' hvalid hvalid' heq
    obtain ⟨rfl, hget⟩ | ⟨rfl, old, hold, hget⟩ := hslots slot hvalid
    · obtain ⟨rfl, -⟩ | ⟨-, old, hold, hget'⟩ := hslots slot' hvalid'
      · rfl
      · rw [hget, hget'] at heq
        exact absurd heq (hother old hold)
    · obtain ⟨-, hget'⟩ | ⟨rfl, -⟩ := hslots slot' hvalid'
      · rw [hget, hget'] at heq
        exact absurd heq.symm (hother old hold)
      · rfl
  · rw [nonces_cons_none hnonce]
    intro n hn
    exact mem_sendingKeys_cons (h.sent_known n hn)
  · intro n hn
    rw [nonces_cons_none hnonce] at hn
    rw [sentUnder_cons_none hnonce]
    exact h.below n hn
  · rw [nonces_cons_none hnonce]
    exact h.nodup

/-- A packet is sent under the current keypair, whose counter moves on. -/
theorem CountsSent.send {now : UInt64} {msg : List UInt8}
    (hvalid : r.current.valid = true) (hlimit : r.current.s.sendCounter < rejectAfterMessages)
    (hmsg : readLE64 msg 8 = r.current.s.sendCounter) :
    CountsSent { r with
      toSlots := r.toSlots.set .current
        { r.current with s := { r.current.s with sendCounter := r.current.s.sendCounter + 1 } }
      history := .transport r.current now msg :: r.history } := by
  have hcount : r.current.s.sendCounter.toNat = sentUnder r.history r.current.s.sendKey :=
    h.counter .current hvalid
  have hnonce : (Event.transport r.current now msg).nonce =
      some (r.current.s.sendKey, r.current.s.sendCounter) := by rw [← hmsg]; rfl
  have hsucc : (r.current.s.sendCounter + 1).toNat = r.current.s.sendCounter.toNat + 1 := by
    have hlt : r.current.s.sendCounter.toNat < rejectAfterMessages.toNat :=
      UInt64.lt_iff_toNat_lt.mp hlimit
    have hroom : rejectAfterMessages.toNat + 1 < 2 ^ 64 := by decide
    rw [UInt64.toNat_add, UInt64.toNat_one]
    omega
  -- what the slots hold now, in terms of what they held
  have hslots : ∀ slot, ((r.toSlots.set .current { r.current with s :=
      { r.current.s with sendCounter := r.current.s.sendCounter + 1 } }).get slot).valid =
        (r.toSlots.get slot).valid ∧
      ((r.toSlots.set .current { r.current with s :=
        { r.current.s with sendCounter := r.current.s.sendCounter + 1 } }).get slot).s.sendKey =
        (r.toSlots.get slot).s.sendKey := by
    intro slot
    cases slot <;> exact ⟨rfl, rfl⟩
  refine ⟨?_, ?_, ?_, ?_, ?_, ?_⟩
  · intro slot hslot
    rw [(hslots slot).1] at hslot
    rw [(hslots slot).2]
    exact mem_sendingKeys_cons (h.known slot hslot)
  · intro slot hslot
    rw [(hslots slot).1] at hslot
    rw [(hslots slot).2, sentUnder_cons_some hnonce]
    have hold := h.counter slot hslot
    by_cases hcurrent : slot = .current
    · subst hcurrent
      have hkey : r.current.s.sendKey = (r.toSlots.get .current).s.sendKey := rfl
      rw [if_pos hkey, ← hold]
      exact hsucc
    · -- another slot holds another key
      have hdiffer : r.current.s.sendKey ≠ (r.toSlots.get slot).s.sendKey :=
        fun heq => hcurrent (h.distinct .current slot hvalid hslot heq).symm
      rw [if_neg hdiffer, ← hold, Slots.get_set, if_neg hcurrent]
      rfl
  · intro slot slot' hslot hslot' heq
    rw [(hslots _).1] at hslot hslot'
    rw [(hslots _).2, (hslots _).2] at heq
    exact h.distinct slot slot' hslot hslot' heq
  · intro n hn
    obtain rfl | hn := mem_cons.mp hn
    · exact mem_sendingKeys_cons (h.known .current hvalid)
    · exact mem_sendingKeys_cons (h.sent_known n hn)
  · intro n hn
    rw [nonces_cons_some hnonce] at hn
    rw [sentUnder_cons_some hnonce]
    obtain rfl | hn := mem_cons.mp hn
    · dsimp only
      rw [if_pos rfl]
      exact ⟨by omega, hlimit⟩
    · obtain ⟨hbelow, hlimit'⟩ := h.below n hn
      exact ⟨by omega, hlimit'⟩
  · rw [nonces_cons_some hnonce, nodup_cons]
    refine ⟨?_, h.nodup⟩
    intro hmem
    have hbelow := (h.below _ hmem).1
    dsimp only at hbelow
    omega

end

lemma sendCounter_of_beginSession {hs : Handshake} {s : Session}
    (h : (C.beginSession hs).2 = .ok s) : s.sendCounter = 0 :=
  (congrArg (·.s.sendCounter) (Keypair.origin_of_beginSession 0 h)).symm

/-- Every move keeps the invariant, as long as the sending keys are fresh. -/
theorem Move.countsSent (hmove : Move C r r')
    (h : (sendingKeys r.history).Nodup → CountsSent r) (hfresh : (sendingKeys r'.history).Nodup) :
    CountsSent r' := by
  cases hmove with
  | expire now =>
    have hcounts := h hfresh
    have hget (slot : Slot) (hvalid : ((r.toSlots.expire now).get slot).valid = true) :
        (r.toSlots.expire now).get slot = r.toSlots.get slot := Slots.get_expire hvalid
    refine hcounts.of_slots ?_ ?_
    · intro slot hvalid
      have hsame := hget slot hvalid
      exact ⟨slot, hsame ▸ hvalid, by rw [hsame], by rw [hsame]⟩
    · intro slot slot' hvalid hvalid' heq
      have hsame := hget slot hvalid
      have hsame' := hget slot' hvalid'
      rw [hsame, hsame'] at heq
      exact hcounts.distinct slot slot' (hsame ▸ hvalid) (hsame' ▸ hvalid') heq
  | @transmit e he =>
    have hcounts := h (nodup_of_cons hfresh)
    cases e <;> first | exact hcounts.cons_quiet rfl rfl | cases he
  | @send now cap text s msg husable hseal =>
    have hcounts := h (nodup_of_cons hfresh)
    obtain ⟨sealed, rfl, rfl, hlimit, -⟩ := Session.encrypt_ok hseal
    exact hcounts.send (Keypair.valid_of_usableForSend husable) hlimit
      (Session.readLE64_transportPacket _ _ _)
  | @join hs msg ss ss' keys s now hparts hsession =>
    have hcounts := h (nodup_of_cons hfresh)
    refine hcounts.adopt rfl rfl hfresh (sendCounter_of_beginSession hsession) .current .previous ?_
    intro slot hvalid
    obtain hnew | ⟨hslot, old, -, hold, hget⟩ := Slots.get_adoptAsInitiator hvalid
    · exact .inl hnew
    · exact .inr ⟨hslot, old, hold, hget⟩
  | @answer hs s now timestamp hsession hnewer =>
    have hcounts := h (nodup_of_cons hfresh)
    refine hcounts.adopt rfl rfl hfresh (sendCounter_of_beginSession hsession) .next .current ?_
    intro slot hvalid
    obtain hnew | ⟨hslot, hget⟩ := Slots.get_adoptAsResponder hvalid
    · exact .inl hnew
    · exact .inr ⟨hslot, .current, hget ▸ hvalid, hget⟩
  | @receive slot now cap msg text s husable hopen =>
    have hcounts := (h (nodup_of_cons hfresh)).cons_quiet (e := .opened (r.toSlots.get slot) msg)
      rfl rfl
    obtain rfl := Session.decrypt_ok hopen
    have hset := hcounts.set slot
      { r.toSlots.get slot with s := (r.toSlots.get slot).s.replayRecord (readLE64 msg 8) } rfl
      (Session.replayRecord_sendKey _ _) (Session.replayRecord_sendCounter _ _)
    cases slot with
    | current => exact hset
    | previous => exact hset
    | next => exact hset.promoteNext

end KeyRing

/-- No two transport packets have the same nonce, no counter has reached the limit, and in whatever slot
a keypair is, its counter is the number of packets that were sent under its key. -/
def Peer.NoncesOnce (p : Peer) : Prop :=
  (History.nonces p.history).Nodup ∧
    (∀ n ∈ History.nonces p.history, n.2 < rejectAfterMessages) ∧
    ∀ slot, (p.toSlots.get slot).valid = true → (p.toSlots.get slot).s.sendCounter.toNat =
      History.sentUnder p.history (p.toSlots.get slot).s.sendKey

/-- In every run in which each completed handshake gives a fresh sending key, no nonce is used twice. -/
theorem Peer.nonces_never_repeat (C : Crypto) (id : Identity) (remoteStatic : Key)
    (psk : Option Key) (seed : Except Err UInt64) (calls : List Peer.Call)
    (hfresh : (History.sendingKeys
      (calls.foldl (Peer.step C) (.init id remoteStatic psk seed)).history).Nodup) :
    (calls.foldl (Peer.step C) (.init id remoteStatic psk seed)).NoncesOnce := by
  have hmoves := Peer.run_moves C (.init id remoteStatic psk seed) calls
  have hstart : KeyRing.CountsSent (.start id) := by
    refine ⟨?_, ?_, ?_, nofun, nofun, .nil⟩
    all_goals
      simp [KeyRing.valid_start]
  have hcounts := hmoves.invariant (fun _ _ => KeyRing.Move.countsSent) (fun _ => hstart) hfresh
  exact ⟨hcounts.nodup, fun n hn => (hcounts.below n hn).2, hcounts.counter⟩

/-- Two packets after a handshake. -/
theorem Peer.nonces_never_repeat_handshake :
    let calls : List Peer.Call := [.startHandshake 0 plainDraw,
      .input (Peer.plainResponse zeroMac) none 1000 plainDraw, .send [5] 2000 plainDraw,
      .send [] 3000 plainDraw]
    let p := calls.foldl (Peer.step plainSuite) .plain
    History.nonces p.history = [(zeroKey, 1), (zeroKey, 0)] ∧ p.NoncesOnce :=
  ⟨by decide +kernel, Peer.nonces_never_repeat plainSuite _ _ _ _ _ (by decide +kernel)⟩

end Wg
