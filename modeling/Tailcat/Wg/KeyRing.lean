import Tailcat.Library.Run
import Tailcat.Wg.Peer

/-!
# What a peer does with its keys

A key ring is what is left of a peer without its timers, its cookies and its pending handshake.
`KeyRing.Move` lists what can happen to it, each move with what it takes. Every call of a peer is a
sequence of moves, so that an invariant of the moves is an invariant of all runs.

## Main results

* `Peer.step_moves` and `Peer.run_moves`: every call and every run of a peer is a sequence of moves.
-/

namespace Wg

open ByteOrder Fields Relation

/-- The keypairs, the last timestamp and the history of a peer. -/
structure KeyRing extends Slots where
  id : Identity
  last : Option Timestamp
  history : List Event

/-- The message is a handshake message. -/
def Event.IsHandshake : Event → Prop
  | .initiation _ | .response _ | .cookieReply _ => True
  | _ => False

/-- What `handle_transport` does with the slots once a packet under `slot` is proven. -/
def Slots.proven (k : Slots) : Slot → Slots
  | .next => k.promoteNext
  | _ => k

namespace Slots

variable {k : Slots} {new : Keypair} {slot slot' : Slot}

lemma get_set : (k.set slot new).get slot' = if slot' = slot then new else k.get slot' := by
  cases slot <;> cases slot' <;> rfl

lemma get_expire {now : UInt64} (h : ((k.expire now).get slot).valid = true) :
    (k.expire now).get slot = k.get slot := by
  have hcheck (old : Keypair)
      (hvalid : (if old.valid && !old.usableForRecv now then Keypair.zero else old).valid = true) :
      (if old.valid && !old.usableForRecv now then Keypair.zero else old) = old := by
    split at hvalid
    · cases hvalid
    · next hkeep => rw [if_neg hkeep]
  cases slot with
  | current => exact hcheck k.current h
  | previous => exact hcheck k.previous h
  | next => exact hcheck k.next h

lemma get_adoptAsInitiator (h : ((k.adoptAsInitiator new).get slot).valid = true) :
    (slot = .current ∧ (k.adoptAsInitiator new).get slot = new) ∨
      (slot = .previous ∧ ∃ old, old ≠ .previous ∧ (k.get old).valid = true ∧
        (k.adoptAsInitiator new).get slot = k.get old) := by
  unfold adoptAsInitiator at h ⊢
  split at h
  · next hnext =>
    rw [if_pos hnext]
    cases slot with
    | current => exact .inl ⟨rfl, rfl⟩
    | previous => exact .inr ⟨rfl, .next, nofun, hnext, rfl⟩
    | next => cases h
  · next hnext =>
    rw [if_neg hnext]
    split at h
    · next hcurrent =>
      rw [if_pos hcurrent]
      cases slot with
      | current => exact .inl ⟨rfl, rfl⟩
      | previous => exact .inr ⟨rfl, .current, nofun, hcurrent, rfl⟩
      | next => exact absurd h hnext
    · next hcurrent =>
      rw [if_neg hcurrent]
      cases slot with
      | current => exact .inl ⟨rfl, rfl⟩
      | previous => cases h
      | next => exact absurd h hnext

lemma get_adoptAsResponder (h : ((k.adoptAsResponder new).get slot).valid = true) :
    (slot = .next ∧ (k.adoptAsResponder new).get slot = new) ∨
      (slot = .current ∧ (k.adoptAsResponder new).get slot = k.get .current) := by
  cases slot with
  | current => exact .inr ⟨rfl, rfl⟩
  | previous => cases h
  | next => exact .inl ⟨rfl, rfl⟩

lemma get_promoteNext (h : (k.promoteNext.get slot).valid = true) :
    (slot = .current ∧ k.promoteNext.get slot = k.get .next) ∨
      (slot = .previous ∧ k.promoteNext.get slot = k.get .current) := by
  cases slot with
  | current => exact .inl ⟨rfl, rfl⟩
  | previous =>
    refine .inr ⟨rfl, ?_⟩
    simp only [promoteNext, get] at h ⊢
    split at h
    · next hcurrent => rw [if_pos hcurrent]
    · cases h
  | next => cases h

end Slots

namespace KeyRing

def start (id : Identity) : KeyRing :=
  { current := .zero, previous := .zero, next := .zero, id, last := none, history := [] }

lemma valid_start (id : Identity) (slot : Slot) : ((start id).toSlots.get slot).valid = false := by
  cases slot <;> rfl

inductive Move (C : Crypto) : KeyRing → KeyRing → Prop
  | expire (r : KeyRing) (now : UInt64) : Move C r { r with toSlots := r.toSlots.expire now }
  | transmit (r : KeyRing) {e : Event} (he : e.IsHandshake) :
    Move C r { r with history := e :: r.history }
  | send (r : KeyRing) {now : UInt64} {cap : ℕ} {text : List UInt8} {s : Session} {msg : List UInt8}
    (husable : r.current.usableForSend now = true)
    (hseal : r.current.s.encrypt C cap text = (s, .ok msg)) :
    Move C r { r with current.s := s, history := .transport r.current now msg :: r.history }
  | join (r : KeyRing) {hs : Handshake} {msg : List UInt8} {ss ss' : Key} {keys : Key × Key × Key}
    {s : Session} (now : UInt64) (hparts : Crypto.ResponseParts C hs r.id msg ss ss' keys)
    (hsession : (C.beginSession (Crypto.responseConsumed C hs msg keys)).2 = .ok s) :
    Move C r { r with
      toSlots := r.toSlots.adoptAsInitiator { s, birthMs := now, valid := true }
      history := .joined { s, birthMs := now, valid := true } hs msg :: r.history }
  | answer (r : KeyRing) {hs : Handshake} {s : Session} (now : UInt64) {timestamp : Timestamp}
    (hsession : (C.beginSession hs).2 = .ok s)
    (hnewer : ∀ last, r.last = some last → last.toList < timestamp.toList) :
    Move C r { r with
      toSlots := r.toSlots.adoptAsResponder { s, birthMs := now, valid := true }
      last := some timestamp
      history := .answered { s, birthMs := now, valid := true } timestamp :: r.history }
  | receive (r : KeyRing) {slot : Slot} {now : UInt64} {cap : ℕ} {msg text : List UInt8} {s : Session}
    (husable : (r.toSlots.get slot).usableForRecv now = true)
    (hopen : (r.toSlots.get slot).s.decrypt C cap msg = (s, .ok text)) :
    Move C r { r with
      toSlots := (r.toSlots.set slot { r.toSlots.get slot with s }).proven slot
      history := .opened (r.toSlots.get slot) msg :: r.history }

abbrev Moves (C : Crypto) : KeyRing → KeyRing → Prop := ReflTransGen (Move C)

lemma Moves.invariant {C : Crypto} {I : KeyRing → Prop} {r r' : KeyRing} (h : Moves C r r')
    (hstep : ∀ r r', Move C r r' → I r → I r') (hstart : I r) : I r' := by
  induction h with
  | refl => exact hstart
  | tail _ hmove ih => exact hstep _ _ hmove ih

end KeyRing

namespace Peer

open KeyRing (Move Moves)

def ring (p : Peer) : KeyRing :=
  { toSlots := p.toSlots, id := p.id
    last := bif p.hasLastTimestamp then some p.lastTimestamp else none, history := p.history }

variable {C : Crypto}

section Calls

variable (p : Peer) (msg : List UInt8) (now : UInt64) (d : Draw)

/-! ## Calls that leave the ring alone -/

lemma ring_jitter : p.jitter.1.ring = p.ring := by
  simp only [jitter, ring]

lemma ring_finishMacs : (finishMacs C p msg now).1.ring = p.ring := by
  simp only [finishMacs, ring]

lemma ring_cookieSecretFor : (cookieSecretFor p now d).1.ring = p.ring := by
  unfold cookieSecretFor
  split
  · split
    · rfl
    · simp only [ring]
  · rfl

lemma ring_handleCookieReply : (handleCookieReply C p msg now).ring = p.ring := by
  unfold handleCookieReply
  split
  · rfl
  split
  · rfl
  · simp only [ring]

/-! ## Handshakes -/

lemma emitInitiation_moves : Moves C p.ring (emitInitiation C p now d).1.ring := by
  unfold emitInitiation
  split
  · exact .refl
  split
  · exact .refl
  · next msg _ =>
    exact .single (.transmit p.ring trivial)

lemma startHandshake_moves : Moves C p.ring (startHandshake C p now d).1.ring := by
  have hemit := emitInitiation_moves (C := C) p now d
  unfold startHandshake
  split
  · exact .refl
  split
  · next hfail =>
    rw [hfail] at hemit
    exact hemit
  · next hok =>
    rw [hok] at hemit
    exact hemit

lemma maybeRekey_moves : Moves C p.ring (maybeRekey C p now d).ring := by
  unfold maybeRekey
  dsimp only
  generalize (if p.current.s.isInitiator then rekeyAfterTimeMs else rekeyAfterTimeOnRecvMs) = limit
  split
  · exact .refl
  split
  · exact startHandshake_moves p now d
  · exact .refl

lemma retryHandshake_moves : Moves C p.ring (retryHandshake C p now d).ring := by
  have hemit := emitInitiation_moves (C := C) p now d
  have hjitter := ring_jitter (emitInitiation C p now d).1
  unfold retryHandshake
  split
  · split
    · exact .refl
    · generalize jitter (emitInitiation C p now d).1 = jittered at hjitter ⊢
      obtain ⟨q, delay⟩ := jittered
      rw [← hjitter] at hemit
      exact hemit
  · exact .refl

/-! ## Sending -/

lemma seal_moves {p q : Peer} {now : UInt64} {cap : ℕ} {text : List UInt8} {s : Session}
    {msg : List UInt8} (d : Draw) (husable : ¬p.current.usableForSend now = false)
    (hseal : p.current.s.encrypt C cap text = (s, .ok msg))
    (hq : q.ring = { p.ring with
      current.s := s, history := .transport p.ring.current now msg :: p.ring.history }) :
    Moves C p.ring (maybeRekey C q now d).ring := by
  have hrekey := maybeRekey_moves (C := C) q now d
  rw [hq] at hrekey
  exact .head (.send p.ring (by simpa [ring] using husable) hseal) hrekey

lemma send_moves (text : List UInt8) (now : UInt64) (d : Draw) :
    Moves C p.ring (send C p text now d).1.ring := by
  unfold send
  split
  · exact startHandshake_moves p now d
  rename_i husable
  split
  · next hfail =>
    obtain rfl := Session.encrypt_error hfail
    exact .refl
  · next hseal => exact seal_moves d husable hseal (by simp only [ring])

lemma sendKeepalive_moves : Moves C p.ring (sendKeepalive C p now d).ring := by
  unfold sendKeepalive
  split
  · exact .refl
  rename_i husable
  split
  · next hfail =>
    obtain rfl := Session.encrypt_error hfail
    exact .refl
  · next hseal => exact seal_moves d husable hseal (by simp only [ring])

/-! ## Receiving -/

lemma acceptInitiation_moves : Moves C p.ring (acceptInitiation C p msg now d).ring := by
  unfold acceptInitiation
  split
  · exact .refl
  split
  · exact .refl
  rename_i timestamp _
  split
  · exact .refl
  rename_i hnewer
  split
  · exact .refl
  rename_i hs resp _
  have hring := ring_finishMacs (C := C) p resp now
  generalize finishMacs C p resp now = finished at hring ⊢
  obtain ⟨q, resp'⟩ := finished
  dsimp only at hring ⊢
  rw [← hring]
  split
  · exact .refl
  rename_i s hsession
  have hsession' : (C.beginSession hs).2 = .ok s := by rw [hsession]
  have hlast : ∀ last, q.ring.last = some last → last.toList < timestamp.toList := by
    rw [hring]
    intro last hlast
    cases hhas : p.hasLastTimestamp with
    | false => simp [ring, hhas] at hlast
    | true => simp_all [ring]
  have hfinal := ReflTransGen.head (Move.transmit q.ring (e := .response resp') trivial)
    (.single (Move.answer _ now hsession' hlast))
  exact hfinal

lemma handleInitiation_moves : Moves C p.ring (handleInitiation C p msg now d).ring := by
  have hring := ring_cookieSecretFor p now d
  unfold handleInitiation
  split
  · exact .refl
  split
  · exact acceptInitiation_moves p msg now d
  generalize cookieSecretFor p now d = found at hring ⊢
  rw [← hring]
  obtain ⟨q, secret⟩ := found
  cases secret with
  | none => exact acceptInitiation_moves q msg now d
  | some secret =>
    dsimp only
    split
    · exact acceptInitiation_moves q msg now d
    generalize C.createCookieReply msg q.id.publicKey secret q.remoteStatic.toList d = reply
    cases reply with
    | error e =>
      exact .refl
    | ok reply =>
      have hmove := Move.transmit (C := C) q.ring (e := .cookieReply reply) trivial
      exact .single hmove

lemma handleResponse_moves : Moves C p.ring (handleResponse C p msg now).ring := by
  unfold handleResponse
  split
  · exact .refl
  split
  · exact .refl
  obtain ⟨e, hfail⟩ | ⟨ss, ss', keys, hparts⟩ := Crypto.consumeResponse_cases C p.hs p.id msg
  · rw [hfail]
  rw [hparts.consumeResponse]
  dsimp only
  split
  · exact .refl
  · next s hsession =>
    have hmove := Move.join p.ring now hparts (by rw [hsession])
    exact .single hmove

lemma set_session_get (k : Slots) (slot : Slot) :
    k.set slot { k.get slot with s := (k.get slot).s } = k := by
  cases slot <;> rfl

lemma ring_proven (slot : Slot) :
    (p.proven slot).ring = { p.ring with toSlots := p.ring.toSlots.proven slot } := by
  cases slot <;> simp only [proven, promoteNext, ring, Slots.proven]

lemma handleTransport_moves (cap : ℕ) (now : UInt64) :
    Moves C p.ring (handleTransport C p msg cap now).1.ring := by
  unfold handleTransport
  split
  · exact .refl
  split
  · exact .refl
  rename_i slot _
  dsimp only
  split
  · exact .refl
  rename_i husable
  have husable' : (p.ring.toSlots.get slot).usableForRecv now = true := by
    simpa [ring] using husable
  obtain ⟨e, hfail⟩ | ⟨text, hopen⟩ := (p.toSlots.get slot).s.decrypt_cases C cap msg
  · rw [hfail]
    simp only [set_session_get]
    exact .refl
  have hmove := Move.receive p.ring husable' hopen
  rw [hopen]
  dsimp only
  have hproven := ring_proven ({ p with toSlots := p.toSlots.set slot { p.toSlots.get slot with
    s := (p.toSlots.get slot).s.replayRecord (readLE64 msg 8) } }.note
      (.opened (p.toSlots.get slot) msg)) slot
  simp only [ring, note] at hproven hmove
  rw [← hproven] at hmove
  split
  · exact .single hmove
  split
  · exact .single hmove
  · exact .single hmove

lemma input_moves (cap : Option ℕ) (now : UInt64) (d : Draw) :
    Moves C p.ring (input C p msg cap now d).1.ring := by
  unfold input
  split
  · exact .refl
  split
  · exact .refl
  split
  · exact handleInitiation_moves p msg now d
  split
  · exact handleResponse_moves p msg now
  split
  · cases cap with
    | none => exact .refl
    | some cap => exact handleTransport_moves p msg cap now
  split
  · rw [ring_handleCookieReply]
  · exact .refl

lemma tick_moves : Moves C p.ring (tick C p now d).ring := by
  have hexpire := Move.expire (C := C) p.ring now
  have hretry := retryHandshake_moves (C := C) { p with toSlots := p.toSlots.expire now } now d
  unfold tick
  dsimp only
  generalize retryHandshake C { p with toSlots := p.toSlots.expire now } now d = q at hretry ⊢
  have hmoves : Moves C p.ring q.ring := .head hexpire hretry
  split
  · have hkeepalive := sendKeepalive_moves (C := C) { q with keepaliveArmed := false } now d
    exact hmoves.trans hkeepalive
  · exact hmoves

end Calls

/-- What a call does to the key ring is a sequence of moves. -/
theorem step_moves (p : Peer) (call : Call) : Moves C p.ring (p.step C call).ring := by
  cases call with
  | send text now d => exact send_moves p text now d
  | input msg cap now d => exact input_moves p msg cap now d
  | tick now d => exact tick_moves p now d
  | startHandshake now d => exact startHandshake_moves p now d
  | setUnderLoad underLoad =>
    exact .refl

/-- What a run does to the key ring is a sequence of moves. -/
theorem run_moves (C : Crypto) (p : Peer) (calls : List Call) :
    Moves C p.ring (calls.foldl (step C) p).ring :=
  Run.foldl_invariant (I := fun q => Moves C p.ring q.ring) .refl
    (fun q call h => h.trans (step_moves q call)) calls

end Peer

end Wg
