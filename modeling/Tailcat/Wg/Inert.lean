import Tailcat.Wg.KeyRing

/-!
# Messages that do not authenticate are inert

Whatever is not authentic leaves the keypairs, their replay windows, the pending handshake and the last
timestamp as they were, and is not answered with a response; a cookie reply may go out. The pending
handshake then still does with a response what it would have done before.

## Main results

* `Peer.inert_of_not_authentic`: what `tc_wg_peer_input` does with such a message;
* `Peer.unauthenticated_inert`: and the timestamps that are accepted increase, over every run;
* `Peer.wrong_mac1_silent_iff`: an initiation with a wrong first MAC may draw a cookie.
-/

namespace Wg

open ByteOrder Fields

namespace History

/-- The responses that were transmitted. -/
def responses (h : List Event) : List (List UInt8) :=
  h.filterMap fun
    | .response msg => some msg
    | _ => none

/-- The timestamps that were accepted, the newest first. -/
def timestamps (h : List Event) : List Timestamp :=
  h.filterMap fun
    | .answered _ timestamp => some timestamp
    | _ => none

end History

namespace Peer

structure Inert (p p' : Peer) : Prop where
  slots : p'.toSlots = p.toSlots
  hs : p'.hs = p.hs
  hsActive : p'.hsActive = p.hsActive
  id : p'.id = p.id
  lastTimestamp : p'.lastTimestamp = p.lastTimestamp
  hasLastTimestamp : p'.hasLastTimestamp = p.hasLastTimestamp
  responses : History.responses p'.history = History.responses p.history

/-- The initiation opens, is from the peer, and carries a timestamp that is newer than the last; under
load it also carries the second MAC, if there is a secret to check it with. -/
def AuthenticInitiation (C : Crypto) (p : Peer) (msg : List UInt8) (now : UInt64) (d : Draw) : Prop :=
  ∃ hs ss pre static stamp,
    C.handshakeInit p.id (some p.remoteStatic) p.pskArg = (hs, .ok ()) ∧
    Crypto.InitiationParts C hs p.id msg ss pre static stamp ∧
    (p.hasLastTimestamp = true →
      p.lastTimestamp.toList < (bytesAt timestampLen stamp 0 : Timestamp).toList) ∧
    (p.underLoad = true → ∀ secret, (cookieSecretFor p now d).2 = some secret →
      C.checkMac2 msg secret p.remoteStatic.toList = true)

def AuthenticResponse (C : Crypto) (p : Peer) (msg : List UInt8) : Prop :=
  p.hsActive = true ∧ ∃ ss ss' keys, Crypto.ResponseParts C p.hs p.id msg ss ss' keys

/-- The packet opens under one of the keypairs. -/
def AuthenticTransport (C : Crypto) (p : Peer) (msg : List UInt8) : Prop :=
  ∃ slot, (p.toSlots.get slot).valid = true ∧ (p.toSlots.get slot).s.Addressed msg ∧
    ∃ text, C.aeadOpen (p.toSlots.get slot).s.recvKey (readLE64 msg 8) []
      (msg.drop transportHeaderSize) = .ok text

def Authentic (C : Crypto) (p : Peer) (msg : List UInt8) (now : UInt64) (d : Draw) : Prop :=
  AuthenticInitiation C p msg now d ∨ AuthenticResponse C p msg ∨ AuthenticTransport C p msg

variable {C : Crypto} {p : Peer} {msg : List UInt8} {now : UInt64} {d : Draw}

lemma Inert.refl (p : Peer) : Inert p p := ⟨rfl, rfl, rfl, rfl, rfl, rfl, rfl⟩

lemma Inert.trans {p q r : Peer} (h : Inert p q) (h' : Inert q r) : Inert p r :=
  ⟨h'.slots.trans h.slots, h'.hs.trans h.hs, h'.hsActive.trans h.hsActive, h'.id.trans h.id,
    h'.lastTimestamp.trans h.lastTimestamp, h'.hasLastTimestamp.trans h.hasLastTimestamp,
    h'.responses.trans h.responses⟩

/-! ## The handlers -/

lemma acceptInitiation_inert
    (hfail : ∀ hs ss pre static stamp,
      C.handshakeInit p.id (some p.remoteStatic) p.pskArg = (hs, .ok ()) →
      Crypto.InitiationParts C hs p.id msg ss pre static stamp →
      ¬(p.hasLastTimestamp = true →
        p.lastTimestamp.toList < (bytesAt timestampLen stamp 0 : Timestamp).toList)) :
    Inert p (acceptInitiation C p msg now d) := by
  unfold acceptInitiation
  split
  · exact .refl p
  rename_i hs hinit
  split
  · exact .refl p
  rename_i hs' peer timestamp hconsume
  obtain ⟨ss, pre, static, stamp, hparts, -, rfl⟩ := Crypto.consumeInitiation_ok hconsume
  have hstale := hfail hs ss pre static stamp hinit hparts
  rw [if_pos (by simpa using hstale)]
  exact ⟨rfl, rfl, rfl, rfl, rfl, rfl, rfl⟩

lemma exists_cookieSecretFor_fst (p : Peer) (now : UInt64) (d : Draw) :
    ∃ secret at' has, (cookieSecretFor p now d).1 =
      { p with cookieSecret := secret, cookieSecretAtMs := at', hasCookieSecret := has } := by
  unfold cookieSecretFor
  split
  · split
    · exact ⟨_, _, _, rfl⟩
    · exact ⟨_, _, _, rfl⟩
  · exact ⟨_, _, _, rfl⟩

lemma handleInitiation_inert (hfail : ¬AuthenticInitiation C p msg now d) :
    Inert p (handleInitiation C p msg now d) := by
  -- what is left of the failure once the second MAC has passed
  have hparts (hmac : p.underLoad = true → ∀ secret, (cookieSecretFor p now d).2 = some secret →
      C.checkMac2 msg secret p.remoteStatic.toList = true) (hs : Handshake) (ss pre : Key)
      (static stamp : List UInt8)
      (hinit : C.handshakeInit p.id (some p.remoteStatic) p.pskArg = (hs, .ok ()))
      (hparts : Crypto.InitiationParts C hs p.id msg ss pre static stamp) :
      ¬(p.hasLastTimestamp = true →
        p.lastTimestamp.toList < (bytesAt timestampLen stamp 0 : Timestamp).toList) :=
    fun hnewer => hfail ⟨hs, ss, pre, static, stamp, hinit, hparts, hnewer, hmac⟩
  unfold handleInitiation
  split
  · exact .refl p
  split
  · next hload => exact acceptInitiation_inert (hparts (by simp [hload]))
  obtain ⟨secret, at', has, hfst⟩ := exists_cookieSecretFor_fst p now d
  generalize cookieSecretFor p now d = found at hfst hparts ⊢
  obtain ⟨q, found⟩ := found
  subst hfst
  have hq : Inert p { p with
      cookieSecret := secret, cookieSecretAtMs := at', hasCookieSecret := has } :=
    ⟨rfl, rfl, rfl, rfl, rfl, rfl, rfl⟩
  cases found with
  | none => exact hq.trans (acceptInitiation_inert (hparts (by simp)))
  | some found =>
    dsimp only
    split
    · next hmac =>
      refine hq.trans (acceptInitiation_inert (hparts ?_))
      rintro - _ ⟨⟩
      exact hmac
    · refine hq.trans ?_
      split
      · exact ⟨rfl, rfl, rfl, rfl, rfl, rfl, rfl⟩
      · exact ⟨rfl, rfl, rfl, rfl, rfl, rfl, rfl⟩

lemma handleResponse_inert (hfail : ¬AuthenticResponse C p msg) :
    Inert p (handleResponse C p msg now) := by
  unfold handleResponse
  split
  · exact .refl p
  rename_i hactive
  split
  · exact .refl p
  obtain ⟨e, herror⟩ | ⟨ss, ss', keys, hparts⟩ := Crypto.consumeResponse_cases C p.hs p.id msg
  · rw [herror]
    exact .refl p
  · have hactive' : p.hsActive = true := by
      simp only [Bool.or_eq_true, not_or, Bool.not_eq_true, Bool.not_eq_false'] at hactive
      exact hactive.2
    exact absurd ⟨hactive', ss, ss', keys, hparts⟩ hfail

lemma valid_of_slotFor {index : UInt32} {slot : Slot} (h : p.slotFor index = some slot) :
    (p.toSlots.get slot).valid = true := by
  unfold slotFor at h
  split_ifs at h with hnext hcurrent hprevious
  · obtain rfl := Option.some.inj h
    exact (Bool.and_eq_true_iff.mp hnext).1
  · obtain rfl := Option.some.inj h
    exact (Bool.and_eq_true_iff.mp hcurrent).1
  · obtain rfl := Option.some.inj h
    exact (Bool.and_eq_true_iff.mp hprevious).1

lemma handleTransport_inert {cap : ℕ} (hfail : ¬AuthenticTransport C p msg) :
    Inert p (handleTransport C p msg cap now).1 := by
  unfold handleTransport
  split
  · exact .refl p
  split
  · exact ⟨rfl, rfl, rfl, rfl, rfl, rfl, rfl⟩
  rename_i slot hslot
  dsimp only
  split
  · exact ⟨rfl, rfl, rfl, rfl, rfl, rfl, rfl⟩
  obtain ⟨e, herror⟩ | ⟨text, hopen⟩ := (p.toSlots.get slot).s.decrypt_cases C cap msg
  · rw [herror]
    exact ⟨set_session_get _ _, rfl, rfl, rfl, rfl, rfl, rfl⟩
  · obtain ⟨-, haddressed, -, -, haead⟩ := Session.decrypt_ok_iff.mp (congrArg Prod.snd hopen)
    exact absurd ⟨slot, valid_of_slotFor hslot, haddressed, text, haead⟩ hfail

lemma handleCookieReply_inert : Inert p (handleCookieReply C p msg now) := by
  unfold handleCookieReply
  split
  · exact .refl p
  split
  · exact .refl p
  · exact ⟨rfl, rfl, rfl, rfl, rfl, rfl, rfl⟩

/-- A message that is not authentic is inert. -/
theorem inert_of_not_authentic (hfail : ¬Authentic C p msg now d) (cap : Option ℕ) :
    Inert p (input C p msg cap now d).1 := by
  unfold Authentic at hfail
  simp only [not_or] at hfail
  obtain ⟨hinitiation, hresponse, htransport⟩ := hfail
  unfold input
  split
  · exact .refl p
  split
  · exact .refl p
  split
  · exact handleInitiation_inert hinitiation
  split
  · exact handleResponse_inert hresponse
  split
  · cases cap with
    | none => exact .refl p
    | some cap => exact handleTransport_inert htransport
  split
  · exact handleCookieReply_inert
  · exact .refl p

lemma Inert.handleResponse {p p' : Peer} (h : Inert p p') (resp : List UInt8) (now : UInt64) :
    (handleResponse C p' resp now).toSlots = (handleResponse C p resp now).toSlots ∧
      (handleResponse C p' resp now).hsActive = (handleResponse C p resp now).hsActive := by
  unfold Peer.handleResponse
  rw [h.hsActive, h.hs, h.id]
  split
  · exact ⟨h.slots, h.hsActive⟩
  split
  · exact ⟨h.slots, h.hsActive⟩
  split
  · exact ⟨h.slots, rfl⟩
  split
  · exact ⟨h.slots, rfl⟩
  · simp only [adoptAsInitiator, note, h.slots, and_self]

end Peer

/-! ## Timestamps -/

namespace KeyRing

open History

/-- The timestamps that were accepted increase, and the last one is remembered. -/
structure Increasing (r : KeyRing) : Prop where
  last_eq : r.last = (timestamps r.history).head?
  pairwise : (timestamps r.history).Pairwise fun newer older => older.toList < newer.toList

variable {C : Crypto} {r r' : KeyRing}

lemma Move.increasing (hmove : Move C r r') (h : Increasing r) : Increasing r' := by
  cases hmove with
  | expire now => exact ⟨h.last_eq, h.pairwise⟩
  | @transmit e he => cases e <;> first | exact ⟨h.last_eq, h.pairwise⟩ | cases he
  | send => exact ⟨h.last_eq, h.pairwise⟩
  | join => exact ⟨h.last_eq, h.pairwise⟩
  | receive => exact ⟨h.last_eq, h.pairwise⟩
  | @answer hs s now timestamp hsession hnewer =>
    refine ⟨rfl, List.pairwise_cons.mpr ⟨?_, h.pairwise⟩⟩
    intro older holder
    -- the new timestamp is above the last one, which is above the others
    have hlast := h.last_eq
    have hpairwise := h.pairwise
    change older ∈ timestamps r.history at holder
    generalize timestamps r.history = accepted at hlast hpairwise holder
    cases accepted with
    | nil => cases holder
    | cons newest rest =>
      have hnew := hnewer newest hlast
      obtain rfl | hrest := List.mem_cons.mp holder
      · exact hnew
      · exact List.lt_trans ((List.pairwise_cons.mp hpairwise).1 older hrest) hnew

end KeyRing

namespace Peer

/-- Over every run the timestamps that are accepted increase; the newest is the first. -/
theorem timestamps_increasing (C : Crypto) (id : Identity) (remoteStatic : Key) (psk : Option Key)
    (seed : Except Err UInt64) (calls : List Call) :
    (History.timestamps (calls.foldl (step C) (init id remoteStatic psk seed)).history).Pairwise
      fun newer older => older.toList < newer.toList := by
  have hmoves := run_moves C (init id remoteStatic psk seed) calls
  have hstart : KeyRing.Increasing (.start id) := ⟨rfl, .nil⟩
  exact (hmoves.invariant (fun _ _ => KeyRing.Move.increasing) hstart).pairwise

/-- Whatever the state of the peer, a message that is not authentic leaves the keypairs, their replay
windows, the pending handshake and the last timestamp unchanged, and no response is sent; a response
that comes afterwards is taken as before. And over every run the timestamps that are accepted are
strictly increasing. -/
theorem unauthenticated_inert (C : Crypto) :
    (∀ (p : Peer) (msg : List UInt8) (cap : Option ℕ) (now : UInt64) (d : Draw),
      ¬Authentic C p msg now d →
        Inert p (input C p msg cap now d).1 ∧
        ∀ resp now', (handleResponse C (input C p msg cap now d).1 resp now').toSlots =
            (handleResponse C p resp now').toSlots ∧
          (handleResponse C (input C p msg cap now d).1 resp now').hsActive =
            (handleResponse C p resp now').hsActive) ∧
    ∀ (id : Identity) (remoteStatic : Key) (psk : Option Key) (seed : Except Err UInt64)
      (calls : List Call),
      (History.timestamps (calls.foldl (step C) (init id remoteStatic psk seed)).history).Pairwise
        fun newer older => older.toList < newer.toList := by
  refine ⟨?_, timestamps_increasing C⟩
  intro p msg cap now d hfail
  have hinert := inert_of_not_authentic hfail cap
  exact ⟨hinert, hinert.handleResponse⟩

/-- A peer that waits for a response, and gets a forged one before the real one. -/
theorem unauthenticated_inert_forged :
    let p := step plainSuite plain (.startHandshake 0 plainDraw)
    let forged := plainResponse (.replicate _ 1)
    let p' := (input plainSuite p forged none 1000 plainDraw).1
    Inert p p' ∧ (handleResponse plainSuite p' (plainResponse zeroMac) 2000).current.valid = true := by
  intro p forged p'
  have hforged : ¬Authentic plainSuite p forged 1000 plainDraw := by
    rintro (⟨hs, ss, pre, static, stamp, -, hparts, -⟩ | ⟨-, ss, ss', keys, hparts⟩ |
      ⟨slot, -, ⟨-, htype, -⟩, -⟩)
    · exact absurd hparts.type (by decide +kernel)
    · exact absurd hparts.mac1 (by decide +kernel)
    · exact absurd htype (by decide +kernel)
  obtain ⟨hinert, hresponse⟩ :=
    (unauthenticated_inert plainSuite).1 p forged none 1000 plainDraw hforged
  refine ⟨hinert, ?_⟩
  decide +kernel

/-! ## The first MAC -/

section

variable {C : Crypto} {p : Peer} {msg : List UInt8} {now : UInt64} {d : Draw}

/-- Under load the initiation is answered with a cookie: it does not carry the second MAC, there is a
nonce, and the cookie can be sealed under it. -/
def DrawsCookie (C : Crypto) (p : Peer) (msg : List UInt8) (now : UInt64) (d : Draw) : Prop :=
  msg.length = initiationSize ∧ p.underLoad = true ∧
    ∃ secret nonce sealed, (cookieSecretFor p now d).2 = some secret ∧
      C.checkMac2 msg secret p.remoteStatic.toList = false ∧ d.nonce = .ok nonce ∧
      C.xaeadSeal (C.cookieKey p.id.publicKey) nonce.toList
        (slice msg (initiationSize - 2 * macLen) macLen)
        (C.computeCookie secret p.remoteStatic.toList).toList = .ok sealed

lemma acceptInitiation_of_mac1
    (hmac : C.checkMac1 msg initiationSize (C.mac1Key p.id.publicKey) = false) :
    acceptInitiation C p msg now d = p := by
  unfold acceptInitiation
  split
  · rfl
  split
  · rfl
  next hconsume =>
  obtain ⟨ss, pre, static, stamp, hparts, -⟩ := Crypto.consumeInitiation_ok hconsume
  exact absurd hparts.mac1 (by simp [hmac])

lemma exists_createCookieReply {ourPublic secret : Key} {srcId : List UInt8}
    (hlen : msg.length = initiationSize) :
    (∃ reply, C.createCookieReply msg ourPublic secret srcId d = .ok reply) ↔
      ∃ nonce sealed, d.nonce = .ok nonce ∧ C.xaeadSeal (C.cookieKey ourPublic) nonce.toList
        (slice msg (initiationSize - 2 * macLen) macLen) (C.computeCookie secret srcId).toList =
          .ok sealed := by
  unfold Crypto.createCookieReply
  rw [hlen, if_neg (by decide)]
  cases d.nonce with
  | error e => simp
  | ok nonce =>
    dsimp only
    split <;> simp_all [initiationSize, macLen]

lemma handleInitiation_history_iff
    (hmac : C.checkMac1 msg initiationSize (C.mac1Key p.id.publicKey) = false) :
    (handleInitiation C p msg now d).history = p.history ↔ ¬DrawsCookie C p msg now d := by
  unfold handleInitiation DrawsCookie
  split
  · next hlen => simp [hlen]
  split
  · next hload => simp [acceptInitiation_of_mac1 hmac, hload]
  next hlen hload =>
  obtain ⟨secret, at', has, hfst⟩ := exists_cookieSecretFor_fst p now d
  generalize cookieSecretFor p now d = found at hfst ⊢
  obtain ⟨q, found⟩ := found
  subst hfst
  cases found with
  | none =>
    dsimp only
    rw [acceptInitiation_of_mac1 (by exact hmac)]
    simp
  | some found =>
    dsimp only
    cases hmac2 : C.checkMac2 msg found p.remoteStatic.toList with
    | true =>
      rw [acceptInitiation_of_mac1 (by exact hmac)]
      simp [hmac2]
    | false =>
      have hdraws := @exists_createCookieReply C msg d p.id.publicKey found p.remoteStatic.toList
        (not_not.mp hlen)
      cases hreply : C.createCookieReply msg p.id.publicKey found p.remoteStatic.toList d with
      | error e => simpa [hreply, hmac2, not_not.mp hlen, hload] using hdraws
      | ok reply => simpa [hreply, hmac2, not_not.mp hlen, hload, note] using hdraws

/-- A wrong first MAC changes nothing, and is not answered either if it does not draw a cookie. -/
theorem wrong_mac1_silent_iff (hform : [1, 0, 0, 0] <+: msg)
    (hmac : C.checkMac1 msg initiationSize (C.mac1Key p.id.publicKey) = false) (cap : Option ℕ) :
    Inert p (input C p msg cap now d).1 ∧ (input C p msg cap now d).1.history = p.history ↔
      ¬DrawsCookie C p msg now d := by
  have hinput : (input C p msg cap now d).1 = handleInitiation C p msg now d := by
    obtain ⟨rest, rfl⟩ := hform
    unfold input
    rw [if_neg (by simp), if_neg (by simp), if_pos (by simp)]
  rw [hinput, handleInitiation_history_iff hmac, and_iff_right]
  refine handleInitiation_inert ?_
  rintro ⟨hs, ss, pre, static, stamp, -, hparts, -⟩
  exact absurd hparts.mac1 (by simp [hmac])

/-- An initiation in the plain suite with a wrong first MAC, and without the second. -/
def unkeyed : List UInt8 := [1, 0, 0, 0] ++ List.replicate (initiationSize - 4) 1

theorem wrong_mac1_silent_plain :
    (input plainSuite plain unkeyed none 1000 plainDraw).1.history = plain.history :=
  ((@wrong_mac1_silent_iff plainSuite plain unkeyed 1000 plainDraw (by decide +kernel)
    (by decide +kernel) none).mpr fun h => absurd h.2.1 (by decide)).2

/-- Under load it is answered with a cookie. -/
theorem wrong_mac1_answered :
    plainSuite.checkMac1 unkeyed initiationSize (plainSuite.mac1Key plain.id.publicKey) = false ∧
      (input plainSuite (plain.setUnderLoad true) unkeyed none 1000 plainDraw).1.history ≠ [] := by
  decide +kernel

end

end Peer

end Wg
