import Tailcat.Wg.Session

/-!
# Agreement of the two sides of a handshake

Each message is read back field by field, and then both sides have gone through the same key schedule.
The assumptions are symbolic (`Crypto.Symbolic`): X25519 commutes and the AEAD opens what it sealed.
That the response is refused under another pre-shared key takes two more: the AEAD opens nothing else
(`Crypto.OpensSealed`), and the two keys do not lead to the same tag in this exchange
(`Crypto.Separates`).

## Main results

* `initiation_consumed` and `response_consumed`: each side consumes what the other created;
* `response_refused`: the response is refused if the pre-shared keys differ;
* `handshake_agreement`: the whole exchange.
-/

namespace Wg

open ByteOrder Fields List

namespace Crypto

/-- The symbolic assumptions on the primitives. -/
structure Symbolic (C : Crypto) : Prop where
  /-- Two parties that know each other's public keys have a shared secret. -/
  comm : ∀ {a b A B : Key}, C.x25519Base a = .ok A → C.x25519Base b = .ok B →
    C.x25519 a B = C.x25519 b A
  /-- What was sealed opens. -/
  open_seal : ∀ {key : Key} {n : UInt64} {ad text sealed : List UInt8},
    C.aeadSeal key n ad text = .ok sealed → C.aeadOpen key n ad sealed = .ok text

/-- What opens was sealed, under the same key and with the same data. -/
def OpensSealed (C : Crypto) : Prop :=
  ∀ {key : Key} {n : UInt64} {ad text sealed : List UInt8},
    C.aeadOpen key n ad sealed = .ok text → C.aeadSeal key n ad text = .ok sealed

def pskKey (psk : Option Key) : Key := psk.getD zeroKey

/-- The sealed field of a response to `hs`, from the ephemeral key, the two shared secrets and the
pre-shared key. -/
def sealEmpty (C : Crypto) (hs : Handshake) (eph ee se psk : Key) : Except Err (List UInt8) :=
  let keys := C.emptyKeys hs.chainKey eph ee se psk
  C.aeadSeal keys.2.2 0 (C.emptyHash hs.hash eph keys.2.1).toList []

/-- Two different pre-shared keys give two different responses to `hs`, with the ephemeral key that
is drawn. -/
def Separates (C : Crypto) (hs : Handshake) (d : Draw) (psk psk' : Key) : Prop :=
  psk ≠ psk' → ∀ {ephPriv eph ee se : Key}, C.x25519Keypair d = .ok (ephPriv, eph) →
    C.x25519 ephPriv hs.remoteEphemeral = .ok ee → C.x25519 ephPriv hs.remoteStatic = .ok se →
    C.sealEmpty hs eph ee se psk ≠ C.sealEmpty hs eph ee se psk'

variable {C : Crypto} {d : Draw} {hs a b : Handshake} {i r : Identity} {ss : Key}

/-! ## Fields of the messages -/

lemma checkMac1_addMacs {body : List UInt8} {len : ℕ} (key : Key)
    (hlen : body.length + macLen + macLen = len) :
    C.checkMac1 (C.addMacs body key) len key = true := by
  have hoff : len - macLen - macLen = body.length := by omega
  have htake : (C.addMacs body key).take body.length = body := by
    rw [addMacs, append_assoc, take_left]
  have hmac : bytesAt macLen (C.addMacs body key) body.length = C.mac key.toList body :=
    bytesAt_eq_of_split rfl rfl
  unfold checkMac1
  dsimp only
  rw [hoff, htake, hmac, decide_eq_true_iff]

section Initiation

variable {sender : UInt32} {eph key : Key} {static stamp : List UInt8}

lemma addMacs_initiationBody :
    C.addMacs (initiationBody sender eph static stamp) key =
      writeLE32 msgInitiation ++ (writeLE32 sender ++ (eph.toList ++ (static ++ (stamp ++
        ((C.mac key.toList (initiationBody sender eph static stamp)).toList ++
          zeroMac.toList))))) := by
  simp only [addMacs, initiationBody, append_assoc]

lemma initiation_type :
    readLE32 (C.addMacs (initiationBody sender eph static stamp) key) 0 = msgInitiation :=
  readLE32_eq_of_split (by rw [addMacs_initiationBody, nil_append]) rfl

lemma initiation_sender :
    readLE32 (C.addMacs (initiationBody sender eph static stamp) key) 4 = sender :=
  readLE32_eq_of_split (by rw [addMacs_initiationBody, append_assoc]) rfl

lemma initiation_ephemeral :
    bytesAt keyLen (C.addMacs (initiationBody sender eph static stamp) key) 8 = eph :=
  bytesAt_eq_of_split (by rw [addMacs_initiationBody, append_assoc, append_assoc]) rfl

section

variable (hstatic : static.length = keyLen + tagLen)

include hstatic

lemma initiation_static :
    slice (C.addMacs (initiationBody sender eph static stamp) key) 40 (keyLen + tagLen) = static :=
  slice_eq_of_split (a := writeLE32 msgInitiation ++ writeLE32 sender ++ eph.toList)
    (by rw [addMacs_initiationBody]; simp only [append_assoc]; rfl)
    (by simp only [length_append, Vector.length_toList]; rfl) hstatic

lemma initiation_stamp (hstamp : stamp.length = timestampLen + tagLen) :
    slice (C.addMacs (initiationBody sender eph static stamp) key) 88 (timestampLen + tagLen) =
      stamp :=
  slice_eq_of_split (a := writeLE32 msgInitiation ++ writeLE32 sender ++ eph.toList ++ static)
    (by rw [addMacs_initiationBody]; simp only [append_assoc]; rfl)
    (by simp only [length_append, Vector.length_toList, hstatic]; rfl) hstamp

lemma initiation_mac1 (hstamp : stamp.length = timestampLen + tagLen) :
    C.checkMac1 (C.addMacs (initiationBody sender eph static stamp) key) initiationSize key = true :=
  checkMac1_addMacs key (by
    simp only [initiationBody, length_append, Vector.length_toList, hstatic, hstamp]
    rfl)

end

end Initiation

section Response

variable {sender receiver : UInt32} {eph key : Key} {empty : List UInt8}

lemma addMacs_responseBody :
    C.addMacs (responseBody sender receiver eph empty) key =
      writeLE32 msgResponse ++ (writeLE32 sender ++ (writeLE32 receiver ++ (eph.toList ++ (empty ++
        ((C.mac key.toList (responseBody sender receiver eph empty)).toList ++
          zeroMac.toList))))) := by
  simp only [addMacs, responseBody, append_assoc]

lemma response_type :
    readLE32 (C.addMacs (responseBody sender receiver eph empty) key) 0 = msgResponse :=
  readLE32_eq_of_split (by rw [addMacs_responseBody, nil_append]) rfl

lemma response_sender :
    readLE32 (C.addMacs (responseBody sender receiver eph empty) key) 4 = sender :=
  readLE32_eq_of_split (by rw [addMacs_responseBody, append_assoc]) rfl

lemma response_receiver :
    readLE32 (C.addMacs (responseBody sender receiver eph empty) key) 8 = receiver :=
  readLE32_eq_of_split (by rw [addMacs_responseBody, append_assoc, append_assoc]) rfl

lemma response_ephemeral :
    bytesAt keyLen (C.addMacs (responseBody sender receiver eph empty) key) 12 = eph :=
  bytesAt_eq_of_split (a := writeLE32 msgResponse ++ writeLE32 sender ++ writeLE32 receiver)
    (by rw [addMacs_responseBody]; simp only [append_assoc]; rfl) rfl

lemma response_empty (hempty : empty.length = tagLen) :
    slice (C.addMacs (responseBody sender receiver eph empty) key) 44 tagLen = empty :=
  slice_eq_of_split
    (a := writeLE32 msgResponse ++ writeLE32 sender ++ writeLE32 receiver ++ eph.toList)
    (by rw [addMacs_responseBody]; simp only [append_assoc]; rfl)
    (by simp only [length_append, Vector.length_toList]; rfl) hempty

lemma response_mac1 (hempty : empty.length = tagLen) :
    C.checkMac1 (C.addMacs (responseBody sender receiver eph empty) key) responseSize key = true :=
  checkMac1_addMacs key (by
    simp only [responseBody, length_append, Vector.length_toList, hempty]
    rfl)

end Response

/-! ## The exchange -/

lemma base_of_keypair {sk pk : Key} (h : C.x25519Keypair d = .ok (sk, pk)) :
    C.x25519Base sk = .ok pk := by
  revert h
  fun_cases x25519Keypair C d <;> intro h <;> cases h
  assumption

lemma handshakeInit_some {id : Identity} {remote : Key} {psk : Option Key}
    (h : C.handshakeInit id (some remote) psk = (hs, .ok ())) :
    ∃ ss, C.x25519 id.privateKey remote = .ok ss ∧
      hs = { Handshake.zero with
        presharedKey := pskKey psk, remoteStatic := remote, hasRemoteStatic := true
        precomputedSs := ss, hasPrecomputedSs := true } := by
  unfold handshakeInit at h
  dsimp only at h
  split at h
  · cases h
  rename_i ss hss
  obtain ⟨rfl, -⟩ := Prod.mk.inj h
  exact ⟨ss, hss, rfl⟩

/-- What the two sides share once the responder has consumed the initiation. -/
structure Offered (C : Crypto) (i : Identity) (a b : Handshake) : Prop where
  created : a.state = .initiationCreated
  consumed : b.state = .initiationConsumed
  chainKey : b.chainKey = a.chainKey
  hash : b.hash = a.hash
  remoteStatic : b.remoteStatic = i.publicKey
  remoteIndex : b.remoteIndex = a.localIndex
  ephemeral : C.x25519Base a.localEphemeral = .ok b.remoteEphemeral

/-- A handshake that the responder has prepared can consume an initiation of `i`: it either knows the
initiator, with the right shared secret, or learns who it is. -/
structure Prepared (C : Crypto) (i r : Identity) (b : Handshake) : Prop where
  known : b.hasRemoteStatic = true → b.remoteStatic = i.publicKey
  precomputed : b.hasPrecomputedSs = true → C.x25519 r.privateKey i.publicKey = .ok b.precomputedSs

lemma exists_prepared (hC : C.Symbolic) {known : Option Key} (psk : Option Key)
    (hi : C.x25519Base i.privateKey = .ok i.publicKey)
    (hr : C.x25519Base r.privateKey = .ok r.publicKey)
    (hss : C.x25519 i.privateKey r.publicKey = .ok ss)
    (hknown : known = none ∨ known = some i.publicKey) :
    ∃ b, C.handshakeInit r known psk = (b, .ok ()) ∧ Prepared C i r b ∧
      b.presharedKey = pskKey psk := by
  rw [hC.comm hi hr] at hss
  obtain rfl | rfl := hknown
  · refine ⟨_, rfl, ⟨?_, ?_⟩, rfl⟩ <;> rintro ⟨⟩
  unfold handshakeInit
  dsimp only
  rw [hss]
  exact ⟨_, rfl, ⟨fun _ => rfl, fun _ => hss⟩, rfl⟩

/-- The responder consumes the initiation that was created for it, and learns who sent it. -/
theorem initiation_consumed (hC : C.Symbolic) {a' : Handshake} {localIndex : UInt32}
    {msg : List UInt8} (hi : C.x25519Base i.privateKey = .ok i.publicKey)
    (hr : C.x25519Base r.privateKey = .ok r.publicKey) (hremote : a.remoteStatic = r.publicKey)
    (hss : C.x25519 i.privateKey r.publicKey = .ok ss) (hpre : a.precomputedSs = ss)
    (hb : Prepared C i r b) (hcreate : C.createInitiation a i localIndex d = (a', .ok msg)) :
    ∃ b', C.consumeInitiation b r msg = (b', .ok (i.publicKey, d.timestamp)) ∧
      Offered C i a' b' ∧ b'.presharedKey = b.presharedKey := by
  obtain ⟨ephPriv, ephPub, index, es, static, stamp, hkeypair, hes, hstatic, hstamp, rfl, rfl⟩ :=
    createInitiation_ok hcreate
  rw [hremote] at hes hstatic hstamp
  rw [hpre] at hstamp
  have hbase := base_of_keypair hkeypair
  have hlen : static.length = keyLen + tagLen := by
    rw [C.length_aeadSeal hstatic, Vector.length_toList]
  have hlen' : stamp.length = timestampLen + tagLen := by
    rw [C.length_aeadSeal hstamp, Vector.length_toList]
  have hpeer : (bytesAt keyLen i.publicKey.toList 0 : Key) = i.publicKey :=
    bytesAt_eq_of_split (a := []) (b := []) (by simp) rfl
  have htime : (bytesAt timestampLen d.timestamp.toList 0 : Timestamp) = d.timestamp :=
    bytesAt_eq_of_split (a := []) (b := []) (by simp) rfl
  -- the responder finds the secrets of the key schedule from its side
  have hparts : InitiationParts C b r
      (C.addMacs (initiationBody index ephPub static stamp) (C.mac1Key a.remoteStatic)) es ss
      i.publicKey.toList d.timestamp.toList := by
    rw [hremote]
    refine ⟨initiation_type, initiation_mac1 hlen hlen', ?_, ?_, ?_, ?_, ?_⟩
    · rw [initiation_ephemeral, ← hC.comm hbase hr]
      exact hes
    · rw [initiation_ephemeral, initiation_static hlen]
      exact hC.open_seal hstatic
    · intro hknown
      rw [hpeer, hb.known hknown]
    · rw [hpeer]
      have hss' : C.x25519 r.privateKey i.publicKey = .ok ss := by rw [← hC.comm hi hr, hss]
      split
      · next hcached => rw [← hss', hb.precomputed hcached]
      · exact hss'
    · rw [initiation_ephemeral, initiation_static hlen, initiation_stamp hlen hlen']
      exact hC.open_seal hstamp
  have hconsume := hparts.consumeInitiation
  rw [hpeer, htime] at hconsume
  refine ⟨_, hconsume, ?_, initiationConsumed_presharedKey _ _ _ _ _ _⟩
  unfold initiationConsumed
  rw [initiation_ephemeral, initiation_static hlen, initiation_stamp hlen hlen', initiation_sender,
    hpeer, ← hremote, ← hpre]
  exact ⟨rfl, rfl, rfl, rfl, rfl, rfl, hbase⟩

/-- What the two sides share once the initiator has consumed the response. -/
structure Agreed (a b : Handshake) : Prop where
  consumed : a.state = .responseConsumed
  created : b.state = .responseCreated
  chainKey : a.chainKey = b.chainKey
  localIndex : b.remoteIndex = a.localIndex
  remoteIndex : a.remoteIndex = b.localIndex

section Response

variable {i : Identity} {a b b' : Handshake} {localIndex : UInt32} {d : Draw} {msg : List UInt8}

/-- The initiator consumes the response that was created for it. -/
theorem response_consumed (hC : C.Symbolic) (hi : C.x25519Base i.privateKey = .ok i.publicKey)
    (hoffered : Offered C i a b) (hpsk : a.presharedKey = b.presharedKey)
    (hcreate : C.createResponse b localIndex d = (b', .ok msg)) :
    ∃ a', C.consumeResponse a i msg = (a', .ok ()) ∧ Agreed a' b' := by
  obtain ⟨ephPriv, ephPub, index, ee, se, empty, keys, hkeypair, hlen, hee, hse, hkeys, hempty,
    rfl, rfl⟩ := createResponse_ok hcreate
  have hbase := base_of_keypair hkeypair
  have hparts : ResponseParts C a i
      (C.addMacs (responseBody index b.remoteIndex ephPub empty) (C.mac1Key b.remoteStatic)) ee se
      keys := by
    refine ⟨hoffered.created, response_type, ?_, ?_, ?_, ?_, ?_, [], ?_⟩
    · rw [response_receiver, hoffered.remoteIndex]
    · rw [hoffered.remoteStatic]
      exact response_mac1 hlen
    · rw [response_ephemeral, ← hC.comm hbase hoffered.ephemeral]
      exact hee
    · rw [response_ephemeral, ← hC.comm hbase hi, ← hoffered.remoteStatic]
      exact hse
    · rw [response_ephemeral, hpsk, ← hoffered.chainKey]
      exact hkeys
    · rw [response_ephemeral, response_empty hlen, ← hoffered.hash]
      exact hC.open_seal hempty
  exact ⟨_, hparts.consumeResponse, rfl, rfl, rfl, hoffered.remoteIndex, response_sender⟩

/-- The initiator refuses a response that was created with another pre-shared key. -/
theorem response_refused (hC : C.Symbolic) (hopens : C.OpensSealed)
    (hi : C.x25519Base i.privateKey = .ok i.publicKey) (hoffered : Offered C i a b)
    (hpsk : a.presharedKey ≠ b.presharedKey)
    (hsep : C.Separates b d a.presharedKey b.presharedKey)
    (hcreate : C.createResponse b localIndex d = (b', .ok msg)) :
    ∃ e, C.consumeResponse a i msg = (a, .error e) := by
  obtain ⟨ephPriv, ephPub, index, ee, se, empty, keys, hkeypair, hlen, hee, hse, rfl, hempty,
    rfl, rfl⟩ := createResponse_ok hcreate
  have hbase := base_of_keypair hkeypair
  obtain hfail | ⟨ee', se', keys', hparts⟩ := consumeResponse_cases C a i
    (C.addMacs (responseBody index b.remoteIndex ephPub empty) (C.mac1Key b.remoteStatic))
  · exact hfail
  · -- both sides have the same secrets up to the pre-shared key, so both keys have sealed the field
    obtain ⟨-, -, -, -, hee', hse', rfl, opened, hopen⟩ := hparts
    rw [response_ephemeral] at hee' hse' hopen
    rw [← hC.comm hbase hoffered.ephemeral, hee] at hee'
    rw [← hC.comm hbase hi, ← hoffered.remoteStatic, hse] at hse'
    obtain rfl := Except.ok.inj hee'
    obtain rfl := Except.ok.inj hse'
    rw [response_empty hlen, ← hoffered.chainKey, ← hoffered.hash] at hopen
    have hopened : opened = [] := by
      have hsame := C.length_aeadOpen hopen
      exact length_eq_zero_iff.mp (by omega)
    rw [hopened] at hopen
    exact absurd ((hopens hopen).trans hempty.symm) (hsep hpsk hkeypair hee hse)

end Response

/-- Both handshakes have the same chaining key, and begin sessions that have each other's keys and each
other's indices. -/
def Paired (C : Crypto) (a b : Handshake) : Prop :=
  a.chainKey = b.chainKey ∧
    ∃ sa sb, (C.beginSession a).2 = .ok sa ∧ (C.beginSession b).2 = .ok sb ∧
      sa.sendKey = sb.recvKey ∧ sb.sendKey = sa.recvKey ∧
      sa.remoteIndex = sb.localIndex ∧ sb.remoteIndex = sa.localIndex

lemma Agreed.paired (h : Agreed a b) : Paired C a b := by
  refine ⟨h.chainKey, ?_⟩
  unfold beginSession
  rw [h.consumed, h.created, h.chainKey, h.localIndex, h.remoteIndex]
  exact ⟨_, _, rfl, rfl, rfl, rfl, rfl, rfl⟩

/-- The handshake agrees. Whatever the initiator `i` creates for the responder `r`, the responder
consumes, learning the initiator's static key, also if it did not know it before. Whatever it answers,
the initiator consumes if both hold the same pre-shared key, and then the two sessions are paired. With
different pre-shared keys the initiator refuses the answer, unless both keys happen to seal it. -/
theorem handshake_agreement (hC : C.Symbolic) {i r : Identity}
    (hi : C.x25519Base i.privateKey = .ok i.publicKey)
    (hr : C.x25519Base r.privateKey = .ok r.publicKey) {pskI pskR known : Option Key}
    (hknown : known = none ∨ known = some i.publicKey)
    {indexI indexR : UInt32} {dI dR : Draw} {a0 a1 : Handshake} {m1 : List UInt8}
    (hinit : C.handshakeInit i (some r.publicKey) pskI = (a0, .ok ()))
    (hcreate : C.createInitiation a0 i indexI dI = (a1, .ok m1)) :
    ∃ b0 b1, C.handshakeInit r known pskR = (b0, .ok ()) ∧
      C.consumeInitiation b0 r m1 = (b1, .ok (i.publicKey, dI.timestamp)) ∧
      b1.remoteStatic = i.publicKey ∧
      ∀ b2 m2, C.createResponse b1 indexR dR = (b2, .ok m2) →
        (pskKey pskI = pskKey pskR →
          ∃ a2, C.consumeResponse a1 i m2 = (a2, .ok ()) ∧ Paired C a2 b2) ∧
        (pskKey pskI ≠ pskKey pskR → C.OpensSealed →
          C.Separates b1 dR (pskKey pskI) (pskKey pskR) →
          ∃ e, C.consumeResponse a1 i m2 = (a1, .error e)) := by
  obtain ⟨ss, hss, rfl⟩ := handshakeInit_some hinit
  obtain ⟨b0, hprepare, hprepared, hpskR⟩ := exists_prepared hC pskR hi hr hss hknown
  obtain ⟨b1, hconsume, hoffered, hpskB⟩ :=
    initiation_consumed hC hi hr rfl hss rfl hprepared hcreate
  rw [hpskR] at hpskB
  have hpskA : a1.presharedKey = pskKey pskI := by
    obtain ⟨_, _, _, _, _, _, -, -, -, -, -, rfl⟩ := createInitiation_ok hcreate
    rfl
  refine ⟨b0, b1, hprepare, hconsume, hoffered.remoteStatic, ?_⟩
  intro b2 m2 hrespond
  constructor
  · intro hpsk
    obtain ⟨a2, hconsume2, hagreed⟩ :=
      response_consumed hC hi hoffered (by rw [hpskA, hpskB, hpsk]) hrespond
    exact ⟨a2, hconsume2, hagreed.paired⟩
  · intro hpsk hopens hsep
    rw [← hpskA, ← hpskB] at hpsk hsep
    exact response_refused hC hopens hi hoffered hpsk hsep hrespond

/-! ## An exchange in the clear -/

lemma symbolic_clearSuite : clearSuite.Symbolic where
  comm {a b A B} ha hb := by
    obtain rfl := Except.ok.inj ha
    obtain rfl := Except.ok.inj hb
    simp only [clearSuite, UInt8.add_comm]
  open_seal {key n ad text sealed} hseal := by
    obtain rfl := Except.ok.inj hseal
    simp [clearSuite, length_clearTag]

lemma opensSealed_clearSuite : clearSuite.OpensSealed := by
  intro key n ad text sealed hopen
  simp only [clearSuite] at hopen ⊢
  split at hopen
  · next htag =>
    obtain rfl := Except.ok.inj hopen
    rw [← htag.2, take_append_drop]
  · cases hopen

def keyOf (bytes : List UInt8) : Key := bytesAt keyLen bytes 0

lemma getD_hmac_clearSuite {key : Key} {text : List UInt8} {n : ℕ} (hn : n < tagLen) :
    (clearSuite.hmac key text).toList.getD n 0 = (text ++ key.toList).getD n 0 := by
  have hn' : n < keyLen := Nat.lt_trans hn (by decide)
  rw [getD_eq_getElem _ _ (by rwa [Vector.length_toList])]
  simp [clearSuite, halfKey, hn]

lemma getD_kdf3_clearSuite (chainKey psk : Key) :
    (clearSuite.kdf3 chainKey psk.toList).2.2.toList.getD 1 0 = psk.toList.getD 0 0 := by
  have happend (key : Key) (rest : List UInt8) (n : ℕ) (hn : n < keyLen) :
      (key.toList ++ rest).getD n 0 = key.toList.getD n 0 :=
    getD_append _ _ _ _ (by rwa [Vector.length_toList])
  unfold kdf3
  rw [getD_hmac_clearSuite (by decide), append_assoc, happend _ _ _ (by decide),
    getD_hmac_clearSuite (by decide), append_assoc, happend _ _ _ (by decide),
    getD_hmac_clearSuite (by decide), singleton_append, getD_cons_succ,
    getD_hmac_clearSuite (by decide), happend _ _ _ (by decide)]

lemma separates_clearSuite {d : Draw} {psk psk' : Key}
    (h : psk.toList.getD 0 0 ≠ psk'.toList.getD 0 0) : clearSuite.Separates hs d psk psk' := by
  intro _ ephPriv eph ee se _ _ _ heq
  have htag (key : Key) : (clearTag key).getD 1 0 = key.toList.getD 1 0 := by
    simp [clearTag, tagLen]
  have hsame := congrArg (getD · 1 0) (Except.ok.inj heq)
  rw [nil_append, nil_append, htag, htag, emptyKeys, emptyKeys, getD_kdf3_clearSuite,
    getD_kdf3_clearSuite] at hsame
  exact h hsame

def clearIdentity (bytes : List UInt8) : Identity := ⟨keyOf bytes, keyOf bytes⟩

/-- A draw that gives the private key with the given first bytes. -/
def clearDraw (bytes : List UInt8) : Draw :=
  { privateKey := .ok (keyOf bytes), index := .ok 1, timestamp := bytesAt timestampLen bytes 0
    secret := .ok zeroKey, nonce := .ok (.replicate _ 0) }

lemma exists_createInitiation_clearSuite (hs : Handshake) (hremote : hs.hasRemoteStatic = true)
    (hpre : hs.hasPrecomputedSs = true) (id : Identity) (bytes : List UInt8) :
    ∃ hs' msg, clearSuite.createInitiation hs id 0 (clearDraw bytes) = (hs', .ok msg) := by
  unfold createInitiation
  rw [if_neg (by simp [hremote, hpre])]
  exact ⟨_, _, rfl⟩

lemma exists_createResponse_clearSuite (hstate : hs.state = .initiationConsumed)
    (bytes : List UInt8) :
    ∃ hs' msg, clearSuite.createResponse hs 0 (clearDraw bytes) = (hs', .ok msg) := by
  unfold createResponse
  rw [if_neg (not_not.mpr hstate)]
  exact ⟨_, _, rfl⟩

/-- The exchange of `[1]` with `[2]` in the clear, up to the response: the initiator's handshake, the
responder's handshake and the response. -/
def ClearExchange (pskI pskR : Option Key) (a b : Handshake) (msg : List UInt8) : Prop :=
  ∃ m1, clearSuite.createInitiation
      (clearSuite.handshakeInit (clearIdentity [1]) (some (clearIdentity [2]).publicKey) pskI).1
      (clearIdentity [1]) 0 (clearDraw [3]) = (a, .ok m1) ∧
    clearSuite.createResponse
      (clearSuite.consumeInitiation (clearSuite.handshakeInit (clearIdentity [2]) none pskR).1
        (clearIdentity [2]) m1).1 0 (clearDraw [4]) = (b, .ok msg)

/-- Two sides that hold the same pre-shared key, and two that do not. -/
theorem handshake_agreement_clear :
    (∃ a b msg a', ClearExchange none none a b msg ∧
      clearSuite.consumeResponse a (clearIdentity [1]) msg = (a', .ok ()) ∧
      Paired clearSuite a' b) ∧
    ∃ a b msg e, ClearExchange (some (keyOf [5])) (some (keyOf [6])) a b msg ∧
      clearSuite.consumeResponse a (clearIdentity [1]) msg = (a, .error e) := by
  have hrun (pskI pskR : Option Key) : ∃ a b0 b msg, ClearExchange pskI pskR a b msg ∧
      (pskKey pskI = pskKey pskR → ∃ a',
        clearSuite.consumeResponse a (clearIdentity [1]) msg = (a', .ok ()) ∧
        Paired clearSuite a' b) ∧
      (pskKey pskI ≠ pskKey pskR → clearSuite.OpensSealed →
        clearSuite.Separates b0 (clearDraw [4]) (pskKey pskI) (pskKey pskR) →
        ∃ e, clearSuite.consumeResponse a (clearIdentity [1]) msg = (a, .error e)) := by
    obtain ⟨a, m1, hcreate⟩ := exists_createInitiation_clearSuite
      (clearSuite.handshakeInit (clearIdentity [1]) (some (clearIdentity [2]).publicKey) pskI).1
      rfl rfl (clearIdentity [1]) [3]
    obtain ⟨b0, b1, hinit, hconsume, -, h⟩ := handshake_agreement symbolic_clearSuite
      rfl rfl (.inl rfl) rfl hcreate
    obtain ⟨_, _, _, _, -, hb1, -⟩ := consumeInitiation_ok hconsume
    have hstate : b1.state = .initiationConsumed := by rw [hb1, initiationConsumed_state]
    obtain ⟨b, msg, hrespond⟩ := exists_createResponse_clearSuite hstate [4]
    exact ⟨a, b1, b, msg, ⟨m1, hcreate, by rw [hinit, hconsume, hrespond]⟩, h b msg hrespond⟩
  constructor
  · obtain ⟨a, -, b, msg, hexchange, hsame, -⟩ := hrun none none
    obtain ⟨a', hconsume, hpaired⟩ := hsame rfl
    exact ⟨a, b, msg, a', hexchange, hconsume, hpaired⟩
  · have hfirst : (keyOf [5]).toList.getD 0 0 ≠ (keyOf [6]).toList.getD 0 0 := by decide +kernel
    obtain ⟨a, b0, b, msg, hexchange, -, hdiffer⟩ := hrun (some (keyOf [5])) (some (keyOf [6]))
    obtain ⟨e, hrefuse⟩ := hdiffer (fun h : keyOf [5] = keyOf [6] => hfirst (by rw [h]))
      opensSealed_clearSuite (separates_clearSuite hfirst)
    exact ⟨a, b, msg, e, hexchange, hrefuse⟩

end Crypto

end Wg
