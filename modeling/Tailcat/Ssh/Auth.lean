import Tailcat.Ssh.Kex

/-!
# Authentication messages

`src/ssh/auth.c`. The primitives that verify a signature are parameters, and so are the hashes; that a
hash could not be computed is left out.

## Main results

* `signedBlob_eq`: the message whose signature is verified, field by field;
* `authCheck_ok`: when a request is let in.
-/

namespace Ssh

open Wbuf ByteOrder

/-- `TC_SSH_MSG_SERVICE_REQUEST`. -/
def msgServiceRequest : UInt8 := 5
/-- `TC_SSH_MSG_SERVICE_ACCEPT`. -/
def msgServiceAccept : UInt8 := 6
/-- `TC_SSH_MSG_USERAUTH_REQUEST`. -/
def msgUserauthRequest : UInt8 := 50
/-- `TC_SSH_MSG_USERAUTH_FAILURE`. -/
def msgUserauthFailure : UInt8 := 51
/-- `TC_SSH_MSG_USERAUTH_SUCCESS`. -/
def msgUserauthSuccess : UInt8 := 52
/-- `TC_SSH_MSG_USERAUTH_PK_OK`. -/
def msgUserauthPkOk : UInt8 := 60

/-- `TC_SSH_MAX_USERNAME`. -/
def maxUsername : ℕ := 64
/-- `TC_SSH_MAX_SERVICE`. -/
def maxService : ℕ := 32
/-- `TC_SSH_ED25519_PUB_LEN`. -/
def ed25519PubLen : ℕ := 32
/-- `TC_SSH_ED25519_SIG_LEN`. -/
def ed25519SigLen : ℕ := 64
/-- `TC_SSH_MAX_KEYBLOB`. -/
def maxKeyblob : ℕ := 768
/-- `TC_SSH_MAX_SIGBLOB`. -/
def maxSigblob : ℕ := 768

/-- The digests that `hash_msg` chooses from. -/
inductive Digest
  | sha256
  | sha384
  | sha512
  deriving DecidableEq

/-- The curves that `verify_ecdsa` chooses from. -/
inductive Curve
  | secp256r1
  | secp384r1
  deriving DecidableEq

/-- The primitives of the key exchange, and those that verify signatures. -/
structure Verifiers extends Suite where
  /-- `tc_ed25519_public_from_seed`. -/
  ed25519Public : Bytes32 → Except Err Bytes32
  /-- `tc_ed25519_verify`: the signature, the public key and the message. -/
  ed25519Verify : Signature → Bytes32 → List UInt8 → Bool
  /-- The hash of a message. -/
  digest : Digest → List UInt8 → List UInt8
  /-- `mbedtls_rsa_get_len`, if the modulus and the exponent make a key. -/
  rsaLen : List UInt8 → List UInt8 → Option ℕ
  /-- `mbedtls_rsa_pkcs1_verify`: the modulus, the exponent, the digest, the hash and the signature. -/
  rsaVerify : List UInt8 → List UInt8 → Digest → List UInt8 → List UInt8 → Bool
  /-- `mbedtls_ecdsa_verify`, with the check of the point: the curve, the point, the hash and the two
  halves of the signature. -/
  ecdsaVerify : Curve → List UInt8 → List UInt8 → List UInt8 → List UInt8 → Bool

/-! ## Services -/

/-- `tc_ssh_service_request_parse`, for an array of `cap` bytes. -/
def serviceRequestParse (cap : ℕ) (payload : List UInt8) : Except Err (List UInt8) :=
  let (msg, r) := (Rbuf.init payload).getByte
  if msg ≠ msgServiceRequest then .error .inval
  else
    match r.getCstring cap with
    | (none, _) => .error .inval
    | (some service, r) => if r.ok then .ok service else .error .inval

def serviceAcceptBuild (cap : ℕ) (service : List UInt8) : Except Err (List UInt8) :=
  (((init cap).putByte msgServiceAccept).putString service).finish

/-! ## Keys -/

def authCanVerify (algo : List UInt8) : Bool := authAlgos.contains algo

/-- `key_type_for`: the type that the blob of a key names itself. -/
def keyTypeFor (algo : List UInt8) : List UInt8 :=
  if (ascii "rsa-sha2-").isPrefixOf algo then ascii "ssh-rsa" else algo

def pubkeyWellformed (algo key : List UInt8) : Bool :=
  let type := keyTypeFor algo
  let (named, r) := (Rbuf.init key).getStringEq type
  if !named then false
  else if type = ascii "ssh-ed25519" then
    match r.getSlice ed25519PubLen with
    | (some k, r) => k.length = ed25519PubLen && r.ok && r.remaining = 0
    | (none, _) => false
  else if type = ascii "ssh-rsa" then
    match r.getSlice maxKeyblob with
    | (none, _) => false
    | (some _, r) =>
      match r.getSlice maxKeyblob with
      | (none, _) => false
      | (some _, r) => r.ok && r.remaining = 0
  else if (ascii "ecdsa-sha2-").isPrefixOf type then
    -- the curve is named a second time inside the blob
    let (curve, r) := r.getStringEq (type.drop 11)
    if !curve then false
    else
      match r.getSlice maxKeyblob with
      | (some q, r) => q.length ≠ 0 && r.ok && r.remaining = 0
      | (none, _) => false
  else false

/-! ## Requests -/

inductive AuthMethod
  | none
  | publickey
  | other
  deriving DecidableEq

structure AuthRequest where
  user : List UInt8
  service : List UInt8
  method : AuthMethod
  hasSignature : Bool := false
  pubkey : List UInt8 := []
  algo : List UInt8 := []
  sigblob : List UInt8 := []
  deriving DecidableEq

/-- The part of `tc_ssh_auth_parse` for the method `publickey`. -/
def publickeyParse (user service : List UInt8) (r : Rbuf) : Except Err AuthRequest :=
  let (hasSignature, r) := r.getBool
  match r.getCstring 64 with
  | (none, _) => .error .inval
  | (some algo, r) =>
    match r.getSlice 4096 with
    | (none, _) => .error .inval
    | (some blob, r) =>
      -- a key that cannot be checked is refused like a method that is not implemented
      if !authCanVerify algo || blob.length > maxKeyblob || !pubkeyWellformed algo blob then
        .ok { user, service, method := .other, hasSignature }
      else
        let req : AuthRequest :=
          { user, service, method := .publickey, hasSignature, pubkey := blob, algo }
        if hasSignature then
          match r.getSlice maxSigblob with
          | (none, _) => .error .inval
          | (some sigblob, r) => if r.ok then .ok { req with sigblob } else .error .inval
        else if r.ok then .ok req
        else .error .inval

def authParse (payload : List UInt8) : Except Err AuthRequest :=
  let (msg, r) := (Rbuf.init payload).getByte
  if msg ≠ msgUserauthRequest then .error .inval
  else
    match r.getCstring maxUsername with
    | (none, _) => .error .inval
    | (some user, r) =>
      match r.getCstring maxService with
      | (none, _) => .error .inval
      | (some service, r) =>
        match r.getCstring 32 with
        | (none, _) => .error .inval
        | (some method, r) =>
          if method = ascii "none" then
            if r.ok then .ok { user, service, method := .none } else .error .inval
          else if method ≠ ascii "publickey" then .ok { user, service, method := .other }
          else publickeyParse user service r

/-! ## Signatures -/

/-- `unwrap_sig`: the signature, if it names the algorithm of the request. -/
def unwrapSig (req : AuthRequest) : Option (List UInt8) :=
  let (named, r) := (Rbuf.init req.sigblob).getStringEq req.algo
  if !named then none
  else
    match r.getSlice maxSigblob with
    | (none, _) => none
    | (some sig, r) => if r.remaining ≠ 0 then none else some sig

/-- The digest that `hash_msg` takes for an algorithm. -/
def hashMsg (algo : List UInt8) : Option Digest :=
  if algo = ascii "rsa-sha2-256" || algo = ascii "ecdsa-sha2-nistp256" then some .sha256
  else if algo = ascii "rsa-sha2-512" then some .sha512
  else if algo = ascii "ecdsa-sha2-nistp384" then some .sha384
  else none

def verifyRsa (V : Verifiers) (req : AuthRequest) (msg : List UInt8) : Bool :=
  let (named, r) := (Rbuf.init req.pubkey).getStringEq (ascii "ssh-rsa")
  if !named then false
  else
    let (e, r) := r.getSlice maxKeyblob
    let (n, r) := r.getSlice maxKeyblob
    match e, n, hashMsg req.algo, unwrapSig req with
    | some e, some n, some md, some sig =>
      r.remaining = 0 && V.rsaLen n e = some sig.length && V.rsaVerify n e md (V.digest md msg) sig
    | _, _, _, _ => false

/-- The curve that `verify_ecdsa` takes for an algorithm, and its name. -/
def curveFor (algo : List UInt8) : Option (Curve × List UInt8) :=
  if algo = ascii "ecdsa-sha2-nistp256" then some (.secp256r1, ascii "nistp256")
  else if algo = ascii "ecdsa-sha2-nistp384" then some (.secp384r1, ascii "nistp384")
  else none

/-- The two halves of an ECDSA signature. -/
def ecdsaHalves (inner : List UInt8) : Option (List UInt8 × List UInt8) :=
  let (r, rest) := (Rbuf.init inner).getSlice maxSigblob
  let (s, rest) := rest.getSlice maxSigblob
  match r, s with
  | some r, some s => if rest.remaining ≠ 0 then none else some (r, s)
  | _, _ => none

def verifyEcdsa (V : Verifiers) (req : AuthRequest) (msg : List UInt8) : Bool :=
  match curveFor req.algo with
  | none => false
  | some (curve, name) =>
    let (named, r) := (Rbuf.init req.pubkey).getStringEq req.algo
    let (again, r) := r.getStringEq name
    if !named || !again then false
    else
      let (q, r) := r.getSlice maxKeyblob
      match q, hashMsg req.algo, (unwrapSig req).bind ecdsaHalves with
      | some q, some md, some (sigR, sigS) =>
        q.length ≠ 0 && r.remaining = 0 && V.ecdsaVerify curve q (V.digest md msg) sigR sigS
      | _, _, _ => false

def verifyEd25519 (V : Verifiers) (req : AuthRequest) (msg : List UInt8) : Bool :=
  let (named, r) := (Rbuf.init req.pubkey).getStringEq (ascii "ssh-ed25519")
  if !named then false
  else
    let (key, r) := r.getSlice ed25519PubLen
    match key, unwrapSig req with
    | some key, some sig =>
      key.length = ed25519PubLen && r.remaining = 0 && sig.length = ed25519SigLen &&
        V.ed25519Verify (Fields.bytesAt _ sig 0) (Fields.bytesAt _ key 0) msg
    | _, _ => false

/-- The verifier that `tc_ssh_auth_check` takes for the algorithm of a request. -/
def verifySig (V : Verifiers) (req : AuthRequest) (msg : List UInt8) : Bool :=
  if req.algo = ascii "ssh-ed25519" then verifyEd25519 V req msg
  else if (ascii "rsa-sha2-").isPrefixOf req.algo then verifyRsa V req msg
  else if (ascii "ecdsa-sha2-").isPrefixOf req.algo then verifyEcdsa V req msg
  else false

def signedBlob (cap : ℕ) (req : AuthRequest) (sessionId : Bytes32) : Except Err (List UInt8) :=
  let w := ((init cap).putString sessionId.toList).putByte msgUserauthRequest
  let w := ((w.putString req.user).putString req.service).putString (ascii "publickey")
  (((w.putBool true).putString req.algo).putString req.pubkey).finish

def authCheck (V : Verifiers) (req : AuthRequest) (sessionId : Bytes32)
    (authorized : List (List UInt8)) : Except Err Unit :=
  if req.method ≠ .publickey || !req.hasSignature then .error .inval
  -- no keys means that nobody is authorized, not everybody
  else if authorized = [] then .error .inval
  else if !authorized.contains req.pubkey then .error .inval
  else
    match signedBlob (maxKeyblob + 512) req sessionId with
    | .error e => .error e
    | .ok blob => if verifySig V req blob then .ok () else .error .inval

/-! ## Answers -/

def authFailureBuild (cap : ℕ) : Except Err (List UInt8) :=
  ((((init cap).putByte msgUserauthFailure).putNamelist [ascii "publickey"]).putBool false).finish

def authSuccessBuild (cap : ℕ) : Except Err (List UInt8) :=
  ((init cap).putByte msgUserauthSuccess).finish

def authPkOkBuild (cap : ℕ) (algo pubkey : List UInt8) : Except Err (List UInt8) :=
  ((((init cap).putByte msgUserauthPkOk).putString algo).putString pubkey).finish

/-- Verifiers that accept the signature in which every byte is one, with no secrets. -/
def plainVerifiers : Verifiers :=
  { plainSuite with
    ed25519Public := fun _ => .ok (.replicate _ 0)
    ed25519Verify := fun sig _ _ => sig = .replicate _ 1
    digest := fun _ _ => []
    rsaLen := fun _ _ => none
    rsaVerify := fun _ _ _ _ _ => false
    ecdsaVerify := fun _ _ _ _ _ => false }

/-! ## What is let in -/

/-- The message that a client signs: the session, and what it asks for. -/
def signedMessage (sessionId : Bytes32) (user service algo pubkey : List UInt8) : List UInt8 :=
  hashString sessionId.toList ++ [msgUserauthRequest] ++ hashString user ++ hashString service ++
    hashString (ascii "publickey") ++ [1] ++ hashString algo ++ hashString pubkey

variable {req : AuthRequest} {sessionId : Bytes32}

/-- The message that is verified holds the session and the fields of the request, and nothing else. -/
theorem signedBlob_eq {cap : ℕ} {blob : List UInt8} (h : signedBlob cap req sessionId = .ok blob) :
    blob = signedMessage sessionId req.user req.service req.algo req.pubkey := by
  -- the fields from the last one on
  obtain ⟨m1, h1, rfl⟩ := of_finish_putString h
  obtain ⟨m2, h2, rfl⟩ := of_finish_putString h1
  obtain ⟨m3, h3, rfl⟩ := of_finish_putRaw h2
  obtain ⟨m4, h4, rfl⟩ := of_finish_putString h3
  obtain ⟨m5, h5, rfl⟩ := of_finish_putString h4
  obtain ⟨m6, h6, rfl⟩ := of_finish_putString h5
  obtain ⟨m7, h7, rfl⟩ := of_finish_putRaw h6
  obtain ⟨m8, h8, rfl⟩ := of_finish_putString h7
  obtain rfl := Except.ok.inj ((finish_init cap).symm.trans h8)
  simp [signedMessage, hashString]

/-- The request has a signature by an authorized key over the session and the request. -/
def AuthRequest.Signed (V : Verifiers) (authorized : List (List UInt8)) (sessionId : Bytes32)
    (req : AuthRequest) : Prop :=
  req.method = .publickey ∧ req.hasSignature = true ∧ req.pubkey ∈ authorized ∧
    verifySig V req (signedMessage sessionId req.user req.service req.algo req.pubkey) = true

/-- A request that is let in is signed. -/
theorem authCheck_ok {V : Verifiers} {authorized : List (List UInt8)}
    (h : authCheck V req sessionId authorized = .ok ()) : req.Signed V authorized sessionId := by
  unfold authCheck at h
  split_ifs at h with hform _ hknown
  split at h
  · cases h
  next blob hblob =>
  split at h
  next hverified =>
    simp only [Bool.or_eq_true, decide_eq_true_eq, Bool.not_eq_true', not_or,
      Decidable.not_not, Bool.not_eq_false] at hform
    rw [signedBlob_eq hblob] at hverified
    exact ⟨hform.1, hform.2, by simpa using hknown, hverified⟩
  · cases h

end Ssh
