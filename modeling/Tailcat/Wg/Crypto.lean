import Tailcat.Basic

/-!
# The primitives of the tunnel

The functions of `include/tc/crypto.h` that WireGuard is built on are parameters. The key derivation of
`src/crypto/kdf.c` is defined from the HMAC. What a function draws from the system is an argument: a
`Draw` holds the outcome of each kind of draw.
-/

namespace Wg

/-- `TC_WG_KEY_LEN`. -/
def keyLen : ℕ := 32
/-- `TC_WG_TAG_LEN`. -/
def tagLen : ℕ := 16
/-- `TC_WG_MAC_LEN`. -/
def macLen : ℕ := 16
/-- `TC_WG_TIMESTAMP_LEN`. -/
def timestampLen : ℕ := 12
/-- `TC_WG_COOKIE_LEN`. -/
def cookieLen : ℕ := 16
/-- `TC_WG_COOKIE_NONCE_LEN`. -/
def cookieNonceLen : ℕ := 24

abbrev Key := Vector UInt8 keyLen
/-- The value of a keyed BLAKE2s: a `mac1`, a `mac2` or a cookie. -/
abbrev Mac := Vector UInt8 macLen
/-- A TAI64N timestamp. -/
abbrev Timestamp := Vector UInt8 timestampLen

def zeroKey : Key := .replicate _ 0
/-- A MAC of zeros. -/
def zeroMac : Mac := .replicate _ 0

structure Crypto where
  /-- `tc_x25519_base`: the public key of a private key. -/
  x25519Base : Key → Except Err Key
  /-- `tc_x25519`: the shared secret of a private and a public key. -/
  x25519 : Key → Key → Except Err Key
  /-- `tc_blake2s` with a digest of 32 bytes and no key. -/
  blake2s : List UInt8 → Key
  /-- `tc_blake2s` with a digest of 16 bytes; the key comes first. -/
  mac : List UInt8 → List UInt8 → Mac
  /-- `tc_hmac_blake2s`. -/
  hmac : Key → List UInt8 → Key
  /-- `tc_aead_seal`: the key, the counter, the associated data and the plaintext. -/
  aeadSeal : Key → UInt64 → List UInt8 → List UInt8 → Except Err (List UInt8)
  /-- `tc_aead_open`: the key, the counter, the associated data and the ciphertext. -/
  aeadOpen : Key → UInt64 → List UInt8 → List UInt8 → Except Err (List UInt8)
  /-- `tc_xaead_seal`. -/
  xaeadSeal : Key → List UInt8 → List UInt8 → List UInt8 → Except Err (List UInt8)
  /-- `tc_xaead_open`. -/
  xaeadOpen : Key → List UInt8 → List UInt8 → List UInt8 → Except Err (List UInt8)
  /-- Sealing adds the tag. -/
  length_aeadSeal : ∀ {key counter ad text sealed}, aeadSeal key counter ad text = .ok sealed →
    sealed.length = text.length + tagLen
  /-- Opening takes the tag off. -/
  length_aeadOpen : ∀ {key counter ad sealed text}, aeadOpen key counter ad sealed = .ok text →
    sealed.length = text.length + tagLen

/-- What one call draws from the system. -/
structure Draw where
  /-- The private key of `tc_x25519_keypair`, clamped. -/
  privateKey : Except Err Key
  /-- A session index from `tc_random_bytes`. -/
  index : Except Err UInt32
  /-- `tc_wg_timestamp`. -/
  timestamp : Timestamp
  /-- A secret for cookies from `tc_random_bytes`. -/
  secret : Except Err Key
  /-- The nonce of a cookie reply from `tc_random_bytes`. -/
  nonce : Except Err (Vector UInt8 cookieNonceLen)

namespace Crypto

variable (C : Crypto)

/-- `tc_x25519_keypair`: a private and a public key. -/
def x25519Keypair (d : Draw) : Except Err (Key × Key) :=
  match d.privateKey with
  | .error e => .error e
  | .ok sk =>
    match C.x25519Base sk with
    | .error e => .error e
    | .ok pk => .ok (sk, pk)

def kdf1 (key : Key) (input : List UInt8) : Key := C.hmac (C.hmac key input) [1]

def kdf2 (key : Key) (input : List UInt8) : Key × Key :=
  let prk := C.hmac key input
  let t0 := C.hmac prk [1]
  (t0, C.hmac prk (t0.toList ++ [2]))

def kdf3 (key : Key) (input : List UInt8) : Key × Key × Key :=
  let prk := C.hmac key input
  let t0 := C.hmac prk [1]
  let t1 := C.hmac prk (t0.toList ++ [2])
  (t0, t1, C.hmac prk (t1.toList ++ [3]))

end Crypto

/-! ## Suites to evaluate with -/

def halfKey (bytes : List UInt8) : Key := .ofFn fun i => if i.val < tagLen then bytes.getD i 0 else 0

/-- The tag that stands for a key in `clearSuite`. -/
def clearTag (key : Key) : List UInt8 := key.toList.take tagLen

lemma length_clearTag (key : Key) : (clearTag key).length = tagLen := by
  rw [clearTag, List.length_take, Vector.length_toList]
  rfl

/-- A suite that hides nothing. Hashes are truncated inputs, a public key is the private key, and a
tag is the first half of the key. -/
def clearSuite : Crypto where
  x25519Base := .ok
  x25519 a b := .ok (.ofFn fun i => a.get i + b.get i)
  blake2s text := halfKey (text.drop (text.length - tagLen))
  mac key text := .ofFn fun i => key.getD i 0 + text.getD i 0
  hmac key text := halfKey (text ++ key.toList)
  aeadSeal key _ _ text := .ok (text ++ clearTag key)
  aeadOpen key _ _ sealed :=
    if tagLen ≤ sealed.length ∧ sealed.drop (sealed.length - tagLen) = clearTag key
    then .ok (sealed.take (sealed.length - tagLen)) else .error .inval
  xaeadSeal _ _ _ text := .ok (text ++ List.replicate tagLen 0)
  xaeadOpen _ _ _ sealed := .ok (sealed.take (sealed.length - tagLen))
  length_aeadSeal h := by
    obtain rfl := Except.ok.inj h
    rw [List.length_append, length_clearTag]
  length_aeadOpen h := by
    split at h
    · obtain rfl := Except.ok.inj h
      rw [List.length_take]
      omega
    · cases h

/-- A suite in which every key, hash and tag is zero. -/
def plainSuite : Crypto where
  __ := clearSuite
  x25519Base _ := .ok zeroKey
  x25519 _ _ := .ok zeroKey
  blake2s _ := zeroKey
  mac _ _ := zeroMac
  hmac _ _ := zeroKey
  aeadSeal _ _ _ text := .ok (text ++ List.replicate tagLen 0)
  aeadOpen _ _ _ sealed :=
    if tagLen ≤ sealed.length then .ok (sealed.take (sealed.length - tagLen)) else .error .inval
  length_aeadSeal h := by
    obtain rfl := Except.ok.inj h
    rw [List.length_append, List.length_replicate]
  length_aeadOpen h := by
    split at h
    · obtain rfl := Except.ok.inj h
      rw [List.length_take]
      omega
    · cases h

/-- A draw of zeros, with the index one. -/
def plainDraw : Draw :=
  { privateKey := .ok zeroKey, index := .ok 1, timestamp := .replicate _ 0, secret := .ok zeroKey
    nonce := .ok (.replicate _ 0) }

end Wg
