import Tailcat.Ssh.Wire

/-!
# Key exchange messages

`src/ssh/kex.c`: the offer of algorithms, the hash of an exchange and the keys that are derived from it.
The primitives are parameters, collected in a `Suite`. That a hash could not be computed is left out.
-/

namespace Ssh

open ByteOrder

/-- `TC_SSH_MSG_DISCONNECT`. -/
def msgDisconnect : UInt8 := 1
/-- `TC_SSH_MSG_IGNORE`. -/
def msgIgnore : UInt8 := 2
/-- `TC_SSH_MSG_UNIMPLEMENTED`. -/
def msgUnimplemented : UInt8 := 3
/-- `TC_SSH_MSG_DEBUG`. -/
def msgDebug : UInt8 := 4
/-- `TC_SSH_MSG_EXT_INFO`. -/
def msgExtInfo : UInt8 := 7
/-- `TC_SSH_MSG_KEXINIT`. -/
def msgKexinit : UInt8 := 20
/-- `TC_SSH_MSG_NEWKEYS`. -/
def msgNewkeys : UInt8 := 21
/-- `TC_SSH_MSG_KEX_ECDH_INIT`. -/
def msgKexEcdhInit : UInt8 := 30
/-- `TC_SSH_MSG_KEX_ECDH_REPLY`. -/
def msgKexEcdhReply : UInt8 := 31
/-- `TC_SSH_MSG_USERAUTH_BANNER`. -/
def msgUserauthBanner : UInt8 := 53

/-- `TC_SSH_X25519_LEN`. -/
def x25519Len : ℕ := 32
/-- `TC_SSH_COOKIE_LEN`. -/
def cookieLen : ℕ := 16
/-- `KEXINIT_MAX`. -/
def kexinitMax : ℕ := 2048

/-- A key, a seed, a shared secret or a hash. -/
abbrev Bytes32 := Vector UInt8 32
/-- The key of a cipher. -/
abbrev CipherKey := Vector UInt8 64
/-- A signature. -/
abbrev Signature := Vector UInt8 64

structure Suite where
  /-- SHA-256. -/
  sha256 : List UInt8 → Bytes32
  /-- The public half of a private key, as `tc_x25519_keypair` makes it. -/
  x25519Public : Bytes32 → Bytes32
  /-- `tc_x25519`. -/
  x25519 : Bytes32 → Bytes32 → Except Err Bytes32
  /-- `tc_ed25519_sign`: the seed, the public key and the message. -/
  ed25519Sign : Bytes32 → Bytes32 → List UInt8 → Except Err Signature

/-! ## Offers -/

def kexAlgs : List (List UInt8) :=
  [ascii "curve25519-sha256", ascii "curve25519-sha256@libssh.org"]
/-- `tc_ssh_hostkey_algs`. -/
def hostkeyAlgs : List (List UInt8) := [ascii "ssh-ed25519"]
/-- `tc_ssh_cipher_algs`. -/
def cipherAlgs : List (List UInt8) := [ascii "chacha20-poly1305@openssh.com"]
/-- `tc_ssh_mac_algs`. -/
def macAlgs : List (List UInt8) := [ascii "hmac-sha2-256"]
/-- `tc_ssh_comp_algs`. -/
def compAlgs : List (List UInt8) := [ascii "none"]
/-- `tc_ssh_auth_algos`. -/
def authAlgos : List (List UInt8) :=
  [ascii "ssh-ed25519", ascii "ecdsa-sha2-nistp256", ascii "ecdsa-sha2-nistp384",
    ascii "rsa-sha2-512", ascii "rsa-sha2-256"]

def extInfoBuild (cap : ℕ) (algos : List (List UInt8)) : Except Err (List UInt8) :=
  if algos = [] then .error .inval
  else
    (((((Wbuf.init cap).putByte msgExtInfo).putU32 1).putString (ascii "server-sig-algs")).putNamelist
      algos).finish

/-- `tc_ssh_kexinit_build`, with the cookie that was drawn, if there were random bytes. -/
def kexinitBuild (cap : ℕ) (cookie : Except Err (Vector UInt8 cookieLen)) :
    Except Err (List UInt8) :=
  match cookie with
  | .error e => .error e
  | .ok cookie =>
    let w := ((Wbuf.init cap).putByte msgKexinit).putRaw cookie.toList
    let w := [kexAlgs, hostkeyAlgs, cipherAlgs, cipherAlgs, macAlgs, macAlgs, compAlgs, compAlgs, [],
      []].foldl Wbuf.putNamelist w
    ((w.putBool false).putU32 0).finish

/-- `tc_ssh_negotiated`. The indices of the algorithms are not used, but for that of the exchange. -/
structure Negotiated where
  kex : ℕ
  firstKexPacketFollows : Bool
  guessWasWrong : Bool

def pick (ours : List (List UInt8)) (r : Rbuf) : Option ℕ × Rbuf :=
  match r.getString sizeMax with
  | (none, r) => (none, r)
  | (some (i, n), r) => (namelistFirstSupported (Fields.slice r.buf i n) ours, r)

def kexinitParse (payload : List UInt8) : Except Err Negotiated :=
  let (msg, r) := (Rbuf.init payload).getByte
  if msg ≠ msgKexinit then .error .inval
  else
    match r.getRaw cookieLen with
    | (none, _) => .error .inval
    | (some _, r) =>
      match r.getString sizeMax with
      | (none, _) => .error .inval
      | (some (i, n), r) =>
        let kexList := Fields.slice r.buf i n
        let kex := namelistFirstSupported kexList kexAlgs
        let (hostkey, r) := pick hostkeyAlgs r
        let (cipherC2s, r) := pick cipherAlgs r
        let (cipherS2c, r) := pick cipherAlgs r
        -- the names of MAC algorithms and of languages are not used
        let (_, r) := r.getString sizeMax
        let (_, r) := r.getString sizeMax
        let (compC2s, r) := pick compAlgs r
        let (compS2c, r) := pick compAlgs r
        let (_, r) := r.getString sizeMax
        let (_, r) := r.getString sizeMax
        let (firstKexPacketFollows, r) := r.getBool
        let (_, r) := r.getU32
        if r.bad then .error .inval
        else
          match kex, hostkey, cipherC2s, cipherS2c, compC2s, compS2c with
          | some kex, some _, some _, some _, some _, some _ =>
            let first := kexList.takeWhile (· ≠ 0x2c)
            .ok { kex, firstKexPacketFollows
                  guessWasWrong := firstKexPacketFollows && first ≠ kexAlgs.getD kex [] }
          | _, _, _, _, _, _ => .error .unsupported

/-! ## The exchange hash -/

/-- What `hash_string` hashes. -/
def hashString (b : List UInt8) : List UInt8 := writeBE32 (.ofNat b.length) ++ b

/-- What `hash_mpint` hashes: no leading zeros, but one if the first bit is set. -/
def hashMpint (be : List UInt8) : List UInt8 :=
  let digits := be.dropWhile (· = 0)
  match digits with
  | [] => hashString []
  | d :: _ => if d &&& 0x80 ≠ 0 then hashString (0 :: digits) else hashString digits

structure Exchange where
  vClient : List UInt8
  vServer : List UInt8
  iClient : List UInt8
  iServer : List UInt8
  kServer : List UInt8
  qClient : Bytes32
  qServer : Bytes32
  secret : Bytes32

def exchangeHash (S : Suite) (e : Exchange) : Bytes32 :=
  S.sha256 (hashString e.vClient ++ hashString e.vServer ++ hashString e.iClient ++
    hashString e.iServer ++ hashString e.kServer ++ hashString e.qClient.toList ++
    hashString e.qServer.toList ++ hashMpint e.secret.toList)

def hostkeyBlob (cap : ℕ) (pub : Bytes32) : Except Err (List UInt8) :=
  (((Wbuf.init cap).putString (ascii "ssh-ed25519")).putString pub.toList).finish

def signatureBlob (cap : ℕ) (sig : Signature) : Except Err (List UInt8) :=
  (((Wbuf.init cap).putString (ascii "ssh-ed25519")).putString sig.toList).finish

/-- `derive_one`, for the 64 bytes that a cipher takes: two blocks. -/
def deriveOne (S : Suite) (letter : UInt8) (secret h sessionId : Bytes32) : CipherKey :=
  let start := hashMpint secret.toList ++ h.toList
  let block := S.sha256 (start ++ letter :: sessionId.toList)
  block ++ S.sha256 (start ++ block.toList)

/-- `tc_ssh_derive_keys`: the key from the client to the server, and the other one. -/
def deriveKeys (S : Suite) (secret h sessionId : Bytes32) : CipherKey × CipherKey :=
  (deriveOne S 0x43 secret h sessionId, deriveOne S 0x44 secret h sessionId)

/-- A suite in which every key, hash and signature is zero. -/
def plainSuite : Suite where
  sha256 _ := .replicate _ 0
  x25519Public _ := .replicate _ 0
  x25519 _ _ := .ok (.replicate _ 0)
  ed25519Sign _ _ _ := .ok (.replicate _ 0)

/-! ## Guessed packets -/

deriving instance DecidableEq for Negotiated

/-- The peer's lists of key exchange and of host key algorithms, as they are read. -/
def peerLists (payload : List UInt8) : List UInt8 × List UInt8 :=
  let r := ((Rbuf.init payload).getByte.2.getRaw cookieLen).2
  let (kexList, r) := r.getSlice sizeMax
  (kexList.getD [], (r.getSlice sizeMax).1.getD [])

def firstName (list : List UInt8) : List UInt8 := list.takeWhile (· ≠ 0x2c)

/-- RFC 4253, section 7.1: one of the peer's first algorithms is not our first one. -/
def GuessWrong (payload : List UInt8) : Prop :=
  firstName (peerLists payload).1 ≠ kexAlgs.headD [] ∨
    firstName (peerLists payload).2 ≠ hostkeyAlgs.headD []
  deriving Decidable

/-- The first of our algorithms that the peer lists. -/
def chosenKex (payload : List UInt8) : List UInt8 :=
  kexAlgs.getD ((namelistFirstSupported (peerLists payload).1 kexAlgs).getD 0) []

variable {payload : List UInt8} {neg : Negotiated}

lemma of_kexinitParse (h : kexinitParse payload = .ok neg) :
    neg.guessWasWrong =
      (neg.firstKexPacketFollows && firstName (peerLists payload).1 ≠ chosenKex payload) := by
  unfold kexinitParse at h
  dsimp only at h
  iterate 4
    split at h
    · cases h
  rename_i hraw _ _ _ _ hkex _
  split at h
  · next hsupported _ _ _ _ _ =>
    obtain rfl := Except.ok.inj h
    simp only [chosenKex, peerLists, firstName, hraw, Rbuf.getSlice, hkex, Option.getD_some,
      hsupported]
  · cases h

lemma splitOnP_eq_firstName (list : List UInt8) :
    ∃ names, list.splitOnP (· == 0x2c) = firstName list :: names := by
  induction list with
  | nil => exact ⟨[], List.splitOnP_nil⟩
  | cons c list ih =>
    obtain ⟨names, hnames⟩ := ih
    rw [List.splitOnP_cons_eq_if_modifyHead, hnames]
    by_cases hc : c = 0x2c
    · exact ⟨firstName list :: names, by simp [hc, firstName]⟩
    · exact ⟨names, by simp [hc, firstName]⟩

lemma firstName_mem_names {list : List UInt8} (h : firstName list ≠ []) :
    firstName list ∈ namelistNames list := by
  obtain ⟨names, hnames⟩ := splitOnP_eq_firstName list
  unfold namelistNames List.splitOn
  rw [hnames]
  cases names with
  | nil => simp [h]
  | cons name names =>
    dsimp only
    split
    · simp
    · exact List.mem_cons_self

/-- The guess is judged as it should be if the peer's first algorithm is not the one that is chosen, or
if both of its first algorithms are ours. -/
theorem guess_judged_iff (h : kexinitParse payload = .ok neg)
    (hfollows : neg.firstKexPacketFollows = true) :
    (neg.guessWasWrong = true ↔ GuessWrong payload) ↔
      firstName (peerLists payload).1 ≠ chosenKex payload ∨ ¬GuessWrong payload := by
  have hwrong : neg.guessWasWrong = true ↔ firstName (peerLists payload).1 ≠ chosenKex payload := by
    simp [of_kexinitParse h, hfollows]
  -- if the first algorithms are ours, the first of them is chosen
  have hours : ¬GuessWrong payload → firstName (peerLists payload).1 = chosenKex payload := by
    intro hright
    obtain ⟨hfirst, -⟩ := not_or.mp hright
    rw [not_not] at hfirst
    have hmem : firstName (peerLists payload).1 ∈ _ := firstName_mem_names (by rw [hfirst]; decide)
    have hsome : namelistFirstSupported (peerLists payload).1 kexAlgs = some 0 := by
      rw [hfirst] at hmem
      exact List.findIdx?_cons.trans (if_pos (List.contains_iff_mem.mpr hmem))
    rw [hfirst, chosenKex, hsome]
    rfl
  rw [hwrong]
  exact ⟨fun heq => (em _).imp_right fun hne hw => hne (heq.mpr hw),
    fun hor => ⟨fun hne => not_not.mp fun hw => hne (hours hw), hor.resolve_right ∘ not_not.mpr⟩⟩

/-- A payload with these host key algorithms, and a packet that follows. -/
def guessing (hostkeys : List UInt8) : List UInt8 :=
  msgKexinit :: List.replicate cookieLen 0 ++
    [ascii "curve25519-sha256", hostkeys, ascii "chacha20-poly1305@openssh.com",
      ascii "chacha20-poly1305@openssh.com", [], [], ascii "none", ascii "none", [], []].flatMap
        hashString ++ [1, 0, 0, 0, 0]

theorem guess_judged_ours :
    (⟨0, true, false⟩ : Negotiated).guessWasWrong = true ↔ GuessWrong (guessing (ascii "ssh-ed25519")) :=
  (@guess_judged_iff _ ⟨0, true, false⟩ (by decide +kernel) rfl).mpr (by decide +kernel)

/-- The peer would rather use another host key, and its guess is taken for right. -/
theorem guess_taken_for_right :
    let payload := guessing (ascii "ssh-rsa,ssh-ed25519")
    kexinitParse payload = .ok ⟨0, true, false⟩ ∧ GuessWrong payload := by
  decide +kernel

end Ssh
