import Tailcat.Derp.Client
import Tailcat.Library.Run

/-!
# Identity across reconnections

`tc_derp_reconnect` takes the keys from the client; but a dial that fails after TLS wipes the private
key in it, and later dials are made with a key of zeros.

## Main results

* `identity_iff`: reconnections keep the identity iff none comes to the client-info step after one
  that has failed after TLS;
* `identity_lost`: a client that comes back with a private key of zeros.
-/

namespace Derp

open Net (Stream)

/-! ## What leaves the keys alone -/

def SameKeys (c c' : Client) : Prop := c'.ourPrivate = c.ourPrivate ∧ c'.ourPublic = c.ourPublic

namespace SameKeys

variable {c c' c'' : Client}

lemma trans (h : SameKeys c c') (h' : SameKeys c' c'') : SameKeys c c'' :=
  ⟨h'.1.trans h.1, h'.2.trans h.2⟩

end SameKeys

namespace Client

variable (c : Client)

lemma sameKeys_failf (text : List UInt8) : SameKeys c (c.failf text) := ⟨rfl, rfl⟩

lemma sameKeys_writeFrame (type : UInt8) (payload : List UInt8) :
    SameKeys c (c.writeFrame type payload).1 := by
  unfold writeFrame
  split
  · exact ⟨rfl, rfl⟩
  split
  · exact ⟨rfl, rfl⟩
  · split <;> exact ⟨rfl, rfl⟩

lemma sameKeys_readFrame (cap : ℕ) : SameKeys c (c.readFrame cap).1 := by
  unfold readFrame
  split
  · exact ⟨rfl, rfl⟩
  dsimp only
  split
  · exact sameKeys_failf { c with stream := _ } _
  split_ifs
  · exact sameKeys_failf { c with stream := _ } _
  · split <;> exact ⟨rfl, rfl⟩
  · exact ⟨rfl, rfl⟩

lemma sameKeys_readHttpLoop (cap room : ℕ) (buf : List UInt8) (matched : ℕ) :
    SameKeys c (readHttpLoop cap room c buf matched).1 := by
  induction room generalizing c buf matched with
  | zero =>
    unfold readHttpLoop
    split
    · exact ⟨rfl, rfl⟩
    · exact c.sameKeys_failf _
  | succ room ih =>
    unfold readHttpLoop
    split
    · exact ⟨rfl, rfl⟩
    dsimp only
    split
    · next s e _ => exact sameKeys_failf { c with stream := s } _
    · next s bytes _ => exact ih { c with stream := s } _ _

lemma sameKeys_httpUpgrade (hostname : List UInt8) : SameKeys c (c.httpUpgrade hostname).1 := by
  unfold httpUpgrade
  dsimp only
  split
  · exact c.sameKeys_failf _
  split
  · next s e _ => exact sameKeys_failf { c with stream := s } _
  rename_i s _
  have hread : SameKeys c ({ c with stream := s }.readHttpResponse 2048).1 :=
    sameKeys_readHttpLoop { c with stream := s } 2048 2047 [] 0
  split
  · next heq => rwa [heq] at hread
  rename_i heq
  rw [heq] at hread
  split
  · exact hread
  · exact hread.trans (sameKeys_failf _ _)

lemma sameKeys_failfIfNone (text : List UInt8) : SameKeys c (c.failfIfNone text) := by
  unfold failfIfNone
  split
  · exact c.sameKeys_failf text
  · exact ⟨rfl, rfl⟩

lemma sameKeys_serverInfoStep (box : Box) : SameKeys c (c.serverInfoStep box).1 := by
  have hread := c.sameKeys_readFrame 4096
  unfold serverInfoStep
  split
  · next heq =>
    rw [heq] at hread
    exact hread.trans (sameKeys_failfIfNone _ _)
  rename_i heq
  rw [heq] at hread
  split
  · exact hread.trans (sameKeys_failf _ _)
  split
  · exact hread.trans (sameKeys_failf _ _)
  · exact hread

lemma sameKeys_clientInfoStep (box : Box) (nonce : Except Err (List UInt8)) :
    SameKeys c (c.clientInfoStep box nonce).1 := by
  unfold clientInfoStep
  split
  · exact c.sameKeys_failf _
  rename_i info _
  have hwrite := c.sameKeys_writeFrame frameClientInfo info
  split
  · next heq =>
    rw [heq] at hwrite
    exact hwrite.trans (sameKeys_failf _ _)
  · next heq =>
    rw [heq] at hwrite
    exact hwrite.trans (sameKeys_serverInfoStep _ box)

lemma sameKeys_derpHandshake (box : Box) (nonce : Except Err (List UInt8)) :
    SameKeys c (c.derpHandshake box nonce).client ∧
      ∀ keys ∈ (c.derpHandshake box nonce).info, keys = (c.ourPrivate, c.ourPublic) := by
  have hread := c.sameKeys_readFrame 4096
  unfold derpHandshake
  split
  · next heq =>
    rw [heq] at hread
    exact ⟨hread.trans (sameKeys_failfIfNone _ _), nofun⟩
  rename_i d type buf heq
  rw [heq] at hread
  split
  · exact ⟨hread.trans (sameKeys_failf _ _), nofun⟩
  split
  · exact ⟨hread.trans (sameKeys_failf _ _), nofun⟩
  rename_i key _
  have hinfo : SameKeys d { d with serverKey := key } := ⟨rfl, rfl⟩
  refine ⟨hread.trans (hinfo.trans (sameKeys_clientInfoStep _ box nonce)), ?_⟩
  rintro keys ⟨⟩
  exact Prod.ext hread.1 hread.2

lemma sameKeys_send (dstKey : Key) (pkt : List UInt8) : SameKeys c (c.send dstKey pkt).1 := by
  unfold send
  split_ifs
  · exact ⟨rfl, rfl⟩
  · exact ⟨rfl, rfl⟩
  · split
    · exact ⟨rfl, rfl⟩
    · exact c.sameKeys_writeFrame _ _

lemma sameKeys_deliver (cap : ℕ) (frame : List UInt8) : SameKeys c (c.deliver cap frame).1 := by
  unfold deliver
  split
  · exact c.sameKeys_failf _
  split
  · exact c.sameKeys_failf _
  · exact ⟨rfl, rfl⟩

lemma sameKeys_recvLoop (cap now fuel : ℕ) : SameKeys c (recvLoop cap now fuel c).1 := by
  induction fuel generalizing c with
  | zero => exact ⟨rfl, rfl⟩
  | succ fuel ih =>
    have hread := c.sameKeys_readFrame (keyLen + maxPacketSize)
    unfold recvLoop
    split
    · next heq => rwa [heq] at hread
    · next heq => rwa [heq] at hread
    rename_i d type frame heq
    rw [heq] at hread
    have hstamp : SameKeys c { d with lastRecvMs := now } := hread
    dsimp only
    split
    · exact hstamp.trans (sameKeys_deliver _ cap frame)
    · have hpong := sameKeys_writeFrame { d with lastRecvMs := now } framePong frame
      split
      · next heq' =>
        rw [heq'] at hpong
        exact hstamp.trans hpong
      · next heq' =>
        rw [heq'] at hpong
        exact (hstamp.trans hpong).trans (ih _)
    · exact hstamp.trans (sameKeys_failf _ _)
    · exact hstamp.trans (ih _)

lemma sameKeys_recv (cap now : ℕ) : SameKeys c (c.recv cap now).1 := by
  unfold recv
  split_ifs
  · exact ⟨rfl, rfl⟩
  · exact ⟨rfl, rfl⟩
  · exact c.sameKeys_recvLoop cap now _

end Client

/-! ## What a dial does to the keys -/

/-- `tc_memzero_explicit` leaves this key. -/
def zeroKey : Key := .replicate _ 0

/-- A dial that got past TLS, and failed. -/
def failedLate (d : Dial) (rc : Except Err Unit) : Bool :=
  match d.tcp, d.tls, rc with
  | .ok (), .ok _, .error _ => true
  | _, _, _ => false

/-- After a dial with a key pair, the client has that pair, except that the private key is wiped if
the dial failed after TLS. The client-info step is made with the pair. -/
structure KeysOf (priv pub : Key) (late : Bool) (r : Dialled) : Prop where
  ourPublic : r.client.ourPublic = pub
  ourPrivate : r.client.ourPrivate = if late then zeroKey else priv
  info : ∀ keys ∈ r.info, keys = (priv, pub)

lemma keysOf_connect (box : Box) (opts : DialOpts) (ourPrivate ourPublic : Key) (d : Dial) :
    KeysOf ourPrivate ourPublic (failedLate d (Client.connect box opts ourPrivate ourPublic d).rc)
      (Client.connect box opts ourPrivate ourPublic d) := by
  unfold Client.connect
  dsimp only
  split
  · next htcp =>
    have hearly : ∀ rc, failedLate d rc = false := by simp [failedLate, htcp]
    exact ⟨rfl, by rw [hearly]; rfl, nofun⟩
  rename_i htcp
  split
  · next htls =>
    have hearly : ∀ rc, failedLate d rc = false := by simp [failedLate, htls]
    exact ⟨rfl, by rw [hearly]; rfl, nofun⟩
  rename_i stream htls
  have hlate : ∀ e, failedLate d (.error e) = true := by simp [failedLate, htcp, htls]
  have hdone : failedLate d (.ok ()) = false := by simp [failedLate]
  have hupgrade := Client.sameKeys_httpUpgrade
    { Client.prepare opts ourPrivate ourPublic with stream } opts.hostname
  split
  · next heq =>
    rw [heq] at hupgrade
    exact ⟨hupgrade.2, by rw [hlate]; rfl, nofun⟩
  rename_i c heq
  rw [heq] at hupgrade
  obtain ⟨hkeys, hinfo⟩ := c.sameKeys_derpHandshake box d.nonce
  have hall := hupgrade.trans hkeys
  have hpair : (c.ourPrivate, c.ourPublic) = (ourPrivate, ourPublic) :=
    Prod.ext hupgrade.1 hupgrade.2
  rw [hpair] at hinfo
  split
  · next heq' =>
    rw [heq'] at hall hinfo
    exact ⟨hall.2, by rw [hlate]; rfl, hinfo⟩
  · next heq' =>
    rw [heq'] at hall hinfo
    exact ⟨hall.2, by rw [hdone]; exact hall.1, hinfo⟩

def Client.redialFailedLate (box : Box) (c : Client) (d : Dial) : Bool :=
  c.redialHost ≠ [] && failedLate d (c.reconnect box d).rc

lemma keysOf_reconnect (box : Box) (c : Client) (d : Dial) :
    KeysOf c.ourPrivate c.ourPublic (c.redialFailedLate box d) (c.reconnect box d) := by
  unfold Client.redialFailedLate
  by_cases hhost : c.redialHost = []
  · have hsame : c.reconnect box d = { client := c, rc := .error .inval, info := none } := if_pos hhost
    rw [hsame]
    exact ⟨rfl, by simp [hhost], nofun⟩
  unfold Client.reconnect
  rw [if_neg hhost]
  generalize DialOpts.mk c.redialHost _ _ _ _ = opts
  have hkeys := keysOf_connect box opts c.ourPrivate c.ourPublic d
  simp only [ne_eq, hhost]
  split
  · next heq =>
    rw [heq] at hkeys
    exact ⟨hkeys.ourPublic, hkeys.ourPrivate, hkeys.info⟩
  · exact hkeys

/-! ## The life of a client -/

/-- What the owner of a client does once it is connected. -/
inductive Op
  | reconnect (d : Dial)
  | send (dstKey : Key) (pkt : List UInt8)
  | recv (cap now : ℕ)

/-- A client, and whether a redial of it has failed after TLS. -/
structure Life where
  client : Client
  failed : Bool

namespace Life

def start (c : Client) : Life := { client := c, failed := false }

/-- The client after one of its owner's calls. -/
def step (box : Box) (w : Life) : Op → Life
  | .reconnect d =>
    { client := (w.client.reconnect box d).client
      failed := w.failed || w.client.redialFailedLate box d }
  | .send dstKey pkt => { w with client := (w.client.send dstKey pkt).1 }
  | .recv cap now => { w with client := (w.client.recv cap now).1 }

/-- If the call dials and comes to the client-info step, it is made with the key pair. -/
def KeepsIdentity (box : Box) (priv pub : Key) (w : Life) : Op → Prop
  | .reconnect d => ∀ keys ∈ (w.client.reconnect box d).info, keys = (priv, pub)
  | .send _ _ | .recv _ _ => True

/-- If a redial has failed after TLS, the call does not come to the client-info step. -/
def NoInfoAfterFailure (box : Box) (w : Life) : Op → Prop
  | .reconnect d => w.failed → (w.client.reconnect box d).info = none
  | .send _ _ | .recv _ _ => True

instance (box : Box) (w : Life) (op : Op) : Decidable (NoInfoAfterFailure box w op) := by
  cases op <;> dsimp only [NoInfoAfterFailure] <;> infer_instance

/-- The client has the key pair, except that the private key is zero once a redial has failed after
TLS. -/
structure HasKeys (priv pub : Key) (w : Life) : Prop where
  ourPublic : w.client.ourPublic = pub
  ourPrivate : w.client.ourPrivate = if w.failed then zeroKey else priv

variable {priv pub : Key} {w : Life}

lemma HasKeys.of_sameKeys {c : Client} (h : HasKeys priv pub w) (hc : SameKeys w.client c) :
    HasKeys priv pub { w with client := c } :=
  ⟨hc.2.trans h.ourPublic, hc.1.trans h.ourPrivate⟩

lemma HasKeys.step (h : HasKeys priv pub w) (box : Box) (op : Op) :
    HasKeys priv pub (w.step box op) := by
  cases op with
  | reconnect d =>
    have hkeys := keysOf_reconnect box w.client d
    refine ⟨hkeys.ourPublic.trans h.ourPublic, hkeys.ourPrivate.trans ?_⟩
    rw [h.ourPrivate]
    change _ = if (w.failed || w.client.redialFailedLate box d) then zeroKey else priv
    cases w.failed <;> cases w.client.redialFailedLate box d <;> rfl
  | send dstKey pkt => exact h.of_sameKeys (w.client.sameKeys_send dstKey pkt)
  | recv cap now => exact h.of_sameKeys (w.client.sameKeys_recv cap now)

lemma keepsIdentity_iff (h : HasKeys priv pub w) (box : Box) (op : Op) :
    KeepsIdentity box priv pub w op ↔ priv = zeroKey ∨ NoInfoAfterFailure box w op := by
  cases op with
  | reconnect d =>
    have hinfo := (keysOf_reconnect box w.client d).info
    rw [h.ourPrivate, h.ourPublic] at hinfo
    change (∀ keys ∈ (w.client.reconnect box d).info, keys = (priv, pub)) ↔
      priv = zeroKey ∨ (w.failed → (w.client.reconnect box d).info = none)
    cases hreached : (w.client.reconnect box d).info with
    | none => simp
    | some keys =>
      -- the step is made with the key pair of the client
      obtain rfl := hinfo keys hreached
      cases w.failed <;> simp [eq_comm]
  | send dstKey pkt => simp [KeepsIdentity, NoInfoAfterFailure]
  | recv cap now => simp [KeepsIdentity, NoInfoAfterFailure]

end Life

/-- Along every run of a client that was connected with a key pair, every redial that comes to the
client-info step makes it with that pair, iff the private key is zero or no redial comes to the
client-info step after one that has failed after TLS. -/
theorem identity_iff (box : Box) (opts : DialOpts) (priv pub : Key) (d : Dial)
    (hok : (Client.connect box opts priv pub d).rc = .ok ()) (ops : List Op) :
    Run.Ok (Life.step box) (Life.KeepsIdentity box priv pub)
        (.start (Client.connect box opts priv pub d).client) ops ↔
      priv = zeroKey ∨ Run.Ok (Life.step box) (Life.NoInfoAfterFailure box)
        (.start (Client.connect box opts priv pub d).client) ops := by
  have hkeys := keysOf_connect box opts priv pub d
  have hstart : Life.HasKeys priv pub (.start (Client.connect box opts priv pub d).client) := by
    refine ⟨hkeys.ourPublic, hkeys.ourPrivate.trans ?_⟩
    have hearly : failedLate d (.ok ()) = false := by
      unfold failedLate
      split <;> simp_all
    rw [hok, hearly]
    rfl
  have hiff : Run.Ok _ _ _ ops ↔ Run.Ok _ _ _ ops :=
    Run.ok_iff_of_invariant hstart (fun w op h => h.step box op) fun w op h =>
      Life.keepsIdentity_iff h box op
  rw [hiff]
  by_cases hzero : priv = zeroKey
  · simp [hzero, Run.ok_of_forall]
  · simp [hzero]

def clearBox : Box :=
  { boxSeal := fun _ text _ _ => .ok (List.replicate boxTagLen 0 ++ text)
    boxOpen := fun _ sealed _ _ => .ok (sealed.drop boxTagLen) }

/-- A relay that answers as it should. -/
def relay : Stream :=
  { input :=
      [.data (ascii "HTTP/1.1 101 Switching Protocols\r\n\r\n" ++
        frameHeaderEncode 0x01 40 ++ magic ++ List.replicate keyLen 7 ++
        frameHeaderEncode 0x03 40 ++ List.replicate 40 0)]
    writes := [], output := [] }

def reached : Dial :=
  { tcp := .ok (), tls := .ok relay, nonce := .ok (List.replicate nonceLen 0), now := 1 }

def refused : Dial := { reached with tcp := .error .closed }

def hungUp : Dial := { reached with tls := .ok { relay with input := [.data []] } }

def relayOpts : DialOpts :=
  { hostname := ascii "relay", dialAddr := none, port := 0, insecureSkipVerify := false
    timeoutMs := 0 }

theorem identity_refused :
    Run.Ok (Life.step clearBox) (Life.KeepsIdentity clearBox (.replicate _ 1) (.replicate _ 2))
        (.start (Client.connect clearBox relayOpts (.replicate _ 1) (.replicate _ 2) reached).client)
        [.reconnect refused, .recv 100 5, .reconnect reached, .reconnect hungUp] :=
  (identity_iff clearBox relayOpts (.replicate _ 1) (.replicate _ 2) reached (by decide +kernel)
    [.reconnect refused, .recv 100 5, .reconnect reached, .reconnect hungUp]).mpr
      (.inr (by decide +kernel))

/-- A client whose relay hangs up once comes back with a private key of zeros. -/
theorem identity_lost :
    ¬∀ (box : Box) (opts : DialOpts) (priv pub : Key) (d : Dial),
      (Client.connect box opts priv pub d).rc = .ok () → ∀ ops : List Op,
      Run.Ok (Life.step box) (Life.KeepsIdentity box priv pub)
        (.start (Client.connect box opts priv pub d).client) ops := by
  intro h
  have hrun := h clearBox relayOpts (.replicate _ 1) (.replicate _ 2) reached (by decide +kernel)
    [.reconnect hungUp, .reconnect reached]
  let c := (Client.connect clearBox relayOpts (.replicate _ 1) (.replicate _ 2) reached).client
  let w := (Life.start c).step clearBox (.reconnect hungUp)
  have hsecond : Life.KeepsIdentity clearBox (.replicate _ 1) (.replicate _ 2) w (.reconnect reached) :=
    hrun.2.1
  have hinfo : (w.client.reconnect clearBox reached).info = some (zeroKey, .replicate _ 2) := by
    decide +kernel
  have hzero : zeroKey = .replicate _ 1 := (Prod.ext_iff.mp (hsecond _ hinfo)).1
  exact absurd hzero (by decide +kernel)

end Derp
