import Mathlib.Data.Vector.Defs
import Tailcat.Ssh.Moves

/-!
# Packets between two sides

What one side sends in the clear the other one receives, with any number of packets in between that say
nothing.

## Main results

* `kexinitParse_kexinitMessage`, `readEcdhInit_ecdhInitMessage`, `readEcdhReply_ecdhReplyMessage`: what
  is built is read;
* `Receives.loop`: the next message is received.
-/

namespace Ssh

open Wbuf Program Conn ByteOrder
open List hiding Vector

/-! ## Messages -/

/-- The message of `tc_ssh_kexinit_build`. -/
def kexinitMessage (cookie : Vector UInt8 cookieLen) : List UInt8 :=
  [msgKexinit] ++ cookie.toList ++
    (([kexAlgs, hostkeyAlgs, cipherAlgs, cipherAlgs, macAlgs, macAlgs, compAlgs, compAlgs, [],
      []].map fun names => hashString (commas names)).flatten) ++ [0] ++ writeBE32 0

lemma kexinitBuild_eq (cookie : Vector UInt8 cookieLen) :
    kexinitBuild kexinitMax (.ok cookie) = .ok (kexinitMessage cookie) := by
  have hfields := finish_foldl_putRaw kexinitMax ([[msgKexinit], cookie.toList] ++
    ([kexAlgs, hostkeyAlgs, cipherAlgs, cipherAlgs, macAlgs, macAlgs, compAlgs, compAlgs, [],
      []].flatMap fun names =>
        [writeBE32 (.ofNat (commas names).length), commas names]) ++ [[0], writeBE32 0]) ?_
  · unfold kexinitBuild
    simp only [foldl_cons]
    refine hfields.trans ?_
    simp [kexinitMessage, hashString]
  · simp only [flatMap_cons, cons_append, nil_append,
      flatten_cons, length_cons, length_append, Vector.length_toList]
    decide

variable {r : Rbuf} {list m : List UInt8} {n cap : ℕ} {ms : List (List UInt8)}
  {arrivals : List Arrival}

lemma Rbuf.At.pick {rest : List UInt8} (ours : List (List UInt8))
    (h : r.At (hashString list ++ rest)) (hlen : list.length < 2 ^ 32) :
    ∃ r', Ssh.pick ours r = (namelistFirstSupported list ours, r') ∧ r'.At rest := by
  have hmax : list.length ≤ sizeMax := by
    rw [sizeMax]
    omega
  obtain ⟨i, r', hstring, hbuf, hslice, hr'⟩ := h.getString hmax hlen
  refine ⟨r', ?_, hr'⟩
  rw [Ssh.pick, hstring]
  dsimp only
  rw [hbuf, hslice]

lemma Rbuf.At.skip {rest : List UInt8} (h : r.At (hashString list ++ rest))
    (hlen : list.length < 2 ^ 32) : ∃ x r', r.getString sizeMax = (x, r') ∧ r'.At rest := by
  have hmax : list.length ≤ sizeMax := by
    rw [sizeMax]
    omega
  obtain ⟨i, r', hstring, -, -, hr'⟩ := h.getString hmax hlen
  exact ⟨_, r', hstring, hr'⟩

/-- Our own offer is understood, and nothing follows it on a guess. -/
theorem kexinitParse_kexinitMessage (cookie : Vector UInt8 cookieLen) :
    kexinitParse (kexinitMessage cookie) =
      .ok { kex := 0, firstKexPacketFollows := false, guessWasWrong := false } := by
  have hmsg : kexinitMessage cookie = msgKexinit :: (cookie.toList ++
      (hashString (commas kexAlgs) ++ (hashString (commas hostkeyAlgs) ++
      (hashString (commas cipherAlgs) ++ (hashString (commas cipherAlgs) ++
      (hashString (commas macAlgs) ++ (hashString (commas macAlgs) ++
      (hashString (commas compAlgs) ++ (hashString (commas compAlgs) ++
      (hashString (commas []) ++ (hashString (commas []) ++
      (0 :: (writeBE32 0 ++ []))))))))))))) := by
    simp [kexinitMessage]
  have hcookie : cookie.toList ≠ [] := by
    intro hnil
    have hlen := congrArg length hnil
    rw [Vector.length_toList] at hlen
    cases hlen
  have hr := Rbuf.at_init (kexinitMessage cookie)
  rw [hmsg] at hr
  obtain ⟨r1, h1, hr1⟩ := hr.getByte
  obtain ⟨r2, h2, -, hr2⟩ := hr1.getRaw hcookie
  obtain ⟨i, r3, h3, hbuf3, hkexList, hr3⟩ := hr2.getString (show _ ≤ sizeMax by decide) (by decide)
  obtain ⟨r4, h4, hr4⟩ := hr3.pick hostkeyAlgs (by decide)
  obtain ⟨r5, h5, hr5⟩ := hr4.pick cipherAlgs (by decide)
  obtain ⟨r6, h6, hr6⟩ := hr5.pick cipherAlgs (by decide)
  obtain ⟨_, r7, h7, hr7⟩ := hr6.skip (by decide)
  obtain ⟨_, r8, h8, hr8⟩ := hr7.skip (by decide)
  obtain ⟨r9, h9, hr9⟩ := hr8.pick compAlgs (by decide)
  obtain ⟨r10, h10, hr10⟩ := hr9.pick compAlgs (by decide)
  obtain ⟨_, r11, h11, hr11⟩ := hr10.skip (by decide)
  obtain ⟨_, r12, h12, hr12⟩ := hr11.skip (by decide)
  obtain ⟨r13, h13, hr13⟩ := hr12.getBool
  obtain ⟨r14, h14, -, hr14⟩ := hr13.getU32
  rw [Vector.length_toList] at h2
  -- each field is the one that was written
  simp only [kexinitParse, hmsg, h1, h2, h3, h4, h5, h6, h7, h8, h9, h10, h11, h12, h13, h14, hr14.1,
    hbuf3, hkexList]
  have hkex : namelistFirstSupported (commas kexAlgs) kexAlgs = some 0 := by decide +kernel
  have hhostkey : namelistFirstSupported (commas hostkeyAlgs) hostkeyAlgs = some 0 := by
    decide +kernel
  have hcipher : namelistFirstSupported (commas cipherAlgs) cipherAlgs = some 0 := by
    decide +kernel
  have hcomp : namelistFirstSupported (commas compAlgs) compAlgs = some 0 := by decide +kernel
  simp [hkex, hhostkey, hcipher, hcomp]

def ecdhInitMessage (qClient : Bytes32) : List UInt8 := msgKexEcdhInit :: hashString qClient.toList

lemma ecdhInit_eq (qClient : Bytes32) : Client.ecdhInit qClient = .ok
    (ecdhInitMessage qClient) := by
  rw [Client.ecdhInit, putString_eq _ (by simp)]
  refine (finish_foldl_putRaw 64 [[msgKexEcdhInit], writeBE32 (.ofNat qClient.toList.length),
    qClient.toList] (by simp)).trans ?_
  simp [ecdhInitMessage, hashString]

lemma readEcdhInit_ecdhInitMessage (qClient : Bytes32) :
    Server.readEcdhInit (ecdhInitMessage qClient) = .ok qClient := by
  have hlen : qClient.toList.length = x25519Len := qClient.length_toList
  obtain ⟨r1, h1, hr1⟩ := (Rbuf.at_init (ecdhInitMessage qClient)).getByte
  have hbuf1 := ((Rbuf.within_init (ecdhInitMessage qClient)).getByte).1
  rw [h1] at hbuf1
  rw [← append_nil (hashString _)] at hr1
  obtain ⟨i, r2, h2, -, hslice, -⟩ := hr1.getString hlen.le (by rw [hlen]; decide)
  rw [hlen] at h2
  rw [hbuf1, Vector.length_toList] at hslice
  unfold Server.readEcdhInit
  rw [h1]
  dsimp only
  rw [h2]
  simp only [ne_eq, not_true_eq_false, if_false]
  exact congrArg _ (Fields.bytesAt_eq_of_slice hslice)

/-! ### The host key and the signature -/

def tagged (v : List UInt8) : List UInt8 := hashString (ascii "ssh-ed25519") ++ hashString v

lemma length_tagged (v : Vector UInt8 n) : (tagged v.toList).length = 19 + n := by
  simp only [tagged, hashString, length_append, length_writeBE32, Vector.length_toList]
  have hname : (ascii "ssh-ed25519").length = 11 := by decide
  omega

lemma finish_tagged (v : Vector UInt8 n) (hcap : 19 + n ≤ cap) (hn : n < 2 ^ 32) :
    (((init cap).putString (ascii "ssh-ed25519")).putString v.toList).finish =
      .ok (tagged v.toList) := by
  have hlen := length_tagged v
  rw [putString_eq _ (by rw [v.length_toList]; omega), putString_eq _ (by decide)]
  refine (finish_foldl_putRaw cap [writeBE32 (.ofNat (ascii "ssh-ed25519").length),
    ascii "ssh-ed25519", writeBE32 (.ofNat v.toList.length), v.toList] ?_).trans ?_
  · simp only [tagged, hashString, length_append] at hlen
    simp only [flatten_cons, flatten_nil, length_append, length_nil]
    omega
  · simp [tagged, hashString]

lemma hostkeyBlob_eq (pub : Bytes32) (hcap : 51 ≤ cap) :
    hostkeyBlob cap pub = .ok (tagged pub.toList) := finish_tagged pub hcap (by decide)

lemma signatureBlob_eq (sig : Signature) (hcap : 83 ≤ cap) :
    signatureBlob cap sig = .ok (tagged sig.toList) := finish_tagged sig hcap (by decide)

lemma readTagged_tagged (v : Vector UInt8 n) (hn : n < 2 ^ 32) :
    Client.readTagged n (tagged v.toList) = some v := by
  obtain ⟨r1, h1, hr1⟩ := (Rbuf.at_init (tagged v.toList)).getStringEq (by decide)
  rw [← append_nil (hashString _)] at hr1
  have hlen := v.length_toList
  obtain ⟨r2, h2, hr2⟩ := hr1.getSlice hlen.le (hlen.symm ▸ hn)
  have hv : Fields.bytesAt n v.toList 0 = v :=
    Fields.bytesAt_eq_of_split (a := []) (append_nil _).symm rfl
  unfold Client.readTagged
  simp [h1, h2, hr2.ok, hr2.remaining, hv]

/-! ### The answer of the server -/

/-- The message that answers the public key of the client. -/
def ecdhReplyMessage (hostPub qServer : Bytes32) (sig : Signature) : List UInt8 :=
  msgKexEcdhReply :: (hashString (tagged hostPub.toList) ++ hashString qServer.toList ++
    hashString (tagged sig.toList))

lemma ecdhReply_eq (hostPub qServer : Bytes32) (sig : Signature) :
    Server.ecdhReply (tagged hostPub.toList) qServer (tagged sig.toList) =
      .ok (ecdhReplyMessage hostPub qServer sig) := by
  have hpub := length_tagged hostPub
  have hsig := length_tagged sig
  rw [Server.ecdhReply, putString_eq _ (by omega), putString_eq _ (by simp),
    putString_eq _ (by omega)]
  refine (finish_foldl_putRaw 512 [[msgKexEcdhReply],
    writeBE32 (.ofNat (tagged hostPub.toList).length), tagged hostPub.toList,
    writeBE32 (.ofNat qServer.toList.length), qServer.toList,
    writeBE32 (.ofNat (tagged sig.toList).length), tagged sig.toList] (by simp [hpub, hsig])).trans ?_
  simp [ecdhReplyMessage, hashString]

lemma readEcdhReply_ecdhReplyMessage (hostPub qServer : Bytes32) (sig : Signature) :
    Client.readEcdhReply (ecdhReplyMessage hostPub qServer sig) =
      .ok { kServer := tagged hostPub.toList, qServer, hostKey := hostPub, sig } := by
  have hpub := length_tagged hostPub
  have hsig := length_tagged sig
  have hq := qServer.length_toList
  obtain ⟨r1, h1, hr1⟩ := (Rbuf.at_init (ecdhReplyMessage hostPub qServer sig)).getByte
  rw [← append_nil (hashString (tagged sig.toList)), append_assoc] at hr1
  obtain ⟨r2, h2, hr2⟩ := hr1.getSlice (show _ ≤ 4096 by omega) (by omega)
  obtain ⟨r3, h3, hr3⟩ := hr2.getSlice (show _ ≤ x25519Len from hq.le) (by omega)
  obtain ⟨r4, h4, hr4⟩ := hr3.getSlice (show _ ≤ 4096 by omega) (by omega)
  have hbytes : Fields.bytesAt 32 qServer.toList 0 = qServer :=
    Fields.bytesAt_eq_of_split (a := []) (append_nil _).symm rfl
  unfold Client.readEcdhReply
  simp only [h1, h2, h3, h4, hr4.ok]
  rw [Client.readHostKey, Client.readSignature, readTagged_tagged hostPub (by decide),
    readTagged_tagged sig (by decide)]
  simp [x25519Len, hbytes]

/-! ## Packets -/

def Carries (m : List UInt8) (a : Arrival) : Prop :=
  ∃ padding : List UInt8, padding.length = paddingFor m.length false ∧ a = .region (regionOf m padding)

def Noise (m : List UInt8) : Prop := Server.isNoise (m.getD 0 0) = true ∧ m.length ≤ maxPayload

structure Spoken (m : List UInt8) : Prop where
  length : m.length ≤ maxPayload
  ne_nil : m ≠ []
  notNoise : Client.isNoise (m.getD 0 0) = false
  notDisconnect : m.getD 0 0 ≠ msgDisconnect

lemma Noise.ne_nil (h : Noise m) : m ≠ [] := by
  rintro rfl
  exact absurd h.1 (by decide)

lemma Client.isNoise_of_isNoise {msg : UInt8} (h : Server.isNoise msg = true) :
    Client.isNoise msg = true := by
  simp only [Server.isNoise, Client.isNoise, Bool.or_eq_true] at h ⊢
  exact .inl (.inl h)

namespace Conn

/-- What a connection shows to the transport. -/
structure Ends where
  inCipher : Cipher
  outCipher : Cipher
  arrivals : List Arrival
  outcomes : List Outcome
  outbox : List (List UInt8)

/-- What a connection shows to the transport. -/
def ends (c : Conn) : Ends :=
  { inCipher := c.inCipher, outCipher := c.outCipher, arrivals := c.arrivals, outcomes := c.outcomes
    outbox := c.outbox }

namespace Ends

@[grind] def said (e : Ends) (ms : List (List UInt8)) : Ends :=
  { e with outCipher.seq := e.outCipher.seq + ms.length, outbox := e.outbox ++ ms }

@[grind] def received (e : Ends) (k : ℕ) (rest : List Arrival) : Ends :=
  { e with inCipher.seq := e.inCipher.seq + k, arrivals := rest }

def sealing (e : Ends) (key : CipherKey) : Ends := { e with outCipher.key := some key }

def opening (e : Ends) (key : CipherKey) : Ends := { e with inCipher.key := some key }

lemma said_said (e : Ends) (ms ms' : List (List UInt8)) :
    (e.said ms).said ms' = e.said (ms ++ ms') := by
  simp [said, Nat.add_assoc]

lemma received_received (e : Ends) (k k' : ℕ) (rest rest' : List Arrival) :
    (e.received k rest).received k' rest' = e.received (k + k') rest' := by
  simp [received, Nat.add_assoc]

lemma said_received (e : Ends) (ms : List (List UInt8)) (k : ℕ) (rest : List Arrival) :
    (e.received k rest).said ms = (e.said ms).received k rest := rfl

end Ends

variable {c : Conn} {e : Ends} {m : List UInt8} {ms : List (List UInt8)}

lemma wp_sendPacket_ends (h : c.ends = e) (houtcomes : e.outcomes = [])
    (hseq : e.outCipher.seq < uint32Max) (hlen : m.length ≤ maxPayload) :
    wp (sendPacket m) (fun _ c' => c'.ends = e.said [m]) (fun _ _ => False) c := by
  subst h
  replace houtcomes : c.outcomes = [] := houtcomes
  replace hseq : c.outCipher.seq ≠ uint32Max := Nat.ne_of_lt hseq
  unfold sendPacket
  rw [wp_bind, wp_get, if_neg hseq, if_neg (by omega), wp_bind]
  simp [ends, Ends.said, houtcomes]

/-- Messages are sent one after the other. -/
def say : List (List UInt8) → EStateM Err Conn Unit
  | [] => pure ()
  | m :: rest => do
    sendPacket m
    say rest

lemma moves_say (ms : List (List UInt8)) : Within Moves (say ms) := by
  induction ms with
  | nil => exact .pure _
  | cons m rest ih => exact (moves_sendPacket m).bind fun _ => ih

lemma wp_say_ends (h : c.ends = e) (houtcomes : e.outcomes = [])
    (hseq : e.outCipher.seq + ms.length ≤ uint32Max) (hnoise : ∀ m ∈ ms, Noise m) :
    wp (say ms) (fun _ c' => c'.ends = e.said ms) (fun _ _ => False) c := by
  induction ms generalizing c e with
  | nil => simpa [say, Ends.said] using h
  | cons m rest ih =>
    rw [length_cons] at hseq
    refine (wp_sendPacket_ends h houtcomes (by omega) (hnoise m mem_cons_self).2).seq ?_
    intro _ c' h'
    refine (ih h' houtcomes (by simp only [Ends.said, length_singleton]; omega)
      fun m' hm' => hnoise m' (mem_cons_of_mem m hm')).mono ?_ fun _ _ hfalse => hfalse
    intro _ c'' h''
    rw [h'', Ends.said_said, singleton_append]

lemma wp_readPacket_carries {a : Arrival} {rest : List Arrival} (inKex : Bool) (h : c.ends = e)
    (harrivals : e.arrivals = a :: rest) (hkey : e.inCipher.key = none) (ha : Carries m a)
    (hne : m ≠ []) (hlen : m.length ≤ maxPayload) :
    wp (readPacket inKex)
      (fun n c' => c'.ends = e.received 1 rest ∧ n = m.length ∧ c'.payload.take n = m)
      (fun _ _ => False) c := by
  subst h
  replace harrivals : c.arrivals = a :: rest := harrivals
  replace hkey : c.inCipher.key = none := hkey
  obtain ⟨padding, hpad, rfl⟩ := ha
  have hbounds := paddingFor_bounds m.length false
  rw [← hpad] at hbounds
  have hregion := length_regionOf m padding
  have hpayload : (regionOf m padding).length - 1 - padding.length = m.length := by omega
  unfold readPacket
  simp only [wp_bind, wp_get, wp_set, harrivals]
  rw [hkey]
  rw [show regionLength (none : Option CipherKey).isSome (regionOf m padding).length = .ok () from
    regionLength_regionOf hlen hpad, wp_ofExcept_ok]
  unfold decodeRegion
  rw [wp_bind, wp_bind, wp_modify]
  rw [toNat_head_regionOf hbounds.2, if_neg, wp_bind, wp_modify, wp_pure, hpayload,
    if_neg (by simpa using hne), slice_regionOf]
  · exact ⟨rfl, rfl, take_left⟩
  · simp only [Bool.or_eq_true, decide_eq_true_eq]
    omega

end Conn

/-- The arrivals start with packets in the clear, with these payloads, and the rest follows. -/
inductive Carried : List (List UInt8) → List Arrival → List Arrival → Prop
  | nil (rest) : Carried [] rest rest
  | cons {m a ms arrivals rest} : Carries m a → Carried ms arrivals rest →
      Carried (m :: ms) (a :: arrivals) rest

lemma Carried.split {ms' : List (List UInt8)} {rest : List Arrival}
    (h : Carried (ms ++ ms') arrivals rest) :
    ∃ mid, Carried ms arrivals mid ∧ Carried ms' mid rest := by
  induction ms generalizing arrivals with
  | nil => exact ⟨arrivals, .nil _, h⟩
  | cons m ms ih =>
    cases h with
    | cons ha h =>
      obtain ⟨mid, hms, hms'⟩ := ih h
      exact ⟨mid, .cons ha hms, hms'⟩

lemma Carried.uncons {rest : List Arrival} (h : Carried (m :: ms) arrivals rest) :
    ∃ a arrivals', arrivals = a :: arrivals' ∧ Carries m a ∧ Carried ms arrivals' rest := by
  cases h with
  | cons ha h => exact ⟨_, _, rfl, ha, h⟩

lemma Carried.singleton {rest : List Arrival} (h : Carried [m] arrivals rest) :
    ∃ a, arrivals = a :: rest ∧ Carries m a := by
  obtain ⟨a, arrivals', harrivals, ha, h⟩ := h.uncons
  cases h
  exact ⟨a, harrivals, ha⟩

lemma Carried.length {rest : List Arrival} (h : Carried ms arrivals rest) :
    arrivals.length = ms.length + rest.length := by
  induction h with
  | nil => simp
  | cons _ _ ih =>
    rw [length_cons, length_cons]
    omega

/-! ## Receiving -/

section Receiving

variable {c : Conn} {e : Ends} {m : List UInt8} {noise : List (List UInt8)}
  {rest : List Arrival}

/-- A message in the clear is next, after packets that say nothing. -/
structure Awaits (cipher : Cipher) (noise : List (List UInt8)) (m : List UInt8)
    (arrivals rest : List Arrival) : Prop where
  key : cipher.key = none
  carried : Carried (noise ++ [m]) arrivals rest
  quiet : ∀ x ∈ noise, Noise x
  spoken : Spoken m
  seq : cipher.seq + noise.length < uint32Max

/-- A step that receives a packet in the clear: one that says nothing is skipped. -/
def Receives {σ : Type} (conn : σ → Conn) (I : σ → Prop) (step : Unit → EStateM Err σ (Unit ⊕ ℕ)) :
    Prop :=
  ∀ {s : σ} {e : Ends} {m : List UInt8} {a : Arrival} {rest : List Arrival}, I s →
    (conn s).ends = e → e.arrivals = a :: rest → e.inCipher.key = none → Carries m a →
    e.inCipher.seq < uint32Max → Noise m ∨ Spoken m →
    wp (step ())
      (fun r s' => I s' ∧ (conn s').ends = e.received 1 rest ∧ (Noise m → r = .inl ()) ∧
        (Spoken m → r = .inr m.length ∧ (conn s').payload.take m.length = m))
      (fun _ _ => False) s

/-- The next message is received, and what says nothing is skipped. -/
theorem Receives.loop {σ : Type} {conn : σ → Conn} {I : σ → Prop}
    {step : Unit → EStateM Err σ (Unit ⊕ ℕ)} (hstep : Receives conn I step) {s : σ} (hs : I s)
    (h : (conn s).ends = e) (hnext : Awaits e.inCipher noise m e.arrivals rest) :
    wp (Program.loop step .closed ((conn s).arrivals.length + 1) ())
      (fun n s' => I s' ∧ (conn s').ends = e.received (noise.length + 1) rest ∧ n = m.length ∧
        (conn s').payload.take n = m ∧ (conn s').msgType = m.getD 0 0)
      (fun _ _ => False) s := by
  obtain ⟨hkey, hcarried, hnoise, hm, hseq⟩ := hnext
  have hfuel : noise.length < (conn s).arrivals.length + 1 := by
    have hlen := hcarried.length
    rw [length_append, ← h] at hlen
    change (conn s).arrivals.length = _ at hlen
    omega
  generalize (conn s).arrivals.length + 1 = fuel at hfuel
  -- what comes before the message is skipped packet by packet
  induction noise generalizing s e fuel with
  | nil =>
    obtain ⟨fuel, rfl⟩ : ∃ k, fuel = k + 1 := ⟨fuel - 1, by simp at hfuel; omega⟩
    obtain ⟨a, harrivals, ha⟩ := hcarried.singleton
    refine (hstep hs h harrivals hkey ha hseq (.inr hm)).seq ?_
    rintro r s' ⟨hs', hends, -, hspoken⟩
    obtain ⟨rfl, hpayload⟩ := hspoken hm
    exact ⟨hs', hends, rfl, hpayload, msgType_of_take hpayload hm.ne_nil⟩
  | cons x noise ih =>
    obtain ⟨fuel, rfl⟩ : ∃ k, fuel = k + 1 := ⟨fuel - 1, by omega⟩
    obtain ⟨a, arrivals, harrivals, ha, hcarried⟩ := hcarried.uncons
    rw [length_cons] at hseq hfuel
    have hx := hnoise x mem_cons_self
    refine (hstep hs h harrivals hkey ha (by omega) (.inl hx)).seq ?_
    rintro r s' ⟨hs', hends, hskip, -⟩
    obtain rfl := hskip hx
    refine (ih hs' hends hkey hcarried (fun y hy => hnoise y (mem_cons_of_mem x hy))
      (by simp only [Ends.received]; omega) fuel (by omega)).mono ?_ fun _ _ hfalse => hfalse
    rintro n s'' ⟨hs'', hends', hrest⟩
    refine ⟨hs'', hends'.trans ?_, hrest⟩
    rw [Ends.received_received, length_cons, Nat.add_comm]

lemma Client.receives_recvStep : Receives id (fun _ => True) Client.recvStep := by
  intro c e m a rest _ h harrivals hkey ha hseq hm
  have hne : m ≠ [] := hm.elim Noise.ne_nil Spoken.ne_nil
  have hlen : m.length ≤ maxPayload := hm.elim And.right Spoken.length
  have hseq' : c.inCipher.seq ≠ uint32Max := by
    rw [← h] at hseq
    exact Nat.ne_of_lt hseq
  unfold recvStep
  rw [wp_bind, wp_get, if_neg hseq']
  refine (wp_readPacket_carries false h harrivals hkey ha hne hlen).seq ?_
  rintro n c' ⟨hends, rfl, hpayload⟩
  rw [wp_bind, wp_get, msgType_of_take hpayload hne]
  rcases hm with hm | hm
  · rw [if_pos (isNoise_of_isNoise hm.1)]
    refine ⟨trivial, hends, fun _ => rfl, fun hspoken => ?_⟩
    cases (isNoise_of_isNoise hm.1).symm.trans hspoken.notNoise
  · rw [if_neg (by rw [hm.notNoise]; decide), if_neg hm.notDisconnect]
    refine ⟨trivial, hends, fun hnoise => ?_, fun _ => ⟨rfl, hpayload⟩⟩
    cases (isNoise_of_isNoise hnoise.1).symm.trans hm.notNoise

lemma Server.receives_recvStep {s : Server} {kex : ServerM Unit} (hkex : s.inKex = true)
    (hidles : s.idles = []) :
    Receives Server.toConn (fun s' => s' = { s with toConn := s'.toConn }) (recvStep kex) := by
  intro s' e m a rest hs h harrivals hkey ha hseq hm
  have hne : m ≠ [] := hm.elim Noise.ne_nil Spoken.ne_nil
  have hlen : m.length ≤ maxPayload := hm.elim And.right Spoken.length
  have hseq' : s'.inCipher.seq ≠ uint32Max := by
    rw [← h] at hseq
    exact Nat.ne_of_lt hseq
  generalize s'.toConn = c at hs h hseq'
  subst hs
  unfold recvStep idle
  rw [wp_bind, wp_get, if_neg hseq', wp_bind, wp_bind, wp_get, wp_bind, wp_set, hidles]
  dsimp only [headD_nil, pump]
  rw [wp_pure, wp_bind, onConn, wp_zoom]
  refine (wp_readPacket_carries s.inKex h harrivals hkey ha hne hlen).mono ?_
    fun _ _ hfalse => hfalse
  rintro n c' ⟨hends, rfl, hpayload⟩
  rw [wp_bind, wp_get]
  rw [msgType_of_take hpayload hne]
  rcases hm with hm | hm
  · rw [if_pos hm.1]
    refine ⟨rfl, hends, fun _ => rfl, fun hspoken => ?_⟩
    cases (Client.isNoise_of_isNoise hm.1).symm.trans hspoken.notNoise
  have hquiet : isNoise (m.getD 0 0) = false := by
    by_contra hnoise
    cases (Client.isNoise_of_isNoise (Bool.not_eq_false _ ▸ hnoise)).symm.trans hm.notNoise
  have hresult : Noise m → (Sum.inr m.length : Unit ⊕ ℕ) = .inl () := by
    intro hnoise
    cases hnoise.1.symm.trans hquiet
  rw [if_neg (by rw [hquiet]; decide), if_neg hm.notDisconnect]
  -- the offer of the peer is handed on as well
  by_cases hkexinit : m.getD 0 0 = msgKexinit
  · rw [if_pos hkexinit, if_pos (by simp [hkex])]
    exact ⟨rfl, hends, hresult, fun _ => ⟨rfl, hpayload⟩⟩
  · rw [if_neg hkexinit]
    exact ⟨rfl, hends, hresult, fun _ => ⟨rfl, hpayload⟩⟩

end Receiving

end Ssh
