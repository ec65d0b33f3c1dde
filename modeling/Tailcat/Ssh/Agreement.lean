import Tailcat.Ssh.Handshake

/-!
# The two sides of a key exchange

A client and a server of this program exchange keys over a transport that delivers what is sent. Before
its version each side may send lines that are to be skipped, and before each of its messages packets that
say nothing. The server sends one more packet at the end, `EXT_INFO`, which the client reads later.

## Main results

* `Client.doKexWith_silent`, `Server.doKexWith_silent`: without such packets these are the functions of
  the source;
* `Meeting.agrees_of_faithful`: the two sides agree.
-/

namespace Ssh

open Program Conn Ends ByteOrder
open List hiding after Vector

/-! ## What is said besides -/

/-- What a side sends besides its messages: before its offer, before its public key or the answer to it,
and before it takes the keys into use. -/
structure Chatter where
  first : List (List UInt8)
  second : List (List UInt8)
  third : List (List UInt8)
  noise : ∀ m ∈ first ++ second ++ third, Noise m

namespace Chatter

def silent : Chatter := { first := [], second := [], third := [], noise := by simp }

variable (chat : Chatter)

lemma noise_first : ∀ x ∈ chat.first, Noise x := fun x hx => chat.noise x (by simp [hx])

lemma noise_second : ∀ x ∈ chat.second, Noise x := fun x hx => chat.noise x (by simp [hx])

lemma noise_third : ∀ x ∈ chat.third, Noise x := fun x hx => chat.noise x (by simp [hx])

end Chatter

namespace Client

/-- The part of `do_kex` before the answer of the server, with what is said besides. -/
def openKexWith (V : Verifiers) (chat : Chatter) (draw : KexDraw) : DialM Bytes32 := do
  onConn (say chat.first)
  exchangeOffers draw
  onConn (say chat.second)
  sendPublic V.toSuite draw

/-- The part of `do_kex` from the answer of the server on, with what is said besides. -/
def closeKexWith (V : Verifiers) (chat : Chatter) (ephemeral : Bytes32) : DialM Unit := do
  let (c2s, s2c) ← receiveReply V ephemeral
  onConn (say chat.third)
  changeKeys c2s s2c

/-- `do_kex`, with what is said besides. -/
def doKexWith (V : Verifiers) (chat : Chatter) (draw : KexDraw) : DialM Unit := do
  let ephemeral ← openKexWith V chat draw
  closeKexWith V chat ephemeral

/-- Without anything said besides it is the function of the source. -/
theorem doKexWith_silent (V : Verifiers) (draw : KexDraw) :
    doKexWith V .silent draw = doKex V draw := by
  funext c
  simp only [doKexWith, openKexWith, bind_assoc]
  rfl

end Client

namespace Server

/-- The part of `do_kex` in which the offers are exchanged, with what is said besides. -/
def exchangeOffersWith (chat : Chatter) (iServer : List UInt8) : ServerM Unit := do
  onConn (say chat.first)
  exchangeOffers iServer

/-- `kex_exchange` without the flag, with what is said besides. -/
def exchangeKeysWith (S : Suite) (opts : ServerOpts) (chat : Chatter) : ServerM Unit := do
  let s ← get
  let draw := s.draws.headD noDraw
  modify fun s => { s with draws := s.draws.tail }
  offerKeys s.kexDone draw
  let s ← get
  let neg ← ofExcept (kexinitParse s.iClient)
  onConn (say chat.second)
  discardGuess neg
  let (c2s, s2c) ← answerEcdh S opts draw
  onConn (say chat.third)
  changeKeys c2s s2c

/-- `do_kex`, with what is said besides. -/
def doKexWith (S : Suite) (opts : ServerOpts) (chat : Chatter) : ServerM Unit := do
  let s ← get
  let iServer ← ofExcept (kexinitBuild kexinitMax (s.draws.headD noDraw).cookie)
  modify fun s => { s with iServer, inKex := true }
  ensuring (exchangeOffersWith chat iServer) fun s => { s with inKex := false }
  modify fun s => { s with inKex := true }
  ensuring (exchangeKeysWith S opts chat) fun s => { s with inKex := false }

/-- Without anything said besides it is the function of the source. -/
theorem doKexWith_silent (S : Suite) (opts : ServerOpts) :
    doKexWith S opts .silent = doKex S opts := by
  funext s
  rfl

end Server

/-! ## Messages of an exchange -/

lemma length_kexinitMessage (cookie : Vector UInt8 cookieLen) :
    (kexinitMessage cookie).length ≤ kexinitMax := by
  simp only [kexinitMessage, map_cons, flatten_cons, length_append, Vector.length_toList]
  decide

lemma Spoken.of_cons {msg : UInt8} {body : List UInt8} (hlen : (msg :: body).length ≤ maxPayload)
    (hquiet : Client.isNoise msg = false) (hopen : msg ≠ msgDisconnect) : Spoken (msg :: body) :=
  ⟨hlen, cons_ne_nil _ _, hquiet, hopen⟩

lemma spoken_kexinitMessage (cookie : Vector UInt8 cookieLen) : Spoken (kexinitMessage cookie) :=
  .of_cons ((length_kexinitMessage cookie).trans (by decide)) (by decide) (by decide)

lemma spoken_ecdhInitMessage (qClient : Bytes32) : Spoken (ecdhInitMessage qClient) := by
  refine .of_cons ?_ (by decide) (by decide)
  simp only [hashString, length_cons, length_append, Vector.length_toList]
  decide

lemma spoken_ecdhReplyMessage (hostPub qServer : Bytes32) (sig : Signature) :
    Spoken (ecdhReplyMessage hostPub qServer sig) := by
  refine .of_cons ?_ (by decide) (by decide)
  simp only [hashString, length_cons, length_append, length_tagged, Vector.length_toList]
  decide

lemma spoken_newkeys : Spoken [msgNewkeys] := .of_cons (by decide) (by decide) (by decide)

/-- The message with the extensions that the server knows. -/
def extInfoMessage : List UInt8 :=
  msgExtInfo :: (writeBE32 1 ++ hashString (ascii "server-sig-algs") ++
    hashString (Wbuf.commas authAlgos))

lemma extInfoBuild_eq : extInfoBuild 256 authAlgos = .ok extInfoMessage := by
  have hfields := Wbuf.finish_foldl_putRaw 256 [[msgExtInfo], writeBE32 1,
    writeBE32 (.ofNat (ascii "server-sig-algs").length), ascii "server-sig-algs",
    writeBE32 (.ofNat (Wbuf.commas authAlgos).length), Wbuf.commas authAlgos] (by decide +kernel)
  unfold extInfoBuild
  refine hfields.trans ?_
  simp [extInfoMessage, hashString]

/-! ## The client -/

/-- The keys of the first exchange, the hash of which is the id of the session. -/
abbrev firstKeys (S : Suite) (secret : Bytes32) (x : Exchange) : CipherKey × CipherKey :=
  deriveKeys S secret (exchangeHash S x) (exchangeHash S x)

variable {hostPub : Bytes32} {Q E : Server → Prop} {ends : Err} {banners : List Banner}

section Stages

variable {e : Ends} {m : List UInt8} {noise noise' : List (List UInt8)} {mid rest : List Arrival}
  {x : Exchange} {secret ephemeral : Bytes32} {sig : Signature}

namespace Client

variable {c : Client}

lemma wp_onConn {α : Type} {x : EStateM Err Conn α} {P : α → Conn → Prop}
    (h : wp x P (fun _ _ => False) c.toConn) :
    wp (onConn x) (fun a c' => c' = { c with toConn := c'.toConn } ∧ P a c'.toConn)
      (fun _ _ => False) c := by
  rw [onConn, wp_zoom]
  exact h.mono (fun _ _ h' => ⟨rfl, h'⟩) fun _ _ h' => h'

lemma wp_recvPacket_awaits (h : c.toConn.ends = e)
    (hnext : Awaits e.inCipher noise m e.arrivals rest) :
    wp (onConn recvPacket)
      (fun n c' => c' = { c with toConn := c'.toConn } ∧ True ∧
        c'.toConn.ends = e.received (noise.length + 1) rest ∧ n = m.length ∧
        c'.payload.take n = m ∧ c'.msgType = m.getD 0 0)
      (fun _ _ => False) c :=
  wp_onConn (Receives.loop receives_recvStep trivial h hnext)

lemma wp_openKexWith (V : Verifiers) (chat : Chatter) (cookie cookie' : Vector UInt8 cookieLen)
    (ephemeral : Bytes32) (h : c.toConn.ends = e) (houtcomes : e.outcomes = [])
    (hoffer : Awaits e.inCipher noise (kexinitMessage cookie') e.arrivals rest)
    (hout : e.outCipher.seq + (chat.first.length + chat.second.length + 2) ≤ uint32Max) :
    wp (openKexWith V chat { cookie := .ok cookie, ephemeral := .ok ephemeral })
      (fun r c' => r = ephemeral ∧
        c' = { c with
          toConn := c'.toConn, iClient := kexinitMessage cookie, iServer := kexinitMessage cookie' } ∧
        c'.toConn.ends = (e.said (chat.first ++ [kexinitMessage cookie] ++ chat.second ++
          [ecdhInitMessage (V.x25519Public ephemeral)])).received (noise.length + 1) rest)
      (fun _ _ => False) c := by
  refine (wp_onConn (wp_say_ends h houtcomes (by omega) chat.noise_first)).seq ?_
  rintro _ c1 ⟨hsame1, h1⟩
  rw [wp_bind]
  unfold exchangeOffers
  rw [wp_bind, kexinitBuild_eq, wp_ofExcept_ok, wp_bind]
  refine (wp_onConn (c := { c1 with iClient := kexinitMessage cookie }) (wp_sendPacket_ends h1 houtcomes
    (by grind) (spoken_kexinitMessage cookie).length)).seq ?_
  rintro _ c2 ⟨hsame2, h2⟩
  refine (wp_recvPacket_awaits h2 hoffer).seq ?_
  rintro n c3 ⟨hsame3, -, h3, hn, hpayload, htype⟩
  have hmax : ¬n > kexinitMax := by
    have := length_kexinitMessage cookie'
    omega
  rw [wp_bind, wp_get, if_neg (by rw [htype]; exact not_not.mpr rfl), if_neg hmax, wp_modify]
  rw [hpayload]
  refine (wp_onConn (c := { c3 with iServer := kexinitMessage cookie' }) (wp_say_ends h3 houtcomes
    (by grind) chat.noise_second)).seq ?_
  rintro _ c4 ⟨hsame4, h4⟩
  unfold sendPublic
  have hserver : c4.iServer = kexinitMessage cookie' := by rw [hsame4]
  rw [wp_bind, wp_get, hserver, kexinitParse_kexinitMessage, wp_bind, wp_ofExcept_ok, wp_bind,
    wp_ofExcept_ok, wp_bind, ecdhInit_eq]
  refine (wp_onConn (wp_sendPacket_ends h4 houtcomes (by grind)
    (spoken_ecdhInitMessage _).length)).seq ?_
  rintro _ c5 ⟨hsame5, h5⟩
  refine ⟨rfl, ?_, ?_⟩
  · rw [hsame5, hsame4, hsame3, hsame2, hsame1]
  · rw [h5]
    simp only [said_received, said_said]

lemma wp_closeKexWith (V : Verifiers) (chat : Chatter) {qServer : Bytes32} (h : c.toConn.ends = e)
    (houtcomes : e.outcomes = [])
    (hreply : Awaits e.inCipher noise (ecdhReplyMessage hostPub qServer sig) e.arrivals mid)
    (hnewkeys : Awaits (e.received (noise.length + 1) mid).inCipher noise' [msgNewkeys] mid rest)
    (hout : e.outCipher.seq + (chat.third.length + 1) ≤ uint32Max)
    (hsecret : V.x25519 ephemeral qServer = .ok secret)
    (hx : x = { vClient := c.vClient, vServer := c.vServer, iClient := c.iClient
                iServer := c.iServer, kServer := tagged hostPub.toList
                qClient := V.x25519Public ephemeral, qServer, secret })
    (hverify : V.ed25519Verify sig hostPub (exchangeHash V.toSuite x).toList = true) :
    wp (closeKexWith V chat ephemeral)
      (fun _ c' => c'.sessionId = exchangeHash V.toSuite x ∧ c'.hostKey = hostPub ∧
        c'.toConn.ends = (((e.said (chat.third ++ [[msgNewkeys]])).received
          (noise.length + 1 + (noise'.length + 1)) rest).sealing
            (firstKeys V.toSuite secret x).1).opening (firstKeys V.toSuite secret x).2)
      (fun _ _ => False) c := by
  unfold closeKexWith
  rw [wp_bind]
  refine (wp_recvPacket_awaits h hreply).seq ?_
  rintro n c1 ⟨hsame1, -, h1, -, hpayload1, htype1⟩
  rw [wp_bind, wp_get, if_neg (by rw [htype1]; exact not_not.mpr rfl), hpayload1,
    readEcdhReply_ecdhReplyMessage, wp_bind, wp_ofExcept_ok, wp_bind, wp_modify]
  dsimp only
  have hx1 : ({ vClient := c1.vClient, vServer := c1.vServer, iClient := c1.iClient
                iServer := c1.iServer, kServer := tagged hostPub.toList
                qClient := V.x25519Public ephemeral, qServer, secret } : Exchange) = x := by
    rw [hx, hsame1]
  rw [hsecret, wp_bind, wp_ofExcept_ok, hx1, hverify, if_neg (by decide), wp_bind, wp_modify]
  unfold firstKeys
  generalize deriveKeys V.toSuite secret _ _ = keys
  refine (wp_onConn (wp_say_ends (e := e.received (noise.length + 1) mid) (by exact h1) houtcomes
    (by grind) chat.noise_third)).seq ?_
  rintro _ c2 ⟨hsame2, h2⟩
  refine (wp_onConn (wp_sendPacket_ends h2 houtcomes (by grind) spoken_newkeys.length)).seq ?_
  rintro _ c3 ⟨hsame3, h3⟩
  refine (wp_recvPacket_awaits (e := (((e.received (noise.length + 1) mid).said chat.third).said
    [[msgNewkeys]]).sealing keys.1) ?_ hnewkeys).seq ?_
  · rw [← h3]
    rfl
  rintro n' c4 ⟨hsame4, -, h4, rfl, -, htype4⟩
  rw [wp_bind, wp_get, if_neg (by rw [htype4]; decide)]
  refine ⟨?_, ?_, ?_⟩
  · rw [hsame4, hsame3, hsame2]
  · rw [hsame4, hsame3, hsame2]
  have hends : c4.toConn.ends = ((e.said (chat.third ++ [[msgNewkeys]])).received
      (noise.length + 1 + (noise'.length + 1)) rest).sealing keys.1 := by
    rw [h4, ← said_said, ← received_received _ (noise.length + 1) _ mid]
    rfl
  change c4.toConn.ends.opening keys.2 = _
  rw [hends]

end Client

/-! ## The server -/

namespace Server

variable {s : Server}

lemma wp_onConn {α : Type} {x : EStateM Err Conn α} {P : α → Conn → Prop}
    (h : wp x P (fun _ _ => False) s.toConn) :
    wp (onConn x) (fun a s' => s' = { s with toConn := s'.toConn } ∧ P a s'.toConn)
      (fun _ _ => False) s := by
  rw [onConn, wp_zoom]
  exact h.mono (fun _ _ h' => ⟨rfl, h'⟩) fun _ _ h' => h'

lemma wp_recvInKex_awaits (hkex : s.inKex = true) (hidles : s.idles = [])
    (h : s.toConn.ends = e) (hnext : Awaits e.inCipher noise m e.arrivals rest) :
    wp recvInKex
      (fun n s' => s' = { s with toConn := s'.toConn } ∧
        s'.toConn.ends = e.received (noise.length + 1) rest ∧ n = m.length ∧
        s'.payload.take n = m ∧ s'.msgType = m.getD 0 0)
      (fun _ _ => False) s :=
  Receives.loop (receives_recvStep hkex hidles) rfl h hnext

variable (S : Suite) (opts : ServerOpts) (chat : Chatter) {cookie cookie' : Vector UInt8 cookieLen}
  {qClient : Bytes32} {draws : List KexDraw}

lemma wp_exchangeOffersWith (hkex : s.inKex = true) (hidles : s.idles = [])
    (h : s.toConn.ends = e) (houtcomes : e.outcomes = [])
    (hoffer : Awaits e.inCipher noise (kexinitMessage cookie') e.arrivals rest)
    (hout : e.outCipher.seq + (chat.first.length + 1) ≤ uint32Max) :
    wp (exchangeOffersWith chat (kexinitMessage cookie))
      (fun _ s' => s' = { s with toConn := s'.toConn, iClient := kexinitMessage cookie' } ∧
        s'.toConn.ends = (e.said (chat.first ++ [kexinitMessage cookie])).received
          (noise.length + 1) rest)
      (fun _ _ => False) s := by
  refine (wp_onConn (wp_say_ends h houtcomes (by omega) chat.noise_first)).seq ?_
  rintro _ s1 ⟨hsame1, h1⟩
  refine (wp_onConn (wp_sendPacket_ends h1 houtcomes (by grind)
    (spoken_kexinitMessage cookie).length)).seq ?_
  rintro _ s2 ⟨hsame2, h2⟩
  have hkex2 : s2.inKex = true := by rw [hsame2, hsame1, hkex]
  have hidles2 : s2.idles = [] := by rw [hsame2, hsame1, hidles]
  refine (wp_recvInKex_awaits hkex2 hidles2 h2 hoffer).seq ?_
  rintro n s3 ⟨hsame3, h3, hn, hpayload, htype⟩
  have hmax : ¬n > kexinitMax := by
    have := length_kexinitMessage cookie'
    omega
  rw [wp_bind, wp_get, if_neg (by rw [htype]; exact not_not.mpr rfl), if_neg hmax, wp_modify]
  rw [hpayload]
  refine ⟨?_, ?_⟩
  · rw [hsame3, hsame2, hsame1]
  · rw [h3, said_said]

lemma wp_answerEcdh_ends {draw : KexDraw} (hkex : s.inKex = true) (hidles : s.idles = [])
    (hdone : s.kexDone = false) (h : s.toConn.ends = e) (houtcomes : e.outcomes = [])
    (hpublic : Awaits e.inCipher noise (ecdhInitMessage qClient) e.arrivals rest)
    (hout : e.outCipher.seq < uint32Max) (hdraw : draw.ephemeral = .ok ephemeral)
    (hsecret : S.x25519 ephemeral qClient = .ok secret)
    (hblob : s.hostBlob = tagged s.hostPub.toList)
    (hx : x = { vClient := s.vClient, vServer := s.vServer, iClient := s.iClient
                iServer := s.iServer, kServer := s.hostBlob, qClient
                qServer := S.x25519Public ephemeral, secret })
    (hsig : S.ed25519Sign opts.hostSeed s.hostPub (exchangeHash S x).toList = .ok sig) :
    wp (answerEcdh S opts draw)
      (fun keys s' => keys = firstKeys S secret x ∧
        s' = { s with toConn := s'.toConn, sessionId := exchangeHash S x } ∧
        s'.toConn.ends = (e.said [ecdhReplyMessage s.hostPub (S.x25519Public ephemeral) sig]).received
          (noise.length + 1) rest)
      (fun _ _ => False) s := by
  refine (wp_recvInKex_awaits hkex hidles h hpublic).seq ?_
  rintro n s1 ⟨hsame1, h1, -, hpayload, htype⟩
  have hx1 : ({ vClient := s1.vClient, vServer := s1.vServer, iClient := s1.iClient
                iServer := s1.iServer, kServer := s1.hostBlob, qClient
                qServer := S.x25519Public ephemeral, secret } : Exchange) = x := by
    rw [hx, hsame1]
  have hpub1 : s1.hostPub = s.hostPub := by rw [hsame1]
  have hblob1 : s1.hostBlob = tagged s.hostPub.toList := by rw [hsame1, hblob]
  rw [wp_bind, wp_get, if_neg (by rw [htype]; exact not_not.mpr rfl), hpayload,
    readEcdhInit_ecdhInitMessage, wp_bind, wp_ofExcept_ok, hdraw, wp_bind, wp_ofExcept_ok, hsecret,
    wp_bind, wp_ofExcept_ok]
  dsimp only
  rw [hx1, hpub1, hsig, wp_bind, wp_ofExcept_ok, signatureBlob_eq sig (by decide), wp_bind,
    wp_ofExcept_ok, hblob1, ecdhReply_eq, wp_bind]
  refine (wp_onConn (wp_sendPacket_ends h1 houtcomes hout
    (spoken_ecdhReplyMessage _ _ _).length)).seq ?_
  rintro _ s2 ⟨hsame2, h2⟩
  have hdone2 : s2.kexDone = false := by rw [hsame2, hsame1, hdone]
  rw [wp_bind, wp_modify, wp_bind, wp_get]
  rw [if_neg (by simp [hdone2])]
  refine ⟨rfl, ?_, ?_⟩
  · rw [hsame2, hsame1]
  · rw [h2]
    rfl

def kexSaid (chat : Chatter) (offer reply : List UInt8) : List (List UInt8) :=
  chat.first ++ [offer] ++ chat.second ++ [reply] ++ chat.third ++ [[msgNewkeys]]

/-- The server has answered the client and uses the new keys. -/
structure Answered (e : Ends) (h : Bytes32) (s : Server) : Prop where
  inKex : s.inKex = true
  idles : s.idles = []
  kexDone : s.kexDone = false
  sessionId : s.sessionId = h
  ends : s.toConn.ends = e

lemma wp_doKexWith
    (hdraws : s.draws = { cookie := .ok cookie, ephemeral := .ok ephemeral } :: draws)
    (hidles : s.idles = []) (hdone : s.kexDone = false) (h : s.toConn.ends = e)
    (houtcomes : e.outcomes = [])
    (hoffer : Awaits e.inCipher noise (kexinitMessage cookie') e.arrivals mid)
    (hpublic : Awaits (e.received (noise.length + 1) mid).inCipher noise' (ecdhInitMessage qClient)
      mid rest)
    (hout : e.outCipher.seq + (chat.first.length + chat.second.length + chat.third.length + 3) ≤
      uint32Max) (hsecret : S.x25519 ephemeral qClient = .ok secret)
    (hblob : s.hostBlob = tagged s.hostPub.toList)
    (hx : x = { vClient := s.vClient, vServer := s.vServer, iClient := kexinitMessage cookie'
                iServer := kexinitMessage cookie, kServer := s.hostBlob, qClient
                qServer := S.x25519Public ephemeral, secret })
    (hsig : S.ed25519Sign opts.hostSeed s.hostPub (exchangeHash S x).toList = .ok sig)
    (hrest : ∀ s1, Answered (((e.said (kexSaid chat (kexinitMessage cookie)
        (ecdhReplyMessage s.hostPub (S.x25519Public ephemeral) sig))).received
          (noise.length + 1 + (noise'.length + 1)) rest).sealing
            (firstKeys S secret x).2) (exchangeHash S x) s1 →
      wp (awaitNewkeys (firstKeys S secret x).1)
        (fun _ s' => Q { s' with inKex := false }) (fun _ s' => E { s' with inKex := false }) s1) :
    wp (doKexWith S opts chat) (fun _ => Q) (fun _ => E) s := by
  unfold doKexWith
  rw [wp_bind, wp_get, hdraws, headD_cons, kexinitBuild_eq, wp_bind, wp_ofExcept_ok, wp_bind,
    wp_modify, wp_bind, wp_ensuring]
  refine (wp_exchangeOffersWith chat (s := { s with iServer := kexinitMessage cookie, inKex := true })
    rfl hidles h houtcomes hoffer (by omega)).mono ?_ fun _ _ hfalse => hfalse.elim
  rintro _ s1 ⟨hsame1, h1⟩
  have hdraws1 : s1.draws = { cookie := .ok cookie, ephemeral := .ok ephemeral } :: draws := by
    rw [hsame1, hdraws]
  have hdone1 : s1.kexDone = false := by rw [hsame1, hdone]
  have hidles1 : s1.idles = [] := by rw [hsame1, hidles]
  rw [wp_bind, wp_modify, wp_ensuring]
  unfold exchangeKeysWith
  rw [wp_bind, wp_get, wp_bind, wp_modify, wp_bind]
  rw [hdone1, offerKeys, if_neg (by decide), wp_pure, wp_bind, wp_get, hdraws1]
  have hoffer1 : s1.iClient = kexinitMessage cookie' := by rw [hsame1]
  rw [hoffer1, kexinitParse_kexinitMessage, wp_bind]
  refine (wp_onConn (wp_say_ends (e := (e.said (chat.first ++ [kexinitMessage cookie])).received
    (noise.length + 1) mid) (by exact h1) houtcomes (by grind) chat.noise_second)).seq ?_
  rintro _ s2 ⟨hsame2, h2⟩
  rw [wp_bind, discardGuess, if_neg (by decide), wp_pure, wp_bind]
  have hkex2 : s2.inKex = true := by rw [hsame2]
  have hidles2 : s2.idles = [] := by rw [hsame2, hidles1]
  have hdone2 : s2.kexDone = false := by rw [hsame2]
  have hpub2 : s2.hostPub = s.hostPub := by rw [hsame2, hsame1]
  have hblob2 : s2.hostBlob = tagged s2.hostPub.toList := by rw [hsame2, hsame1, hblob]
  have hx2 : x = { vClient := s2.vClient, vServer := s2.vServer, iClient := s2.iClient
                   iServer := s2.iServer, kServer := s2.hostBlob, qClient
                   qServer := S.x25519Public ephemeral, secret } := by
    rw [hx, hsame2, hsame1]
  refine (wp_answerEcdh_ends S opts hkex2 hidles2 hdone2 h2 houtcomes hpublic
    (by grind) rfl hsecret hblob2 hx2 (hpub2 ▸ hsig)).mono ?_
    fun _ _ hfalse => hfalse.elim
  rintro ⟨c2s, s2c⟩ s3 ⟨hkeys, hsame3, h3⟩
  refine (wp_onConn (wp_say_ends h3 houtcomes (by grind) chat.noise_third)).seq ?_
  rintro _ s4 ⟨hsame4, h4⟩
  refine (wp_onConn (wp_sendPacket_ends h4 houtcomes (by grind) spoken_newkeys.length)).seq ?_
  rintro _ s5 ⟨hsame5, h5⟩
  rw [← hkeys] at hrest
  refine hrest _ ⟨?_, ?_, ?_, ?_, ?_⟩
  · rw [hsame5, hsame4, hsame3, hkex2]
  · rw [hsame5, hsame4, hsame3, hidles2]
  · rw [hsame5, hsame4, hsame3, hdone2]
  · rw [hsame5, hsame4, hsame3]
  · change s5.toConn.ends.sealing s2c = _
    rw [h5, hpub2]
    simp only [said_received, said_said, received_received, kexSaid]

lemma wp_awaitNewkeys {c2s : CipherKey} {id : Bytes32} (h : Answered e id s)
    (houtcomes : e.outcomes = []) (hnewkeys : Awaits e.inCipher noise [msgNewkeys] e.arrivals rest)
    (hout : e.outCipher.seq < uint32Max) :
    wp (awaitNewkeys c2s)
      (fun _ s' => s'.sessionId = id ∧ s'.toConn.ends =
        ((e.received (noise.length + 1) rest).opening c2s).said [extInfoMessage])
      (fun _ _ => False) s := by
  refine (wp_recvInKex_awaits h.inKex h.idles h.ends hnewkeys).seq ?_
  rintro n s1 ⟨hsame1, h1, rfl, -, htype⟩
  have hdone1 : s1.kexDone = false := by rw [hsame1, h.kexDone]
  have hid1 : s1.sessionId = id := by rw [hsame1, h.sessionId]
  rw [wp_bind, wp_get, if_neg (by rw [htype]; decide), wp_bind, wp_modify, if_neg (by simp [hdone1])]
  unfold sendExtInfo
  rw [extInfoBuild_eq]
  rw [wp_bind, wp_attempt]
  refine (wp_onConn (wp_sendPacket_ends (e := (e.received (noise.length + 1) rest).opening c2s) ?_
    houtcomes hout (by decide +kernel))).mono ?_ fun _ _ hfalse => hfalse.elim
  · rw [← h1]
    rfl
  · rintro _ s2 ⟨hsame2, h2⟩
    refine ⟨?_, h2⟩
    rw [hsame2]
    exact hid1

/-! ### What has been sent stays sent -/

lemma moves_exchangeKeysWith : Within Moves (exchangeKeysWith S opts chat) := by
  refine .get fun s => .bind (.modify fun s => .of_conn rfl) fun _ => ?_
  refine (exchanges_moves.offerKeys _ _).bind fun _ => .get fun s => ?_
  refine .of_ok fun neg _ => (moves_onConn (moves_say _)).bind fun _ => ?_
  refine (exchanges_moves.discardGuess neg).bind fun _ => ?_
  refine (exchanges_moves.answerEcdh S opts _).bind fun keys => ?_
  exact (moves_onConn (moves_say _)).bind fun _ => exchanges_moves.changeKeys _ _

lemma wp_doKexWith_offer {ephemeral : Except Err Bytes32}
    (hdraws : s.draws = { cookie := .ok cookie, ephemeral } :: draws) (h : s.toConn.ends = e)
    (houtcomes : e.outcomes = []) (hout : e.outCipher.seq + (chat.first.length + 1) ≤ uint32Max) :
    wp (doKexWith S opts chat)
      (fun _ s' => e.outbox ++ (chat.first ++ [kexinitMessage cookie]) <+: s'.outbox)
      (fun _ s' => e.outbox ++ (chat.first ++ [kexinitMessage cookie]) <+: s'.outbox) s := by
  unfold doKexWith
  rw [wp_bind, wp_get, hdraws, headD_cons, kexinitBuild_eq, wp_bind, wp_ofExcept_ok, wp_bind,
    wp_modify, wp_bind, wp_ensuring]
  refine (wp_onConn (s := { s with iServer := kexinitMessage cookie, inKex := true })
    (wp_say_ends h houtcomes (by omega) chat.noise_first)).seq ?_
  rintro _ s1 ⟨-, h1⟩
  refine (wp_onConn (wp_sendPacket_ends h1 houtcomes (by grind)
    (spoken_kexinitMessage cookie).length)).seq ?_
  rintro _ s2 ⟨-, h2⟩
  have hsent : s2.outbox = e.outbox ++ (chat.first ++ [kexinitMessage cookie]) := by
    have houtbox := congrArg Ends.outbox h2
    rw [said_said] at houtbox
    exact houtbox
  rw [← hsent]
  -- from here on it is enough that nothing is taken back
  refine (moves_receiveOffer s2).mono ?_ fun _ s3 hmoves => hmoves.conn.outbox
  intro _ s3 hmoves
  rw [wp_bind, wp_modify, wp_ensuring]
  refine (moves_exchangeKeysWith S opts chat _).mono ?_ ?_
  · exact fun _ s4 hmoves' => hmoves.conn.outbox.trans hmoves'.conn.outbox
  · exact fun _ s4 hmoves' => hmoves.conn.outbox.trans hmoves'.conn.outbox

end Server

namespace Client

lemma moves_closeKexWith (V : Verifiers) (chat : Chatter) (ephemeral : Bytes32) :
    Within Moves (closeKexWith V chat ephemeral) :=
  (moves_receiveReply V ephemeral).bind fun _ => (moves_onConn (moves_say _)).bind fun _ =>
    moves_changeKeys _ _

end Client

end Stages

/-! ## Version lines -/

/-- A line that comes before the version. -/
structure Banner where
  line : List UInt8
  notLf : 0x0a ∉ line
  notVersion : (ascii "SSH-").isPrefixOf (stripCr line) = false

def ourVersion : List UInt8 := ascii "SSH-2.0-tailcatc_0.1"

def introduction (banners : List Banner) : List UInt8 :=
  (banners.flatMap fun b => b.line ++ [0x0a]) ++ (ourVersion ++ [0x0d, 0x0a])

lemma readLine_append {cap : ℕ} {line l rest : List UInt8} (hlf : 0x0a ∉ l)
    (hlen : line.length + l.length < cap) :
    readLine ends cap line (l ++ 0x0a :: rest) = .ok (line ++ l, rest) := by
  induction l generalizing line with
  | nil => simp [readLine]
  | cons b l ih =>
    rw [mem_cons, not_or] at hlf
    rw [length_cons] at hlen
    rw [cons_append, readLine, if_neg (Ne.symm hlf.1), if_neg (by omega), ih hlf.2 ?_]
    · simp
    · rw [length_append, length_singleton]
      omega

lemma readVersionLine_introduction {lines : ℕ} (hcount : banners.length < lines)
    (hlen : ∀ b ∈ banners, b.line.length ≤ versionMax) :
    readVersionLine ends (versionMax + 1) lines (introduction banners) = .ok (ourVersion, []) := by
  induction banners generalizing lines with
  | nil =>
    obtain ⟨lines, rfl⟩ : ∃ k, lines = k + 1 := ⟨lines - 1, by simp at hcount; omega⟩
    rfl
  | cons b banners ih =>
    obtain ⟨lines, rfl⟩ : ∃ k, lines = k + 1 := ⟨lines - 1, by simp at hcount; omega⟩
    have hline : readLine ends (versionMax + 1) [] (introduction (b :: banners)) =
        .ok (b.line, introduction banners) := by
      have hb := hlen b mem_cons_self
      have h : readLine ends (versionMax + 1) [] (b.line ++ 0x0a :: introduction banners) =
          .ok ([] ++ b.line, introduction banners) :=
        readLine_append b.notLf (by simp only [length_nil]; omega)
      simpa [introduction] using h
    rw [length_cons] at hcount
    rw [readVersionLine, hline]
    dsimp only
    rw [if_neg (by rw [b.notVersion]; decide)]
    exact ih (by omega) fun b' hb' => hlen b' (mem_cons_of_mem b hb')

def greetingOf (banners : List Banner) : Greeting :=
  { bytes := introduction banners, ends := ⟨.closed, closed_ne_done⟩, written := .ok () }

lemma versionBuild_ours : versionBuild (versionMax + 1) (ascii "tailcatc_0.1") =
    .ok (ourVersion ++ [0x0d, 0x0a]) := by decide +kernel

lemma Client.wp_greet (hcount : banners.length < 64)
    (hlen : ∀ b ∈ banners, b.line.length ≤ versionMax) (c : Client) :
    wp (Client.greet (greetingOf banners))
      (fun _ c' => c' = { c with vClient := ourVersion, vServer := ourVersion })
      (fun _ _ => False) c := by
  unfold Client.greet
  rw [versionBuild_ours, wp_bind, wp_ofExcept_ok, wp_bind]
  simp only [greetingOf, Except.mapError]
  rw [wp_ofExcept_ok, readVersionLine_introduction hcount hlen, wp_bind, wp_ofExcept_ok]
  rfl

lemma Server.wp_greet {V : Verifiers} {opts : ServerOpts}
    (hpub : V.ed25519Public opts.hostSeed = .ok hostPub) (hcount : banners.length < 64)
    (hlen : ∀ b ∈ banners, b.line.length ≤ versionMax) (s : Server) :
    wp (Server.greet V opts (greetingOf banners))
      (fun _ s' => s' = { s with
        hostPub, hostBlob := tagged hostPub.toList, vServer := ourVersion, vClient := ourVersion })
      (fun _ _ => False) s := by
  unfold Server.greet
  rw [hpub, wp_bind, wp_ofExcept_ok, hostkeyBlob_eq hostPub (by decide), wp_bind, wp_ofExcept_ok,
    versionBuild_ours, wp_bind, wp_ofExcept_ok, wp_bind]
  simp only [greetingOf, Except.mapError]
  rw [wp_ofExcept_ok, readVersionLine_introduction hcount hlen, wp_bind, wp_ofExcept_ok]
  rfl

/-! ## Meetings -/

/-- A client and a server that exchange keys: what each of them says besides its messages, what it draws,
and what arrives at it. -/
structure Meeting where
  opts : ServerOpts
  bannersC : List Banner
  bannersS : List Banner
  chatC : Chatter
  chatS : Chatter
  cookieC : Vector UInt8 cookieLen
  cookieS : Vector UInt8 cookieLen
  ephemeralC : Bytes32
  ephemeralS : Bytes32
  arrivalsC : List Arrival
  arrivalsS : List Arrival

/-- What is assumed of the primitives. -/
structure Verifiers.Sound (V : Verifiers) : Prop where
  /-- Both sides compute the same secret. -/
  x25519_comm : ∀ a b, V.x25519 a (V.x25519Public b) = V.x25519 b (V.x25519Public a)
  x25519_ok : ∀ a b, ∃ secret, V.x25519 a (V.x25519Public b) = .ok secret
  public_ok : ∀ seed, ∃ pub, V.ed25519Public seed = .ok pub
  sign_ok : ∀ seed pub msg, ∃ sig, V.ed25519Sign seed pub msg = .ok sig
  /-- What was signed is verified. -/
  verify_sign : ∀ seed pub msg sig, V.ed25519Public seed = .ok pub →
    V.ed25519Sign seed pub msg = .ok sig → V.ed25519Verify sig pub msg = true

namespace Meeting

variable (V : Verifiers) (m : Meeting)

/-- The client, up to the end of `do_kex`. -/
def client : DialM Unit := do
  Client.greet (greetingOf m.bannersS)
  Client.doKexWith V m.chatC { cookie := .ok m.cookieC, ephemeral := .ok m.ephemeralC }

/-- The server, up to the end of `do_kex`. -/
def server : ServerM Unit := do
  Server.greet V m.opts (greetingOf m.bannersC)
  Server.doKexWith V.toSuite m.opts m.chatS

def startC : Client := .start m.arrivalsC []

def startS : Server :=
  .start m.arrivalsS [] [{ cookie := .ok m.cookieS, ephemeral := .ok m.ephemeralS }] []

def Delivered (sent : List (List UInt8)) (arrivals : List Arrival) : Prop :=
  ∃ rest, Carried (throughNewkeys sent) arrivals rest

/-- The transport is faithful: what each side sends is what arrives at the other one. -/
structure Faithful : Prop where
  toClient : Delivered (after (m.server V) m.startS).outbox m.arrivalsC
  toServer : Delivered (after (m.client V) m.startC).outbox m.arrivalsS

/-- As much is said besides as the limits allow. -/
structure Bounded : Prop where
  bannersC : m.bannersC.length < 64
  bannersS : m.bannersS.length < 64
  lineC : ∀ b ∈ m.bannersC, b.line.length ≤ versionMax
  lineS : ∀ b ∈ m.bannersS, b.line.length ≤ versionMax
  chatC : m.chatC.first.length + m.chatC.second.length + m.chatC.third.length + 3 ≤ uint32Max
  chatS : m.chatS.first.length + m.chatS.second.length + m.chatS.third.length + 4 ≤ uint32Max

variable {V m} {ms sent : List (List UInt8)} {arrivals : List Arrival} {limit : ℕ}

lemma not_noise_newkeys : ¬Noise [msgNewkeys] := fun h => absurd h.1 (by decide)

lemma newkeys_not_mem (chat : Chatter) :
    [msgNewkeys] ∉ chat.first ∧ [msgNewkeys] ∉ chat.second ∧ [msgNewkeys] ∉ chat.third :=
  ⟨fun h => not_noise_newkeys (chat.noise_first _ h), fun h => not_noise_newkeys (chat.noise_second _ h),
    fun h => not_noise_newkeys (chat.noise_third _ h)⟩

lemma Delivered.carried (h : Delivered sent arrivals) (hms : ms <+: sent)
    (hnot : [msgNewkeys] ∉ ms) :
    ∃ rest, Carried ms arrivals rest := by
  obtain ⟨rest, hcarried⟩ := h
  obtain ⟨later, rfl⟩ := hms
  rw [throughNewkeys_append hnot] at hcarried
  obtain ⟨mid, hms, -⟩ := hcarried.split
  exact ⟨mid, hms⟩

lemma Delivered.carried_newkeys (h : Delivered sent arrivals)
    (hms : ms ++ [[msgNewkeys]] <+: sent) (hnot : [msgNewkeys] ∉ ms) :
    ∃ rest, Carried (ms ++ [[msgNewkeys]]) arrivals rest := by
  obtain ⟨rest, hcarried⟩ := h
  obtain ⟨later, rfl⟩ := hms
  rw [append_assoc, throughNewkeys_append hnot] at hcarried
  exact ⟨rest, hcarried⟩

/-! ### The exchange of a meeting -/

def exchange (V : Verifiers) (m : Meeting) (hostPub secret : Bytes32) : Exchange :=
  { vClient := ourVersion, vServer := ourVersion, iClient := kexinitMessage m.cookieC
    iServer := kexinitMessage m.cookieS, kServer := tagged hostPub.toList
    qClient := V.x25519Public m.ephemeralC, qServer := V.x25519Public m.ephemeralS, secret }

def hash (V : Verifiers) (m : Meeting) (hostPub secret : Bytes32) : Bytes32 :=
  exchangeHash V.toSuite (m.exchange V hostPub secret)

def keys (V : Verifiers) (m : Meeting) (hostPub secret : Bytes32) : CipherKey × CipherKey :=
  firstKeys V.toSuite secret (m.exchange V hostPub secret)

/-- What the primitives give in a meeting. -/
structure Keyed (V : Verifiers) (m : Meeting) (hostPub secret : Bytes32) (sig : Signature) : Prop where
  pub : V.ed25519Public m.opts.hostSeed = .ok hostPub
  secretC : V.x25519 m.ephemeralC (V.x25519Public m.ephemeralS) = .ok secret
  secretS : V.x25519 m.ephemeralS (V.x25519Public m.ephemeralC) = .ok secret
  sign : V.ed25519Sign m.opts.hostSeed hostPub (m.hash V hostPub secret).toList = .ok sig
  verify : V.ed25519Verify sig hostPub (m.hash V hostPub secret).toList = true

lemma exists_keyed (hsound : V.Sound) (m : Meeting) :
    ∃ hostPub secret sig, Keyed V m hostPub secret sig := by
  obtain ⟨hostPub, hpub⟩ := hsound.public_ok m.opts.hostSeed
  obtain ⟨secret, hsecret⟩ := hsound.x25519_ok m.ephemeralC m.ephemeralS
  obtain ⟨sig, hsig⟩ := hsound.sign_ok m.opts.hostSeed hostPub (m.hash V hostPub secret).toList
  exact ⟨hostPub, secret, sig, hpub, hsecret, (hsound.x25519_comm _ _).symm.trans hsecret, hsig,
    hsound.verify_sign _ _ _ _ hpub hsig⟩

/-- What the client sends before it has the answer of the server. -/
def saidC (V : Verifiers) (m : Meeting) : List (List UInt8) :=
  m.chatC.first ++ [kexinitMessage m.cookieC] ++ m.chatC.second ++
    [ecdhInitMessage (V.x25519Public m.ephemeralC)]

/-- What the server sends in the clear. -/
def saidS (V : Verifiers) (m : Meeting) (hostPub : Bytes32) (sig : Signature) : List (List UInt8) :=
  Server.kexSaid m.chatS (kexinitMessage m.cookieS)
    (ecdhReplyMessage hostPub (V.x25519Public m.ephemeralS) sig)

variable {hostPub secret : Bytes32} {sig : Signature} {rest : List Arrival}

/-! ### One side after the other -/

section

variable (hbounded : m.Bounded)

include hbounded

lemma prefix_server_offer (hkeyed : Keyed V m hostPub secret sig) :
    m.chatS.first ++ [kexinitMessage m.cookieS] <+: (after (m.server V) m.startS).outbox := by
  refine wp.after (P := fun s : Server => _ <+: s.outbox) ?_
  have hchat := hbounded.chatS
  refine (Server.wp_greet hkeyed.pub hbounded.bannersC hbounded.lineC _).seq ?_
  rintro _ s rfl
  exact Server.wp_doKexWith_offer V.toSuite m.opts m.chatS rfl rfl rfl
    (by change 0 + _ ≤ uint32Max; omega)

lemma wp_client_open {Q E : Client → Prop}
    (hcarried : Carried (m.chatS.first ++ [kexinitMessage m.cookieS]) m.arrivalsC rest)
    (hrest : ∀ c, c.vClient = ourVersion → c.vServer = ourVersion →
      c.iClient = kexinitMessage m.cookieC → c.iServer = kexinitMessage m.cookieS →
      c.toConn.ends = (m.startC.toConn.ends.said (m.saidC V)).received
        (m.chatS.first.length + 1) rest →
      wp (Client.closeKexWith V m.chatC m.ephemeralC) (fun _ => Q) (fun _ => E) c) :
    wp (m.client V) (fun _ => Q) (fun _ => E) m.startC := by
  have hchatC := hbounded.chatC
  have hchatS := hbounded.chatS
  refine (Client.wp_greet hbounded.bannersS hbounded.lineS _).seq ?_
  rintro _ c rfl
  refine (Client.wp_openKexWith V m.chatC m.cookieC m.cookieS m.ephemeralC
    rfl rfl ⟨rfl, hcarried, m.chatS.noise_first, spoken_kexinitMessage _, ?_⟩ ?_).seq ?_
  · change 0 + _ < uint32Max
    omega
  · change 0 + _ ≤ uint32Max
    omega
  rintro ephemeral c' ⟨rfl, hsame, hends⟩
  refine hrest c' ?_ ?_ ?_ ?_ hends
  all_goals rw [hsame]

lemma prefix_client_open
    (hcarried : Carried (m.chatS.first ++ [kexinitMessage m.cookieS]) m.arrivalsC rest) :
    m.saidC V <+: (after (m.client V) m.startC).outbox := by
  refine wp.after (P := fun c : Client => _ <+: c.outbox) (wp_client_open hbounded hcarried ?_)
  intro c _ _ _ _ hends
  have houtbox : c.outbox = m.saidC V := congrArg Ends.outbox hends
  rw [← houtbox]
  exact (Client.moves_closeKexWith V m.chatC m.ephemeralC c).mono (fun _ _ hmoves => hmoves.outbox)
    fun _ _ hmoves => hmoves.outbox

lemma wp_server_answer (hkeyed : Keyed V m hostPub secret sig)
    (hcarried : Carried (m.saidC V) m.arrivalsS rest)
    (hrest : ∀ s, Server.Answered (((m.startS.toConn.ends.said (m.saidS V hostPub sig)).received
        (m.chatC.first.length + 1 + (m.chatC.second.length + 1)) rest).sealing
          (m.keys V hostPub secret).2) (m.hash V hostPub secret) s →
      wp (Server.awaitNewkeys (m.keys V hostPub secret).1)
        (fun _ s' => Q { s' with inKex := false }) (fun _ s' => E { s' with inKex := false }) s) :
    wp (m.server V) (fun _ => Q) (fun _ => E) m.startS := by
  have hchatC := hbounded.chatC
  have hchatS := hbounded.chatS
  refine (Server.wp_greet hkeyed.pub hbounded.bannersC hbounded.lineC _).seq ?_
  rintro _ s rfl
  rw [saidC, append_assoc] at hcarried
  obtain ⟨mid, hoffer, hpublic⟩ := hcarried.split
  refine Server.wp_doKexWith V.toSuite m.opts m.chatS rfl rfl rfl rfl rfl
    ⟨rfl, hoffer, m.chatC.noise_first, spoken_kexinitMessage _, ?_⟩
    ⟨rfl, hpublic, m.chatC.noise_second, spoken_ecdhInitMessage _, ?_⟩
    ?_ hkeyed.secretS rfl rfl hkeyed.sign hrest
  · change 0 + _ < uint32Max
    omega
  · change 0 + _ + _ < uint32Max
    omega
  · change 0 + _ ≤ uint32Max
    omega

lemma prefix_server_answer (hkeyed : Keyed V m hostPub secret sig)
    (hcarried : Carried (m.saidC V) m.arrivalsS rest) :
    m.saidS V hostPub sig <+: (after (m.server V) m.startS).outbox := by
  refine wp.after (P := fun s : Server => _ <+: s.outbox) (wp_server_answer hbounded hkeyed hcarried ?_)
  intro s hanswered
  have houtbox : s.outbox = m.saidS V hostPub sig := congrArg Ends.outbox hanswered.ends
  rw [← houtbox]
  exact (Server.exchanges_moves.awaitNewkeys _ s).mono (fun _ _ hmoves => hmoves.conn.outbox)
    fun _ _ hmoves => hmoves.conn.outbox

end

lemma newkeys_not_mem_saidC : [msgNewkeys] ∉ m.saidC V := by
  simp [saidC, newkeys_not_mem, kexinitMessage, ecdhInitMessage,
    show msgNewkeys ≠ msgKexEcdhInit by decide]

lemma newkeys_not_mem_closingC : [msgNewkeys] ∉ m.saidC V ++ m.chatC.third := by
  rw [mem_append, not_or]
  exact ⟨newkeys_not_mem_saidC, (newkeys_not_mem _).2.2⟩

lemma newkeys_not_mem_saidS : [msgNewkeys] ∉ m.chatS.first ++ [kexinitMessage m.cookieS] ++
    m.chatS.second ++ [ecdhReplyMessage hostPub (V.x25519Public m.ephemeralS) sig] ++
      m.chatS.third := by
  simp [newkeys_not_mem, kexinitMessage, ecdhReplyMessage,
    show msgNewkeys ≠ msgKexEcdhReply by decide]

lemma wp_client (hbounded : m.Bounded) (hkeyed : Keyed V m hostPub secret sig)
    (hcarried : Carried (m.saidS V hostPub sig) m.arrivalsC rest) :
    wp (m.client V)
      (fun _ c => c.sessionId = m.hash V hostPub secret ∧
        c.outbox = m.saidC V ++ (m.chatC.third ++ [[msgNewkeys]]) ∧
        c.outCipher = { key := some (m.keys V hostPub secret).1
                        seq := (m.saidC V ++ (m.chatC.third ++ [[msgNewkeys]])).length } ∧
        c.inCipher = { key := some (m.keys V hostPub secret).2
                       seq := (m.saidS V hostPub sig).length })
      (fun _ _ => False) m.startC := by
  have hchatC := hbounded.chatC
  have hchatS := hbounded.chatS
  have hsaidS : m.saidS V hostPub sig = (m.chatS.first ++ [kexinitMessage m.cookieS]) ++
      ((m.chatS.second ++ [ecdhReplyMessage hostPub (V.x25519Public m.ephemeralS) sig]) ++
        (m.chatS.third ++ [[msgNewkeys]])) := by
    simp [saidS, Server.kexSaid]
  rw [hsaidS] at hcarried
  obtain ⟨_, hoffer, hanswer⟩ := hcarried.split
  obtain ⟨mid, hreply, hnewkeys⟩ := hanswer.split
  refine wp_client_open hbounded hoffer ?_
  intro c hvClient hvServer hiClient hiServer hends
  refine (Client.wp_closeKexWith V m.chatC hends rfl
    ⟨rfl, hreply, m.chatS.noise_second, spoken_ecdhReplyMessage _ _ _, ?_⟩
    ⟨rfl, hnewkeys, m.chatS.noise_third, spoken_newkeys, ?_⟩ ?_ hkeyed.secretC ?_
    hkeyed.verify).mono ?_ fun _ _ hfalse => hfalse
  · change 0 + _ + _ < uint32Max
    omega
  · change 0 + _ + _ + _ < uint32Max
    omega
  · change 0 + (saidC V m).length + _ ≤ uint32Max
    simp only [saidC, length_append, length_singleton]
    omega
  · rw [hvClient, hvServer, hiClient, hiServer, exchange]
  rintro _ c' ⟨hid, -, hends'⟩
  refine ⟨hid, ?_, ?_, ?_⟩
  · refine (congrArg Ends.outbox hends').trans ?_
    rfl
  · refine (congrArg Ends.outCipher hends').trans ?_
    simp [sealing, received, said, startC, Client.start, Conn.init, ends]
    rfl
  · refine (congrArg Ends.inCipher hends').trans ?_
    rw [hsaidS]
    simp [opening, sealing, received, said, startC, Client.start, Conn.init, ends]
    exact ⟨rfl, by omega⟩

lemma wp_server (hbounded : m.Bounded) (hkeyed : Keyed V m hostPub secret sig)
    (hcarried : Carried (m.saidC V ++ (m.chatC.third ++ [[msgNewkeys]])) m.arrivalsS rest) :
    wp (m.server V)
      (fun _ s => s.sessionId = m.hash V hostPub secret ∧
        s.outbox = m.saidS V hostPub sig ++ [extInfoMessage] ∧
        s.inCipher = { key := some (m.keys V hostPub secret).1
                       seq := (m.saidC V ++ (m.chatC.third ++ [[msgNewkeys]])).length } ∧
        s.outCipher = { key := some (m.keys V hostPub secret).2
                        seq := (m.saidS V hostPub sig).length + 1 })
      (fun _ _ => False) m.startS := by
  have hchatC := hbounded.chatC
  have hchatS := hbounded.chatS
  have hlenS : (m.saidS V hostPub sig).length =
      m.chatS.first.length + m.chatS.second.length + m.chatS.third.length + 3 := by
    simp only [saidS, Server.kexSaid, length_append, length_singleton]
    omega
  obtain ⟨mid, hopen, hclose⟩ := hcarried.split
  refine wp_server_answer hbounded hkeyed hopen ?_
  intro s hanswered
  refine (Server.wp_awaitNewkeys hanswered rfl
    ⟨rfl, hclose, m.chatC.noise_third, spoken_newkeys, ?_⟩ ?_).mono ?_ fun _ _ hfalse => hfalse
  · change 0 + _ + _ < uint32Max
    omega
  · change 0 + _ < uint32Max
    omega
  rintro _ s' ⟨hid, hends⟩
  refine ⟨hid, congrArg Ends.outbox hends, ?_, ?_⟩
  · refine (congrArg Ends.inCipher hends).trans ?_
    simp only [opening, sealing, received, said, startS, Server.start, Server.plain, Conn.init,
      ends, saidC, length_append, length_singleton, Cipher.mk.injEq, true_and]
    omega
  · refine (congrArg Ends.outCipher hends).trans ?_
    simp only [opening, sealing, received, said, startS, Server.start, Server.plain, Conn.init,
      ends, length_singleton, Nat.zero_add]

/-- The two sides agree. The server has sent one packet more, which the client has not read yet. -/
structure Agreed (V : Verifiers) (c : Client) (s : Server) : Prop where
  /-- The id of the session is the hash of one exchange, and the keys are derived from it. -/
  exchange : ∃ x : Exchange, c.sessionId = exchangeHash V.toSuite x ∧
    s.sessionId = exchangeHash V.toSuite x ∧
    c.outCipher.key = some (deriveKeys V.toSuite x.secret c.sessionId c.sessionId).1 ∧
    c.inCipher.key = some (deriveKeys V.toSuite x.secret c.sessionId c.sessionId).2
  toServer : s.inCipher = c.outCipher
  toClient : s.outCipher = { c.inCipher with seq := c.inCipher.seq + 1 }
  extInfo : s.outbox.getLast? = some extInfoMessage
  /-- Every later packet is decoded. -/
  decodesS : ∀ (P : PacketSuite) (sent : List Padded) (packets : List (List UInt8)),
    encodeAll P c.outCipher sent = .ok packets →
      decodeAll P s.inCipher packets = .ok (sent.map Padded.payload)
  decodesC : ∀ (P : PacketSuite) (ext : Padded) (sent : List Padded) (packets : List (List UInt8)),
    ext.payload = extInfoMessage →
    encodeAll P { s.outCipher with seq := s.outCipher.seq - 1 } (ext :: sent) = .ok packets →
      decodeAll P c.inCipher packets = .ok (extInfoMessage :: sent.map Padded.payload)

/-- Over a faithful transport both sides finish, and they agree. -/
theorem agrees_of_faithful (hsound : V.Sound) (hbounded : m.Bounded) (hfaithful : m.Faithful V) :
    ∃ c s, m.client V m.startC = .ok () c ∧ m.server V m.startS = .ok () s ∧ Agreed V c s := by
  obtain ⟨hostPub, secret, sig, hkeyed⟩ := exists_keyed hsound m
  -- each side gets further with what the other one has sent so far
  have hoffer : [msgNewkeys] ∉ m.chatS.first ++ [kexinitMessage m.cookieS] := by
    simp [newkeys_not_mem, kexinitMessage]
  obtain ⟨_, hcarried1⟩ := hfaithful.toClient.carried (prefix_server_offer hbounded hkeyed) hoffer
  obtain ⟨_, hcarried2⟩ := hfaithful.toServer.carried (prefix_client_open hbounded hcarried1)
    newkeys_not_mem_saidC
  obtain ⟨_, hcarried3⟩ := hfaithful.toClient.carried_newkeys
    (prefix_server_answer hbounded hkeyed hcarried2) newkeys_not_mem_saidS
  obtain ⟨_, c, hclient, hidC, houtboxC, houtC, hinC⟩ :=
    (wp_client hbounded hkeyed hcarried3).exists_ok
  have hafter : after (m.client V) m.startC = c := by rw [after, hclient]
  have hsent : m.saidC V ++ m.chatC.third ++ [[msgNewkeys]] <+:
      (after (m.client V) m.startC).outbox := by
    rw [hafter, houtboxC, append_assoc]
  obtain ⟨_, hcarried4⟩ := hfaithful.toServer.carried_newkeys hsent newkeys_not_mem_closingC
  rw [append_assoc] at hcarried4
  obtain ⟨_, s, hserver, hidS, houtboxS, hinS, houtS⟩ :=
    (wp_server hbounded hkeyed hcarried4).exists_ok
  have htoServer : s.inCipher = c.outCipher := hinS.trans houtC.symm
  have htoClient : s.outCipher = { c.inCipher with seq := c.inCipher.seq + 1 } := by
    rw [houtS, hinC]
  refine ⟨c, s, hclient, hserver, ?_, htoServer, htoClient, ?_, ?_, ?_⟩
  · refine ⟨m.exchange V hostPub secret, hidC, hidS, ?_, ?_⟩
    · rw [houtC, hidC]
      rfl
    · rw [hinC, hidC]
      rfl
  · rw [houtboxS, getLast?_concat]
  · intro P sent packets hencode
    rw [htoServer]
    exact decodeAll_encodeAll P hencode
  · intro P ext sent packets hext hencode
    rw [htoClient] at hencode
    rw [← hext]
    exact decodeAll_encodeAll P hencode

/-! ### Examples -/

/-- Primitives without secrets that both sides can use: sums of bytes. -/
def sumVerifiers : Verifiers :=
  { plainVerifiers with
    sha256 := fun bytes => .replicate _ bytes.sum
    x25519Public := id
    x25519 := fun a b => .ok (Vector.zipWith (· + ·) a b)
    ed25519Sign := fun _ _ _ => .ok (.replicate _ 1) }

lemma sound_sumVerifiers : sumVerifiers.Sound where
  x25519_comm := fun a b => congrArg Except.ok
    (Vector.zipWith_comm_of_comm fun x y => UInt8.add_comm x y)
  x25519_ok := fun _ _ => ⟨_, rfl⟩
  public_ok := fun _ => ⟨_, rfl⟩
  sign_ok := fun _ _ _ => ⟨_, rfl⟩
  verify_sign := by
    intro seed pub msg sig _ hsign
    obtain rfl := Except.ok.inj hsign
    simp [sumVerifiers, plainVerifiers]

/-- A meeting at which each side says this besides its messages, before anything has arrived. -/
def plain (bannersC bannersS : List Banner) (chat : Chatter) : Meeting :=
  { opts := Server.plainOpts, bannersC, bannersS, chatC := chat, chatS := chat
    cookieC := .replicate _ 0, cookieS := .replicate _ 1, ephemeralC := .replicate _ 2
    ephemeralS := .replicate _ 3, arrivalsC := [], arrivalsS := [] }

lemma carried_packets (ms : List (List UInt8)) : Carried ms (ms.map (.packet false)) [] := by
  induction ms with
  | nil => exact .nil _
  | cons m rest ih =>
    exact .cons ⟨replicate (paddingFor m.length false) 0, length_replicate, by
      simp [Arrival.packet, regionOf]⟩ ih

lemma faithful_of_packets
    (hC : m.arrivalsC = (throughNewkeys (after (m.server V) m.startS).outbox).map (.packet false))
    (hS : m.arrivalsS = (throughNewkeys (after (m.client V) m.startC).outbox).map (.packet false)) :
    m.Faithful V :=
  ⟨⟨[], hC ▸ carried_packets _⟩, ⟨[], hS ▸ carried_packets _⟩⟩

/-- One side says something that means nothing before each of its messages. -/
def ignoring : Chatter :=
  { first := [[msgIgnore]], second := [[msgDebug]], third := [[msgUnimplemented]]
    noise := by simp [Noise, Server.isNoise, maxPayload] }

def plainBanner : Banner :=
  { line := ascii "hello\r", notLf := by decide +kernel, notVersion := by decide +kernel }

/-- A meeting with lines before the versions and packets that say nothing, over a faithful transport. -/
def noisy : Meeting :=
  { plain [plainBanner] [plainBanner] ignoring with
    arrivalsC := ((plain [] [] ignoring).saidS sumVerifiers (.replicate _ 0) (.replicate _ 1)).map
      (.packet false)
    arrivalsS := ((plain [] [] ignoring).saidC sumVerifiers ++ [[msgUnimplemented], [msgNewkeys]]).map
      (.packet false) }

lemma faithful_noisy : noisy.Faithful sumVerifiers :=
  faithful_of_packets (by decide +kernel) (by decide +kernel)

lemma bounded_noisy : noisy.Bounded where
  bannersC := by decide
  bannersS := by decide
  lineC := by decide +kernel
  lineS := by decide +kernel
  chatC := by decide
  chatS := by decide

/-- Both sides of this meeting agree. -/
theorem agrees_of_faithful_noisy : ∃ c s, noisy.client sumVerifiers noisy.startC = .ok () c ∧
    noisy.server sumVerifiers noisy.startS = .ok () s ∧ Agreed sumVerifiers c s :=
  agrees_of_faithful sound_sumVerifiers bounded_noisy faithful_noisy

def crowded (banners : List Banner) : Meeting :=
  { plain [] banners .silent with arrivalsC := [.packet false (kexinitMessage (.replicate _ 1))] }

def longBanner : Banner :=
  { line := replicate 256 0x20, notLf := by decide +kernel, notVersion := by decide +kernel }

def endless (n : ℕ) : Chatter :=
  { first := replicate n [msgIgnore], second := [], third := []
    noise := by
      intro m hm
      simp only [append_nil] at hm
      rw [eq_of_mem_replicate hm]
      exact ⟨by decide, by decide⟩ }

lemma wp_say_endless {c : Conn} (houtcomes : c.outcomes = []) (hseq : c.outCipher.seq ≤ uint32Max)
    (hmore : uint32Max < c.outCipher.seq + ms.length) (hlen : ∀ m ∈ ms, m.length ≤ maxPayload) :
    wp (say ms) (fun _ _ => False)
      (fun e c' => e = .toomany ∧
        c'.outbox = c.outbox ++ ms.take (uint32Max - c.outCipher.seq)) c := by
  induction ms generalizing c with
  | nil =>
    rw [length_nil] at hmore
    omega
  | cons m rest ih =>
    rw [length_cons] at hmore
    rw [say, wp_bind]
    by_cases hlast : c.outCipher.seq = uint32Max
    · rw [sendPacket, wp_bind, wp_get, if_pos hlast, failSend, wp_bind, wp_modify]
      simp [hlast]
    refine (wp_sendPacket_ends rfl houtcomes (Nat.lt_of_le_of_ne hseq hlast)
      (hlen m mem_cons_self)).mono ?_ fun _ _ hfalse => hfalse.elim
    intro _ c' hends
    have hout : c'.outCipher.seq = c.outCipher.seq + 1 := congrArg (·.outCipher.seq) hends
    have hbox : c'.outbox = c.outbox ++ [m] := congrArg Ends.outbox hends
    refine (ih ((congrArg Ends.outcomes hends).trans houtcomes) (by omega) (by omega)
      fun m' hm' => hlen m' (mem_cons_of_mem m hm')).mono (fun _ _ hfalse => hfalse) ?_
    rintro e c'' ⟨he, hbox'⟩
    refine ⟨he, ?_⟩
    have hsucc : uint32Max - c.outCipher.seq = uint32Max - c'.outCipher.seq + 1 := by omega
    rw [hbox', hbox, hsucc, take_succ_cons, append_assoc, singleton_append]

/-- The meeting with a client that says more than there are sequence numbers for. The server has got what
could be sent. -/
def overrun (limit : ℕ) (arrivalsC : List Arrival) : Meeting :=
  { plain [] [] .silent with
    chatC := endless (limit + 1), arrivalsC
    arrivalsS := (replicate limit [msgIgnore]).map (.packet false) }

lemma wp_client_endless (hbanners : m.bannersS = []) (hmore : uint32Max < m.chatC.first.length) :
    wp (m.client V) (fun _ _ => False)
      (fun e c => e = .toomany ∧ c.outbox = m.chatC.first.take uint32Max) m.startC := by
  rw [client, wp_bind, hbanners]
  refine (@Client.wp_greet [] (by decide) (by simp) _).mono ?_ fun _ _ hfalse => hfalse.elim
  rintro _ c rfl
  rw [Client.doKexWith, wp_bind, Client.openKexWith, wp_bind, Client.onConn, wp_zoom]
  refine (wp_say_endless rfl (Nat.zero_le _) ?_ fun x hx =>
    (m.chatC.noise_first x hx).2).mono (fun _ _ hfalse => hfalse.elim) ?_
  · omega
  · rintro e c ⟨he, hbox⟩
    refine ⟨he, ?_⟩
    exact hbox

/-- How far the server is ahead of the client at the end, if both finish. -/
def ahead (V : Verifiers) (m : Meeting) : Option ℕ :=
  match m.client V m.startC, m.server V m.startS with
  | .ok _ c, .ok _ s => some (s.outCipher.seq - c.inCipher.seq)
  | _, _ => none

def Stuck (V : Verifiers) (m : Meeting) : Prop :=
  m.Faithful V ∧ failsWith .toomany (m.client V) m.startC = true

lemma stuck_crowded (hserver : (crowded banners).arrivalsC = (throughNewkeys
      (after ((crowded banners).server sumVerifiers) (crowded banners).startS).outbox).map
        (.packet false))
    (hclient : (after ((crowded banners).client sumVerifiers) (crowded banners).startC).outbox = [])
    (hfails : failsWith .toomany ((crowded banners).client sumVerifiers) (crowded banners).startC =
      true) : (crowded banners).Stuck sumVerifiers := by
  refine ⟨faithful_of_packets hserver ?_, hfails⟩
  rw [hclient]
  rfl

lemma stuck_endless (hlimit : limit = uint32Max) (hbanners : m.bannersS = [])
    (hfirst : m.chatC.first = replicate (limit + 1) [msgIgnore])
    (hS : m.arrivalsS = (replicate limit [msgIgnore]).map (.packet false))
    (hC : m.arrivalsC = (throughNewkeys (after (m.server V) m.startS).outbox).map (.packet false)) :
    m.Stuck V := by
  have hmore : uint32Max < m.chatC.first.length := by
    rw [hfirst, length_replicate, ← hlimit]
    exact Nat.lt_succ_self limit
  have hclient : wp (m.client V) (fun _ _ => False)
      (fun e c => e = .toomany ∧ c.outbox = replicate limit [msgIgnore]) m.startC := by
    refine (wp_client_endless hbanners hmore).mono (fun _ _ hfalse => hfalse) ?_
    rintro e c ⟨he, hbox⟩
    refine ⟨he, ?_⟩
    rw [hbox, hfirst, take_replicate, ← hlimit, Nat.min_eq_left (Nat.le_succ _)]
  have hnot : [msgNewkeys] ∉ replicate limit [msgIgnore] := by
    intro hmem
    exact absurd (eq_of_mem_replicate hmem) (by decide)
  have hthrough := throughNewkeys_append hnot []
  rw [append_nil] at hthrough
  have hsent : (after (m.client V) m.startC).outbox = replicate limit [msgIgnore] :=
    (hclient.mono (fun _ _ hfalse => hfalse.elim) fun _ _ h => h.2).after
  refine ⟨faithful_of_packets hC ?_, ?_⟩
  · rw [hsent, hthrough, throughNewkeys, append_nil, hS]
  · exact (hclient.mono (fun _ _ hfalse => hfalse) fun _ _ h => h.1).failsWith_of_error

lemma after_server_overrun (V : Verifiers) (limit : ℕ) (a b : List Arrival) :
    after ((overrun limit a).server V) (overrun limit a).startS =
      after ((overrun limit b).server V) (overrun limit b).startS := rfl

lemma stuck_overrun (V : Verifiers) (hlimit : limit = uint32Max) :
    ∃ arrivalsC, (overrun limit arrivalsC).Stuck V := by
  obtain ⟨sent, hsent⟩ : ∃ sent, sent =
      (after ((overrun limit []).server V) (overrun limit []).startS).outbox := ⟨_, rfl⟩
  refine ⟨(throughNewkeys sent).map (.packet false), stuck_endless hlimit rfl rfl rfl ?_⟩
  rw [after_server_overrun, ← hsent]
  rfl

/-- Over a faithful transport the server ends one packet ahead of the client. The client does not finish
if there are too many lines before the version, if one of them is too long, or if there are too many
packets. -/
theorem not_agrees_beyond_limits : sumVerifiers.Sound ∧
    (noisy.Faithful sumVerifiers ∧ noisy.ahead sumVerifiers = some 1) ∧
    (crowded (replicate 64 plainBanner)).Stuck sumVerifiers ∧
    (crowded [longBanner]).Stuck sumVerifiers ∧
    ∃ arrivalsC, (overrun uint32Max arrivalsC).Stuck sumVerifiers :=
  ⟨sound_sumVerifiers, ⟨faithful_noisy, by decide +kernel⟩,
    stuck_crowded (by decide +kernel) (by decide +kernel) (by decide +kernel),
    stuck_crowded (by decide +kernel) (by decide +kernel) (by decide +kernel), stuck_overrun _ rfl⟩

end Meeting

end Ssh
