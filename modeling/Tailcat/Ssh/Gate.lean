import Tailcat.Ssh.Moves

/-!
# Who gets in

The callbacks of the application are invoked only after a client has shown that it holds an authorized
key: the signature is over the id of the session, which is the hash of the first key exchange.

## Main results

* `Server.wp_doAuth`: authentication ends with a request that was verified;
* `callbacks_authenticated`: so the callbacks come after one.
-/

namespace Ssh

open Program Conn

namespace Server

/-! ## The first exchange -/

/-- The id of the session is the hash of the exchange whose offers are still there. -/
def FirstExchange (S : Suite) (s : Server) : Prop :=
  ∃ qClient qServer secret, s.sessionId = exchangeHash S
    { vClient := s.vClient, vServer := s.vServer, iClient := s.iClient, iServer := s.iServer
      kServer := s.hostBlob, qClient, qServer, secret }

/-- During a key exchange nothing changes of what is hashed. -/
def SameExchange (s s' : Server) : Prop :=
  s.inKex = true → s'.inKex = true ∧ s'.kexDone = s.kexDone ∧ s'.sessionId = s.sessionId ∧
    s'.vClient = s.vClient ∧ s'.vServer = s.vServer ∧ s'.iClient = s.iClient ∧
    s'.iServer = s.iServer ∧ s'.hostBlob = s.hostBlob

instance : Std.Refl SameExchange := ⟨fun _ h => ⟨h, rfl, rfl, rfl, rfl, rfl, rfl, rfl⟩⟩

instance : IsTrans Server SameExchange := by
  refine ⟨fun _ _ _ h h' hkex => ?_⟩
  obtain ⟨hkex1, h1, h2, h3, h4, h5, h6, h7⟩ := h hkex
  obtain ⟨hkex2, h1', h2', h3', h4', h5', h6', h7'⟩ := h' hkex1
  exact ⟨hkex2, h1'.trans h1, h2'.trans h2, h3'.trans h3, h4'.trans h4, h5'.trans h5, h6'.trans h6,
    h7'.trans h7⟩

variable {s s' : Server}

lemma FirstExchange.of_same {S : Suite} (h : FirstExchange S s) (hkex : s.inKex = true)
    (hsame : SameExchange s s') : FirstExchange S s' := by
  obtain ⟨qClient, qServer, secret, hid⟩ := h
  obtain ⟨-, -, h2, h3, h4, h5, h6, h7⟩ := hsame hkex
  exact ⟨qClient, qServer, secret, by rw [h2, h3, h4, h5, h6, h7, hid]⟩

lemma exchange_onConn (x : EStateM Err Conn α) : Within SameExchange (onConn x) := by
  intro s
  rw [onConn, wp_zoom, wp]
  split
  · exact fun h => ⟨h, rfl, rfl, rfl, rfl, rfl, rfl, rfl⟩
  · exact fun h => ⟨h, rfl, rfl, rfl, rfl, rfl, rfl, rfl⟩

lemma exchange_recvInKex : Within SameExchange recvInKex := by
  refine within_recvWith (fun _ => exchange_onConn _)
    (fun _ h => ⟨h, rfl, rfl, rfl, rfl, rfl, rfl, rfl⟩) (fun _ => exchange_onConn _) ?_
  -- an offer is taken for a new exchange only outside of one
  exact fun s n hfree hkex => absurd (hfree.symm.trans hkex) (by simp)

def Opening (s : Server) : Prop := s.inKex = true ∧ s.kexDone = false

lemma Opening.same (h : Opening s) (hsame : SameExchange s s') : Opening s' :=
  ⟨(hsame h.1).1, (hsame h.1).2.1.trans h.2⟩

variable {auth : AuthOpts} {s : Server} (S : Suite) (V : Verifiers) (opts : ServerOpts)

lemma wp_answerEcdh (draw : KexDraw) (h : Opening s) :
    wp (answerEcdh S opts draw) (fun _ s' => Opening s' ∧ FirstExchange S s') (fun _ _ => True) s := by
  refine (exchange_recvInKex s).andThen fun n s1 hsame1 => ?_
  have h1 := h.same hsame1
  rw [wp_bind, wp_get]
  split
  · exact trivial
  refine wp_ofExcept_andThen fun qClient => wp_ofExcept_andThen fun ephemeral => ?_
  refine wp_ofExcept_andThen fun secret => ?_
  refine wp_ofExcept_andThen fun sig => wp_ofExcept_andThen fun sigBlob => ?_
  refine wp_ofExcept_andThen fun reply => ?_
  refine (exchange_onConn _ s1).andThen fun _ s2 hsame2 => ?_
  have h2 := h1.same hsame2
  obtain ⟨-, -, -, hvClient, hvServer, hiClient, hiServer, hhostBlob⟩ := hsame2 h1.1
  rw [wp_bind, wp_modify, wp_bind, wp_get]
  refine ⟨h2, qClient, S.x25519Public ephemeral, secret, ?_⟩
  -- what was hashed is still there
  rw [if_neg (by simp [h2.2])]
  rw [hvClient, hvServer, hiClient, hiServer, hhostBlob]

lemma wp_changeKeys {S : Suite} (c2s s2c : CipherKey) (h : Opening s) (hfirst : FirstExchange S s) :
    wp (changeKeys c2s s2c) (fun _ s' => s'.kexDone = true ∧ FirstExchange S s') (fun _ _ => True)
      s := by
  refine (exchange_onConn _ s).andThen fun _ s1 hsame1 => ?_
  have h1 := h.same hsame1
  have hfirst1 := hfirst.of_same h.1 hsame1
  refine (exchange_recvInKex _).andThen fun n s2 hsame2 => ?_
  have hfirst2 : FirstExchange S s2 := FirstExchange.of_same hfirst1 h1.1 hsame2
  rw [wp_bind, wp_get]
  split
  · exact trivial
  rw [wp_bind, wp_modify]
  split
  · exact ⟨rfl, hfirst2⟩
  unfold sendExtInfo
  split
  · exact ⟨rfl, hfirst2⟩
  -- only the packet layer is left to do something
  rw [wp_bind, wp_attempt, onConn, wp_zoom, wp]
  split
  · exact ⟨rfl, hfirst2⟩
  · exact ⟨rfl, hfirst2⟩

lemma wp_kexExchange (h : s.kexDone = false) :
    wp (kexExchange S opts) (fun _ s' => s'.kexDone = true ∧ FirstExchange S s') (fun _ _ => True)
      s := by
  unfold kexExchange exchangeKeys
  rw [wp_bind, wp_modify, wp_ensuring, wp_bind, wp_get, wp_bind, wp_modify, wp_bind]
  rw [offerKeys, if_neg (by simp [h]), wp_pure, wp_bind]
  refine wp_ofExcept_andThen fun neg => ?_
  have hdiscard : Within SameExchange (discardGuess neg) :=
    .ite (exchange_recvInKex.bind fun _ => .pure _) (.pure _)
  refine (hdiscard _).andThen fun _ s1 hsame1 => ?_
  have h1 : Opening s1 := Opening.same (by exact ⟨rfl, h⟩) hsame1
  refine (wp_answerEcdh S opts _ h1).andThen ?_
  rintro ⟨c2s, s2c⟩ s2 ⟨h2, hfirst2⟩
  exact wp_changeKeys c2s s2c h2 hfirst2

/-- The id of the session is the hash of the first exchange. -/
theorem wp_doKex (h : s.kexDone = false) :
    wp (doKex S opts) (fun _ s' => s'.kexDone = true ∧ FirstExchange S s') (fun _ _ => True) s := by
  unfold doKex
  refine wp_ofExcept_andThen fun iServer => ?_
  rw [wp_bind, wp_modify, wp_bind, wp_ensuring]
  refine (exchange_onConn _ _).andThen fun _ s1 hsame1 => ?_
  have h1 : Opening s1 := Opening.same (by exact ⟨rfl, h⟩) hsame1
  refine (exchange_recvInKex s1).andThen fun n s2 hsame2 => ?_
  have h2 := h1.same hsame2
  rw [wp_bind, wp_get]
  split
  · exact trivial
  split
  · exact trivial
  exact wp_kexExchange S opts h2.2

/-! ## Authentication -/

/-- The packet is a request that is signed by an authorized key. -/
def Admits (V : Verifiers) (authorized : List (List UInt8)) (sessionId : Bytes32)
    (payload : List UInt8) : Prop :=
  ∃ req, authParse payload = .ok req ∧ req.Signed V authorized sessionId

def Admitted (V : Verifiers) (auth : AuthOpts) (sessionId : Bytes32) (taken : List Taken) : Prop :=
  ∃ t ∈ taken, Admits V auth.authorized sessionId t.payload

lemma Admitted.moves {V : Verifiers} {id : Bytes32} (h : Admitted V auth id s.taken)
    (hmoves : Moves s s') : Admitted V auth id s'.taken := by
  obtain ⟨t, ht, hadmits⟩ := h
  exact ⟨t, hmoves.conn.taken.subset ht, hadmits⟩

lemma Received.exists_taken {n : ℕ} (h : Received s n s') :
    ∃ t ∈ s'.taken, t.payload = s'.payload.take n := by
  obtain ⟨-, -, -, new, payload, -, -, -, hpayload, heffect⟩ := h
  refine ⟨{ payload, inKex := s.inKex, channelOpen := s.ch.isOpen }, ?_, hpayload.symm⟩
  rw [heffect.taken]
  simp

section

variable (hauth : auth.anyKeyAuthenticates = false)

include hauth

lemma wp_answerRequest
    {req : AuthRequest} {payload : List UInt8} (hreq : authParse payload = .ok req) (s : Server) :
    wp (answerRequest V auth req)
      (fun r s' => Moves s s' ∧ (r = .inr () → Admits V auth.authorized s.sessionId payload))
      (fun _ s' => Moves s s') s := by
  -- whatever is sent, the loop goes on
  have hsend : ∀ built, wp (sendBuilt built >>= fun _ => pure (Sum.inl ()))
      (fun (r : Unit ⊕ Unit) s' =>
        Moves s s' ∧ (r = .inr () → Admits V auth.authorized s.sessionId payload))
      (fun _ s' => Moves s s') s := by
    intro built
    rw [wp_bind]
    exact (moves_sendBuilt built s).mono (fun _ _ h => ⟨h, by simp⟩) fun _ _ h => h
  unfold answerRequest
  split
  · rw [if_neg (by simp [hauth])]
    exact hsend _
  split
  · exact hsend _
  rw [wp_bind, wp_get]
  split
  · next hchecks =>
    rw [wp_bind]
    refine (moves_sendBuilt _ s).mono (fun _ _ h => ⟨h, fun _ => ?_⟩) fun _ _ h => h
    unfold checks at hchecks
    rw [if_neg (by simp [hauth])] at hchecks
    cases hcheck : authCheck V req s.sessionId auth.authorized with
    | error e => simp [hcheck, Except.toBool] at hchecks
    | ok _ => exact ⟨req, hreq, authCheck_ok hcheck⟩
  · exact hsend _

lemma wp_authStep (hdone : s.kexDone = true) :
    wp (authStep V opts auth ())
      (fun r s' => Moves s s' ∧ (r = .inr () → Admitted V auth s.sessionId s'.taken))
      (fun _ s' => Moves s s') s := by
  unfold authStep
  rw [wp_bind]
  refine ((moves_recvPacket V.toSuite opts s).and (wp_recvPacket V.toSuite opts s)).mono ?_
    fun _ _ h => h.1
  rintro n s1 ⟨hmoves1, hreceived⟩
  rw [wp_bind, wp_get]
  split
  · rw [wp_bind]
    refine (moves_sendUnimplemented _ s1).mono (fun _ s2 h => ⟨hmoves1.trans h, by simp⟩) fun _ s2 h => ?_
    exact hmoves1.trans h
  refine wp_ofExcept_bind (fun req hreq => ?_) fun _ _ => hmoves1
  refine (wp_answerRequest V hauth hreq s1).mono ?_ fun _ s2 h => hmoves1.trans h
  rintro r s2 ⟨hmoves2, hadmits⟩
  refine ⟨hmoves1.trans hmoves2, fun hr => ?_⟩
  -- the request is the packet that was just received
  obtain ⟨t, ht, hpayload⟩ := hreceived.exists_taken
  have hadmitted : Admitted V auth s.sessionId s1.taken := by
    refine ⟨t, ht, ?_⟩
    rw [hpayload, ← (hmoves1.session hdone).2]
    exact hadmits hr
  exact hadmitted.moves hmoves2

/-- Authentication ends with a request that was verified. -/
theorem wp_doAuth (hdone : s.kexDone = true) :
    wp (doAuth V opts auth)
      (fun _ s' => Moves s s' ∧ Admitted V auth s.sessionId s'.taken) (fun _ s' => Moves s s') s := by
  refine (moves_acceptService _ opts s).bind ?_
  intro _ s1 hmoves1
  refine wp_loop_of_out (I := fun _ s' => Moves s s') ?_ ?_ hmoves1
  · intro _ s2 hmoves2
    obtain ⟨hdone2, hid2⟩ := hmoves2.session hdone
    refine (wp_authStep V opts hauth hdone2).mono ?_ fun _ s3 h => hmoves2.trans h
    rintro r s3 ⟨hmoves3, hadmitted⟩
    have hmoves : Moves s s3 := hmoves2.trans hmoves3
    cases r with
    | inl _ => exact hmoves
    | inr _ => exact ⟨hmoves, hid2 ▸ hadmitted rfl⟩
  · intro _ s2 hmoves2
    exact hmoves2

end

/-! ## The session -/

lemma wp_openKeys (g : Greeting) (h : s.kexDone = false) :
    wp (openKeys V opts g) (fun _ s' => s'.kexDone = true ∧ FirstExchange V.toSuite s')
      (fun _ _ => True) s := by
  unfold openKeys
  rw [wp_bind]
  refine wp_ofExcept_andThen fun hostPub => wp_ofExcept_andThen fun hostBlob => ?_
  refine wp_ofExcept_andThen fun line => wp_ofExcept_andThen fun _ => ?_
  refine wp_ofExcept_andThen fun version => wp_ofExcept_andThen fun _ => ?_
  exact wp_doKex V.toSuite opts h

end Server

/-! ## Runs -/

namespace ServerRun

open Server

/-- The session is the given one, and every callback was invoked after a packet that admits. -/
def Gated (V : Verifiers) (auth : AuthOpts) (sessionId : Bytes32) (r : ServerRun) : Prop :=
  r.sessionId = sessionId ∧ ∀ i ∈ r.invoked, Admitted V auth sessionId i.taken

variable {V : Verifiers} {auth : AuthOpts} {id : Bytes32} {r : ServerRun}

lemma Gated.invoke (h : Gated V auth id r) (hadmitted : Admitted V auth id r.taken)
    (callback : Callback) :
    Gated V auth id { r with invoked := r.invoked ++ [{ callback, taken := r.taken }] } := by
  refine ⟨h.1, List.forall_mem_append.mpr ⟨h.2, ?_⟩⟩
  intro i hi
  obtain rfl := List.mem_singleton.mp hi
  exact hadmitted

lemma wp_onServer {x : ServerM α} (hx : Within Server.Moves x) (h : Gated V auth id r)
    (hdone : r.kexDone = true) (hadmitted : Admitted V auth id r.taken) :
    wp (onServer x)
      (fun _ r' => Gated V auth id r' ∧ r'.kexDone = true ∧ Admitted V auth id r'.taken)
      (fun _ r' => Gated V auth id r') r := by
  rw [onServer, wp_zoom]
  refine (hx r.toServer).mono ?_ ?_
  · intro _ s' hmoves
    obtain ⟨hdone', hid'⟩ := hmoves.session hdone
    exact ⟨⟨hid'.trans h.1, h.2⟩, hdone', hadmitted.moves hmoves⟩
  · intro _ s' hmoves
    exact ⟨(hmoves.session hdone).2.trans h.1, h.2⟩

lemma wp_serve (opts : ServerOpts) (app : Application) (h : Gated V auth id r)
    (hdone : r.kexDone = true) (hadmitted : Admitted V auth id r.taken) :
    wp (serve V.toSuite opts app) (fun _ r' => Gated V auth id r') (fun _ r' => Gated V auth id r')
      r := by
  refine (wp_onServer (moves_openChannel _ opts) h hdone hadmitted).bind ?_
  rintro _ r1 ⟨h1, hdone1, hadmitted1⟩
  rw [wp_bind, invoke, wp_modify, wp_bind]
  refine (wp_onServer (moves_awaitRequest _ opts) (h1.invoke hadmitted1 .onAccept) hdone1
    hadmitted1).mono ?_ fun _ _ h => h
  rintro _ r2 ⟨h2, hdone2, hadmitted2⟩
  rw [wp_bind, invoke, wp_modify, wp_bind]
  -- from here on no callback is invoked any more
  refine (wp_onServer (moves_callAll _ opts app.calls) (h2.invoke hadmitted2 .onStart) hdone2
    hadmitted2).mono ?_ fun _ _ h => h
  rintro _ r3 ⟨h3, hdone3, hadmitted3⟩
  refine (wp_onServer (.ofExcept app.result) h3 hdone3 hadmitted3).bind ?_
  rintro _ r4 ⟨h4, hdone4, hadmitted4⟩
  exact (wp_onServer (moves_finish _ opts) h4 hdone4 hadmitted4).mono (fun _ _ h => h.1) fun _ _ h => h

lemma wp_afterKeys (opts : ServerOpts) (app : Application)
    (hauth : auth.anyKeyAuthenticates = false) (hdone : r.kexDone = true)
    (hinvoked : r.invoked = []) :
    wp (do onServer (Server.doAuth V opts auth); serve V.toSuite opts app)
      (fun _ r' => Gated V auth r.sessionId r') (fun _ r' => Gated V auth r.sessionId r') r := by
  have hnone : ∀ s : Server, s.sessionId = r.sessionId →
      Gated V auth r.sessionId { r with toServer := s } := by
    intro s hid
    refine ⟨hid, ?_⟩
    simp [hinvoked]
  rw [wp_bind, onServer, wp_zoom]
  refine (wp_doAuth V opts hauth hdone).mono ?_ fun _ s' h => hnone s' (h.session hdone).2
  rintro _ s' ⟨hmoves, hadmitted⟩
  obtain ⟨hdone', hid'⟩ := hmoves.session hdone
  exact wp_serve opts app (hnone s' hid') hdone' hadmitted

/-- The gate, for a run that started in `s`. -/
structure Authenticated (V : Verifiers) (opts : ServerOpts) (auth : AuthOpts) (g : Greeting)
    (s : Server) (r : ServerRun) : Prop where
  /-- A callback is invoked only after a request with a signature by an authorized key, over the session
  that the first key exchange has begun. -/
  admitted : ∀ i ∈ r.invoked, ∃ keyed, openKeys V opts g s = .ok () keyed ∧
    Admitted V auth keyed.sessionId i.taken
  /-- The id of the session is the hash of the first key exchange, and it is still the same. -/
  session : ∀ keyed, openKeys V opts g s = .ok () keyed →
    FirstExchange V.toSuite keyed ∧ r.sessionId = keyed.sessionId
  /-- Without an authorized key nobody gets in. -/
  nobody : auth.authorized = [] → r.invoked = []

/-- Whatever arrives, the callbacks of the application are invoked only after a verified request, in the
session of the first key exchange. -/
theorem callbacks_authenticated (V : Verifiers) (opts : ServerOpts) (auth : AuthOpts)
    (hauth : auth.anyKeyAuthenticates = false) (g : Greeting) (app : Application)
    (arrivals : List Arrival) (outcomes : List Outcome) (draws : List KexDraw)
    (idles : List (List (List UInt8))) :
    Authenticated V opts auth g (.start arrivals outcomes draws idles)
      (after (serverRun V opts auth g app)
        { toServer := .start arrivals outcomes draws idles, invoked := [] }) := by
  generalize hs : Server.start arrivals outcomes draws idles = s
  have hkeys := wp_openKeys V opts g (s := s) (hs ▸ rfl)
  refine wp.after ?_
  rw [serverRun, wp_bind, onServer, wp_zoom]
  refine wp_of_cases ?_ ?_
  · intro _ keyed hkeyed
    obtain ⟨hdone, hfirst⟩ := hkeys.of_ok hkeyed
    have hgated : ∀ r, Gated V auth keyed.sessionId r → Authenticated V opts auth g s r := by
      intro r hgated
      refine ⟨fun i hi => ⟨keyed, hkeyed, hgated.2 i hi⟩, ?_, ?_⟩
      · intro keyed' hkeyed'
        obtain ⟨-, rfl⟩ := EStateM.Result.ok.inj (hkeyed.symm.trans hkeyed')
        exact ⟨hfirst, hgated.1⟩
      · intro hempty
        refine List.eq_nil_iff_forall_not_mem.mpr fun i hi => ?_
        obtain ⟨t, -, req, -, -, -, hmem, -⟩ := hgated.2 i hi
        simp [hempty] at hmem
    exact (wp_afterKeys opts app hauth hdone rfl).mono (fun _ r => hgated r) fun _ r => hgated r
  · -- without keys nothing is invoked
    intro e s' herror
    refine ⟨by simp, ?_, fun _ => rfl⟩
    intro keyed hkeyed
    cases herror.symm.trans hkeyed

def plainKey : List UInt8 := hashString (ascii "ssh-ed25519") ++ hashString (List.replicate 32 0)

/-- A request to be authenticated with that key, and a signature. -/
def plainRequest : List UInt8 :=
  msgUserauthRequest :: (hashString (ascii "user") ++ hashString (ascii "ssh-connection") ++
    hashString (ascii "publickey") ++ [1] ++ hashString (ascii "ssh-ed25519") ++ hashString plainKey ++
    hashString (hashString (ascii "ssh-ed25519") ++ hashString (List.replicate 64 1)))

/-- What a client sends to get a subsystem: first in the clear, then encrypted. -/
def plainLogin : List Arrival :=
  ([(kexinitBuild kexinitMax (.ok (.replicate _ 0))).toOption.getD [],
    msgKexEcdhInit :: hashString (List.replicate 32 0), [msgNewkeys]].map (.packet false)) ++
  ([msgServiceRequest :: hashString (ascii "ssh-userauth"), plainRequest,
    msgChannelOpen :: (hashString (ascii "session") ++ ByteOrder.writeBE32 0 ++
      ByteOrder.writeBE32 100 ++ ByteOrder.writeBE32 100),
    msgChannelRequest :: (ByteOrder.writeBE32 0 ++ hashString (ascii "subsystem") ++ [1] ++
      hashString (ascii "sftp"))].map (.packet true))

def plainGreeting : Greeting :=
  { bytes := ascii "SSH-2.0-client\r\n", ends := ⟨.closed, closed_ne_done⟩, written := .ok () }

def plainDraw : KexDraw := { cookie := .ok (.replicate _ 0), ephemeral := .ok (.replicate _ 0) }

/-- The callbacks that are invoked in a run with one authorized key. -/
def plainInvoked : ServerRun :=
  after (serverRun plainVerifiers plainOpts { authorized := [plainKey], anyKeyAuthenticates := false }
    plainGreeting { calls := [], result := .ok () })
    { toServer := .start plainLogin [] [plainDraw] [], invoked := [] }

/-- In this run both callbacks are invoked, and they are behind the gate. -/
theorem callbacks_authenticated_subsystem :
    plainInvoked.invoked.map Invocation.callback = [.onAccept, .onStart] ∧
    Authenticated plainVerifiers plainOpts
      { authorized := [plainKey], anyKeyAuthenticates := false } plainGreeting
      (.start plainLogin [] [plainDraw] []) plainInvoked :=
  ⟨by decide +kernel, callbacks_authenticated _ _ _ rfl _ _ _ _ _ _⟩

end ServerRun

end Ssh
