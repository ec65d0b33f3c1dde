import Tailcat.Library.Stream
import Tailcat.Ssh.Agreement

/-!
# An attacker on the link

Somebody on the way may insert and remove packets that say nothing as long as nothing is encrypted, and
may remove and reorder packets afterwards. Sequence numbers count the packets in the clear as well, and
they are not reset when the keys are taken into use. So what a side accepts afterwards is a piece of
what the other one has sent, but need not be its beginning.

## Main results

* `Dialogue.accepted_segment`: what is accepted is a piece of what was sent;
* `Dialogue.accepted_not_first`: the first packet can be removed without notice.
-/

namespace Ssh

open Program Conn List

/-! ## What follows the key exchange -/

namespace Client

lemma moves_openKeys (V : Verifiers) (g : Greeting) (draw : KexDraw) :
    Within Moves (openKeys V g draw) :=
  (moves_greet g).bind fun _ => moves_doKex V draw

lemma moves_rest (V : Verifiers) (opts : ClientOpts) (calls : List Call) :
    Within Moves (rest V opts calls) := by
  refine (moves_doAuth V opts).bind fun _ => (moves_doChannel opts).bind fun _ => ?_
  refine (moves_callAll calls).bind fun _ => .get fun c => (moves_sendLast _ _).bind fun _ => ?_
  exact .get fun c => moves_sendLast _ _

lemma wp_openKeys (V : Verifiers) (g : Greeting) (draw : KexDraw) (c : Client) :
    wp (openKeys V g draw) (fun _ c' => c'.inCipher.key.isSome = true) (fun _ _ => True) c := by
  refine wp_bind_of_forall fun _ _ => wp_bind_of_forall fun _ _ => ?_
  refine wp_bind_of_forall fun ephemeral _ => wp_bind_of_forall fun keys _ => ?_
  refine wp_bind_of_forall fun _ _ => ?_
  rw [wp_bind]
  refine wp_bind_of_forall fun n c1 => ?_
  rw [wp_bind, wp_get, wp_ite]
  exact ⟨fun _ => trivial, fun _ => rfl⟩

end Client

namespace ServerRun

/-- `tc_ssh_server_run`, from the end of the key exchange on. -/
def rest (V : Verifiers) (opts : ServerOpts) (auth : AuthOpts) (app : Application) :
    EStateM Err ServerRun Unit := do
  onServer (Server.doAuth V opts auth)
  serve V.toSuite opts app

def Moves (r r' : ServerRun) : Prop := Server.Moves r.toServer r'.toServer

instance : IsTrans ServerRun Moves := ⟨fun _ _ _ => Server.Moves.trans⟩

lemma moves_onServer {x : ServerM α} (h : Within Server.Moves x) : Within Moves (onServer x) := by
  intro r
  rw [onServer, wp_zoom]
  exact h r.toServer

lemma moves_rest (V : Verifiers) (opts : ServerOpts) (auth : AuthOpts) (app : Application) :
    Within Moves (rest V opts auth app) := by
  have hinvoke : ∀ callback, Within Moves (invoke callback) :=
    fun callback => .modify fun r => Server.Moves.refl r.toServer
  refine (moves_onServer (Server.moves_doAuth V opts auth)).bind fun _ => ?_
  refine (moves_onServer (Server.moves_openChannel _ opts)).bind fun _ => (hinvoke _).bind fun _ => ?_
  refine (moves_onServer (Server.moves_awaitRequest _ opts)).bind fun _ => (hinvoke _).bind fun _ => ?_
  refine (moves_onServer (Server.moves_callAll _ opts app.calls)).bind fun _ => ?_
  exact (moves_onServer (.ofExcept app.result)).bind fun _ => moves_onServer (Server.moves_finish _ opts)

end ServerRun

namespace Server

lemma wp_kexExchange_key (S : Suite) (opts : ServerOpts) (s : Server) :
    wp (kexExchange S opts) (fun _ s' => s'.inCipher.key.isSome = true) (fun _ _ => True) s := by
  unfold kexExchange exchangeKeys
  rw [wp_bind, wp_modify, wp_ensuring]
  refine wp_bind_of_forall fun _ _ => wp_bind_of_forall fun _ _ => wp_bind_of_forall fun _ _ => ?_
  refine wp_bind_of_forall fun _ _ => wp_bind_of_forall fun neg _ => wp_bind_of_forall fun _ _ => ?_
  refine wp_bind_of_forall fun keys _ => ?_
  refine wp_bind_of_forall fun _ _ => ?_
  rw [wp_bind]
  refine wp_bind_of_forall fun n s1 => ?_
  rw [wp_bind, wp_get]
  split
  · exact trivial
  split
  · exact rfl
  -- what is said at the end does not touch the key
  refine (exchanges_moves.sendExtInfo _).mono (fun _ s2 hmoves => ?_) fun _ _ _ => trivial
  exact (hmoves.conn.opened rfl).1

lemma wp_openKeys_key (V : Verifiers) (opts : ServerOpts) (g : Greeting) (s : Server) :
    wp (openKeys V opts g) (fun _ s' => s'.inCipher.key.isSome = true) (fun _ _ => True) s := by
  refine wp_bind_of_forall fun _ _ => wp_bind_of_forall fun _ _ => wp_bind_of_forall fun _ _ => ?_
  refine wp_bind_of_forall fun _ _ => wp_bind_of_forall fun _ s1 => ?_
  exact wp_kexExchange_key V.toSuite opts s1

end Server

/-! ## The attacker -/

def afterNewkeys (sent : List (List UInt8)) : List (List UInt8) :=
  sent.drop (throughNewkeys sent).length

/-- Each packet that was sent after the keys were taken into use, with its sequence number. -/
def sealedPackets (outcomes : List Outcome) (sent : List (List UInt8)) : List (ℕ × List UInt8) :=
  (afterNewkeys sent).mapIdx fun j m => (numberOf 0 outcomes ((throughNewkeys sent).length + j), m)

/-- An arrival that is opened was sealed with the sequence number that it is opened with. -/
def Authentic (wire : List (ℕ × List UInt8)) : ℕ → List Arrival → Prop
  | _, [] => True
  | seq, a :: rest =>
    match a.opens true with
    | none => Authentic wire seq rest
    | some payload => (seq, payload) ∈ wire ∧ Authentic wire (seq + 1) rest

instance instDecidableAuthentic (wire : List (ℕ × List UInt8)) :
    ∀ (seq : ℕ) (arrivals : List Arrival), Decidable (Authentic wire seq arrivals)
  | _, [] => .isTrue trivial
  | seq, a :: rest =>
    match h : a.opens true with
    | none =>
      have := instDecidableAuthentic wire seq rest
      decidable_of_iff (Authentic wire seq rest) (by rw [Authentic, h])
    | some payload =>
      have := instDecidableAuthentic wire (seq + 1) rest
      decidable_of_iff ((seq, payload) ∈ wire ∧ Authentic wire (seq + 1) rest) (by rw [Authentic, h])

/-- What an attacker can do to a side that has just taken the keys into use: insert and remove packets of
the types that are ignored before, and remove and reorder packets afterwards. -/
structure Attack (ignored : UInt8 → Bool) (outcomes : List Outcome) (sent : List (List UInt8))
    (c : Conn) : Prop where
  handshake : (c.taken.map Taken.payload).filter (fun m => !ignored (m.getD 0 0)) =
    (throughNewkeys sent).filter fun m => !ignored (m.getD 0 0)
  authentic : Authentic (sealedPackets outcomes sent) c.inCipher.seq c.arrivals

def countIgnored (ignored : UInt8 → Bool) (ms : List (List UInt8)) : ℕ :=
  (ms.filter fun m => ignored (m.getD 0 0)).length

/-- What was accepted since is a piece of what the other side has sent with its keys. It starts at most as
far from the beginning as there were more ignored packets received than sent before. -/
def Segment (ignored : UInt8 → Bool) (sent : List (List UInt8)) (c c' : Conn) : Prop :=
  ∃ d ≤ countIgnored ignored (c.taken.map Taken.payload) - countIgnored ignored (throughNewkeys sent),
    (c'.taken.drop c.taken.length).map Taken.payload <+: (afterNewkeys sent).drop d

lemma Authentic.mem {wire : List (ℕ × List UInt8)} {seq : ℕ} {used later : List Arrival}
    (h : Authentic wire seq (used ++ later)) {i : ℕ} {payload : List UInt8}
    (hi : (used.filterMap (Arrival.opens true))[i]? = some payload) :
    (seq + i, payload) ∈ wire := by
  induction used generalizing seq i with
  | nil => simp at hi
  | cons a used ih =>
    rw [cons_append, Authentic] at h
    rw [filterMap_cons] at hi
    cases hopen : a.opens true with
    | none =>
      simp only [hopen] at h hi
      exact ih h hi
    | some first =>
      simp only [hopen] at h hi
      cases i with
      | zero =>
        obtain rfl := Option.some.inj hi
        exact h.1
      | succ i =>
        have hmem := ih h.2 hi
        rwa [show seq + 1 + i = seq + (i + 1) by omega] at hmem

variable {outcomes : List Outcome} {sent : List (List UInt8)}

lemma mem_sealedPackets {n : ℕ} {m : List UInt8} (h : (n, m) ∈ sealedPackets outcomes sent) :
    ∃ j, (afterNewkeys sent)[j]? = some m ∧
      numberOf 0 outcomes ((throughNewkeys sent).length + j) = n := by
  obtain ⟨j, hj⟩ := mem_iff_getElem?.mp h
  rw [sealedPackets, getElem?_mapIdx] at hj
  obtain ⟨m', hm', heq⟩ := Option.map_eq_some_iff.mp hj
  obtain ⟨rfl, rfl⟩ := Prod.mk.inj heq
  exact ⟨j, hm', rfl⟩

lemma length_eq_filter_add (ignored : UInt8 → Bool) (ms : List (List UInt8)) :
    ms.length = countIgnored ignored ms + (ms.filter fun m => !ignored (m.getD 0 0)).length := by
  rw [countIgnored, ← length_append]
  exact ((filter_append_perm _ ms).length_eq).symm

/-- What is accepted under an attack is a piece of what was sent. -/
theorem Attack.segment {ignored : UInt8 → Bool} {c c' : Conn} (h : Attack ignored outcomes sent c)
    (hmoves : c.Moves c') (hkey : c.inCipher.key.isSome = true)
    (hseq : c.inCipher.seq = c.taken.length) :
    Segment ignored sent c c' := by
  obtain ⟨-, used, harrivals, htaken⟩ := hmoves.opened hkey
  have haccepted : (c'.taken.drop c.taken.length).map Taken.payload =
      used.filterMap (Arrival.opens true) := by
    rw [map_drop, htaken, drop_left' (length_map _)]
  have hauthentic := h.authentic
  rw [harrivals] at hauthentic
  have hmono : StrictMono fun j => numberOf 0 outcomes ((throughNewkeys sent).length + j) :=
    (strictMono_numberOf 0 outcomes).comp fun _ _ hlt => Nat.add_lt_add_left hlt _
  obtain ⟨d, hpiece, hd⟩ := Stream.piece_of_numbered hmono fun i x hi =>
    mem_sealedPackets (hauthentic.mem hi)
  rw [Segment, haccepted]
  by_cases hnone : used.filterMap (Arrival.opens true) = []
  · rw [hnone]
    exact ⟨0, Nat.zero_le _, nil_prefix⟩
  refine ⟨d, ?_, hpiece⟩
  -- the number of the first packet is at least that of all before it
  have hnumber := hd hnone
  have hle := le_numberOf 0 outcomes ((throughNewkeys sent).length + d)
  have htakenLen := length_eq_filter_add ignored (c.taken.map Taken.payload)
  have hsentLen := length_eq_filter_add ignored (throughNewkeys sent)
  rw [length_map] at htakenLen
  rw [h.handshake] at htakenLen
  omega

/-! ## A client and a server -/

/-- A client and a server of this program, with what arrives at each of them. -/
structure Dialogue where
  clientOpts : ClientOpts
  greetingC : Greeting
  drawC : KexDraw
  callsC : List Client.Call
  arrivalsC : List Arrival
  outcomesC : List Outcome
  serverOpts : ServerOpts
  auth : AuthOpts
  greetingS : Greeting
  app : ServerRun.Application
  arrivalsS : List Arrival
  outcomesS : List Outcome
  drawsS : List KexDraw
  idlesS : List (List (List UInt8))

namespace Dialogue

variable (V : Verifiers) (d : Dialogue)

def startC : Client := .start d.arrivalsC d.outcomesC

def startS : Server := .start d.arrivalsS d.outcomesS d.drawsS d.idlesS

def keyedC : Client := after (Client.openKeys V d.greetingC d.drawC) d.startC

def keyedS : Server := after (Server.openKeys V d.serverOpts d.greetingS) d.startS

def endC : Client := after (Client.clientRun V d.clientOpts d.greetingC d.drawC d.callsC) d.startC

def endS : Server :=
  (after (ServerRun.serverRun V d.serverOpts d.auth d.greetingS d.app)
    { toServer := d.startS, invoked := [] }).toServer

/-- The key exchange is completed on both sides. -/
def Completed : Prop :=
  succeeds (Client.openKeys V d.greetingC d.drawC) d.startC = true ∧
    succeeds (Server.openKeys V d.serverOpts d.greetingS) d.startS = true
deriving Decidable

/-- The attacker has to do with what arrives at both sides. -/
structure Attacked : Prop where
  toClient : Attack Client.isNoise d.outcomesS (d.endS V).outbox (d.keyedC V).toConn
  toServer : Attack Server.isNoise d.outcomesC (d.endC V).outbox (d.keyedS V).toConn

variable {V d}

lemma moves_endC (h : d.Completed V) : (d.keyedC V).toConn.Moves (d.endC V).toConn := by
  obtain ⟨_, hok⟩ := ok_of_succeeds h.1
  rw [endC, Client.clientRun, after_bind_of_ok hok]
  exact Within.after (Client.moves_rest V d.clientOpts d.callsC) _

lemma moves_endS (h : d.Completed V) : (d.keyedS V).toConn.Moves (d.endS V).toConn := by
  obtain ⟨_, hok⟩ := ok_of_succeeds h.2
  have hrun : (ServerRun.onServer (Server.openKeys V d.serverOpts d.greetingS)
      { toServer := d.startS, invoked := [] } : EStateM.Result Err ServerRun Unit) =
        .ok () { toServer := d.keyedS V, invoked := [] } := by
    rw [ServerRun.onServer, zoom, hok]
    rfl
  have hmoves := Within.after (ServerRun.moves_rest V d.serverOpts d.auth d.app)
    { toServer := d.keyedS V, invoked := [] }
  rw [endS, ServerRun.serverRun, after_bind_of_ok hrun]
  exact hmoves.conn

lemma seq_keyedC : (d.keyedC V).inCipher.seq = (d.keyedC V).taken.length := by
  have hseq : (d.keyedC V).inCipher.seq + 0 = 0 + (d.keyedC V).taken.length :=
    (Within.after (Client.moves_openKeys V d.greetingC d.drawC) d.startC).seq
  rwa [Nat.zero_add] at hseq

lemma seq_keyedS : (d.keyedS V).inCipher.seq = (d.keyedS V).taken.length := by
  have hseq : (d.keyedS V).inCipher.seq + 0 = 0 + (d.keyedS V).taken.length :=
    (Within.after (Server.moves_openKeys V d.serverOpts d.greetingS) d.startS).conn.seq
  rwa [Nat.zero_add] at hseq

lemma key_keyedC (h : d.Completed V) : (d.keyedC V).inCipher.key.isSome = true := by
  obtain ⟨_, hok⟩ := ok_of_succeeds h.1
  exact (Client.wp_openKeys V d.greetingC d.drawC d.startC).of_ok hok

lemma key_keyedS (h : d.Completed V) : (d.keyedS V).inCipher.key.isSome = true := by
  obtain ⟨_, hok⟩ := ok_of_succeeds h.2
  exact (Server.wp_openKeys_key V d.serverOpts d.greetingS d.startS).of_ok hok

/-- Whatever the attacker does, what each side accepts with its keys is a piece of what the other one has
sent with them, from its beginning if no more packets were inserted than removed before. -/
theorem accepted_segment (hcompleted : d.Completed V) (hattacked : d.Attacked V) :
    Segment Client.isNoise (d.endS V).outbox (d.keyedC V).toConn (d.endC V).toConn ∧
      Segment Server.isNoise (d.endC V).outbox (d.keyedS V).toConn (d.endS V).toConn :=
  ⟨hattacked.toClient.segment (moves_endC hcompleted) (key_keyedC hcompleted) seq_keyedC,
    hattacked.toServer.segment (moves_endS hcompleted) (key_keyedS hcompleted) seq_keyedS⟩

/-- A packet was inserted before the offer of the server, and its first packet with the new keys was
removed. -/
def shifted : Dialogue :=
  let m := Meeting.plain [] [] .silent
  { clientOpts := { user := none, userSeed := none, subsystem := none }
    greetingC := greetingOf [], drawC := { cookie := .ok m.cookieC, ephemeral := .ok m.ephemeralC }
    callsC := []
    arrivalsC := ([msgIgnore] ::
        m.saidS Meeting.sumVerifiers (.replicate _ 0) (.replicate _ 1)).map (.packet false) ++
      [.packet true (msgServiceAccept :: hashString (ascii "ssh-userauth"))]
    outcomesC := [], serverOpts := m.opts
    auth := { authorized := [], anyKeyAuthenticates := true }
    greetingS := greetingOf [], app := { calls := [], result := .ok () }
    arrivalsS := (m.saidC Meeting.sumVerifiers ++ [[msgNewkeys]]).map (.packet false) ++
      [.packet true (msgServiceRequest :: hashString (ascii "ssh-userauth"))]
    outcomesS := []
    drawsS := [{ cookie := .ok m.cookieS, ephemeral := .ok m.ephemeralS }], idlesS := [] }

instance (ignored : UInt8 → Bool) (outcomes : List Outcome) (sent : List (List UInt8)) (c : Conn) :
    Decidable (Attack ignored outcomes sent c) :=
  decidable_of_iff (_ ∧ _) ⟨fun h => ⟨h.1, h.2⟩, fun h => ⟨h.1, h.2⟩⟩

instance (V : Verifiers) (d : Dialogue) : Decidable (d.Attacked V) :=
  decidable_of_iff (_ ∧ _) ⟨fun h => ⟨h.1, h.2⟩, fun h => ⟨h.1, h.2⟩⟩

lemma shifted_run : shifted.Completed Meeting.sumVerifiers ∧
    shifted.Attacked Meeting.sumVerifiers ∧
    (shifted.keyedC Meeting.sumVerifiers).inCipher.key =
      (shifted.keyedS Meeting.sumVerifiers).outCipher.key ∧
    (shifted.keyedS Meeting.sumVerifiers).inCipher.key =
      (shifted.keyedC Meeting.sumVerifiers).outCipher.key ∧
    ¬((shifted.endC Meeting.sumVerifiers).taken.drop
        (shifted.keyedC Meeting.sumVerifiers).taken.length).map Taken.payload <+:
      afterNewkeys (shifted.endS Meeting.sumVerifiers).outbox := by
  decide +kernel

/-- What each side accepts in this run is a piece of what was sent. -/
theorem accepted_segment_shifted : shifted.Completed Meeting.sumVerifiers ∧
    Segment Client.isNoise (shifted.endS Meeting.sumVerifiers).outbox
      (shifted.keyedC Meeting.sumVerifiers).toConn (shifted.endC Meeting.sumVerifiers).toConn ∧
    Segment Server.isNoise (shifted.endC Meeting.sumVerifiers).outbox
      (shifted.keyedS Meeting.sumVerifiers).toConn (shifted.endS Meeting.sumVerifiers).toConn :=
  ⟨shifted_run.1, accepted_segment shifted_run.1 shifted_run.2.1⟩

/-- With the same keys on both sides, what the client accepts need not be the beginning of what the server
has sent. -/
theorem accepted_not_first : ¬∀ (V : Verifiers) (d : Dialogue), d.Completed V → d.Attacked V →
    (d.keyedC V).inCipher.key = (d.keyedS V).outCipher.key →
    (d.keyedS V).inCipher.key = (d.keyedC V).outCipher.key →
    ((d.endC V).taken.drop (d.keyedC V).taken.length).map Taken.payload <+:
      afterNewkeys (d.endS V).outbox := by
  intro h
  obtain ⟨hcompleted, hattacked, hs2c, hc2s, hnot⟩ := shifted_run
  exact hnot (h _ _ hcompleted hattacked hs2c hc2s)

end Dialogue

end Ssh
