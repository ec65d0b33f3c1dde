import Tailcat.Tcp.Opening

/-!
# Two connections and a network

A connection that was opened actively and one that was opened passively, joined by a network that
may hand either end at any time any packet that the other has sent so far.

## Main results

* `end_to_end`: what is read at one end is what was written at the other, in order, as long as no
  packet reaches an actively opened connection that has given up before its SYN was acknowledged;
* `closed_end_reads_twice`: without that condition a byte can be read twice.
-/

namespace Tcp

open SerialNumber Conn

/-! ## The system -/

/-- One end, with what its owner has read from it and what it has accepted from its owner. -/
structure Endpoint where
  conn : Conn
  read : List UInt8
  written : List UInt8

/-- What can happen at an end: a call of its owner, or the arrival of packet `i` of its peer. -/
inductive Op
  | write (buf : List UInt8) (now : ℕ)
  | read (cap : ℕ)
  | shutdownWrite (now : ℕ)
  | tick (now : ℕ)
  | deliver (i : ℕ) (iss : UInt32) (now : ℕ)

def Op.call (peer : Conn) : Op → Option Call
  | .write buf now => some (.write buf now)
  | .read cap => some (.read cap)
  | .shutdownWrite now => some (.shutdownWrite now)
  | .tick now => some (.tick now)
  | .deliver i iss now =>
    peer.out[i]?.map fun s => .input (packet peer.addr.localIp peer.addr.remoteIp s) iss now

/-- A tick that probes the peer finds nothing in flight. -/
def Op.ProbesIdle (x : Conn) : Op → Prop
  | .tick now => x.probesAt now → x.inFlight = 0
  | _ => True

def Op.Delivers : Op → Prop
  | .deliver _ _ _ => True
  | _ => False

instance (x : Conn) (op : Op) : Decidable (op.ProbesIdle x) := by
  cases op <;> dsimp only [Op.ProbesIdle] <;> infer_instance

instance (op : Op) : Decidable op.Delivers := by
  cases op <;> dsimp only [Op.Delivers] <;> infer_instance

def Endpoint.stepCall (e : Endpoint) (call : Call) : Endpoint :=
  { conn := e.conn.step call
    read := e.read ++ call.bytesRead e.conn
    written := e.written ++ call.bytesWritten e.conn }

def Endpoint.step (e : Endpoint) (peer : Conn) (op : Op) : Endpoint :=
  match op.call peer with
  | some call => e.stepCall call
  | none => e

variable {e : Endpoint} {peer x : Conn} {op : Op} {call : Call} {now t : ℕ} {W : List UInt8}
  {s : Segment}

@[elab_as_elim]
lemma Endpoint.step_elim {P : Endpoint → Prop} (h : P e)
    (hcall : ∀ call, op.call peer = some call → P (e.stepCall call)) : P (e.step peer op) := by
  unfold Endpoint.step
  split
  · next call hop => exact hcall call hop
  · exact h

structure Pair where
  active : Endpoint
  passive : Endpoint

inductive Event
  | active (op : Op)
  | passive (op : Op)

namespace Pair

def step (p : Pair) : Event → Pair
  | .active op => { p with active := p.active.step p.passive.conn op }
  | .passive op => { p with passive := p.passive.step p.active.conn op }

/-- Two hosts: the address and the port of each, with which sequence number and when one connects to
the other, and the memory of their rings. -/
structure Hosts where
  activeIp : Ipv6Addr
  passiveIp : Ipv6Addr
  activePort : UInt16
  passivePort : UInt16
  iss : UInt32
  now : ℕ
  mem : Bool → Bool → ℕ → UInt8

/-- The pair at the start: one end connects to the port on which the other listens. -/
def start (h : Hosts) : Pair :=
  { active :=
      { conn := ((tcpNew h.activeIp h.passiveIp (h.mem false false) (h.mem false true)).tcpConnect
          h.activePort h.passivePort h.iss h.now).1
        read := [], written := [] }
    passive :=
      { conn := ((tcpNew h.passiveIp h.activeIp (h.mem true false) (h.mem true true)).tcpListen
          h.passivePort).1
        read := [], written := [] } }

/-- The runs considered: each end writes less than `2 ^ 30` bytes, and no keepalive probe is sent
while data is in flight. -/
def Ordinary (p : Pair) (e : Event) : Prop :=
  (p.step e).active.written.length < 2 ^ 30 ∧ (p.step e).passive.written.length < 2 ^ 30 ∧
  match e with
  | .active op => op.ProbesIdle p.active.conn
  | .passive op => op.ProbesIdle p.passive.conn

/-- No packet reaches the active end after it has given up with its SYN unacknowledged. -/
def Awake (p : Pair) : Event → Prop
  | .active op => op.Delivers →
    ¬(p.active.conn.state = .closed ∧ p.active.conn.snd.una = p.active.conn.snd.iss)
  | .passive _ => True

instance (p : Pair) (e : Event) : Decidable (Ordinary p e) := by
  cases e <;> dsimp only [Ordinary] <;> infer_instance

instance (p : Pair) (e : Event) : Decidable (Awake p e) := by
  cases e <;> dsimp only [Awake] <;> infer_instance

/-- What `e` has read is the beginning of what `f` has written, and the end of the stream is
reported only after all that `f` accepted until it was shut down. -/
def Reads (e f : Endpoint) : Prop :=
  e.read <+: f.written ∧ (e.conn.readClosed → e.read = f.written ∧ f.conn.snd.finQueued = true)

def Delivered (p : Pair) : Prop := Reads p.active p.passive ∧ Reads p.passive p.active

end Pair

section

variable {peer : Conn} {op : Op} {s : Segment}

/-! ## Delivery of packets -/

lemma Linked.stepCall_eq (h : Linked e.conn peer) (hs : s ∈ peer.out) (iss : UInt32) (now : ℕ) :
    e.stepCall (.input (packet peer.addr.localIp peer.addr.remoteIp s) iss now) =
      { e with conn := (e.conn.stamp now).inputSegment s iss now } := by
  have hinput := tcpInput_packet (h.addressedTo hs) (h.length_le hs) iss now
  change Endpoint.mk (e.conn.tcpInput _ iss now) (e.read ++ []) (e.written ++ []) = _
  rw [hinput, List.append_nil, List.append_nil]

lemma Op.call_eq (h : Linked x peer) (hop : op.call peer = some call)
    (hs : call.segment x = some s) :
    s ∈ peer.out ∧
      ∃ iss now, call = .input (packet peer.addr.localIp peer.addr.remoteIp s) iss now := by
  cases op with
  | deliver i iss now =>
    obtain ⟨s', hs', rfl⟩ := Option.map_eq_some_iff.mp hop
    have hmem : s' ∈ peer.out := List.mem_of_getElem? hs'
    rw [Call.segment, parse_packet (h.addressedTo hmem) (h.length_le hmem)] at hs
    cases hs
    exact ⟨hmem, iss, now, rfl⟩
  | _ =>
    cases hop
    cases hs

lemma Op.delivers (hop : op.call peer = some call) (hs : call.segment x = some s) : op.Delivers := by
  cases op with
  | deliver i iss now => trivial
  | _ =>
    cases hop
    cases hs

lemma Op.idle_of_probesAt (hop : op.call peer = some call) (h : op.ProbesIdle x) (now : ℕ)
    (hcall : call = .tick now) : x.probesAt now → x.inFlight = 0 := by
  subst hcall
  cases op with
  | tick now =>
    cases hop
    exact h
  | deliver i iss now =>
    obtain ⟨s, -, h⟩ := Option.map_eq_some_iff.mp hop
    cases h
  | _ => cases hop

lemma Op.call_ne_abort (hop : op.call peer = some call) (now : ℕ) : call ≠ .abort now := by
  rintro rfl
  cases op with
  | deliver i iss now =>
    obtain ⟨s, -, h⟩ := Option.map_eq_some_iff.mp hop
    cases h
  | _ => cases hop

/-! ## Both ends open -/

/-- Both ends know each other's sequence space; the streams flow both ways. -/
structure Open (e f : Endpoint) : Prop where
  acquainted : Acquainted e.conn f.conn
  settled : e.conn.state.Settled
  settled' : f.conn.state.Settled
  flows : ∃ t t', Flow e.conn f.conn e.written f.read t ∧ Sender e.written e.conn t ∧
    Flow f.conn e.conn f.written e.read t' ∧ Sender f.written f.conn t'

lemma Sender.mono {t' : ℕ} (h : Sender W x t) (ht : t ≤ t') : Sender W x t' :=
  h.imp (fun ⟨hst, u, f, hu, hinv⟩ => ⟨hst, u, f, hu.trans ht, hinv⟩) id

end

namespace Open

variable {e f : Endpoint}

lemma symm (h : Open e f) : Open f e := by
  obtain ⟨t, t', hef, he, hfe, hf⟩ := h.flows
  exact ⟨h.acquainted.symm, h.settled', h.settled, t', t, hfe, hf, hef, he⟩

lemma step (h : Open e f) (hop : op.call f.conn = some call)
    (hW : (e.stepCall call).written.length < 2 ^ 30)
    (hprobe : ∀ now, call = .tick now → e.conn.probesAt now → e.conn.inFlight = 0) :
    Open (e.stepCall call) f := by
  obtain ⟨t, t', hef, he, hfe, hf⟩ := h.flows
  have hmem : ∀ s, call.segment e.conn = some s → s ∈ f.conn.out := fun s hs =>
    (Op.call_eq h.acquainted.linked hop hs).1
  have hrst : ∀ s, call.segment e.conn = some s → s.rst = false ∧ s ∈ f.conn.out := fun s hs =>
    ⟨(hfe.wire s (hmem s hs)).rst, hmem s hs⟩
  obtain ⟨hout, he'⟩ := hef.send he (Op.call_ne_abort hop) hW hrst hprobe
  obtain ⟨t'', hr, hin⟩ := hfe.receive h.settled call hmem
  -- `e` has sent and received in one call: both flows have made their step
  exact ⟨h.acquainted.step hmem, hr.settled h.settled, h.settled', t, t'', hout, he', hin,
    hf.mono hr.le⟩

end Open

/-! ## Before both ends are open -/

/-- The passive end listens, and the active end has sent it a SYN. -/
structure Waiting (a b : Endpoint) : Prop where
  linked : Linked b.conn a.conn
  presync : Presync a.written a.conn
  listening : Listening b.conn
  read : a.read = [] ∧ b.read = []
  written : b.written = []

/-- The passive end has answered; the active end has not had an answer. -/
structure Answered (a b : Endpoint) : Prop where
  acquainted : Acquainted a.conn b.conn
  presync : Presync a.written a.conn
  unopened : Unopened b.written b.conn
  flow : Flow a.conn b.conn a.written b.read 0
  answers : ∀ s ∈ b.conn.out, Answer b.conn.snd.iss s
  read : a.read = []

lemma Presync.plain (h : Presync W x) (hs : s ∈ x.out) :
    s.rst = false ∧ s.syn = true ∧ s.acks = false := by
  rw [Segment.rst, Segment.syn, Segment.acks, (h.out s hs).1]
  decide

lemma Presync.state_ne_listen (h : Presync W x) : x.state ≠ .listen := by
  rcases h.phase with ⟨hst, -⟩ | ⟨hst, -⟩ <;> rw [hst] <;> nofun

lemma Presync.finInv (h : Presync W x) : FinInv x := by
  refine ⟨fun s hs hf => ?_, fun hf => absurd (h.finSent.symm.trans hf) (by simp)⟩
  rw [Segment.fin, (h.out s hs).1] at hf
  cases hf

lemma Flow.of_waits {x' y : Conn} {read p : List UInt8} (h : Flow x y W read 0) (hx : Presync W x)
    (hw : Waits (W ++ p) x x') (hshort : (W ++ p).length < 2 ^ 30) :
    Flow x' y (W ++ p) read 0 := by
  have hnot : y.rcv.finReceived → False := fun hf =>
    absurd (hx.finQueued.symm.trans (h.fin hf)) (by simp)
  refine ⟨hshort, h.recv.append fun hf => (hnot hf).elim, h.irs.trans hw.iss.symm,
    fun hf => (hnot hf).elim, fun s hs => ?_, by rw [hw.iss]; exact h.acks⟩
  exact .of_syn (hw.inv.out s hs).2.1 (.inl (hw.inv.out s hs).1)

namespace Waiting

variable {a b : Endpoint}

variable {op : Op} {call : Call}

section

variable (h : Waiting a b)

include h

lemma step_active (hop : op.call b.conn = some call) : Waiting (a.stepCall call) b := by
  have hnone : ∀ s, call.segment a.conn = some s → False := fun s hs => by
    cases op with
    | deliver i iss now =>
      obtain ⟨s', hs', -⟩ := Option.map_eq_some_iff.mp hop
      rw [h.listening.out] at hs'
      cases hs'
    | _ => exact Op.delivers hop hs
  obtain ⟨hw, hread⟩ := h.presync.step (Op.call_ne_abort hop) fun s hs => (hnone s hs).elim
  have hmail := mails_step h.presync.state_ne_listen call
  refine ⟨h.linked.of_addr rfl hmail.addr id (hmail.ownMail h.linked.mail), hw.inv, h.listening,
    ⟨?_, h.read.2⟩, h.written⟩
  change a.read ++ call.bytesRead a.conn = []
  rw [h.read.1, hread]
  rfl

lemma acquainted (hs : s ∈ a.conn.out) (iss : UInt32) (now : ℕ) :
    Acquainted a.conn ((b.conn.stamp now).inputSegment s iss now) := by
  obtain ⟨hrst, hsyn, -⟩ := h.presync.plain hs
  obtain ⟨hshake, haddr, hfresh, -, m, hout, hpost, -, hflags, -, -⟩ :=
    h.listening.opens hrst hsyn iss now
  generalize (b.conn.stamp now).inputSegment s iss now = b' at *
  have hport : b'.addr.remotePort = a.conn.addr.localPort := by
    rw [haddr]
    exact (h.linked.mail s hs).sport
  have hm : ∀ s' ∈ b'.out, s' = m := by
    rw [hout]
    exact fun s' => List.mem_singleton.mp
  have hnofin : m.fin = false := by
    rw [Segment.fin, hflags]
    rfl
  have hlocal : b'.addr.localIp = b.conn.addr.localIp ∧ b'.addr.remoteIp = b.conn.addr.remoteIp ∧
      b'.addr.localPort = b.conn.addr.localPort := by
    rw [haddr]
    exact ⟨rfl, rfl, rfl⟩
  refine ⟨⟨?_, ?_, hport.symm, .inr ?_, fun s' hs' => hm s' hs' ▸ hpost⟩,
    ⟨?_, ?_, ?_, .inr hport, h.linked.mail⟩, h.presync.state_ne_listen, ?_, h.presync.finInv,
    ⟨fun s' hs' hf => ?_, fun hf => absurd (hshake.finSent.symm.trans hf) (by simp)⟩,
    fun hf => absurd (h.presync.rcv.fin.symm.trans hf) (by simp),
    fun hf => absurd (hfresh.fin.symm.trans hf) (by simp)⟩
  · rw [hlocal.1, h.linked.localIp]
  · rw [hlocal.2.1, h.linked.remoteIp]
  · rw [hlocal.2.2, h.linked.localPort]
  · rw [hlocal.2.1, h.linked.remoteIp]
  · rw [hlocal.1, h.linked.localIp]
  · rw [hlocal.2.2, h.linked.localPort]
  · rw [hshake.state]
    decide
  · rw [hm s' hs'] at hf
    exact absurd (hnofin.symm.trans hf) (by simp)

lemma answered (hs : s ∈ a.conn.out) (hW : a.written.length < 2 ^ 30) (iss : UInt32) (now : ℕ) :
    Answered a { b with conn := (b.conn.stamp now).inputSegment s iss now } := by
  have hacq := h.acquainted hs iss now
  obtain ⟨hrst, hsyn, -⟩ := h.presync.plain hs
  obtain ⟨hshake, -, hfresh, hirs, m, hout, -, hdata, hflags, hseq, hack⟩ :=
    h.listening.opens hrst hsyn iss now
  generalize (b.conn.stamp now).inputSegment s iss now = b' at *
  have hiss : s.seq = a.conn.snd.iss := (h.presync.out s hs).2.2
  have hm : ∀ s' ∈ b'.out, s' = m := by
    rw [hout]
    exact fun s' => List.mem_singleton.mp
  refine ⟨hacq, h.presync, .inl (h.written ▸ hshake), ⟨hW, h.read.2 ▸ hfresh.recvInv a.written,
    hirs.trans hiss, fun hf => absurd (hfresh.fin.symm.trans hf) (by simp), fun s' hs' => ?_,
    fun s' hs' _ => ⟨0, le_refl 0, ?_⟩⟩, fun s' hs' => ?_, h.read.1⟩
  · exact .of_syn (h.presync.out s' hs').2.1 (.inl (h.presync.out s' hs').1)
  · rw [hm s' hs', hack, hiss, place_zero]
  · exact hm s' hs' ▸ .inr ⟨hdata, hflags, hseq⟩

lemma listens (hop : op.call a.conn = some call)
    (hnone : call.segment b.conn = none) : Waiting a (b.stepCall call) := by
  obtain ⟨hl, haddr, hread, hwritten⟩ := h.listening.step (Op.call_ne_abort hop) hnone
  refine ⟨h.linked.of_addr haddr rfl (fun _ => hl.state) h.linked.mail, h.presync, hl,
    ⟨h.read.1, ?_⟩, ?_⟩
  · change b.read ++ call.bytesRead b.conn = []
    rw [h.read.2, hread]
    rfl
  · change b.written ++ call.bytesWritten b.conn = []
    rw [h.written, hwritten]
    rfl

lemma step_passive (hop : op.call a.conn = some call) :
    Waiting a (b.stepCall call) ∨ Acquainted a.conn (b.stepCall call).conn ∧
      (a.written.length < 2 ^ 30 → Answered a (b.stepCall call)) := by
  cases hseg : call.segment b.conn with
  | some s =>
    obtain ⟨hmem, iss, now, rfl⟩ := Op.call_eq h.linked hop hseg
    rw [h.linked.stepCall_eq hmem]
    exact .inr ⟨h.acquainted hmem iss now, fun hW => h.answered hmem hW iss now⟩
  | none => exact .inl (h.listens hop hseg)

end

end Waiting

namespace Answered

variable {a b : Endpoint}

lemma step_passive (h : Answered a b) (hop : op.call a.conn = some call) :
    Answered a (b.stepCall call) := by
  have hseg : ∀ s, call.segment b.conn = some s →
      s ∈ a.conn.out ∧ s.rst = false ∧ s.acks = false := fun s hs => by
    have hmem := (Op.call_eq h.acquainted.linked' hop hs).1
    obtain ⟨hrst, -, hacks⟩ := h.presync.plain hmem
    exact ⟨hmem, hrst, hacks⟩
  have hflow := h.flow.receive_of_not_acks h.unopened.settled call
    fun s hs => ⟨(hseg s hs).1, (hseg s hs).2.2⟩
  have hstay := stays_step h.unopened (Op.call_ne_abort hop) fun s hs => (hseg s hs).2
  refine ⟨(h.acquainted.symm.step fun s hs => (hseg s hs).1).symm, h.presync, hstay.unopened, hflow,
    fun s hs => ?_, h.read⟩
  change Answer (b.conn.step call).snd.iss s
  rw [hstay.iss]
  exact (hstay.emits.mem_out hs).elim (h.answers s) id

lemma opens (h : Answered a b) (hst : a.conn.state = .synSent) (hs : s ∈ b.conn.out)
    (hflags : s.flags = thSyn ||| thAck) (hseq : s.seq = b.conn.snd.iss)
    (hW : b.written.length < 2 ^ 30) {iss : UInt32}
    (hacq : Acquainted ((a.conn.stamp now).inputSegment s iss now) b.conn) :
    Open { a with conn := (a.conn.stamp now).inputSegment s iss now } b := by
  have hsyn : s.rst = false ∧ s.syn = true ∧ s.acks = true := by
    rw [Segment.rst, Segment.syn, Segment.acks, hflags]
    decide
  have hack : s.ack = a.conn.snd.iss + 1 := by
    obtain ⟨p, hp, hack⟩ := h.flow.acks s hs hsyn.2.2
    rw [hack, Nat.le_zero.mp hp, place_zero]
  have ho := h.presync.opens hst hsyn.1 hsyn.2.1 hsyn.2.2 hack iss now
  obtain ⟨u, f, hinv⟩ := ho.inv
  generalize (a.conn.stamp now).inputSegment s iss now = a' at *
  have hnot : b.conn.rcv.finReceived → False := fun hf =>
    absurd (h.presync.finQueued.symm.trans (h.flow.fin hf)) (by simp)
  have hshort := h.flow.short
  have hflow : Flow a' b.conn a.written b.read 0 := by
    refine ⟨hshort, h.flow.recv, h.flow.irs.trans ho.iss.symm, fun hf => (hnot hf).elim,
      fun s' hs' => ?_, by rw [ho.iss]; exact h.flow.acks⟩
    rcases ho.sends.mem_out hs' with hs' | hs'
    · exact .of_syn (h.presync.out s' hs').2.1 (.inl (h.presync.out s' hs').1)
    · rw [ho.iss]
      exact .of_streamSegment hs'
  have hback : Flow b.conn a' b.written [] 0 := by
    refine ⟨hW, ho.fresh.recvInv _, ho.irs.trans hseq,
      fun hf => absurd (ho.fresh.fin.symm.trans hf) (by simp), fun s' hs' => ?_,
      fun s' hs' hacks => ⟨0, le_refl 0, ?_⟩⟩
    · rcases h.answers s' hs' with hbare | ⟨hd, hf, -⟩
      · exact .of_bare hbare
      · exact .of_syn hd (.inr hf)
    · rcases ho.acks.mem_out hs' with hs' | hs'
      · exact absurd ((h.presync.plain hs').2.2.symm.trans hacks) (by simp)
      · rw [hs' hacks, hseq, place_zero]
  have hu : u ≤ 0 :=
    hinv.le_of_una hshort (le_refl 0) (by decide) (by rw [ho.una, ho.iss, place_zero])
  refine ⟨hacq, settled_of_past (.inl ho.state), h.unopened.settled, 0, 0, hflow,
    .inl ⟨.inl ho.state, u, f, hu, hinv⟩, ?_, .inr h.unopened⟩
  rw [h.read]
  exact hback

lemma step_active (h : Answered a b) (hop : op.call b.conn = some call)
    (hWa : (a.stepCall call).written.length < 2 ^ 30) (hWb : b.written.length < 2 ^ 30)
    (hawake : ∀ s, call.segment a.conn = some s →
      ¬(a.conn.state = .closed ∧ a.conn.snd.una = a.conn.snd.iss)) :
    Answered (a.stepCall call) b ∨ Open (a.stepCall call) b := by
  have hsent : ∀ s, call.segment a.conn = some s → a.conn.state = .synSent := fun s hs => by
    rcases h.presync.phase with ⟨hst, -⟩ | ⟨hst, -, huna⟩
    · exact hst
    · exact absurd ⟨hst, huna⟩ (hawake s hs)
  have hacq : Acquainted (a.stepCall call).conn b.conn :=
    h.acquainted.step fun s hs => (Op.call_eq h.acquainted.linked hop hs).1
  by_cases hdel : ∃ s, call.segment a.conn = some s ∧ ¬s.Bare
  · obtain ⟨s, hs, hbare⟩ := hdel
    have hst := hsent s hs
    obtain ⟨hmem, iss, now, rfl⟩ := Op.call_eq h.acquainted.linked hop hs
    obtain ⟨-, hflags, hseq⟩ := (h.answers s hmem).resolve_left hbare
    rw [h.acquainted.linked.stepCall_eq hmem] at hacq ⊢
    exact .inr (h.opens hst hmem hflags hseq hWb hacq)
  · have hplain : ∀ s, call.segment a.conn = some s →
        a.conn.state = .synSent ∧ s.rst = false ∧ (s.syn && s.acks) = false := fun s hs => by
      have hbare : s.Bare := by_contra fun hb => hdel ⟨s, hs, hb⟩
      refine ⟨hsent s hs, hbare.rst, ?_⟩
      rw [Segment.syn, hbare.flags]
      rfl
    obtain ⟨hw, hread⟩ := h.presync.step (Op.call_ne_abort hop) hplain
    refine .inl ⟨hacq, hw.inv, h.unopened, h.flow.of_waits h.presync hw hWa, h.answers, ?_⟩
    change a.read ++ call.bytesRead a.conn = []
    rw [h.read, hread]
    rfl

end Answered

/-! ## Runs of the pair -/

lemma Flow.reads {f : Endpoint} (h : Flow f.conn e.conn f.written e.read t) : Pair.Reads e f := by
  have hpart : e.read <+: f.written :=
    (List.prefix_append e.read e.conn.rcv.buf.toList).trans
      (h.recv.bytes ▸ List.take_prefix t f.written)
  refine ⟨hpart, fun hclosed => ?_⟩
  simp only [readClosed, Bool.and_eq_true, beq_iff_eq] at hclosed
  have hall := h.recv.bytes
  rw [RingBuffer.toList_eq_nil hclosed.2, h.recv.fin hclosed.1, List.append_nil,
    List.take_of_length_le (Nat.le_succ _)] at hall
  exact ⟨hall, h.fin hclosed.1⟩

lemma Pair.reads_of_empty {f : Endpoint} (hread : e.read = [])
    (hfin : e.conn.rcv.finReceived = false) : Pair.Reads e f := by
  refine ⟨hread ▸ List.nil_prefix, fun hclosed => ?_⟩
  rw [readClosed, hfin] at hclosed
  cases hclosed

namespace Pair

variable {p : Pair}

def Phase (a b : Endpoint) : Prop := Waiting a b ∨ Answered a b ∨ Open a b

def Inv (p : Pair) : Prop := Phase p.active p.passive

lemma waiting_start (hosts : Hosts) : Waiting (start hosts).active (start hosts).passive := by
  have hempty : ∀ m : ℕ → UInt8, (RingBuffer.empty m (by decide) :
      RingBuffer UInt8 sndBufLen).toList = [] := fun m => RingBuffer.toList_eq_nil rfl
  have hooo : ∀ i : Fin oooSegs, (Vector.replicate oooSegs (none : Option OooSeg))[i] = none :=
    fun i => by simp
  have hmail : OwnMail (start hosts).active.conn := fun s hs => by
    obtain rfl := List.mem_singleton.mp hs
    exact ⟨rfl, rfl, Nat.zero_le _⟩
  refine ⟨⟨rfl, rfl, rfl, .inl rfl, hmail⟩, ⟨rfl, rfl, rfl, rfl, ⟨rfl, hooo, rfl⟩,
    .inl ⟨rfl, rfl, rfl, hempty _⟩, fun s hs => ?_⟩,
    ⟨rfl, rfl, rfl, hempty _, rfl, rfl, rfl, ⟨rfl, hooo, rfl⟩, rfl⟩, ⟨rfl, rfl⟩, rfl⟩
  obtain rfl := List.mem_singleton.mp hs
  exact ⟨rfl, rfl, rfl⟩

lemma Inv.step_active (h : Inv p) (hord : Ordinary p (.active op)) (hawake : Awake p (.active op)) :
    Inv (p.step (.active op)) := by
  obtain ⟨hWa, hWb, hprobe⟩ := hord
  change (p.active.step p.passive.conn op).written.length < 2 ^ 30 at hWa
  change Phase (p.active.step p.passive.conn op) p.passive
  revert hWa
  refine Endpoint.step_elim (fun _ => h) fun call hop hWa => ?_
  rcases h with h | h | h
  · exact .inl (h.step_active hop)
  · exact .inr (h.step_active hop hWa hWb fun s hs => hawake (Op.delivers hop hs))
  · exact .inr (.inr (h.step hop hWa (Op.idle_of_probesAt hop hprobe)))

lemma Inv.step_passive (h : Inv p) (hord : Ordinary p (.passive op)) :
    Inv (p.step (.passive op)) := by
  obtain ⟨hWa, hWb, hprobe⟩ := hord
  change (p.passive.step p.active.conn op).written.length < 2 ^ 30 at hWb
  change Phase p.active (p.passive.step p.active.conn op)
  revert hWb
  refine Endpoint.step_elim (fun _ => h) fun call hop hWb => ?_
  rcases h with h | h | h
  · exact (h.step_passive hop).imp_right fun hans => .inl (hans.2 hWa)
  · exact .inr (.inl (h.step_passive hop))
  · exact .inr (.inr (h.symm.step hop hWb (Op.idle_of_probesAt hop hprobe)).symm)

lemma Inv.delivered (h : Inv p) : Delivered p := by
  rcases h with h | h | h
  · exact ⟨reads_of_empty h.read.1 h.presync.rcv.fin, reads_of_empty h.read.2 h.listening.rcv.fin⟩
  · exact ⟨reads_of_empty h.read h.presync.rcv.fin, h.flow.reads⟩
  · obtain ⟨t, t', hef, -, hfe, -⟩ := h.flows
    exact ⟨hfe.reads, hef.reads⟩

/-- The stream arrives end to end: in every run in which no packet reaches an actively opened
connection that has given up before its SYN was acknowledged, what is read at one end is the
beginning of what was written at the other, and the end of the stream is reported only after all
of it was read. -/
theorem end_to_end (hosts : Hosts) (events : List Event)
    (hrun : Run.Ok Pair.step (fun p e => Ordinary p e ∧ Awake p e) (start hosts) events) :
    Delivered (events.foldl Pair.step (start hosts)) := by
  refine (hrun.invariant (I := Inv) (.inl (waiting_start hosts)) fun p e hp hok => ?_).delivered
  cases e with
  | active op => exact hp.step_active hok.1 hok.2
  | passive op => exact hp.step_passive hok.1

def twoHosts : Hosts :=
  { activeIp := .replicate 16 1, passiveIp := .replicate 16 2, activePort := 9, passivePort := 80
    iss := 100, now := 0, mem := fun _ _ _ => 0 }

/-- A handshake, one byte each way, and the end of the active end's stream. -/
def exchange : List Event :=
  [.passive (.deliver 0 500 1), .active (.deliver 0 0 2), .passive (.deliver 1 0 3),
    .active (.write [7] 4), .passive (.deliver 2 0 5), .passive (.read 10), .passive (.write [8] 6),
    .active (.deliver 1 0 7), .active (.read 10), .active (.shutdownWrite 8),
    .passive (.deliver 3 0 9)]

theorem end_to_end_exchange :
    let p := exchange.foldl Pair.step (start twoHosts)
    Delivered p ∧ p.active.read = [8] ∧ p.passive.read = [7] ∧ p.passive.conn.readClosed = true :=
  ⟨end_to_end twoHosts exchange (by decide +kernel), by decide +kernel, by decide +kernel,
    by decide +kernel⟩

/-- A run in which the active end gives up on its SYN before the answer to it arrives. Closed as it
is, it answers three copies of the peer's SYN without taking its sequence number, which makes the
peer resend its first byte from the place of that SYN. The byte is taken there, and again at its
own place. -/
def lateAnswer : List Event :=
  [.passive (.deliver 0 0 1), .passive (.write [7] 2)] ++
    (List.range 13).map (fun k => .active (.tick ((k + 1) * 100000))) ++
    [.active (.deliver 0 0 1400000), .active (.deliver 0 0 1400000),
      .active (.deliver 0 0 1400000), .passive (.deliver 13 0 1400001),
      .passive (.deliver 14 0 1400001), .passive (.deliver 15 0 1400001),
      .active (.deliver 1 0 1400002), .active (.tick 1400100), .passive (.deliver 16 0 1400101),
      .active (.deliver 2 0 1400102), .active (.read 10)]

/-- Without the condition on late packets a byte can be read twice. -/
theorem closed_end_reads_twice :
    ¬∀ (hosts : Hosts) (events : List Event), Run.Ok Pair.step Ordinary (start hosts) events →
      Delivered (events.foldl Pair.step (start hosts)) := by
  intro h
  have hread : (lateAnswer.foldl Pair.step (start twoHosts)).active.read = [7, 7] := by
    decide +kernel
  have hwritten : (lateAnswer.foldl Pair.step (start twoHosts)).passive.written = [7] := by
    decide +kernel
  have hpart := (h twoHosts lateAnswer (by decide +kernel)).1.1
  rw [hread, hwritten] at hpart
  exact absurd hpart (by decide)

end Pair

end Tcp
