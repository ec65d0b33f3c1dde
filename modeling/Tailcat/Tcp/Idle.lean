import Tailcat.Tcp.Pair
import Tailcat.Tcp.Progress

/-!
# Idle connections

Two connections over a network that delivers every packet within `D` milliseconds and ticks both ends
at every deadline they report. A probe that finds its receiver without the sender's FIN is answered
long before the prober gives up. A receiver that has counted the FIN does not answer.

## Main results

* `idle_pair_survives`: no end gives up and every probe is answered, as long as none probes from
  `FIN_WAIT_2`;
* `half_closed_pair_dies`: an end in `FIN_WAIT_2` gives up on a live peer.
-/

namespace Tcp

open Conn

variable {now : ℕ}

/-! ## The network -/

/-- An end, with the segments that it has sent and that have not been delivered, each with the time
at which it was sent. -/
structure Station where
  conn : Conn
  flight : List (Segment × ℕ)

/-- What can happen at an end while its owner writes nothing. -/
inductive Act
  | tick
  | read (cap : ℕ)
  | shutdownWrite
  | deliver (i : ℕ)
  deriving DecidableEq

def Act.call (peer : Station) (now : ℕ) : Act → Option Call
  | .tick => some (.tick now)
  | .read cap => some (.read cap)
  | .shutdownWrite => some (.shutdownWrite now)
  | .deliver i => peer.flight[i]?.map fun m =>
    .input (packet peer.conn.addr.localIp peer.conn.addr.remoteIp m.1) 0 now

def Station.stepCall (e : Station) (call : Call) (now : ℕ) : Station :=
  { conn := e.conn.step call
    flight := e.flight ++ (newOut e.conn (e.conn.step call)).map (·, now) }

/-- The peer of an end after what happened there: what was delivered is in flight no more. -/
def Station.taken (f : Station) : Act → Station
  | .deliver i => { f with flight := f.flight.eraseIdx i }
  | _ => f

structure Net where
  active : Station
  passive : Station
  clock : ℕ

/-- Something happens at one of the ends. -/
inductive NetEvent
  | active (act : Act) (now : ℕ)
  | passive (act : Act) (now : ℕ)

def NetEvent.isActive : NetEvent → Bool
  | .active _ _ => true
  | .passive _ _ => false

def NetEvent.act : NetEvent → Act
  | .active act _ | .passive act _ => act

def NetEvent.time : NetEvent → ℕ
  | .active _ now | .passive _ now => now

namespace Net

/-- The active or the passive end. -/
def station (n : Net) (active : Bool) : Station := if active then n.active else n.passive

def step (n : Net) (e : NetEvent) : Net :=
  match e.act.call (n.station !e.isActive) e.time with
  | none => n
  | some call =>
    let self := (n.station e.isActive).stepCall call e.time
    let peer := (n.station !e.isActive).taken e.act
    if e.isActive then ⟨self, peer, e.time⟩ else ⟨peer, self, e.time⟩

/-- Time does not run back, no packet stays in flight for more than `D` milliseconds, and no
deadline passes without a tick. -/
def Timely (D : ℕ) (n : Net) (e : NetEvent) : Prop :=
  n.clock ≤ e.time ∧ ∀ active, (∀ m ∈ (n.station active).flight, e.time ≤ m.2 + D) ∧
    e.time ≤ (n.station active).conn.nextDeadline
deriving Decidable

/-- The idle runs: they are timely, and at most one end has shut down its write half. -/
def Idle (D : ℕ) (n : Net) (e : NetEvent) : Prop :=
  Timely D n e ∧ ¬((n.step e).active.conn.snd.finQueued ∧ (n.step e).passive.conn.snd.finQueued)
deriving Decidable

/-- The event makes an end give up on its peer. -/
def GivesUp (n : Net) (e : NetEvent) : Prop :=
  e.act = .tick ∧ Tcp.GivesUp (n.station e.isActive).conn e.time
deriving Decidable

/-- The event makes an end probe its peer. -/
def Probes (n : Net) (e : NetEvent) : Prop :=
  e.act = .tick ∧ (n.station e.isActive).conn.probesAt e.time
deriving Decidable

/-- The event makes an end in `FIN_WAIT_2` probe its peer. -/
def ProbesHalfClosed (n : Net) (e : NetEvent) : Prop :=
  (n.station e.isActive).conn.state = .finWait2 ∧ Probes n e
deriving Decidable

/-- If the event delivers a probe to an end that has not had the FIN of its peer, this end sends a
segment at once or schedules an acknowledgement. -/
def Responds (n : Net) (e : NetEvent) : Prop :=
  let c := (n.station e.isActive).conn
  let c' := ((n.step e).station e.isActive).conn
  ∀ i m, e.act = .deliver i → (n.station !e.isActive).flight[i]? = some m → m.1.isProbe →
    c.rcv.finReceived = false → c.out.length < c'.out.length ∨ c'.tmr.delackDeadline ≠ 0

/-- In the run after the probe `e` its receiver sends a segment, in the time that the probe needs to
arrive and an acknowledgement can be delayed. -/
def Answered (D : ℕ) (n : Net) (e : NetEvent) (after : List NetEvent) : Prop :=
  Run.Ok step (fun n' e' => e.time + D + delackMs < e'.time →
    (n.station !e.isActive).conn.out.length < (n'.station !e.isActive).conn.out.length)
    (n.step e) after

/-- The network takes over a pair of connections that have completed their handshake: any of the
segments sent so far may still be in flight, no probe is unanswered, and the delayed
acknowledgements are of the recent past. -/
structure TakesOver (n : Net) (p : Pair) : Prop where
  active : n.active.conn = p.active.conn
  passive : n.passive.conn = p.passive.conn
  synchronised : p.active.conn.state.synchronised ∧ p.passive.conn.state.synchronised
  sent : (∀ m ∈ n.active.flight, m.1 ∈ p.active.conn.out) ∧
    ∀ m ∈ n.passive.flight, m.1 ∈ p.passive.conn.out
  answered : p.active.conn.tmr.kaUnacked = 0 ∧ p.passive.conn.tmr.kaUnacked = 0
  recent : p.active.conn.tmr.delackDeadline ≤ n.clock + delackMs ∧
    p.passive.conn.tmr.delackDeadline ≤ n.clock + delackMs

end Net

/-! ## Answers that are due -/

/-- `f` is going to answer a probe that `e` sent at `t`: the probe is under way and `f` will answer
it, or an acknowledgement is scheduled. -/
inductive Pending (D t : ℕ) (e f : Station) : Prop
  | probe (m : Segment × ℕ) (hm : m ∈ e.flight) (hp : m.1.isProbe) (ht : m.2 ≤ t)
      (hf : f.conn.rcv.finReceived = false)
  | delack (hd : f.conn.tmr.delackDeadline ≠ 0)
      (ht : f.conn.tmr.delackDeadline ≤ t + D + delackMs)

lemma Pending.le {D t : ℕ} {e f : Station} (h : Pending D t e f)
    (hflight : ∀ m ∈ e.flight, now ≤ m.2 + D) (htick : now ≤ f.conn.nextDeadline) :
    now ≤ t + D + delackMs := by
  cases h with
  | probe m hm _ ht _ =>
    have := hflight m hm
    omega
  | delack hd ht =>
    have := nextDeadline_le_delack hd
    omega

/-- `f`, which had sent `k` segments when `e` sent a probe at `t`, has sent more since, or it is going
to answer. -/
def Answers (D t k : ℕ) (e f : Station) : Prop :=
  k ≤ f.conn.out.length ∧ (Pending D t e f ∨ k < f.conn.out.length)

/-- Something that `e` is bound to hear of `f`, if it has been waiting since `t`: an answer that is
pending, or a segment under way. -/
def Due (D t : ℕ) (e f : Station) : Prop :=
  Pending D t e f ∨ ∃ m ∈ f.flight, m.2 ≤ t + D + delackMs

/-- If `e` has sent probes since it last heard of `f`, something is due since the first of them. -/
def Owed (D : ℕ) (e f : Station) : Prop :=
  e.conn.tmr.kaUnacked = 0 ∨
    ∃ t, t + keepaliveIntvlMs * e.conn.tmr.kaUnacked ≤ e.conn.tmr.kaDeadline ∧ Due D t e f

/-- The invariant of two ends that are alive. -/
structure Live (D : ℕ) (e f : Station) (clock : ℕ) : Prop where
  acquainted : Acquainted e.conn f.conn
  settled : e.conn.state.Settled
  settled' : f.conn.state.Settled
  sent : ∀ m ∈ e.flight, m.1 ∈ e.conn.out
  sent' : ∀ m ∈ f.flight, m.1 ∈ f.conn.out
  recent : e.conn.tmr.delackDeadline ≤ clock + delackMs
  recent' : f.conn.tmr.delackDeadline ≤ clock + delackMs
  owed : Owed D e f
  owed' : Owed D f e

namespace Live

variable {D clock t : ℕ} {e f : Station} {act : Act} {call : Call} {m : Segment × ℕ}

lemma symm (h : Live D e f clock) : Live D f e clock :=
  ⟨h.acquainted.symm, h.settled', h.settled, h.sent', h.sent, h.recent', h.recent, h.owed', h.owed⟩

lemma input_eq (h : Live D e f clock) (hm : m ∈ f.flight) (now : ℕ) :
    e.conn.step (.input (packet f.conn.addr.localIp f.conn.addr.remoteIp m.1) 0 now) =
      (e.conn.stamp now).inputSegment m.1 0 now :=
  tcpInput_packet (h.acquainted.linked.addressedTo (h.sent' m hm))
    (h.acquainted.linked.length_le (h.sent' m hm)) 0 now

lemma responds (h : Live D e f clock) (hm : m ∈ f.flight) (hp : m.1.isProbe)
    (hf : e.conn.rcv.finReceived = false) (now : ℕ) :
    let c := e.conn.step (.input (packet f.conn.addr.localIp f.conn.addr.remoteIp m.1) 0 now)
    e.conn.out.length < c.out.length ∨ c.tmr.delackDeadline ≠ 0 := by
  rw [h.input_eq hm]
  exact answers_probe h.settled hp hf 0 now

lemma segment_mem (h : Live D e f clock) (hact : act.call f now = some call) {s : Segment}
    (hs : call.segment e.conn = some s) : s ∈ f.conn.out := by
  cases act with
  | deliver i =>
    obtain ⟨m, hm, rfl⟩ := Option.map_eq_some_iff.mp hact
    have hmem := h.sent' m (List.mem_of_getElem? hm)
    rw [Call.segment, parse_packet (h.acquainted.linked.addressedTo hmem)
      (h.acquainted.linked.length_le hmem)] at hs
    cases hs
    exact hmem
  | _ =>
    cases hact
    cases hs

lemma progress (hact : act.call f now = some call) (c : Conn) : Progress now c (c.step call) := by
  apply progress_step
  cases act with
  | tick =>
    cases hact
    exact .inl rfl
  | read cap =>
    cases hact
    exact .inr ⟨cap, rfl⟩
  | shutdownWrite =>
    cases hact
    exact .inl rfl
  | deliver i =>
    obtain ⟨m, -, rfl⟩ := Option.map_eq_some_iff.mp hact
    exact .inl rfl

lemma mem_flight_of_mem (hm : m ∈ e.flight) : m ∈
    (e.stepCall call now).flight :=
  List.mem_append_left _ hm

lemma exists_flight_of_lt (now : ℕ) (h : e.conn.out.length < (e.conn.step call).out.length) :
    ∃ m ∈ (e.stepCall call now).flight, m.2 = now := by
  have hne : newOut e.conn (e.conn.step call) ≠ [] := by
    rw [newOut, ← List.length_pos_iff, List.length_drop]
    omega
  obtain ⟨s, l, hl⟩ := List.exists_cons_of_ne_nil hne
  refine ⟨(s, now), List.mem_append_right _ ?_, rfl⟩
  rw [hl]
  exact List.mem_cons_self

lemma conn_taken (f : Station) (act : Act) : (f.taken act).conn = f.conn := by cases act <;> rfl

lemma pending_self (h : Pending D t e f) (act : Act) :
    Pending D t (e.stepCall call now) (f.taken act) := by
  cases h with
  | probe m hm hp ht hf => exact .probe m (mem_flight_of_mem hm) hp ht (by rwa [conn_taken])
  | delack hd ht => exact .delack (by rwa [conn_taken]) (by rwa [conn_taken])

lemma answers_self {k : ℕ} (h : Answers D t k e f) (act : Act) :
    Answers D t k (e.stepCall call now) (f.taken act) := by
  rw [Answers, conn_taken]
  exact ⟨h.1, h.2.imp_left (pending_self · act)⟩

lemma due_self (h : Due D t e f) : Due D t (e.stepCall call now) f :=
  h.imp_left (pending_self · .tick)

/-- A probe from another state than `FIN_WAIT_2` finds a peer that will answer. -/
lemma pending_tick (h : Live D e f clock) (hprobe : e.conn.probesAt now)
    (hhalf : e.conn.state ≠ .finWait2) : Pending D now (e.stepCall (.tick now) now) f := by
  have hf : f.conn.rcv.finReceived = false :=
    h.acquainted.not_heard (not_finOut_of_probesAt hprobe hhalf)
  refine .probe (e.conn.probe now, now) ?_ rfl le_rfl hf
  exact List.mem_append_right _ (List.mem_map_of_mem (probe_mem_newOut hprobe))

lemma owed_tick (h : Live D e f clock) (hno : ¬GivesUp e.conn now)
    (hhalf : ¬(e.conn.state = .finWait2 ∧ e.conn.probesAt now)) :
    Owed D (e.stepCall (.tick now) now) f := by
  have hdue : ∀ {t}, Due D t e f → Due D t (e.stepCall (.tick now) now) f := due_self
  rcases tick_ka hno with ⟨hprobe, hcount, hnext, hle⟩ | ⟨-, hcount, hnext⟩
  · refine .inr ?_
    have hcount' : (e.stepCall (.tick now) now).conn.tmr.kaUnacked = e.conn.tmr.kaUnacked + 1 :=
      hcount
    have hnext' : (e.stepCall (.tick now) now).conn.tmr.kaDeadline = now + keepaliveIntvlMs := hnext
    rw [hcount', Nat.mul_add]
    rcases h.owed with hz | ⟨t, ht, hd⟩
    · -- the first probe since `e` last heard of `f`
      exact ⟨now, by rw [hz]; omega, .inl (h.pending_tick hprobe fun hst => hhalf ⟨hst, hprobe⟩)⟩
    · exact ⟨t, by omega, hdue hd⟩
  · rcases h.owed with hz | ⟨t, ht, hd⟩
    · exact .inl (hcount.trans hz)
    · refine .inr ⟨t, ?_, hdue hd⟩
      change t + keepaliveIntvlMs * (e.conn.tcpTick now).1.tmr.kaUnacked ≤
        (e.conn.tcpTick now).1.tmr.kaDeadline
      rw [hcount, hnext]
      exact ht

lemma owed_of_keepsKa (h : Owed D e f) (hka : KeepsKa e.conn (e.conn.step call)) :
    Owed D (e.stepCall call now) f := by
  rcases h with hz | ⟨t, ht, hd⟩
  · exact .inl (hka.1.trans hz)
  refine .inr ⟨t, ?_, due_self hd⟩
  change t + keepaliveIntvlMs * (e.conn.step call).tmr.kaUnacked ≤ (e.conn.step call).tmr.kaDeadline
  rw [hka.1, hka.2]
  exact ht

lemma owed_self (h : Live D e f clock) (hact : act.call f now = some call)
    (hno : act = .tick → ¬GivesUp e.conn now)
    (hhalf : act = .tick → ¬(e.conn.state = .finWait2 ∧ e.conn.probesAt now)) :
    Owed D (e.stepCall call now) (f.taken act) := by
  cases act with
  | tick =>
    cases hact
    exact h.owed_tick (hno rfl) (hhalf rfl)
  | read cap =>
    cases hact
    refine owed_of_keepsKa h.owed ?_
    change KeepsKa e.conn (e.conn.tcpRead cap).1
    obtain ⟨d, hd⟩ := (e.conn.recvOnly_tcpRead cap).onlyDelack
    rw [KeepsKa, hd]
    exact ⟨rfl, rfl⟩
  | shutdownWrite =>
    cases hact
    refine owed_of_keepsKa h.owed ?_
    change KeepsKa e.conn (e.conn.tcpShutdownWrite now).1
    unfold tcpShutdownWrite
    split_ifs
    · exact ⟨rfl, rfl⟩
    · exact ⟨rfl, rfl⟩
    · have hqueue : KeepsKa e.conn e.conn.queueFin := ⟨rfl, rfl⟩
      exact hqueue.trans (acts_trySend _ now).keepsKa
  | deliver i =>
    -- whatever arrives, `e` has heard of `f`
    obtain ⟨m, hm, rfl⟩ := Option.map_eq_some_iff.mp hact
    refine .inl ?_
    change (e.conn.step _).tmr.kaUnacked = 0
    rw [h.input_eq (List.mem_of_getElem? hm)]
    exact kaUnacked_inputSegment h.settled m.1 0 now

section

variable (h : Live D e f clock) (hact : act.call f now = some call) (hclock : clock ≤ now)
  (hflight : ∀ m ∈ f.flight, now ≤ m.2 + D)

include h hact hclock hflight

lemma pending_peer (hpending : Pending D t f e) :
    Pending D t (f.taken act) (e.stepCall call now) ∨
      e.conn.out.length < (e.conn.step call).out.length := by
  have hprog := progress hact e.conn
  cases hpending with
  | probe m hm hp ht hf =>
    -- the probe is still in flight, or it is the packet that arrives
    have hgo : m ∈ (f.taken act).flight → Pending D t (f.taken act) (e.stepCall call now) ∨
        e.conn.out.length < (e.conn.step call).out.length := fun hm' => by
      cases hf' : (e.conn.step call).rcv.finReceived with
      | false => exact .inl (.probe m hm' hp ht hf')
      | true => exact .inr ((hprog.fin hf').resolve_left (by simp [hf]))
    cases act with
    | deliver i =>
      obtain ⟨m', hm', rfl⟩ := Option.map_eq_some_iff.mp hact
      by_cases heq : m' = m
      · subst heq
        refine (h.responds hm hp hf now).symm.imp_left fun hne => .delack hne (hprog.bound.trans ?_)
        have hnow := hflight m' hm
        have hrecent := h.recent
        omega
      · refine hgo ?_
        obtain ⟨j, hj⟩ := List.mem_iff_getElem?.mp hm
        refine List.mem_eraseIdx_iff_getElem?.mpr ⟨j, fun hij => heq ?_, hj⟩
        rw [hij, hm'] at hj
        exact Option.some.inj hj
    | _ => exact hgo hm
  | delack hd ht =>
    refine (hprog.delack hd).imp_left fun heq => ?_
    exact .delack (heq ▸ hd) (heq.le.trans ht)

lemma due_peer (htick : now ≤ e.conn.nextDeadline) (hdue : Due D t f e) :
    Due D t (f.taken act) (e.stepCall call now) := by
  obtain hpending | ⟨m, hm, ht⟩ := hdue
  · refine (h.pending_peer hact hclock hflight hpending).imp_right fun hlt => ?_
    obtain ⟨m, hm, rfl⟩ := exists_flight_of_lt now hlt
    exact ⟨m, hm, hpending.le hflight htick⟩
  · exact .inr ⟨m, mem_flight_of_mem hm, ht⟩

lemma answers_peer {k : ℕ} (hans : Answers D t k f e) :
    Answers D t k (f.taken act) (e.stepCall call now) := by
  have hle : e.conn.out.length ≤ (e.conn.step call).out.length := (progress hact e.conn).length
  refine ⟨hans.1.trans hle, ?_⟩
  rcases hans.2 with hpending | hlt
  · refine (h.pending_peer hact hclock hflight hpending).imp_right fun hlt => ?_
    exact hans.1.trans_lt hlt
  · exact .inr (hlt.trans_le hle)

lemma step (htick : now ≤ e.conn.nextDeadline) (hno : act = .tick → ¬GivesUp e.conn now)
    (hhalf : act = .tick → ¬(e.conn.state = .finWait2 ∧ e.conn.probesAt now)) :
    Live D (e.stepCall call now) (f.taken act) now := by
  have hprog := progress hact e.conn
  have hmail := mails_step h.acquainted.state call
  have hsub : ∀ s ∈ e.conn.out, s ∈ (e.conn.step call).out := fun s hs => by
    obtain ⟨l, hl, -⟩ := hmail.emits
    rw [hl]
    exact List.mem_append_left l hs
  have hf := conn_taken f act
  have hfl : ∀ m ∈ (f.taken act).flight, m ∈ f.flight := fun m hm => by
    cases act with
    | deliver i => exact List.mem_of_mem_eraseIdx hm
    | _ => exact hm
  have hacq := h.acquainted.step fun s hs => h.segment_mem hact hs
  have hrecent := h.recent
  have hrecent' := h.recent'
  refine ⟨by rw [hf]; exact hacq, ?_, by rw [hf]; exact h.settled', fun m hm => ?_,
    fun m hm => by rw [hf]; exact h.sent' m (hfl m hm), hprog.bound.trans ?_, ?_,
    h.owed_self hact hno hhalf, ?_⟩
  · exact hmail.settled h.settled
  · rcases List.mem_append.mp hm with hm | hm
    · exact hsub _ (h.sent m hm)
    · obtain ⟨s, hs, rfl⟩ := List.mem_map.mp hm
      exact List.mem_of_mem_drop hs
  · omega
  · rw [hf]
    omega
  · rcases h.owed' with hz | ⟨t, ht, hdue⟩
    · exact .inl (by rw [hf]; exact hz)
    · exact .inr ⟨t, by rw [hf]; exact ht, h.due_peer hact hclock hflight htick hdue⟩

end

lemma not_givesUp (h : Live D e f clock)
    (hD : 2 * D + delackMs < keepaliveIntvlMs * keepaliveProbes)
    (hflight : ∀ m ∈ e.flight, now ≤ m.2 + D) (hflight' : ∀ m ∈ f.flight, now ≤ m.2 + D)
    (htick : now ≤ f.conn.nextDeadline) : ¬GivesUp e.conn now := by
  rintro ⟨hdue, hmany⟩
  have hview := keepsKa_idleView e.conn now
  simp only [kaDue, Bool.and_eq_true, decide_eq_true_eq, hview.2] at hdue
  rw [hview.1] at hmany
  have hmul : keepaliveIntvlMs * keepaliveProbes ≤ keepaliveIntvlMs * e.conn.tmr.kaUnacked :=
    Nat.mul_le_mul_left _ hmany
  rcases h.owed with hz | ⟨t, ht, hd⟩
  · rw [hz] at hmany
    exact absurd hmany (by decide)
  obtain hpending | ⟨m, hm, ht'⟩ := hd
  · have hsoon := hpending.le hflight htick
    omega
  · have hsoon := hflight' m hm
    omega

end Live

/-! ## Runs of the network -/

namespace Pair

def Known (p : Pair) : Prop :=
  Waiting p.active p.passive ∨ Acquainted p.active.conn p.passive.conn

lemma Known.step {p : Pair} (h : Known p) (e : Event) : Known (p.step e) := by
  cases e with
  | active op =>
    change Waiting (p.active.step p.passive.conn op) p.passive ∨
      Acquainted (p.active.step p.passive.conn op).conn p.passive.conn
    refine Endpoint.step_elim h fun call hop => ?_
    rcases h with h | h
    · exact .inl (h.step_active hop)
    · exact .inr (h.step fun s hs => (Op.call_eq h.linked hop hs).1)
  | passive op =>
    change Waiting p.active (p.passive.step p.active.conn op) ∨
      Acquainted p.active.conn (p.passive.step p.active.conn op).conn
    refine Endpoint.step_elim h fun call hop => ?_
    rcases h with h | h
    · exact (h.step_passive hop).imp_right And.left
    · exact .inr (h.symm.step fun s hs => (Op.call_eq h.linked' hop hs).1).symm

lemma acquainted_of_run {p : Pair} (hp : Known p) (history : List Event)
    (hsync : (history.foldl Pair.step p).active.conn.state.synchronised) :
    Acquainted (history.foldl Pair.step p).active.conn
      (history.foldl Pair.step p).passive.conn := by
  have h : Known (history.foldl Pair.step p) :=
    Run.foldl_invariant hp (fun _ e hp => hp.step e) history
  refine h.resolve_left fun hw => ?_
  exact absurd (hw.presync.not_synchronised.symm.trans hsync) (by simp)

end Pair

namespace Net

/-- The invariant, seen from either end. -/
def Alive (D : ℕ) (n : Net) : Prop := ∀ active, Live D (n.station active) (n.station !active) n.clock

variable {D t k : ℕ} {n : Net} {e : NetEvent}

lemma step_cases (n : Net) (e : NetEvent) :
    (e.act.call (n.station !e.isActive) e.time = none ∧ n.step e = n) ∨
    ∃ call, e.act.call (n.station !e.isActive) e.time = some call ∧
      (n.step e).station e.isActive = (n.station e.isActive).stepCall call e.time ∧
      (n.step e).station (!e.isActive) = (n.station !e.isActive).taken e.act ∧
      (n.step e).clock = e.time := by
  unfold step
  split
  · next hnone => exact .inl ⟨hnone, rfl⟩
  · next call hcall => cases e <;> exact .inr ⟨call, hcall, rfl, rfl, rfl⟩

lemma alive_of_live (active : Bool)
    (h : Live D (n.station active) (n.station !active) n.clock) : n.Alive D := by
  intro side
  cases active <;> cases side
  · exact h
  · exact h.symm
  · exact h.symm
  · exact h

lemma Alive.not_givesUp (h : n.Alive D)
    (hD : 2 * D + delackMs < keepaliveIntvlMs * keepaliveProbes) (ht : Timely D n e)
    (active : Bool) : ¬Tcp.GivesUp (n.station active).conn e.time :=
  (h active).not_givesUp hD (ht.2 _).1 (ht.2 _).1 (ht.2 _).2

lemma Alive.step (h : n.Alive D) (hD : 2 * D + delackMs < keepaliveIntvlMs * keepaliveProbes)
    (ht : Timely D n e) (hhalf : ¬ProbesHalfClosed n e) : (n.step e).Alive D := by
  obtain ⟨-, heq⟩ | ⟨call, hact, hself, hpeer, hclock⟩ := n.step_cases e
  · rwa [heq]
  apply alive_of_live e.isActive
  rw [hself, hpeer, hclock]
  exact (h _).step hact ht.1 (ht.2 _).1 (ht.2 _).2 (fun _ => h.not_givesUp hD ht _)
    fun htick hprobe => hhalf ⟨hprobe.1, htick, hprobe.2⟩

lemma Alive.responds (h : n.Alive D) (e : NetEvent) : Responds n e := by
  intro i m hdeliver hm hp hf
  obtain ⟨hno, -⟩ | ⟨call, hact, hself, -⟩ := n.step_cases e
  · rw [hdeliver, Act.call, hm] at hno
    cases hno
  rw [hdeliver, Act.call, hm] at hact
  obtain rfl := Option.some.inj hact
  rw [hself]
  exact (h _).responds (List.mem_of_getElem? hm) hp hf e.time

lemma Alive.answers_step (h : n.Alive D) (ht : Timely D n e) {active : Bool}
    (hans : Answers D t k (n.station active) (n.station !active)) :
    Answers D t k ((n.step e).station active) ((n.step e).station !active) := by
  obtain ⟨-, heq⟩ | ⟨call, hact, hself, hpeer, -⟩ := n.step_cases e
  · rwa [heq]
  -- at the end that has sent the probe nothing changes, and the other end may answer it
  obtain rfl | rfl := Bool.eq_or_eq_not active e.isActive
  · rw [hself, hpeer]
    exact Live.answers_self hans e.act
  · rw [Bool.not_not] at hans ⊢
    rw [hself, hpeer]
    exact (h _).answers_peer hact ht.1 (ht.2 _).1 hans

lemma Alive.answered (h : n.Alive D)
    (hD : 2 * D + delackMs < keepaliveIntvlMs * keepaliveProbes) (hprobe : Probes n e)
    (ht : Timely D n e) (hhalf : ¬ProbesHalfClosed n e) {after : List NetEvent}
    (hrun : Run.Ok Net.step (fun n e => Idle D n e ∧ ¬ProbesHalfClosed n e) (n.step e) after) :
    Answered D n e after := by
  have hstart : Answers D e.time (n.station !e.isActive).conn.out.length
      ((n.step e).station e.isActive) ((n.step e).station !e.isActive) := by
    obtain ⟨hno, -⟩ | ⟨call, hact, hself, hpeer, -⟩ := n.step_cases e
    · rw [hprobe.1] at hno
      cases hno
    rw [hprobe.1] at hact hpeer
    obtain rfl := Option.some.inj hact
    rw [hself, hpeer]
    exact ⟨le_rfl, .inl ((h _).pending_tick hprobe.2 fun hst => hhalf ⟨hst, hprobe⟩)⟩
  refine hrun.of_invariant (I := fun n' => n'.Alive D ∧
    Answers D e.time (n.station !e.isActive).conn.out.length (n'.station e.isActive)
      (n'.station !e.isActive)) ⟨h.step hD ht hhalf, hstart⟩ ?_ ?_
  · exact fun n' e' h hok => ⟨h.1.step hD hok.1.1 hok.2, h.1.answers_step hok.1.1 h.2⟩
  · rintro n' e' ⟨-, -, hpending | hlt⟩ hok hlate
    · -- the probe and the delayed acknowledgement are overdue
      have hsoon := hpending.le (hok.1.1.2 _).1 (hok.1.1.2 _).2
      omega
    · exact hlt

/-- Idle connections survive: after any history of a pair, as long as the network loses nothing,
both ends are ticked in time and none of them probes from `FIN_WAIT_2`, no end gives up on the
other, each end responds to the probes it receives, and every probe is answered in time. -/
theorem idle_pair_survives (hosts : Pair.Hosts) (history : List Event) (n : Net)
    (hn : n.TakesOver (history.foldl Pair.step (.start hosts)))
    (D : ℕ) (hD : 2 * D + delackMs < keepaliveIntvlMs * keepaliveProbes) (events : List NetEvent)
    (hrun : Run.Ok Net.step (fun n e => Idle D n e ∧ ¬ProbesHalfClosed n e) n events) :
    Run.Ok Net.step (fun n e => ¬GivesUp n e ∧ Responds n e) n events ∧
      ∀ before e after, events = before ++ e :: after → Probes (before.foldl Net.step n) e →
        Answered D (before.foldl Net.step n) e after := by
  have hacq := Pair.acquainted_of_run (.inl (Pair.waiting_start hosts)) history hn.synchronised.1
  have halive : n.Alive D := by
    obtain ⟨hactive, hpassive, hsync, hsent, hanswered, hrecent⟩ := hn
    rw [← hactive, ← hpassive] at hacq hsync hsent hanswered hrecent
    exact alive_of_live true ⟨hacq, settled_of_past (.inl hsync.1),
      settled_of_past (.inl hsync.2), hsent.1, hsent.2, hrecent.1, hrecent.2, .inl hanswered.1,
      .inl hanswered.2⟩
  have hstep : ∀ n e, n.Alive D → Idle D n e ∧ ¬ProbesHalfClosed n e → (n.step e).Alive D :=
    fun n e h hok => h.step hD hok.1.1 hok.2
  constructor
  · refine hrun.of_invariant halive hstep fun n e h hok => ⟨fun hup => ?_, h.responds e⟩
    exact h.not_givesUp hD hok.1.1 _ hup.2
  · rintro before e after rfl hprobe
    obtain ⟨hbefore, hok, hafter⟩ := Run.ok_append_iff.mp hrun
    exact (hbefore.invariant halive hstep).answered hD hprobe hok.1.1 hok.2 hafter

def handshake : List Event :=
  [.passive (.deliver 0 500 1), .active (.deliver 0 0 2), .passive (.deliver 1 0 3)]

/-- The network takes over right after the handshake. -/
def afterHandshake : Net :=
  { active := { conn := (handshake.foldl Pair.step (.start Pair.twoHosts)).active.conn, flight := [] }
    passive := { conn := (handshake.foldl Pair.step (.start Pair.twoHosts)).passive.conn, flight := [] }
    clock := 3 }

private lemma takesOver_afterHandshake :
    afterHandshake.TakesOver (handshake.foldl Pair.step (.start Pair.twoHosts)) := by
  refine ⟨rfl, rfl, ⟨?_, ?_⟩, ⟨nofun, nofun⟩, ⟨?_, ?_⟩, ⟨?_, ?_⟩⟩ <;> decide +kernel

/-- Both ends are left alone for two minutes: first the active end probes, then the passive end,
and both are answered. -/
def quietMinutes : List NetEvent :=
  [.active .tick 60002, .passive (.deliver 0) 60003, .active (.deliver 0) 60004,
    .passive .tick 120003, .active (.deliver 0) 120004, .passive (.deliver 0) 120005]

theorem idle_pair_survives_minutes :
    Run.Ok Net.step (fun n e => ¬GivesUp n e ∧ Responds n e) afterHandshake quietMinutes ∧
      Answered 100 afterHandshake (.active .tick 60002) quietMinutes.tail := by
  have h := idle_pair_survives Pair.twoHosts handshake afterHandshake takesOver_afterHandshake 100
    (by decide) quietMinutes (by decide +kernel)
  exact ⟨h.1, h.2 [] _ _ rfl (by decide +kernel)⟩

/-- The active end shuts down its write half, and both ends are left alone after that. It probes
six times from `FIN_WAIT_2`. -/
def halfClosedMinutes : List NetEvent :=
  [.active .shutdownWrite 4, .passive (.deliver 0) 5, .active (.deliver 0) 5] ++
    (List.range 6).flatMap (fun k =>
      [.active .tick (60005 + 10000 * k), .passive (.deliver 0) (60005 + 10000 * k)]) ++
    [.active .tick 120005]

/-- An end in `FIN_WAIT_2` gives up on a live peer: the peer has counted its FIN, and does not
answer. -/
theorem half_closed_pair_dies :
    ¬∀ (hosts : Pair.Hosts) (history : List Event) (n : Net),
      n.TakesOver (history.foldl Pair.step (.start hosts)) →
      ∀ D : ℕ, 2 * D + delackMs < keepaliveIntvlMs * keepaliveProbes → ∀ events : List NetEvent,
      Run.Ok Net.step (Idle D) n events → Run.Ok Net.step (fun n e => ¬GivesUp n e) n events := by
  intro h
  have hrun := h Pair.twoHosts handshake afterHandshake takesOver_afterHandshake 100 (by decide)
    halfClosedMinutes (by decide +kernel)
  have hdies : ¬Run.Ok Net.step (fun n e => ¬GivesUp n e) afterHandshake halfClosedMinutes := by
    decide +kernel
  exact hdies hrun

end Net

end Tcp
