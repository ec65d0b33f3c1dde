import Tailcat.Net.UdpFlows

/-!
# The queue and the bindings of the UDP multiplexer

The queue of the source is a ring of slots; here the calls act on the ring next to the list of the
multiplexer, which it refines. Bindings have different flows, and with a clock that does not go back a
binding ends only in a tick that comes late enough. A port that a bind returns is an ephemeral one that
is not listened on as long as the other calls leave those ports alone.

## Main results

* `queue_and_bindings`: what is received, and which bindings there are;
* `bind_reserved`: which port a bind returns.
-/

namespace Udp

open Mux
open List hiding Vector
open Tcp (Ipv6Addr)

variable {m : Mux} {call : Mux.Call} {h : List Event} {e : Event} {f : Flow} {t : ℕ}

/-! ## The queue -/

/-- What `tc_udp_mux_recv` answers. -/
inductive Received
  | empty
  /-- The buffer is too small; so much is needed. -/
  | tooSmall (needed : ℕ)
  | datagram (q : Queued)
  deriving DecidableEq

/-- A multiplexer with its queue as a ring, and what has been accepted and returned, each datagram with
the packet that carried it. -/
structure Queueing where
  mux : Mux
  ring : RingBuffer Queued queueLen
  accepted : List (List UInt8 × Datagram)
  returned : List Queued

namespace Queueing

def start (localIp remoteIp : Ipv6Addr) : Queueing :=
  { mux := .muxNew localIp remoteIp
    ring := .empty (fun _ => ⟨0, 0, ⟨.unset, 0⟩, []⟩) (by decide)
    accepted := [], returned := [] }

/-- The end of `tc_udp_mux_input`, from the search for a flow on. -/
def input (s : Queueing) (pkt : List UInt8) (d : Datagram) : Queueing :=
  if (s.mux.bindingFor d).isNone ∧ d.dst = s.mux.localIp ∧
      (d.src ≠ s.mux.remoteIp ∨ s.mux.listening d.dstPort = false) then s
  else if d.data.length > maxDgram then s
  else if h : s.ring.len ≥ queueLen then s
  else
    { s with
      ring := s.ring.push [s.mux.queuedFor d] (Nat.sub_pos_of_lt (Nat.lt_of_not_le h))
      accepted := s.accepted ++ [(pkt, d)] }

def recv (s : Queueing) (cap : ℕ) : Queueing × Received :=
  if s.ring.len = 0 then (s, .empty)
  else
    let q := s.ring.get 0
    if q.data.length > cap then (s, .tooSmall q.data.length)
    else ({ s with ring := s.ring.drop 1, returned := s.returned ++ [q] }, .datagram q)

def step (s : Queueing) (call : Mux.Call) : Queueing :=
  let s' :=
    match call with
    | .input pkt _ =>
      match s.mux.arrival pkt with
      | .error _ => s
      | .ok d => s.input pkt d
    | .recv cap => (s.recv cap).1
    | _ => s
  { s' with mux := s.mux.step call }

/-- The ring holds what the list holds, which is what was accepted and not yet returned. -/
structure Conserves (s : Queueing) : Prop where
  queue : s.ring.toList = s.mux.queue
  accepted : s.accepted.map (fun a => s.mux.queuedFor a.2) = s.returned ++ s.ring.toList
  wellFormed : ∀ a ∈ s.accepted, WellFormed a.1 a.2

variable {s : Queueing}

lemma recv_eq (s : Queueing) (cap : ℕ) : s.recv cap =
    match s.ring.toList with
    | [] => (s, .empty)
    | q :: _ =>
      if q.data.length > cap then (s, .tooSmall q.data.length)
      else ({ s with ring := s.ring.drop 1, returned := s.returned ++ [q] }, .datagram q) := by
  have hlen := s.ring.length_toList
  have hget := s.ring.getElem_toList 0
  unfold recv
  cases hring : s.ring.toList with
  | nil =>
    rw [hring] at hlen
    exact if_pos hlen.symm
  | cons q rest =>
    simp only [hring, length_cons, getElem_cons_zero] at hlen hget
    rw [if_neg (by omega), ← hget (Nat.zero_lt_succ _)]

lemma Conserves.of_mux (hs : s.Conserves) {mux : Mux} (hqueue : mux.queue = s.mux.queue)
    (hfor : ∀ d, mux.queuedFor d = s.mux.queuedFor d) : Conserves { s with mux } where
  queue := hs.queue.trans hqueue.symm
  accepted := by simp only [hfor, hs.accepted]
  wellFormed := hs.wellFormed

lemma Conserves.step (hs : s.Conserves) (hm : s.mux.Proper) (call : Mux.Call) :
    (s.step call).Conserves := by
  have hframe := frame_step hm.next call
  have hfor : ∀ d, (s.mux.step call).queuedFor d = s.mux.queuedFor d := by
    intro d
    simp only [queuedFor, hframe.localIp, hframe.remoteIp]
  cases call with
  | input pkt now =>
    cases harr : s.mux.arrival pkt with
    | error d =>
      have hqueue : (s.mux.step (.input pkt now)).queue = s.mux.queue := by
        simp only [Mux.step, Mux.input, harr]
        rfl
      simp only [Queueing.step, harr]
      exact hs.of_mux hqueue hfor
    | ok d =>
      obtain ⟨stats, heq⟩ := s.mux.deliver_eq d now
      have hqueue : (s.mux.step (.input pkt now)).queue = s.mux.queueAfter d := by
        simp only [Mux.step, Mux.input, harr, heq]
      rw [queueAfter, verdict, ← hs.queue, RingBuffer.length_toList] at hqueue
      simp only [Queueing.step, harr]
      unfold input
      split_ifs at hqueue ⊢ with hno hlarge hfull
      · exact hs.of_mux (hqueue.trans hs.queue) hfor
      · exact hs.of_mux (hqueue.trans hs.queue) hfor
      · exact hs.of_mux (hqueue.trans hs.queue) hfor
      have hpush : (s.ring.push [s.mux.queuedFor d] (Nat.sub_pos_of_lt
          (Nat.lt_of_not_le hfull))).toList = _ := s.ring.toList_push _
      refine ⟨hpush.trans hqueue.symm, ?_, ?_⟩
      · simp only [hfor, map_append, map_cons, map_nil, hs.accepted, hpush, append_assoc]
      · intro a ha
        rcases mem_append.mp ha with ha | ha
        · exact hs.wellFormed a ha
        · rw [mem_singleton.mp ha]
          exact wellFormed_of_arrival harr
  | recv cap =>
    have hqueue := hs.queue
    have haccepted := hs.accepted
    simp only [Queueing.step, recv_eq]
    simp only [Mux.step, Mux.recv] at hfor ⊢
    cases hring : s.ring.toList with
    | nil =>
      rw [hring] at hqueue
      simp only [← hqueue] at hfor ⊢
      exact hs
    | cons q rest =>
      rw [hring] at hqueue haccepted
      simp only [← hqueue] at hfor ⊢
      split_ifs
      · exact hs
      refine ⟨?_, ?_, hs.wellFormed⟩
      · rw [RingBuffer.toList_drop, hring, drop_one, tail_cons]
      · rw [RingBuffer.toList_drop, hring, drop_one, append_assoc]
        exact haccepted
  | _ => exact hs.of_mux (hframe.queue (by simp) (by simp)) hfor

end Queueing

/-! ## The bindings -/

lemma Event.Uses.unique {f' : Flow} {t' : ℕ} (h : e.Uses f t) (h' : e.Uses f' t') :
    f = f' ∧ t = t' := by
  rcases h with rfl | ⟨_, rfl⟩ <;> rcases h' with h' | ⟨_, h'⟩ <;> cases h'
  · exact ⟨rfl, rfl⟩
  · exact ⟨rfl, rfl⟩

namespace Mux

/-- No two bindings have the same flow. -/
def Distinct (m : Mux) : Prop :=
  ∀ (i j : Fin maxBindings) (b b' : Binding), m.bindings.get i = some b → m.bindings.get j = some b' →
    b.flow m.remoteIp = b'.flow m.remoteIp → i = j

lemma Distinct.step (hd : m.Distinct) (hm : m.Proper) (call : Call) : (m.step call).Distinct := by
  intro i j b b' hb hb' hflow
  have hchange := change_step hm call
  rw [(frame_step hm.next call).remoteIp] at hflow
  obtain ⟨b0, hb0, -, hb0flow⟩ | ⟨-, hnew, -⟩ := hchange.origin hb
  · obtain ⟨b1, hb1, -, hb1flow⟩ | ⟨-, hnew, -⟩ := hchange.origin hb'
    · exact hd i j b0 b1 hb0 hb1 (by rw [← hb0flow, hflow, hb1flow])
    · exact absurd ⟨i, b0, hb0, hb0flow.symm.trans hflow⟩ hnew
  · obtain ⟨b1, hb1, -, hb1flow⟩ | ⟨-, -, -, hrest⟩ := hchange.origin hb'
    · exact absurd ⟨j, b1, hb1, (hflow.trans hb1flow).symm⟩ hnew
    · by_contra hij
      exact hnew ⟨i, b, (hrest i hij).symm.trans hb, rfl⟩

/-- When a call is made, for those that look at the clock. -/
def Call.time : Call → Option ℕ
  | .bind _ now | .send _ _ _ now | .sendTo _ _ _ now | .sendAs _ _ _ now | .input _ now | .tick now =>
    some now
  | _ => none

lemma time_of_uses (he : m.event call = some e) (huse : e.Uses f t) : call.time = some t := by
  cases call with
  | tick now =>
    cases he
    rcases huse with h | ⟨_, h⟩ <;> cases h
  | _ =>
    unfold event at he
    dsimp only at he
    repeat' split at he
    all_goals cases he
    all_goals
      rcases huse with h | ⟨_, h⟩ <;> cases h
      rfl

/-- The clock does not go back. -/
def Steady (calls : List Call) : Prop := (calls.filterMap Call.time).Pairwise (· ≤ ·)

/-- No use of the flow of a binding is later than the binding says. -/
def Recent (h : List Event) (m : Mux) : Prop :=
  ∀ (i : Fin maxBindings) (b : Binding), m.bindings.get i = some b →
    ∀ e ∈ h, ∀ t, e.Uses (b.flow m.remoteIp) t → t ≤ b.lastUsed

lemma Recent.step (hr : Recent h m) (hm : m.Proper) (hd : m.Distinct) (call : Call)
    (hclock : ∀ e ∈ h, ∀ f t, e.Uses f t → ∀ now, call.time = some now → t ≤ now) :
    Recent (h ++ (m.event call).toList) (m.step call) := by
  intro j b hb e he t huse
  rw [(frame_step hm.next call).remoteIp] at huse
  rw [mem_append, Option.mem_toList] at he
  have hchange := change_step hm call
  generalize (m.step call).bindings = table at hb hchange
  cases hchange with
  | kept _ hnone =>
    rcases he with he | he
    · exact hr j b hb e he t huse
    · exact absurd ⟨j, b, hb, rfl⟩ (hnone e he _ t huse)
  | touched i b0 now e0 hb0 he0 huse0 =>
    rw [getElem_setBinding] at hb
    split_ifs at hb with hij
    · obtain rfl := Option.some.inj hb
      rw [flow_touch] at huse
      rw [lastUsed_touch]
      rcases he with he | he
      · exact (hr i b0 hb0 e he t huse).trans (le_max_right _ _)
      · obtain rfl := Option.some.inj (he0.symm.trans he)
        exact (huse.unique huse0).2.trans_le (le_max_left _ _)
    · rcases he with he | he
      · exact hr j b hb e he t huse
      · obtain rfl := Option.some.inj (he0.symm.trans he)
        exact absurd (hd i j b0 b hb0 hb (huse0.unique huse).1) hij
  | opened i b0 hfree hip hnew he0 =>
    rw [getElem_setBinding] at hb
    split_ifs at hb with hij
    · obtain rfl := Option.some.inj hb
      rcases he with he | he
      · exact hclock e he _ t huse _ (time_of_uses he0 (.inl rfl))
      · obtain rfl := Option.some.inj (he0.symm.trans he)
        exact (huse.unique (.inl rfl)).2.le
    · rcases he with he | he
      · exact hr j b hb e he t huse
      · obtain rfl := Option.some.inj (he0.symm.trans he)
        have hflow : _ = b0.flow m.remoteIp := (huse.unique (.inl rfl)).1
        exact absurd ⟨j, b, hb, hflow⟩ hnew
  | ticked now hcall =>
    subst hcall
    rcases he with he | he
    · exact hr j b (get_tick.mp hb).1 e he t huse
    · cases he
      rcases huse with huse | ⟨_, huse⟩ <;> cases huse

/-- A binding ends only in a tick, when its flow has not been used for long enough. -/
theorem Recent.ended (hr : Recent h m) (hm : m.Proper) (hbinds : m.Binds f)
    (hend : ¬(m.step call).Binds f) :
    ∃ now, call = .tick now ∧ ∀ e ∈ h, ∀ t, e.Uses f t → t + bindingIdleMs ≤ now := by
  obtain ⟨j, b, hb, rfl⟩ := hbinds
  have hstay : ∀ b', (m.step call).bindings.get j = some b' →
      b'.flow m.remoteIp ≠ b.flow m.remoteIp := by
    intro b' hb' hflow
    exact hend ⟨j, b', hb', by rw [(frame_step hm.next call).remoteIp, hflow]⟩
  have hchange := change_step hm call
  generalize (m.step call).bindings = table at hstay hchange
  cases hchange with
  | kept => exact absurd rfl (hstay b hb)
  | touched i b0 now e hb0 =>
    simp only [getElem_setBinding] at hstay
    split_ifs at hstay with hij
    · subst hij
      obtain rfl := Option.some.inj (hb.symm.trans hb0)
      exact absurd (flow_touch _ b now) (hstay _ rfl)
    · exact absurd rfl (hstay b hb)
  | opened i b0 hfree =>
    simp only [getElem_setBinding] at hstay
    split_ifs at hstay with hij
    · rw [← hij, hfree] at hb
      cases hb
    · exact absurd rfl (hstay b hb)
  | ticked now hcall =>
    refine ⟨now, hcall, fun e he t huse => ?_⟩
    have hle := hr j b hb e he t huse
    have hidle : b.idleAt now = true := by
      by_contra hidle
      refine hstay b ?_ rfl
      exact get_tick.mpr ⟨hb, by simpa using hidle⟩
    rw [Binding.idleAt, decide_eq_true_eq] at hidle
    omega

end Mux

namespace Mux

/-- The port is an ephemeral one that is not listened on. -/
def Reserved (m : Mux) (port : UInt16) : Prop := Ephemeral port ∧ m.listening port = false
  deriving Decidable

lemma listening_eq_false {port : UInt16} : m.listening port = false ↔
    port ∉ m.listeners ∧ m.accept.any (· port) = false := by
  simp [listening]

/-- The call keeps away from the ports of binds: none of them is listened on, no filter accepts them,
and a send to the peer that opens a flow leaves from one of them. -/
def Spares (m : Mux) : Call → Prop
  | .listen port => ∀ (i : Fin maxBindings) (b : Binding), m.bindings.get i = some b →
      b.remoteIp = none → b.localPort ≠ port
  | .setAcceptFilter fn => ∀ port, Ephemeral port → fn.any (· port) = false
  | .send localPort remotePort _ _ =>
    ¬m.Binds ⟨localPort, remotePort, m.remoteIp⟩ → m.Reserved localPort
  | .sendTo localPort dst _ _ =>
    dst.ip = .v6 m.remoteIp → ¬m.Binds ⟨localPort, dst.port, m.remoteIp⟩ → m.Reserved localPort
  | _ => True

/-- The filter accepts no ephemeral port, and the flows to the peer have reserved ports. -/
structure Spared (m : Mux) : Prop where
  accept : ∀ port, Ephemeral port → m.accept.any (· port) = false
  bindings : ∀ (i : Fin maxBindings) (b : Binding), m.bindings.get i = some b → b.remoteIp = none →
    m.Reserved b.localPort

lemma Spared.bind (hs : m.Spared) (hm : m.Proper) {remotePort port : UInt16} {now : ℕ}
    (h : (m.bind remotePort now).2 = .ok port) : m.Reserved port := by
  obtain ⟨next, e, -, heq⟩ | ⟨i, b, hb, hip, -, heq⟩ | ⟨i, next, p, -, -, hport, htaken, heq⟩ :=
    bind_cases hm.next remotePort now
  · rw [heq] at h
    cases h
  · rw [heq] at h
    obtain rfl := Except.ok.inj h
    exact hs.bindings i b hb hip
  · rw [heq] at h
    obtain rfl := Except.ok.inj h
    rw [localPortTaken, Bool.or_eq_false_iff] at htaken
    exact ⟨hport, listening_eq_false.mpr ⟨by simpa using htaken.2, hs.accept p hport⟩⟩

lemma Spared.reserved_step (hs : m.Spared) (hm : m.Proper) (hcall : m.Spares call)
    {i : Fin maxBindings} {b : Binding} (hb : (m.step call).bindings.get i = some b)
    (hip : b.remoteIp = none) : m.Reserved b.localPort := by
  have hflow : b.flow m.remoteIp = ⟨b.localPort, b.remotePort, m.remoteIp⟩ := by
    rw [Binding.flow, hip]
    rfl
  obtain ⟨b0, hb0, hip0, hflow0⟩ | ⟨-, hnew, he, -⟩ := (change_step hm call).origin hb
  · have hport : b.localPort = b0.localPort := congrArg Flow.localPort hflow0
    rw [hport]
    exact hs.bindings i b0 hb0 (hip0 ▸ hip)
  rw [hflow] at hnew he
  cases call with
  | bind remotePort now =>
    rw [event] at he
    split at he <;> cases he
    exact hs.bind hm ‹_›
  | send localPort remotePort data now =>
    rw [event] at he
    split at he <;> cases he
    exact hcall hnew
  | sendTo localPort dst data now =>
    rw [event] at he
    split at he
    · next ip hdst =>
      split at he
      · simp only [Option.some.injEq, Event.opened.injEq, Flow.mk.injEq] at he
        obtain ⟨⟨hlocal, hremote, rfl⟩, -⟩ := he
        rw [← hlocal, ← hremote] at hnew
        exact hlocal ▸ hcall hdst hnew
      · cases he
    · cases he
  | input pkt now =>
    rw [event] at he
    repeat' split at he
    all_goals cases he
  | _ => cases he

lemma Spared.step (hs : m.Spared) (hm : m.Proper) (hcall : m.Spares call) :
    (m.step call).Spared := by
  have hframe := frame_step hm.next call
  have haccept : ∀ port, Ephemeral port → (m.step call).accept.any (· port) = false := by
    by_cases hfilter : ∃ fn, call = .setAcceptFilter fn
    · obtain ⟨fn, rfl⟩ := hfilter
      exact hcall
    · rw [hframe.accept fun fn heq => hfilter ⟨fn, heq⟩]
      exact hs.accept
  refine ⟨haccept, fun i b hb hip => ?_⟩
  obtain ⟨hport, hnot⟩ := hs.reserved_step hm hcall hb hip
  refine ⟨hport, listening_eq_false.mpr ⟨?_, haccept _ hport⟩⟩
  have hold := (listening_eq_false.mp hnot).1
  by_cases hlisten : ∃ port, call = .listen port
  · obtain ⟨port, rfl⟩ := hlisten
    rw [step, listen] at hb ⊢
    split_ifs at hb ⊢
    · exact hold
    · exact hold
    · exact hold
    · simpa [hold] using hcall i b hb hip
  · rw [hframe.listeners fun port heq => hlisten ⟨port, heq⟩]
    exact hold

end Mux

/-- In a run whose calls keep away from the ports of binds, a port that a bind returns is an ephemeral
one that is not listened on. -/
theorem bind_reserved (localIp remoteIp : Ipv6Addr) (calls : List Mux.Call)
    (hcalls : Run.Ok step Mux.Spares (.muxNew localIp remoteIp) calls) (remotePort port : UInt16)
    (now : ℕ) (hbind : (((muxNew localIp remoteIp).run calls).bind remotePort now).2 = .ok port) :
    ((muxNew localIp remoteIp).run calls).Reserved port := by
  have hstart : (muxNew localIp remoteIp).Spared :=
    ⟨fun _ _ => rfl, fun i b hb => absurd hb (get_muxNew localIp remoteIp i b)⟩
  have hinv := hcalls.invariant (I := fun m : Mux => m.Spared ∧ m.Proper)
    ⟨hstart, proper_muxNew localIp remoteIp⟩
    fun m call hm hcall => ⟨hm.1.step hm.2 hcall, hm.2.step call⟩
  exact hinv.1.bind hinv.2 hbind

/-- A bind that uses a binding again, next to a port that is listened on. -/
theorem bind_reserved_again :
    ((muxNew nodeIp peerIp).run [.listen 53, .bind 1234 0, .send 49152 1234 [] 1]).Reserved
      49152 := by
  have hlisten : (muxNew nodeIp peerIp).Spares (.listen 53) :=
    fun i b hb => absurd hb (get_muxNew nodeIp peerIp i b)
  exact bind_reserved nodeIp peerIp [.listen 53, .bind 1234 0, .send 49152 1234 [] 1]
    ⟨hlisten, trivial, fun _ => by decide +kernel, trivial⟩ 1234 49152 2 (by decide +kernel)

/-- After an answer from a port that is listened on, a bind to the port it went to returns that port. -/
theorem bind_returns_listener : ¬∀ (localIp remoteIp : Ipv6Addr) (calls : List Mux.Call)
    (remotePort port : UInt16) (now : ℕ),
    (((muxNew localIp remoteIp).run calls).bind remotePort now).2 = .ok port →
      ((muxNew localIp remoteIp).run calls).Reserved port := by
  intro hall
  have hport := hall nodeIp peerIp [.listen 53, .send 53 1234 [] 0] 1234 53 1 (by decide +kernel)
  exact absurd hport (by decide +kernel)

end Udp
