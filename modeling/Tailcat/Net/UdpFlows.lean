import Mathlib.Data.Vector.Defs
import Tailcat.Library.Run
import Tailcat.Net.UdpWire

/-!
# The flows of the UDP multiplexer

Which datagrams the multiplexer takes, as a property of the history of its calls. The life of a flow
is told by `Flow.lastUse`, an automaton over the history that knows nothing of the table of bindings;
the bindings refine it (`Tracked`).

## Main results

* `tracked_run`: the flow of every binding is alive, and used as late as the binding says;
* `queued_admitted`: why a datagram is queued.
-/

namespace Udp

open Mux
open List hiding Vector
open Tcp (Ipv6Addr)

/-! ## Flows -/

/-- A flow: the ports of both sides, and the address the other side has. -/
structure Flow where
  localPort : UInt16
  remotePort : UInt16
  source : Ipv6Addr
  deriving DecidableEq

inductive Event
  /-- A bind or a send of the flow. -/
  | opened (f : Flow) (now : ℕ)
  /-- A well-formed datagram of the flow has arrived, and was queued or not. -/
  | matched (f : Flow) (now : ℕ) (queued : Bool)
  /-- The idle flows end. -/
  | ticked (now : ℕ)
  deriving DecidableEq

/-- When a flow was last used, after an event; `none` is a flow that is not open. With `dropped`, a
datagram of the flow counts as a use even if it is dropped for its size or for lack of room. -/
def Flow.after (dropped : Bool) (f : Flow) (last : Option ℕ) : Event → Option ℕ
  | .opened g now => if g = f then some (max now (last.getD 0)) else last
  | .matched g now queued => if g = f ∧ (queued || dropped) then last.map (max now) else last
  | .ticked now => last.filter fun t => decide (now < t + bindingIdleMs)

/-- When a flow was last used in a history, unless it has never been opened or a tick has found it
idle since. -/
def Flow.lastUse (dropped : Bool) (f : Flow) (history : List Event) : Option ℕ :=
  history.foldl (f.after dropped) none

def Datagram.flow (d : Datagram) : Flow := ⟨d.dstPort, d.srcPort, d.src⟩

/-- The flow of a binding, the peer having the address `peer`. -/
def Binding.flow (peer : Ipv6Addr) (b : Binding) : Flow :=
  ⟨b.localPort, b.remotePort, b.remoteIp.getD peer⟩

namespace Mux

/-- The result of a call is a success. -/
def succeeds {α : Type} : Except Err α → Bool
  | .ok _ => true
  | .error _ => false

def event (m : Mux) : Call → Option Event
  | .bind remotePort now =>
    match (m.bind remotePort now).2 with
    | .ok localPort => some (.opened ⟨localPort, remotePort, m.remoteIp⟩ now)
    | .error _ => none
  | .send localPort remotePort data now =>
    if succeeds (m.send localPort remotePort data now).2 then
      some (.opened ⟨localPort, remotePort, m.remoteIp⟩ now)
    else none
  | .sendTo localPort dst data now =>
    match dst.ip with
    | .v6 ip =>
      if succeeds (m.sendTo localPort dst data now).2 then
        some (.opened ⟨localPort, dst.port, ip⟩ now)
      else none
    | _ => none
  | .input pkt now =>
    match m.arrival pkt with
    | .ok d =>
      if (m.bindingFor d).isSome then
        some (.matched d.flow now (succeeds (m.input pkt now).2))
      else none
    | .error _ => none
  | .tick now => some (.ticked now)
  | _ => none

/-- The events of a sequence of calls. -/
def history (m : Mux) : List Call → List Event
  | [] => []
  | call :: calls => (m.event call).toList ++ (m.step call).history calls

lemma history_append (m : Mux) (calls calls' : List Call) :
    m.history (calls ++ calls') = m.history calls ++ (m.run calls).history calls' := by
  induction calls generalizing m with
  | nil => rfl
  | cons call calls ih =>
    rw [cons_append, history, ih, history, append_assoc]
    rfl

end Mux

/-! ## Bindings follow the history -/

variable {m : Mux} {b : Binding} {f : Flow} {now last t : ℕ} {h : List Event} {e : Event}
  {port : UInt16} {data : List UInt8}

lemma Flow.lastUse_concat (dropped : Bool) (f : Flow) (h : List Event) (e : Event) :
    f.lastUse dropped (h ++ [e]) = f.after dropped (f.lastUse dropped h) e := by
  simp [Flow.lastUse]

lemma Flow.after_of_not_tick (ht : last ≤ t) (he : ∀ now, e ≠ .ticked now) :
    ∃ t', f.after true (some t) e = some t' ∧ last ≤ t' := by
  cases e with
  | opened g now =>
    rw [Flow.after]
    split
    · exact ⟨_, rfl, ht.trans (le_max_right now t)⟩
    · exact ⟨t, rfl, ht⟩
  | matched g now queued =>
    rw [Flow.after]
    split
    · exact ⟨_, rfl, ht.trans (le_max_right now t)⟩
    · exact ⟨t, rfl, ht⟩
  | ticked now => exact absurd rfl (he now)

def Event.Uses (f : Flow) (now : ℕ) (e : Event) : Prop :=
  e = .opened f now ∨ ∃ queued, e = .matched f now queued

lemma Flow.after_of_uses (ht : last ≤ t) (he : e.Uses f now) :
    ∃ t', f.after true (some t) e = some t' ∧ max now last ≤ t' := by
  rcases he with rfl | ⟨queued, rfl⟩
  · exact ⟨max now t, if_pos rfl, max_le_max_left now ht⟩
  · exact ⟨max now t, if_pos ⟨rfl, Bool.or_true queued⟩, max_le_max_left now ht⟩

/-- The flow of every binding is alive in the history, and has been used as late as the binding
says. -/
def Tracked (h : List Event) (m : Mux) : Prop :=
  ∀ b, some b ∈ m.bindings → ∃ t, (b.flow m.remoteIp).lastUse true h = some t ∧ b.lastUsed ≤ t

/-! ## What a call does -/

def Ephemeral (port : UInt16) : Prop := ephemeralLo ≤ port ∧ port ≤ ephemeralHi
  deriving Decidable

lemma ephemeral_portAfter (h : Ephemeral port) : Ephemeral (portAfter port) := by
  unfold portAfter
  split
  · decide
  rename_i hlt
  simp only [Ephemeral, ephemeralHi, UInt16.le_iff_toNat_le, UInt16.toNat_add] at h hlt ⊢
  simp only [UInt16.reduceToNat] at h hlt ⊢
  omega

namespace Mux

variable {i : Fin maxBindings} {localPort remotePort : UInt16} {remoteIp : Option Ipv6Addr}
  {call : Call} {p : Option Binding → Bool} {b : Binding}

/-- One of the bindings is for the flow. -/
def Binds (m : Mux) (f : Flow) : Prop :=
  ∃ (i : Fin maxBindings) (b : Binding), m.bindings.get i = some b ∧ b.flow m.remoteIp = f

/-- The port that is tried next is an ephemeral one, and no binding names the peer by its address. -/
structure Proper (m : Mux) : Prop where
  next : Ephemeral m.nextEphemeral
  remoteIp : ∀ (i : Fin maxBindings) (b : Binding), m.bindings.get i = some b →
    b.remoteIp ≠ some m.remoteIp

/-- What a call does to the table of bindings. -/
inductive Change (m : Mux) (call : Call) : Vector (Option Binding) maxBindings → Prop
  /-- If there is a use of a flow, it has no binding, and there is no room for one. -/
  | kept (htick : ∀ now, call ≠ .tick now)
      (hnone : ∀ e, m.event call = some e → ∀ f now, e.Uses f now → ¬m.Binds f) :
      Change m call m.bindings
  | touched (i : Fin maxBindings) (b : Binding) (now : ℕ) (e : Event) (hb : m.bindings.get i = some b)
      (he : m.event call = some e) (huse : e.Uses (b.flow m.remoteIp) now) :
      Change m call (m.setBinding i (b.touch now)).bindings
  | opened (i : Fin maxBindings) (b : Binding) (hfree : m.bindings.get i = none)
      (hip : b.remoteIp ≠ some m.remoteIp) (hnew : ¬m.Binds (b.flow m.remoteIp))
      (he : m.event call = some (.opened (b.flow m.remoteIp) b.lastUsed)) :
      Change m call (m.setBinding i b).bindings
  | ticked (now : ℕ) (hcall : call = .tick now) : Change m call (m.tick now).bindings

/-! ### The table -/

lemma findSlot_some (h : m.findSlot p = some i) : p (m.bindings.get i) = true :=
  find?_some (p := fun i => p (m.bindings.get i)) h

lemma findSlot_none (h : m.findSlot p = none) (i : Fin maxBindings) :
    p (m.bindings.get i) = false :=
  Bool.eq_false_of_not_eq_true (find?_eq_none.mp h i (mem_finRange i))

lemma findBinding_some (h : m.findBinding localPort remotePort remoteIp = some i) :
    ∃ b, m.bindings.get i = some b ∧
      b.flow m.remoteIp = ⟨localPort, remotePort, remoteIp.getD m.remoteIp⟩ := by
  obtain ⟨b, hb, hfor⟩ := (Option.any_eq_true _ _).mp (findSlot_some h)
  refine ⟨b, hb, ?_⟩
  simp only [Binding.isFor, Bool.and_eq_true, beq_iff_eq] at hfor
  rw [Binding.flow, hfor.1.1, hfor.1.2, hfor.2]

lemma Proper.findBinding_none (hm : m.Proper) (hip : remoteIp ≠ some m.remoteIp)
    (h : m.findBinding localPort remotePort remoteIp = none) :
    ¬m.Binds ⟨localPort, remotePort, remoteIp.getD m.remoteIp⟩ := by
  rintro ⟨i, b, hb, hflow⟩
  have hfor := findSlot_none h i
  have hb' := hm.remoteIp i b hb
  simp only [Binding.flow, Flow.mk.injEq] at hflow
  have hsame : b.remoteIp = remoteIp := by
    cases hbip : b.remoteIp <;> cases remoteIp <;> simp_all
  simp [hb, Binding.isFor, hflow.1, hflow.2.1, hsame] at hfor

lemma getElem_setBinding (m : Mux) (i j : Fin maxBindings) (b : Binding) :
    (m.setBinding i b).bindings.get j = if i = j then some b else m.bindings.get j := by
  simp only [Fin.ext_iff]
  exact Vector.getElem_set i.2 j.2

lemma touchAt_eq (hb : m.bindings.get i = some b) (now : ℕ) :
    m.touchAt i now = m.setBinding i (b.touch now) := by
  rw [touchAt, show m.bindings[i] = some b from hb]
  rfl

lemma get_tick {now : ℕ} :
    (m.tick now).bindings.get i = some b ↔ m.bindings.get i = some b ∧ b.idleAt now = false := by
  have hget : (m.tick now).bindings.get i = (m.bindings.get i).filter fun b => !b.idleAt now :=
    Vector.getElem_map _ i.2
  rw [hget, Option.filter_eq_some_iff, Bool.not_eq_true']

/-! ### The calls -/

lemma pickPort_spec (tries : ℕ) (hm : Ephemeral m.nextEphemeral) :
    ∃ next port, m.pickPort tries = ({ m with nextEphemeral := next }, port) ∧ Ephemeral next ∧
      ∀ p, port = some p → Ephemeral p ∧ m.localPortTaken p = false := by
  induction tries generalizing m with
  | zero => exact ⟨_, none, rfl, hm, nofun⟩
  | succ tries ih =>
    rw [pickPort]
    split
    · exact ih (ephemeral_portAfter hm)
    rename_i hfree
    refine ⟨_, some m.nextEphemeral, rfl, ephemeral_portAfter hm, ?_⟩
    rintro p ⟨⟩
    exact ⟨hm, Bool.eq_false_of_not_eq_true hfree⟩

/-- A bind fails, uses a binding again, or makes one with a port that is not taken. -/
theorem bind_cases (hm : Ephemeral m.nextEphemeral) (remotePort : UInt16) (now : ℕ) :
    (∃ next e, Ephemeral next ∧ m.bind remotePort now = ({ m with nextEphemeral := next }, .error e)) ∨
    (∃ i b, m.bindings.get i = some b ∧ b.remoteIp = none ∧ b.remotePort = remotePort ∧
      m.bind remotePort now = (m.setBinding i (b.touch now), .ok b.localPort)) ∨
    ∃ i next port, m.bindings.get i = none ∧ Ephemeral next ∧ Ephemeral port ∧
      m.localPortTaken port = false ∧ m.bind remotePort now =
        (setBinding { m with nextEphemeral := next } i
          { localPort := port, remotePort, remoteIp := none, lastUsed := now }, .ok port) := by
  have hfail : ∀ e, ∃ next e', Ephemeral next ∧ (m, (.error e : Except Err UInt16)) =
      ({ m with nextEphemeral := next }, .error e') := fun e => ⟨m.nextEphemeral, e, hm, rfl⟩
  unfold bind
  split
  · exact .inl (hfail _)
  split
  · next i hfind =>
    obtain ⟨b, hb, hp⟩ := (Option.any_eq_true _ _).mp (findSlot_some hfind)
    simp only [Bool.and_eq_true, Option.isNone_iff_eq_none, beq_iff_eq] at hp
    exact .inr (.inl ⟨i, b, hb, hp.1, hp.2, by rw [show m.bindings[i] = some b from hb]⟩)
  split
  · exact .inl (hfail _)
  rename_i i hfree
  obtain ⟨next, port, hpick, hnext, hport⟩ := pickPort_spec ephemeralSpan hm
  rw [hpick]
  cases port with
  | none => exact .inl ⟨next, _, hnext, rfl⟩
  | some port =>
    have hslot := Option.isNone_iff_eq_none.mp (findSlot_some hfree)
    exact .inr (.inr ⟨i, next, port, hslot, hnext, (hport port rfl).1, (hport port rfl).2, rfl⟩)

lemma not_binds_of_free (h : m.localPortTaken port = false) {f : Flow} (hf : f.localPort = port) :
    ¬m.Binds f := by
  rintro ⟨i, b, hb, rfl⟩
  rw [localPortTaken, Bool.or_eq_false_iff] at h
  have hslot := Vector.any_eq_false.mp h.1 i i.2
  rw [show m.bindings[i.1] = some b from hb] at hslot
  exact hslot (beq_iff_eq.mpr hf)

lemma change_remember (hm : m.Proper) (htick : ∀ now, call ≠ .tick now)
    (hip : remoteIp ≠ some m.remoteIp)
    (he : m.event call = some (.opened ⟨localPort, remotePort, remoteIp.getD m.remoteIp⟩ now)) :
    Change m call (m.remember localPort remotePort remoteIp now).bindings := by
  unfold remember
  split
  · next i hfind =>
    obtain ⟨b, hb, hflow⟩ := findBinding_some hfind
    rw [touchAt_eq hb]
    exact .touched i b now _ hb he (.inl (by rw [hflow]))
  · next hfind =>
    have hnew := hm.findBinding_none hip hfind
    split
    · next i hfree =>
      exact .opened i _ (Option.isNone_iff_eq_none.mp (findSlot_some hfree)) hip hnew he
    refine .kept htick fun e he' f now' huse => ?_
    obtain rfl := Option.some.inj (he.symm.trans he')
    rcases huse with h | ⟨_, h⟩
    · cases h
      exact hnew
    · cases h

lemma change_sendOne {dst : Ipv6Addr} (hm : m.Proper) (htick : ∀ now, call ≠ .tick now)
    (he : m.event call = if succeeds (m.sendOne localPort remotePort dst data now).2 then
      some (.opened ⟨localPort, remotePort, dst⟩ now) else none) :
    Change m call (m.sendOne localPort remotePort dst data now).1.bindings := by
  unfold sendOne at he ⊢
  by_cases hzero : localPort = 0 ∨ remotePort = 0
  · rw [if_pos hzero] at he ⊢
    exact .kept htick (by rw [he]; nofun)
  by_cases hlen : data.length > maxDgram
  · rw [if_neg hzero, if_pos hlen] at he ⊢
    exact .kept htick (by rw [he]; nofun)
  rw [if_neg hzero, if_neg hlen] at he ⊢
  by_cases hpeer : dst = m.remoteIp
  · rw [if_pos hpeer]
    exact change_remember hm htick nofun (he.trans (by rw [hpeer]; rfl))
  · rw [if_neg hpeer]
    exact change_remember hm htick (fun h => hpeer (Option.some.inj h)) he

lemma bindingFor_spec {d : Datagram} (h : m.bindingFor d = some i) :
    d.dst = m.localIp ∧ ∃ b, m.bindings.get i = some b ∧ b.flow m.remoteIp = d.flow := by
  unfold bindingFor at h
  split at h
  · next hdst =>
    obtain ⟨b, hb, hflow⟩ := findBinding_some h
    refine ⟨hdst, b, hb, hflow.trans ?_⟩
    split
    · next hsrc => rw [Datagram.flow, hsrc]; rfl
    · rfl
  · cases h

lemma change_input (pkt : List UInt8) (now : ℕ) :
    Change m (.input pkt now) (m.input pkt now).1.bindings := by
  have hkept : m.event (.input pkt now) = none → Change m (.input pkt now) m.bindings :=
    fun he => .kept nofun (by rw [he]; nofun)
  cases harr : m.arrival pkt with
  | error d =>
    simp only [input, harr]
    exact hkept (by simp only [event, harr])
  | ok d =>
    obtain ⟨stats, heq⟩ := m.deliver_eq d now
    cases hfor : m.bindingFor d with
    | none =>
      simp only [input, harr, heq, matched, hfor]
      exact hkept (by simp [event, harr, hfor])
    | some i =>
      have he : m.event (.input pkt now) =
          some (.matched d.flow now (succeeds (m.input pkt now).2)) := by
        simp [event, harr, hfor]
      obtain ⟨-, b, hb, hflow⟩ := bindingFor_spec hfor
      simp only [input, harr, heq, matched, hfor, Option.elim_some, touchAt_eq hb]
      exact .touched i b now _ hb he (.inr ⟨_, by rw [hflow]⟩)

lemma change_bind (hm : m.Proper) (remotePort : UInt16) (now : ℕ) :
    Change m (.bind remotePort now) (m.bind remotePort now).1.bindings := by
  have he : ∀ localPort, (m.bind remotePort now).2 = .ok localPort →
      m.event (.bind remotePort now) = some (.opened ⟨localPort, remotePort, m.remoteIp⟩ now) :=
    fun localPort h => by rw [event, h]
  obtain ⟨next, e, -, heq⟩ | ⟨i, b, hb, hip, rfl, heq⟩ | ⟨i, next, port, hfree, -, -, htaken, heq⟩ :=
    bind_cases hm.next remotePort now
  · rw [heq]
    exact .kept nofun (by rw [event, heq]; nofun)
  · have hflow : b.flow m.remoteIp = ⟨b.localPort, b.remotePort, m.remoteIp⟩ := by
      rw [Binding.flow, hip]
      rfl
    rw [heq] at he ⊢
    exact .touched i b now _ hb (he _ rfl) (.inl (by rw [hflow]))
  · rw [heq] at he ⊢
    exact .opened i _ hfree nofun (not_binds_of_free htaken rfl) (he _ rfl)

lemma change_step (hm : m.Proper) (call : Call) : Change m call (m.step call).bindings := by
  cases call with
  | listen port =>
    have hsame : (m.listen port).1.bindings = m.bindings := by
      unfold listen
      split_ifs <;> rfl
    rw [step, hsame]
    exact .kept nofun nofun
  | setAcceptFilter fn => exact .kept nofun nofun
  | setExitNode on => exact .kept nofun nofun
  | bind remotePort now => exact change_bind hm remotePort now
  | send localPort remotePort data now => exact change_sendOne hm nofun rfl
  | sendTo localPort dst data now =>
    rw [step, sendTo]
    cases hip : dst.ip with
    | v6 ip => exact change_sendOne hm nofun (by simp only [event, hip, sendTo])
    | _ => exact .kept nofun (by simp [event, hip])
  | sendAs src dstPort data now =>
    have hsame : (m.sendAs src dstPort data).1.bindings = m.bindings := by
      unfold sendAs
      split
      · split_ifs <;> rfl
      · rfl
    rw [step, hsame]
    exact .kept nofun nofun
  | input pkt now => exact change_input pkt now
  | recv cap =>
    have hsame : (m.recv cap).1.bindings = m.bindings := by
      unfold recv
      split
      · rfl
      · split_ifs <;> rfl
    rw [step, hsame]
    exact .kept nofun nofun
  | tick now => exact .ticked now rfl

/-! ### What a call leaves as it is -/

structure Frame (m : Mux) (call : Call) (m' : Mux) : Prop where
  localIp : m'.localIp = m.localIp
  remoteIp : m'.remoteIp = m.remoteIp
  next : Ephemeral m'.nextEphemeral
  listeners : (∀ port, call ≠ .listen port) → m'.listeners = m.listeners
  accept : (∀ fn, call ≠ .setAcceptFilter fn) → m'.accept = m.accept
  queue : (∀ pkt now, call ≠ .input pkt now) → (∀ cap, call ≠ .recv cap) → m'.queue = m.queue

lemma frame_step (hm : Ephemeral m.nextEphemeral) (call : Call) : Frame m call (m.step call) := by
  have hsame : ∀ {next bindings exitNode stats sent}, Ephemeral next →
      Frame m call { m with nextEphemeral := next, bindings, exitNode, stats, sent } :=
    fun hn => ⟨rfl, rfl, hn, fun _ => rfl, fun _ => rfl, fun _ _ => rfl⟩
  have hsend : ∀ localPort remotePort dst data now,
      Frame m call (m.sendOne localPort remotePort dst data now).1 := by
    intro localPort remotePort dst data now
    unfold sendOne remember
    dsimp only
    repeat' split
    all_goals exact hsame hm
  cases call with
  | listen port =>
    rw [step, listen]
    split_ifs
    · exact hsame hm
    · exact hsame hm
    · exact hsame hm
    · exact ⟨rfl, rfl, hm, fun h => absurd rfl (h port), fun _ => rfl, fun _ _ => rfl⟩
  | setAcceptFilter fn =>
    exact ⟨rfl, rfl, hm, fun _ => rfl, fun h => absurd rfl (h fn), fun _ _ => rfl⟩
  | setExitNode on => exact hsame hm
  | bind remotePort now =>
    rw [step]
    obtain ⟨next, e, hnext, heq⟩ | ⟨i, b, -, -, -, heq⟩ | ⟨i, next, port, -, hnext, -, -, heq⟩ :=
      bind_cases hm remotePort now
    · rw [heq]
      exact hsame hnext
    · rw [heq]
      exact hsame hm
    · rw [heq]
      exact hsame hnext
  | send localPort remotePort data now => exact hsend ..
  | sendTo localPort dst data now =>
    rw [step, sendTo]
    split
    · exact hsend ..
    · exact hsame hm
  | sendAs src dstPort data now =>
    rw [step, sendAs]
    repeat' split
    all_goals exact hsame hm
  | input pkt now =>
    have hrest : ∀ {m' : Mux}, m'.localIp = m.localIp → m'.remoteIp = m.remoteIp →
        Ephemeral m'.nextEphemeral → m'.listeners = m.listeners → m'.accept = m.accept →
        Frame m (.input pkt now) m' :=
      fun hl hr hn hls ha => ⟨hl, hr, hn, fun _ => hls, fun _ => ha, fun h => absurd rfl (h pkt now)⟩
    rw [step, input]
    split
    · exact hrest rfl rfl hm rfl rfl
    rename_i d _
    obtain ⟨stats, heq⟩ := m.deliver_eq d now
    rw [heq]
    exact hrest rfl rfl hm rfl rfl
  | recv cap =>
    rw [step, recv]
    split
    · exact hsame hm
    split_ifs
    · exact hsame hm
    · exact ⟨rfl, rfl, hm, fun _ => rfl, fun _ => rfl, fun _ h => absurd rfl (h cap)⟩
  | tick now => exact hsame hm

lemma queue_recv (m : Mux) (cap : ℕ) : (m.recv cap).1.queue <:+ m.queue := by
  unfold recv
  split
  · exact suffix_rfl
  rename_i q rest hq
  split_ifs
  · exact suffix_rfl
  · exact hq ▸ suffix_cons q rest

/-! ### Along a run -/

lemma remoteIp_touch (b : Binding) (now : ℕ) : (b.touch now).remoteIp = b.remoteIp := by
  unfold Binding.touch
  split <;> rfl

lemma lastUsed_touch (b : Binding) (now : ℕ) : (b.touch now).lastUsed = max now b.lastUsed := by
  unfold Binding.touch
  split
  · next h => exact (max_eq_left h.le).symm
  · next h => exact (max_eq_right (not_lt.mp h)).symm

lemma flow_touch (peer : Ipv6Addr) (b : Binding) (now : ℕ) :
    (b.touch now).flow peer = b.flow peer := by
  unfold Binding.touch
  split <;> rfl

/-- Where a binding comes from: it was there, perhaps with an earlier use, or it is the one of a flow
that is opened. -/
theorem Change.origin {table : Vector (Option Binding) maxBindings} (h : Change m call table)
    {j : Fin maxBindings} (hb : table.get j = some b) :
    (∃ b0, m.bindings.get j = some b0 ∧ b.remoteIp = b0.remoteIp ∧
        b.flow m.remoteIp = b0.flow m.remoteIp) ∨
      b.remoteIp ≠ some m.remoteIp ∧ ¬m.Binds (b.flow m.remoteIp) ∧
        m.event call = some (.opened (b.flow m.remoteIp) b.lastUsed) ∧
        ∀ k, k ≠ j → table.get k = m.bindings.get k := by
  cases h with
  | kept => exact .inl ⟨b, hb, rfl, rfl⟩
  | touched i b0 now e hb0 =>
    rw [getElem_setBinding] at hb
    split_ifs at hb with hij
    · obtain rfl := Option.some.inj hb
      exact .inl ⟨b0, hij ▸ hb0, remoteIp_touch b0 now, flow_touch _ b0 now⟩
    · exact .inl ⟨b, hb, rfl, rfl⟩
  | opened i b0 hfree hip hnew he =>
    rw [getElem_setBinding] at hb
    split_ifs at hb with hij
    · obtain rfl := Option.some.inj hb
      refine .inr ⟨hip, hnew, he, fun k hk => ?_⟩
      rw [getElem_setBinding, if_neg fun hik => hk (hik.symm.trans hij)]
    · exact .inl ⟨b, hb, rfl, rfl⟩
  | ticked now =>
    exact .inl ⟨b, (get_tick.mp hb).1, rfl, rfl⟩

lemma Proper.step (hm : m.Proper) (call : Call) : (m.step call).Proper := by
  have hframe := frame_step hm.next call
  refine ⟨hframe.next, fun i b hb => ?_⟩
  rw [hframe.remoteIp]
  obtain ⟨b0, hb0, hip, -⟩ | ⟨hip, -⟩ := (change_step hm call).origin hb
  · exact hip ▸ hm.remoteIp i b0 hb0
  · exact hip

lemma get_muxNew (localIp remoteIp : Ipv6Addr) (i : Fin maxBindings) (b : Binding) :
    (muxNew localIp remoteIp).bindings.get i ≠ some b := by
  have hnone : (muxNew localIp remoteIp).bindings.get i = none := Vector.getElem_replicate i.2
  rw [hnone]
  exact (Option.some_ne_none b).symm

lemma proper_muxNew (localIp remoteIp : Ipv6Addr) : (muxNew localIp remoteIp).Proper where
  next := (by decide : Ephemeral ephemeralLo)
  remoteIp := fun i b hb => absurd hb (get_muxNew localIp remoteIp i b)

lemma run_proper (localIp remoteIp : Ipv6Addr) (calls : List Call) :
    let m := (muxNew localIp remoteIp).run calls
    m.Proper ∧ m.localIp = localIp ∧ m.remoteIp = remoteIp := by
  refine Run.foldl_invariant (I := fun m : Mux => m.Proper ∧ m.localIp = localIp ∧ m.remoteIp = remoteIp)
    ⟨proper_muxNew localIp remoteIp, rfl, rfl⟩ ?_ calls
  rintro m call ⟨hm, hl, hr⟩
  have hframe := frame_step hm.next call
  exact ⟨hm.step call, hframe.localIp.trans hl, hframe.remoteIp.trans hr⟩

lemma event_tick {call : Call} (h : m.event call = some (.ticked now)) : call = .tick now := by
  cases call with
  | tick now' =>
    cases h
    rfl
  | _ =>
    unfold event at h
    dsimp only at h
    repeat' split at h
    all_goals cases h

end Mux

lemma Tracked.step (ht : Tracked h m) (hm : m.Proper) (call : Mux.Call) :
    Tracked (h ++ (m.event call).toList) (m.step call) := by
  -- a binding that was there stays alive, since only a tick that finds it idle ends its flow
  have hold : ∀ {b}, some b ∈ m.bindings → (∀ now, call = .tick now → b.idleAt now = false) →
      ∃ t, (b.flow m.remoteIp).lastUse true (h ++ (m.event call).toList) = some t ∧
        b.lastUsed ≤ t := by
    intro b hb htick
    obtain ⟨t, hlast, hle⟩ := ht b hb
    cases he : m.event call with
    | none => exact ⟨t, by simpa using hlast, hle⟩
    | some e =>
      rw [Option.toList_some, Flow.lastUse_concat, hlast]
      by_cases hcall : ∃ now, e = .ticked now
      · obtain ⟨now, rfl⟩ := hcall
        have hidle := htick now (event_tick he)
        rw [Binding.idleAt, decide_eq_false_iff_not] at hidle
        exact ⟨t, by simpa [Flow.after] using by omega, hle⟩
      · exact Flow.after_of_not_tick hle fun now heq => hcall ⟨now, heq⟩
  intro b hb
  rw [(frame_step hm.next call).remoteIp]
  have hchange := change_step hm call
  generalize (m.step call).bindings = table at hb hchange
  cases hchange with
  | kept htick => exact hold hb fun now heq => absurd heq (htick now)
  | touched i b0 now e hb0 he huse =>
    rcases @Vector.mem_or_eq_of_mem_set _ _ _ _ _ _ i.2 hb with hb | heq
    · exact hold hb fun now' hcall => by
        subst hcall
        cases he
        rcases huse with huse | ⟨_, huse⟩ <;> cases huse
    · obtain rfl := Option.some.inj heq
      obtain ⟨t, hlast, hle⟩ := ht b0 (hb0 ▸ Vector.getElem_mem i.2)
      obtain ⟨t', ht', hle'⟩ := Flow.after_of_uses hle huse
      rw [he, Option.toList_some, Flow.lastUse_concat, flow_touch, hlast]
      exact ⟨t', ht', (lastUsed_touch b0 now).trans_le hle'⟩
  | opened i b0 hfree hip hnew he =>
    rcases @Vector.mem_or_eq_of_mem_set _ _ _ _ _ _ i.2 hb with hb | heq
    · exact hold hb fun now' hcall => by
        subst hcall
        cases he
    · obtain rfl := Option.some.inj heq
      rw [he, Option.toList_some, Flow.lastUse_concat]
      exact ⟨_, if_pos rfl, le_max_left _ _⟩
  | ticked now hcall =>
    obtain ⟨slot, hslot, hfilter⟩ := Vector.mem_map.mp hb
    obtain ⟨rfl, hidle⟩ := Option.filter_eq_some_iff.mp hfilter
    refine hold hslot fun now' hcall' => ?_
    obtain rfl : now = now' := by simpa using hcall.symm.trans hcall'
    simpa using hidle

/-- After any calls, the flow of every binding is alive in the history. -/
theorem tracked_run (localIp remoteIp : Ipv6Addr) (calls : List Mux.Call) :
    Tracked ((muxNew localIp remoteIp).history calls) ((muxNew localIp remoteIp).run calls) := by
  induction calls using reverseRecOn with
  | nil =>
    intro b hb
    simpa using (Vector.mem_replicate.mp hb).2
  | append_singleton calls call ih =>
    have hstep := ih.step (run_proper localIp remoteIp calls).1 call
    rw [history_append]
    simpa [history, run] using hstep

/-! ## Admission -/

/-- A call queues something for the application only if it is the input of a packet that carries a
well-formed datagram with a correct checksum, and the datagram comes from the peer to us on a
listening port, or from the peer to another address while exit-node mode is on, or it is addressed to
us and its flow has been opened by a bind or a send and found idle by no tick since. Uses of a flow
are its binds, its sends and the well-formed datagrams that have arrived for it, also those that were
dropped for their size or for lack of room. -/
theorem queued_admitted (localIp remoteIp : Ipv6Addr) (calls : List Mux.Call) (call : Mux.Call) :
    let m := (muxNew localIp remoteIp).run calls
    ¬(m.step call).queue <:+ m.queue →
      ∃ pkt now d, call = .input pkt now ∧ WellFormed pkt d ∧ d.data.length ≤ maxDgram ∧
        (m.step call).queue = m.queue ++ [m.queuedFor d] ∧
        (d.src = remoteIp ∧ d.dst = localIp ∧ m.listening d.dstPort ∨
          d.src = remoteIp ∧ d.dst ≠ localIp ∧ m.exitNode ∨
          d.dst = localIp ∧
            (d.flow.lastUse true ((muxNew localIp remoteIp).history calls)).isSome) := by
  intro m hnew
  obtain ⟨hm, hl, hr⟩ := run_proper localIp remoteIp calls
  by_cases hcall : ∃ pkt now, call = .input pkt now
  · obtain ⟨pkt, now, rfl⟩ := hcall
    obtain ⟨hq, -⟩ | ⟨d, harr, hsize, hadm, hq, -⟩ := input_cases (m := m) pkt now
    · exact absurd (hq ▸ suffix_rfl) hnew
    refine ⟨pkt, now, d, rfl, wellFormed_of_arrival harr, hsize, hq, ?_⟩
    rw [Mux.Admits, hl, hr] at hadm
    rcases hadm with hfor | hpeer | hexit
    · obtain ⟨i, hi⟩ := Option.isSome_iff_exists.mp hfor
      obtain ⟨hdst, b, hb, hflow⟩ := bindingFor_spec hi
      obtain ⟨t, ht, -⟩ := tracked_run localIp remoteIp calls b (hb ▸ Vector.getElem_mem i.2)
      refine .inr (.inr ⟨hdst.trans hl, ?_⟩)
      rw [← hflow, ht]
      rfl
    · exact .inl hpeer
    · exact .inr (.inl hexit)
  · refine absurd ?_ hnew
    by_cases hrecv : ∃ cap, call = .recv cap
    · obtain ⟨cap, rfl⟩ := hrecv
      exact m.queue_recv cap
    · have hqueue := (frame_step hm.next call).queue (fun pkt now heq => hcall ⟨pkt, now, heq⟩)
        fun cap heq => hrecv ⟨cap, heq⟩
      exact hqueue ▸ suffix_rfl

def answer (data : List UInt8) : List UInt8 := udpPacket peerIp nodeIp 53 49152 data

/-- The datagram that `answer` carries. -/
def answered (data : List UInt8) : Datagram := ⟨peerIp, nodeIp, 53, 49152, data⟩

/-- An answer that is queued because its port is listened on. -/
theorem queued_admitted_listening :
    let m := (muxNew nodeIp peerIp).run [.listen 49152]
    ∃ pkt now d, Mux.Call.input (answer [1, 2]) 5 = .input pkt now ∧ WellFormed pkt d ∧
      d.data.length ≤ maxDgram ∧
      (m.step (.input (answer [1, 2]) 5)).queue = m.queue ++ [m.queuedFor d] ∧
      (d.src = peerIp ∧ d.dst = nodeIp ∧ m.listening d.dstPort ∨
        d.src = peerIp ∧ d.dst ≠ nodeIp ∧ m.exitNode ∨
        d.dst = nodeIp ∧
          (d.flow.lastUse true ((muxNew nodeIp peerIp).history [.listen 49152])).isSome) :=
  queued_admitted nodeIp peerIp [.listen 49152] (.input (answer [1, 2]) 5) (by decide +kernel)

/-! ## Datagrams that are dropped keep a flow alive -/

/-- A flow is opened at time 0; a datagram of the flow that is too large is dropped at 100 s, and a
tick comes at 120 s. -/
def idleCalls : List Mux.Call :=
  [.bind 53 0, .input (answer (replicate 1153 0)) 100000, .tick 120000]

/-- It is not only binds, sends and queued datagrams that keep a flow alive: one that is too large to
be queued counts as a use as well, so the flow survives a tick two minutes after its only bind, and
an answer is queued after it. -/
theorem queued_after_idle :
    let m := (muxNew nodeIp peerIp).run idleCalls
    (m.step (.input (answer []) 130000)).queue = m.queue ++ [m.queuedFor (answered [])] ∧
      m.exitNode = false ∧ m.listening (answered []).dstPort = false ∧
      (answered []).flow.lastUse false ((muxNew nodeIp peerIp).history idleCalls) = none := by
  decide +kernel

end Udp
