import Tailcat.Proxy.Serve

/-!
# The connections that pairs refer to

The serve loop reaps the multiplexers only after the proxy has let go of what has closed, so that no
turn frees a connection that a pair refers to. A packet does: a bare SYN for a pair of ports in
`TIME_WAIT` frees the connection at once (`reused`), whoever holds a pointer to it.

## Main results

* `sound_step_iff`: what each step of the serve loop does to the references;
* `references_kept_iff`: the runs along which every pair's connection stays in its table.
-/

namespace Tcp.Mux

variable {m m' : Mux} {p : ℕ} {pkt : List UInt8} {draw : Draw} {sent : Bool} {now : ℕ}

/-- The connection that a packet is taken to replace: the packet is a bare SYN, and the connection
with its addresses and ports is in `TIME_WAIT`. -/
def reused (m : Mux) (pkt : List UInt8) : Option ℕ :=
  let tuple := fourTuple pkt
  if carriesTcp pkt && bareSyn pkt then
    ((m.findConn (some tuple.localIp) tuple.localPort (some tuple.remoteIp) tuple.remotePort).filter
      fun e => e.conn.state == .timeWait).map Entry.ptr
  else none

/-- As far as the pointers given out so far go, the table and the backlog are the same. -/
def SamePtrs (m m' : Mux) : Prop :=
  ∀ p < m.allocated, (p ∈ m'.ptrs ↔ p ∈ m.ptrs) ∧ (p ∈ m'.backlog ↔ p ∈ m.backlog)

lemma SamePtrs.refl : SamePtrs m m := fun _ _ => ⟨Iff.rfl, Iff.rfl⟩

lemma SameTable.samePtrs (h : SameTable m m') : SamePtrs m m' := fun p _ => by
  rw [ptrs, h.conns, h.backlog]
  exact ⟨Iff.rfl, Iff.rfl⟩

lemma Adds.samePtrs {c : Conn} {queue : Bool} (h : Adds c queue m m') : SamePtrs m m' := by
  intro p hp
  have hne : p ≠ m.allocated := hp.ne
  refine ⟨?_, ?_⟩
  · rw [ptrs, h.conns, List.map_append]
    simp [ptrs, hne]
  · rw [h.backlog]
    cases queue <;> simp [hne]

lemma Changes.samePtrs {f : Entry → Conn} (h : Changes f m m') : SamePtrs m m' := fun p _ => by
  rw [h.ptrs, h.backlog]
  exact ⟨Iff.rfl, Iff.rfl⟩

lemma samePtrs_inputUnowned (h : m.Valid) (pkt : List UInt8) (draw : Draw) (sent : Bool)
    (now : ℕ) : SamePtrs m (m.inputUnowned pkt draw sent now) := by
  rcases inputUnowned_cases h pkt draw sent now with hs | ⟨c, ha, -⟩
  · exact hs.samePtrs
  · exact ha.samePtrs

lemma Drops.mem_ptrs_ne {q : ℕ} (h : Drops (fun d => d.ptr ≠ q) m m') :
    (p ∈ m'.ptrs ↔ p ∈ m.ptrs ∧ p ≠ q) ∧ (p ∈ m'.backlog → p ∈ m.backlog) := by
  refine ⟨?_, fun hp => ?_⟩
  · rw [mem_ptrs, mem_ptrs]
    constructor
    · rintro ⟨e, he, rfl⟩
      obtain ⟨he, hne⟩ := h.mem_conns.mp he
      exact ⟨⟨e, he, rfl⟩, by simpa using hne⟩
    · rintro ⟨⟨e, he, rfl⟩, hne⟩
      exact ⟨e, h.mem_conns.mpr ⟨he, by simpa using hne⟩, rfl⟩
  · rw [h.backlog] at hp
    exact (List.mem_filter.mp hp).1

/-- A packet takes one connection at most out of the table: the one it is taken to replace. It puts
none back on the backlog. -/
theorem mem_ptrs_input_iff (h : m.Valid) (hp : p ∈ m.ptrs) (pkt : List UInt8) (draw : Draw)
    (sent : Bool) (now : ℕ) :
    (p ∈ (m.input pkt draw sent now).ptrs ↔ m.reused pkt ≠ some p) ∧
      (p ∈ (m.input pkt draw sent now).backlog → p ∈ m.backlog) := by
  have hold : p < m.allocated := h.fresh p hp
  have hkeep : ∀ {m'}, SamePtrs m m' → m.reused pkt = none →
      (p ∈ m'.ptrs ↔ m.reused pkt ≠ some p) ∧ (p ∈ m'.backlog → p ∈ m.backlog) := by
    intro m' hs hno
    obtain ⟨htable, hback⟩ := hs p hold
    refine ⟨iff_of_true (htable.mpr hp) (by rw [hno]; simp), hback.mp⟩
  unfold input
  split
  · next htcp => exact hkeep (fun _ _ => ⟨Iff.rfl, Iff.rfl⟩) (by simp [reused, htcp])
  rename_i htcp
  dsimp only
  split
  · next e hfind =>
    split
    · next hreuse =>
      have hdrop := drops_dropPtr h e.ptr
      obtain ⟨hptr, hback⟩ := hdrop.mem_ptrs_ne
      have hlow : p < (m.dropPtr e.ptr).allocated := by rwa [hdrop.allocated]
      obtain ⟨htable, hback'⟩ := samePtrs_inputUnowned (hdrop.valid h) pkt draw sent now p hlow
      have hreused : m.reused pkt = some e.ptr := by
        simp [reused, htcp, hreuse.2, hfind, hreuse.1]
      refine ⟨?_, fun hb => hback (hback'.mp hb)⟩
      rw [htable, hptr, hreused]
      simp [hp, eq_comm]
    · next hno =>
      have hf : ∀ c : Conn, c.state ≠ .listen → Mails c (c.tcpInput pkt draw.iss now) :=
        fun c hc => mails_step hc (.input pkt draw.iss now)
      refine hkeep (changes_updateConn h hf e.ptr).samePtrs ?_
      by_cases hsyn : bareSyn pkt
      · have hst : e.conn.state ≠ .timeWait := fun hst => hno ⟨hst, hsyn⟩
        simp [reused, hfind, hst]
      · simp [reused, hsyn]
  · next hfind =>
    refine hkeep (samePtrs_inputUnowned h pkt draw sent now) ?_
    simp [reused, hfind]

lemma samePtrs_dial (dst : Ipv6Addr) (localPort remotePort : UInt16) (draw : Draw) (now : ℕ)
    (hlen : m.conns.length < maxConns) :
    SamePtrs m (m.dial dst localPort remotePort draw now).1 := by
  rcases @dial_cases m now dst localPort remotePort draw hlen with hs | ⟨c, ha, -⟩
  · exact hs.samePtrs
  · exact ha.samePtrs

lemma samePtrs_connectFrom (localPort remotePort : UInt16) (draw : Draw) (now : ℕ) :
    SamePtrs m (m.connectFrom localPort remotePort draw now).1 := by
  unfold connectFrom
  split_ifs
  · exact .refl
  · exact .refl
  · exact .refl
  · exact samePtrs_dial m.remoteIp localPort remotePort draw now (by omega)

lemma samePtrs_connect (remotePort : UInt16) (draw : Draw) (now : ℕ) :
    SamePtrs m (m.connect remotePort draw now).1 := by
  obtain ⟨nextPort, port, hpick⟩ := m.pickPort_eq ephemeralSpan
  rw [connect, hpick]
  cases port with
  | none => exact .refl (m := m)
  | some port => exact samePtrs_connectFrom (m := { m with nextPort }) port remotePort draw now

lemma samePtrs_connectTo (dst : Ipv6Addr) (remotePort : UInt16) (draw : Draw) (now : ℕ) :
    SamePtrs m (m.connectTo dst remotePort draw now).1 := by
  obtain ⟨nextPort, port, hpick⟩ := m.pickPort_eq ephemeralSpan
  unfold connectTo
  split_ifs with hport hlen
  · exact .refl
  · exact .refl
  rw [hpick]
  cases port with
  | none => exact .refl (m := m)
  | some port =>
    exact samePtrs_dial (m := { m with nextPort }) dst port remotePort draw now (not_le.mp hlen)

/-- A call other than `tc_tcp_mux_close` and `tc_tcp_mux_reap` keeps every connection that has been
handed out, that is, every connection of the table that does not wait to be accepted. -/
def KeepsHandedOut (m : Mux) : Call → Prop
  | .close _ _ | .reap => True
  | call => ∀ p ∈ m.ptrs, p ∉ m.backlog → p ∈ (m.step call).ptrs

/-- The call is the arrival of a packet that replaces a connection that has been handed out. -/
def FreesHandedOut (m : Mux) : Call → Prop
  | .input pkt _ _ _ => ∃ p, m.reused pkt = some p ∧ p ∉ m.backlog
  | _ => False

lemma mem_ptrs_of_reused (h : m.reused pkt = some p) : p ∈ m.ptrs := by
  unfold reused at h
  split at h
  · simp only [Option.map_eq_some_iff, Option.filter_eq_some_iff] at h
    obtain ⟨e, ⟨hfind, -⟩, rfl⟩ := h
    exact mem_ptrs.mpr ⟨e, (mem_of_findConn hfind).1, rfl⟩
  · cases h

lemma keepsHandedOut_iff (h : m.Valid) (call : Call) :
    m.KeepsHandedOut call ↔ ¬m.FreesHandedOut call := by
  have hsame : SamePtrs m (m.step call) → ∀ p ∈ m.ptrs, p ∉ m.backlog → p ∈ (m.step call).ptrs :=
    fun hs p hp _ => (hs p (h.fresh p hp)).1.mpr hp
  cases call with
  | listen port =>
    refine iff_of_true (hsame ?_) id
    rw [step, listen]
    split_ifs <;> exact fun _ _ => ⟨Iff.rfl, Iff.rfl⟩
  | unlisten port =>
    refine iff_of_true (hsame ?_) id
    rw [step, unlisten]
    split_ifs <;> exact fun _ _ => ⟨Iff.rfl, Iff.rfl⟩
  | setAcceptFilter fn => exact iff_of_true (hsame fun _ _ => ⟨Iff.rfl, Iff.rfl⟩) id
  | setExitNode on => exact iff_of_true (hsame fun _ _ => ⟨Iff.rfl, Iff.rfl⟩) id
  | connect remotePort draw now =>
    exact iff_of_true (hsame (samePtrs_connect remotePort draw now)) id
  | connectFrom localPort remotePort draw now =>
    exact iff_of_true (hsame (samePtrs_connectFrom localPort remotePort draw now)) id
  | connectTo dst remotePort draw now =>
    exact iff_of_true (hsame (samePtrs_connectTo dst remotePort draw now)) id
  | input pkt draw sent now =>
    constructor
    · rintro hkeep ⟨p, hreused, hback⟩
      have hp := mem_ptrs_of_reused hreused
      exact (mem_ptrs_input_iff h hp pkt draw sent now).1.mp (hkeep p hp hback) hreused
    · intro hno p hp hback
      exact (mem_ptrs_input_iff h hp pkt draw sent now).1.mpr fun hr => hno ⟨p, hr, hback⟩
  | accept =>
    refine iff_of_true (fun p hp _ => ?_) id
    rw [step, accept]
    split <;> exact hp
  | tick now => exact iff_of_true (hsame (changes_tick h now).samePtrs) id
  | close ptr now => exact iff_of_true trivial id
  | reap => exact iff_of_true trivial id
  | onConn ptr call =>
    have hch := changes_updateConn h (fun c hc => mails_step hc call) ptr
    exact iff_of_true (hsame hch.samePtrs) id

end Tcp.Mux

namespace Proxy

open Function List
open Tcp (Conn Mux Draw Mails)
open Tcp.Conn (Call)

/-! ## A pass as calls on the connection -/

lemma mails_run {c : Conn} (hst : c.state ≠ .listen) (calls : List Call) :
    Mails c (calls.foldl Conn.step c) := by
  induction calls generalizing c with
  | nil => exact .refl c
  | cons call calls ih =>
    have hcall := Tcp.mails_step hst call
    exact hcall.trans (ih (hcall.state hst))

variable {now : ℕ}

namespace Link

/-- Between `l` and `l'` the connection has moved by calls of its owner. -/
def Drives (l l' : Link) : Prop :=
  ∃ calls : List Call, l'.tun.conn = calls.foldl Conn.step l.tun.conn

variable {l l' l'' : Link}

lemma Drives.of_tun (h : l'.tun = l.tun) : Drives l l' := ⟨[], by rw [h]; rfl⟩

lemma Drives.of_call (call : Call) (h : l'.tun = l.tun.step call) : Drives l l' :=
  ⟨[call], by rw [h]; rfl⟩

lemma Drives.trans (h : Drives l l') (h' : Drives l' l'') : Drives l l'' := by
  obtain ⟨calls, hl⟩ := h
  obtain ⟨calls', hl'⟩ := h'
  exact ⟨calls ++ calls', by rw [foldl_append, ← hl, hl']⟩

lemma drives_drainTunnel (l : Link) : Drives l l.drainTunnel := by
  unfold drainTunnel
  dsimp only
  split_ifs
  · exact .of_call (.read bufsz) rfl
  · exact .of_call (.read bufsz) rfl
  · exact .of_tun rfl

lemma sendLoop_tun (sends : List SendAnswer) (l : Link) : (sendLoop sends l).tun = l.tun := by
  induction sends generalizing l with
  | nil => rfl
  | cons a sends ih =>
    unfold sendLoop
    split
    · rfl
    cases a with
    | took more => exact ih (l.send (more + 1))
    | intr => exact ih l
    | again => rfl
    | fail => rfl

lemma drives_writeLoop (now fuel : ℕ) (l : Link) : Drives l (writeLoop now fuel l) := by
  induction fuel generalizing l with
  | zero => exact .of_tun rfl
  | succ fuel ih =>
    rcases writeLoop_cases now fuel l with heq | ⟨-, -, heq⟩ | ⟨-, heq⟩ <;> rw [heq]
    · exact .of_tun rfl
    · exact .of_call _ rfl
    have hwrite : Drives l { l with tun := l.tun.step (.write l.pair.toTun now) } := .of_call _ rfl
    refine hwrite.trans ?_
    obtain ⟨calls, hcalls⟩ := ih { l with
      tun := l.tun.step (.write l.pair.toTun now)
      pair := { l.pair with
        toTun := l.pair.toTun.drop (l.tun.conn.tcpWrite l.pair.toTun now).2.2 }
      moved := true }
    exact ⟨calls, hcalls⟩

lemma drives_pump (sends : List SendAnswer) (recvs : List RecvAnswer) (now : ℕ) (l : Link) :
    Drives l (l.pump sends recvs now) := by
  have hdown : ∀ l : Link, Drives l (l.pumpTunnelToHost sends) := by
    intro l
    refine (drives_drainTunnel l).trans (.of_tun ?_)
    unfold pumpTunnelToHost shutHost
    split <;> exact sendLoop_tun sends _
  have hup : ∀ l : Link, Drives l (l.pumpHostToTunnel recvs now) := by
    intro l
    refine (Drives.of_tun (readHost_tun recvs l).1).trans
      ((drives_writeLoop now (l.readHost recvs).pair.toTun.length _).trans ?_)
    unfold pumpHostToTunnel shutTunnel
    dsimp only
    split_ifs
    · exact .of_call _ rfl
    · exact .of_tun rfl
    · exact .of_tun rfl
  unfold pump
  split
  · exact .of_tun rfl
  have hstart : Drives l { l with moved := false } := .of_tun rfl
  refine hstart.trans ?_
  refine (hdown _).trans ((hup _).trans (.of_tun ?_))
  unfold settle
  split <;> rfl

lemma not_closed_of_not_done {sends : List SendAnswer} {recvs : List RecvAnswer}
    (hdone : l.pair.done = false) (h : (l.pump sends recvs now).pair.done = false) :
    (l.pump sends recvs now).tun.conn.state ≠ .closed := by
  unfold pump settle at h ⊢
  rw [if_neg (by simp [hdone])] at h ⊢
  split at h
  · cases h
  rename_i hopen
  rw [if_neg hopen]
  exact fun hc => hopen (.inr (.inl hc))

end Link

/-! ## The references of the proxy -/

namespace Server

variable {cap p : ℕ} {s : Server cap} {i : Fin maxClients} {pkt : List UInt8} {draw : Draw}
  {sent : Bool}

def Sound (s : Server cap) : Prop :=
  ∀ j r, s.slots j = some r → ∃ m, s.clients r.client = some m ∧ r.ptr ∈ m.ptrs

/-- What holds of a serving node as long as its references are sound. -/
structure Inv (s : Server cap) : Prop where
  valid : ∀ i m, s.clients i = some m → m.Valid
  refs : ∀ j r, s.slots j = some r →
    ∃ m, s.clients r.client = some m ∧ r.ptr ∈ m.ptrs ∧ r.ptr ∉ m.backlog
  inj : ∀ j k r r', s.slots j = some r → s.slots k = some r' → r.client = r'.client →
    r.ptr = r'.ptr → j = k

lemma Inv.sound (h : Inv s) : Sound s := fun j r hj =>
  have ⟨m, hm, hp, _⟩ := h.refs j r hj
  ⟨m, hm, hp⟩

lemma inv_new : Inv (new cap) where
  valid _ _ h := by cases h
  refs _ _ h := by cases h
  inj _ _ _ _ h := by cases h

section

variable (h : Inv s)

include h

lemma Inv.of_clients {clients : Fin maxClients → Option Mux}
    (hv : ∀ i m, clients i = some m → m.Valid)
    (hr : ∀ j r m, s.slots j = some r → s.clients r.client = some m → r.ptr ∈ m.ptrs →
      r.ptr ∉ m.backlog → ∃ m', clients r.client = some m' ∧ r.ptr ∈ m'.ptrs ∧ r.ptr ∉ m'.backlog) :
    Inv { s with clients } where
  valid := hv
  refs j r hj := by
    obtain ⟨m, hm, hp, hb⟩ := h.refs j r hj
    exact hr j r m hj hm hp hb
  inj := h.inj

lemma Inv.onMux {f : Mux → Mux} (hv : ∀ m, s.clients i = some m → (f m).Valid)
    (hr : ∀ j r m, s.slots j = some r → r.client = i → s.clients i = some m → r.ptr ∈ m.ptrs →
      r.ptr ∉ m.backlog → r.ptr ∈ (f m).ptrs ∧ r.ptr ∉ (f m).backlog) :
    Inv (s.onMux i f) := by
  refine h.of_clients (fun k m hm => ?_) fun j r m hj hm hp hb => ?_
  · by_cases hk : k = i
    · subst hk
      rw [update_self, Option.map_eq_some_iff] at hm
      obtain ⟨m0, hm0, rfl⟩ := hm
      exact hv m0 hm0
    · rw [update_of_ne hk] at hm
      exact h.valid k m hm
  · by_cases hk : r.client = i
    · rw [hk] at hm
      obtain ⟨hp', hb'⟩ := hr j r m hj hk hm hp hb
      exact ⟨f m, by rw [hk, update_self, hm]; rfl, hp', hb'⟩
    · exact ⟨m, by rw [update_of_ne hk]; exact hm, hp, hb⟩

lemma Inv.of_slots {slots : Fin cap → Option Slot} {stats : Stats}
    (hs : ∀ j r, slots j = some r → s.slots j = some r) : Inv { s with slots, stats } where
  valid := h.valid
  refs j r hj := h.refs j r (hs j r hj)
  inj j k r r' hj hk := h.inj j k r r' (hs j r hj) (hs k r' hk)

/-! ## Clients and packets -/

lemma Inv.addClient (localIp remoteIp : Tcp.Ipv6Addr) (seed : UInt16)
    (filter : UInt16 → Bool) (exitNode : Bool) :
    Inv (s.addClient localIp remoteIp seed filter exitNode) := by
  unfold Server.addClient
  split
  · exact h
  rename_i i hfree
  have hnone : s.clients i = none := by simpa using find?_some hfree
  refine h.of_clients (fun k m hm => ?_) fun j r m hj hm hp hb => ?_
  · by_cases hk : k = i
    · subst hk
      rw [update_self, Option.some.injEq] at hm
      subst hm
      exact (Tcp.Mux.valid_muxNew localIp remoteIp seed).of_sameTable ⟨rfl, rfl, le_rfl⟩
    · rw [update_of_ne hk] at hm
      exact h.valid k m hm
  · have hk : r.client ≠ i := fun hk => by rw [hk, hnone] at hm; cases hm
    exact ⟨m, by rw [update_of_ne hk]; exact hm, hp, hb⟩

lemma Inv.tick (i : Fin maxClients) (now : ℕ) : Inv (s.onMux i (·.tick now)) :=
  h.onMux (fun m hm => (h.valid i m hm).of_changes (Tcp.Mux.changes_tick (h.valid i m hm) now))
    fun _ r m _ _ hm hp hb => by
      have hch := Tcp.Mux.changes_tick (h.valid i m hm) now
      exact ⟨by rw [hch.ptrs]; exact hp, by rw [hch.backlog]; exact hb⟩

/-- A step frees a connection that a pair in use refers to: the arrival of a packet that is taken to
replace it. -/
def Frees (s : Server cap) : Event cap → Prop
  | .input i pkt _ _ _ => ∃ j r m, s.slots j = some r ∧ r.client = i ∧ s.clients i = some m ∧
      m.reused pkt = some r.ptr
  | _ => False

lemma Inv.input (hok : ¬s.Frees (.input i pkt draw sent now)) :
    Inv (s.onMux i (·.input pkt draw sent now)) := by
  refine h.onMux (fun m hm => ?_) fun j r m hj hi hm hp hb => ?_
  · exact (Tcp.Mux.writes_input (h.valid i m hm) pkt draw sent now).valid (h.valid i m hm)
  · obtain ⟨hptr, hback⟩ := Tcp.Mux.mem_ptrs_input_iff (h.valid i m hm) hp pkt draw sent now
    exact ⟨hptr.mpr fun hr => hok ⟨j, r, m, hj, hi, hm, hr⟩, fun hb' => hb (hback hb')⟩

lemma Inv.not_sound_input (hfrees : s.Frees (.input i pkt draw sent now)) :
    ¬(s.onMux i (·.input pkt draw sent now)).Sound := by
  obtain ⟨j, r, m, hj, rfl, hm, hreused⟩ := hfrees
  intro hsound
  obtain ⟨m', hm', hp⟩ := hsound j r hj
  have heq : m' = m.input pkt draw sent now := by
    unfold Server.onMux at hm'
    dsimp only at hm'
    rw [update_self, hm] at hm'
    exact (Option.some.inj hm').symm
  rw [heq] at hp
  have hold := Tcp.Mux.mem_ptrs_of_reused hreused
  exact (Tcp.Mux.mem_ptrs_input_iff (h.valid _ m hm) hold pkt draw sent now).1.mp hp hreused

/-! ## Accepting -/

/-- Closing a connection that no pair refers to. -/
theorem Inv.close (hp : ∀ j r, s.slots j = some r → r.client = i → r.ptr ≠ p) (now : ℕ) :
    Inv (s.onMux i (·.close p now)) := by
  refine h.onMux (fun m hm => ?_) fun j r m hj hi hm hptr hb => ?_
  · exact (Tcp.Mux.writes_step (h.valid i m hm) (.close p now)).valid (h.valid i m hm)
  have hf : ∀ c : Conn, c.state ≠ .listen →
      Mails c (if c.state ≠ .closed then c.tcpAbort now else c) := by
    intro c hc
    split
    · exact Tcp.mails_step hc (.abort now)
    · exact .refl c
  have hch := Tcp.Mux.changes_updateConn (h.valid i m hm) hf p
  have hdrop := Tcp.Mux.drops_dropPtr ((h.valid i m hm).of_changes hch) p
  obtain ⟨hptr', hback⟩ := hdrop.mem_ptrs_ne
  refine ⟨hptr'.mpr ⟨by rw [hch.ptrs]; exact hptr, hp j r hj hi⟩, fun hb' => hb ?_⟩
  exact hback hb'

lemma Inv.proxyAdd {m : Mux} (hm : s.clients i = some m) (hptr : p ∈ m.ptrs)
    (hb : p ∉ m.backlog) (hp : ∀ j r, s.slots j = some r → r.client = i → r.ptr ≠ p)
    {s' : Server cap} (hadd : s.proxyAdd i p = some s') : Inv s' := by
  unfold Server.proxyAdd at hadd
  rw [Option.map_eq_some_iff] at hadd
  obtain ⟨j0, -, rfl⟩ := hadd
  -- a slot of the new table is the new pair or an old one
  have hslot : ∀ j r, update s.slots j0 (some ⟨i, p, {}⟩) j = some r →
      (j = j0 ∧ r.client = i ∧ r.ptr = p) ∨ (j ≠ j0 ∧ s.slots j = some r) := by
    intro j r hj
    by_cases hk : j = j0
    · subst hk
      rw [update_self, Option.some.injEq] at hj
      subst hj
      exact .inl ⟨rfl, rfl, rfl⟩
    · rw [update_of_ne hk] at hj
      exact .inr ⟨hk, hj⟩
  refine ⟨h.valid, fun j r hj => ?_, fun j k r r' hj hk hc hq => ?_⟩
  · rcases hslot j r hj with ⟨-, hi, hq⟩ | ⟨-, hold⟩
    · rw [hi, hq]
      exact ⟨m, hm, hptr, hb⟩
    · exact h.refs j r hold
  · rcases hslot j r hj with ⟨rfl, hi, hq1⟩ | ⟨-, hold⟩ <;>
      rcases hslot k r' hk with ⟨rfl, hi', hq2⟩ | ⟨-, hold'⟩
    · rfl
    · exact absurd (hq.symm.trans hq1) (hp k r' hold' (hc.symm.trans hi))
    · exact absurd (hq.trans hq2) (hp j r hold (hc.trans hi'))
    · exact h.inj j k r r' hold hold' hc hq

lemma Inv.accept (i : Fin maxClients) (dialled : Bool) (now : ℕ) :
    Inv (s.accept i dialled now) := by
  unfold Server.accept
  split
  · exact h
  rename_i m hm
  have hvalid := h.valid i m hm
  rcases hback : m.backlog with _ | ⟨p, rest⟩
  · have hnone : m.accept = (m, none) := by rw [Mux.accept, hback]
    rw [hnone]
    exact h
  have hsome : m.accept = ({ m with backlog := rest }, some p) := by rw [Mux.accept, hback]
  rw [hsome]
  have hp : p ∈ m.ptrs := hvalid.queued p (by rw [hback]; exact mem_cons_self)
  have hrest : p ∉ rest := by
    have hsorted := hvalid.sorted
    rw [hback, pairwise_cons] at hsorted
    exact fun hmem => absurd (hsorted.1 p hmem) (lt_irrefl p)
  -- what waits to be accepted is not referred to yet
  have hnew : ∀ j r, s.slots j = some r → r.client = i → r.ptr ≠ p := by
    rintro j r hj rfl rfl
    obtain ⟨m', hm', -, hb⟩ := h.refs j r hj
    obtain rfl : m = m' := Option.some.inj (hm.symm.trans hm')
    exact hb (by rw [hback]; exact mem_cons_self)
  have htaken : Inv
      { s with clients := update s.clients i (some { m with backlog := rest }) } := by
    refine h.of_clients (fun k m' hm' => ?_) fun j r m' hj hm' hq hb => ?_
    · by_cases hk : k = i
      · subst hk
        rw [update_self, Option.some.injEq] at hm'
        subst hm'
        have htakes : Tcp.Mux.Write m { m with backlog := rest } :=
          .takes rfl (hback ▸ sublist_cons_self p rest) rfl
        exact htakes.valid hvalid
      · rw [update_of_ne hk] at hm'
        exact h.valid k m' hm'
    · by_cases hk : r.client = i
      · rw [hk] at hm'
        obtain rfl : m = m' := Option.some.inj (hm.symm.trans hm')
        refine ⟨{ m with backlog := rest }, ?_, hq, fun hr => hb ?_⟩
        · rw [hk, update_self]
        · rw [hback]
          exact mem_cons_of_mem _ hr
      · exact ⟨m', by rw [update_of_ne hk]; exact hm', hq, hb⟩
  have hclosed := htaken.close hnew now
  dsimp only
  split
  · rcases hadd : Server.proxyAdd _ i p with _ | s'
    · exact hclosed
    · exact htaken.proxyAdd (update_self _ _ _) hp hrest hnew hadd
  · exact hclosed

/-! ## The end of a turn -/

/-- The pair of the slot is done, or its connection has not closed. -/
def Attended (s : Server cap) (j : Fin cap) : Prop :=
  ∀ r, s.slots j = some r → r.pair.done = false →
    ∃ m e, s.clients r.client = some m ∧ e ∈ m.conns ∧ e.ptr = r.ptr ∧ e.conn.state ≠ .closed

lemma pumpSlot_cases (answers : Answers cap) (now : ℕ) (j : Fin cap) :
    (pumpSlot answers now s j = s ∧ s.Attended j) ∨
    ∃ r m e f pr, s.slots j = some r ∧ s.clients r.client = some m ∧ e ∈ m.conns ∧ e.ptr = r.ptr ∧
      (∀ c : Conn, c.state ≠ .listen → Mails c (f c)) ∧
      (pr.done = false → (f e.conn).state ≠ .closed) ∧
      (pumpSlot answers now s j).clients =
        update s.clients r.client (some (m.updateConn r.ptr f)) ∧
      (pumpSlot answers now s j).slots = update s.slots j (some { r with pair := pr }) := by
  unfold pumpSlot
  split
  · next hj => exact .inl ⟨rfl, fun r hr => by rw [hj] at hr; cases hr⟩
  rename_i r hj
  obtain ⟨m, hm, hp, -⟩ := h.refs j r hj
  split
  · next hdone =>
    refine .inl ⟨rfl, fun r' hr hno => ?_⟩
    obtain rfl : r = r' := Option.some.inj (hj.symm.trans hr)
    exact absurd (hno.symm.trans hdone) (by simp)
  · next hdone =>
    rw [hm]
    dsimp only
    split
    · next hnone =>
      obtain ⟨e, he, hptr⟩ := Tcp.Mux.mem_ptrs.mp hp
      exact absurd hptr (by simpa using find?_eq_none.mp hnone e he)
    rename_i e hfind
    refine .inr ⟨r, m, e, _, _, hj, hm, mem_of_find?_eq_some hfind,
      by simpa using find?_some hfind, fun c hc => ?_, fun hpr => ?_, rfl, rfl⟩
    · obtain ⟨calls, hcalls⟩ := Link.drives_pump (answers j).1 (answers j).2 now (linkOf r.pair c)
      rw [hcalls]
      exact mails_run hc calls
    · have hopen : r.pair.done = false := by simpa using hdone
      exact Link.not_closed_of_not_done hopen hpr

lemma Inv.pumpSlot (answers : Answers cap) (now : ℕ) (j : Fin cap) :
    Inv (pumpSlot answers now s j) ∧ (pumpSlot answers now s j).Attended j ∧
      ∀ k, s.Attended k → (pumpSlot answers now s j).Attended k := by
  rcases pumpSlot_cases h answers now j with
    ⟨heq, hj⟩ | ⟨r, m, e, f, pr, hj, hm, he, hptr, hf, hopen, hclients, hslots⟩
  · rw [heq]
    exact ⟨h, hj, fun _ => id⟩
  · have hch := Tcp.Mux.changes_updateConn (h.valid _ m hm) hf r.ptr
    -- a slot of the new table refers to what it referred to before
    have hslot : ∀ k r', (Server.pumpSlot answers now s j).slots k = some r' →
        ∃ r0, s.slots k = some r0 ∧ r'.client = r0.client ∧ r'.ptr = r0.ptr ∧
          (k ≠ j → r' = r0) := by
      intro k r' hk
      rw [hslots] at hk
      by_cases hkj : k = j
      · subst hkj
        rw [update_self, Option.some.injEq] at hk
        subst hk
        exact ⟨r, hj, rfl, rfl, fun hne => absurd rfl hne⟩
      · rw [update_of_ne hkj] at hk
        exact ⟨r', hk, rfl, rfl, fun _ => rfl⟩
    have hattended : (Server.pumpSlot answers now s j).Attended j := by
      intro r' hr' hdone
      rw [hslots, update_self, Option.some.injEq] at hr'
      subst hr'
      refine ⟨_, { e with conn := f e.conn }, by rw [hclients, update_self], ?_, hptr,
        hopen hdone⟩
      exact mem_map.mpr ⟨e, he, if_pos hptr⟩
    refine ⟨⟨fun i m' hm' => ?_, fun k r' hk => ?_, fun k k' r1 r2 hk hk' hc hq => ?_⟩,
      hattended, ?_⟩
    · rw [hclients] at hm'
      by_cases hi : i = r.client
      · subst hi
        rw [update_self, Option.some.injEq] at hm'
        subst hm'
        exact (h.valid _ m hm).of_changes hch
      · rw [update_of_ne hi] at hm'
        exact h.valid i m' hm'
    · obtain ⟨r0, hr0, hc, hq, -⟩ := hslot k r' hk
      obtain ⟨m0, hm0, hp, hb⟩ := h.refs k r0 hr0
      rw [hclients, hc, hq]
      by_cases hi : r0.client = r.client
      · rw [hi] at hm0 ⊢
        obtain rfl : m = m0 := Option.some.inj (hm.symm.trans hm0)
        exact ⟨_, update_self _ _ _, by rw [hch.ptrs]; exact hp,
          by rw [hch.backlog]; exact hb⟩
      · exact ⟨m0, by rw [update_of_ne hi]; exact hm0, hp, hb⟩
    · obtain ⟨r1', h1, hc1, hq1, -⟩ := hslot k r1 hk
      obtain ⟨r2', h2, hc2, hq2, -⟩ := hslot k' r2 hk'
      exact h.inj k k' r1' r2' h1 h2 (hc1.symm.trans (hc.trans hc2)) (hq1.symm.trans (hq.trans hq2))
    · intro k hk r' hr' hdone
      by_cases hkj : k = j
      · subst hkj
        exact hattended r' hr' hdone
      · obtain ⟨r0, hr0, -, -, hsame⟩ := hslot k r' hr'
        obtain rfl := hsame hkj
        obtain ⟨m0, e0, hm0, he0, hp0, hst0⟩ := hk r' hr0 hdone
        rw [hclients]
        by_cases hi : r'.client = r.client
        · -- another connection of the same client
          have hne : e0.ptr ≠ r.ptr := fun heq =>
            hkj (h.inj k j r' r hr0 hj hi (hp0.symm.trans heq))
          rw [hi] at hm0 ⊢
          obtain rfl : m = m0 := Option.some.inj (hm.symm.trans hm0)
          exact ⟨_, e0, update_self _ _ _, mem_map.mpr ⟨e0, he0, if_neg hne⟩, hp0, hst0⟩
        · exact ⟨m0, e0, by rw [update_of_ne hi]; exact hm0, he0, hp0, hst0⟩

lemma Inv.pump (answers : Answers cap) (now : ℕ) :
    Inv (s.pump answers now) ∧ ∀ j, (s.pump answers now).Attended j := by
  have hfold : ∀ (js : List (Fin cap)) (s : Server cap), Inv s →
      Inv (js.foldl (Server.pumpSlot answers now) s) ∧
        ∀ j, j ∈ js ∨ s.Attended j → (js.foldl (Server.pumpSlot answers now) s).Attended j := by
    intro js
    induction js with
    | nil => exact fun s hs => ⟨hs, fun j hj => hj.resolve_left not_mem_nil⟩
    | cons k js ih =>
      intro s hs
      obtain ⟨hnext, hk, hkeep⟩ := hs.pumpSlot answers now k
      obtain ⟨hend, hall⟩ := ih _ hnext
      refine ⟨hend, fun j hj => hall j ?_⟩
      rcases hj with hj | hj
      · rcases mem_cons.mp hj with rfl | hj
        · exact .inr hk
        · exact .inl hj
      · exact .inr (hkeep j hj)
  obtain ⟨hend, hall⟩ := hfold (finRange cap) s h
  exact ⟨hend, fun j => hall j (.inl (mem_finRange j))⟩

end

lemma proxyReap_spec (s : Server cap) :
    s.proxyReap.clients = s.clients ∧
      ∀ j r, s.proxyReap.slots j = some r → s.slots j = some r ∧ r.pair.done = false := by
  have hslot : ∀ (s : Server cap) (k : Fin cap), (s.reapSlot k).clients = s.clients ∧
      ∀ j r, (s.reapSlot k).slots j = some r →
        s.slots j = some r ∧ (j = k → r.pair.done = false) := by
    intro s k
    unfold reapSlot
    split
    · next hk => exact ⟨rfl, fun j r hj => ⟨hj, fun hjk => by rw [hjk, hk] at hj; cases hj⟩⟩
    rename_i r0 hk
    split
    · refine ⟨rfl, fun j r hj => ?_⟩
      change update s.slots k none j = some r at hj
      by_cases hjk : j = k
      · subst hjk
        rw [update_self] at hj
        cases hj
      · rw [update_of_ne hjk] at hj
        exact ⟨hj, fun h => absurd h hjk⟩
    · next hdone =>
      refine ⟨rfl, fun j r hj => ⟨hj, fun hjk => ?_⟩⟩
      rw [hjk, hk, Option.some.injEq] at hj
      subst hj
      simpa using hdone
  have hfold : ∀ (js : List (Fin cap)) (s : Server cap),
      (js.foldl reapSlot s).clients = s.clients ∧
        ∀ j r, (js.foldl reapSlot s).slots j = some r →
          s.slots j = some r ∧ (j ∈ js → r.pair.done = false) := by
    intro js
    induction js with
    | nil => exact fun s => ⟨rfl, fun j r hj => ⟨hj, fun hm => absurd hm not_mem_nil⟩⟩
    | cons k js ih =>
      intro s
      obtain ⟨hc, hs⟩ := ih (s.reapSlot k)
      obtain ⟨hc', hs'⟩ := hslot s k
      refine ⟨hc.trans hc', fun j r hj => ?_⟩
      obtain ⟨hmid, hdone⟩ := hs j r hj
      obtain ⟨hold, hdone'⟩ := hs' j r hmid
      refine ⟨hold, fun hm => ?_⟩
      rcases mem_cons.mp hm with hm | hm
      · exact hdone' hm
      · exact hdone hm
  obtain ⟨hc, hs⟩ := hfold (finRange cap) s
  exact ⟨hc, fun j r hj => ⟨(hs j r hj).1, (hs j r hj).2 (mem_finRange j)⟩⟩

lemma Inv.proxyReap (h : Inv s) : Inv s.proxyReap := by
  obtain ⟨hc, hs⟩ := proxyReap_spec s
  have hless : Inv { s with slots := s.proxyReap.slots, stats := s.proxyReap.stats } :=
    h.of_slots fun j r hj => (hs j r hj).1
  rw [← hc] at hless
  exact hless

lemma Inv.muxReap (h : Inv s) (hdone : ∀ j r, s.slots j = some r → r.pair.done = false)
    (hopen : ∀ j, s.Attended j) :
    Inv { s with clients := fun i => (s.clients i).map fun m => m.reap.1 } := by
  refine h.of_clients (fun i m hm => ?_) fun j r m hj hm hp hb => ?_
  · rw [Option.map_eq_some_iff] at hm
    obtain ⟨m0, hm0, rfl⟩ := hm
    exact (Tcp.Mux.drops_reap (h.valid i m0 hm0)).valid (h.valid i m0 hm0)
  obtain ⟨m', e, hm', he, hptr, hst⟩ := hopen j r hj (hdone j r hj)
  obtain rfl : m = m' := Option.some.inj (hm.symm.trans hm')
  have hdrop := Tcp.Mux.drops_reap (h.valid _ m hm)
  refine ⟨m.reap.1, by rw [hm]; rfl, ?_, fun hback => hb ?_⟩
  · exact Tcp.Mux.mem_ptrs.mpr ⟨e, hdrop.mem_conns.mpr ⟨he, by simp [Tcp.Mux.isOpen, hst]⟩, hptr⟩
  · rw [hdrop.backlog] at hback
    exact (mem_filter.mp hback).1

lemma Inv.expireClient (h : Inv s) (idle : Fin maxClients → Bool) (i : Fin maxClients) :
    Inv (expireClient idle s i) := by
  unfold Server.expireClient
  split
  · exact h
  rename_i m hm
  split
  · next hidle =>
    have hempty : m.ptrs = [] := by rw [Mux.ptrs, length_eq_zero_iff.mp hidle.1]; rfl
    unfold dropClient
    rw [hm]
    dsimp only
    rw [hempty]
    refine h.of_clients (fun k m' hm' => ?_) fun j r m' hj hm' hp hb => ?_
    · by_cases hk : k = i
      · subst hk
        rw [update_self] at hm'
        cases hm'
      · rw [update_of_ne hk] at hm'
        exact h.valid k m' hm'
    · have hk : r.client ≠ i := by
        intro hk
        rw [hk] at hm'
        obtain rfl : m = m' := Option.some.inj (hm.symm.trans hm')
        rw [hempty] at hp
        cases hp
      exact ⟨m', by
        rw [update_of_ne hk]
        exact hm', hp, hb⟩
  · exact h

lemma Inv.turn (h : Inv s) (answers : Answers cap) (idle : Fin maxClients → Bool) (now : ℕ) :
    Inv (s.turn answers idle now) := by
  obtain ⟨hpump, hopen⟩ := h.pump answers now
  obtain ⟨hc, hs⟩ := proxyReap_spec (s.pump answers now)
  have hleft : ∀ j, (s.pump answers now).proxyReap.Attended j := by
    intro j r hj hdone
    rw [hc]
    exact hopen j r (hs j r hj).1 hdone
  have hreaped := hpump.proxyReap.muxReap (fun j r hj => (hs j r hj).2) hleft
  exact Run.foldl_invariant hreaped (fun _ i hi => hi.expireClient idle i) _

/-- A step of the serve loop keeps the references sound, unless a packet frees a connection that is
referred to. -/
theorem sound_step_iff (h : Inv s) (e : Event cap) :
    ((s.step e).Sound ↔ ¬s.Frees e) ∧ (¬s.Frees e → Inv (s.step e)) := by
  have hfine : Inv (s.step e) → ¬s.Frees e →
      ((s.step e).Sound ↔ ¬s.Frees e) ∧ (¬s.Frees e → Inv (s.step e)) :=
    fun hi hf => ⟨iff_of_true hi.sound hf, fun _ => hi⟩
  cases e with
  | join localIp remoteIp seed filter exitNode =>
    exact hfine (h.addClient localIp remoteIp seed filter exitNode) nofun
  | input i pkt draw sent now =>
    by_cases hf : s.Frees (.input i pkt draw sent now)
    · exact ⟨iff_of_false (h.not_sound_input hf) (not_not.mpr hf), fun hno => absurd hf hno⟩
    · exact hfine (h.input hf) hf
  | tick i now => exact hfine (h.tick i now) nofun
  | accept i dialled now => exact hfine (h.accept i dialled now) nofun
  | turn answers idle now => exact hfine (h.turn answers idle now) nofun

end Server

/-- No pair outlives its connection: along a run of the serve loop every pair in use refers to a
connection of its multiplexer's table exactly if no bare SYN arrives for the ports of a connection
in `TIME_WAIT` that a pair in use refers to. And whatever calls are made on a multiplexer, a call
other than `tc_tcp_mux_close` and `tc_tcp_mux_reap` takes a connection that has been handed out off
the table exactly if it is the arrival of such a SYN. -/
theorem references_kept_iff (cap : ℕ) (events : List (Server.Event cap))
    (localIp remoteIp : Tcp.Ipv6Addr) (seed : UInt16) (calls : List Mux.Call) (call : Mux.Call) :
    let m := (Mux.muxNew localIp remoteIp seed).run calls
    ((∀ before, before <+: events → (before.foldl Server.step (Server.new cap)).Sound) ↔
      Run.Ok Server.step (fun s e => ¬s.Frees e) (Server.new cap) events) ∧
    (m.KeepsHandedOut call ↔ ¬m.FreesHandedOut call) := by
  refine ⟨?_, ?_⟩
  · exact Run.forall_prefix_iff (I := fun s : Server cap => s.Inv) (fun _ h => h.sound)
      (fun _ e h => (Server.sound_step_iff h e).1) (fun _ e h => (Server.sound_step_iff h e).2)
      Server.inv_new
  · exact Tcp.Mux.keepsHandedOut_iff (Tcp.Mux.valid_run localIp remoteIp seed calls) call

def firstClient : Fin maxClients := ⟨0, by decide⟩

/-- A connection is accepted and forwarded, the host ends, the peer closes too, and opens a new
connection from the same port before the next turn. -/
def portReused : List (Server.Event 64) :=
  let fromPeer (ack : UInt32) (flags : UInt8) : Server.Event 64 :=
    .input firstClient (Tcp.Conn.fromPeer
      { sport := 80, dport := 9, seq := if ack = 0 then 5 else 6, ack, flags, wnd := 1000
        data := [] }) { mem := some ⟨fun _ => 0, fun _ => 0⟩, iss := 100 } true 1
  [.join (Vector.replicate 16 1) (Vector.replicate 16 2) 0 (fun _ => true) false,
    fromPeer 0 Tcp.thSyn, .accept firstClient true 1, fromPeer 101 Tcp.thAck,
    .turn (fun _ => ([], [.eof])) (fun _ => false) 2, fromPeer 102 (Tcp.thAck ||| Tcp.thFin),
    fromPeer 0 Tcp.thSyn]

/-- The pair in use refers to a connection that has been freed. -/
theorem reference_to_freed :
    ¬∀ events : List (Server.Event 64), (events.foldl Server.step (Server.new 64)).Sound := by
  intro h
  have hslot : ((portReused.foldl Server.step (Server.new 64)).slots 0).map
      (fun r => (r.client, r.ptr)) = some (firstClient, 0) := by
    decide +kernel
  have htable : ((portReused.foldl Server.step (Server.new 64)).clients firstClient).map Mux.ptrs =
      some [1] := by decide +kernel
  obtain ⟨r, hr, hpair⟩ := Option.map_eq_some_iff.mp hslot
  obtain ⟨m, hm, hp⟩ := h portReused 0 r hr
  obtain ⟨hc, hq⟩ := Prod.mk.inj hpair
  rw [hc] at hm
  rw [hm, Option.map_some, Option.some.injEq] at htable
  rw [hq, htable] at hp
  exact absurd hp (by decide)

end Proxy
