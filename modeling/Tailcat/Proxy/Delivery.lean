import Tailcat.Proxy.EndOfStream

/-!
# Delivery at the end of a pair

A pair whose tunnel connection has closed is done at the next pass, whatever is left to deliver: the
proxy gives up bytes that the peer has seen acknowledged when the socket does not take them all in
that one pass (`Abandons`).

## Main results

* `delivered_iff`: the runs along which a pair that is done has delivered everything.
-/

namespace Proxy

open List

open Tcp (Conn)
open Tcp.Conn (Call)

/-- How many bytes the socket takes before it would block. -/
def room : List SendAnswer → ℕ
  | .took more :: sends => more + 1 + room sends
  | .intr :: sends => room sends
  | _ => 0

namespace Link

variable {l : Link} {sends : List SendAnswer} {recvs : List RecvAnswer} {e : Event}

def Event.NeverFails : Event → Prop
  | .pump sends recvs _ => SendAnswer.fail ∉ sends ∧ RecvAnswer.fail ∉ recvs
  | .input _ _ _ | .tick _ => True

instance : (e : Event) → Decidable e.NeverFails
  | .pump .. => instDecidableAnd
  | .input .. | .tick .. => instDecidableTrue

/-! ## What a pass delivers -/

lemma sendLoop_toHost (sends : List SendAnswer) (l : Link) :
    (sendLoop sends l).pair.toHost = l.pair.toHost.drop (room sends) := by
  induction sends generalizing l with
  | nil => rfl
  | cons a sends ih =>
    unfold sendLoop
    split
    · next hnil => rw [hnil, drop_nil]
    cases a with
    | took more =>
      refine (ih (l.send (more + 1))).trans ?_
      change (l.pair.toHost.drop (more + 1)).drop (room sends) = _
      rw [drop_drop]
      rfl
    | intr => exact ih l
    | again => rfl
    | fail => rfl

lemma sendLoop_flags (sends : List SendAnswer) (l : Link) :
    (sendLoop sends l).pair.tunEof = l.pair.tunEof ∧
      (sendLoop sends l).pair.hostShut = l.pair.hostShut := by
  induction sends generalizing l with
  | nil => exact ⟨rfl, rfl⟩
  | cons a sends ih =>
    unfold sendLoop
    split
    · exact ⟨rfl, rfl⟩
    cases a with
    | took more => exact ih (l.send (more + 1))
    | intr => exact ih l
    | again => exact ⟨rfl, rfl⟩
    | fail => exact ⟨rfl, rfl⟩

/-- What is left of the tunnel's stream can be delivered in one pass: it fits the staging buffer,
which is empty or holds its end, and the socket takes it. -/
def CatchesUp (l : Link) (sends : List SendAnswer) : Prop :=
  (l.pair.tunEof ∨ l.pair.toHost = []) ∧ l.tun.conn.rcv.buf.len ≤ bufsz ∧
    l.pair.toHost.length + l.tun.conn.rcv.buf.len ≤ room sends
deriving Decidable

lemma tcpRead_len (c : Conn) (cap : ℕ) :
    (c.tcpRead cap).2.length = min c.rcv.buf.len cap ∧
      (c.tcpRead cap).1.rcv.buf.len = c.rcv.buf.len - min c.rcv.buf.len cap ∧
      (c.tcpRead cap).1.rcv.finReceived = c.rcv.finReceived := by
  unfold Conn.tcpRead
  dsimp only
  split
  · exact ⟨RingBuffer.length_peek _ _ _, RingBuffer.len_drop _ _, rfl⟩
  · exact ⟨RingBuffer.length_peek _ _ _, RingBuffer.len_drop _ _, rfl⟩

lemma drainTunnel_ended (h : Inv l) (hfin : l.tun.conn.rcv.finReceived) :
    (l.drainTunnel.pair.tunEof ↔
      (l.pair.tunEof ∨ l.pair.toHost = []) ∧ l.tun.conn.rcv.buf.len ≤ bufsz) ∧
    (l.drainTunnel.pair.tunEof →
      l.drainTunnel.pair.toHost.length = l.pair.toHost.length + l.tun.conn.rcv.buf.len) := by
  by_cases hempty : l.pair.tunEof = false ∧ l.pair.toHost = []
  · obtain ⟨hbytes, hleft, hfin'⟩ := tcpRead_len l.tun.conn bufsz
    have hclosed : (l.tun.step (.read bufsz)).conn.readClosed ↔ l.tun.conn.rcv.buf.len ≤ bufsz := by
      change (l.tun.conn.tcpRead bufsz).1.readClosed ↔ _
      rw [Conn.readClosed, hfin', hfin, Bool.true_and, beq_iff_eq]
      omega
    have hflag : l.drainTunnel.pair.tunEof ↔ l.tun.conn.rcv.buf.len ≤ bufsz := by
      rw [← hclosed]
      unfold Link.drainTunnel
      rw [if_pos hempty]
      dsimp only
      split
      · next hc => simp [hc]
      · next hc => simp [hc, hempty.1]
    have hstage : l.drainTunnel.pair.toHost = (l.tun.conn.tcpRead bufsz).2 := by
      unfold Link.drainTunnel
      rw [if_pos hempty]
      dsimp only
      split <;> rfl
    refine ⟨by rw [hflag]; simp [hempty.2], fun heof => ?_⟩
    have hle := hflag.mp heof
    rw [hstage, hbytes, hempty.2, length_nil, Nat.zero_add, Nat.min_eq_left hle]
  · have hsame : l.drainTunnel = l := if_neg hempty
    rw [hsame]
    have hzero : l.pair.tunEof → l.tun.conn.rcv.buf.len = 0 := fun heof => (h.tunEof heof).2
    refine ⟨⟨fun heof => ⟨.inl heof, by rw [hzero heof]; exact Nat.zero_le _⟩, ?_⟩,
      fun heof => by rw [hzero heof]; rfl⟩
    rintro ⟨heof | hnil, -⟩
    · exact heof
    · by_contra heof
      exact hempty ⟨by simpa using heof, hnil⟩

lemma drainTunnel_hostShut (l : Link) : l.drainTunnel.pair.hostShut = l.pair.hostShut := by
  unfold Link.drainTunnel
  dsimp only
  split_ifs <;> rfl

lemma shutHost_hostShut (l : Link) :
    l.shutHost.pair.hostShut ↔ l.pair.hostShut ∨ (l.pair.tunEof ∧ l.pair.toHost = []) := by
  unfold Link.shutHost
  split
  · next hdue => simp [hdue]
  rename_i hno
  refine ⟨.inl, fun hl => hl.elim id fun hend => ?_⟩
  by_contra hshut
  exact hno ⟨hend.1, hend.2, by simpa using hshut⟩

/-- After the peer's FIN a pass shuts the socket down exactly if it delivers all that is left. -/
theorem hostShut_pumpTunnelToHost_iff (h : Inv l) (hfin : l.tun.conn.rcv.finReceived)
    (sends : List SendAnswer) :
    (l.pumpTunnelToHost sends).pair.hostShut ↔ l.CatchesUp sends := by
  obtain ⟨heof, hlen⟩ := drainTunnel_ended h hfin
  obtain ⟨heof', hshut'⟩ := sendLoop_flags sends l.drainTunnel
  have hnil : l.drainTunnel.pair.toHost.drop (room sends) = [] ↔
      l.drainTunnel.pair.toHost.length ≤ room sends := drop_eq_nil_iff
  have hpump : (l.pumpTunnelToHost sends).pair.hostShut ↔ l.pair.hostShut ∨
      (l.drainTunnel.pair.tunEof ∧ l.drainTunnel.pair.toHost.length ≤ room sends) := by
    rw [pumpTunnelToHost, shutHost_hostShut, hshut', heof', sendLoop_toHost, hnil,
      drainTunnel_hostShut]
  rw [hpump]
  constructor
  · rintro (hshut | ⟨hd, hroom⟩)
    · -- the socket has been shut down before: nothing is left
      rw [h.hostShut, Option.isSome_iff_exists] at hshut
      obtain ⟨n, hn⟩ := hshut
      obtain ⟨-, htun, hempty⟩ := h.shut n hn
      have hzero := (h.tunEof htun).2
      rw [CatchesUp, hzero, hempty]
      exact ⟨.inl htun, Nat.zero_le _, Nat.zero_le _⟩
    · obtain ⟨hl, hfit⟩ := heof.mp hd
      exact ⟨hl, hfit, (hlen hd).symm.le.trans hroom⟩
  · rintro ⟨hl, hfit, hroom⟩
    have hd := heof.mpr ⟨hl, hfit⟩
    exact .inr ⟨hd, (hlen hd).le.trans hroom⟩

/-! ## What a pass leaves alone -/

lemma sameClose_step (c : Conn) {call : Call}
    (hcall : (∃ cap, call = .read cap) ∨ (∃ buf now, call = .write buf now) ∨
      ∃ now, call = .shutdownWrite now) :
    ((c.step call).state = .closed ↔ c.state = .closed) ∧ (c.step call).reset = c.reset := by
  have htry : ∀ (d : Conn) (now : ℕ), (d.trySend now).reset = d.reset :=
    fun d now => (d.acts_trySend now).reset
  rcases hcall with ⟨cap, rfl⟩ | ⟨buf, now, rfl⟩ | ⟨now, rfl⟩
  · refine ⟨by rw [Conn.step, (c.recvOnly_tcpRead _).state], ?_⟩
    change (c.tcpRead cap).1.reset = _
    unfold Conn.tcpRead
    dsimp only
    split <;> rfl
  · change ((c.tcpWrite buf now).1.state = _ ↔ _) ∧ (c.tcpWrite buf now).1.reset = _
    unfold Conn.tcpWrite
    dsimp only
    split_ifs
    · exact ⟨Iff.rfl, rfl⟩
    · exact ⟨Iff.rfl, rfl⟩
    · exact ⟨Tcp.trySend_closed, htry _ now⟩
  · change ((c.tcpShutdownWrite now).1.state = _ ↔ _) ∧ (c.tcpShutdownWrite now).1.reset = _
    unfold Conn.tcpShutdownWrite
    split_ifs
    · exact ⟨Iff.rfl, rfl⟩
    · exact ⟨Iff.rfl, rfl⟩
    · exact ⟨Tcp.trySend_closed, htry _ now⟩

/-- A part of a pass that neither ends the pair nor fails. -/
structure Continues (l l' : Link) : Prop where
  closed : l'.tun.conn.state = .closed ↔ l.tun.conn.state = .closed
  reset : l'.tun.conn.reset = l.tun.conn.reset
  failed : l'.pair.failed = l.pair.failed
  done : l'.pair.done = l.pair.done

namespace Continues

variable {l' l'' : Link}

lemma trans (h : Continues l l') (h' : Continues l' l'') : Continues l l'' :=
  ⟨h'.closed.trans h.closed, h'.reset.trans h.reset, h'.failed.trans h.failed, h'.done.trans h.done⟩

lemma of_tun (ht : l'.tun = l.tun) (hf : l'.pair.failed = l.pair.failed)
    (hd : l'.pair.done = l.pair.done) : Continues l l' :=
  ⟨by rw [ht], by rw [ht], hf, hd⟩

lemma of_call (call : Call) (ht : l'.tun = l.tun.step call)
    (hcall : (∃ cap, call = .read cap) ∨ (∃ buf now, call = .write buf now) ∨
      ∃ now, call = .shutdownWrite now)
    (hf : l'.pair.failed = l.pair.failed) (hd : l'.pair.done = l.pair.done) : Continues l l' := by
  obtain ⟨hc, hr⟩ := sameClose_step l.tun.conn hcall
  exact ⟨by rw [ht]; exact hc, by rw [ht]; exact hr, hf, hd⟩

end Continues

lemma continues_drainTunnel (l : Link) : Continues l l.drainTunnel := by
  unfold Link.drainTunnel
  dsimp only
  split_ifs
  · exact .of_call (.read bufsz) rfl (.inl ⟨_, rfl⟩) rfl rfl
  · exact .of_call (.read bufsz) rfl (.inl ⟨_, rfl⟩) rfl rfl
  · exact .of_tun rfl rfl rfl

lemma continues_sendLoop (hok : SendAnswer.fail ∉ sends) (l : Link) :
    Continues l (sendLoop sends l) := by
  induction sends generalizing l with
  | nil => exact .of_tun rfl rfl rfl
  | cons a sends ih =>
    have hrest := ih fun hm => hok (mem_cons_of_mem _ hm)
    unfold Link.sendLoop
    split
    · exact .of_tun rfl rfl rfl
    cases a with
    | took more =>
      have hsend : Continues l (l.send (more + 1)) := .of_tun rfl rfl rfl
      exact hsend.trans (hrest _)
    | intr => exact hrest l
    | again => exact .of_tun rfl rfl rfl
    | fail => exact absurd mem_cons_self hok

lemma continues_pumpTunnelToHost (hok : SendAnswer.fail ∉ sends) (l : Link) :
    Continues l (l.pumpTunnelToHost sends) := by
  refine (continues_drainTunnel l).trans ((continues_sendLoop hok _).trans ?_)
  unfold Link.pumpTunnelToHost Link.shutHost
  split <;> exact .of_tun rfl rfl rfl

lemma continues_readHost (hok : RecvAnswer.fail ∉ recvs) (l : Link) :
    Continues l (l.readHost recvs) ∧ (l.readHost recvs).pair.hostShut = l.pair.hostShut := by
  unfold Link.readHost
  split
  · induction recvs with
    | nil => exact ⟨.of_tun rfl rfl rfl, rfl⟩
    | cons a recvs ih =>
      cases a with
      | intr => exact ih fun hm => hok (mem_cons_of_mem _ hm)
      | fail => exact absurd mem_cons_self hok
      | _ => exact ⟨.of_tun rfl rfl rfl, rfl⟩
  · exact ⟨.of_tun rfl rfl rfl, rfl⟩

lemma continues_writeLoop (now fuel : ℕ) (l : Link) :
    Continues l (writeLoop now fuel l) ∧
      (writeLoop now fuel l).pair.hostShut = l.pair.hostShut := by
  induction fuel generalizing l with
  | zero => exact ⟨.of_tun rfl rfl rfl, rfl⟩
  | succ fuel ih =>
    rcases writeLoop_cases now fuel l with heq | ⟨-, -, heq⟩ | ⟨-, heq⟩ <;> rw [heq]
    · exact ⟨.of_tun rfl rfl rfl, rfl⟩
    · exact ⟨.of_call _ rfl (.inr (.inl ⟨_, _, rfl⟩)) rfl rfl, rfl⟩
    obtain ⟨hrest, hshut⟩ := ih { l with
      tun := l.tun.step (.write l.pair.toTun now)
      pair := { l.pair with
        toTun := l.pair.toTun.drop (l.tun.conn.tcpWrite l.pair.toTun now).2.2 }
      moved := true }
    refine ⟨Continues.trans ?_ hrest, hshut⟩
    exact .of_call _ rfl (.inr (.inl ⟨_, _, rfl⟩)) rfl rfl

lemma continues_shutTunnel (now : ℕ) (l : Link) :
    Continues l (l.shutTunnel now) ∧ (l.shutTunnel now).pair.hostShut = l.pair.hostShut := by
  unfold Link.shutTunnel
  split_ifs
  · exact ⟨.of_call _ rfl (.inr (.inr ⟨_, rfl⟩)) rfl rfl, rfl⟩
  · exact ⟨.of_tun rfl rfl rfl, rfl⟩
  · exact ⟨.of_tun rfl rfl rfl, rfl⟩

lemma continues_pumpHostToTunnel (hok : RecvAnswer.fail ∉ recvs) (now : ℕ) (l : Link) :
    Continues l (l.pumpHostToTunnel recvs now) ∧
      (l.pumpHostToTunnel recvs now).pair.hostShut = l.pair.hostShut := by
  obtain ⟨hread, hshut⟩ := continues_readHost hok l
  obtain ⟨hwrite, hshut'⟩ :=
    continues_writeLoop now (l.readHost recvs).pair.toTun.length (l.readHost recvs)
  obtain ⟨hend, hshut''⟩ := continues_shutTunnel now
    (writeLoop now (l.readHost recvs).pair.toTun.length (l.readHost recvs))
  exact ⟨hread.trans (hwrite.trans hend), hshut''.trans (hshut'.trans hshut)⟩

/-! ## The end of a pair -/

/-- A pair that is done although its tunnel connection was not reset has delivered everything, in
both directions. -/
def Delivers (l : Link) : Prop :=
  l.pair.done → l.tun.conn.reset = false →
    l.host.sent = l.tun.received ∧ l.host.shutAt.isSome ∧ l.tun.written = l.host.got
deriving Decidable

/-- The pass finds the tunnel connection closed in the orderly way, and does not deliver all that is
left. -/
def Abandons (l : Link) : Event → Prop
  | .pump sends _ _ => l.pair.done = false ∧ l.tun.conn.state = .closed ∧
      l.tun.conn.reset = false ∧ ¬l.CatchesUp sends
  | .input _ _ _ | .tick _ => False

instance (l : Link) : (e : Event) → Decidable (l.Abandons e)
  | .pump .. => instDecidableAnd
  | .input .. | .tick .. => instDecidableFalse

/-- What a pair has delivered that has nothing left for the tunnel. -/
theorem Inv.delivered_all_iff (h : Inv l) (hnil : l.pair.toTun = []) :
    (l.host.sent = l.tun.received ∧ l.host.shutAt.isSome ∧ l.tun.written = l.host.got) ↔
      l.pair.hostShut := by
  rw [h.hostShut]
  refine ⟨fun hd => hd.2.1, fun hshut => ?_⟩
  obtain ⟨n, hn⟩ := Option.isSome_iff_exists.mp hshut
  refine ⟨h.sent_eq hn, hshut, ?_⟩
  rw [h.given, hnil, append_nil]

lemma delivers_settle_iff (h : Inv l) (hdone : l.pair.done = false)
    (hfail : l.pair.failed = false) :
    l.settle.Delivers ↔
      (l.tun.conn.state = .closed → l.tun.conn.reset = false → l.pair.hostShut) := by
  by_cases hclosed : l.tun.conn.state = .closed
  · have heq : l.settle = { l with pair := { l.pair with done := true }, moved := true } :=
      if_pos (.inr (.inl hclosed))
    rw [heq]
    have hlost : l.tun.conn.reset = false → l.pair.toTun = [] := by
      intro hreset
      rcases h.tun.closed hclosed with hr | ⟨-, hq⟩
      · exact absurd (hreset.symm.trans hr) (by simp)
      · exact (h.fin hq).2.1
    constructor
    · exact fun hd _ hreset => (h.delivered_all_iff (hlost hreset)).mp (hd rfl hreset)
    · exact fun hd _ hreset => (h.delivered_all_iff (hlost hreset)).mpr (hd hclosed hreset)
  · refine iff_of_true ?_ fun hc => absurd hc hclosed
    cases hfin : finished l.pair with
    | true =>
      have heq : l.settle = { l with pair := { l.pair with done := true }, moved := true } :=
        if_pos (.inr (.inr hfin))
      rw [heq]
      intro _ _
      simp only [finished, Bool.and_eq_true, List.isEmpty_iff] at hfin
      exact (h.delivered_all_iff hfin.2).mpr hfin.1.1.1.2
    | false =>
      have heq : l.settle = l := if_neg (by simp [hfail, hclosed, hfin])
      rw [heq]
      exact fun hd => absurd (hdone.symm.trans hd) (by simp)

lemma delivers_pump_iff (h : Inv l) (hl : l.Delivers) (hfail : l.pair.failed = false)
    (hs : SendAnswer.fail ∉ sends) (hr : RecvAnswer.fail ∉ recvs) (now : ℕ) :
    (l.pump sends recvs now).Delivers ↔ ¬l.Abandons (.pump sends recvs now) := by
  cases hdone : l.pair.done with
  | true =>
    have hsame : l.pump sends recvs now = l := if_pos hdone
    rw [hsame]
    exact iff_of_true hl fun ha => absurd (ha.1.symm.trans hdone) (by simp)
  | false =>
    let l0 : Link := { l with moved := false }
    let l1 := l0.pumpTunnelToHost sends
    let l2 := l1.pumpHostToTunnel recvs now
    have heq : l.pump sends recvs now = l2.settle := if_neg (by simp [hdone])
    have h0 : Inv l0 := { h with }
    have h2 : Inv l2 := (h0.pumpTunnelToHost sends).pumpHostToTunnel recvs now
    have hdown : Continues l0 l1 := continues_pumpTunnelToHost hs l0
    obtain ⟨hup, hshut⟩ := continues_pumpHostToTunnel hr now l1
    have hall : Continues l0 l2 := hdown.trans hup
    rw [heq, delivers_settle_iff h2 (hall.done.trans hdone) (hall.failed.trans hfail), hall.closed,
      hall.reset, hshut]
    have hcatch : l.tun.conn.state = .closed → l.tun.conn.reset = false →
        (l1.pair.hostShut ↔ l.CatchesUp sends) := by
      intro hc hreset
      rcases h.tun.closed hc with hr | ⟨hfin, -⟩
      · exact absurd (hreset.symm.trans hr) (by simp)
      · exact hostShut_pumpTunnelToHost_iff h0 hfin sends
    constructor
    · rintro hd ⟨-, hc, hreset, hno⟩
      exact hno ((hcatch hc hreset).mp (hd hc hreset))
    · intro hno hc hreset
      refine (hcatch hc hreset).mpr ?_
      by_contra hlate
      exact hno ⟨hdone, hc, hreset, hlate⟩

lemma Inv.delivers_arrive (h : Inv l) (hl : l.Delivers) (call : Call) (hcall : Arrives call) :
    Delivers { l with tun := l.tun.step call } := by
  intro hdone hreset
  have hnext := h.arrive call hcall
  have hbefore : l.tun.conn.reset = false := by
    by_contra hr
    have hlate := (l.tun.conn.moves_step call).reset (by simpa using hr)
    exact absurd (hreset.symm.trans hlate) (by simp)
  obtain ⟨-, hshut, hgiven⟩ := hl hdone hbefore
  obtain ⟨n, hn⟩ := Option.isSome_iff_exists.mp hshut
  refine ⟨hnext.sent_eq hn, hshut, ?_⟩
  have hwritten : call.bytesWritten l.tun.conn = [] := by
    cases call <;> first | rfl | exact hcall.elim
  change l.tun.written ++ call.bytesWritten l.tun.conn = _
  rw [hwritten, append_nil]
  exact hgiven

lemma delivers_step_iff (h : Inv l) (hl : l.Delivers) (hfail : l.pair.failed = false)
    (he : e.NeverFails) : (l.step e).Delivers ↔ ¬l.Abandons e := by
  cases e with
  | input pkt iss now =>
    exact iff_of_true (h.delivers_arrive hl (.input pkt iss now) trivial) nofun
  | tick now => exact iff_of_true (h.delivers_arrive hl (.tick now) trivial) nofun
  | pump sends recvs now => exact delivers_pump_iff h hl hfail he.1 he.2 now

lemma failed_step (he : e.NeverFails) (hfail : l.pair.failed = false) :
    (l.step e).pair.failed = false := by
  cases e with
  | input pkt iss now => exact hfail
  | tick now => exact hfail
  | pump sends recvs now =>
    change (l.pump sends recvs now).pair.failed = false
    unfold Link.pump Link.settle
    have hdown := continues_pumpTunnelToHost he.1 { l with moved := false }
    have hall := hdown.trans (continues_pumpHostToTunnel he.2 now _).1
    split_ifs
    · exact hfail
    · exact hall.failed.trans hfail
    · exact hall.failed.trans hfail

end Link

/-- No delivered data is lost: along a run in which the socket never fails, a pair is done only with
everything delivered in both directions unless its connection was reset, exactly if no pass finds
the connection closed in the orderly way with more to deliver than the socket takes in that pass. -/
theorem delivered_iff {c : Conn} (hc : Adopted c) {events : List Link.Event}
    (hhost : ∀ e ∈ events, e.NeverFails) :
    (∀ before, before <+: events →
      let l := before.foldl Link.step (Link.start c)
      l.pair.done → l.tun.conn.reset = false →
        l.host.sent = l.tun.received ∧ l.host.shutAt.isSome ∧ l.tun.written = l.host.got) ↔
      Run.Ok Link.step (fun l e => ¬l.Abandons e) (Link.start c) events :=
  Run.forall_prefix_iff_of (L := Link.Event.NeverFails)
    (I := fun l : Link => l.Inv ∧ l.Delivers ∧ l.pair.failed = false) (fun _ h => h.2.1)
    (fun _ _ h he => Link.delivers_step_iff h.1 h.2.1 h.2.2 he)
    (fun _ e h he hok => ⟨h.1.step e, (Link.delivers_step_iff h.1 h.2.1 h.2.2 he).mpr hok,
      Link.failed_step he h.2.2⟩)
    ⟨Link.inv_start hc, nofun, rfl⟩ hhost

/-- The peer of `justConnected` says two bytes, the host ends, and both sides close: the socket
gives the answers `first` to the first pass and `last` to the one after the close. -/
def orderlyClose (first last : List SendAnswer) : List Link.Event :=
  [.input Tcp.Conn.synAckPacket 0 1,
    .input (Tcp.Conn.fromPeer
      { Tcp.Conn.synAckFor with seq := 6, flags := Tcp.thAck, data := [1, 2] }) 0 2,
    .pump first [.eof] 3,
    .input (Tcp.Conn.fromPeer
      { Tcp.Conn.synAckFor with seq := 8, ack := 0, flags := Tcp.thAck ||| Tcp.thFin }) 0 4,
    .tick 70000, .pump last [] 70000]

/-- The socket takes everything in the first pass. -/
theorem delivered_iff_prompt_host :
    let l := (orderlyClose [.intr, .took 0, .took 7] []).foldl Link.step
      (Link.start Tcp.Conn.justConnected)
    (l.pair.done ∧ l.tun.conn.reset = false) ∧
      l.host.sent = l.tun.received ∧ l.host.shutAt.isSome ∧ l.tun.written = l.host.got := by
  have hend : ∀ l : Link, l.pair.done = true ∧ l.tun.conn.reset = false →
      (l.pair.done → l.tun.conn.reset = false → l.host.sent = l.tun.received ∧
        l.host.shutAt.isSome ∧ l.tun.written = l.host.got) →
      (l.pair.done ∧ l.tun.conn.reset = false) ∧ l.host.sent = l.tun.received ∧
        l.host.shutAt.isSome ∧ l.tun.written = l.host.got :=
    fun l h hl => ⟨h, hl h.1 h.2⟩
  exact hend _ (by decide +kernel) ((delivered_iff adopted_justConnected (by decide +kernel)).mpr
    (by decide +kernel) _ prefix_rfl)

/-- The socket would block when the connection has closed: two bytes that the peer has seen
acknowledged are lost. -/
theorem bytes_lost_at_close :
    ¬∀ c : Conn, Adopted c → ∀ events : List Link.Event, (∀ e ∈ events, e.NeverFails) →
      let l := events.foldl Link.step (Link.start c)
      l.pair.done → l.tun.conn.reset = false →
        l.host.sent = l.tun.received ∧ l.host.shutAt.isSome ∧ l.tun.written = l.host.got := by
  intro h
  have hend := h _ adopted_justConnected (orderlyClose [.again] [.again]) (by decide +kernel)
    (by decide +kernel) (by decide +kernel)
  revert hend
  decide +kernel

end Proxy
