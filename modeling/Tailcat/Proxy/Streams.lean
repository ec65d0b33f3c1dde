import Tailcat.Proxy.Tunnel

/-!
# The streams of a pair

What a pair keeps along every schedule of passes, packets and ticks (`Link.Inv`): what the tunnel
has received is what the socket has taken, then what is staged, then what is still to be read, and
the same holds the other way round; each end of stream is passed on after the last byte.

## Main results

* `streams_in_order`: order and half-close along every schedule.
-/

namespace Proxy

open List
open Tcp (Conn TimerInv Shutting Drifts)
open Tcp.Conn (Call SendWatch)

/-! ## The tunnel -/

/-- What holds of a tunnel connection that nobody aborts. -/
structure TunnelInv (t : Tunnel) : Prop where
  watch : ∃ w : SendWatch, w.Inv ∧ w.conn = t.conn ∧ w.written = t.written
  timers : TimerInv t.conn
  shutting : Shutting t.conn
  received : t.received = t.read ++ t.conn.rcv.buf.toList
  closed : t.conn.state = .closed → t.conn.reset ∨ (t.conn.rcv.finReceived ∧ t.conn.snd.finQueued)

variable {call : Call} {t : Tunnel} {c : Conn}

lemma halfClosed_step (c : Conn) (hcall : ∀ now, call ≠ .abort now) :
    (c.rcv.finReceived → (c.step call).rcv.finReceived) ∧
      (c.snd.finQueued → (c.step call).snd.finQueued) := by
  have hdrift : ∀ {c'}, Drifts c c' →
      (c.rcv.finReceived → c'.rcv.finReceived) ∧ (c.snd.finQueued → c'.snd.finQueued) :=
    fun h => ⟨fun hf => (h.ended hf).1, fun hq => h.queued.trans hq⟩
  cases call with
  | input pkt iss now => exact hdrift (Tcp.drifts_tcpInput c pkt iss now)
  | tick now => exact hdrift (Tcp.drifts_tcpTick c now)
  | write buf now =>
    have hrcv := (Conn.keepsRecv_tcpWrite c buf now).rcv
    exact ⟨fun hf => by rw [Conn.step, hrcv]; exact hf,
      fun hq => (Tcp.tcpWrite_finQueued c buf now).trans hq⟩
  | read cap =>
    refine ⟨fun hf => ?_, fun hq => by rw [Conn.step, (c.recvOnly_tcpRead cap).keepsSend.snd]; exact hq⟩
    change (c.tcpRead cap).1.rcv.finReceived
    unfold Conn.tcpRead
    dsimp only
    split <;> exact hf
  | shutdownWrite now =>
    have hrcv := (Conn.keepsRecv_tcpShutdownWrite c now).rcv
    refine ⟨fun hf => by rw [Conn.step, hrcv]; exact hf, fun hq => ?_⟩
    rcases Tcp.tcpShutdownWrite_cases c now with ⟨-, heq⟩ | ⟨-, hq', -⟩
    · rw [Conn.step, heq]
      exact hq
    · exact hq'
  | abort now => exact absurd rfl (hcall now)

lemma received_step (h : t.received = t.read ++ t.conn.rcv.buf.toList) (call : Call) :
    (t.step call).received = (t.step call).read ++
    (t.step call).conn.rcv.buf.toList := by
  have hkeep : (t.conn.step call).rcv = t.conn.rcv → bytesReceived t.conn call = [] →
      call.bytesRead t.conn = [] →
      t.received ++ bytesReceived t.conn call =
        (t.read ++ call.bytesRead t.conn) ++ (t.conn.step call).rcv.buf.toList := by
    intro hrcv hr hb
    rw [hrcv, hr, hb, append_nil, append_nil, h]
  cases call with
  | input pkt iss now =>
    obtain ⟨more, hmore⟩ := (Tcp.drifts_tcpInput t.conn pkt iss now).buf
    change t.received ++ (t.conn.tcpInput pkt iss now).rcv.buf.toList.drop t.conn.rcv.buf.len =
      (t.read ++ []) ++ (t.conn.tcpInput pkt iss now).rcv.buf.toList
    rw [← hmore, ← RingBuffer.length_toList, drop_left, h, append_nil, append_assoc]
  | tick now => exact hkeep (Conn.keepsRecv_tcpTick t.conn now).rcv rfl rfl
  | write buf now => exact hkeep (Conn.keepsRecv_tcpWrite t.conn buf now).rcv rfl rfl
  | read cap =>
    change t.received ++ [] =
      (t.read ++ (t.conn.tcpRead cap).2) ++ (t.conn.tcpRead cap).1.rcv.buf.toList
    rw [append_nil, h, append_assoc, ← Tcp.tcpRead_readable]
  | shutdownWrite now => exact hkeep (Conn.keepsRecv_tcpShutdownWrite t.conn now).rcv rfl rfl
  | abort now => exact hkeep (Conn.keepsRecv_tcpAbort t.conn now).rcv rfl rfl

lemma TunnelInv.step (h : TunnelInv t) (hcall : ∀ now, call ≠ .abort now) :
    TunnelInv (t.step call) where
  watch := by
    obtain ⟨w, hw, hconn, hwritten⟩ := h.watch
    refine ⟨w.step call, SendWatch.inv_step hw call, ?_, ?_⟩
    · change w.conn.step call = _
      rw [hconn]
      rfl
    · change w.written ++ call.bytesWritten w.conn = _
      rw [hconn, hwritten]
      rfl
  timers := h.timers.step call
  shutting := h.shutting.step call
  received := received_step h.received call
  closed := by
    intro hc
    have hhalf := halfClosed_step t.conn hcall
    rcases Tcp.closes_step h.timers h.shutting hcall hc with hst | hend
    · rcases h.closed hst with hres | ⟨hfin, hq⟩
      · exact .inl ((t.conn.moves_step call).reset hres)
      · exact .inr ⟨hhalf.1 hfin, hhalf.2 hq⟩
    · exact hend

lemma tunnelInv_of_opened (h : Tcp.Conn.Opened c) : TunnelInv (Link.start c).tun where
  watch := ⟨SendWatch.start c, SendWatch.inv_start h, rfl, rfl⟩
  timers := .of_opened h
  shutting := .of_opened h
  received := rfl
  closed := by cases h <;> nofun

/-- A connection that neither the proxy nor anybody else has read from, written into or closed. -/
structure Untouched (t : Tunnel) : Prop where
  inv : TunnelInv t
  read : t.read = []
  written : t.written = []
  queued : t.conn.snd.finQueued = false

lemma Untouched.step (h : Untouched t) (hcall : Arrives call) : Untouched (t.step call) := by
  cases call with
  | input pkt iss now =>
    exact ⟨h.inv.step nofun, (append_nil _).trans h.read, (append_nil _).trans h.written,
      (Tcp.drifts_tcpInput t.conn pkt iss now).queued.trans h.queued⟩
  | tick now =>
    exact ⟨h.inv.step nofun, (append_nil _).trans h.read, (append_nil _).trans h.written,
      (Tcp.drifts_tcpTick t.conn now).queued.trans h.queued⟩
  | _ => exact hcall.elim

lemma Adopted.untouched (h : Adopted c) : Untouched (Link.start c).tun := by
  obtain ⟨c0, calls, hopen, harrive, rfl⟩ := h.history
  have hrun : ∀ t : Tunnel, Untouched t → Untouched (calls.foldl Tunnel.step t) ∧
      (calls.foldl Tunnel.step t).conn = calls.foldl Conn.step t.conn := by
    clear h hopen
    induction calls with
    | nil => exact fun t ht => ⟨ht, rfl⟩
    | cons call calls ih =>
      intro t ht
      exact ih (fun d hd => harrive d (mem_cons_of_mem _ hd)) _
        (ht.step (harrive call mem_cons_self))
  have hqueued : c0.snd.finQueued = false := by cases hopen <;> rfl
  obtain ⟨hend, hconn⟩ := hrun (Link.start c0).tun ⟨tunnelInv_of_opened hopen, rfl, rfl, hqueued⟩
  -- nothing has been read, so what was received is what stands in the buffer
  have heq : (Link.start (calls.foldl Conn.step c0)).tun =
      calls.foldl Tunnel.step (Link.start c0).tun := by
    have hreceived := hend.inv.received
    rw [hend.read, hconn] at hreceived
    rcases hfold : calls.foldl Tunnel.step (Link.start c0).tun with ⟨conn, received, read, written⟩
    rw [hfold] at hend hconn hreceived
    obtain ⟨-, rfl, rfl, -⟩ := hend
    obtain rfl : conn = calls.foldl Conn.step c0 := hconn
    obtain rfl : received = _ := hreceived
    rfl
  rw [heq]
  exact hend

/-! ## The pair -/

namespace Link

/-- What holds of a pair along every schedule. -/
structure Inv (l : Link) : Prop where
  tun : TunnelInv l.tun
  state : l.tun.conn.state ≠ .listen
  staged : l.tun.read = l.host.sent ++ l.pair.toHost
  given : l.host.got = l.tun.written ++ l.pair.toTun
  tunEof : l.pair.tunEof → l.tun.conn.rcv.finReceived ∧ l.tun.conn.rcv.buf.len = 0
  hostEof : l.pair.hostEof = l.host.ended
  hostShut : l.pair.hostShut = l.host.shutAt.isSome
  shut : ∀ n, l.host.shutAt = some n → n = l.host.sent.length ∧ l.pair.tunEof ∧ l.pair.toHost = []
  fin : l.tun.conn.snd.finQueued → l.host.ended ∧ l.pair.toTun = [] ∧ l.tun.conn.sendUnacked = 0

variable {l : Link}

lemma inv_start (h : Adopted c) : Inv (start c) where
  tun := h.untouched.inv
  state := h.state
  staged := rfl
  given := rfl
  tunEof := nofun
  hostEof := rfl
  hostShut := rfl
  shut := nofun
  fin hq := absurd (h.untouched.queued.symm.trans hq) (by simp)

variable (sends : List SendAnswer) (recvs : List RecvAnswer)

section

variable (h : Inv l)

include h

lemma Inv.arrive (call : Call) (hcall : Arrives call) : Inv { l with tun := l.tun.step call } := by
  have hdrift : Drifts l.tun.conn (l.tun.conn.step call) := by
    cases call with
    | input pkt iss now => exact Tcp.drifts_tcpInput _ pkt iss now
    | tick now => exact Tcp.drifts_tcpTick _ now
    | _ => exact hcall.elim
  have hread : call.bytesRead l.tun.conn = [] := by
    cases call <;> first | rfl | exact hcall.elim
  have hwritten : call.bytesWritten l.tun.conn = [] := by
    cases call <;> first | rfl | exact hcall.elim
  have hne : ∀ now, call ≠ .abort now := by
    rintro now rfl
    exact hcall
  refine { h with
    tun := h.tun.step hne, state := ?_, staged := ?_, given := ?_, tunEof := ?_, fin := ?_ }
  · exact (Tcp.mails_step h.state call).state h.state
  · change l.tun.read ++ call.bytesRead l.tun.conn = _
    rw [hread, append_nil]
    exact h.staged
  · change _ = (l.tun.written ++ call.bytesWritten l.tun.conn) ++ _
    rw [hwritten, append_nil]
    exact h.given
  · intro heof
    obtain ⟨hfin, hlen⟩ := h.tunEof heof
    obtain ⟨hfin', hbuf⟩ := hdrift.ended hfin
    exact ⟨hfin', (congrArg RingBuffer.len hbuf).trans hlen⟩
  · intro hq
    obtain ⟨hend, hnil, hzero⟩ := h.fin (hdrift.queued.symm.trans hq)
    exact ⟨hend, hnil, Nat.le_zero.mp (hdrift.unacked.trans hzero.le)⟩

lemma Inv.tunEof_of_rcv (heof : l.pair.tunEof) (hrcv : c.rcv = l.tun.conn.rcv) :
    c.rcv.finReceived ∧ c.rcv.buf.len = 0 := by
  rw [hrcv]
  exact h.tunEof heof

lemma Inv.fail : Inv l.fail := { h with }

lemma Inv.drainTunnel : Inv l.drainTunnel := by
  unfold Link.drainTunnel
  split
  · next hempty =>
    let l' : Link :=
      { l with
        tun := l.tun.step (.read bufsz)
        pair := { l.pair with toHost := (l.tun.conn.tcpRead bufsz).2 }
        moved := l.moved || !(l.tun.conn.tcpRead bufsz).2.isEmpty }
    have hsnd : l'.tun.conn.snd = l.tun.conn.snd := (l.tun.conn.recvOnly_tcpRead bufsz).keepsSend.snd
    have hread : Inv l' :=
      { tun := h.tun.step nofun
        state := (Tcp.mails_step h.state (.read bufsz)).state h.state
        staged := by
          change l.tun.read ++ (l.tun.conn.tcpRead bufsz).2 = l.host.sent ++ _
          rw [h.staged, hempty.2, append_nil]
        given := by
          change l.host.got = (l.tun.written ++ []) ++ l.pair.toTun
          rw [append_nil]
          exact h.given
        tunEof := fun heof => absurd (hempty.1.symm.trans heof) (by simp)
        hostEof := h.hostEof
        hostShut := h.hostShut
        shut := fun n hn => absurd (hempty.1.symm.trans (h.shut n hn).2.1) (by simp)
        fin := fun hq => by
          rw [hsnd] at hq
          obtain ⟨hend, hnil, hzero⟩ := h.fin hq
          refine ⟨hend, hnil, ?_⟩
          unfold Conn.sendUnacked
          rw [hsnd]
          exact hzero }
    change Inv (if l'.tun.conn.readClosed then _ else l')
    split
    · next hclosed =>
      rw [Conn.readClosed, Bool.and_eq_true, beq_iff_eq] at hclosed
      refine { hread with tunEof := fun _ => hclosed, shut := fun n hn => ?_ }
      exact absurd (hempty.1.symm.trans (h.shut n hn).2.1) (by simp)
    · exact hread
  · exact h

lemma Inv.send (n : ℕ) : Inv (l.send n) where
  tun := h.tun
  state := h.state
  staged := by
    change l.tun.read = (l.host.sent ++ l.pair.toHost.take n) ++ l.pair.toHost.drop n
    rw [append_assoc, take_append_drop]
    exact h.staged
  given := h.given
  tunEof := h.tunEof
  hostEof := h.hostEof
  hostShut := h.hostShut
  shut m hm := by
    obtain ⟨hlen, heof, hnil⟩ := h.shut m hm
    refine ⟨?_, heof, by change l.pair.toHost.drop n = []; rw [hnil, drop_nil]⟩
    change m = (l.host.sent ++ l.pair.toHost.take n).length
    rw [hnil, take_nil, append_nil]
    exact hlen
  fin := h.fin

lemma Inv.sendLoop : Inv (sendLoop sends l) := by
  induction sends generalizing l with
  | nil => exact h
  | cons a sends ih =>
    unfold Link.sendLoop
    split
    · exact h
    cases a with
    | took more => exact ih (h.send _)
    | intr => exact ih h
    | again => exact h
    | fail => exact h.fail

lemma Inv.shutHost : Inv l.shutHost := by
  unfold Link.shutHost
  split
  · next hdue =>
    refine { h with hostShut := rfl, shut := fun n hn => ?_ }
    obtain rfl : l.host.sent.length = n := Option.some.inj hn
    exact ⟨rfl, hdue.1, hdue.2.1⟩
  · exact h

lemma Inv.pumpTunnelToHost : Inv (l.pumpTunnelToHost sends) :=
  (h.drainTunnel.sendLoop sends).shutHost

lemma Inv.not_queued (heof : l.pair.hostEof = false) : l.tun.conn.snd.finQueued = false := by
  by_contra hq
  have hend := (h.fin (by simpa using hq)).1
  rw [← h.hostEof, heof] at hend
  cases hend

lemma Inv.recvLoop (heof : l.pair.hostEof = false) (hnil : l.pair.toTun = [])
    (recvs : List RecvAnswer) : Inv (recvLoop recvs l) := by
  have hno := h.not_queued heof
  induction recvs with
  | nil => exact h
  | cons a recvs ih =>
    cases a with
    | got b bs =>
      refine { h with given := ?_, fin := fun hq => absurd (hno.symm.trans hq) (by simp) }
      change l.host.got ++ (b :: bs).take bufsz = l.tun.written ++ (b :: bs).take bufsz
      rw [h.given, hnil, append_nil]
    | eof => exact { h with hostEof := rfl, fin := fun hq => absurd (hno.symm.trans hq) (by simp) }
    | intr => exact ih
    | again => exact h
    | fail => exact h.fail

lemma Inv.readHost : Inv (l.readHost recvs) := by
  unfold Link.readHost
  split
  · next hdue => exact h.recvLoop hdue.1 hdue.2 recvs
  · exact h

end

lemma recvLoop_tun (l : Link) :
    (recvLoop recvs l).tun = l.tun ∧ (recvLoop recvs l).pair.tunShut = l.pair.tunShut := by
  induction recvs with
  | nil => exact ⟨rfl, rfl⟩
  | cons a recvs ih => cases a <;> first | exact ih | exact ⟨rfl, rfl⟩

lemma readHost_tun (l : Link) :
    (l.readHost recvs).tun = l.tun ∧ (l.readHost recvs).pair.tunShut = l.pair.tunShut := by
  unfold readHost
  split
  · exact recvLoop_tun recvs l
  · exact ⟨rfl, rfl⟩

lemma Inv.write (h : Inv l) (hne : l.pair.toTun ≠ []) (now : ℕ) :
    let wrote := (l.tun.conn.tcpWrite l.pair.toTun now).2.2
    Inv { l with
      tun := l.tun.step (.write l.pair.toTun now)
      pair := { l.pair with toTun := l.pair.toTun.drop wrote } } := by
  intro wrote
  have hrcv := (Conn.keepsRecv_tcpWrite l.tun.conn l.pair.toTun now).rcv
  refine { h with
    tun := h.tun.step nofun, state := ?_, staged := ?_, given := ?_, tunEof := ?_, fin := ?_ }
  · exact (Tcp.mails_step h.state (.write l.pair.toTun now)).state h.state
  · exact (append_nil _).trans h.staged
  · change l.host.got = (l.tun.written ++ l.pair.toTun.take wrote) ++ l.pair.toTun.drop wrote
    rw [append_assoc, take_append_drop]
    exact h.given
  · exact fun heof => h.tunEof_of_rcv heof hrcv
  · intro hq
    exact absurd (h.fin ((Tcp.tcpWrite_finQueued _ _ now).symm.trans hq)).2.1 hne

lemma writeLoop_cases (now fuel : ℕ) (l : Link) :
    let wrote := (l.tun.conn.tcpWrite l.pair.toTun now).2.2
    let tun := l.tun.step (.write l.pair.toTun now)
    writeLoop now (fuel + 1) l = l ∨
    (l.pair.toTun ≠ [] ∧ wrote = 0 ∧ writeLoop now (fuel + 1) l = { l with tun }) ∨
    (l.pair.toTun ≠ [] ∧ writeLoop now (fuel + 1) l = writeLoop now fuel
      { l with tun, pair := { l.pair with toTun := l.pair.toTun.drop wrote }, moved := true }) := by
  intro wrote tun
  by_cases hnil : l.pair.toTun = []
  · exact .inl (if_pos hnil)
  refine .inr ?_
  have hrefused : (l.tun.conn.tcpWrite l.pair.toTun now).2.1 ≠ .ok → wrote = 0 := by
    dsimp only [wrote]
    unfold Conn.tcpWrite
    dsimp only
    split_ifs <;> simp
  rw [Link.writeLoop]
  dsimp only
  split_ifs with hrc hzero
  · exact .inl ⟨hnil, hrefused hrc, rfl⟩
  · exact .inl ⟨hnil, hzero, rfl⟩
  · exact .inr ⟨hnil, rfl⟩

lemma Inv.writeLoop (h : Inv l) (now fuel : ℕ) : Inv (writeLoop now fuel l) := by
  induction fuel generalizing l with
  | zero => exact h
  | succ fuel ih =>
    rcases writeLoop_cases now fuel l with heq | ⟨hne, hzero, heq⟩ | ⟨hne, heq⟩ <;> rw [heq]
    · exact h
    · have hnext := h.write hne now
      rw [hzero] at hnext
      exact { hnext with }
    · exact ih { h.write hne now with }

lemma Inv.shutTunnel (h : Inv l) (now : ℕ) : Inv (l.shutTunnel now) := by
  unfold Link.shutTunnel
  split
  · next hdue =>
    split
    · next hzero =>
      have hrcv := (Conn.keepsRecv_tcpShutdownWrite l.tun.conn now).rcv
      refine { h with
        tun := h.tun.step nofun, state := ?_, staged := ?_, given := ?_, tunEof := ?_, fin := ?_ }
      · exact (Tcp.mails_step h.state (.shutdownWrite now)).state h.state
      · exact (append_nil _).trans h.staged
      · refine h.given.trans ?_
        change _ = (l.tun.written ++ []) ++ _
        rw [append_nil]
      · exact fun heof => h.tunEof_of_rcv heof hrcv
      · intro _
        refine ⟨h.hostEof ▸ hdue.1, hdue.2.1, ?_⟩
        change (l.tun.conn.tcpShutdownWrite now).1.snd.buf.len = 0
        rcases Tcp.tcpShutdownWrite_cases l.tun.conn now with ⟨-, heq⟩ | ⟨-, -, hle⟩
        · rw [heq]
          exact hzero
        · exact Nat.le_zero.mp (hle.trans hzero.le)
    · exact h
  · exact h

lemma Inv.pumpHostToTunnel (h : Inv l) (recvs : List RecvAnswer) (now : ℕ) :
    Inv (l.pumpHostToTunnel recvs now) :=
  ((h.readHost recvs).writeLoop now _).shutTunnel now

lemma Inv.settle (h : Inv l) : Inv l.settle := by
  unfold Link.settle
  split
  · exact { h with }
  · exact h

lemma Inv.pump (h : Inv l) (sends : List SendAnswer) (recvs : List RecvAnswer) (now : ℕ) :
    Inv (l.pump sends recvs now) := by
  unfold Link.pump
  split
  · exact h
  · have hstart : Inv { l with moved := false } := { h with }
    exact ((hstart.pumpTunnelToHost sends).pumpHostToTunnel recvs now).settle

/-- The invariant of a pair. -/
theorem Inv.step (h : Inv l) (e : Event) : Inv (l.step e) := by
  cases e with
  | input pkt iss now => exact h.arrive (.input pkt iss now) trivial
  | tick now => exact h.arrive (.tick now) trivial
  | pump sends recvs now => exact h.pump sends recvs now

lemma inv_run (h : Adopted c) (events : List Event) : Inv (events.foldl step (start c)) :=
  Run.foldl_invariant (inv_start h) (fun _ e hl => hl.step e) events

lemma Inv.acknowledged (h : Inv l) (hq : l.tun.conn.snd.finQueued) :
    let snd := l.tun.conn.snd
    ∃ u, l.tun.written.length ≤ u ∧ u ≤ l.tun.written.length + 1 ∧
      snd.una = SerialNumber.place (snd.iss + 1) u := by
  obtain ⟨w, hw, hconn, hwritten⟩ := h.tun.watch
  rw [← hconn] at hq
  cases hopen : w.opened with
  | false => exact absurd ((hw.shaking hopen).finQueued.symm.trans hq) (by simp)
  | true =>
    obtain ⟨-, u, f, hinv⟩ := hw.aligned hopen
    rw [hconn, hwritten] at hinv
    have hlen := hinv.len
    have hzero : l.tun.conn.snd.buf.len = 0 := (h.fin (hconn ▸ hq)).2.2
    have hle := hinv.le_succ
    exact ⟨u, by omega, by omega, hinv.una⟩

lemma Inv.sent_eq (h : Inv l) {n : ℕ} (hn : l.host.shutAt = some n) :
    l.host.sent = l.tun.received := by
  obtain ⟨-, heof, hnil⟩ := h.shut n hn
  rw [h.tun.received, h.staged, hnil, RingBuffer.toList_eq_nil (h.tunEof heof).2, append_nil,
    append_nil]

end Link

/-- Order and half-close: along every schedule of passes, packets and ticks the socket has taken a
beginning of what the tunnel has received, and the tunnel a beginning of what the socket has given.
The socket has been shut down only with the end of the tunnel's stream and after the last byte; the
FIN of the tunnel has been asked for only with the end of the socket's stream, after its last byte
and with every byte acknowledged. -/
theorem streams_in_order {c : Conn} (hc : Adopted c) (events : List Link.Event) :
    let l := events.foldl Link.step (Link.start c)
    l.host.sent <+: l.tun.received ∧ l.tun.written <+: l.host.got ∧
      (∀ n, l.host.shutAt = some n →
        l.tun.conn.rcv.finReceived ∧ n = l.tun.received.length ∧ l.host.sent = l.tun.received) ∧
      (l.tun.conn.snd.finQueued →
        l.host.ended ∧ l.tun.written = l.host.got ∧
          ∃ u, l.tun.written.length ≤ u ∧ u ≤ l.tun.written.length + 1 ∧
            l.tun.conn.snd.una = SerialNumber.place (l.tun.conn.snd.iss + 1) u) := by
  intro l
  have h : l.Inv := Link.inv_run hc events
  refine ⟨?_, ?_, fun n hn => ?_, fun hq => ?_⟩
  · rw [h.tun.received, h.staged, append_assoc]
    exact prefix_append _ _
  · rw [h.given]
    exact prefix_append _ _
  · have hsent := h.sent_eq hn
    obtain ⟨hlen, heof, -⟩ := h.shut n hn
    exact ⟨(h.tunEof heof).1, by rw [hlen, hsent], hsent⟩
  · obtain ⟨hend, hnil, -⟩ := h.fin hq
    refine ⟨hend, ?_, h.acknowledged hq⟩
    rw [h.given, hnil, append_nil]

lemma adopted_justConnected : Adopted Tcp.Conn.justConnected :=
  ⟨⟨_, [], .connect .., nofun, rfl⟩, by decide⟩

/-- Two bytes and the end of the host's stream, while the handshake is in progress. -/
theorem streams_in_order_two_bytes :
    let l := [Link.Event.pump [] [.got 7 [8]] 1, .pump [] [.intr, .eof] 2].foldl Link.step
      (Link.start Tcp.Conn.justConnected)
    l.host.ended ∧ l.tun.written = [7, 8] ∧ l.tun.written <+: l.host.got :=
  ⟨by decide +kernel, by decide +kernel, (streams_in_order adopted_justConnected _).2.1⟩

end Proxy
