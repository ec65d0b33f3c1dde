import Tailcat.Proxy.Streams

/-!
# Passing on the end of the host's stream

When the socket has come to its end the proxy asks for the tunnel's FIN and notes that it has
(`tun_shut`), without looking at the answer. A connection whose handshake is still in progress
refuses: it never sends the FIN, and the proxy never asks again.

## Main results

* `told_iff`: the runs along which the note can be relied on.
-/

namespace Proxy

open Tcp (Conn)
open Tcp.Conn (Call)

/-- The states of a handshake in progress. -/
def shaking : Tcp.State → Bool
  | .synSent | .synReceived => true
  | _ => false

/-- The next answer of the socket that is no interruption is the end of its stream. -/
def ends : List RecvAnswer → Bool
  | .eof :: _ => true
  | .intr :: recvs => ends recvs
  | _ => false

namespace Link

variable {l : Link}

/-! ## What a pass does to the direction into the tunnel -/

/-- The direction into the tunnel has been left alone. -/
structure SameUp (l l' : Link) : Prop where
  snd : l'.tun.conn.snd = l.tun.conn.snd
  state : l'.tun.conn.state = l.tun.conn.state
  toTun : l'.pair.toTun = l.pair.toTun
  hostEof : l'.pair.hostEof = l.pair.hostEof
  tunShut : l'.pair.tunShut = l.pair.tunShut

lemma SameUp.trans {l l' l'' : Link} (h : SameUp l l') (h' : SameUp l' l'') : SameUp l l'' :=
  ⟨h'.snd.trans h.snd, h'.state.trans h.state, h'.toTun.trans h.toTun, h'.hostEof.trans h.hostEof,
    h'.tunShut.trans h.tunShut⟩

lemma sameUp_drainTunnel (l : Link) : SameUp l l.drainTunnel := by
  have hread := l.tun.conn.recvOnly_tcpRead bufsz
  have hsnd := hread.keepsSend.snd
  have hst := hread.state
  unfold drainTunnel
  dsimp only
  split_ifs <;> first | exact ⟨hsnd, hst, rfl, rfl, rfl⟩ | exact ⟨rfl, rfl, rfl, rfl, rfl⟩

variable (sends : List SendAnswer) (now fuel : ℕ)

lemma sameUp_sendLoop (l : Link) : SameUp l (sendLoop sends l) := by
  induction sends generalizing l with
  | nil => exact ⟨rfl, rfl, rfl, rfl, rfl⟩
  | cons a sends ih =>
    unfold sendLoop
    split
    · exact ⟨rfl, rfl, rfl, rfl, rfl⟩
    cases a with
    | took more =>
      have hsend : SameUp l (l.send (more + 1)) := ⟨rfl, rfl, rfl, rfl, rfl⟩
      exact hsend.trans (ih _)
    | intr => exact ih l
    | again => exact ⟨rfl, rfl, rfl, rfl, rfl⟩
    | fail => exact ⟨rfl, rfl, rfl, rfl, rfl⟩

lemma sameUp_pumpTunnelToHost (l : Link) : SameUp l (l.pumpTunnelToHost sends) := by
  refine (sameUp_drainTunnel l).trans ((sameUp_sendLoop sends _).trans ?_)
  unfold pumpTunnelToHost shutHost
  split <;> exact ⟨rfl, rfl, rfl, rfl, rfl⟩

lemma readHost_ended_iff (recvs : List RecvAnswer) (l : Link) :
    (l.readHost recvs).pair.hostEof ∧ (l.readHost recvs).pair.toTun = [] ↔
      l.pair.toTun = [] ∧ (l.pair.hostEof ∨ ends recvs) := by
  unfold readHost
  split
  · next hdue =>
    obtain ⟨heof, hnil⟩ := hdue
    have hloop : (recvLoop recvs l).pair.hostEof ∧ (recvLoop recvs l).pair.toTun = [] ↔
        ends recvs := by
      induction recvs with
      | nil => simp [recvLoop, ends, heof]
      | cons a recvs ih =>
        cases a with
        | got b bs => simp [recvLoop, ends, heof]
        | eof => simp [recvLoop, ends, hnil]
        | intr => exact ih
        | again => simp [recvLoop, ends, heof]
        | fail => simp [recvLoop, ends, fail, heof]
    rw [hloop]
    simp [heof, hnil]
  · next hno =>
    constructor
    · exact fun h => ⟨h.2, .inl h.1⟩
    · rintro ⟨hnil, heof | -⟩
      · exact ⟨heof, hnil⟩
      · refine ⟨?_, hnil⟩
        by_contra heof
        exact hno ⟨by simpa using heof, hnil⟩

lemma tcpWrite_le (c : Conn) (buf : List UInt8) (now : ℕ) :
    (c.tcpWrite buf now).2.2 ≤ buf.length := by
  unfold Conn.tcpWrite
  dsimp only
  split_ifs
  · exact Nat.zero_le _
  · exact Nat.zero_le _
  · exact Nat.min_le_left _ _

lemma tcpWrite_shaking (c : Conn) (buf : List UInt8) (now : ℕ)
    (h : shaking (c.tcpWrite buf now).1.state) :
    (c.tcpWrite buf now).1.state = c.state ∧
      (c.tcpWrite buf now).1.snd.buf.len = c.snd.buf.len + (c.tcpWrite buf now).2.2 := by
  revert h
  unfold Conn.tcpWrite
  dsimp only
  split_ifs
  · exact fun _ => ⟨rfl, rfl⟩
  · exact fun _ => ⟨rfl, rfl⟩
  let d := (c.stamp now).sndPush _ ((c.stamp now).snd.buf.length_take_space buf)
  intro h
  have hquiet : d.state.synchronised = false := by
    by_contra hsync
    have hopen := Tcp.Conn.synchronised_trySend (by simpa using hsync) now
    revert h hopen
    cases (d.trySend now).state <;> simp [shaking, Tcp.State.synchronised]
  have hsame : d.trySend now = d := Tcp.Conn.trySend_of_not_synchronised hquiet now
  rw [hsame]
  refine ⟨rfl, ?_⟩
  exact congrArg (c.snd.buf.len + ·) (List.length_take_of_le (Nat.min_le_left _ _))

lemma writeLoop_shaking (l : Link) (h : shaking (writeLoop now fuel l).tun.conn.state) :
    (writeLoop now fuel l).tun.conn.state = l.tun.conn.state ∧
      (writeLoop now fuel l).tun.conn.sendUnacked + (writeLoop now fuel l).pair.toTun.length =
        l.tun.conn.sendUnacked + l.pair.toTun.length := by
  induction fuel generalizing l with
  | zero => exact ⟨rfl, rfl⟩
  | succ fuel ih =>
    have hwrite := tcpWrite_shaking l.tun.conn l.pair.toTun now
    rcases writeLoop_cases now fuel l with heq | ⟨-, hzero, heq⟩ | ⟨-, heq⟩ <;>
      rw [heq] at h ⊢
    · exact ⟨rfl, rfl⟩
    · obtain ⟨hst, hlen⟩ := hwrite h
      rw [hzero] at hlen
      exact ⟨hst, congrArg (· + l.pair.toTun.length) hlen⟩
    · obtain ⟨hst, hlen⟩ := ih _ h
      rw [hst] at h
      obtain ⟨hst', hlen'⟩ := hwrite h
      have hle : (l.tun.conn.tcpWrite l.pair.toTun now).2.2 ≤ l.pair.toTun.length :=
        tcpWrite_le _ _ now
      refine ⟨hst.trans hst', hlen.trans ?_⟩
      change (l.tun.conn.tcpWrite l.pair.toTun now).1.snd.buf.len + (l.pair.toTun.drop _).length = _
      rw [List.length_drop]
      unfold Conn.sendUnacked
      omega

lemma writeLoop_pair (l : Link) :
    (writeLoop now fuel l).pair.hostEof = l.pair.hostEof ∧
      (writeLoop now fuel l).pair.tunShut = l.pair.tunShut := by
  induction fuel generalizing l with
  | zero => exact ⟨rfl, rfl⟩
  | succ fuel ih =>
    rcases writeLoop_cases now fuel l with heq | ⟨-, -, heq⟩ | ⟨-, heq⟩ <;> rw [heq]
    · exact ⟨rfl, rfl⟩
    · exact ⟨rfl, rfl⟩
    · exact ih _

/-! ## The note -/

/-- The tunnel direction is noted as shut only if its FIN is queued or sent, or the connection has
closed. -/
def Told (l : Link) : Prop :=
  l.pair.tunShut → l.tun.conn.snd.finQueued ∨ l.tun.conn.snd.finSent ∨ l.tun.conn.state = .closed
deriving Decidable

/-- The pass comes to the end of the socket's stream with nothing to write or to wait for, while the
handshake of the tunnel connection is still in progress. -/
def EndsInHandshake (l : Link) (recvs : List RecvAnswer) : Prop :=
  l.pair.done = false ∧ l.pair.tunShut = false ∧ shaking l.tun.conn.state ∧
    l.tun.conn.sendUnacked = 0 ∧ l.pair.toTun = [] ∧ (l.pair.hostEof ∨ ends recvs)
deriving Decidable

lemma Inv.queued_of_sent (h : Inv l) (hf : l.tun.conn.snd.finSent) :
    l.tun.conn.snd.finQueued := by
  obtain ⟨w, hw, hconn, -⟩ := h.tun.watch
  rw [← hconn] at hf ⊢
  cases hopen : w.opened with
  | false => exact absurd ((hw.shaking hopen).finSent.symm.trans hf) (by simp)
  | true =>
    obtain ⟨-, u, f, hinv⟩ := hw.aligned hopen
    exact (hinv.fin hf).2

lemma Inv.not_told (h : Inv l) (hst : shaking l.tun.conn.state) :
    l.tun.conn.snd.finQueued = false ∧ l.tun.conn.snd.finSent = false ∧
      l.tun.conn.state ≠ .closed := by
  have hne : l.tun.conn.state ≠ .closed := fun hc => by rw [hc] at hst; cases hst
  obtain ⟨w, hw, hconn, -⟩ := h.tun.watch
  rw [← hconn] at hst hne ⊢
  cases hopen : w.opened with
  | false => exact ⟨(hw.shaking hopen).finQueued, (hw.shaking hopen).finSent, hne⟩
  | true =>
    obtain ⟨hpast, -⟩ := hw.aligned hopen
    rcases hpast with hsync | hc
    · revert hst hsync
      cases w.conn.state <;> simp [shaking, Tcp.State.synchronised]
    · exact absurd hc hne

lemma told_step {c : Conn} (call : Call) (hcall : ∀ now, call ≠ .abort now)
    (h : c.snd.finQueued ∨ c.state = .closed) :
    (c.step call).snd.finQueued ∨ (c.step call).state = .closed :=
  h.imp (halfClosed_step c hcall).2 (c.moves_step call).closed

lemma writeLoop_told {l : Link} (h : l.tun.conn.snd.finQueued ∨ l.tun.conn.state = .closed) :
    (writeLoop now fuel l).tun.conn.snd.finQueued ∨
      (writeLoop now fuel l).tun.conn.state = .closed := by
  induction fuel generalizing l with
  | zero => exact h
  | succ fuel ih =>
    have hnext := told_step (.write l.pair.toTun now) nofun h
    rcases writeLoop_cases now fuel l with heq | ⟨-, -, heq⟩ | ⟨-, heq⟩ <;> rw [heq]
    · exact h
    · exact hnext
    · exact ih hnext

lemma told_shutTunnel_iff (h : Inv l) (hfresh : l.pair.tunShut = false) (now : ℕ) :
    (l.shutTunnel now).Told ↔
      ¬(l.pair.hostEof ∧ l.pair.toTun = [] ∧ l.tun.conn.sendUnacked = 0 ∧
        shaking l.tun.conn.state) := by
  by_cases hdue : l.pair.hostEof ∧ l.pair.toTun = [] ∧ l.tun.conn.sendUnacked = 0
  · obtain ⟨heof, hnil, hzero⟩ := hdue
    have heq : l.shutTunnel now =
        { l with
          tun := l.tun.step (.shutdownWrite now), pair := { l.pair with tunShut := true }
          moved := true } := by
      unfold Link.shutTunnel
      rw [if_pos ⟨heof, hnil, hfresh⟩, if_pos hzero]
    have htold : (l.shutTunnel now).Told ↔
        (l.tun.conn.tcpShutdownWrite now).1.snd.finQueued ∨
          (l.tun.conn.tcpShutdownWrite now).1.snd.finSent ∨
          (l.tun.conn.tcpShutdownWrite now).1.state = .closed := by
      rw [heq]
      exact ⟨fun hl => hl rfl, fun hl _ => hl⟩
    rw [htold]
    rcases Tcp.tcpShutdownWrite_cases l.tun.conn now with ⟨hno, hsame⟩ | ⟨hst, hq, -⟩
    · rw [hsame]
      constructor
      · rintro hl ⟨-, -, -, hshake⟩
        obtain ⟨hq, hf, hc⟩ := h.not_told hshake
        simp [hq, hf, hc] at hl
      intro hl
      rcases hno with hq | hno
      · exact .inl hq
      -- every other state in which the FIN has not been asked for is `CLOSED`
      have hopen := h.tun.shutting
      have hlisten := h.state
      have hshake : shaking l.tun.conn.state = false := by
        simpa [heof, hnil, hzero] using hl
      unfold Tcp.Shutting at hopen
      revert hno hopen hlisten hshake
      cases l.tun.conn.state <;> simp_all [shaking, Tcp.State.shuts]
    · refine ⟨fun _ hl => ?_, fun _ => .inl hq⟩
      rcases hst with hst | hst <;> rw [hst] at hl <;> simp [shaking] at hl
  · have heq : l.shutTunnel now = l := by
      unfold Link.shutTunnel
      split_ifs with hends hzero
      · exact absurd ⟨hends.1, hends.2.1, hzero⟩ hdue
      · rfl
      · rfl
    rw [heq]
    refine ⟨fun _ hl => hdue ⟨hl.1, hl.2.1, hl.2.2.1⟩, fun _ hs => ?_⟩
    exact absurd (hfresh.symm.trans hs) (by simp)

lemma settle_told : l.settle.Told ↔ l.Told := by
  unfold Link.settle
  split <;> exact Iff.rfl

lemma told_pump_iff (h : Inv l) (hl : l.Told) (sends : List SendAnswer) (recvs : List RecvAnswer)
    (now : ℕ) : (l.pump sends recvs now).Told ↔ ¬l.EndsInHandshake recvs := by
  cases hdone : l.pair.done with
  | true =>
    have hsame : l.pump sends recvs now = l := if_pos hdone
    rw [hsame]
    exact ⟨fun _ he => absurd (he.1.symm.trans hdone) (by simp), fun _ => hl⟩
  | false =>
    let l1 := Link.pumpTunnelToHost sends { l with moved := false }
    let l2 := l1.readHost recvs
    let l3 := writeLoop now l2.pair.toTun.length l2
    have heq : l.pump sends recvs now = (l3.shutTunnel now).settle := if_neg (by simp [hdone])
    have hup : SameUp l l1 :=
      have hpump := sameUp_pumpTunnelToHost sends { l with moved := false }
      ⟨hpump.snd, hpump.state, hpump.toTun, hpump.hostEof, hpump.tunShut⟩
    obtain ⟨htun, hshut2⟩ := readHost_tun recvs l1
    obtain ⟨hend3, hshut3⟩ := writeLoop_pair now l2.pair.toTun.length l2
    have hstart : Inv { l with moved := false } := { h with }
    have h3 : Inv l3 := ((hstart.pumpTunnelToHost sends).readHost recvs).writeLoop now _
    have hshut : l3.pair.tunShut = l.pair.tunShut := hshut3.trans (hshut2.trans hup.tunShut)
    rw [heq, settle_told]
    cases hnote : l.pair.tunShut with
    | true =>
      have hsame : l3.shutTunnel now = l3 := if_neg fun hc => by
        rw [hshut, hnote] at hc
        exact absurd hc.2.2 (by simp)
      rw [hsame]
      refine ⟨fun _ he => absurd (he.2.1.symm.trans hnote) (by simp), fun _ _ => ?_⟩
      have htold : l2.tun.conn.snd.finQueued ∨ l2.tun.conn.state = .closed := by
        rw [htun, hup.snd, hup.state]
        rcases hl hnote with hq | hf | hc
        · exact .inl hq
        · exact .inl (h.queued_of_sent hf)
        · exact .inr hc
      exact (writeLoop_told now _ htold).imp_right .inr
    | false =>
      rw [told_shutTunnel_iff h3 (hshut.trans hnote), not_iff_not]
      have hready := readHost_ended_iff recvs l1
      rw [hup.toTun, hup.hostEof] at hready
      constructor
      · rintro ⟨heof, hnil, hzero, hshake⟩
        -- nothing can have been written, or it would wait for an acknowledgement
        obtain ⟨hst, hsum⟩ := writeLoop_shaking now _ l2 hshake
        have hzero2 : l2.tun.conn.sendUnacked = 0 ∧ l2.pair.toTun.length = 0 := by
          rw [hzero, hnil] at hsum
          simpa using hsum.symm
        have hends := hready.mp ⟨hend3.symm.trans heof, List.length_eq_zero_iff.mp hzero2.2⟩
        have hconn : shaking l.tun.conn.state ∧ l.tun.conn.sendUnacked = 0 := by
          have hstate := hshake
          have hsnd := hzero2.1
          unfold Conn.sendUnacked at hsnd ⊢
          rw [hst, htun, hup.state] at hstate
          rw [htun, hup.snd] at hsnd
          exact ⟨hstate, hsnd⟩
        exact ⟨hdone, hnote, hconn.1, hconn.2, hends⟩
      · rintro ⟨-, -, hshake, hzero, hends⟩
        obtain ⟨heof, hnil⟩ := hready.mpr hends
        have hsame : l3 = l2 := by
          change writeLoop now l2.pair.toTun.length l2 = l2
          rw [show l2.pair.toTun.length = 0 from List.length_eq_zero_iff.mpr hnil]
          rfl
        rw [hsame]
        unfold Conn.sendUnacked at hzero ⊢
        rw [htun, hup.snd, hup.state]
        exact ⟨heof, hnil, hzero, hshake⟩

/-- The step comes to the end of the socket's stream while the handshake is in progress. -/
def Swallows (l : Link) : Event → Prop
  | .pump _ recvs _ => l.EndsInHandshake recvs
  | .input _ _ _ | .tick _ => False

instance (l : Link) (e : Event) : Decidable (l.Swallows e) := by
  cases e <;> dsimp only [Link.Swallows] <;> infer_instance

lemma told_step_iff (h : Inv l) (hl : l.Told) (e : Event) : (l.step e).Told ↔ ¬l.Swallows e := by
  have harrive : ∀ call : Call, (∀ now, call ≠ .abort now) →
      Told { l with tun := l.tun.step call } := by
    intro call hcall hnote
    have htold : l.tun.conn.snd.finQueued ∨ l.tun.conn.state = .closed := by
      rcases hl hnote with hq | hf | hc
      · exact .inl hq
      · exact .inl (h.queued_of_sent hf)
      · exact .inr hc
    exact (told_step call hcall htold).imp_right .inr
  cases e with
  | input pkt iss now => exact iff_of_true (harrive (.input pkt iss now) nofun) nofun
  | tick now => exact iff_of_true (harrive (.tick now) nofun) nofun
  | pump sends recvs now => exact told_pump_iff h hl sends recvs now

end Link

/-- The end of the host's stream is passed on: along a run, whenever the tunnel direction is noted
as shut its FIN is queued or sent or the connection has closed, exactly if no pass comes to the end
of the socket's stream while the handshake is in progress with nothing left to write. -/
theorem told_iff {c : Conn} (hc : Adopted c) (events : List Link.Event) :
    (∀ before, before <+: events →
      let l := before.foldl Link.step (Link.start c)
      l.pair.tunShut → l.tun.conn.snd.finQueued ∨ l.tun.conn.snd.finSent ∨
        l.tun.conn.state = .closed) ↔
      Run.Ok Link.step (fun l e => ¬l.Swallows e) (Link.start c) events :=
  Run.forall_prefix_iff (I := fun l : Link => l.Inv ∧ l.Told) (fun _ h => h.2)
    (fun _ e h => Link.told_step_iff h.1 h.2 e)
    (fun _ e h hok => ⟨h.1.step e, (Link.told_step_iff h.1 h.2 e).mpr hok⟩)
    ⟨Link.inv_start hc, nofun⟩

/-- The host says a byte and ends after the handshake, and the byte is acknowledged. -/
def politeHost : List Link.Event :=
  [.input Tcp.Conn.synAckPacket 0 1, .pump [] [.got 7 []] 2, .pump [] [.eof] 3,
    .input (Tcp.Conn.fromPeer
      { Tcp.Conn.synAckFor with seq := 6, ack := 0, flags := Tcp.thAck }) 0 4,
    .pump [] [] 5]

theorem told_iff_polite_host :
    (politeHost.foldl Link.step (Link.start Tcp.Conn.justConnected)).pair.tunShut ∧
      ∀ before, before <+: politeHost →
        let l := before.foldl Link.step (Link.start Tcp.Conn.justConnected)
        l.pair.tunShut → l.tun.conn.snd.finQueued ∨ l.tun.conn.snd.finSent ∨
          l.tun.conn.state = .closed :=
  ⟨by decide +kernel, (told_iff adopted_justConnected politeHost).mpr (by decide +kernel)⟩

/-- A host that ends before the handshake is complete: the FIN is refused. -/
theorem end_swallowed_in_handshake :
    ¬∀ c : Conn, Adopted c → ∀ events : List Link.Event,
      let l := events.foldl Link.step (Link.start c)
      l.pair.tunShut → l.tun.conn.snd.finQueued ∨ l.tun.conn.snd.finSent ∨
        l.tun.conn.state = .closed := by
  intro h
  have hend := h _ adopted_justConnected [.pump [] [.eof] 1] (by decide +kernel)
  revert hend
  decide +kernel

end Proxy
