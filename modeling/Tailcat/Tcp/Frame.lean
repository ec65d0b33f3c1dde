import Tailcat.Tcp.Machine

/-!
# What each step leaves alone

`Emits P c c'` says that the segments sent between `c` and `c'` all satisfy `P`. `KeepsRecv c c'` says
that nothing has happened to the receive half and the addresses, and that every segment sent carries
its ports and acknowledges its `rcv_nxt`; all functions of the send half are of this kind, and so are
the timers. `KeepsSend c c'` is the counterpart: the send half is left alone and nothing but bare
acknowledgements goes out.
-/

namespace Tcp

/-! ## Sent segments -/

/-- Between `c` and `c'` the log of sent segments has grown by segments satisfying `P`. -/
def Emits (P : Segment → Prop) (c c' : Conn) : Prop :=
  ∃ l, c'.out = c.out ++ l ∧ ∀ s ∈ l, P s

variable {s : Segment}

namespace Emits

variable {P Q : Segment → Prop} {c c' c'' : Conn}

lemma of_out_eq (h : c'.out = c.out) : Emits P c c' := ⟨[], by simp [h], by simp⟩

lemma refl (c : Conn) : Emits P c c := of_out_eq rfl

lemma of_out_append (h : c'.out = c.out ++ [s]) (hs : P s) : Emits P c c' :=
  ⟨[s], h, by simpa using hs⟩

lemma trans {c d e : Conn} (h : Emits P c d) (h' : Emits P d e) : Emits P c e := by
  obtain ⟨l, hl, hP⟩ := h
  obtain ⟨l', hl', hP'⟩ := h'
  refine ⟨l ++ l', by rw [hl', hl, List.append_assoc], fun s hs => ?_⟩
  rcases List.mem_append.mp hs with hs | hs
  · exact hP s hs
  · exact hP' s hs

lemma mono (h : Emits P c c') (hPQ : ∀ s, P s → Q s) : Emits Q c c' := by
  obtain ⟨l, hl, hP⟩ := h
  exact ⟨l, hl, fun s hs => hPQ s (hP s hs)⟩

lemma mem_newOut (h : Emits P c c') (hs : s ∈ newOut c c') : P s := by
  obtain ⟨l, hl, hP⟩ := h
  rw [newOut, hl, List.drop_left] at hs
  exact hP s hs

lemma mem_out (h : Emits P c c') (hs : s ∈ c'.out) : s ∈ c.out ∨ P s := by
  obtain ⟨l, hl, hP⟩ := h
  rw [hl, List.mem_append] at hs
  exact hs.imp id (hP s)

end Emits

/-- The segment is one that `c` sends: it has the ports of the connection, fits a packet, and
acknowledges what the connection has received. -/
structure OwnSegment (c : Conn) (s : Segment) : Prop where
  sport : s.sport = c.addr.localPort
  dport : s.dport = c.addr.remotePort
  length_le : s.data.length ≤ mss
  ack : s.acks → s.ack = c.rcv.nxt

/-- Neither `LISTEN` nor `SYN_SENT`: no segment sets the receive sequence space any more. -/
def State.Settled (st : State) : Prop := st ≠ .listen ∧ st ≠ .synSent

/-- The states after the handshake and before `CLOSED`. -/
def State.synchronised : State → Bool
  | .closed | .listen | .synSent | .synReceived => false
  | _ => true

/-- Apart from the handshake itself, a connection stays in its state, closes, or moves among the
synchronised states. -/
def StateStep (st st' : State) : Prop :=
  st' = st ∨ st' = .closed ∨ (st.synchronised ∧ st'.synchronised)

structure Segment.Bare (s : Segment) : Prop where
  data : s.data = []
  flags : s.flags = thAck

lemma Segment.Bare.fin (h : s.Bare) : s.fin = false := by
  rw [Segment.fin, h.flags]
  rfl

lemma Segment.Bare.rst (h : s.Bare) : s.rst = false := by
  rw [Segment.rst, h.flags]
  rfl

/-- The receive half is left alone, and what is sent acknowledges it. -/
structure KeepsRecv (c c' : Conn) : Prop where
  addr : c'.addr = c.addr
  rcv : c'.rcv = c.rcv
  settled : c.state.Settled → c'.state.Settled
  emits : Emits (OwnSegment c) c c'

/-- The send half is left alone, and only bare acknowledgements are sent. -/
structure KeepsSend (c c' : Conn) : Prop where
  snd : c'.snd = c.snd
  state : StateStep c.state c'.state
  emits : Emits Segment.Bare c c'

section

variable {c c' c'' : Conn}

lemma OwnSegment.of_eq (h : OwnSegment c' s) (ha : c'.addr = c.addr) (hr : c'.rcv.nxt = c.rcv.nxt) :
    OwnSegment c s :=
  ⟨by rw [h.sport, ha], by rw [h.dport, ha], h.length_le, fun hs => (h.ack hs).trans hr⟩

namespace KeepsRecv

lemma refl (c : Conn) : KeepsRecv c c := ⟨rfl, rfl, id, .refl c⟩

lemma trans (h : KeepsRecv c c') (h' : KeepsRecv c' c'') : KeepsRecv c c'' :=
  ⟨h'.addr.trans h.addr, h'.rcv.trans h.rcv, h'.settled ∘ h.settled,
    h.emits.trans (h'.emits.mono fun _ hs => hs.of_eq h.addr (by rw [h.rcv]))⟩

lemma of_eq (ha : c'.addr = c.addr) (hr : c'.rcv = c.rcv)
    (hs : c.state.Settled → c'.state.Settled) (ho : c'.out = c.out) : KeepsRecv c c' :=
  ⟨ha, hr, hs, .of_out_eq ho⟩

lemma of_state (ha : c'.addr = c.addr) (hr : c'.rcv = c.rcv) (hs : c'.state.Settled)
    (ho : c'.out = c.out) : KeepsRecv c c' :=
  .of_eq ha hr (fun _ => hs) ho

lemma of_send {seq : UInt32} {flags : UInt8} {p : List UInt8} (ha : c'.addr = c.addr)
    (hr : c'.rcv = c.rcv) (hs : c.state.Settled → c'.state.Settled)
    (ho : c'.out = c.out ++ [c.buildSegment seq flags p]) (hp : p.length ≤ mss) :
    KeepsRecv c c' :=
  ⟨ha, hr, hs, .of_out_append ho ⟨rfl, rfl, hp, fun hack => if_pos hack⟩⟩

end KeepsRecv

namespace StateStep

variable {st st' st'' : State}

lemma refl (st : State) : StateStep st st := .inl rfl

lemma trans (h : StateStep st st') (h' : StateStep st' st'') : StateStep st st'' := by
  rcases h with rfl | rfl | ⟨hs, hs'⟩
  · exact h'
  · rcases h' with rfl | rfl | ⟨hc, -⟩
    · exact .inr (.inl rfl)
    · exact .inr (.inl rfl)
    · cases hc
  · rcases h' with rfl | rfl | ⟨-, hs''⟩
    · exact .inr (.inr ⟨hs, hs'⟩)
    · exact .inr (.inl rfl)
    · exact .inr (.inr ⟨hs, hs''⟩)

end StateStep

namespace KeepsSend

lemma refl (c : Conn) : KeepsSend c c := ⟨rfl, .refl _, .refl c⟩

lemma trans (h : KeepsSend c c') (h' : KeepsSend c' c'') : KeepsSend c c'' :=
  ⟨h'.snd.trans h.snd, h.state.trans h'.state, h.emits.trans h'.emits⟩

lemma of_eq (hs : c'.snd = c.snd) (hst : c'.state = c.state) (ho : c'.out = c.out) :
    KeepsSend c c' :=
  ⟨hs, .inl hst, .of_out_eq ho⟩

lemma of_state (hs : c'.snd = c.snd) (hst : StateStep c.state c'.state) (ho : c'.out = c.out) :
    KeepsSend c c' :=
  ⟨hs, hst, .of_out_eq ho⟩

end KeepsSend

end

namespace Conn

variable (c : Conn)

/-! ## Dispatch -/

lemma inputSegment_of_settled {c : Conn} (hst : c.state.Settled) (hrst : s.rst = false)
    (iss : UInt32) (now : ℕ) : c.inputSegment s iss now = (c.noteSegment now).inputOther s now := by
  obtain ⟨hlisten, hsent⟩ := hst
  have hstate : (c.noteSegment now).state = c.state := rfl
  unfold inputSegment
  dsimp only
  cases hc : c.state <;> simp_all

lemma tcpInput_packet {c : Conn} {src dst : Ipv6Addr} (h : AddressedTo c src dst s)
    (hlen : s.data.length ≤ 65515) (iss : UInt32) (now : ℕ) :
    c.tcpInput (packet src dst s) iss now = (c.stamp now).inputSegment s iss now := by
  have hstamp : parse (c.stamp now) (packet src dst s) = parse c (packet src dst s) := rfl
  unfold tcpInput
  dsimp only
  rw [hstamp, parse_packet h hlen]

/-! ## What each function touches -/

section Touches

variable (now : ℕ)

lemma currentRto_pos {c : Conn} (h : 0 < c.rtt.rto) : 0 < c.currentRto :=
  lt_min (Nat.mul_pos h (Nat.two_pow_pos _)) (by decide)

lemma currentRto_le : c.currentRto ≤ rtoMax := Nat.min_le_right _ _

/-- `d` is the deadline of a running timer: the one it had, or one that is ahead. -/
def Runs (now d : ℕ) : Prop :=
  (d = c.tmr.rtoDeadline ∨ d ≤ now + rtoMax) ∧
    (0 < c.rtt.rto → d ≠ 0 ∧ (d = c.tmr.rtoDeadline ∨ now < d))

lemma startRto_eq :
    ∃ d, c.startRto now = { c with tmr := { c.tmr with rtoDeadline := d } } ∧ c.Runs now d := by
  unfold startRto
  split
  · refine ⟨_, rfl, .inr (Nat.add_le_add_left c.currentRto_le _), fun hrto => ?_⟩
    have hpos := currentRto_pos hrto
    exact ⟨by omega, .inr (by omega)⟩
  · next hne => exact ⟨c.tmr.rtoDeadline, rfl, .inl rfl, fun _ => ⟨hne, .inl rfl⟩⟩

lemma sendSegment_rto (seq : UInt32) (flags : UInt8) (p : List UInt8) (now : ℕ) :
    (c.sendSegment seq flags p now).rtt.rto = c.rtt.rto := by
  unfold sendSegment
  split <;> rfl

/-- The connection with `n` more bytes sent. -/
abbrev withData (n : ℕ) (rtt : Rtt) (stats : Stats) (d : ℕ) : Conn :=
  { c with
    snd := { c.snd with nxt := c.snd.nxt + UInt32.ofNat n }, rtt, stats
    tmr := { c.tmr with rtoDeadline := d }
    out := c.out ++ [c.buildSegment c.snd.nxt (thAck ||| thPsh)
      (c.snd.buf.peek c.inFlight.toNat n)] }

/-- The connection with its FIN sent. -/
abbrev withFin (rtt : Rtt) (stats : Stats) (d : ℕ) : Conn :=
  { c with
    snd := { c.snd with nxt := c.snd.nxt + 1, finSent := true }, rtt, stats
    tmr := { c.tmr with rtoDeadline := d }
    out := c.out ++ [c.buildSegment c.snd.nxt (thAck ||| thFin) []]
    state := finState c.state }

lemma sendData_eq (n now : ℕ) : ∃ rtt stats d,
    c.sendData n now = c.withData n rtt stats d ∧ rtt.rto = c.rtt.rto ∧ c.Runs now d := by
  obtain ⟨d, hd, hruns⟩ := startRto_eq { (c.sendSegment c.snd.nxt (thAck ||| thPsh)
    (c.snd.buf.peek c.inFlight.toNat n) now) with
      snd := { c.snd with nxt := c.snd.nxt + UInt32.ofNat n } } now
  have hrto := c.sendSegment_rto c.snd.nxt (thAck ||| thPsh) (c.snd.buf.peek c.inFlight.toNat n) now
  exact ⟨_, _, d, hd, hrto, hruns.1, fun hpos => hruns.2 (hrto.symm ▸ hpos)⟩

lemma sendData_out (n now : ℕ) : (c.sendData n now).out =
      c.out ++ [c.buildSegment c.snd.nxt (thAck ||| thPsh) (c.snd.buf.peek c.inFlight.toNat n)] := by
  obtain ⟨rtt, stats, d, h, -⟩ := c.sendData_eq n now
  rw [h]

lemma sendData_snd (n now : ℕ) :
    (c.sendData n now).snd = { c.snd with nxt := c.snd.nxt + UInt32.ofNat n } := by
  obtain ⟨rtt, stats, d, h, -⟩ := c.sendData_eq n now
  rw [h]

lemma sendData_state (n now : ℕ) : (c.sendData n now).state = c.state := by
  obtain ⟨rtt, stats, d, h, -⟩ := c.sendData_eq n now
  rw [h]

/-- Whether the FIN is due at the end of `try_send`. -/
def finDue : Bool :=
  c.snd.finQueued && !c.snd.finSent && c.snd.buf.len == c.inFlight.toNat

lemma sendFin_of_not_due (h : c.finDue = false) (now : ℕ) : c.sendFin now = c := by
  rw [finDue] at h
  rw [sendFin, h]
  rfl

lemma sendFin_eq (h : c.finDue) (now : ℕ) : ∃ rtt stats d,
    c.sendFin now = c.withFin rtt stats d ∧ rtt.rto = c.rtt.rto ∧ c.Runs now d := by
  rw [finDue] at h
  unfold sendFin
  rw [if_pos h]
  obtain ⟨d, hd, hruns⟩ := startRto_eq { (c.sendSegment c.snd.nxt (thAck ||| thFin) [] now) with
      snd := { c.snd with nxt := c.snd.nxt + 1, finSent := true } } now
  have hrto := c.sendSegment_rto c.snd.nxt (thAck ||| thFin) [] now
  exact ⟨_, _, d, congrArg (fun e : Conn => { e with state := finState e.state }) hd, hrto,
    hruns.1, fun hpos => hruns.2 (hrto.symm ▸ hpos)⟩

lemma sendFin_out (h : c.finDue) (now : ℕ) :
    (c.sendFin now).out = c.out ++ [c.buildSegment c.snd.nxt (thAck ||| thFin) []] := by
  obtain ⟨rtt, stats, d, heq, -⟩ := c.sendFin_eq h now
  rw [heq]

lemma sendFin_snd (h : c.finDue) (now : ℕ) :
    (c.sendFin now).snd = { c.snd with nxt := c.snd.nxt + 1, finSent := true } := by
  obtain ⟨rtt, stats, d, heq, -⟩ := c.sendFin_eq h now
  rw [heq]

lemma sendFin_state (h : c.finDue) (now : ℕ) : (c.sendFin now).state = finState c.state := by
  obtain ⟨rtt, stats, d, heq, -⟩ := c.sendFin_eq h now
  rw [heq]

lemma rearmRto_eq :
    ∃ d, c.rearmRto now = { c with tmr := { c.tmr with rtoBackoff := 0, rtoDeadline := d } } ∧
      (c.inFlight = 0 → d = 0) ∧ d ≤ now + rtoMax := by
  unfold rearmRto
  dsimp only
  split
  · exact ⟨0, rfl, fun _ => rfl, Nat.zero_le _⟩
  · next hno =>
    exact ⟨_, rfl, fun h => absurd h hno, Nat.add_le_add_left (currentRto_le _) _⟩

lemma takeAck_eq (ack : UInt32) (now : ℕ) : ∃ cc rtt d, c.takeAck ack now = { c.freeAcked ack with
      cc, rtt, tmr := { c.tmr with rtoBackoff := 0, rtoDeadline := d } } ∧
      (ack = c.snd.nxt → d = 0) ∧ d ≤ now + rtoMax := by
  have hsample : ∃ rtt, (c.freeAcked ack).sampleRtt ack now = { c.freeAcked ack with rtt } := by
    unfold sampleRtt
    split
    · exact ⟨_, rfl⟩
    · exact ⟨c.rtt, rfl⟩
  obtain ⟨rtt, hrtt⟩ := hsample
  obtain ⟨d, hd, hoff, hle⟩ := rearmRto_eq { c.freeAcked ack with rtt } now
  refine ⟨_, rtt, d, by rw [takeAck, hrtt, hd]; rfl, fun hack => hoff ?_, hle⟩
  rw [hack]
  exact UInt32.sub_self _

def first : ℕ := min c.snd.buf.len mss

/-- The segment is the third duplicate acknowledgement while the buffer is not empty: it makes
`handle_ack` resend the first segment. -/
def ThirdDup (s : Segment) : Prop :=
  s.ack = c.snd.una ∧ 0 < c.inFlight.toNat ∧ c.cc.dupacks = 2 ∧ 0 < c.snd.buf.len
deriving Decidable

lemma handleAck_sends (s : Segment) (now : ℕ) :
    (c.ThirdDup s ∧ (c.handleAck s.ack now).snd = c.snd ∧ (c.handleAck s.ack now).out = c.out ++
      [c.buildSegment c.snd.una (thAck ||| thPsh) (c.snd.buf.peek 0 c.first)]) ∨
    (¬c.ThirdDup s ∧ (c.handleAck s.ack now).out = c.out) := by
  have hthird : c.noteDupack.cc.dupacks = 3 ↔ c.cc.dupacks = 2 := by
    change c.cc.dupacks + 1 = 2 + 1 ↔ _
    exact add_left_inj 1
  unfold handleAck
  split_ifs with hold hdup hcount hnew
  · unfold fastRetransmit
    dsimp only
    split
    · next hlen => exact .inl ⟨⟨hdup.1, hdup.2, hthird.mp hcount, (lt_min_iff.mp hlen).1⟩, rfl, rfl⟩
    · next hlen => exact .inr ⟨fun h => hlen (lt_min h.2.2.2 (by decide)), rfl⟩
  · exact .inr ⟨fun h => hcount (hthird.mpr h.2.2.1), rfl⟩
  · exact .inr ⟨fun h => hdup ⟨h.1, h.2.1⟩, rfl⟩
  · exact .inr ⟨fun h => hold (h.1 ▸ seqLe_self _), rfl⟩
  · refine .inr ⟨fun h => hold (h.1 ▸ seqLe_self _), ?_⟩
    obtain ⟨cc, rtt, t, heq, -⟩ := c.takeAck_eq s.ack now
    rw [heq]
    rfl

/-- An acknowledgement either leaves all but the congestion control, with at most a fast
retransmission sent, or frees what it covers. -/
@[elab_as_elim]
lemma handleAck_elim {P : Conn → Prop} (ack : UInt32) (now : ℕ)
    (hkept : ∀ cc rtt stats out, (out = c.out ∨ out = c.out ++
      [c.buildSegment c.snd.una (thAck ||| thPsh) (c.snd.buf.peek 0 c.first)]) →
      P { c with cc, rtt, stats, out })
    (htaken : ∀ cc rtt d, seqLe ack c.snd.una = false → seqGt ack c.snd.nxt = false →
      (ack = c.snd.nxt → d = 0) → d ≤ now + rtoMax → P { c.freeAcked ack with
        cc, rtt, tmr := { c.tmr with rtoBackoff := 0, rtoDeadline := d } }) :
    P (c.handleAck ack now) := by
  unfold handleAck
  split_ifs with hle _ _ hgt
  · unfold fastRetransmit
    dsimp only
    split
    · exact hkept _ _ _ _ (.inr rfl)
    · exact hkept _ _ _ _ (.inl rfl)
  · exact hkept _ _ _ _ (.inl rfl)
  · exact hkept c.cc _ _ _ (.inl rfl)
  · exact hkept c.cc _ _ _ (.inl rfl)
  · obtain ⟨cc, rtt, d, heq, hoff, hd⟩ := c.takeAck_eq ack now
    rw [heq]
    exact htaken cc rtt d (by simpa using hle) (by simpa using hgt) hoff hd

lemma handleAck_state (ack : UInt32) (now : ℕ) : (c.handleAck ack now).state = c.state := by
  refine c.handleAck_elim ack now ?_ ?_ <;> intros <;> rfl

lemma resend_eq : ∃ rtt stats out, c.resend now = { c with rtt, stats, out } ∧
      (out = c.out ∨ ∃ seq flags p, out = c.out ++ [c.buildSegment seq flags p] ∧ p.length ≤ mss ∧
        (hasFlag flags thFin → c.snd.finSent)) := by
  have hno : ∀ flags, hasFlag flags thFin = false → hasFlag flags thFin → c.snd.finSent :=
    fun flags hf hf' => absurd (hf.symm.trans hf') (by simp)
  unfold resend
  split_ifs with _ _ _ hsent
  · exact ⟨_, _, _, rfl, .inr ⟨_, _, _, rfl, Nat.zero_le _, hno _ rfl⟩⟩
  · exact ⟨_, _, _, rfl, .inr ⟨_, _, _, rfl, Nat.zero_le _, hno _ rfl⟩⟩
  · exact ⟨_, _, _, rfl, .inr ⟨_, _, _, rfl, by simp, hno _ rfl⟩⟩
  · exact ⟨_, _, _, rfl, .inr ⟨_, _, _, rfl, Nat.zero_le _, fun _ => hsent⟩⟩
  · exact ⟨c.rtt, c.stats, c.out, rfl, .inl rfl⟩

lemma retransmit_frame :
    (c.retransmit now).snd = c.snd ∧ (c.retransmit now).state = c.state := by
  obtain ⟨rtt, stats, out, heq, -⟩ := c.backOff.resend_eq now
  rw [retransmit, heq]
  exact ⟨rfl, rfl⟩

lemma synAcked_cases : c.synAcked = c ∨
    (c.state = .synReceived ∧ c.synAcked = { c with state := .established }) := by
  unfold synAcked
  split
  · next h => exact .inr ⟨h.1, rfl⟩
  · exact .inl rfl

lemma oooInsert_eq (seq : UInt32) (p : List UInt8) :
    ∃ ooo stats, c.oooInsert seq p = { c with rcv := { c.rcv with ooo }, stats } := by
  unfold oooInsert
  split_ifs
  · exact ⟨c.rcv.ooo, c.stats, rfl⟩
  · exact ⟨c.rcv.ooo, c.stats, rfl⟩
  · split
    · exact ⟨_, _, rfl⟩
    · exact ⟨c.rcv.ooo, _, rfl⟩

lemma takeInOrder_eq (s : Segment) : ∃ rcv stats, c.takeInOrder s = { c with rcv, stats } := by
  unfold takeInOrder
  dsimp only
  split
  · exact ⟨_, _, rfl⟩
  · exact ⟨c.rcv, c.stats, rfl⟩

lemma delayAck_eq : ∃ d, c.delayAck now = { c with tmr := { c.tmr with delackDeadline := d } } ∧
      ((c.tmr.delackDeadline ≠ 0 ∧ d = c.tmr.delackDeadline) ∨
        (c.tmr.delackDeadline = 0 ∧ d = now + delackMs)) := by
  unfold delayAck
  split
  · next h => exact ⟨_, rfl, .inr ⟨h, rfl⟩⟩
  · next h => exact ⟨_, rfl, .inl ⟨h, rfl⟩⟩

lemma closeRead_cases : (c.state ≠ .established ∧ c.closeRead now = c) ∨
    (c.state = .established ∧ c.closeRead now = { c with state := .closeWait }) ∨
    (c.state = .finWait1 ∧ c.closeRead now = { c with state := .closing }) ∨
    ((c.state = .finWait1 ∧ seqGe c.snd.una c.snd.nxt ∨ c.state = .finWait2) ∧
      c.closeRead now = c.enterTimeWait now) := by
  unfold closeRead
  split
  · next hst => exact .inr (.inl ⟨hst, rfl⟩)
  · next hst =>
    split
    · next hack => exact .inr (.inr (.inr ⟨.inl ⟨hst, hack⟩, rfl⟩))
    · exact .inr (.inr (.inl ⟨hst, rfl⟩))
  · next hst => exact .inr (.inr (.inr ⟨.inr hst, rfl⟩))
  · next hne _ _ => exact .inl ⟨hne, rfl⟩

lemma finAcked_cases : c.finAcked now = c ∨
    (c.snd.finSent ∧ seqGe c.snd.una c.snd.nxt ∧
      ((c.state = .finWait1 ∧ c.finAcked now = { c with state := .finWait2 }) ∨
        (c.state = .closing ∧ c.finAcked now = c.enterTimeWait now) ∨
        (c.state = .lastAck ∧ c.finAcked now = { c with state := .closed }))) := by
  unfold finAcked
  split
  · next h =>
    rw [Bool.and_eq_true] at h
    split
    · next hst => exact .inr ⟨h.1, h.2, .inl ⟨hst, rfl⟩⟩
    · next hst => exact .inr ⟨h.1, h.2, .inr (.inl ⟨hst, rfl⟩)⟩
    · next hst => exact .inr ⟨h.1, h.2, .inr (.inr ⟨hst, rfl⟩)⟩
    · exact .inl rfl
  · exact .inl rfl

end Touches

/-! ## The send half leaves the receive half alone -/

section SendHalf

variable (s : Segment) (now : ℕ)

lemma keepsRecv_armRto : KeepsRecv c (c.armRto now) := .of_eq rfl rfl id rfl

lemma keepsRecv_sendAck : KeepsRecv c (c.sendAck now) := .of_send rfl rfl id rfl (Nat.zero_le _)

lemma sendable_le_mss : c.sendable ≤ mss := by
  unfold sendable
  dsimp only
  split
  · exact Nat.zero_le _
  · exact Nat.min_le_right _ _

/-- The rule for the loop of `try_send`: what a round preserves, the loop preserves. -/
theorem sendLoop_rule {P : Conn → Prop} {now : ℕ}
    (hdata : ∀ d : Conn, d.sendable ≠ 0 → P d → P (d.sendData d.sendable now)) {c : Conn} (hc : P c)
    (fuel : ℕ) : P (sendLoop now fuel c) := by
  induction fuel generalizing c with
  | zero => exact hc
  | succ fuel ih =>
    rw [sendLoop]
    split
    · exact hc
    · next hn => exact ih (hdata c hn hc)

/-- The rule for `try_send`: what a round and the FIN preserve, it preserves. -/
theorem trySend_rule {P : Conn → Prop} {now : ℕ}
    (hdata : ∀ d : Conn, canSend d.state → d.sendable ≠ 0 → P d → P (d.sendData d.sendable now))
    (hfin : ∀ d : Conn, canSend d.state → d.finDue → P d → P (d.sendFin now)) {c : Conn} (hc : P c) :
    P (c.trySend now) := by
  unfold trySend
  split
  · next hst =>
    have hloop : canSend (sendLoop now c.snd.buf.len c).state ∧ P (sendLoop now c.snd.buf.len c) := by
      refine sendLoop_rule (P := fun d => canSend d.state ∧ P d) (fun d hn h => ⟨?_, ?_⟩) ⟨hst, hc⟩ _
      · rw [sendData_state]
        exact h.1
      · exact hdata d h.1 hn h.2
    by_cases hdue : (sendLoop now c.snd.buf.len c).finDue
    · exact hfin _ hloop.1 hdue hloop.2
    · rw [sendFin_of_not_due _ (by simpa using hdue)]
      exact hloop.2
  · exact hc

lemma trySend_eq_self {c : Conn} (h : canSend c.state → c.sendable = 0 ∧ c.finDue = false)
    (now : ℕ) : c.trySend now = c := by
  unfold trySend
  split
  · next hst =>
    obtain ⟨hdata, hfin⟩ := h hst
    have hloop : sendLoop now c.snd.buf.len c = c :=
      sendLoop_rule (P := fun d => d = c) (fun d hn h => absurd (h ▸ hdata) hn) rfl _
    rw [hloop, c.sendFin_of_not_due hfin]
  · rfl

lemma trySend_snd : ∃ nxt finSent, (c.trySend now).snd = { c.snd with nxt, finSent } := by
  refine trySend_rule (P := fun d => ∃ nxt finSent, d.snd = { c.snd with nxt, finSent }) ?_ ?_
    ⟨_, _, rfl⟩
  · rintro d - - ⟨nxt, finSent, h⟩
    exact ⟨_, finSent, by rw [sendData_snd, h]⟩
  · rintro d - hdue ⟨nxt, finSent, h⟩
    exact ⟨_, _, by rw [d.sendFin_snd hdue, h]⟩

lemma trySend_una : (c.trySend now).snd.una = c.snd.una := by
  obtain ⟨_, _, h⟩ := c.trySend_snd now
  rw [h]

lemma trySend_iss : (c.trySend now).snd.iss = c.snd.iss := by
  obtain ⟨_, _, h⟩ := c.trySend_snd now
  rw [h]

lemma trySend_state : (c.trySend now).state = c.state ∨
    (canSend c.state ∧ (c.trySend now).state = finState c.state) := by
  have htwice : ∀ st, finState (finState st) = finState st := fun st => by cases st <;> rfl
  refine trySend_rule (P := fun d => d.state = c.state ∨ (canSend c.state ∧ d.state = finState c.state))
    ?_ ?_ (.inl rfl)
  · intro d _ _ h
    rwa [sendData_state]
  · intro d hst hdue h
    rw [d.sendFin_state hdue]
    rcases h with h | ⟨hc, h⟩
    · exact .inr ⟨h ▸ hst, by rw [h]⟩
    · exact .inr ⟨hc, by rw [h, htwice]⟩

lemma settled_finState {st : State} (h : st.Settled) : (finState st).Settled := by
  cases st <;> first | exact h | exact ⟨nofun, nofun⟩

lemma keepsRecv_trySend : KeepsRecv c (c.trySend now) := by
  refine trySend_rule (fun d _ _ h => h.trans ?_) (fun d _ hdue h => h.trans ?_) (.refl c)
  · obtain ⟨rtt, stats, r, heq, -⟩ := d.sendData_eq d.sendable now
    rw [heq]
    exact .of_send rfl rfl id rfl (by simpa using d.sendable_le_mss)
  · obtain ⟨rtt, stats, r, heq, -⟩ := d.sendFin_eq hdue now
    rw [heq]
    exact .of_send rfl rfl settled_finState rfl (Nat.zero_le _)

/-! ### Acknowledgements -/

lemma keepsRecv_handleAck (ack : UInt32) (now : ℕ) : KeepsRecv c (c.handleAck ack now) := by
  refine c.handleAck_elim ack now ?_ ?_
  · rintro _ _ _ _ (hout | hout)
    · exact .of_eq rfl rfl id hout
    · exact .of_send rfl rfl id hout (by simp [first])
  · intros
    exact .of_eq rfl rfl id rfl

lemma keepsRecv_synAcked : KeepsRecv c c.synAcked := by
  rcases c.synAcked_cases with h | ⟨-, h⟩ <;> rw [h]
  · exact .refl c
  · exact .of_state rfl rfl ⟨nofun, nofun⟩ rfl

lemma keepsRecv_ack_if (p : Prop) [Decidable p] (now : ℕ) :
    KeepsRecv c (if p then c.sendAck now else c) := by
  split
  · exact c.keepsRecv_sendAck now
  · exact .refl c

lemma keepsRecv_answerSyn : KeepsRecv c (c.answerSyn s now) := c.keepsRecv_ack_if _ now

lemma keepsRecv_noteWindow : KeepsRecv c (c.noteWindow s) := .of_eq rfl rfl id rfl

lemma keepsRecv_inputAck : KeepsRecv c (c.inputAck s now) :=
  (c.keepsRecv_answerSyn s now).trans ((keepsRecv_noteWindow _ s).trans
    ((keepsRecv_handleAck _ s.ack now).trans (keepsRecv_synAcked _)))

lemma keepsRecv_answerProbe : KeepsRecv c (c.answerProbe s now) := c.keepsRecv_ack_if _ now

lemma keepsRecv_closeRead : KeepsRecv c (c.closeRead now) := by
  rcases c.closeRead_cases now with ⟨-, h⟩ | ⟨-, h⟩ | ⟨-, h⟩ | ⟨-, h⟩ <;> rw [h]
  · exact .refl c
  all_goals exact .of_state rfl rfl ⟨nofun, nofun⟩ rfl

lemma keepsRecv_finAcked : KeepsRecv c (c.finAcked now) := by
  rcases c.finAcked_cases now with h | ⟨-, -, ⟨-, h⟩ | ⟨-, h⟩ | ⟨-, h⟩⟩ <;> rw [h]
  · exact .refl c
  all_goals exact .of_state rfl rfl ⟨nofun, nofun⟩ rfl

lemma keepsRecv_delayAck : KeepsRecv c (c.delayAck now) := by
  obtain ⟨d, h, -⟩ := c.delayAck_eq now
  rw [h]
  exact .of_eq rfl rfl id rfl

lemma keepsRecv_inputRst : KeepsRecv c (c.inputRst s) := by
  unfold inputRst
  split
  · exact .of_state rfl rfl ⟨nofun, nofun⟩ rfl
  · exact .refl c

/-! ### Timers and calls of the send half -/

lemma keepsRecv_tickTimewait : KeepsRecv c (c.tickTimewait now) := by
  unfold tickTimewait
  split
  · exact .of_state rfl rfl ⟨nofun, nofun⟩ rfl
  · exact .refl c

lemma keepsRecv_tickDelack : KeepsRecv c (c.tickDelack now) := c.keepsRecv_ack_if _ now

lemma keepsRecv_sendProbe : KeepsRecv c (c.sendProbe now) := .of_send rfl rfl id rfl (by decide)

lemma keepsRecv_resend : KeepsRecv c (c.resend now) := by
  obtain ⟨rtt, stats, out, heq, hout | ⟨seq, flags, p, hout, hp, -⟩⟩ := c.resend_eq now <;> rw [heq]
  · exact .of_eq rfl rfl id hout
  · exact .of_send rfl rfl id hout hp

lemma keepsRecv_retransmit : KeepsRecv c (c.retransmit now) := by
  have hback : KeepsRecv c c.backOff := .of_eq rfl rfl id rfl
  exact hback.trans ((keepsRecv_resend _ now).trans (keepsRecv_armRto _ now))

lemma keepsRecv_tickRto : KeepsRecv c (c.tickRto now).1 := by
  unfold tickRto
  split_ifs
  · exact .of_state rfl rfl ⟨nofun, nofun⟩ rfl
  · exact (c.keepsRecv_retransmit now).trans (keepsRecv_trySend _ now)
  · exact c.keepsRecv_trySend now

lemma keepsRecv_tickKeepalive : KeepsRecv c (c.tickKeepalive now).1 := by
  unfold tickKeepalive
  split_ifs
  · exact .of_state rfl rfl ⟨nofun, nofun⟩ rfl
  · exact (c.keepsRecv_sendProbe now).trans (keepsRecv_tickRto _ now)
  · exact c.keepsRecv_tickRto now

lemma keepsRecv_tcpTick : KeepsRecv c (c.tcpTick now).1 := by
  have hnow : KeepsRecv c (c.stamp now) := .of_eq rfl rfl id rfl
  exact hnow.trans ((keepsRecv_tickTimewait _ now).trans
    ((keepsRecv_tickDelack _ now).trans (keepsRecv_tickKeepalive _ now)))

lemma keepsRecv_tcpWrite (buf : List UInt8) (now : ℕ) : KeepsRecv c (c.tcpWrite buf now).1 := by
  have hnow : KeepsRecv c (c.stamp now) := .of_eq rfl rfl id rfl
  have hpush : ∀ p h, KeepsRecv (c.stamp now) ((c.stamp now).sndPush p h) :=
    fun _ _ => .of_eq rfl rfl id rfl
  unfold tcpWrite
  dsimp only
  split_ifs
  · exact hnow
  · exact hnow
  · exact hnow.trans ((hpush _ _).trans (keepsRecv_trySend _ now))

lemma keepsRecv_tcpShutdownWrite : KeepsRecv c (c.tcpShutdownWrite now).1 := by
  have hqueue : KeepsRecv c c.queueFin := .of_eq rfl rfl id rfl
  unfold tcpShutdownWrite
  split_ifs
  · exact .refl c
  · exact .refl c
  · exact hqueue.trans (keepsRecv_trySend _ now)

lemma keepsRecv_tcpAbort : KeepsRecv c (c.tcpAbort now) := by
  unfold tcpAbort
  split
  · exact .refl c
  · exact .of_send rfl rfl (fun _ => ⟨nofun, nofun⟩) rfl (Nat.zero_le _)

end SendHalf

/-! ## The receive half leaves the send half alone -/

section RecvHalf

variable (s : Segment) (now : ℕ)

/-- Besides the receive half only the counters and the timer of delayed acknowledgements have
changed, and only bare acknowledgements have been sent. -/
def RecvOnly (c c' : Conn) : Prop :=
  Emits Segment.Bare c c' ∧
    ∃ rcv stats d out, c' = { c with rcv, stats, tmr := { c.tmr with delackDeadline := d }, out }

def OnlyDelack (c c' : Conn) : Prop := ∃ d, c'.tmr = { c.tmr with delackDeadline := d }

lemma OnlyDelack.trans {c c' c'' : Conn} (h : OnlyDelack c c') (h' : OnlyDelack c' c'') :
    OnlyDelack c c'' := by
  obtain ⟨d, hd⟩ := h
  obtain ⟨d', hd'⟩ := h'
  exact ⟨d', by rw [hd', hd]⟩

namespace RecvOnly

variable {c c' c'' : Conn}

lemma refl (c : Conn) : RecvOnly c c := ⟨.refl c, _, _, _, _, rfl⟩

lemma trans (h : RecvOnly c c') (h' : RecvOnly c' c'') : RecvOnly c c'' := by
  obtain ⟨he, rcv, stats, d, out, rfl⟩ := h
  obtain ⟨he', rcv', stats', d', out', rfl⟩ := h'
  exact ⟨he.trans he', rcv', stats', d', out', rfl⟩

lemma state (h : RecvOnly c c') : c'.state = c.state := by
  obtain ⟨-, rcv, stats, d, out, rfl⟩ := h
  rfl

lemma keepsSend (h : RecvOnly c c') : KeepsSend c c' := by
  obtain ⟨he, rcv, stats, d, out, rfl⟩ := h
  exact ⟨rfl, .refl _, he⟩

lemma onlyDelack (h : RecvOnly c c') : OnlyDelack c c' := by
  obtain ⟨-, rcv, stats, d, out, rfl⟩ := h
  exact ⟨d, rfl⟩

end RecvOnly

lemma recvOnly_sendAck : RecvOnly c (c.sendAck now) :=
  ⟨.of_out_append rfl ⟨rfl, rfl⟩, _, _, 0, _, rfl⟩

lemma recvOnly_ack_if (p : Prop) [Decidable p] (now : ℕ) :
    RecvOnly c (if p then c.sendAck now else c) := by
  split
  · exact c.recvOnly_sendAck now
  · exact .refl c

lemma recvOnly_answerSyn : RecvOnly c (c.answerSyn s now) := c.recvOnly_ack_if _ now

lemma recvOnly_answerProbe : RecvOnly c (c.answerProbe s now) := c.recvOnly_ack_if _ now

lemma recvOnly_tickDelack : RecvOnly c (c.tickDelack now) := c.recvOnly_ack_if _ now

lemma recvOnly_acceptPayload : RecvOnly c (c.acceptPayload s now) := by
  unfold acceptPayload
  split_ifs
  · obtain ⟨rcv, stats, h⟩ := c.takeInOrder_eq s
    obtain ⟨d, h', -⟩ := (c.takeInOrder s).delayAck_eq now
    rw [h', h]
    exact ⟨.of_out_eq rfl, _, _, d, _, rfl⟩
  · obtain ⟨ooo, stats, h⟩ := c.oooInsert_eq s.seq s.data
    have hstore : RecvOnly c (c.oooInsert s.seq s.data) := by
      rw [h]
      exact ⟨.of_out_eq rfl, _, _, _, _, rfl⟩
    exact hstore.trans (recvOnly_sendAck _ now)
  · exact c.recvOnly_sendAck now
  · exact .refl c

lemma recvOnly_tcpRead (cap : ℕ) : RecvOnly c (c.tcpRead cap).1 := by
  have hdrop : RecvOnly c
      { c with rcv := { c.rcv with buf := c.rcv.buf.drop (min c.rcv.buf.len cap) } } :=
    ⟨.of_out_eq rfl, _, _, _, _, rfl⟩
  unfold tcpRead
  dsimp only
  split
  · exact hdrop.trans (recvOnly_sendAck _ _)
  · exact hdrop

lemma keepsSend_closeRead : KeepsSend c (c.closeRead now) := by
  have hmove : ∀ {c' : Conn}, c.state.synchronised → c'.snd = c.snd → c'.out = c.out →
      c'.state.synchronised → KeepsSend c c' := fun hst hsnd hout hst' =>
    .of_state hsnd (.inr (.inr ⟨hst, hst'⟩)) hout
  rcases c.closeRead_cases now with ⟨-, h⟩ | ⟨hst, h⟩ | ⟨hst, h⟩ | ⟨⟨hst, -⟩ | hst, h⟩ <;> rw [h]
  · exact .refl c
  all_goals exact hmove (by rw [hst]; rfl) rfl rfl rfl

lemma keepsSend_acceptFin : KeepsSend c (c.acceptFin s now) := by
  have hcount : KeepsSend c c.countFin := .of_eq rfl rfl rfl
  unfold acceptFin
  split
  · exact hcount.trans ((recvOnly_sendAck _ now).keepsSend.trans (keepsSend_closeRead _ now))
  · exact .refl c

lemma recvOnly_payload : RecvOnly c ((c.acceptPayload s now).answerProbe s now) :=
  (c.recvOnly_acceptPayload s now).trans (recvOnly_answerProbe _ s now)

lemma keepsSend_inputSeq : KeepsSend c (c.inputSeq s now) :=
  (c.recvOnly_payload s now).keepsSend.trans (keepsSend_acceptFin _ s now)

lemma keepsSend_finAcked : KeepsSend c (c.finAcked now) := by
  rcases c.finAcked_cases now with h | ⟨-, -, ⟨hst, h⟩ | ⟨hst, h⟩ | ⟨-, h⟩⟩ <;> rw [h]
  · exact .refl c
  · exact .of_state rfl (.inr (.inr ⟨by rw [hst]; rfl, rfl⟩)) rfl
  · exact .of_state rfl (.inr (.inr ⟨by rw [hst]; rfl, rfl⟩)) rfl
  · exact .of_state rfl (.inr (.inl rfl)) rfl

lemma keepsSend_inputRst : KeepsSend c (c.inputRst s) := by
  unfold inputRst
  split
  · exact .of_state rfl (.inr (.inl rfl)) rfl
  · exact .refl c

lemma keepsSend_tickTimewait : KeepsSend c (c.tickTimewait now) := by
  unfold tickTimewait
  split
  · exact .of_state rfl (.inr (.inl rfl)) rfl
  · exact .refl c

lemma inputSeq_of_not_synchronised (hst : c.state.synchronised = false) (s : Segment) (now : ℕ) :
    (c.inputSeq s now).state = c.state ∧ OnlyDelack c (c.inputSeq s now) := by
  have hd := c.recvOnly_payload s now
  set d := (c.acceptPayload s now).answerProbe s now
  have hread : ∀ e : Conn, e.state = c.state → e.closeRead now = e := fun e he => by
    unfold closeRead
    rw [he]
    cases hc : c.state <;> rw [hc] at hst <;> first | rfl | cases hst
  have hack : OnlyDelack d (d.countFin.sendAck now) := ⟨0, rfl⟩
  change (d.acceptFin s now).state = _ ∧ OnlyDelack c (d.acceptFin s now)
  unfold acceptFin
  split
  · rw [hread (d.countFin.sendAck now) hd.state]
    exact ⟨hd.state, hd.onlyDelack.trans hack⟩
  · exact ⟨hd.state, hd.onlyDelack⟩

end RecvHalf

end Conn

end Tcp
