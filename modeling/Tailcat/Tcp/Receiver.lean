import Tailcat.Library.Run
import Tailcat.Library.Stream
import Tailcat.Tcp.Frame

/-!
# Reassembly

`RecvInv S r read taken` is the invariant of the receive half for a stream `S`: `rcv_nxt` stands
`taken` places after the first byte, what has been read and what is still buffered are together the
first `taken` bytes of `S`, and every slot of the reassembly store holds a piece of `S` that lies ahead.

## Main results

* `drained_drainLoop`: `ooo_drain` stops because no slot can be moved, never for lack of rounds;
* `receiver_reassembly`: the invariant over whole runs.
-/

namespace Tcp

open RingBuffer SerialNumber List

/-! ## The invariant -/

/-- A held segment is the piece of `S` at offset `o`, not too far from position `t`. -/
structure Held (S : List UInt8) (irs : UInt32) (t : ℕ) (seg : OooSeg) (o : ℕ) : Prop where
  seq : seg.seq = place (irs + 1) o
  data : seg.data <+: S.drop o
  near : o ≤ t + 2 ^ 30
  length_le : seg.data.length ≤ mss

/-- What the receive half has made of the stream `S`, where `read` has been handed to the caller
and `taken` counts the sequence numbers taken after the SYN, a FIN included. -/
structure RecvInv (S : List UInt8) (r : Recv) (read : List UInt8) (taken : ℕ) : Prop where
  nxt : r.nxt = place (r.irs + 1) taken
  bytes : read ++ r.buf.toList = S.take taken
  le : r.finReceived = false → taken ≤ S.length
  fin : r.finReceived = true → taken = S.length + 1
  ahead : r.finReceived = false → ∀ (i : Fin oooSegs) (seg : OooSeg), r.ooo.get i = some seg →
    ∃ o, Held S r.irs taken seg o ∧ taken < o

/-- The receive half right after the peer's SYN. -/
structure Recv.Fresh (r : Recv) : Prop where
  nxt : r.nxt = r.irs + 1
  buf : r.buf.len = 0
  ooo : ∀ i : Fin oooSegs, r.ooo.get i = none
  fin : r.finReceived = false

variable {r : Recv} {p S read : List UInt8} {t : ℕ}

lemma Recv.Fresh.recvInv (h : r.Fresh) (S : List UInt8) : RecvInv S r [] 0 :=
  ⟨by rw [h.nxt, place_zero], by rw [toList_eq_nil h.buf]; rfl, fun _ => Nat.zero_le _,
    fun hf => absurd (h.fin.symm.trans hf) (by simp),
    fun _ i seg hseg => absurd ((h.ooo i).symm.trans hseg) (by simp)⟩

/-- The invariant while the reassembly store is being drained: a slot may by now lie at or before
`t`, but not further back than the bytes that are buffered. -/
structure DrainInv (S : List UInt8) (r : Recv) (read : List UInt8) (t : ℕ) : Prop where
  nxt : r.nxt = place (r.irs + 1) t
  bytes : read ++ r.buf.toList = S.take t
  le : t ≤ S.length
  held : ∀ (i : Fin oooSegs) (seg : OooSeg), r.ooo.get i = some seg →
    ∃ o, Held S r.irs t seg o ∧ t ≤ o + r.buf.len

namespace Recv

variable {S read : List UInt8} {r r' : Recv} {t : ℕ}

/-! ## Draining the reassembly store -/

lemma drainInv_take (h : DrainInv S r read t) (hp : p <+: S.drop t) :
    DrainInv S (r.take p) read (t + min p.length r.buf.space) := by
  have hfit : (p.take (min p.length r.buf.space)).length = min p.length r.buf.space := by
    rw [length_take]
    omega
  have hpiece := Stream.piece_take hp (min p.length r.buf.space)
  have hbuf : (r.take p).buf.toList = r.buf.toList ++ p.take (min p.length r.buf.space) :=
    toList_push _ (r.buf.length_take_space p)
  have hlen : (r.take p).buf.len = r.buf.len + min p.length r.buf.space := by
    rw [← length_toList, hbuf, length_append, length_toList, hfit]
  refine ⟨?_, ?_, ?_, ?_⟩
  · change r.nxt + UInt32.ofNat _ = place (r.irs + 1) _
    rw [h.nxt, place_add_ofNat]
  · rw [hbuf, ← append_assoc, h.bytes, Stream.take_append hpiece, hfit]
  · have := hpiece.length_le
    rw [length_drop] at this
    have := h.le
    omega
  · intro i seg hseg
    obtain ⟨o, ho, hback⟩ := h.held i seg hseg
    exact ⟨o, ⟨ho.seq, ho.data, by have := ho.near; omega, ho.length_le⟩, by rw [hlen]; omega⟩

/-- What draining does to the slots: it frees some and leaves the others. -/
structure Drains (r r' : Recv) : Prop where
  irs : r'.irs = r.irs
  fin : r'.finReceived = r.finReceived
  slots : ∀ j : Fin oooSegs, r'.ooo.get j = none ∨ r'.ooo.get j = r.ooo.get j

lemma Drains.refl (r : Recv) : Drains r r := ⟨rfl, rfl, fun _ => .inr rfl⟩

lemma Drains.trans {r'' : Recv} (h : Drains r r') (h' : Drains r' r'') : Drains r r'' := by
  refine ⟨h'.irs.trans h.irs, h'.fin.trans h.fin, fun j => ?_⟩
  rcases h'.slots j with hj | hj
  · exact .inl hj
  · rw [hj]
    exact h.slots j

/-- Slot `j` cannot be moved: it is free, or there is still a gap before it. -/
def Stopped (r : Recv) (j : Fin oooSegs) : Prop :=
  ∀ seg, r.ooo.get j = some seg → seqGt seg.seq r.nxt

def usedSlots (r : Recv) : Finset (Fin oooSegs) := Finset.univ.filter fun j => (r.ooo.get j).isSome

lemma Drains.usedSlots_subset (h : Drains r r') : r'.usedSlots ⊆ r.usedSlots := by
  intro j hj
  simp only [usedSlots, Finset.mem_filter] at hj ⊢
  rcases h.slots j with hnone | heq
  · rw [hnone] at hj
    simp at hj
  · rwa [← heq]

lemma drainSlot_cases (h : DrainInv S r read t) (i : Fin oooSegs) :
    (r.drainSlot i = (r, false) ∧ r.Stopped i) ∨
    (r.drainSlot i = ({ r with ooo := r.ooo.set i.1 none i.2 }, false)) ∨
    (∃ p, p <+: S.drop t ∧ (r.ooo.get i).isSome ∧
      r.drainSlot i = ({ r with ooo := r.ooo.set i.1 none i.2 }.take p, true)) := by
  unfold drainSlot
  split
  · next hnone =>
    refine .inl ⟨rfl, fun seg hseg => ?_⟩
    exact absurd (hnone.symm.trans hseg) (Option.some_ne_none seg).symm
  rename_i seg hsome
  split
  · next hgap =>
    refine .inl ⟨rfl, fun seg' hseg' => ?_⟩
    exact Option.some.inj (hsome.symm.trans hseg') ▸ hgap
  · next hgap =>
    obtain ⟨o, ho, hback⟩ := h.held i seg hsome
    have hcap : r.buf.len ≤ 65536 := r.buf.len_le
    have hnear := ho.near
    dsimp only
    split
    · exact .inr (.inl rfl)
    split
    · exact .inr (.inl rfl)
    refine .inr (.inr ⟨_, ?_, Option.isSome_iff_exists.mpr ⟨seg, hsome⟩, rfl⟩)
    -- the slot starts at `o ≤ t`, so what is left of it after `t - o` bytes is at `t`
    have hle : o ≤ t := by
      rw [ho.seq, h.nxt, seqGt_place _ (by omega) (by omega)] at hgap
      simpa using hgap
    have hskip : (r.nxt - seg.seq).toNat = t - o := by
      rw [ho.seq, h.nxt, toNat_place_sub _ hle (by omega)]
    have hpiece := Stream.piece_drop ho.data (t - o)
    rwa [Nat.add_sub_cancel' hle, ← hskip] at hpiece

private lemma ooo_set_none (r : Recv) (i j : Fin oooSegs) :
    (r.ooo.set i.1 none i.2).get j = none ∨ (r.ooo.set i.1 none i.2).get j = r.ooo.get j := by
  change (r.ooo.set i.1 none i.2)[j.1] = none ∨ (r.ooo.set i.1 none i.2)[j.1] = r.ooo[j.1]
  rw [Vector.getElem_set]
  split
  · exact .inl rfl
  · exact .inr rfl

private lemma drainInv_free (h : DrainInv S r read t) (i : Fin oooSegs) :
    DrainInv S { r with ooo := r.ooo.set i.1 none i.2 } read t := by
  refine ⟨h.nxt, h.bytes, h.le, fun j seg hseg => ?_⟩
  rcases ooo_set_none r i j with hj | hj
  · exact absurd (hj.symm.trans hseg) (by simp)
  · exact h.held j seg (hj.symm.trans hseg)

lemma drainInv_drainSlot (h : DrainInv S r read t) (i : Fin oooSegs) :
    ∃ t', t ≤ t' ∧ DrainInv S (r.drainSlot i).1 read t' ∧ Drains r (r.drainSlot i).1 ∧
      ((r.drainSlot i).2 = false →
        t' = t ∧ (r.drainSlot i).1.nxt = r.nxt ∧ (r.drainSlot i).1.Stopped i) ∧
      ((r.drainSlot i).2 = true → (r.drainSlot i).1.usedSlots ⊂ r.usedSlots) := by
  have hfree : Drains r { r with ooo := r.ooo.set i.1 none i.2 } := ⟨rfl, rfl, ooo_set_none r i⟩
  have hset : (r.ooo.set i.1 none i.2).get i = none := by
    change (r.ooo.set i.1 none i.2)[i.1] = none
    simp
  rcases drainSlot_cases h i with ⟨heq, hstop⟩ | heq | ⟨p, hp, hused, heq⟩ <;> rw [heq]
  · exact ⟨t, le_refl t, h, .refl r, fun _ => ⟨rfl, rfl, hstop⟩, by simp⟩
  · refine ⟨t, le_refl t, drainInv_free h i, hfree, fun _ => ⟨rfl, rfl, ?_⟩, by simp⟩
    intro seg hseg
    exact absurd (hset.symm.trans hseg) (by simp)
  · refine ⟨_, Nat.le_add_right _ _, drainInv_take (drainInv_free h i) hp,
      hfree.trans ⟨rfl, rfl, fun _ => .inr rfl⟩, by simp, fun _ => ?_⟩
    refine (Finset.ssubset_iff_of_subset hfree.usedSlots_subset).mpr ⟨i, ?_, ?_⟩
    · simpa [usedSlots] using hused
    · simp [usedSlots, hset]

/-- A pass over some of the slots. If it makes no progress, none of them can be moved. -/
private theorem drainInv_foldl (slots : List (Fin oooSegs)) (p : Bool) (h : DrainInv S r read t) :
    ∃ t', t ≤ t' ∧
      let q := slots.foldl (fun p i => ((p.1.drainSlot i).1, p.2 || (p.1.drainSlot i).2)) (r, p)
      DrainInv S q.1 read t' ∧ Drains r q.1 ∧
      (q.2 = false → p = false ∧ t' = t ∧ q.1.nxt = r.nxt ∧ ∀ j ∈ slots, q.1.Stopped j) ∧
      (q.2 = true → p = true ∨ q.1.usedSlots ⊂ r.usedSlots) := by
  induction slots generalizing r t p with
  | nil => exact ⟨t, le_refl t, h, .refl r, fun hp => ⟨hp, rfl, rfl, by simp⟩, fun hp => .inl hp⟩
  | cons i slots ih =>
    obtain ⟨t1, ht1, hinv1, hdr1, hstop1, hprog1⟩ := drainInv_drainSlot h i
    obtain ⟨t2, ht2, hinv2, hdr2, hstop2, hprog2⟩ := ih (p || (r.drainSlot i).2) hinv1
    refine ⟨t2, ht1.trans ht2, hinv2, hdr1.trans hdr2, fun hq => ?_, fun hq => ?_⟩
    · obtain ⟨hp, rfl, hnxt, hall⟩ := hstop2 hq
      rw [Bool.or_eq_false_iff] at hp
      obtain ⟨rfl, hnxt1, hstop⟩ := hstop1 hp.2
      refine ⟨hp.1, rfl, hnxt.trans hnxt1, fun j hj => ?_⟩
      rcases mem_cons.mp hj with rfl | hj
      · -- the slot just left behind stays as it is, and `rcv_nxt` does not move
        intro seg hseg
        rcases hdr2.slots j with hnone | heq
        · exact absurd (hnone.symm.trans hseg) (by simp)
        · exact hnxt ▸ hstop seg (heq.symm.trans hseg)
      · exact hall j hj
    · rcases hprog2 hq with hp | hsub
      · rw [Bool.or_eq_true] at hp
        rcases hp with hp | hp
        · exact .inl hp
        · exact .inr (Finset.ssubset_of_subset_of_ssubset hdr2.usedSlots_subset (hprog1 hp))
      · exact .inr (Finset.ssubset_of_ssubset_of_subset hsub hdr1.usedSlots_subset)

/-- The outer loop of `ooo_drain`, given more rounds than there are slots in use, stops because no
slot can be moved. -/
theorem drained_drainLoop (fuel : ℕ) (h : DrainInv S r read t) (hfuel : r.usedSlots.card < fuel) :
    ∃ t', t ≤ t' ∧ DrainInv S (drainLoop fuel r) read t' ∧ Drains r (drainLoop fuel r) ∧
      ∀ j, (drainLoop fuel r).Stopped j := by
  induction fuel generalizing r t with
  | zero => simp at hfuel
  | succ fuel ih =>
    obtain ⟨t1, ht1, hinv1, hdr1, hstop, hprog⟩ := drainInv_foldl (finRange oooSegs) false h
    rw [drainLoop]
    split
    · next hp =>
      have hlt := Finset.card_lt_card ((hprog hp).resolve_left (by simp))
      obtain ⟨t2, ht2, hinv2, hdr2, hall⟩ := ih hinv1 (by
        change r.drainPass.1.usedSlots.card < fuel
        change r.drainPass.1.usedSlots.card < r.usedSlots.card at hlt
        omega)
      exact ⟨t2, ht1.trans ht2, hinv2, hdr1.trans hdr2, hall⟩
    · next hp =>
      obtain ⟨-, -, -, hall⟩ := hstop (Bool.eq_false_iff.mpr hp)
      exact ⟨t1, ht1, hinv1, hdr1, fun j => hall j (mem_finRange j)⟩

end Recv

/-! ## Segments -/

/-- A segment of the stream: payload and FIN, if any, are the piece of `S` at some offset near
position `t`, and the FIN stands right after the last byte. -/
def Carries (S : List UInt8) (irs : UInt32) (t : ℕ) (s : Segment) : Prop :=
  s.data ≠ [] ∨ s.fin → ∃ o, s.seq = place (irs + 1) o ∧ s.data <+: S.drop o ∧
    o ≤ t + 2 ^ 30 ∧ t ≤ o + 2 ^ 30 ∧ (s.fin → o + s.data.length = S.length)

/-- A segment without FIN whose payload, whatever it is, lies before position `t`. It may start at
the SYN, as a keepalive probe does. -/
def Stale (irs : UInt32) (t : ℕ) (s : Segment) : Prop :=
  s.fin = false ∧ ∃ k, s.seq = place irs k ∧ k + s.data.length ≤ t + 1 ∧ t ≤ k + 2 ^ 30

/-- A segment sent while the receive position moved from `t` to `t'`: it acknowledges a position in
between. -/
structure RecvSegment (c : Conn) (t t' : ℕ) (s : Segment) : Prop where
  sport : s.sport = c.addr.localPort
  dport : s.dport = c.addr.remotePort
  length_le : s.data.length ≤ mss
  ack : s.acks → ∃ p, t ≤ p ∧ p ≤ t' ∧ s.ack = place (c.rcv.irs + 1) p

/-- From `c` to `c'` the receive position has moved from `t` to `t'`, and what has been taken is
the stream `S`. -/
structure Receives (S read : List UInt8) (c c' : Conn) (t t' : ℕ) : Prop where
  addr : c'.addr = c.addr
  irs : c'.rcv.irs = c.rcv.irs
  settled : c.state.Settled → c'.state.Settled
  le : t ≤ t'
  emits : Emits (RecvSegment c t t') c c'
  inv : RecvInv S c'.rcv read t'

namespace Receives

variable {S read : List UInt8} {c c' c'' : Conn} {t t' t'' : ℕ}

lemma of_keepsRecv (h : KeepsRecv c c') (hinv : RecvInv S c.rcv read t) :
    Receives S read c c' t t := by
  refine ⟨h.addr, by rw [h.rcv], h.settled, le_refl t, ?_, by rwa [h.rcv]⟩
  refine h.emits.mono fun s hs => ⟨hs.sport, hs.dport, hs.length_le, fun hack => ?_⟩
  exact ⟨t, le_refl t, le_refl t, (hs.ack hack).trans hinv.nxt⟩

lemma refl (hinv : RecvInv S c.rcv read t) : Receives S read c c t t := of_keepsRecv (.refl c) hinv

lemma of_eq (ha : c'.addr = c.addr) (hi : c'.rcv.irs = c.rcv.irs) (hs : c'.state = c.state)
    (ho : c'.out = c.out) (hle : t ≤ t') (hinv : RecvInv S c'.rcv read t') :
    Receives S read c c' t t' :=
  ⟨ha, hi, by rw [hs]; exact id, hle, .of_out_eq ho, hinv⟩

lemma trans (h : Receives S read c c' t t') (h' : Receives S read c' c'' t' t'') :
    Receives S read c c'' t t'' := by
  refine ⟨h'.addr.trans h.addr, h'.irs.trans h.irs, h'.settled ∘ h.settled, h.le.trans h'.le, ?_,
    h'.inv⟩
  refine Emits.trans (h.emits.mono fun s hs => ?_) (h'.emits.mono fun s hs => ?_)
  · refine ⟨hs.sport, hs.dport, hs.length_le, fun hack => ?_⟩
    obtain ⟨p, hp, hp', hack⟩ := hs.ack hack
    exact ⟨p, hp, hp'.trans h'.le, hack⟩
  · refine ⟨by rw [hs.sport, h.addr], by rw [hs.dport, h.addr], hs.length_le, fun hack => ?_⟩
    obtain ⟨p, hp, hp', hack⟩ := hs.ack hack
    exact ⟨p, h.le.trans hp, hp', by rw [hack, h.irs]⟩

end Receives

lemma RecvInv.taken_le (h : RecvInv S r read t) : t ≤ read.length + r.buf.len + 1 := by
  have hlen := congrArg length h.bytes
  rw [length_append, length_toList, length_take] at hlen
  cases hf : r.finReceived with
  | false =>
    have := h.le hf
    omega
  | true =>
    have := h.fin hf
    omega

lemma RecvInv.length_read_le (h : RecvInv S r read t) : read.length ≤ t := by
  have hlen := congrArg length h.bytes
  rw [length_append, length_take] at hlen
  omega

namespace Conn

variable {S read pkt : List UInt8} {c : Conn} {s : Segment} {t : ℕ}

section

variable (h : RecvInv S c.rcv read t) {o : ℕ}

include h

lemma receives_takeInOrder (hfin : c.rcv.finReceived = false)
    (hseq : s.seq = place (c.rcv.irs + 1) o) (hdata : s.data <+: S.drop o) (hot : o ≤ t)
    (hnear : t ≤ o + 2 ^ 30) : ∃ t', Receives S read c (c.takeInOrder s) t t' := by
  unfold takeInOrder
  dsimp only
  split
  · next hpos =>
    have hskip : (c.rcv.nxt - s.seq).toNat = t - o := by
      rw [hseq, h.nxt, toNat_place_sub _ hot (by omega)]
    have hrest : s.data.drop (c.rcv.nxt - s.seq).toNat <+: S.drop t := by
      have hpiece := Stream.piece_drop hdata (t - o)
      rwa [Nat.add_sub_cancel' hot, ← hskip] at hpiece
    have hinv : DrainInv S c.rcv read t :=
      ⟨h.nxt, h.bytes, h.le hfin, fun i seg hseg => by
        obtain ⟨o', ho', hlt⟩ := h.ahead hfin i seg hseg
        exact ⟨o', ho', by omega⟩⟩
    have hfuel : (c.rcv.take (s.data.drop (c.rcv.nxt - s.seq).toNat)).usedSlots.card
        < oooSegs + 1 := by
      have hcard := Finset.card_le_univ
        (c.rcv.take (s.data.drop (c.rcv.nxt - s.seq).toNat)).usedSlots
      rw [Fintype.card_fin] at hcard
      omega
    obtain ⟨t', ht', hinv', hdr, hstop⟩ :=
      Recv.drained_drainLoop _ (Recv.drainInv_take hinv hrest) hfuel
    have hfin' := hdr.fin.trans hfin
    refine ⟨t', .of_eq rfl hdr.irs rfl rfl (by omega)
      ⟨hinv'.nxt, hinv'.bytes, fun _ => hinv'.le, fun hf => ?_, fun _ i seg hseg => ?_⟩⟩
    · rw [oooDrain] at hf
      simp [hfin'] at hf
    · -- a slot that cannot be moved starts after `rcv_nxt`
      obtain ⟨o', ho', hback⟩ := hinv'.held i seg hseg
      have hgap := hstop i seg hseg
      have hcap : _ ≤ 65536 := len_le
        ((c.rcv.take (s.data.drop (c.rcv.nxt - s.seq).toNat)).drainLoop (oooSegs + 1)).buf
      have hnear' := ho'.near
      refine ⟨o', ho', ?_⟩
      rw [ho'.seq, hinv'.nxt, seqGt_place _ (by omega) (by omega)] at hgap
      simpa using hgap
  · exact ⟨t, .refl h⟩

lemma receives_oooInsert {seq : UInt32} (hseq : seq = place (c.rcv.irs + 1) o)
    (hdata : p <+: S.drop o) (hto : t < o) (hnear : o ≤ t + 2 ^ 30) :
    Receives S read c (c.oooInsert seq p) t t := by
  unfold oooInsert
  split_ifs with hlen hdup
  · exact .refl h
  · exact .refl h
  split
  · next i _ =>
    refine .of_eq rfl rfl rfl rfl (le_refl t) ⟨h.nxt, h.bytes, h.le, h.fin, fun hf j seg hseg => ?_⟩
    change (c.rcv.ooo.set i.1 (some ⟨seq, p⟩) i.2)[j.1] = some seg at hseg
    rw [Vector.getElem_set] at hseg
    split at hseg
    · cases Option.some.inj hseg
      exact ⟨o, ⟨hseq, hdata, hnear, by rw [not_or] at hlen; exact not_lt.mp hlen.2⟩, hto⟩
    · exact h.ahead hf j seg hseg
  · exact .of_eq rfl rfl rfl rfl (le_refl t) h

lemma receives_sendAck (now : ℕ) :
    Receives S read c (c.sendAck now) t t :=
  .of_keepsRecv (c.keepsRecv_sendAck now) h

lemma receives_acceptPayload (hs : Carries S c.rcv.irs t s)
    (now : ℕ) : ∃ t', Receives S read c (c.acceptPayload s now) t t' := by
  unfold acceptPayload
  split_ifs with hpay hin hgap
  · -- new payload in order
    obtain ⟨o, hseq, hdata, hnear, hback, -⟩ := hs (.inl (length_pos_iff.mp hpay.1))
    rw [Bool.and_eq_true, hseq, h.nxt, seqLe_place _ (by omega) (by omega)] at hin
    obtain ⟨t', ht'⟩ := receives_takeInOrder h hpay.2 hseq hdata (by simpa using hin.1) hback
    exact ⟨t', ht'.trans (.of_keepsRecv (keepsRecv_delayAck _ now) ht'.inv)⟩
  · -- payload after a gap
    obtain ⟨o, hseq, hdata, hnear, hback, -⟩ := hs (.inl (length_pos_iff.mp hpay.1))
    have hto := hgap
    rw [hseq, h.nxt, seqGt_place _ (by omega) (by omega)] at hto
    have hins := receives_oooInsert h hseq hdata (by simpa using hto) hnear
    exact ⟨t, hins.trans (receives_sendAck hins.inv now)⟩
  · exact ⟨t, receives_sendAck h now⟩
  · exact ⟨t, .refl h⟩

lemma receives_acceptFin
    (hs : s.fin → ∃ o, s.seq = place (c.rcv.irs + 1) o ∧ o + s.data.length = S.length ∧
      o + s.data.length < t + 2 ^ 31) (now : ℕ) :
    ∃ t', Receives S read c (c.acceptFin s now) t t' := by
  unfold acceptFin
  split_ifs with hfin
  · simp only [Bool.and_eq_true, Bool.not_eq_true'] at hfin
    obtain ⟨⟨hf, hle⟩, hnot⟩ := hfin
    obtain ⟨o, hseq, hend, hnear⟩ := hs hf
    have hts := h.le hnot
    -- everything before the FIN has been taken
    have htaken : t = S.length := by
      rw [hseq, h.nxt, place_add_ofNat, hend, seqLe_place _ (by omega) (by omega)] at hle
      exact le_antisymm hts (by simpa using hle)
    have hcount : Receives S read c c.countFin t (t + 1) := by
      refine .of_eq rfl rfl rfl rfl (Nat.le_succ t)
        ⟨?_, ?_, by simp [countFin], fun _ => by rw [htaken], by simp [countFin]⟩
      · change c.rcv.nxt + 1 = place (c.rcv.irs + 1) (t + 1)
        rw [h.nxt, place_add_one]
      · change read ++ c.rcv.buf.toList = S.take (t + 1)
        rw [h.bytes, take_of_length_le (by omega), take_of_length_le (by omega)]
    have hack := receives_sendAck hcount.inv now
    exact ⟨t + 1, hcount.trans (hack.trans (.of_keepsRecv (keepsRecv_closeRead _ now) hack.inv))⟩
  · exact ⟨t, .refl h⟩

lemma receives_inputSeq (hs : Carries S c.rcv.irs t s) (hlen : s.data.length < 65536) (now : ℕ) :
    ∃ t', Receives S read c (c.inputSeq s now) t t' := by
  obtain ⟨t1, h1⟩ := receives_acceptPayload h hs now
  have h2 := Receives.of_keepsRecv (keepsRecv_answerProbe (c.acceptPayload s now) s now) h1.inv
  have h12 := h1.trans h2
  obtain ⟨t3, h3⟩ := receives_acceptFin h2.inv (fun hfin => by
    obtain ⟨o, hseq, -, hnear, -, hend⟩ := hs (.inr hfin)
    have := h1.le
    exact ⟨o, by rw [hseq, h12.irs], hend hfin, by omega⟩) now
  exact ⟨t3, h12.trans h3⟩

lemma keepsRecv_inputSeq_of_stale (hs : Stale c.rcv.irs t s)
    (hlen : s.data.length < 65536) (now : ℕ) : KeepsRecv c (c.inputSeq s now) := by
  obtain ⟨hfin, k, hseq, hend, hnear⟩ := hs
  have hnxt : c.rcv.nxt = place c.rcv.irs (t + 1) := by
    rw [h.nxt, place_add_one_base]
  have hpay : KeepsRecv c (c.acceptPayload s now) := by
    unfold acceptPayload
    split_ifs with hpay hin hgap
    · rw [hseq, hnxt, place_add_ofNat, seqGt_place _ (by omega) (by omega)] at hin
      simp only [Bool.and_eq_true, decide_eq_true_eq] at hin
      omega
    · rw [hseq, hnxt, seqGt_place _ (by omega) (by omega), decide_eq_true_eq] at hgap
      omega
    · exact c.keepsRecv_sendAck now
    · exact .refl c
  have hno : ∀ d : Conn, d.acceptFin s now = d := fun d => by
    rw [acceptFin, hfin]
    rfl
  rw [inputSeq, hno]
  exact hpay.trans (keepsRecv_answerProbe _ s now)

end

/-! ## Calls -/

lemma receives_inputOther (h : RecvInv S c.rcv read t)
    (hs : Carries S c.rcv.irs t s ∨ Stale c.rcv.irs t s) (hlen : s.data.length < 65536)
    (now : ℕ) : ∃ t', Receives S read c (c.inputOther s now) t t' := by
  unfold inputOther
  split
  · have hack := c.keepsRecv_inputAck s now
    have h1 := Receives.of_keepsRecv hack h
    have h2 : ∃ t', Receives S read (c.inputAck s now) ((c.inputAck s now).inputSeq s now) t t' := by
      rw [← h1.irs] at hs
      rcases hs with hs | hs
      · exact receives_inputSeq h1.inv hs hlen now
      · exact ⟨t, .of_keepsRecv (keepsRecv_inputSeq_of_stale h1.inv hs hlen now) h1.inv⟩
    obtain ⟨t', h2⟩ := h2
    refine ⟨t', h1.trans (h2.trans (.of_keepsRecv ?_ h2.inv))⟩
    exact (keepsRecv_finAcked _ now).trans (keepsRecv_trySend _ now)
  · exact ⟨t, .refl h⟩

lemma receives_inputSegment (h : RecvInv S c.rcv read t) (hst : c.state.Settled)
    (hs : Carries S c.rcv.irs t s ∨ Stale c.rcv.irs t s) (hlen : s.data.length < 65536)
    (iss : UInt32) (now : ℕ) : ∃ t', Receives S read c (c.inputSegment s iss now) t t' := by
  have hnote : KeepsRecv c (c.noteSegment now) := .of_eq rfl rfl id rfl
  cases hrst : s.rst with
  | true =>
    refine ⟨t, .of_keepsRecv ?_ h⟩
    unfold inputSegment
    rw [if_pos hrst]
    exact hnote.trans (keepsRecv_inputRst _ s)
  | false =>
    rw [inputSegment_of_settled hst hrst]
    obtain ⟨t', h'⟩ := receives_inputOther (c := c.noteSegment now) h hs hlen now
    exact ⟨t', (Receives.of_keepsRecv hnote h).trans h'⟩

/-- The segment a call hands to the state machine, if it passes the checks. -/
def Call.segment (c : Conn) : Call → Option Segment
  | .input pkt _ _ =>
    match parse c pkt with
    | .segment s => some s
    | _ => none
  | _ => none

/-- The bytes a call returns to its caller. -/
def Call.bytesRead (c : Conn) : Call → List UInt8
  | .read cap => (c.tcpRead cap).2
  | _ => []

lemma receives_tcpInput (h : RecvInv S c.rcv read t) (hst : c.state.Settled)
    (hs : ∀ s, parse c pkt = .segment s → Carries S c.rcv.irs t s ∨ Stale c.rcv.irs t s)
    (iss : UInt32) (now : ℕ) : ∃ t', Receives S read c (c.tcpInput pkt iss now) t t' := by
  have hstamp : KeepsRecv c (c.stamp now) := .of_eq rfl rfl id rfl
  unfold tcpInput
  dsimp only
  split
  · exact ⟨t, .of_keepsRecv hstamp h⟩
  · exact ⟨t, .of_keepsRecv (.of_eq rfl rfl id rfl) h⟩
  · next s hseg =>
    obtain ⟨t', h'⟩ := receives_inputSegment (c := c.stamp now) h hst (hs s hseg)
      (length_of_parse hseg) iss now
    exact ⟨t', (Receives.of_keepsRecv hstamp h).trans h'⟩

lemma receives_tcpRead (h : RecvInv S c.rcv read t) (cap : ℕ) :
    Receives S (read ++ (c.tcpRead cap).2) c (c.tcpRead cap).1 t t := by
  have hbytes : (c.tcpRead cap).2 = c.rcv.buf.peek 0 (min c.rcv.buf.len cap) := by
    unfold tcpRead
    dsimp only
    split <;> rfl
  have hinv : RecvInv S { c.rcv with buf := c.rcv.buf.drop (min c.rcv.buf.len cap) }
      (read ++ (c.tcpRead cap).2) t := by
    refine ⟨h.nxt, ?_, h.le, h.fin, h.ahead⟩
    rw [hbytes, peek_zero _ (Nat.min_le_left _ _)]
    rw [toList_drop, append_assoc, take_append_drop, h.bytes]
  have hmove : Receives S (read ++ (c.tcpRead cap).2) c
      { c with rcv := { c.rcv with buf := c.rcv.buf.drop (min c.rcv.buf.len cap) } } t t :=
    .of_eq rfl rfl rfl rfl (le_refl t) hinv
  unfold tcpRead at hmove hinv ⊢
  dsimp only at hmove hinv ⊢
  split
  · next hwin =>
    rw [if_pos hwin] at hmove hinv
    exact hmove.trans (receives_sendAck hinv _)
  · next hwin =>
    rw [if_neg hwin] at hmove
    exact hmove

lemma keepsRecv_tcpInput (hst : c.state.Settled)
    (hs : ∀ s, parse c pkt = .segment s → s.acks = false) (iss : UInt32) (now : ℕ) :
    KeepsRecv c (c.tcpInput pkt iss now) := by
  unfold tcpInput
  dsimp only
  split
  · exact .of_eq rfl rfl id rfl
  · exact .of_eq rfl rfl id rfl
  rename_i s hseg
  have hnote : KeepsRecv c ((c.stamp now).noteSegment now) := .of_eq rfl rfl id rfl
  cases hrst : s.rst with
  | true =>
    unfold inputSegment
    rw [if_pos hrst]
    exact hnote.trans (keepsRecv_inputRst _ s)
  | false =>
    rw [inputSegment_of_settled (c := c.stamp now) hst hrst, inputOther, hs s hseg]
    exact hnote

lemma receives_step_of_not_acks (h : RecvInv S c.rcv read t) (hst : c.state.Settled) (call : Call)
    (hs : ∀ s, call.segment c = some s → s.acks = false) :
    Receives S (read ++ call.bytesRead c) c (c.step call) t t := by
  have hkeep : ∀ c', KeepsRecv c c' → Receives S (read ++ []) c c' t t := fun c' hk => by
    rw [append_nil]
    exact .of_keepsRecv hk h
  cases call with
  | input pkt iss now =>
    refine hkeep _ (keepsRecv_tcpInput hst (fun s hseg => hs s ?_) iss now)
    rw [Call.segment, hseg]
  | read cap => exact receives_tcpRead h cap
  | tick now => exact hkeep _ (c.keepsRecv_tcpTick now)
  | write buf now => exact hkeep _ (c.keepsRecv_tcpWrite buf now)
  | shutdownWrite now => exact hkeep _ (c.keepsRecv_tcpShutdownWrite now)
  | abort now => exact hkeep _ (c.keepsRecv_tcpAbort now)

/-- What a call does to the receive half of a connection past its handshake. -/
theorem receives_step (h : RecvInv S c.rcv read t) (hst : c.state.Settled) (call : Call)
    (hs : ∀ s, call.segment c = some s → Carries S c.rcv.irs t s ∨ Stale c.rcv.irs t s) :
    ∃ t', Receives S (read ++ call.bytesRead c) c (c.step call) t t' := by
  cases call with
  | input pkt iss now =>
    change ∃ t', Receives S (read ++ []) c _ t t'
    rw [append_nil]
    refine receives_tcpInput h hst (fun s hseg => hs s ?_) iss now
    rw [Call.segment, hseg]
  | _ => exact ⟨t, receives_step_of_not_acks h hst _ nofun⟩

/-! ## Runs -/

/-- An observer of a run from its handshake on. It keeps what the reads have returned, counts the
sequence numbers taken without wrap-around, and notes the position that each emitted
acknowledgement covers. -/
structure RecvWatch where
  conn : Conn
  read : List UInt8
  taken : ℕ
  acked : List ℕ

namespace RecvWatch

def start (c : Conn) : RecvWatch := { conn := c, read := [], taken := 0, acked := [] }

def step (w : RecvWatch) (call : Call) : RecvWatch :=
  { conn := w.conn.step call
    read := w.read ++ call.bytesRead w.conn
    taken := w.taken + ((w.conn.step call).rcv.nxt - w.conn.rcv.nxt).toNat
    acked := w.acked ++ ((newOut w.conn (w.conn.step call)).filter Segment.acks).map
      fun s => w.taken + (s.ack - w.conn.rcv.nxt).toNat }

/-- The peer sends the stream `S`: a segment that a call hands in carries a piece of it. -/
def Feeds (S : List UInt8) (w : RecvWatch) (call : Call) : Prop :=
  ∀ s, call.segment w.conn = some s → Carries S w.conn.rcv.irs w.taken s

variable {w : RecvWatch}

lemma feeds_packet {src dst : Ipv6Addr} {s : Segment} (h : AddressedTo w.conn src dst s)
    (hlen : s.data.length ≤ 65515) (hs : Carries S w.conn.rcv.irs w.taken s) (iss : UInt32)
    (now : ℕ) :
    Feeds S w (.input (packet src dst s) iss now) := by
  intro s' hs'
  rw [Call.segment, parse_packet h hlen] at hs'
  cases hs'
  exact hs

/-- What holds along a run that started with initial receive sequence number `irs`. -/
structure Inv (S : List UInt8) (irs : UInt32) (w : RecvWatch) : Prop where
  settled : w.conn.state.Settled
  irs : w.conn.rcv.irs = irs
  recv : RecvInv S w.conn.rcv w.read w.taken
  acked : ∀ p ∈ w.acked, p ≤ w.taken

lemma nxt_sub {c c' : Conn} {t' : ℕ} (h : RecvInv S c.rcv read t) {more : List UInt8}
    (h' : Receives S (read ++ more) c c' t t') (hmore : more.length ≤ rcvBufLen) {p : ℕ}
    (hp : t ≤ p) (hp' : p ≤ t') : (place (c.rcv.irs + 1) p - c.rcv.nxt).toNat = p - t := by
  have hcap : c'.rcv.buf.len ≤ 65536 := c'.rcv.buf.len_le
  have hmore : more.length ≤ 65536 := hmore
  have htop := h'.inv.taken_le
  have hbot := h.length_read_le
  rw [length_append] at htop
  rw [h.nxt, toNat_place_sub _ hp (by omega)]

lemma length_bytesRead (c : Conn) (call : Call) : (call.bytesRead c).length ≤ rcvBufLen := by
  cases call with
  | read cap =>
    have hlen : (c.tcpRead cap).2.length = min c.rcv.buf.len cap := by
      unfold tcpRead
      dsimp only
      split <;> exact length_peek _ _ _
    rw [Call.bytesRead, hlen]
    exact (Nat.min_le_left _ _).trans c.rcv.buf.len_le
  | _ => exact Nat.zero_le _

lemma inv_step {irs : UInt32} (h : Inv S irs w) {call : Call} (hfeed : Feeds S w call) :
    Inv S irs (w.step call) := by
  obtain ⟨t', h'⟩ := receives_step h.recv h.settled call fun s hs => .inl (hfeed s hs)
  have hsub := fun p => nxt_sub (p := p) h.recv h' (length_bytesRead _ _)
  have htaken : (w.step call).taken = t' := by
    have := hsub t' h'.le (le_refl t')
    rw [← h'.irs, ← h'.inv.nxt] at this
    change w.taken + _ = _
    have := h'.le
    omega
  refine ⟨h'.settled h.settled, h'.irs.trans h.irs, ?_, fun p hp => ?_⟩
  · rw [htaken]
    exact h'.inv
  rw [htaken]
  rcases mem_append.mp hp with hp | hp
  · exact (h.acked p hp).trans h'.le
  obtain ⟨s, hs, rfl⟩ := mem_map.mp hp
  obtain ⟨hs, hack⟩ := mem_filter.mp hs
  obtain ⟨p, hle, hle', heq⟩ := (h'.emits.mem_newOut hs).ack hack
  rw [heq, hsub p hle hle']
  omega

end RecvWatch

/-- Reassembly over whole runs: whatever pieces of the stream `S` arrive, in whatever order, between
whatever other calls, what has been read and what is buffered are the bytes of `S` up to `rcv_nxt`,
without the FIN's own number; the FIN is counted only after all of `S`; and every byte covered by
an acknowledgement has been read or is still there. -/
theorem receiver_reassembly (S : List UInt8) {c : Conn} (hst : c.state.Settled)
    (hfresh : c.rcv.Fresh) (calls : List Call)
    (hrun : Run.Ok RecvWatch.step (RecvWatch.Feeds S) (RecvWatch.start c) calls) :
    let w := calls.foldl RecvWatch.step (RecvWatch.start c)
    let r := w.conn.rcv
    r.nxt = place (c.rcv.irs + 1) w.taken ∧
    w.read ++ r.buf.toList = S.take (if r.finReceived then w.taken - 1 else w.taken) ∧
    (r.finReceived = false → w.taken ≤ S.length) ∧
    (r.finReceived = true → w.taken = S.length + 1) ∧
    ∀ p ∈ w.acked, p ≤ w.taken ∧ S.take p <+: w.read ++ r.buf.toList := by
  have h : RecvWatch.Inv S c.rcv.irs (calls.foldl RecvWatch.step (RecvWatch.start c)) :=
    hrun.invariant ⟨hst, rfl, hfresh.recvInv S, nofun⟩ fun _ _ hw hfeed => RecvWatch.inv_step hw hfeed
  refine ⟨by rw [h.recv.nxt, h.irs], ?_, h.recv.le, h.recv.fin, fun p hp => ⟨h.acked p hp, ?_⟩⟩
  · rw [h.recv.bytes]
    split
    · next hf =>
      rw [h.recv.fin hf, take_of_length_le (Nat.le_succ _), Nat.add_sub_cancel, take_length]
    · rfl
  · rw [h.recv.bytes]
    exact Stream.take_prefix_take (h.acked p hp)

/-- A connection that has just received a SYN whose sequence number is the last before the wrap. -/
def justOpened : Conn :=
  inputSegment
    ((tcpNew (Vector.replicate 16 1) (Vector.replicate 16 2) (fun _ => 0) fun _ => 0).tcpListen 80).1
    { sport := 9, dport := 80, seq := 0xffffffff, ack := 0, flags := thSyn, wnd := 1000, data := [] }
    5 0

/-- The piece `p` of a stream at offset `o`, as sent to `justOpened`. -/
def pieceAt (o : ℕ) (p : List UInt8) : Segment :=
  { sport := 9, dport := 80, seq := place 0 o, ack := 6, flags := thAck, wnd := 1000, data := p }

/-- The stream `1, 2, 3` in two segments that arrive in the wrong order. -/
def pieceCalls : List Call :=
  [.input (packet (Vector.replicate 16 2) (Vector.replicate 16 1) (pieceAt 1 [2, 3])) 0 1,
    .input (packet (Vector.replicate 16 2) (Vector.replicate 16 1) (pieceAt 0 [1])) 0 2,
    .tick 50, .read 2]

private lemma fresh_justOpened : justOpened.rcv.Fresh := by
  refine ⟨rfl, rfl, fun i => ?_, rfl⟩
  change (Vector.replicate 16 none)[i.1] = none
  simp

private lemma ok_pieceCalls :
    Run.Ok RecvWatch.step (RecvWatch.Feeds [1, 2, 3]) (RecvWatch.start justOpened) pieceCalls := by
  refine ⟨RecvWatch.feeds_packet ⟨rfl, rfl, rfl, .inr rfl⟩ (by decide) ?_ 0 1,
    RecvWatch.feeds_packet ?_ (by decide) ?_ 0 2, nofun, nofun, trivial⟩
  · exact fun _ => ⟨1, rfl, by decide, by decide, by decide, by decide⟩
  · rw [RecvWatch.step]
    dsimp only [RecvWatch.start]
    exact ⟨by decide +kernel, by decide +kernel, by decide +kernel, .inr (by decide +kernel)⟩
  · rw [RecvWatch.step]
    dsimp only [RecvWatch.start]
    exact fun _ => ⟨0, by decide +kernel, by decide, by decide +kernel, by decide +kernel, by decide⟩

theorem receiver_reassembly_wrong_order :
    let w := pieceCalls.foldl RecvWatch.step (RecvWatch.start justOpened)
    justOpened.state.Settled ∧ justOpened.rcv.Fresh ∧
    Run.Ok RecvWatch.step (RecvWatch.Feeds [1, 2, 3]) (RecvWatch.start justOpened) pieceCalls ∧
    w.read ++ w.conn.rcv.buf.toList =
      [1, 2, 3].take (if w.conn.rcv.finReceived then w.taken - 1 else w.taken) :=
  ⟨⟨by decide, by decide⟩, fresh_justOpened, ok_pieceCalls,
    (receiver_reassembly [1, 2, 3] ⟨by decide, by decide⟩ fresh_justOpened pieceCalls
      ok_pieceCalls).2.1⟩

end Conn

end Tcp
