import Tailcat.Tcp.Mux
import Tailcat.Tcp.Peers

/-!
# The table of the multiplexer

What holds of the table and the backlog whatever calls are made (`Mux.Valid`). There are three kinds of
write to the table: a connection is removed (`Drops`), a connection is added, and connections change in
place without changing their addresses (`Changes`). Without a write it is the `SameTable`.

## Main results

* `input_isolated`: a packet concerns only the connection with its addresses and ports;
* `table_invariant`: the table and its backlog along any run.
-/

namespace Tcp

open List
open Relation (ReflTransGen)

namespace Mux

variable {m m' m'' : Mux} {e d : Entry} {p i : ℕ} {now : ℕ} {f : Entry → Conn} {c : Conn}
  {localIp remoteIp dst : Ipv6Addr} {localPort remotePort : UInt16} {draw : Draw} {tuple : Addr}

/-- The invariant of the table. The backlog is in the order of arrival, as pointers are numbered in
the order of allocation. -/
structure Valid (m : Mux) : Prop where
  length_le : m.conns.length ≤ maxConns
  ptrs : m.ptrs.Nodup
  fresh : ∀ p ∈ m.ptrs, p < m.allocated
  addrs : (m.conns.map fun e => e.conn.addr).Nodup
  listen : ∀ e ∈ m.conns, e.conn.state ≠ .listen
  backlog_le : m.backlog.length ≤ backlogLen
  sorted : m.backlog.Pairwise (· < ·)
  queued : ∀ p ∈ m.backlog, p ∈ m.ptrs

lemma valid_muxNew (localIp remoteIp : Ipv6Addr) (seed : UInt16) :
    (muxNew localIp remoteIp seed).Valid := by
  constructor <;> simp [muxNew, Mux.ptrs]

lemma mem_ptrs : p ∈ m.ptrs ↔ ∃ e ∈ m.conns, e.ptr = p := mem_map

lemma Valid.entry_inj (h : m.Valid) (hd : d ∈ m.conns) (he : e ∈ m.conns) (heq : d.ptr = e.ptr) :
    d = e :=
  inj_on_of_nodup_map h.ptrs hd he heq

lemma Valid.addr_inj (h : m.Valid) (hd : d ∈ m.conns) (he : e ∈ m.conns)
    (heq : d.conn.addr = e.conn.addr) : d = e :=
  inj_on_of_nodup_map h.addrs hd he heq

/-! ## Changes in place -/

/-- From `m` to `m'` the table and the backlog are the same. -/
structure SameTable (m m' : Mux) : Prop where
  conns : m'.conns = m.conns
  backlog : m'.backlog = m.backlog
  allocated : m.allocated ≤ m'.allocated

/-- From `m` to `m'` connections have changed in place, keeping their ends. -/
structure Changes (f : Entry → Conn) (m m' : Mux) : Prop where
  conns : m'.conns = m.conns.map fun e => { e with conn := f e }
  addr : ∀ e ∈ m.conns, (f e).addr = e.conn.addr
  state : ∀ e ∈ m.conns, (f e).state ≠ .listen
  backlog : m'.backlog = m.backlog
  allocated : m.allocated = m'.allocated

lemma Valid.of_sameTable (h : m.Valid) (hs : SameTable m m') : m'.Valid := by
  obtain ⟨hc, hb, ha⟩ := hs
  constructor
  · exact hc ▸ h.length_le
  · rw [Mux.ptrs, hc]; exact h.ptrs
  · intro p hp
    rw [Mux.ptrs, hc] at hp
    exact (h.fresh p hp).trans_le ha
  · exact hc ▸ h.addrs
  · exact hc ▸ h.listen
  · exact hb ▸ h.backlog_le
  · exact hb ▸ h.sorted
  · rw [Mux.ptrs, hb, hc]; exact h.queued

lemma Changes.ptrs (hch : Changes f m m') : m'.ptrs = m.ptrs := by
  simp [Mux.ptrs, hch.conns]

lemma Valid.of_changes (h : m.Valid) (hch : Changes f m m') : m'.Valid := by
  have hp := hch.ptrs
  have haddr : (m'.conns.map fun e => e.conn.addr) = m.conns.map fun e => e.conn.addr := by
    rw [hch.conns, map_map]
    exact map_congr_left hch.addr
  constructor
  · simpa [hch.conns] using h.length_le
  · rw [hp]; exact h.ptrs
  · rw [hp, ← hch.allocated]; exact h.fresh
  · rw [haddr]; exact h.addrs
  · intro e he
    rw [hch.conns, mem_map] at he
    obtain ⟨d, hd, rfl⟩ := he
    exact hch.state d hd
  · rw [hch.backlog]; exact h.backlog_le
  · rw [hch.backlog]; exact h.sorted
  · rw [hp, hch.backlog]; exact h.queued

lemma changes_updateConn (h : m.Valid) {f : Conn → Conn}
    (hf : ∀ c : Conn, c.state ≠ .listen → Mails c (f c)) (p : ℕ) :
    Changes (fun e => if e.ptr = p then f e.conn else e.conn) m (m.updateConn p f) := by
  refine ⟨?_, fun e he => ?_, fun e he => ?_, rfl, rfl⟩
  · refine map_congr_left fun e _ => ?_
    split <;> rfl
  · split
    · exact (hf _ (h.listen e he)).addr
    · rfl
  · split
    · exact (hf _ (h.listen e he)).state (h.listen e he)
    · exact h.listen e he

lemma changes_tick (h : m.Valid) (now : ℕ) :
    Changes (fun e => (e.conn.tcpTick now).1) m (m.tick now) :=
  have hm : ∀ e ∈ m.conns, Mails e.conn (e.conn.tcpTick now).1 :=
    fun e he => mails_step (h.listen e he) (.tick now)
  ⟨rfl, fun e he => (hm e he).addr, fun e he => (hm e he).state (h.listen e he), rfl, rfl⟩

/-! ## Removal -/

/-- From `m` to `m'` the entries that are not to be kept have been removed, from the table and from
the backlog. -/
structure Drops (keep : Entry → Bool) (m m' : Mux) : Prop where
  conns : m'.conns.Perm (m.conns.filter keep)
  backlog : m'.backlog = m.backlog.filter fun p => p ∈ m'.ptrs
  localIp : m'.localIp = m.localIp
  remoteIp : m'.remoteIp = m.remoteIp
  exitNode : m'.exitNode = m.exitNode
  isListening : m'.isListening = m.isListening
  allocated : m'.allocated = m.allocated

namespace Drops

variable {keep keep' : Entry → Bool}

lemma mem_conns (hd : Drops keep m m') : e ∈ m'.conns ↔ e ∈ m.conns ∧ keep e := by
  rw [hd.conns.mem_iff, mem_filter]

lemma ptrs_subset (hd : Drops keep m m') (hp : p ∈ m'.ptrs) : p ∈ m.ptrs := by
  obtain ⟨e, he, rfl⟩ := mem_ptrs.mp hp
  exact mem_ptrs.mpr ⟨e, (hd.mem_conns.mp he).1, rfl⟩

lemma of_forall (h : m.Valid) (hkeep : ∀ e ∈ m.conns, keep e) : Drops keep m m := by
  refine ⟨by rw [filter_eq_self.mpr hkeep], ?_, rfl, rfl, rfl, rfl, rfl⟩
  exact (filter_eq_self.mpr fun p hp => by simpa using h.queued p hp).symm

lemma trans (hd : Drops keep m m') (hd' : Drops keep' m' m'') :
    Drops (fun e => keep e && keep' e) m m'' := by
  refine ⟨?_, ?_, hd'.localIp.trans hd.localIp, hd'.remoteIp.trans hd.remoteIp,
    hd'.exitNode.trans hd.exitNode, hd'.isListening.trans hd.isListening,
    hd'.allocated.trans hd.allocated⟩
  · have hfilter : m.conns.filter (fun e => keep e && keep' e) =
        (m.conns.filter keep).filter keep' := by
      rw [filter_filter]
      exact filter_congr fun e _ => Bool.and_comm _ _
    rw [hfilter]
    exact hd'.conns.trans (hd.conns.filter keep')
  · rw [hd'.backlog, hd.backlog, filter_filter]
    refine filter_congr fun p _ => ?_
    simpa using hd'.ptrs_subset

lemma congr (hd : Drops keep m m') (hkeep : ∀ e ∈ m.conns, keep e = keep' e) :
    Drops keep' m m' :=
  { hd with conns := by rw [← filter_congr hkeep]; exact hd.conns }

lemma valid (hd : Drops keep m m') (h : m.Valid) : m'.Valid := by
  have hsub : (m.conns.filter keep).Sublist m.conns := filter_sublist
  constructor
  · exact (hd.conns.length_eq ▸ hsub.length_le).trans h.length_le
  · exact (hd.conns.map _).nodup_iff.mpr (h.ptrs.sublist (hsub.map _))
  · intro p hp
    rw [hd.allocated]
    exact h.fresh p (hd.ptrs_subset hp)
  · exact (hd.conns.map _).nodup_iff.mpr (h.addrs.sublist (hsub.map _))
  · exact fun e he => h.listen e (hd.mem_conns.mp he).1
  · rw [hd.backlog]
    exact (length_filter_le _ _).trans h.backlog_le
  · rw [hd.backlog]
    exact h.sorted.filter _
  · intro p hp
    rw [hd.backlog, mem_filter] at hp
    simpa using hp.2

end Drops

lemma drops_dropAt (h : m.Valid) (hi : m.conns[i]? = some e) :
    Drops (fun d => d.ptr ≠ e.ptr) m (m.dropAt i) := by
  obtain ⟨hlt, hget⟩ := List.getElem?_eq_some_iff.mp hi
  have hperm : (swapRemove m.conns i).Perm (m.conns.filter fun d => d.ptr ≠ e.ptr) := by
    rw [← hget]
    exact swapRemove_perm_filter hlt h.ptrs
  have heq : m.dropAt i =
      { m with backlog := m.backlog.erase e.ptr, conns := swapRemove m.conns i } := by
    simp [dropAt, hi]
  rw [heq]
  refine ⟨hperm, ?_, rfl, rfl, rfl, rfl, rfl⟩
  have hnodup : m.backlog.Nodup := h.sorted.imp fun hlt => hlt.ne
  rw [hnodup.erase_eq_filter]
  refine filter_congr fun p hp => ?_
  -- A pointer of the backlog is one of the table, so it stays unless it is the one removed.
  obtain ⟨d, hd, rfl⟩ := mem_ptrs.mp (h.queued p hp)
  have hmem : d.ptr ∈ (swapRemove m.conns i).map Entry.ptr ↔ d.ptr ≠ e.ptr := by
    rw [(hperm.map _).mem_iff, mem_map]
    constructor
    · rintro ⟨d', hd', hptr⟩
      rw [← hptr]
      simpa using (mem_filter.mp hd').2
    · exact fun hne => ⟨d, mem_filter.mpr ⟨hd, by simpa using hne⟩, rfl⟩
  rw [Bool.eq_iff_iff, bne_iff_ne, decide_eq_true_eq]
  exact hmem.symm

lemma drops_dropPtr (h : m.Valid) (p : ℕ) : Drops (fun d => d.ptr ≠ p) m (m.dropPtr p) := by
  unfold dropPtr
  split
  · next hnone =>
    refine .of_forall h fun d hd => ?_
    simpa using findIdx?_eq_none_iff.mp hnone d hd
  · next i hsome =>
    obtain ⟨hlt, hp, -⟩ := findIdx?_eq_some_iff_getElem.mp hsome
    have hp' : (m.conns[i]).ptr = p := by simpa using hp
    rw [← hp']
    exact drops_dropAt h (getElem?_eq_getElem hlt)

/-- `tc_tcp_mux_reap` keeps a connection unless it is closed. -/
def isOpen (e : Entry) : Bool := e.conn.state != .closed

lemma drops_reapLoop {fuel : ℕ} (h : m.Valid) (hfuel : m.conns.length ≤ i + fuel)
    (hkept : ∀ e ∈ m.conns.take i, isOpen e) : Drops isOpen m (reapLoop fuel i m).1 := by
  induction fuel generalizing i m with
  | zero =>
    rw [take_of_length_le (by omega)] at hkept
    exact .of_forall h hkept
  | succ fuel ih =>
    rw [reapLoop]
    split
    · next hnone =>
      rw [take_of_length_le (getElem?_eq_none_iff.mp hnone)] at hkept
      exact .of_forall h hkept
    rename_i e hsome
    obtain ⟨hlt, hget⟩ := List.getElem?_eq_some_iff.mp hsome
    split
    · next hclosed =>
      have hdrop := drops_dropAt h hsome
      have hconns : (m.dropAt i).conns = swapRemove m.conns i := by simp [dropAt, hsome]
      have hlen := length_swapRemove hlt
      have hd := ih (i := i) (hdrop.valid h) (by rw [hconns]; omega)
        (by rw [hconns, take_swapRemove hlt]; exact hkept)
      -- The entry removed is the only one with its pointer, and it is closed.
      refine (hdrop.trans hd).congr fun d hd => ?_
      by_cases hde : d.ptr = e.ptr
      · rw [h.entry_inj hd (hget ▸ getElem_mem hlt) hde]
        simp [isOpen, hclosed]
      · simp [hde]
    · next hopen =>
      refine ih h (by omega) ?_
      rw [take_add_one, hsome]
      intro d hd
      rcases mem_append.mp hd with hd | hd
      · exact hkept d hd
      · have hde : d = e := by simpa using hd
        simp [isOpen, hde, hopen]

lemma drops_reap (h : m.Valid) : Drops isOpen m m.reap.1 :=
  { drops_reapLoop h (Nat.zero_add m.conns.length).ge (by simp) with }

/-! ## Addition -/

/-- From `m` to `m'` the connection `c` has been added, in front of nothing, and queued if it has
been accepted. -/
structure Adds (c : Conn) (queue : Bool) (m m' : Mux) : Prop where
  conns : m'.conns = m.conns ++ [⟨m.allocated, c⟩]
  backlog : m'.backlog = m.backlog ++ if queue then [m.allocated] else []
  allocated : m'.allocated = m.allocated + 1
  length_lt : m.conns.length < maxConns
  backlog_lt : queue → m.backlog.length < backlogLen
  state : c.state ≠ .listen

lemma Valid.of_adds {queue : Bool} (h : m.Valid) (ha : Adds c queue m m')
    (hnew : ∀ e ∈ m.conns, e.conn.addr ≠ c.addr) : m'.Valid := by
  have hptrs : m'.ptrs = m.ptrs ++ [m.allocated] := by simp [Mux.ptrs, ha.conns]
  constructor
  · rw [ha.conns, length_append]
    exact ha.length_lt
  · rw [hptrs, nodup_append]
    refine ⟨h.ptrs, nodup_singleton _, fun p hp q hq => ?_⟩
    rw [mem_singleton.mp hq]
    exact (h.fresh p hp).ne
  · intro p hp
    rw [hptrs, mem_append, mem_singleton] at hp
    rw [ha.allocated]
    rcases hp with hp | rfl
    · exact (h.fresh p hp).trans (Nat.lt_succ_self _)
    · exact Nat.lt_succ_self _
  · rw [ha.conns, map_append, nodup_append]
    refine ⟨h.addrs, nodup_singleton _, fun a hp b hb => ?_⟩
    obtain ⟨e, he, rfl⟩ := mem_map.mp hp
    rw [mem_singleton.mp hb]
    exact hnew e he
  · intro e he
    rw [ha.conns, mem_append, mem_singleton] at he
    rcases he with he | rfl
    · exact h.listen e he
    · exact ha.state
  · rw [ha.backlog, length_append]
    have hlt := ha.backlog_lt
    have hle := h.backlog_le
    cases queue with
    | false => simpa using hle
    | true => exact hlt rfl
  · rw [ha.backlog, pairwise_append]
    refine ⟨h.sorted, by cases queue <;> simp, fun p hp q hq => ?_⟩
    cases queue with
    | false => simp at hq
    | true =>
      rw [mem_singleton.mp hq]
      exact h.fresh p (h.queued p hp)
  · intro p hp
    rw [ha.backlog, mem_append] at hp
    rw [hptrs, mem_append]
    rcases hp with hp | hp
    · exact .inl (h.queued p hp)
    cases queue with
    | false => simp at hp
    | true => exact .inr hp

/-! ## Writes -/

/-- What a call does to the table, step by step. -/
inductive Write (m m' : Mux) : Prop
  | same (hs : SameTable m m')
  | takes (hc : m'.conns = m.conns) (hb : m'.backlog.Sublist m.backlog)
      (ha : m'.allocated = m.allocated)
  | changes (f : Entry → Conn) (hch : Changes f m m')
  | drops (keep : Entry → Bool) (hd : Drops keep m m')
  | adds (c : Conn) (queue : Bool) (ha : Adds c queue m m')
      (hnew : ∀ e ∈ m.conns, e.conn.addr ≠ c.addr)

abbrev Writes : Mux → Mux → Prop := ReflTransGen Write

lemma Write.valid (hw : Write m m') (h : m.Valid) : m'.Valid := by
  cases hw with
  | same hs => exact h.of_sameTable hs
  | takes hc hb ha =>
    -- Only the backlog changes.
    have hv : ({ m' with backlog := m.backlog } : Mux).Valid := h.of_sameTable ⟨hc, rfl, ha.ge⟩
    exact { hv with
      backlog_le := hb.length_le.trans h.backlog_le
      sorted := h.sorted.sublist hb
      queued := fun p hp => hv.queued p (hb.subset hp) }
  | changes f hch => exact h.of_changes hch
  | drops keep hd => exact hd.valid h
  | adds c queue ha hnew => exact h.of_adds ha hnew

lemma Writes.valid (hw : Writes m m') (h : m.Valid) : m'.Valid := by
  induction hw with
  | refl => exact h
  | tail _ hw ih => exact hw.valid ih

/-- From `m` to `m'` pointers have not been given out again, and no connection has changed its
ends. -/
structure Persists (m m' : Mux) : Prop where
  allocated : m.allocated ≤ m'.allocated
  addr : ∀ e ∈ m'.conns, m.allocated ≤ e.ptr ∨
    ∃ d ∈ m.conns, d.ptr = e.ptr ∧ d.conn.addr = e.conn.addr

lemma Write.persists (hw : Write m m') : Persists m m' := by
  have hself : ∀ e ∈ m.conns, ∃ d ∈ m.conns, d.ptr = e.ptr ∧ d.conn.addr = e.conn.addr :=
    fun e he => ⟨e, he, rfl, rfl⟩
  cases hw with
  | same hs => exact ⟨hs.allocated, fun e he => .inr (hself e (hs.conns ▸ he))⟩
  | takes hc hb ha => exact ⟨ha.ge, fun e he => .inr (hself e (hc ▸ he))⟩
  | changes f hch =>
    refine ⟨hch.allocated.le, fun e he => .inr ?_⟩
    rw [hch.conns, mem_map] at he
    obtain ⟨d, hd, rfl⟩ := he
    exact ⟨d, hd, rfl, (hch.addr d hd).symm⟩
  | drops keep hd => exact ⟨hd.allocated.ge, fun e he => .inr (hself e (hd.mem_conns.mp he).1)⟩
  | adds c queue ha =>
    refine ⟨ha.allocated ▸ Nat.le_succ _, fun e he => ?_⟩
    rw [ha.conns, mem_append, mem_singleton] at he
    rcases he with he | rfl
    · exact .inr (hself e he)
    · exact .inl le_rfl

lemma Writes.persists (hw : Writes m m') : Persists m m' := by
  induction hw with
  | refl => exact ⟨le_rfl, fun e he => .inr ⟨e, he, rfl, rfl⟩⟩
  | tail _ hw ih =>
    refine ⟨ih.allocated.trans hw.persists.allocated, fun e he => ?_⟩
    rcases hw.persists.addr e he with hnew | ⟨d, hd, hptr, haddr⟩
    · exact .inl (ih.allocated.trans hnew)
    · rw [← hptr, ← haddr]
      exact ih.addr d hd

/-! ## Opening -/

lemma mem_of_findConn
    (h : m.findConn (some localIp) localPort (some remoteIp) remotePort = some e) :
    e ∈ m.conns ∧ e.conn.addr = ⟨localIp, remoteIp, localPort, remotePort⟩ := by
  refine ⟨mem_of_find?_eq_some h, ?_⟩
  have hp := find?_some h
  simp only [Option.all_some, Bool.and_eq_true, decide_eq_true_eq, beq_iff_eq] at hp
  obtain ⟨⟨⟨hlp, hrp⟩, hl⟩, hr⟩ := hp
  rw [← hlp, ← hrp, hl, hr]

lemma ne_of_findConn_none {remoteIp' : Option Ipv6Addr}
    (h : m.findConn (some localIp) localPort remoteIp' remotePort = none)
    (hr : ∀ ip ∈ remoteIp', ip = remoteIp) (he : e ∈ m.conns) :
    e.conn.addr ≠ ⟨localIp, remoteIp, localPort, remotePort⟩ := by
  intro heq
  have hp := find?_eq_none.mp h e he
  rw [heq] at hp
  apply hp
  cases remoteIp' with
  | none => simp
  | some ip => simp [hr]

lemma pickPort_spec (tries : ℕ) :
    (∃ nextPort, (m.pickPort tries).1 = { m with nextPort }) ∧
      ∀ port, (m.pickPort tries).2 = some port → ∀ e ∈ m.conns, e.conn.addr.localPort ≠ port := by
  induction tries generalizing m with
  | zero => exact ⟨⟨m.nextPort, rfl⟩, nofun⟩
  | succ tries ih =>
    rw [pickPort]
    split
    · exact ih
    rename_i hfree
    refine ⟨⟨_, rfl⟩, fun port hport e he heq => hfree ?_⟩
    cases hport
    rw [Bool.or_eq_true]
    exact .inl (any_eq_true.mpr ⟨e, he, by simpa using heq⟩)

lemma dial_cases (hlen : m.conns.length < maxConns) :
    SameTable m (m.dial dst localPort remotePort draw now).1 ∨
      ∃ c, Adds c false m (m.dial dst localPort remotePort draw now).1 ∧
        c.addr = ⟨m.localIp, dst, localPort, remotePort⟩ := by
  unfold dial
  split
  · exact .inl ⟨rfl, rfl, le_rfl⟩
  refine .inr ⟨_, ⟨rfl, ?_, rfl, hlen, nofun, ?_⟩, rfl⟩
  · exact (append_nil _).symm
  · nofun

lemma writes_dial (hlen : m.conns.length < maxConns)
    (hnew : ∀ e ∈ m.conns, e.conn.addr ≠ ⟨m.localIp, dst, localPort, remotePort⟩) :
    Writes m (m.dial dst localPort remotePort draw now).1 := by
  rcases dial_cases hlen with hs | ⟨c, ha, haddr⟩
  · exact .single (.same hs)
  · exact .single (.adds c false ha (haddr ▸ hnew))

lemma writes_connectFrom (localPort remotePort : UInt16) (draw : Draw) (now : ℕ) :
    Writes m (m.connectFrom localPort remotePort draw now).1 := by
  unfold connectFrom
  split_ifs with hzero hfull hexist
  · exact .refl
  · exact .refl
  · exact .refl
  · refine writes_dial (by omega) fun e he => ?_
    have hnone : m.findConn (some m.localIp) localPort none remotePort = none := by
      simpa using hexist
    exact ne_of_findConn_none hnone nofun he

lemma pickPort_eq (m : Mux) (tries : ℕ) :
    ∃ nextPort port, m.pickPort tries = ({ m with nextPort }, port) := by
  obtain ⟨⟨nextPort, heq⟩, -⟩ := pickPort_spec (m := m) tries
  exact ⟨nextPort, _, Prod.ext heq rfl⟩

lemma sameTable_pickPort (tries : ℕ) : SameTable m (m.pickPort tries).1 := by
  obtain ⟨⟨nextPort, heq⟩, -⟩ := pickPort_spec tries
  rw [heq]
  exact ⟨rfl, rfl, le_rfl⟩

lemma writes_connect (remotePort : UInt16) (draw : Draw) (now : ℕ) :
    Writes m (m.connect remotePort draw now).1 := by
  have hpick := Write.same (sameTable_pickPort (m := m) ephemeralSpan)
  unfold connect
  split
  · next heq =>
    rw [heq] at hpick
    exact .single hpick
  · next heq =>
    rw [heq] at hpick
    exact .head hpick (writes_connectFrom _ remotePort draw now)

lemma writes_connectTo (dst : Ipv6Addr) (remotePort : UInt16) (draw : Draw) (now : ℕ) :
    Writes m (m.connectTo dst remotePort draw now).1 := by
  have hsame := sameTable_pickPort (m := m) ephemeralSpan
  obtain ⟨-, hfree⟩ := pickPort_spec ephemeralSpan
  unfold connectTo
  split_ifs
  · exact .refl
  · exact .refl
  split
  · next heq =>
    rw [heq] at hsame
    exact .single (.same hsame)
  rename_i m' port heq
  rw [heq] at hsame hfree
  refine .head (.same hsame) (writes_dial ?_ fun e he haddr => ?_)
  · rw [show m'.conns = m.conns from hsame.conns]
    omega
  · have hport := congrArg Addr.localPort haddr
    exact hfree port rfl e (hsame.conns ▸ he) hport

/-! ## Input -/

lemma addr_of_tcpInput_listen (hst : c.state = .listen) (pkt : List UInt8) (iss : UInt32)
    (hsyn : (c.tcpInput pkt iss now).state = .synReceived) :
    (c.tcpInput pkt iss now).addr =
      { c.addr with remotePort := rd16 (pkt.drop ipv6HeaderLen) 0 } := by
  have hst' : (c.stamp now).state = .listen := hst
  unfold Conn.tcpInput at hsyn ⊢
  dsimp only at hsyn ⊢
  split at hsyn
  · rw [hst'] at hsyn
    cases hsyn
  · rw [hst'] at hsyn
    cases hsyn
  rename_i s hparse
  have hsport : s.sport = rd16 (pkt.drop ipv6HeaderLen) 0 := by
    unfold parse at hparse
    dsimp only at hparse
    split_ifs at hparse
    cases hparse
    rfl
  have hst'' : ((c.stamp now).noteSegment now).state = .listen := hst
  have hseg : (c.stamp now).inputSegment s iss now =
      if s.rst then ((c.stamp now).noteSegment now).inputRst s
      else ((c.stamp now).noteSegment now).inputListen s iss now := by
    simp [Conn.inputSegment, hst'']
  simp only [hseg] at hsyn ⊢
  split at hsyn
  · unfold Conn.inputRst at hsyn
    split at hsyn
    · cases hsyn
    · rw [hst''] at hsyn
      cases hsyn
  · next hrst =>
    rw [if_neg hrst]
    unfold Conn.inputListen at hsyn ⊢
    split at hsyn
    · next h =>
      rw [if_pos h, ← hsport]
      rfl
    · rw [hst''] at hsyn
      cases hsyn

lemma sameTable_register_dropAt (h : m.Valid) (c : Conn) :
    SameTable m ((m.register c).dropAt ((m.register c).conns.length - 1)) := by
  have hfresh : m.allocated ∉ m.backlog := fun hp => (h.fresh _ (h.queued _ hp)).ne rfl
  have hlast : (m.register c).dropAt ((m.register c).conns.length - 1) =
      { m with allocated := m.allocated + 1 } := by
    simp [register, dropAt, swapRemove, erase_of_not_mem hfresh]
  rw [hlast]
  exact ⟨rfl, rfl, Nat.le_succ _⟩

lemma acceptSyn_cases (h : m.Valid) (localIp : Ipv6Addr) (localPort : UInt16) (pkt : List UInt8)
    (draw : Draw) (now : ℕ) :
    SameTable m (m.acceptSyn localIp localPort pkt draw now) ∨
      ∃ c, Adds c true m (m.acceptSyn localIp localPort pkt draw now) ∧
        c.addr = ⟨localIp, m.remoteIp, localPort, rd16 (pkt.drop ipv6HeaderLen) 0⟩ := by
  unfold acceptSyn
  dsimp only
  split
  · exact .inl ⟨rfl, rfl, le_rfl⟩
  rename_i hroom
  split
  · exact .inl ⟨rfl, rfl, le_rfl⟩
  rename_i mem _
  split
  · exact .inl ⟨rfl, rfl, le_rfl⟩
  split
  · exact .inl (sameTable_register_dropAt h _)
  rename_i hsyn
  refine .inr ⟨_, ⟨rfl, rfl, rfl, by omega, fun _ => by omega, ?_⟩, ?_⟩
  · rw [not_not.mp hsyn]
    nofun
  · rw [addr_of_tcpInput_listen rfl pkt draw.iss (not_not.mp hsyn)]
    rfl

lemma inputUnowned_cases (h : m.Valid) (pkt : List UInt8) (draw : Draw) (sent : Bool) (now : ℕ) :
    SameTable m (m.inputUnowned pkt draw sent now) ∨
      ∃ c, Adds c true m (m.inputUnowned pkt draw sent now) ∧ c.addr = fourTuple pkt ∧
        (m.exitNode = false → c.addr.localIp = m.localIp ∧ m.isListening c.addr.localPort) := by
  unfold inputUnowned
  dsimp only
  split_ifs with hpeer hus hsyn hrst
  · exact .inl ⟨rfl, rfl, le_rfl⟩
  · exact .inl ⟨rfl, rfl, le_rfl⟩
  · rcases acceptSyn_cases h (fourTuple pkt).localIp (fourTuple pkt).localPort pkt draw now with
      hs | ⟨c, ha, haddr⟩
    · exact .inl hs
    · have htuple : c.addr = fourTuple pkt := by
        rw [haddr, ← not_not.mp hpeer]
        rfl
      refine .inr ⟨c, ha, htuple, fun hexit => ?_⟩
      have hself : (fourTuple pkt).localIp = m.localIp := by
        by_contra hne
        exact hus ⟨hne, hexit⟩
      rw [Bool.and_eq_true, admits, if_pos hself] at hsyn
      rw [htuple]
      exact ⟨hself, hsyn.2⟩
  · exact .inl ⟨rfl, rfl, le_rfl⟩
  · exact .inl ⟨rfl, rfl, le_rfl⟩

lemma input_cases (h : m.Valid) (pkt : List UInt8) (draw : Draw) (sent : Bool) (now : ℕ) :
    (∃ e ∈ m.conns, e.conn.addr = fourTuple pkt ∧
        Changes (fun d => if d.ptr = e.ptr then d.conn.tcpInput pkt draw.iss now else d.conn) m
          (m.input pkt draw sent now)) ∨
      ∃ m1 keep, Drops keep m m1 ∧ (∀ e ∈ m.conns, keep e = false → e.conn.addr = fourTuple pkt) ∧
        (SameTable m1 (m.input pkt draw sent now) ∨
          (∀ e ∈ m1.conns, e.conn.addr ≠ fourTuple pkt) ∧
          ∃ c, Adds c true m1 (m.input pkt draw sent now) ∧ c.addr = fourTuple pkt ∧
            (m.exitNode = false → c.addr.localIp = m.localIp ∧ m.isListening c.addr.localPort)) := by
  have hall : Drops (fun _ => true) m m := .of_forall h fun _ _ => rfl
  unfold input
  split
  · exact .inr ⟨m, _, hall, fun _ _ => Bool.noConfusion, .inl ⟨rfl, rfl, le_rfl⟩⟩
  dsimp only
  split
  · next e hfind =>
    obtain ⟨he, haddr⟩ := mem_of_findConn hfind
    split
    · -- The pair is reused: the connection in `TIME_WAIT` goes first.
      have hdrop := drops_dropPtr h e.ptr
      refine .inr ⟨_, _, hdrop, fun d hd hkeep => ?_, ?_⟩
      · rw [h.entry_inj hd he (by simpa using hkeep)]
        exact haddr
      refine (inputUnowned_cases (hdrop.valid h) pkt draw sent now).imp_right ?_
      rintro ⟨c, ha, htuple, hexit⟩
      rw [hdrop.exitNode, hdrop.localIp, hdrop.isListening] at hexit
      refine ⟨fun d hd heq => ?_, c, ha, htuple, hexit⟩
      obtain ⟨hd, hkeep⟩ := hdrop.mem_conns.mp hd
      rw [h.addr_inj hd he (heq.trans haddr.symm)] at hkeep
      simp at hkeep
    · have hf : ∀ c : Conn, c.state ≠ .listen → Mails c (c.tcpInput pkt draw.iss now) :=
        fun c hc => mails_step hc (.input pkt draw.iss now)
      exact .inl ⟨e, he, haddr, changes_updateConn h hf e.ptr⟩
  · next hfind =>
    refine .inr ⟨m, _, hall, fun _ _ => Bool.noConfusion, ?_⟩
    refine (inputUnowned_cases h pkt draw sent now).imp_right fun hc => ⟨fun e he => ?_, hc⟩
    exact ne_of_findConn_none hfind (fun ip hip => (Option.mem_some_iff.mp hip).symm) he

lemma writes_input (h : m.Valid) (pkt : List UInt8) (draw : Draw) (sent : Bool) (now : ℕ) :
    Writes m (m.input pkt draw sent now) := by
  rcases input_cases h pkt draw sent now with
    ⟨e, -, -, hch⟩ | ⟨m1, keep, hd, -, hs | ⟨hnew, c, ha, htuple, -⟩⟩
  · exact .single (.changes _ hch)
  · exact .tail (.single (.drops keep hd)) (.same hs)
  · exact .tail (.single (.drops keep hd)) (.adds c true ha (htuple ▸ hnew))

/-! ## Runs -/

lemma writes_step (h : m.Valid) (call : Call) : Writes m (m.step call) := by
  -- A call that leaves the table and the backlog alone.
  have hsame : ∀ {m' : Mux}, m'.conns = m.conns → m'.backlog = m.backlog →
      m'.allocated = m.allocated → Writes m m' :=
    fun hc hb ha => .single (.same ⟨hc, hb, ha.ge⟩)
  cases call with
  | listen port =>
    rw [step, listen]
    split_ifs <;> exact hsame rfl rfl rfl
  | unlisten port =>
    rw [step, unlisten]
    split_ifs <;> exact hsame rfl rfl rfl
  | setAcceptFilter fn => exact hsame rfl rfl rfl
  | setExitNode on => exact hsame rfl rfl rfl
  | connect remotePort draw now => exact writes_connect remotePort draw now
  | connectFrom localPort remotePort draw now =>
    exact writes_connectFrom localPort remotePort draw now
  | connectTo dst remotePort draw now => exact writes_connectTo dst remotePort draw now
  | input pkt draw sent now => exact writes_input h pkt draw sent now
  | accept =>
    rw [step, accept]
    split
    · exact .refl
    · next p rest hb => exact .single (.takes rfl (hb ▸ sublist_cons_self p rest) rfl)
  | tick now => exact .single (.changes _ (changes_tick h now))
  | close ptr now =>
    have hf : ∀ c : Conn, c.state ≠ .listen →
        Mails c (if c.state ≠ .closed then c.tcpAbort now else c) := by
      intro c hc
      split
      · exact mails_step hc (.abort now)
      · exact .refl c
    have hch := Write.changes _ (changes_updateConn h hf ptr)
    exact .tail (.single hch) (.drops _ (drops_dropPtr (hch.valid h) ptr))
  | reap => exact .single (.drops isOpen (drops_reap h))
  | onConn ptr call =>
    exact .single (.changes _ (changes_updateConn h (fun c hc => mails_step hc call) ptr))

lemma writes_run (h : m.Valid) (calls : List Call) : Writes m (m.run calls) := by
  induction calls generalizing m with
  | nil => exact .refl
  | cons call calls ih =>
    have hw := writes_step h call
    exact hw.trans (ih (hw.valid h))

/-- The invariant holds after any calls. -/
theorem valid_run (localIp remoteIp : Ipv6Addr) (seed : UInt16) (calls : List Call) :
    ((muxNew localIp remoteIp seed).run calls).Valid :=
  (writes_run (valid_muxNew localIp remoteIp seed) calls).valid (valid_muxNew localIp remoteIp seed)

/-! ## Isolation -/

def isOther (m : Mux) (tuple : Addr) (p : ℕ) : Bool :=
  m.conns.any fun e => e.ptr == p && e.conn.addr != tuple

/-- From `m` to `m'` only the connection with the ends `tuple` is concerned: every other is still in
the table, as it was and in its order in the backlog, and at most one connection is new, which has
these ends. -/
structure Isolated (tuple : Addr) (m m' : Mux) : Prop where
  kept : ∀ e ∈ m.conns, e.conn.addr ≠ tuple → e ∈ m'.conns
  order : m'.backlog.filter (m.isOther tuple) = m.backlog.filter (m.isOther tuple)
  added : (m'.conns.filter fun e => e.ptr ∉ m.ptrs).length ≤ 1
  tuple : ∀ e ∈ m'.conns, e.ptr ∉ m.ptrs → e.conn.addr = tuple

lemma isOther_iff : m.isOther tuple p = true ↔ ∃ e ∈ m.conns, e.ptr = p ∧ e.conn.addr ≠ tuple := by
  simp [isOther]

/-- Removing connections with these ends. -/
theorem Drops.isolated {keep : Entry → Bool} (hd : Drops keep m m')
    (hkeep : ∀ e ∈ m.conns, keep e = false → e.conn.addr = tuple) : Isolated tuple m m' := by
  have hkept : ∀ e ∈ m.conns, e.conn.addr ≠ tuple → e ∈ m'.conns := by
    intro e he hne
    refine hd.mem_conns.mpr ⟨he, ?_⟩
    by_contra hk
    exact hne (hkeep e he (by simpa using hk))
  have hold : ∀ e ∈ m'.conns, e.ptr ∈ m.ptrs :=
    fun e he => hd.ptrs_subset (mem_ptrs.mpr ⟨e, he, rfl⟩)
  refine ⟨hkept, ?_, ?_, fun e he hnew => absurd (hold e he) hnew⟩
  · rw [hd.backlog, filter_filter]
    refine filter_congr fun p _ => ?_
    simp only [Bool.and_eq_left_iff_imp, decide_eq_true_eq]
    intro ho
    obtain ⟨e, he, hp, hne⟩ := isOther_iff.mp ho
    exact mem_ptrs.mpr ⟨e, hkept e he hne, hp⟩
  · rw [filter_eq_nil_iff.mpr fun e he => by simpa using hold e he]
    exact Nat.zero_le 1

lemma Changes.isolated (hch : Changes f m m')
    (hf : ∀ e ∈ m.conns, e.conn.addr ≠ tuple → f e = e.conn) : Isolated tuple m m' := by
  have hold : ∀ e ∈ m'.conns, e.ptr ∈ m.ptrs := fun e he => hch.ptrs ▸ mem_ptrs.mpr ⟨e, he, rfl⟩
  refine ⟨fun e he hne => ?_, by rw [hch.backlog], ?_, fun e he hnew => absurd (hold e he) hnew⟩
  · rw [hch.conns, mem_map]
    exact ⟨e, he, by rw [hf e he hne]⟩
  · rw [filter_eq_nil_iff.mpr fun e he => by simpa using hold e he]
    exact Nat.zero_le 1

lemma isolated_input (h : m.Valid) (pkt : List UInt8) (draw : Draw) (sent : Bool) (now : ℕ) :
    Isolated (fourTuple pkt) m (m.input pkt draw sent now) := by
  rcases input_cases h pkt draw sent now with
    ⟨e, he, haddr, hch⟩ | ⟨m1, keep, hd, hkeep, hs | ⟨hnew, c, ha, htuple, -⟩⟩
  · refine hch.isolated fun d hd hne => if_neg fun hptr => hne ?_
    rw [h.entry_inj hd he hptr]
    exact haddr
  · obtain ⟨hkept, horder, hadded, htuple⟩ := hd.isolated hkeep
    rw [← hs.conns] at hkept hadded htuple
    rw [← hs.backlog] at horder
    exact ⟨hkept, horder, hadded, htuple⟩
  · obtain ⟨hkept, horder, -, -⟩ := hd.isolated hkeep
    have hold : ∀ e ∈ m1.conns, e.ptr ∈ m.ptrs :=
      fun e he => hd.ptrs_subset (mem_ptrs.mpr ⟨e, he, rfl⟩)
    -- The pointer of the connection added is fresh.
    have hfresh : m1.allocated ∉ m.ptrs := fun hp => (hd.allocated ▸ h.fresh _ hp).ne rfl
    refine ⟨fun e he hne => ?_, ?_, ?_, fun e he hptr => ?_⟩
    · rw [ha.conns]
      exact mem_append_left _ (hkept e he hne)
    · have hother : m.isOther (fourTuple pkt) m1.allocated = false := by
        by_contra ho
        obtain ⟨e, he, hp, -⟩ := isOther_iff.mp (by simpa using ho)
        exact hfresh (mem_ptrs.mpr ⟨e, he, hp⟩)
      rw [ha.backlog, filter_append, horder]
      simp [hother]
    · rw [ha.conns, filter_append, filter_eq_nil_iff.mpr fun e he => by simpa using hold e he]
      exact length_filter_le _ _
    · rw [ha.conns, mem_append, mem_singleton] at he
      rcases he with he | rfl
      · exact absurd (hold e he) hptr
      · exact htuple

/-- For every reachable multiplexer and every packet, an input leaves every connection with other
addresses and ports than the packet unchanged and in the table, keeps their order in the backlog,
and adds at most one connection, with exactly the addresses and ports of the packet. -/
theorem input_isolated (localIp remoteIp : Ipv6Addr) (seed : UInt16) (calls : List Call)
    (pkt : List UInt8) (draw : Draw) (sent : Bool) (now : ℕ) :
    Isolated (fourTuple pkt) ((muxNew localIp remoteIp seed).run calls)
      (((muxNew localIp remoteIp seed).run calls).input pkt draw sent now) :=
  isolated_input (valid_run localIp remoteIp seed calls) pkt draw sent now

/-! ## The table along a run -/

lemma accepted_local (h : m.Valid) {pkt : List UInt8} {sent : Bool} (hexit : m.exitNode = false)
    (hp : p ∈ (m.input pkt draw sent now).backlog) (hnew : p ∉ m.backlog) :
    ∃ e ∈ (m.input pkt draw sent now).conns, e.ptr = p ∧
      e.conn.addr.localIp = m.localIp ∧ m.isListening e.conn.addr.localPort := by
  rcases input_cases h pkt draw sent now with
    ⟨e, -, -, hch⟩ | ⟨m1, keep, hd, -, hs | ⟨-, c, ha, -, hlocal⟩⟩
  · exact absurd (hch.backlog ▸ hp) hnew
  · rw [hs.backlog, hd.backlog] at hp
    exact absurd (mem_of_mem_filter hp) hnew
  · rw [ha.backlog, mem_append, if_pos rfl, mem_singleton, hd.backlog] at hp
    rcases hp with hp | rfl
    · exact absurd (mem_of_mem_filter hp) hnew
    refine ⟨⟨m1.allocated, c⟩, ?_, rfl, hlocal hexit⟩
    rw [ha.conns]
    exact mem_append_right _ (mem_singleton_self _)

/-- After any calls: the table is within its bounds, its connections have different ends and none
listens, and the backlog holds connections of the table, each once, within its bound and in the
order of arrival (`Valid`); reaping removes exactly the closed connections, from the table and from
the backlog; and a connection that a packet has put on the backlog while exit-node mode was off has,
as long as it is in the table, our own address and a port that was listening at that moment as its
local end. -/
theorem table_invariant (localIp remoteIp : Ipv6Addr) (seed : UInt16) (calls : List Call) :
    let m := (muxNew localIp remoteIp seed).run calls
    m.Valid ∧
      (m.reap.1.conns.Perm (m.conns.filter fun e => e.conn.state ≠ .closed) ∧
        m.reap.1.backlog = m.backlog.filter fun p => p ∈ m.reap.1.ptrs) ∧
      ∀ (pkt : List UInt8) (draw : Draw) (sent : Bool) (now : ℕ) (later : List Call),
        m.exitNode = false →
        ∀ p ∈ (m.input pkt draw sent now).backlog, p ∉ m.backlog →
        p ∈ (m.input pkt draw sent now).ptrs ∧
          ∀ e ∈ ((m.input pkt draw sent now).run later).conns, e.ptr = p →
            e.conn.addr.localIp = m.localIp ∧ m.isListening e.conn.addr.localPort := by
  intro m
  have h : m.Valid := valid_run localIp remoteIp seed calls
  have hreap := drops_reap h
  have hopen : isOpen = fun e : Entry => decide (e.conn.state ≠ .closed) := by
    funext e
    rw [isOpen, Bool.eq_iff_iff, bne_iff_ne, decide_eq_true_eq]
  refine ⟨h, ⟨hopen ▸ hreap.conns, hreap.backlog⟩, ?_⟩
  intro pkt draw sent now later hexit p hp hnew
  obtain ⟨d, hd, rfl, hlocal⟩ := accepted_local h hexit hp hnew
  have hv : (m.input pkt draw sent now).Valid := (writes_input h pkt draw sent now).valid h
  have hdptr : d.ptr ∈ (m.input pkt draw sent now).ptrs := mem_ptrs.mpr ⟨d, hd, rfl⟩
  refine ⟨hdptr, fun e he heq => ?_⟩
  -- Its ends are those it was accepted with, as its pointer is not given out again.
  rcases (writes_run hv later).persists.addr e he with hfresh | ⟨d', hd', hptr, haddr⟩
  · have := hv.fresh _ hdptr
    omega
  · rw [hv.entry_inj hd' hd (hptr.trans heq)] at haddr
    rw [← haddr]
    exact hlocal

/-- In every run a connection keeps its ends: one that is in the table later was there with the same
ends, or has been added since. -/
theorem ends_persist (localIp remoteIp : Ipv6Addr) (seed : UInt16) (calls later : List Call) :
    let m := (muxNew localIp remoteIp seed).run calls
    Persists m (m.run later) :=
  (writes_run (valid_run localIp remoteIp seed calls) later).persists

end Mux

end Tcp
