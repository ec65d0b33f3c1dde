import Tailcat.Library.Run
import Tailcat.Ssh.Client

/-!
# The data that an application reads

A read fills the packet buffer only when nothing is unread, so reads alone hand out what was received,
in order. A write that waits for the peer's window receives packets as well: they take the place of the
unread data, and data among them is dropped.

## Main results

* `input_kept`: where no write does this, and the peer keeps to its window and to the rules of a key
  exchange, the application reads what was received;
* `input_lost`: in general it does not.
-/

namespace Ssh

open ByteOrder Fields Program Conn List

/-! ## The data of a packet -/

/-- The data in a packet, if it is a packet of data for the channel. -/
def dataOf (localId : ℕ) (payload : List UInt8) : List UInt8 :=
  let (msg, r) := (Rbuf.init payload).getByte
  let (id, r) := r.getU32
  match r.getString maxPayload with
  | (some (i, n), _) =>
    if msg = msgChannelData ∧ id = localId then slice payload i n else []
  | (none, _) => []

def dataIn (localId : ℕ) (taken : List Taken) : List UInt8 :=
  taken.flatMap fun t => dataOf localId t.payload

lemma dataIn_append (localId : ℕ) (l l' : List Taken) :
    dataIn localId (l ++ l') = dataIn localId l ++ dataIn localId l' :=
  flatMap_append

lemma dataIn_eq_nil {localId : ℕ} {l : List Taken} (h : ∀ t ∈ l, dataOf localId t.payload = []) :
    dataIn localId l = [] :=
  flatMap_eq_nil_iff.mpr h

variable {ch ch' : Channel} {payload : List UInt8} {localId i n : ℕ} {new : List Taken}

lemma dataOf_eq_slice {r : Rbuf} (hmsg : (Rbuf.init payload).getByte.1 = msgChannelData)
    (hid : (Rbuf.init payload).getByte.2.getU32.1 = localId)
    (hstring : (Rbuf.init payload).getByte.2.getU32.2.getString maxPayload = (some (i, n), r)) :
    dataOf localId payload = slice payload i n := by
  simp [dataOf, hstring, hmsg, hid]

lemma dataOf_eq_nil (h : (Rbuf.init payload).getByte.1 ≠ msgChannelData ∨
    (Rbuf.init payload).getByte.2.getU32.1 ≠ localId) : dataOf localId payload = [] := by
  unfold dataOf
  dsimp only
  split
  · exact if_neg fun hboth => h.elim (· hboth.1) (· hboth.2)
  · rfl

lemma dataOf_eq_nil_of_type (h : payload.getD 0 0 ≠ msgChannelData) : dataOf localId payload =
    [] :=
  dataOf_eq_nil (.inl (by rwa [Rbuf.getByte_init]))

/-- What `tc_ssh_channel_data_parse` makes of a packet: it finds the data, or the packet has none or
more than the window allows. -/
lemma channelDataParse_spec (ch : Channel) (payload : List UInt8) :
    (∃ i n, channelDataParse ch payload =
        .ok ({ ch with localWindow := ch.localWindow - n }, i, n) ∧ i + n ≤ payload.length ∧
      slice payload i n = dataOf ch.localId payload) ∨
    ∃ e, channelDataParse ch payload = .error e ∧ e ≠ .done ∧
      (dataOf ch.localId payload = [] ∨ ch.localWindow < (dataOf ch.localId payload).length) := by
  have hwithin := (Rbuf.within_init payload).getByte.getU32
  unfold channelDataParse
  dsimp only
  split
  · next hmsg => exact .inr ⟨_, rfl, nofun, .inl (dataOf_eq_nil (.inl hmsg))⟩
  rename_i hmsg
  split
  · next hid => exact .inr ⟨_, rfl, nofun, .inl (dataOf_eq_nil (.inr hid))⟩
  rename_i hid
  split
  · next hstring => exact .inr ⟨_, rfl, nofun, .inl (by simp [dataOf, hstring])⟩
  rename_i j m _ hstring
  have hbounds := hwithin.getString (congrArg Prod.fst hstring)
  have hdata := dataOf_eq_slice (not_not.mp hmsg) (not_not.mp hid) hstring
  split
  · refine .inr ⟨_, rfl, nofun, .inr ?_⟩
    rw [hdata, slice, length_take, length_drop]
    omega
  · exact .inl ⟨j, m, rfl, hbounds.1, hdata.symm⟩

/-! ## What is kept -/

namespace Conn

/-- The data that was received has been read or is unread. -/
structure Kept (c : Conn) : Prop where
  len : c.pendingData.length = c.pendingLen
  data : dataIn c.ch.localId c.taken = c.delivered ++ c.pendingData

/-- The fields that the data depends on are the same. -/
structure Alike (c c' : Conn) : Prop where
  payload : c'.payload = c.payload
  pending : c'.pending = c.pending
  pendingLen : c'.pendingLen = c.pendingLen
  taken : c'.taken = c.taken
  delivered : c'.delivered = c.delivered
  localId : c'.ch.localId = c.ch.localId

variable {c c' c'' : Conn}

lemma Alike.trans (h : Alike c c') (h' : Alike c' c'') : Alike c c'' where
  payload := h'.payload.trans h.payload
  pending := h'.pending.trans h.pending
  pendingLen := h'.pendingLen.trans h.pendingLen
  taken := h'.taken.trans h.taken
  delivered := h'.delivered.trans h.delivered
  localId := h'.localId.trans h.localId

lemma Frame.alike (h : Frame c c') : Alike c c' where
  payload := h.payload
  pending := h.pending
  pendingLen := h.pendingLen
  taken := h.taken
  delivered := h.delivered
  localId := by rw [h.ch]

lemma Kept.alike (h : Kept c) (ha : Alike c c') : Kept c' := by
  have hdata : c'.pendingData = c.pendingData := by
    rw [pendingData, ha.payload, ha.pending, ha.pendingLen, pendingData]
  refine ⟨?_, ?_⟩
  · rw [hdata, ha.pendingLen, h.len]
  · rw [ha.localId, ha.taken, ha.delivered, hdata, h.data]

lemma pendingData_eq_nil (h : c.pendingLen = 0) : c.pendingData = [] := by
  rw [pendingData, h, slice, take_zero]

lemma Kept.effect (h : Kept c) (hzero : c.pendingLen = 0) (he : Effect new c c')
    (hnew : ∀ t ∈ new, dataOf c.ch.localId t.payload = []) : Kept c' := by
  have hzero' : c'.pendingLen = 0 := he.pendingLen.trans hzero
  have hid : c'.ch.localId = c.ch.localId := by rw [he.ch]
  refine ⟨?_, ?_⟩
  · rw [pendingData_eq_nil hzero', hzero', length_nil]
  · rw [hid, he.taken, dataIn_append, dataIn_eq_nil hnew, h.data, he.delivered,
      pendingData_eq_nil hzero, pendingData_eq_nil hzero', append_nil]

/-- If the packets that were received since `c` are all good, the property holds. -/
abbrev Given (good : Taken → Prop) (c : Conn) (P : Conn → Prop) (c' : Conn) : Prop :=
  Program.Given taken good c P c'

end Conn

/-! ## Reading -/

/-- A packet whose data a read with this channel finds: it comes outside of key exchanges and keeps to
the window. -/
def Taken.Readable (ch : Channel) (t : Taken) : Prop :=
  dataOf ch.localId t.payload = [] ∨
    t.inKex = false ∧ (dataOf ch.localId t.payload).length ≤ ch.localWindow
deriving Decidable

lemma Taken.Readable.dataOf_eq_nil {t : Taken} (h : t.Readable ch) (haside : t.Aside) :
    dataOf ch.localId t.payload = [] := by
  rcases haside with hkex | htype
  · exact h.resolve_right fun hdata => by simp [hkex] at hdata
  refine dataOf_eq_nil_of_type fun hmsg => ?_
  rw [Taken.msgType, hmsg] at htype
  exact absurd htype (by decide)

variable (S : Suite) (opts : ServerOpts) (cap : ℕ)

namespace Conn

variable {c0 c c' : Conn}

/-- What holds while a read that was called with the channel `ch` waits for data. -/
structure Reading (ch : Channel) (c : Conn) : Prop extends Kept c where
  localId : c.ch.localId = ch.localId
  window : c.pendingLen = 0 → c.ch.localWindow = ch.localWindow

lemma Reading.alike (h : Reading ch c) (ha : Alike c c')
    (hwindow : c'.ch.localWindow = c.ch.localWindow) : Reading ch c' where
  toKept := h.toKept.alike ha
  localId := ha.localId.trans h.localId
  window := fun hzero => hwindow.trans (h.window (ha.pendingLen.symm.trans hzero))

lemma Reading.effect (h : Reading ch c) (hzero : c.pendingLen = 0) (he : Effect new c c')
    (hnew : ∀ t ∈ new, dataOf ch.localId t.payload = []) :
    Reading ch c' where
  toKept := h.toKept.effect hzero he (h.localId ▸ hnew)
  localId := by rw [he.ch, h.localId]
  window := fun _ => by rw [he.ch, h.window hzero]

/-- A read that has received packets since it was called in `c0`. -/
def ReadingSince (c0 c : Conn) : Prop := Given (Taken.Readable c0.ch) c0 (Reading c0.ch) c

lemma ReadingSince.start (h : Kept c) : ReadingSince c c := Given.start ⟨h, rfl, fun _ => rfl⟩

section

variable (h : ReadingSince c0 c)

include h

lemma ReadingSince.alike (ha : Alike c c')
    (hwindow : c'.ch.localWindow = c.ch.localWindow) : ReadingSince c0 c' :=
  Given.quiet h ha.taken fun hreading => hreading.alike ha hwindow

lemma ReadingSince.aside (hzero : c.pendingLen = 0) (ha : Aside c c') : ReadingSince c0 c' := by
  obtain ⟨new, hnew, he⟩ := ha
  refine Given.next h he.taken fun hgood hreading => hreading.effect hzero he fun t ht => ?_
  exact (hgood t ht).dataOf_eq_nil (hnew t ht)

lemma ReadingSince.received (hzero : c.pendingLen = 0)
    (hr : Received false c n c') (hmsg : c'.msgType ≠ msgChannelData) : ReadingSince c0 c' := by
  obtain ⟨-, new, payload, hnew, hne, -, hpayload, he⟩ := hr
  refine Given.next h he.taken fun hgood hreading => hreading.effect hzero he ?_
  obtain ⟨hgood, -⟩ := forall_mem_append.mp hgood
  refine forall_mem_append.mpr ⟨fun t ht => (hgood t ht).dataOf_eq_nil (hnew t ht), ?_⟩
  rw [msgType_of_take hpayload hne] at hmsg
  exact forall_mem_singleton.mpr (dataOf_eq_nil_of_type hmsg)

lemma ReadingSince.noteData (hzero : c.pendingLen = 0) (hr : Received false c n c') :
    wp (noteData n) (fun _ c'' => ReadingSince c0 c'')
      (fun e c'' => e ≠ .done ∧ ReadingSince c0 c'') c' := by
  obtain ⟨-, new, payload, hnew, -, -, hpayload, he⟩ := hr
  have hid : c'.ch.localId = c.ch.localId := by rw [he.ch]
  have hwindow : c'.ch.localWindow = c.ch.localWindow := by rw [he.ch]
  -- the packets before it have no data
  have hdata : ∀ t, (∀ t' ∈ new ++ [t], t'.Readable c0.ch) → Reading c0.ch c →
      dataIn c.ch.localId (c.taken ++ (new ++ [t])) = c.delivered ++ dataOf c.ch.localId t.payload := by
    intro t hgood hreading
    obtain ⟨hgood, -⟩ := forall_mem_append.mp hgood
    rw [dataIn_append, dataIn_append, hreading.data, pendingData_eq_nil hzero,
      hreading.localId, dataIn_eq_nil fun t ht => (hgood t ht).dataOf_eq_nil (hnew t ht)]
    simp [dataIn]
  unfold Conn.noteData
  simp only [wp_bind, wp_modify, wp_get, hpayload]
  rcases channelDataParse_spec c'.ch payload with
    ⟨i, m, hparse, hbounds, hslice⟩ | ⟨e, hparse, hdone, hrefused⟩ <;> rw [hparse]
  swap
  · refine ⟨hdone, Given.next h he.taken fun hgood hreading => ?_⟩
    -- the peer keeps to the window, so the packet has no data
    obtain ⟨-, hreadable⟩ := forall_mem_append.mp hgood
    have hfit := forall_mem_singleton.mp hreadable
    have hnil : dataOf c0.ch.localId payload = [] := by
      rw [hid, hwindow, hreading.localId, hreading.window hzero] at hrefused
      exact hfit.elim id fun hfit => hrefused.resolve_right (Nat.not_lt.mpr hfit.2)
    refine ⟨⟨?_, ?_⟩, hid.trans hreading.localId, fun _ => hwindow.trans (hreading.window hzero)⟩
    · simp [pendingData, slice]
    · rw [hid, he.taken, hdata _ hgood hreading, hreading.localId, hnil, he.delivered]
      simp [pendingData, slice]
  · refine Given.next h he.taken fun hgood hreading => ?_
    have hunread : slice c'.payload i m = slice payload i m := by
      rw [← hpayload, length_take] at hbounds
      rw [← hpayload, slice, slice, drop_take, take_take, Nat.min_eq_left (by omega)]
    refine ⟨⟨?_, ?_⟩, hid.trans hreading.localId, ?_⟩
    · rw [pendingData, hunread, slice, length_take, length_drop]
      exact Nat.min_eq_left (by omega)
    · rw [hid, he.taken, hdata _ hgood hreading, he.delivered, pendingData, hunread, hslice, hid]
    · rintro rfl
      exact hwindow.trans (hreading.window hzero)

end

lemma alike_sendPacket (h : ch'.localId = c.ch.localId) (msg : List UInt8) :
    wp (sendPacket msg) (fun _ c' => Alike c c') (fun e c' => e ≠ .done ∧ Alike c c')
      { c with ch := ch' } := by
  have hset : Alike c { c with ch := ch' } := ⟨rfl, rfl, rfl, rfl, rfl, h⟩
  exact (frame_sendPacket msg _).mono (fun _ _ h => hset.trans h.alike) fun _ _ h =>
    ⟨h.1, hset.trans h.2.alike⟩

lemma wp_replenish (c : Conn) :
    wp replenish (fun _ c' => Alike c c') (fun e c' => e ≠ .done ∧ Alike c c') c := by
  have hrefl : Alike c c := (Frame.refl c).alike
  unfold replenish
  simp only [wp_bind, wp_get]
  split
  · next inc _ =>
    rw [wp_bind]
    cases hbuild : channelWindowAdjustBuild 32 c.ch inc with
    | error e => exact ⟨channelWindowAdjustBuild_ne_done hbuild, hrefl⟩
    | ok built =>
      exact alike_sendPacket (by rw [of_channelWindowAdjustBuild hbuild]) built.2
  · exact hrefl

lemma Kept.take (h : Kept c) (k : ℕ) :
    Kept { c with
      pending := c.pending + k, pendingLen := c.pendingLen - k
      delivered := c.delivered ++ c.pendingData.take k } := by
  have hrest : slice c.payload (c.pending + k) (c.pendingLen - k) = c.pendingData.drop k := by
    rw [pendingData, slice, slice, drop_take, drop_drop]
  refine ⟨?_, ?_⟩
  · rw [pendingData, hrest, length_drop, h.len]
  · dsimp only [pendingData]
    rw [hrest, ← pendingData, append_assoc, take_append_drop, h.data]

lemma wp_takePending (c : Conn) :
    wp (takePending cap) (fun _ c' => c'.taken = c.taken ∧ (Kept c → Kept c'))
      (fun e c' => e ≠ .done ∧ c'.taken = c.taken ∧ (Kept c → Kept c')) c := by
  unfold takePending
  rw [wp_bind]
  refine (wp_replenish c).mono ?_ fun e c1 h => ⟨h.1, h.2.taken, fun hkept => hkept.alike h.2⟩
  intro _ c1 ha
  exact ⟨ha.taken, fun hkept => (hkept.alike ha).take _⟩

end Conn

namespace Server

variable {s0 s s' : Server}

def Waits (s0 s : Server) : Prop := s.inKex = false ∧ s0.toConn.ReadingSince s.toConn

def ReadFails (s0 : Server) (e : Err) (s : Server) : Prop :=
  Waits s0 s ∧ (e = .done → s.pendingLen = 0)

lemma frame_tryReply (accept : Bool) (s : Server) :
    wp (tryReply accept) (fun _ s' => s'.inKex = s.inKex ∧ s.toConn.Frame s'.toConn)
      (fun _ _ => False) s := by
  unfold tryReply
  rw [wp_bind, wp_get]
  split
  · exact ⟨rfl, .refl _⟩
  rename_i msg _
  rw [wp_bind, wp_attempt, onConn, wp_zoom]
  exact (frame_sendPacket msg s.toConn).mono (fun _ _ h => ⟨rfl, h⟩) fun _ _ h => ⟨rfl, h.2⟩

lemma frame_noteRequest (n : ℕ) (s : Server) :
    wp (noteRequest n) (fun _ s' => s'.inKex = s.inKex ∧ s.toConn.Frame s'.toConn)
      (fun _ _ => False) s := by
  unfold noteRequest
  rw [wp_bind, wp_get]
  split
  · exact ⟨rfl, .refl _⟩
  rename_i req _
  -- only fields of the terminal have changed
  have hset : ∀ s1 : Server, s1.inKex = s.inKex → s1.toConn = s.toConn →
      wp (if req.wantReply then tryReply (req.type = .windowChange && s.hasPty) else pure ())
        (fun _ s' => s'.inKex = s.inKex ∧ s.toConn.Frame s'.toConn) (fun _ _ => False) s1 := by
    intro s1 hkex hconn
    rw [wp_ite]
    refine ⟨fun _ => ?_, fun _ => ⟨hkex, hconn ▸ .refl _⟩⟩
    exact (frame_tryReply _ s1).mono (fun _ s' h => ⟨h.1.trans hkex, hconn ▸ h.2⟩) fun _ _ h => h
  refine hset _ ?_ ?_
  · split <;> rfl
  · split <;> rfl

lemma wp_readDispatch {n : ℕ} (h : Waits s0 s) (hzero : s.pendingLen = 0) (hr : Received s n s') :
    wp (readDispatch n) (fun _ s'' => Waits s0 s'') (fun e s'' => ReadFails s0 e s'') s' := by
  obtain ⟨hkex, hsince⟩ := h
  obtain ⟨-, hkex', hr⟩ := hr
  rw [hkex] at hr hkex'
  have hzero' : s'.pendingLen = 0 := by
    obtain ⟨-, _, _, -, -, -, -, he⟩ := hr
    exact he.pendingLen.trans hzero
  have hother := hsince.received hzero hr
  unfold readDispatch
  simp only [wp_bind, wp_get, wp_ite]
  refine ⟨fun _ => ?_, fun hdata => ⟨fun _ => ?_, fun _ => ⟨fun _ => ?_, fun _ => ⟨fun _ => ?_,
    fun _ => ⟨fun _ => ?_, fun _ => ⟨hkex', hother hdata⟩⟩⟩⟩⟩⟩
  · rw [onConn, wp_zoom]
    exact (hsince.noteData hzero hr).mono (fun _ _ h => ⟨hkex', h⟩) fun _ _ h =>
      ⟨⟨hkex', h.2⟩, fun hdone => absurd hdone h.1⟩
  · rw [onConn, wp_zoom]
    refine (wp_noteAdjust n s'.toConn).mono (fun _ c h => ⟨hkex', ?_⟩) fun _ c h => ?_
    · exact (hother hdata).alike h.alike (by rw [h.ch])
    · rw [h]
      exact ⟨⟨hkex', hother hdata⟩, fun _ => hzero'⟩
  · exact ⟨hkex', (hother hdata).alike ⟨rfl, rfl, rfl, rfl, rfl, rfl⟩ rfl⟩
  · exact ⟨⟨hkex', (hother hdata).alike ⟨rfl, rfl, rfl, rfl, rfl, rfl⟩ rfl⟩, fun _ => hzero'⟩
  · refine (frame_noteRequest n s').mono (fun _ s'' h => ⟨h.1.trans hkex', ?_⟩) fun _ _ h => h.elim
    exact (hother hdata).alike h.2.alike (by rw [h.2.ch])

lemma wp_readStep (h : Waits s0 s) :
    wp (readStep S opts ()) (fun _ s' => Waits s0 s') (fun e s' => ReadFails s0 e s') s := by
  unfold readStep
  simp only [wp_bind, wp_get, wp_ite]
  refine ⟨fun _ => h, fun hzero => ?_⟩
  have hzero : s.pendingLen = 0 := not_not.mp hzero
  refine ⟨fun _ => ⟨h, fun _ => hzero⟩, fun _ => ?_⟩
  refine (wp_recvPacket S opts s).mono (fun n s' hr => ?_) ?_
  · rw [wp_bind]
    exact wp_readDispatch h hzero hr
  · rintro e s' ⟨-, hkex, ha⟩
    refine ⟨⟨hkex.trans h.1, h.2.aside hzero ha⟩, fun _ => ?_⟩
    obtain ⟨new, -, he⟩ := ha
    exact he.pendingLen.trans hzero

lemma wp_read (hkex : s.inKex = false) (hkept : s.Kept) :
    wp (read S opts cap)
      (fun _ s' => s'.inKex = false ∧ s.Given (Taken.Readable s.ch) Kept s'.toConn)
      (fun e s' => (s'.inKex = false ∧ s.Given (Taken.Readable s.ch) Kept s'.toConn) ∧
        (e = .done → s'.pendingLen = 0)) s := by
  have hdone : ∀ s', Waits s s' →
      s'.inKex = false ∧ s.Given (Taken.Readable s.ch) Kept s'.toConn := fun s' h =>
    ⟨h.1, h.2.mono Reading.toKept⟩
  unfold read
  simp only [wp_bind, wp_get]
  refine wp_loop_of_out (I := fun _ s' => Waits s s') ?_ ?_ ⟨hkex, .start hkept⟩
  · intro _ s1 h
    refine (wp_readStep S opts h).mono ?_ fun e s' h => ⟨hdone s' h.1, h.2⟩
    rintro (_ | _) s' h
    · exact h
    · rw [onConn, wp_zoom]
      have hkept' := (hdone s' h).2
      refine (wp_takePending cap s'.toConn).mono (fun _ c' hc => ⟨h.1, ?_⟩) fun e c' hc => ?_
      · exact hkept'.quiet hc.1 hc.2
      · exact ⟨⟨h.1, hkept'.quiet hc.2.1 hc.2.2⟩, fun hdone => absurd hdone hc.1⟩
  · exact fun _ s' h => ⟨hdone s' h, by simp⟩

end Server

/-! ## Writing -/

namespace Conn

variable {c0 c c' : Conn} {data data' : List UInt8}

lemma wp_writeSome (data : List UInt8) (c : Conn) :
    wp (writeSome data)
      (fun n c' => Sends c c' ∧ (data.length ≤ c.ch.remoteWindow → data.drop n = []))
      (fun _ c' => Sends c c') c := by
  unfold writeSome
  -- what is left stays within what is left of the window
  refine wp_loop_of_out (I := fun (v : List UInt8 × ℕ) c1 => Sends c c1 ∧ v.1 = data.drop v.2 ∧
    (data.length ≤ c.ch.remoteWindow → v.1.length ≤ c1.ch.remoteWindow)) ?_ ?_ ?_
  case refine_2 => exact fun _ _ h => h.1
  case refine_3 => exact ⟨.refl c, rfl, id⟩
  rintro ⟨left, count⟩ c1 ⟨hsends, hleft, hfits⟩
  unfold writeSomeStep
  rw [wp_bind, wp_get, wp_ite]
  refine ⟨fun hend => ⟨hsends, fun hroom => ?_⟩, fun _ => ?_⟩
  · rw [← hleft]
    simp only [Bool.or_eq_true, decide_eq_true_eq] at hend
    refine hend.elim id fun hshut => length_eq_zero_iff.mp ?_
    exact Nat.le_zero.mp (hshut ▸ hfits hroom)
  · rw [wp_bind]
    refine (wp_sendChunk left c1).mono ?_ fun _ _ h => hsends.trans h
    rintro n c2 ⟨hsends', -, hwindow⟩
    refine ⟨hsends.trans hsends', ?_, fun hroom => ?_⟩
    · rw [← drop_drop, ← hleft]
    · rw [length_drop]
      omega

/-- What holds while a write that was called with the channel `ch` has this data left: nothing is
unread, or the data can be sent at once. -/
structure Writing (ch : Channel) (left : List UInt8) (c : Conn) : Prop extends Kept c where
  localId : c.ch.localId = ch.localId
  room : c.pendingLen = 0 ∨ left.length ≤ c.ch.remoteWindow

abbrev NoData (ch : Channel) (t : Taken) : Prop := dataOf ch.localId t.payload = []

/-- A write that has received packets since it was called in `c0`. -/
def WritingSince (c0 : Conn) (data : List UInt8) (c : Conn) : Prop :=
  Given (NoData c0.ch) c0 (Writing c0.ch data) c

lemma WritingSince.start (h : Kept c) (hroom : c.pendingLen = 0 ∨ data.length ≤ c.ch.remoteWindow) :
    WritingSince c data c :=
  Given.start ⟨h, rfl, hroom⟩

lemma WritingSince.kept (h : WritingSince c0 data c) : Given (NoData c0.ch) c0 Kept c :=
  Given.mono h Writing.toKept

lemma WritingSince.frame (h : WritingSince c0 data c) (hf : Frame c c')
    (hroom : data.length ≤ c.ch.remoteWindow → data'.length ≤ c'.ch.remoteWindow) :
    WritingSince c0 data' c' := by
  refine Given.quiet h hf.taken fun hw => ?_
  refine ⟨hw.toKept.alike hf.alike, hf.alike.localId.trans hw.localId, ?_⟩
  exact hw.room.imp hf.pendingLen.trans hroom

lemma WritingSince.effect (h : WritingSince c0 data c) (hshort : ¬data.length ≤ c.ch.remoteWindow)
    (he : Effect new c c') :
    WritingSince c0 data' c' := by
  refine Given.next h he.taken fun hgood hw => ?_
  have hzero : c.pendingLen = 0 := hw.room.resolve_right hshort
  refine ⟨hw.toKept.effect hzero he (hw.localId ▸ hgood), ?_, .inl (he.pendingLen.trans hzero)⟩
  rw [he.ch, hw.localId]

end Conn

namespace Server

variable {data : List UInt8}

lemma wp_writeStep {s0 s : Server} (hkex : s.inKex = false) (h : s0.WritingSince data s.toConn) :
    wp (writeStep S opts data)
      (fun r s' => s'.inKex = false ∧ match r with
        | .inl data' => s0.WritingSince data' s'.toConn
        | .inr _ => s0.Given (NoData s0.ch) Kept s'.toConn)
      (fun _ s' => s'.inKex = false ∧ s0.Given (NoData s0.ch) Kept s'.toConn) s := by
  have hsent : ∀ {c : Conn}, s.Sends c → s0.WritingSince [] c := fun hsends =>
    h.frame hsends.toFrame fun _ => Nat.zero_le _
  unfold writeStep
  rw [wp_ite]
  refine ⟨fun _ => ⟨hkex, h.kept⟩, fun _ => ?_⟩
  rw [wp_bind, onConn, wp_zoom]
  refine (wp_writeSome data s.toConn).mono ?_ fun _ c hsends => ⟨hkex, (hsent hsends).kept⟩
  rintro wrote c ⟨hsends, hall⟩
  rw [wp_ite]
  refine ⟨fun _ => ⟨hkex, (hsent hsends).kept⟩, fun hleft => ?_⟩
  -- the data did not fit the window
  have hshort : ¬data.length ≤ s.ch.remoteWindow := fun hroom => hleft (hall hroom)
  rw [wp_bind]
  refine (wp_recvPacket S opts { s with toConn := c }).mono ?_ ?_
  · rintro n s' ⟨-, hkex', -, new, payload, -, -, -, -, he⟩
    have hs' : ∀ {c'}, s'.Sends c' → s0.WritingSince (data.drop wrote) c' := fun hadjust =>
      h.effect hshort (hsends.effect.trans (he.trans hadjust.effect))
    simp only [wp_bind, wp_get, wp_ite]
    refine ⟨fun _ => ?_, fun _ => ⟨fun _ => ⟨hkex'.trans hkex, (hs' (.refl _)).kept⟩,
      fun _ => ⟨hkex'.trans hkex, hs' (.refl _)⟩⟩⟩
    rw [onConn, wp_zoom]
    refine (wp_noteAdjust n s'.toConn).mono (fun _ c' hc' => ⟨hkex'.trans hkex, hs' hc'⟩) ?_
    rintro _ c' rfl
    exact ⟨hkex'.trans hkex, (hs' (.refl _)).kept⟩
  · rintro _ s' ⟨-, hkex', new, -, he⟩
    have hs' : s0.WritingSince [] s'.toConn := h.effect hshort (hsends.effect.trans he)
    exact ⟨hkex'.trans hkex, hs'.kept⟩

lemma wp_write {s : Server} (hkex : s.inKex = false)
    (hkept : s.Kept) (hroom : s.pendingLen = 0 ∨ data.length ≤ s.ch.remoteWindow) :
    wp (write S opts data) (fun _ s' => s'.inKex = false ∧ s.Given (NoData s.ch) Kept s'.toConn)
      (fun _ s' => s'.inKex = false ∧ s.Given (NoData s.ch) Kept s'.toConn) s := by
  unfold write
  refine wp_loop_of_out
    (I := fun left s' => s'.inKex = false ∧ s.WritingSince left s'.toConn) ?_ ?_ ?_
  · rintro left s1 ⟨hkex1, h⟩
    refine (wp_writeStep S opts hkex1 h).mono ?_ fun _ _ h => h
    rintro (left' | _) s' h'
    · exact h'
    · exact h'
  · exact fun _ s1 h => ⟨h.1, h.2.kept⟩
  · exact ⟨hkex, .start hkept hroom⟩

lemma frame_exit (status : ℕ) (s : Server) :
    wp (exit status) (fun _ s' => s'.inKex = s.inKex ∧ s.Frame s'.toConn)
      (fun _ s' => s'.inKex = s.inKex ∧ s.Frame s'.toConn) s := by
  unfold exit
  rw [wp_bind, wp_get, wp_bind]
  cases channelExitStatusBuild 64 s.ch status with
  | error e => exact ⟨rfl, .refl _⟩
  | ok msg =>
    rw [wp_ofExcept_ok, onConn, wp_zoom]
    exact (frame_sendPacket msg s.toConn).mono (fun _ _ h => ⟨rfl, h⟩) fun _ _ h => ⟨rfl, h.2⟩

end Server

namespace Client

variable {c0 c c' : Conn} {data : List UInt8}

lemma wp_readDispatch (h : c0.ReadingSince c) (hzero : c.pendingLen = 0)
    (hr : c.Received false n c') :
    wp (readDispatch n) (fun _ c'' => c0.ReadingSince c'')
      (fun e c'' => c0.ReadingSince c'' ∧ (e = .done → c''.pendingLen = 0)) c' := by
  have hzero' : c'.pendingLen = 0 := by
    obtain ⟨-, _, _, -, -, -, -, he⟩ := hr
    exact he.pendingLen.trans hzero
  have hother := h.received hzero hr
  unfold readDispatch
  simp only [wp_bind, wp_get, wp_ite]
  refine ⟨fun _ => ?_, fun hdata => ⟨fun _ => ?_, fun _ => ⟨fun _ => ?_, fun _ => ⟨fun _ => ?_,
    fun _ => hother hdata⟩⟩⟩⟩
  · exact (h.noteData hzero hr).mono (fun _ _ h => h) fun _ _ h =>
      ⟨h.2, fun hdone => absurd hdone h.1⟩
  · refine (wp_noteAdjust n c').mono (fun _ c'' ha => ?_) fun _ c'' heq => ?_
    · exact (hother hdata).alike ha.alike (by rw [ha.ch])
    · rw [heq]
      exact ⟨hother hdata, fun _ => hzero'⟩
  · exact (hother hdata).alike ⟨rfl, rfl, rfl, rfl, rfl, rfl⟩ rfl
  · exact ⟨(hother hdata).alike ⟨rfl, rfl, rfl, rfl, rfl, rfl⟩ rfl, fun _ => hzero'⟩

lemma wp_readStep (h : c0.ReadingSince c) :
    wp (readStep ()) (fun _ c' => c0.ReadingSince c')
      (fun e c' => c0.ReadingSince c' ∧ (e = .done → c'.pendingLen = 0)) c := by
  unfold readStep
  simp only [wp_bind, wp_get, wp_ite]
  refine ⟨fun _ => h, fun hzero => ?_⟩
  have hzero : c.pendingLen = 0 := not_not.mp hzero
  refine ⟨fun _ => ⟨h, fun _ => hzero⟩, fun _ => ?_⟩
  refine (wp_recvPacket c).mono (fun n c' hr => ?_) fun e c' ha => ?_
  · rw [wp_bind]
    exact wp_readDispatch h hzero hr
  · refine ⟨h.aside hzero ha, fun _ => ?_⟩
    obtain ⟨new, -, he⟩ := ha
    exact he.pendingLen.trans hzero

lemma wp_read (hkept : c.Kept) :
    wp (read cap) (fun _ c' => c.Given (Taken.Readable c.ch) Kept c')
      (fun e c' => c.Given (Taken.Readable c.ch) Kept c' ∧ (e = .done → c'.pendingLen = 0)) c := by
  have hdone : ∀ {c'}, c.ReadingSince c' → c.Given (Taken.Readable c.ch) Kept c' := fun h =>
    h.mono Reading.toKept
  unfold read
  simp only [wp_bind, wp_get]
  refine wp_loop_of_out (I := fun _ c' => c.ReadingSince c') ?_ ?_ (.start hkept)
  · intro _ c1 h
    refine (wp_readStep h).mono ?_ fun e c' h => ⟨hdone h.1, h.2⟩
    rintro (_ | _) c' h
    · exact h
    · refine (wp_takePending cap c').mono (fun _ c'' hc => ?_) fun e c'' hc => ?_
      · exact (hdone h).quiet hc.1 hc.2
      · exact ⟨(hdone h).quiet hc.2.1 hc.2.2, fun hdone => absurd hdone hc.1⟩
  · exact fun _ c' h => ⟨hdone h, by simp⟩

lemma wp_waitWindow (hdata : data ≠ []) (h : c0.WritingSince data c) :
    wp waitWindow (fun _ c' => c0.WritingSince data c') (fun _ c' => c0.WritingSince data c') c := by
  unfold waitWindow
  refine wp_loop_of_out (I := fun _ c' => c0.WritingSince data c') ?_ ?_ ?_
  case refine_2 => exact fun _ _ h => h
  case refine_3 => exact h
  intro _ c1 h
  unfold waitStep
  rw [wp_bind, wp_get, wp_ite]
  refine ⟨fun _ => h, fun hshut => ?_⟩
  have hshort : ¬data.length ≤ c1.ch.remoteWindow := by
    rw [not_not.mp hshut]
    exact fun hle => hdata (length_eq_zero_iff.mp (Nat.le_zero.mp hle))
  rw [wp_bind]
  refine (wp_recvPacket c1).mono ?_ fun _ c' ⟨new, _, he⟩ => h.effect hshort he
  rintro n c' ⟨-, new, payload, -, -, -, -, he⟩
  have hc' : ∀ {c''}, c'.Sends c'' → c0.WritingSince data c'' := fun hadjust =>
    h.effect hshort (he.trans hadjust.effect)
  simp only [wp_bind, wp_get, wp_ite]
  refine ⟨fun _ => ?_, fun _ => ⟨fun _ => hc' (.refl _), fun _ => hc' (.refl _)⟩⟩
  refine (wp_noteAdjust n c').mono (fun _ c'' hadjust => hc' hadjust) ?_
  rintro _ c'' rfl
  exact hc' (.refl _)

lemma wp_write (hkept : c.Kept) (hroom : c.pendingLen = 0 ∨ data.length ≤ c.ch.remoteWindow) :
    wp (write data) (fun _ c' => c.Given (NoData c.ch) Kept c')
      (fun _ c' => c.Given (NoData c.ch) Kept c') c := by
  unfold write
  refine wp_loop_of_out (I := fun left c' => c.WritingSince left c') ?_ ?_ ?_
  case refine_2 => exact fun _ _ h => h.kept
  case refine_3 => exact .start hkept hroom
  intro left c1 h
  unfold writeStep
  rw [wp_ite]
  refine ⟨fun _ => h.kept, fun hne => ?_⟩
  rw [wp_bind]
  refine (wp_waitWindow hne h).mono (fun _ c2 h2 => ?_) fun _ _ h => h.kept
  rw [wp_bind]
  refine (wp_sendChunk left c2).mono ?_ fun _ c3 hsends => ?_
  · rintro n c3 ⟨hsends, -, hwindow⟩
    refine h2.frame hsends.toFrame fun hle => ?_
    rw [length_drop]
    omega
  · exact (h2.frame hsends.toFrame fun _ => Nat.zero_le _ : c.WritingSince [] c3).kept

lemma alike_sendEof (c : Conn) :
    wp sendEof (fun _ c' => c.Alike c') (fun _ c' => c.Alike c') c := by
  have hrefl : c.Alike c := (Frame.refl c).alike
  unfold sendEof
  rw [wp_bind, wp_get, wp_ite]
  refine ⟨fun _ => hrefl, fun _ => ?_⟩
  rw [wp_bind]
  cases hbuild : channelEofBuild 32 c.ch with
  | error e => exact hrefl
  | ok built =>
    exact (alike_sendPacket (by rw [of_channelEofBuild hbuild]) built.2).mono (fun _ _ h => h)
      fun _ _ h => h.2

end Client

/-! ## Runs -/

namespace Conn

def Intact (c : Conn) : Prop := c.delivered <+: dataIn c.ch.localId c.taken
deriving Decidable

def Drained (c : Conn) : Prop := c.delivered = dataIn c.ch.localId c.taken
deriving Decidable

structure Fresh (c : Conn) : Prop where
  taken : c.taken = []
  delivered : c.delivered = []
  pendingLen : c.pendingLen = 0

variable {c : Conn}

lemma Kept.intact (h : Kept c) : c.Intact := ⟨c.pendingData, h.data.symm⟩

lemma Kept.drained (h : Kept c) (hzero : c.pendingLen = 0) : c.Drained := by
  rw [Drained, h.data, pendingData_eq_nil hzero, append_nil]

lemma Fresh.kept (h : Fresh c) : Kept c := by
  have hnil := pendingData_eq_nil h.pendingLen
  refine ⟨?_, ?_⟩
  · rw [hnil, h.pendingLen, length_nil]
  · rw [h.taken, h.delivered, hnil]
    rfl

end Conn

namespace Server

variable {s : Server}

def received (S : Suite) (opts : ServerOpts) (s : Server) (c : Call) : List Taken :=
  (step S opts s c).taken.drop s.taken.length

/-- The condition under which a call loses no data. While a read waits, data comes outside of key
exchanges and keeps to the window. A write that has to wait does so with nothing unread, and no data
comes then. -/
def Lossless (S : Suite) (opts : ServerOpts) (s : Server) (c : Call) : Prop :=
  match c with
  | .read _ => ∀ t ∈ received S opts s c, t.Readable s.ch
  | .write data => (s.pendingLen = 0 ∨ data.length ≤ s.ch.remoteWindow) ∧
      ∀ t ∈ received S opts s c, dataOf s.ch.localId t.payload = []
  | .writeSome _ | .exit _ => True

/-- What was read after the call is the start of what was received, and all of it if the call is a read
that reports the end. -/
def Faithful (S : Suite) (opts : ServerOpts) (s : Server) (c : Call) : Prop :=
  match c with
  | .read _ => (step S opts s c).Intact ∧
      (failsWith .done (call S opts c) s = true → (step S opts s c).Drained)
  | _ => (step S opts s c).Intact

lemma step_kept (c : Call) (h : s.inKex = false ∧ s.Kept) (hc : Lossless S opts s c) :
    ((step S opts s c).inKex = false ∧ (step S opts s c).Kept) ∧ Faithful S opts s c := by
  obtain ⟨hkex, hkept⟩ := h
  cases c with
  | read cap =>
    have hcall := (wp_read S opts cap hkex hkept).discard ()
    obtain ⟨hkex', hgiven⟩ := (hcall.mono (fun _ _ h => h) fun _ _ h => h.1).after
    have hkept' := hgiven.of_forall hc
    refine ⟨⟨hkex', hkept'⟩, hkept'.intact, fun hfails => ?_⟩
    exact hkept'.drained ((hcall.of_failsWith hfails).2 rfl)
  | write data =>
    obtain ⟨hkex', hgiven⟩ := (wp_write S opts hkex hkept hc.1).after
    have hkept' := hgiven.of_forall hc.2
    exact ⟨⟨hkex', hkept'⟩, hkept'.intact⟩
  | writeSome data =>
    have hcall : wp (call S opts (.writeSome data)) (fun _ s' => s'.inKex = false ∧ s'.Kept)
        (fun _ s' => s'.inKex = false ∧ s'.Kept) s := by
      unfold call
      rw [wp_bind, onConn, wp_zoom]
      exact (sends_writeSome data s.toConn).mono
        (fun _ _ h => ⟨hkex, hkept.alike h.alike⟩) fun _ _ h => ⟨hkex, hkept.alike h.alike⟩
    have hafter := hcall.after
    exact ⟨hafter, hafter.2.intact⟩
  | exit status =>
    obtain ⟨hkex', hframe⟩ := (frame_exit status s).after
    have hkept' := hkept.alike hframe.alike
    exact ⟨⟨hkex'.trans hkex, hkept'⟩, hkept'.intact⟩

instance (c : Call) : Decidable (Lossless S opts s c) := by
  cases c <;> dsimp only [Lossless] <;> infer_instance

instance (c : Call) : Decidable (Faithful S opts s c) := by
  cases c <;> dsimp only [Faithful] <;> infer_instance

end Server

namespace Client

variable {c : Conn}

def received (c : Conn) (a : Call) : List Taken := (step c a).taken.drop c.taken.length

/-- The condition under which a call loses no data, as for the server. -/
def Lossless (c : Conn) (a : Call) : Prop :=
  match a with
  | .read _ => ∀ t ∈ received c a, t.Readable c.ch
  | .write data => (c.pendingLen = 0 ∨ data.length ≤ c.ch.remoteWindow) ∧
      ∀ t ∈ received c a, dataOf c.ch.localId t.payload = []
  | .eof => True

/-- What was read after the call is the start of what was received, and all of it if the call is a read
that reports the end. -/
def Faithful (c : Conn) (a : Call) : Prop :=
  match a with
  | .read _ => (step c a).Intact ∧ (failsWith .done (call a) c = true → (step c a).Drained)
  | _ => (step c a).Intact

lemma step_kept (a : Call) (hkept : c.Kept) (ha : Lossless c a) :
    (step c a).Kept ∧ Faithful c a := by
  cases a with
  | read cap =>
    have hcall := (wp_read cap hkept).discard ()
    have hgiven := (hcall.mono (fun _ _ h => h) fun _ _ h => h.1).after
    have hkept' := hgiven.of_forall ha
    refine ⟨hkept', hkept'.intact, fun hfails => ?_⟩
    exact hkept'.drained ((hcall.of_failsWith hfails).2 rfl)
  | write data =>
    have hgiven := (wp_write hkept ha.1).after
    have hkept' := hgiven.of_forall ha.2
    exact ⟨hkept', hkept'.intact⟩
  | eof =>
    have hkept' := hkept.alike (alike_sendEof c).after
    exact ⟨hkept', hkept'.intact⟩

instance (a : Call) : Decidable (Lossless c a) := by
  cases a <;> dsimp only [Lossless] <;> infer_instance

instance (a : Call) : Decidable (Faithful c a) := by
  cases a <;> dsimp only [Faithful] <;> infer_instance

end Client

/-- A server in a session in which nothing was received yet. -/
structure Server.Fresh (s : Server) : Prop extends Conn.Fresh s.toConn where
  inKex : s.inKex = false

/-- Where no call loses data, the application reads what was received. -/
theorem input_kept (S : Suite) (opts : ServerOpts) (s : Server) (callsS : List Server.Call)
    (c : Conn)
    (callsC : List Client.Call) :
    (s.Fresh → Run.Ok (Server.step S opts) (Server.Lossless S opts) s callsS →
      Run.Ok (Server.step S opts) (Server.Faithful S opts) s callsS) ∧
    (c.Fresh → Run.Ok Client.step Client.Lossless c callsC →
      Run.Ok Client.step Client.Faithful c callsC) := by
  refine ⟨fun hfresh hrun => ?_, fun hfresh hrun => ?_⟩
  · refine hrun.of_invariant (I := fun s => s.inKex = false ∧ s.Kept) ⟨hfresh.inKex, hfresh.kept⟩ ?_ ?_
    · exact fun s c h hc => (Server.step_kept S opts c h hc).1
    · exact fun s c h hc => (Server.step_kept S opts c h hc).2
  · refine hrun.of_invariant hfresh.kept ?_ ?_
    · exact fun c a h ha => (Client.step_kept a h ha).1
    · exact fun c a h ha => (Client.step_kept a h ha).2

/-! ### Evaluation -/

/-- The request for a session with this window and this limit. -/
def openRequest (window maxPacket : ℕ) : List UInt8 :=
  msgChannelOpen :: (writeBE32 7 ++ ascii "session" ++ writeBE32 0 ++
    writeBE32 (.ofNat window) ++ writeBE32 (.ofNat maxPacket))

/-- A channel of a session, with the window of the peer. -/
def Channel.plain (window : ℕ) : Channel :=
  { channelInit with
    isOpen := true, started := true, remoteWindow := window, remoteMaxPacket := maxPayload }

def Conn.plain (window : ℕ) (payloads : List (List UInt8)) : Conn :=
  { init (payloads.map (Arrival.packet false)) [] with ch := .plain window }

def threeBytes : List (List UInt8) :=
  [dataMessage 0 [1, 2], dataMessage 0 [3], msgChannelEof :: writeBE32 0]

theorem input_kept_threeBytes :
    Run.Ok (Server.step plainSuite Server.plainOpts)
      (Server.Faithful plainSuite Server.plainOpts) (.plain (.plain 4 threeBytes))
      [.read 1, .write [7], .read 5, .read 5, .writeSome [8, 9], .read 5] ∧
    Run.Ok Client.step Client.Faithful (.plain 4 threeBytes)
      [.read 1, .write [7], .read 5, .read 5, .eof, .read 5] := by
  refine (input_kept _ _ _ _ _ _).imp (fun h => h ⟨⟨rfl, rfl, rfl⟩, rfl⟩ ?_)
    fun h => h ⟨rfl, rfl, rfl⟩ ?_
  · decide +kernel
  · decide +kernel

/-- While a write waits for the peer's window, the peer sends a byte. It is lost, and the next read
returns the byte after it. -/
theorem input_lost :
    (¬∀ (S : Suite) (opts : ServerOpts) (s : Server) (calls : List Server.Call), s.Fresh →
      Run.Ok (Server.step S opts) (Server.Faithful S opts) s calls) ∧
    (¬∀ (c : Conn) (calls : List Client.Call), c.Fresh →
      Run.Ok Client.step Client.Faithful c calls) := by
  let payloads : List (List UInt8) :=
    [dataMessage 0 [1], msgChannelWindowAdjust :: (writeBE32 0 ++ writeBE32 1), dataMessage 0 [2]]
  refine ⟨fun h => ?_, fun h => ?_⟩
  · have hrun := h plainSuite Server.plainOpts (.plain (.plain 0 payloads)) [.write [7], .read 5]
      ⟨⟨rfl, rfl, rfl⟩, rfl⟩
    exact absurd hrun (by decide +kernel)
  · have hrun := h (.plain 0 payloads) [.write [7], .read 5] ⟨rfl, rfl, rfl⟩
    exact absurd hrun (by decide +kernel)

end Ssh
