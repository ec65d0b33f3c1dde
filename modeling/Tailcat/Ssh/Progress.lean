import Tailcat.Ssh.Input

/-!
# How much data a write sends

Data goes out in packets that leave room for a header of nine bytes, and the peer chooses their limit.
With a limit of nine each packet is empty, and the loop ends when the sequence numbers are used up. With
a smaller one the unsigned difference wraps around and limits nothing.

## Main results

* `writes_progress`: when an iteration sends data within the peer's limit, and when a write sends all that
  the window allows;
* `writes_stuck`: this is not always so.
-/

namespace Ssh

open Program List

/-! ## Channels that are accepted -/

def openMaxPacket (typeCap : ℕ) (payload : List UInt8) : ℕ :=
  ((Rbuf.init payload).getByte.2.getCstring typeCap).2.getU32.2.getU32.2.getU32.1

def confirmMaxPacket (payload : List UInt8) : ℕ :=
  (Rbuf.init payload).getByte.2.getU32.2.getU32.2.getU32.2.getU32.1

/-- The channel is what `tc_ssh_channel_open_parse` or `tc_ssh_channel_confirm_parse` accepts, from a
peer that advertises this limit. -/
def Channel.Accepted (ch : Channel) (advertised : ℕ) : Prop :=
  (∃ ch0 typeCap payload type, channelOpenParse ch0 typeCap payload = .ok (ch, type) ∧
    openMaxPacket typeCap payload = advertised) ∨
  (∃ ch0 payload, channelConfirmParse ch0 payload = .ok ch ∧ confirmMaxPacket payload = advertised)

structure Channel.Bounded (ch : Channel) (advertised : ℕ) : Prop where
  pos : 0 < ch.remoteMaxPacket
  le : ch.remoteMaxPacket ≤ advertised
  max : ch.remoteMaxPacket ≤ maxPayload
  window : ch.remoteWindow < 2 ^ 32

variable {ch ch' : Channel} {advertised window : ℕ} {payload : List UInt8}

lemma Channel.bounded_adopt (ch : Channel) (remoteId : ℕ) (hmax : advertised ≠ 0)
    (hwindow : window < 2 ^ 32) : (ch.adopt remoteId window advertised).Bounded advertised := by
  have hif : ∀ n, n = (if advertised > maxPayload then maxPayload else advertised) →
      0 < n ∧ n ≤ advertised ∧ n ≤ maxPayload := by
    intro n hn
    unfold maxPayload at *
    split at hn <;> omega
  obtain ⟨hpos, hle, hcap⟩ := hif _ rfl
  exact ⟨hpos, hle, hcap, hwindow⟩

lemma Channel.Bounded.shrink (h : ch.Bounded advertised) (hle : window ≤ ch.remoteWindow) :
    { ch with remoteWindow := window }.Bounded advertised :=
  ⟨h.pos, h.le, h.max, lt_of_le_of_lt hle h.window⟩

lemma channelOpenParse_bounded {typeCap : ℕ} {type : List UInt8}
    (h : channelOpenParse ch typeCap payload = .ok (ch', type)) :
    ch'.Bounded (openMaxPacket typeCap payload) := by
  unfold channelOpenParse at h
  unfold openMaxPacket
  dsimp only at h
  repeat
    split at h
    · cases h
  rename_i type r hstring _ hmax
  obtain ⟨rfl, -⟩ := Prod.mk.inj (Except.ok.inj h)
  rw [hstring]
  exact Channel.bounded_adopt _ _ hmax (Rbuf.getU32_lt _)

lemma channelConfirmParse_bounded (h : channelConfirmParse ch payload = .ok ch') :
    ch'.Bounded (confirmMaxPacket payload) := by
  unfold channelConfirmParse at h
  dsimp only at h
  split_ifs at h with _ _ _ hmax
  obtain rfl := Except.ok.inj h
  obtain ⟨hpos, hle, hcap, hwindow⟩ := Channel.bounded_adopt ch 0 hmax (Rbuf.getU32_lt _)
  exact ⟨hpos, hle, hcap, hwindow⟩

lemma Channel.Accepted.bounded (h : ch.Accepted advertised) : ch.Bounded advertised := by
  rcases h with ⟨_, _, _, _, hparse, rfl⟩ | ⟨_, _, hparse, rfl⟩
  · exact channelOpenParse_bounded hparse
  · exact channelConfirmParse_bounded hparse

namespace Conn

/-! ## Packets of data -/

lemma chunkSize_of_le (len : ℕ) (hmax : ch.remoteMaxPacket ≤ maxPayload)
    (h : channelDataOverhead ≤ ch.remoteMaxPacket) :
    chunkSize ch len =
      min (min len ch.remoteWindow) (ch.remoteMaxPacket - channelDataOverhead) := by
  have hlimit : (ch.remoteMaxPacket + 2 ^ 32 - channelDataOverhead) % 2 ^ 32 =
      ch.remoteMaxPacket - channelDataOverhead := by
    unfold maxPayload at *
    omega
  rw [chunkSize]
  split <;> omega

lemma chunkSize_of_lt (len : ℕ) (h : ch.remoteMaxPacket < channelDataOverhead) :
    chunkSize ch len = min (min len ch.remoteWindow) (ch.remoteMaxPacket + 4294967287) := by
  have hlimit : (ch.remoteMaxPacket + 2 ^ 32 - channelDataOverhead) % 2 ^ 32 =
      ch.remoteMaxPacket + 4294967287 := by
    unfold channelDataOverhead at *
    omega
  rw [chunkSize]
  split <;> omega

/-- The condition under which so many bytes, as far as the window allows, can be sent. Packets have room
for data behind the header, and there are enough sequence numbers for them; or the limit is below the size
of the header and the bytes happen to fit it. -/
def Roomy (ch : Channel) (seq len : ℕ) : Prop :=
  min len ch.remoteWindow = 0 ∨
  (channelDataOverhead < ch.remoteMaxPacket ∧
    min len ch.remoteWindow ≤ (uint32Max - seq) * (ch.remoteMaxPacket - channelDataOverhead)) ∨
  (ch.remoteMaxPacket < channelDataOverhead ∧ min len ch.remoteWindow ≤ ch.remoteMaxPacket ∧
    seq < uint32Max)
deriving Decidable

/-- The part of it that is about the next packet. -/
def Fits (ch : Channel) (seq len : ℕ) : Prop :=
  seq < uint32Max ∧ (channelDataOverhead < ch.remoteMaxPacket ∨
    ch.remoteMaxPacket < channelDataOverhead ∧ min len ch.remoteWindow ≤ ch.remoteMaxPacket)

variable {seq len : ℕ}

lemma fits_iff (hb : ch.Bounded advertised) (hlen : 0 < len) (hwindow : 0 < ch.remoteWindow) :
    Fits ch seq len ↔
      seq < uint32Max ∧ 0 < chunkSize ch len ∧ chunkSize ch len ≤ ch.remoteMaxPacket := by
  refine and_congr_right fun _ => ?_
  have hmax := hb.max
  rcases Nat.lt_or_ge ch.remoteMaxPacket channelDataOverhead with hlt | hge
  · rw [chunkSize_of_lt len hlt]
    omega
  · rw [chunkSize_of_le len hmax hge]
    omega

lemma Roomy.fits (h : Roomy ch seq len) (hlen : 0 < len) (hwindow : 0 < ch.remoteWindow) :
    Fits ch seq len := by
  rcases h with hzero | ⟨hroom, hseq⟩ | ⟨hlt, hfit, hseq⟩
  · omega
  · refine ⟨?_, .inl hroom⟩
    by_contra hend
    rw [Nat.sub_eq_zero_of_le (Nat.le_of_not_lt hend)] at hseq
    omega
  · exact ⟨hseq, .inr ⟨hlt, hfit⟩⟩

lemma roomy_next (hb : ch.Bounded advertised) (hseq : seq < uint32Max)
    (hfit : chunkSize ch len ≤ ch.remoteMaxPacket) :
    Roomy { ch with remoteWindow := ch.remoteWindow - chunkSize ch len } (seq + 1)
      (len - chunkSize ch len) ↔ Roomy ch seq len := by
  have hmax := hb.max
  unfold Roomy
  dsimp only
  rcases Nat.lt_trichotomy ch.remoteMaxPacket channelDataOverhead with hlt | heq | hgt
  · -- all of it goes into the packet
    rw [chunkSize_of_lt len hlt] at hfit ⊢
    omega
  · -- the packet is empty
    rw [chunkSize_of_le len hmax heq.ge, heq] at hfit ⊢
    simp
  · rw [chunkSize_of_le len hmax hgt.le]
    obtain ⟨k, hk⟩ : ∃ k, uint32Max - seq = k + 1 := ⟨uint32Max - seq - 1, by omega⟩
    have hk' : uint32Max - (seq + 1) = k := by omega
    rw [hk, hk', Nat.succ_mul]
    have hroom : 0 < ch.remoteMaxPacket - channelDataOverhead := by omega
    generalize ch.remoteMaxPacket - channelDataOverhead = room at hroom ⊢
    omega

/-- The connection after a packet of data was sent. -/
def sentData (c : Conn) (data : List UInt8) : Conn :=
  { c with
    ch.remoteWindow := c.ch.remoteWindow - data.length, outCipher.seq := c.outCipher.seq + 1
    outcomes := c.outcomes.tail, outbox := c.outbox ++ [dataMessage c.ch.remoteId data] }

variable {c : Conn} {data : List UInt8}

lemma ch_sentData (c : Conn) (data : List UInt8) :
    (c.sentData data).ch = { c.ch with remoteWindow := c.ch.remoteWindow - data.length } := rfl

lemma seq_sentData (c : Conn) (data : List UInt8) :
    (c.sentData data).outCipher.seq = c.outCipher.seq + 1 := rfl

lemma outbox_sentData (c : Conn) (data : List UInt8) :
    (c.sentData data).outbox = c.outbox ++ [dataMessage c.ch.remoteId data] := rfl

lemma Reliable.sentData (h : Reliable c) (data : List UInt8) : Reliable (c.sentData data) :=
  fun o ho => h o (mem_of_mem_tail ho)

lemma length_dataMessage (remoteId : ℕ) (data : List UInt8) :
    (dataMessage remoteId data).length = data.length + channelDataOverhead := by
  simp [dataMessage, ByteOrder.writeBE32, channelDataOverhead]

lemma wp_sendChunk_iff (data : List UInt8) (hb : c.ch.Bounded advertised) :
    wp (sendChunk data)
      (fun n c' => n = chunkSize c.ch data.length ∧ n ≤ c.ch.remoteMaxPacket ∧
        c.outCipher.seq ≠ uint32Max ∧ c' = c.sentData (data.take n))
      (fun _ _ => c.Reliable → chunkSize c.ch data.length ≤ c.ch.remoteMaxPacket →
        c.outCipher.seq = uint32Max) c := by
  have hchunk := chunkSize_le c.ch data.length
  have hlen : (data.take (chunkSize c.ch data.length)).length = chunkSize c.ch data.length := by
    rw [length_take]
    omega
  -- a packet within the peer's limit fits the buffer
  have hsize : chunkSize c.ch data.length ≤ c.ch.remoteMaxPacket →
      chunkSize c.ch data.length + channelDataOverhead ≤ maxPayload := by
    have hmax := hb.max
    rcases Nat.lt_or_ge c.ch.remoteMaxPacket channelDataOverhead with hlt | hge
    · unfold channelDataOverhead maxPayload at *
      omega
    · rw [chunkSize_of_le _ hmax hge]
      omega
  unfold sendChunk sendData
  simp only [wp_bind, wp_get]
  generalize chunkSize c.ch data.length = n at *
  cases hbuild : channelDataBuild maxPayload c.ch (data.take n) with
  | error e =>
    intro _ hfit
    have hsmall := hsize hfit
    have hcap : (data.take n).length < 2 ^ 32 := by
      unfold maxPayload at hsmall
      omega
    rw [channelDataBuild_ok (by omega) (by omega) (by omega) hcap] at hbuild
    cases hbuild
  | ok built =>
    obtain ⟨ch', msg⟩ := built
    obtain ⟨rfl, rfl, hfit⟩ := of_channelDataBuild hbuild
    rw [hlen] at hfit
    have hlong : (dataMessage c.ch.remoteId (data.take n)).length ≤ maxPayload := by
      rw [length_dataMessage, hlen]
      exact hsize hfit
    rw [wp_ofExcept_ok, wp_bind, wp_set]
    generalize hcharged : { c with ch := _ } = c1
    have hseq : c1.outCipher = c.outCipher := by rw [← hcharged]
    have houtcomes : c1.outcomes = c.outcomes := by rw [← hcharged]
    refine (wp_sendPacket _ c1).mono ?_ ?_
    · rintro _ c' ⟨hends, rfl⟩
      rw [hseq] at hends
      refine ⟨rfl, hfit, hends, ?_⟩
      rw [← hcharged, sentData]
    · rintro _ _ ⟨-, -, hends⟩ hreliable _
      rw [← hseq]
      exact hends hlong (by rwa [Reliable, houtcomes])

/-- Packets with these bytes have been sent, none of them empty or beyond the peer's limit. -/
def Carried (advertised : ℕ) (bytes : List UInt8) (c c' : Conn) : Prop :=
  ∃ chunks : List (List UInt8), c'.outbox = c.outbox ++ chunks.map (dataMessage c.ch.remoteId) ∧
    chunks.flatten = bytes ∧ ∀ chunk ∈ chunks, 0 < chunk.length ∧ chunk.length ≤ advertised

/-- The next iteration of a loop that sends this data sends some of it. -/
def Advances (c : Conn) (advertised : ℕ) (data : List UInt8) : Prop :=
  ∃ n c', sendChunk data c = .ok n c' ∧ 0 < n ∧ n ≤ advertised ∧
    c'.outbox = c.outbox ++ [dataMessage c.ch.remoteId (data.take n)]

/-- `tc_ssh_server_write_some` returns and has sent what the window allows. -/
def SendsAll (c : Conn) (advertised : ℕ) (data : List UInt8) : Prop :=
  ∃ c', writeSome data c = .ok (min data.length c.ch.remoteWindow) c' ∧
    Carried advertised (data.take (min data.length c.ch.remoteWindow)) c c'

/-! ## One iteration -/

lemma advances_iff (hb : c.ch.Bounded advertised) (hreliable : c.Reliable)
    (hseq : c.outCipher.seq ≤ uint32Max) (hdata : data ≠ []) (hwindow : 0 < c.ch.remoteWindow) :
    Advances c advertised data ↔ Fits c.ch c.outCipher.seq data.length := by
  rw [fits_iff hb (length_pos_iff.mpr hdata) hwindow]
  have hsend := wp_sendChunk_iff data hb
  refine ⟨?_, ?_⟩
  · rintro ⟨n, c', hok, hpos, -, -⟩
    obtain ⟨rfl, hfit, hends, -⟩ := hsend.of_ok hok
    exact ⟨by omega, hpos, hfit⟩
  · rintro ⟨hends, hpos, hfit⟩
    obtain ⟨n, c', hok, rfl, -, -, rfl⟩ :=
      (hsend.mono (fun _ _ h => h) fun _ _ h => by have := h hreliable hfit; omega).exists_ok
    exact ⟨_, _, hok, hpos, hfit.trans hb.le, rfl⟩

/-! ## The loop -/

/-- What holds in the loop that sends `data`, with the data that is left and the count. -/
structure Sending (c : Conn) (advertised : ℕ) (data : List UInt8) (v : List UInt8 × ℕ)
    (c1 : Conn) : Prop where
  bounded : c1.ch.Bounded advertised
  remoteId : c1.ch.remoteId = c.ch.remoteId
  reliable : c1.Reliable
  room : Roomy c1.ch c1.outCipher.seq v.1.length
  left : v.1 = data.drop v.2
  count : v.2 + min v.1.length c1.ch.remoteWindow = min data.length c.ch.remoteWindow
  carried : Carried advertised (data.take v.2) c c1

lemma Sending.next {left : List UInt8} {count : ℕ} {c1 : Conn}
    (h : Sending c advertised data (left, count) c1) (hleft : left ≠ [])
    (hwindow : 0 < c1.ch.remoteWindow) :
    Sending c advertised data (left.drop (chunkSize c1.ch left.length),
      count + chunkSize c1.ch left.length) (c1.sentData (left.take (chunkSize c1.ch left.length))) := by
  have hlen := length_pos_iff.mpr hleft
  obtain ⟨hseq, hpos, hfit⟩ := (fits_iff h.bounded hlen hwindow).mp (h.room.fits hlen hwindow)
  have hle := chunkSize_le c1.ch left.length
  have hnext := roomy_next h.bounded hseq hfit
  have htake : (left.take (chunkSize c1.ch left.length)).length = chunkSize c1.ch left.length := by
    rw [length_take]
    omega
  generalize chunkSize c1.ch left.length = n at *
  obtain ⟨hbounded, hid, hreliable, hroom, hdrop, hcount, hcarried⟩ := h
  dsimp only at hdrop hcount hcarried
  refine ⟨?_, ?_, hreliable.sentData _, ?_, ?_, ?_, ?_⟩
  · exact hbounded.shrink (Nat.sub_le _ _)
  · rw [ch_sentData, hid]
  · rw [length_drop, ch_sentData, seq_sentData, htake]
    exact hnext.mpr hroom
  · rw [← drop_drop, ← hdrop]
  · rw [length_drop, ch_sentData, htake]
    dsimp only
    omega
  obtain ⟨chunks, houtbox, hflatten, hchunks⟩ := hcarried
  refine ⟨chunks ++ [left.take n], ?_, ?_, ?_⟩
  · rw [outbox_sentData, houtbox, hid, map_append, map_singleton, append_assoc]
  · rw [flatten_append, hflatten, flatten_singleton, take_add, ← hdrop]
  · refine forall_mem_append.mpr ⟨hchunks, forall_mem_singleton.mpr ?_⟩
    rw [htake]
    exact ⟨hpos, hfit.trans hbounded.le⟩

lemma sendsAll_of_roomy (hb : c.ch.Bounded advertised) (hreliable : c.Reliable)
    (h : Roomy c.ch c.outCipher.seq data.length) : SendsAll c advertised data := by
  have hwrite : wp (writeSome data)
      (fun n c' => n = min data.length c.ch.remoteWindow ∧ Carried advertised (data.take n) c c')
      (fun _ _ => False) c := by
    unfold writeSome
    rw [wp_bind, wp_get]
    refine wp_loop (I := Sending c advertised data) (fun _ c1 => uint32Max - c1.outCipher.seq) ?_ ?_
      (Nat.lt_succ_self _)
    · rintro ⟨left, count⟩ c1 hsending
      unfold writeSomeStep
      rw [wp_bind, wp_get, wp_ite]
      refine ⟨fun hend => ?_, fun hmore => ?_⟩
      · -- what is left cannot be sent, so the count is complete
        have hcount := hsending.count
        have hzero : min left.length c1.ch.remoteWindow = 0 := by
          simp only [Bool.or_eq_true, decide_eq_true_eq] at hend
          rcases hend with rfl | hshut
          · exact Nat.zero_min _
          · rw [hshut, Nat.min_zero]
        dsimp only at hcount
        rw [hzero, Nat.add_zero] at hcount
        exact ⟨hcount, hsending.carried⟩
      · simp only [Bool.or_eq_true, decide_eq_true_eq, not_or] at hmore
        obtain ⟨hleft, hopen⟩ := hmore
        have hwindow : 0 < c1.ch.remoteWindow := Nat.pos_of_ne_zero hopen
        have hlen := length_pos_iff.mpr hleft
        obtain ⟨hseq, -, hfit⟩ :=
          (fits_iff hsending.bounded hlen hwindow).mp (hsending.room.fits hlen hwindow)
        rw [wp_bind]
        refine (wp_sendChunk_iff left hsending.bounded).mono ?_ fun _ _ hends => ?_
        · rintro n c2 ⟨rfl, -, -, rfl⟩
          refine ⟨hsending.next hleft hwindow, ?_⟩
          rw [seq_sentData]
          omega
        · have := hends hsending.reliable hfit
          omega
    · exact ⟨hb, rfl, hreliable, h, rfl, Nat.zero_add _, [], by simp, rfl, by simp⟩
  obtain ⟨n, c', hok, rfl, hcarried⟩ := hwrite.exists_ok
  exact ⟨c', hok, hcarried⟩

lemma roomy_of_sendsAll (hb : c.ch.Bounded advertised) (hseq : c.outCipher.seq ≤ uint32Max)
    (h : SendsAll c advertised data) : Roomy c.ch c.outCipher.seq data.length := by
  obtain ⟨c', hok, -⟩ := h
  have hwrite : wp (writeSome data) (fun _ _ => Roomy c.ch c.outCipher.seq data.length)
      (fun _ _ => True) c := by
    unfold writeSome
    -- each iteration gives back the room that the packet has taken
    refine wp_loop_of_out (I := fun (v : List UInt8 × ℕ) c1 => c1.ch.Bounded advertised ∧
      c1.outCipher.seq ≤ uint32Max ∧ (Roomy c1.ch c1.outCipher.seq v.1.length →
        Roomy c.ch c.outCipher.seq data.length)) ?_ ?_ ?_
    case refine_2 => exact fun _ _ _ => trivial
    case refine_3 => exact ⟨hb, hseq, id⟩
    rintro ⟨left, count⟩ c1 ⟨hb1, hseq1, hback⟩
    unfold writeSomeStep
    rw [wp_bind, wp_get, wp_ite]
    refine ⟨fun hend => hback (.inl ?_), fun _ => ?_⟩
    · simp only [Bool.or_eq_true, decide_eq_true_eq] at hend
      rcases hend with rfl | hshut
      · exact Nat.zero_min _
      · rw [hshut, Nat.min_zero]
    · rw [wp_bind]
      refine (wp_sendChunk_iff left hb1).mono ?_ fun _ _ _ => trivial
      rintro n c2 ⟨rfl, hfit, hends, rfl⟩
      have hlt : c1.outCipher.seq < uint32Max := lt_of_le_of_ne hseq1 hends
      have hle := chunkSize_le c1.ch left.length
      have htake : (left.take (chunkSize c1.ch left.length)).length =
          chunkSize c1.ch left.length := by
        rw [length_take]
        omega
      refine ⟨?_, ?_, fun hroomy => hback ?_⟩
      · exact hb1.shrink (Nat.sub_le _ _)
      · exact hlt
      · rw [ch_sentData, htake, length_drop] at hroomy
        exact (roomy_next hb1 hlt hfit).mp hroomy
  exact hwrite.of_ok hok

end Conn

/-! ## Writes -/

/-- On a reliable transport: an iteration with something to send and a window sends data within the
peer's limit exactly if there is room for it in a packet, and a write sends what the window allows exactly
if there is room for all of it. -/
theorem writes_progress (c : Conn) (advertised : ℕ) (data : List UInt8)
    (haccepted : c.ch.Accepted advertised) (hreliable : c.Reliable)
    (hseq : c.outCipher.seq ≤ uint32Max) :
    (data ≠ [] → 0 < c.ch.remoteWindow →
      (c.Advances advertised data ↔ Conn.Fits c.ch c.outCipher.seq data.length)) ∧
    (c.SendsAll advertised data ↔ Conn.Roomy c.ch c.outCipher.seq data.length) := by
  have hb := haccepted.bounded
  refine ⟨fun hdata hwindow => Conn.advances_iff hb hreliable hseq hdata hwindow, ?_, ?_⟩
  · exact Conn.roomy_of_sendsAll hb hseq
  · exact Conn.sendsAll_of_roomy hb hreliable

/-- A connection whose peer has asked for the channel with this window and this limit. -/
def Conn.limited (window maxPacket : ℕ) : Conn :=
  { Conn.init [] [] with ch := channelInit.adopt 0 window maxPacket }

/-- Twenty bytes in packets of eleven. -/
theorem writes_progress_twenty : (Conn.limited 100 20).SendsAll 20 (replicate 20 1) := by
  refine (writes_progress (.limited 100 20) 20 (replicate 20 1) (.inl ?_) ?_ ?_).2.mpr ?_
  · exact ⟨channelInit, 32, openRequest 100 20, ascii "session", by decide +kernel, by decide +kernel⟩
  · exact fun o ho => nomatch ho
  · exact Nat.zero_le _
  · decide +kernel

/-- The peer advertises a limit of nine bytes. Every packet is empty, and a byte is never sent. -/
theorem writes_stuck :
    ¬∀ (c : Conn) (advertised : ℕ) (data : List UInt8), c.ch.Accepted advertised → c.Reliable →
      c.outCipher.seq ≤ uint32Max → c.SendsAll advertised data := by
  intro h
  have haccepted : (Conn.limited 1 9).ch.Accepted 9 :=
    .inl ⟨channelInit, 32, openRequest 1 9, ascii "session", by decide +kernel, by decide +kernel⟩
  have hsends := h (.limited 1 9) 9 [1] haccepted (fun o ho => nomatch ho) (Nat.zero_le _)
  have hroomy := Conn.roomy_of_sendsAll haccepted.bounded (Nat.zero_le _) hsends
  exact absurd hroomy (by decide +kernel)

end Ssh
