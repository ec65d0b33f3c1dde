import Tailcat.Ssh.Wire

/-!
# Replies of an SFTP server

`src/ssh/sftp.c`, the part that reads replies. Requests and the messages that are built are left out.

## Main results

* `response_present_iff`: which replies are read although a field is missing.
-/

namespace Ssh

open ByteOrder List

def Rbuf.getU64 (r : Rbuf) : ℕ × Rbuf :=
  let (hi, r) := r.getU32
  let (lo, r) := r.getU32
  (hi <<< 32 ||| lo, r)

namespace Sftp

/-- `TC_SFTP_MAX_PACKET`. -/
def maxPacket : ℕ := 40000
/-- `TC_SFTP_MAX_HANDLE`. -/
def maxHandle : ℕ := 256
/-- `TC_SFTP_VERSION_MSG`. -/
def versionMsg : UInt8 := 2
/-- `TC_SFTP_STATUS`. -/
def msgStatus : UInt8 := 101
/-- `TC_SFTP_HANDLE`. -/
def msgHandle : UInt8 := 102
/-- `TC_SFTP_DATA`. -/
def msgData : UInt8 := 103
/-- `TC_SFTP_NAME`. -/
def msgName : UInt8 := 104
/-- `TC_SFTP_ATTRS`. -/
def msgAttrs : UInt8 := 105

/-- `tc_sftp_packet_len`: the length of the first packet, with its prefix. -/
def packetLen (buf : List UInt8) : Except Err ℕ :=
  if buf.length < 4 then .error .again
  else
    let body := (readBE32 buf 0).toNat
    if body < 1 then .error .inval
    else if body > maxPacket then .error .toomany
    else .ok (4 + body)

structure Attrs where
  flags : ℕ := 0
  size : ℕ := 0
  uid : ℕ := 0
  gid : ℕ := 0
  permissions : ℕ := 0
  atime : ℕ := 0
  mtime : ℕ := 0

/-- A field that is there if its flag is set. -/
def field (flag : Bool) (get : Rbuf → ℕ × Rbuf) (r : Rbuf) : ℕ × Rbuf :=
  if flag then get r else (0, r)

/-- The loop of `read_attrs` over the extended pairs. -/
def skipPairs : ℕ → Rbuf → Rbuf
  | 0, r => r
  | n + 1, r => skipPairs n ((r.getString sizeMax).2.getString sizeMax).2

def readAttrs (r : Rbuf) : Option Attrs × Rbuf :=
  let (flags, r) := r.getU32
  let (size, r) := field (flags.testBit 0) Rbuf.getU64 r
  let (uid, r) := field (flags.testBit 1) Rbuf.getU32 r
  let (gid, r) := field (flags.testBit 1) Rbuf.getU32 r
  let (permissions, r) := field (flags.testBit 2) Rbuf.getU32 r
  let (atime, r) := field (flags.testBit 3) Rbuf.getU32 r
  let (mtime, r) := field (flags.testBit 3) Rbuf.getU32 r
  let (count, r) := field (flags.testBit 31) Rbuf.getU32 r
  -- each pair costs at least eight bytes
  if flags.testBit 31 && (r.bad || count * 8 > r.remaining) then (none, r)
  else
    let r := skipPairs count r
    (if r.bad then none else some { flags, size, uid, gid, permissions, atime, mtime }, r)

structure Response where
  type : UInt8
  version : ℕ := 0
  id : ℕ := 0
  status : ℕ := 0
  handle : Option (List UInt8) := none
  attrs : Attrs := {}
  count : ℕ := 0
  /-- The entries of a listing, or the data. -/
  names : List UInt8 := []

/-- The `switch` of `tc_sftp_parse_response`, with the reader as it is left. -/
def parseBody (resp : Response) (r : Rbuf) : Except Err (Response × Rbuf) :=
  if resp.type = msgStatus then .ok ({ resp with status := r.getU32.1 }, r.getU32.2)
  else if resp.type = msgHandle then
    match r.getSlice maxHandle with
    | (none, _) => .error .inval
    | (some handle, r) => .ok ({ resp with handle := some handle }, r)
  else if resp.type = msgAttrs then
    match readAttrs r with
    | (none, _) => .error .inval
    | (some attrs, r) => .ok ({ resp with attrs }, r)
  else if resp.type = msgName then
    let (count, r) := r.getU32
    if r.bad then .error .inval
    -- each entry costs at least twelve bytes
    else if count * 12 > r.remaining then .error .inval
    else .ok ({ resp with count, names := r.buf.drop r.off }, r)
  else if resp.type = msgData then
    match r.getSlice maxPacket with
    | (none, _) => .error .inval
    | (some names, r) => .ok ({ resp with names }, r)
  else .ok (resp, r)

def parseResponse (pkt : List UInt8) : Except Err (Response × Rbuf) :=
  match packetLen pkt with
  | .error e => .error e
  | .ok want =>
    if pkt.length ≠ want then .error .inval
    else
      let (type, r) := (Rbuf.init (pkt.drop 4)).getByte
      -- the version takes the place of the id
      let (word, r) := r.getU32
      if r.bad then .error .inval
      else if type = versionMsg then .ok ({ type, version := word }, r)
      else parseBody { type, id := word } r

/-! ## Missing fields -/

/-- A number as it stands in a packet. -/
def word (n : ℕ) : List UInt8 := writeBE32 (.ofNat n)

def dword (n : ℕ) : List UInt8 := word (n >>> 32) ++ word n

/-- The bytes of a field that is there if its flag is set. -/
def flagged (flag : Bool) (b : List UInt8) : List UInt8 := if flag then b else []

/-- Attributes as they stand in a packet, up to the extended pairs. -/
def Attrs.wire (a : Attrs) : List UInt8 :=
  word a.flags ++ flagged (a.flags.testBit 0) (dword a.size) ++
    flagged (a.flags.testBit 1) (word a.uid) ++ flagged (a.flags.testBit 1) (word a.gid) ++
    flagged (a.flags.testBit 2) (word a.permissions) ++ flagged (a.flags.testBit 3) (word a.atime) ++
    flagged (a.flags.testBit 3) (word a.mtime)

/-- The fields behind the id that a reply of its type reports. -/
def Response.body (resp : Response) : List UInt8 :=
  if resp.type = msgStatus then word resp.status
  else if resp.type = msgHandle then word (resp.handle.getD []).length ++ resp.handle.getD []
  else if resp.type = msgAttrs then resp.attrs.wire
  else if resp.type = msgName then word resp.count ++ resp.names
  else if resp.type = msgData then word resp.names.length ++ resp.names
  else []

/-- What a reply reports, as it stands in a packet. -/
def Response.wire (resp : Response) : List UInt8 :=
  resp.type :: if resp.type = versionMsg then word resp.version else word resp.id ++ resp.body

variable {r r' r'' : Rbuf} {resp : Response} {pkt b b' : List UInt8}

lemma take_cases (r : Rbuf) (n : ℕ) :
    (r.ok = true ∧ n ≤ r.buf.length - r.off ∧ r.take n = (some r.off, { r with off := r.off + n })) ∨
      (r.take n).2.ok = false ∧ ¬(r.ok = true ∧ n ≤ r.buf.length - r.off) := by
  unfold Rbuf.take Rbuf.ok Rbuf.fail
  cases hbad : r.bad with
  | true => simp [hbad]
  | false =>
    by_cases hn : n ≤ r.buf.length - r.off
    · simp [hn, Nat.not_lt.mpr hn]
    · simp [Nat.not_le.mp hn]

lemma getU32_snd (r : Rbuf) : r.getU32.2 = (r.take 4).2 := by
  unfold Rbuf.getU32
  split <;> simp_all

lemma getU32_ok (hok : r.ok = true) : r.getU32.2.ok = true ↔ 4 ≤ r.buf.length - r.off := by
  rw [getU32_snd]
  obtain ⟨-, hn, heq⟩ | ⟨hbad, hn⟩ := take_cases r 4
  · exact iff_of_true (by rw [heq]; exact hok) hn
  · exact iff_of_false (by simp [hbad]) fun hc => hn ⟨hok, hc⟩

/-- If its latch is not set at the end, the reader has read the bytes `b`. -/
def Reads (r : Rbuf) (b : List UInt8) (r' : Rbuf) : Prop :=
  r'.ok = true → r.ok = true ∧ r.buf.drop r.off = b ++ r'.buf.drop r'.off

namespace Reads

lemma refl (r : Rbuf) : Reads r [] r := fun h => ⟨h, rfl⟩

lemma trans (h : Reads r b r') (h' : Reads r' b' r'') : Reads r (b ++ b') r'' := by
  intro hok
  obtain ⟨hok', heq'⟩ := h' hok
  obtain ⟨hok, heq⟩ := h hok'
  exact ⟨hok, by rw [heq, heq', append_assoc]⟩

lemma getByte (r : Rbuf) : Reads r [r.getByte.1] r.getByte.2 := by
  unfold Rbuf.getByte
  obtain ⟨hok, hn, heq⟩ | ⟨hno, -⟩ := take_cases r 1
  · rw [heq]
    refine fun _ => ⟨hok, ?_⟩
    rw [drop_eq_getElem_cons (by omega), ← getD_eq_getElem]
    rfl
  · intro hok
    split at hok <;> simp_all

lemma getU32 (r : Rbuf) : Reads r (word r.getU32.1) r.getU32.2 := by
  intro hok
  obtain ⟨hok', hn, heq⟩ | ⟨hno, -⟩ := take_cases r 4
  · rw [Rbuf.getU32, heq, word, UInt32.ofNat_toNat]
    dsimp only
    rw [writeBE32_readBE32 _ _ hn, ← drop_drop, take_append_drop]
    exact ⟨hok', rfl⟩
  · rw [getU32_snd, hno] at hok
    cases hok

lemma getU64 (r : Rbuf) : Reads r (dword r.getU64.1) r.getU64.2 := by
  have hlow := r.getU32.2.getU32_lt
  have hval : r.getU64.1 = r.getU32.1 * 2 ^ 32 + r.getU32.2.getU32.1 := by
    rw [← Nat.shiftLeft_eq, Nat.shiftLeft_add_eq_or_of_lt hlow]
    rfl
  have hword : word r.getU64.1 = word r.getU32.2.getU32.1 := by
    rw [word, word, hval]
    congr 1
    apply UInt32.toNat_inj.mp
    simp
  have hshift : r.getU64.1 >>> 32 = r.getU32.1 := by
    rw [hval, Nat.shiftRight_eq_div_pow]
    omega
  rw [dword, hword, hshift]
  exact (getU32 r).trans (getU32 _)

lemma field (flag : Bool) {get : Rbuf → ℕ × Rbuf} {enc : ℕ → List UInt8}
    (h : Reads r (enc (get r).1) (get r).2) :
    Reads r (flagged flag (enc (field flag get r).1)) (field flag get r).2 := by
  cases flag
  · exact refl r
  · exact h

lemma getString {max i n : ℕ} (h : r.getString max = (some (i, n), r')) :
    r'.ok = true ∧ Reads r (word n ++ Fields.slice r'.buf i n) r' ∧ n ≤ r'.buf.length - i := by
  revert h
  fun_cases Rbuf.getString r max <;> intro h <;> cases h
  next hbad hword hn _ =>
  have hread := getU32 r
  rw [hword] at hread
  refine ⟨by simp_all [Rbuf.ok], hread.trans fun hok => ⟨hok, ?_⟩, Nat.not_lt.mp hn⟩
  rw [← drop_drop]
  exact (take_append_drop ..).symm

lemma getSlice {max : ℕ} (h : r.getSlice max = (some b, r')) :
    r'.ok = true ∧ Reads r (word b.length ++ b) r' := by
  revert h
  fun_cases Rbuf.getSlice r max <;> intro h <;> cases h
  next hstring =>
  obtain ⟨hok, hread, hn⟩ := getString hstring
  rw [Fields.slice, length_take_of_le (by rwa [length_drop])]
  exact ⟨hok, hread⟩

end Reads

lemma ok_of_skipPairs {n : ℕ} (h : (skipPairs n r).ok = true) : r.ok = true := by
  have hstring : ∀ r : Rbuf, (r.getString sizeMax).2.ok = true → r.ok = true := by
    intro r h
    refine (Reads.getU32 r ?_).1
    revert h
    fun_cases Rbuf.getString r sizeMax <;> simp_all [Rbuf.ok, Rbuf.fail]
  induction n generalizing r with
  | zero => exact h
  | succ n ih => exact hstring _ (hstring _ (ih h))

lemma wire_of_readAttrs {attrs : Attrs} (h : readAttrs r = (some attrs, r')) :
    r'.ok = true ∧ attrs.wire <+: r.buf.drop r.off := by
  unfold readAttrs at h
  dsimp only at h
  split_ifs at h with _ hbad <;> cases h
  rw [Bool.not_eq_true] at hbad
  have hok : Rbuf.ok _ = true := congrArg not hbad
  have hcount := (Reads.field _ (.getU32 _) (ok_of_skipPairs hok)).1
  have hread := ((Reads.getU32 r).trans (.field _ (.getU64 _)) |>.trans (.field _ (.getU32 _))
    |>.trans (.field _ (.getU32 _)) |>.trans (.field _ (.getU32 _)) |>.trans (.field _ (.getU32 _))
    |>.trans (.field _ (.getU32 _))) hcount
  exact ⟨hok, _, hread.2.symm⟩

/-- Only the code of a status may be missing. -/
theorem parseBody_ok {resp' : Response} (hok : r.ok = true)
    (h : parseBody resp r = .ok (resp', r')) :
    resp'.type = resp.type ∧ resp'.id = resp.id ∧
      (r'.ok = true ↔ (resp.type = msgStatus → 4 ≤ r.buf.length - r.off)) ∧
      (r'.ok = true → resp'.body <+: r.buf.drop r.off) := by
  have hread : ∀ {b}, Reads r b r' → r'.ok = true → b <+: r.buf.drop r.off :=
    fun h hok' => ⟨_, (h hok').2.symm⟩
  revert h
  fun_cases parseBody resp r <;> intro h <;> cases h <;> refine ⟨rfl, rfl, ?_⟩ <;>
    simp_all only [Response.body, if_true, if_false]
  case case1 => exact ⟨by simp [getU32_ok hok], hread (.getU32 r)⟩
  case case3 hslice | case10 hslice =>
    obtain ⟨hok', h⟩ := Reads.getSlice hslice
    exact ⟨by simp_all, hread h⟩
  case case5 hattrs =>
    obtain ⟨hok', h⟩ := wire_of_readAttrs hattrs
    exact ⟨by simp_all, fun _ => h⟩
  case case8 hword hbad _ =>
    have h := Reads.getU32 r
    rw [hword] at h
    exact ⟨by simp_all [Rbuf.ok], fun hok' => (h hok').2 ▸ prefix_rfl⟩
  case case11 => exact ⟨by simp_all, fun _ => nil_prefix⟩

/-- Every field of a reply was in the packet, but for the code of a status that is too short. -/
theorem response_present_iff (h : parseResponse pkt = .ok (resp, r)) :
    (resp.wire <+: pkt.drop 4 ↔ ¬(pkt.getD 4 0 = msgStatus ∧ pkt.length < 13)) ∧
      (r.ok = true ↔ ¬(pkt.getD 4 0 = msgStatus ∧ pkt.length < 13)) := by
  unfold parseResponse at h
  split at h
  · cases h
  next want hwant =>
  split at h
  · cases h
  dsimp only at h
  split at h
  · cases h
  next hbad =>
  rw [Bool.not_eq_true] at hbad
  obtain ⟨-, hpkt⟩ := (Reads.getByte _).trans (.getU32 _) (congrArg not hbad)
  rw [Rbuf.getByte_init] at h hpkt
  generalize Rbuf.getU32 _ = x at h hbad hpkt
  obtain ⟨id, r0⟩ := x
  have hhead : (pkt.drop 4).getD 0 0 = pkt.getD 4 0 := by simp
  have hlen := congrArg length hpkt
  simp only [Rbuf.init, drop_zero, length_drop, length_append, word,
    length_writeBE32, length_singleton] at hlen
  change pkt.drop 4 = _ at hpkt
  rw [hhead] at h hpkt
  split at h
  · next hversion =>
    obtain ⟨rfl, rfl⟩ := Prod.mk.inj (Except.ok.inj h)
    have hno : ¬(pkt.getD 4 0 = msgStatus ∧ pkt.length < 13) :=
      fun hc => absurd (hversion.symm.trans hc.1) (by decide)
    refine ⟨iff_of_true ?_ hno, iff_of_true (congrArg not hbad) hno⟩
    rw [Response.wire, if_pos hversion]
    exact ⟨_, hpkt.symm⟩
  next hversion =>
  obtain ⟨htype, hid, hok, hbody⟩ := parseBody_ok (congrArg not hbad) h
  have hiff : r.ok = true ↔ ¬(pkt.getD 4 0 = msgStatus ∧ pkt.length < 13) := by
    rw [hok, not_and, Nat.not_lt]
    refine imp_congr_right fun _ => ?_
    dsimp only
    omega
  refine ⟨⟨fun hprefix hshort => ?_, fun hno => ?_⟩, hiff⟩
  · have hle := hprefix.length_le
    rw [Response.wire, htype, if_neg hversion, Response.body, htype, if_pos hshort.1] at hle
    simp [word] at hle
    omega
  · rw [Response.wire, htype, if_neg hversion, hid, hpkt]
    obtain ⟨rest, hrest⟩ := hbody (hiff.mpr hno)
    exact ⟨rest, by simp [← hrest]⟩

/-- A status without its code is read as a success. -/
theorem truncated_status_accepted :
    ∃ r, parseResponse [0, 0, 0, 5, 101, 0, 0, 0, 7] = .ok ({ type := 101, id := 7 }, r) ∧
      r.ok = false ∧ ¬({ type := 101, id := 7 } : Response).wire <+: [101, 0, 0, 0, 7] :=
  ⟨_, rfl, rfl, by decide⟩

theorem response_present_status :
    ∃ r, parseResponse [0, 0, 0, 9, 101, 0, 0, 0, 7, 0, 0, 0, 4] =
      .ok ({ type := 101, id := 7, status := 4 }, r) ∧ r.ok = true :=
  ⟨_, rfl, (@response_present_iff _ { type := 101, id := 7, status := 4 }
    [0, 0, 0, 9, 101, 0, 0, 0, 7, 0, 0, 0, 4] rfl).2.mpr (by decide)⟩

end Sftp

end Ssh
