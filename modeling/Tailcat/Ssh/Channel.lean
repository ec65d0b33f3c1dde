import Tailcat.Ssh.Wire

/-!
# The session channel

`src/ssh/channel.c`: the messages of the one channel, and the two windows of its flow control. Channel
ids, windows and sizes are natural numbers below `2 ^ 32`.

## Main results

* `of_channelDataBuild` and `channelDataBuild_ok`: what a packet of data is, and when it is framed.
-/

namespace Ssh

open Wbuf

/-! ## Constants -/

/-- `TC_SSH_MAX_PAYLOAD`. -/
def maxPayload : ℕ := 32768
/-- `TC_SSH_CHANNEL_DATA_OVERHEAD`. -/
def channelDataOverhead : ℕ := 9
/-- `TC_SSH_CHAN_WINDOW`. -/
def chanWindow : ℕ := 65536
/-- `TC_SSH_CHAN_MAX_PACKET`. -/
def chanMaxPacket : ℕ := 16384
/-- `TC_SSH_CHAN_WINDOW_LOW`. -/
def chanWindowLow : ℕ := chanWindow / 2
/-- `TC_SSH_MAX_SUBSYSTEM`. -/
def maxSubsystem : ℕ := 32
/-- `TC_SSH_OPEN_UNKNOWN_CHANNEL_TYPE`. -/
def openUnknownChannelType : ℕ := 3

/-- `TC_SSH_MSG_GLOBAL_REQUEST`. -/
def msgGlobalRequest : UInt8 := 80
/-- `TC_SSH_MSG_REQUEST_SUCCESS`. -/
def msgRequestSuccess : UInt8 := 81
/-- `TC_SSH_MSG_REQUEST_FAILURE`. -/
def msgRequestFailure : UInt8 := 82
/-- `TC_SSH_MSG_CHANNEL_OPEN`. -/
def msgChannelOpen : UInt8 := 90
/-- `TC_SSH_MSG_CHANNEL_OPEN_CONFIRMATION`. -/
def msgChannelOpenConfirmation : UInt8 := 91
/-- `TC_SSH_MSG_CHANNEL_OPEN_FAILURE`. -/
def msgChannelOpenFailure : UInt8 := 92
/-- `TC_SSH_MSG_CHANNEL_WINDOW_ADJUST`. -/
def msgChannelWindowAdjust : UInt8 := 93
/-- `TC_SSH_MSG_CHANNEL_DATA`. -/
def msgChannelData : UInt8 := 94
/-- `TC_SSH_MSG_CHANNEL_EOF`. -/
def msgChannelEof : UInt8 := 96
/-- `TC_SSH_MSG_CHANNEL_CLOSE`. -/
def msgChannelClose : UInt8 := 97
/-- `TC_SSH_MSG_CHANNEL_REQUEST`. -/
def msgChannelRequest : UInt8 := 98
/-- `TC_SSH_MSG_CHANNEL_SUCCESS`. -/
def msgChannelSuccess : UInt8 := 99
/-- `TC_SSH_MSG_CHANNEL_FAILURE`. -/
def msgChannelFailure : UInt8 := 100

/-! ## The channel -/

structure Channel where
  isOpen : Bool
  closed : Bool
  localId : ℕ
  remoteId : ℕ
  /-- How much more the peer may send. -/
  localWindow : ℕ
  /-- How much more we may send. -/
  remoteWindow : ℕ
  remoteMaxPacket : ℕ
  eofSent : Bool
  started : Bool
  subsystem : List UInt8
  deriving DecidableEq

def channelInit : Channel :=
  { isOpen := false, closed := false, localId := 0, remoteId := 0, localWindow := chanWindow
    remoteWindow := 0, remoteMaxPacket := 0, eofSent := false, started := false, subsystem := [] }

/-- What an accepted channel takes from the peer, with the limit that we believe. -/
def Channel.adopt (ch : Channel) (remoteId window maxPacket : ℕ) : Channel :=
  { ch with
    remoteId, remoteWindow := window
    remoteMaxPacket := if maxPacket > maxPayload then maxPayload else maxPacket }

/-- `tc_ssh_channel_open_parse`: the channel and its type. -/
def channelOpenParse (ch : Channel) (typeCap : ℕ) (payload : List UInt8) :
    Except Err (Channel × List UInt8) :=
  let (msg, r) := (Rbuf.init payload).getByte
  if msg ≠ msgChannelOpen then .error .inval
  else
    match r.getCstring typeCap with
    | (none, _) => .error .inval
    | (some type, r) =>
      let (remoteId, r) := r.getU32
      let (window, r) := r.getU32
      let (maxPacket, r) := r.getU32
      if r.bad then .error .inval
      -- packets without a byte cannot be sent
      else if maxPacket = 0 then .error .inval
      else .ok (ch.adopt remoteId window maxPacket, type)

def channelConfirmParse (ch : Channel) (payload : List UInt8) : Except Err Channel :=
  let (msg, r) := (Rbuf.init payload).getByte
  if msg ≠ msgChannelOpenConfirmation then .error .inval
  else
    let (id, r) := r.getU32
    if id ≠ ch.localId then .error .inval
    else
      let (remoteId, r) := r.getU32
      let (window, r) := r.getU32
      let (maxPacket, r) := r.getU32
      if r.bad then .error .inval
      else if maxPacket = 0 then .error .inval
      else .ok { ch.adopt remoteId window maxPacket with isOpen := true }

def channelConfirmBuild (cap : ℕ) (ch : Channel) : Except Err (List UInt8) :=
  ((((((init cap).putByte msgChannelOpenConfirmation).putU32 ch.remoteId).putU32
    ch.localId).putU32 ch.localWindow).putU32 chanMaxPacket).finish

def channelOpenFailureBuild (cap remoteId reason : ℕ) (message : List UInt8) :
    Except Err (List UInt8) :=
  ((((((init cap).putByte msgChannelOpenFailure).putU32 remoteId).putU32 reason).putString
    message).putString []).finish

def channelOpenBuild (cap : ℕ) (ch : Channel) : Except Err (List UInt8) :=
  ((((((init cap).putByte msgChannelOpen).putString (ascii "session")).putU32 ch.localId).putU32
    ch.localWindow).putU32 chanMaxPacket).finish

def channelSubsystemBuild (cap : ℕ) (ch : Channel) (name : List UInt8) : Except Err (List UInt8) :=
  ((((((init cap).putByte msgChannelRequest).putU32 ch.remoteId).putString
    (ascii "subsystem")).putBool true).putString name).finish

/-! ## Requests -/

inductive RequestType
  | subsystem
  | exec
  | shell
  | pty
  | windowChange
  | other
  deriving DecidableEq

structure Pty where
  term : List UInt8 := []
  cols : ℕ := 0
  rows : ℕ := 0
  widthPx : ℕ := 0
  heightPx : ℕ := 0
  deriving DecidableEq

structure ChannelRequest where
  type : RequestType
  wantReply : Bool
  arg : List UInt8 := []
  pty : Pty := {}
  deriving DecidableEq

def getDimensions (term : List UInt8) (r : Rbuf) : Pty × Rbuf :=
  let (cols, r) := r.getU32
  let (rows, r) := r.getU32
  let (widthPx, r) := r.getU32
  let (heightPx, r) := r.getU32
  ({ term, cols, rows, widthPx, heightPx }, r)

/-- The part of `tc_ssh_channel_request_parse` that depends on the type of the request. -/
def channelRequestBody (type : List UInt8) (wantReply : Bool) (r : Rbuf) : Except Err ChannelRequest :=
  if type = ascii "subsystem" then
    match r.getCstring 256 with
    | (none, _) => .error .inval
    | (some arg, _) => .ok { type := .subsystem, wantReply, arg }
  else if type = ascii "exec" then
    match r.getCstring 256 with
    | (none, _) => .error .inval
    | (some arg, _) => .ok { type := .exec, wantReply, arg }
  else if type = ascii "shell" then .ok { type := .shell, wantReply }
  else if type = ascii "pty-req" then
    -- a name that does not fit is left out, and the numbers after it are still read
    let (name, r) := r.getString sizeMax
    let term :=
      match name with
      | some (i, n) =>
        let name := Fields.slice r.buf i n
        if n < 64 && !name.contains 0 then name else []
      | none => []
    let (pty, r) := getDimensions term r
    if r.bad then .error .inval else .ok { type := .pty, wantReply, pty }
  else if type = ascii "window-change" then
    let (pty, r) := getDimensions [] r
    if r.bad then .error .inval else .ok { type := .windowChange, wantReply, pty }
  else .ok { type := .other, wantReply }

def channelRequestParse (ch : Channel) (payload : List UInt8) : Except Err ChannelRequest :=
  let (msg, r) := (Rbuf.init payload).getByte
  if msg ≠ msgChannelRequest then .error .inval
  else
    let (id, r) := r.getU32
    if id ≠ ch.localId then .error .inval
    else
      match r.getCstring 64 with
      | (none, _) => .error .inval
      | (some type, r) =>
        let (wantReply, r) := r.getBool
        if r.bad then .error .inval else channelRequestBody type wantReply r

def channelReplyBuild (cap remoteId : ℕ) (success : Bool) : Except Err (List UInt8) :=
  (((init cap).putByte (if success then msgChannelSuccess else msgChannelFailure)).putU32
    remoteId).finish

def channelExitStatusBuild (cap : ℕ) (ch : Channel) (status : ℕ) : Except Err (List UInt8) :=
  ((((((init cap).putByte msgChannelRequest).putU32 ch.remoteId).putString
    (ascii "exit-status")).putBool false).putU32 status).finish

/-! ## Data and windows -/

/-- `tc_ssh_channel_data_parse`: where the data is in the payload, and how long it is. -/
def channelDataParse (ch : Channel) (payload : List UInt8) : Except Err (Channel × ℕ × ℕ) :=
  let (msg, r) := (Rbuf.init payload).getByte
  if msg ≠ msgChannelData then .error .inval
  else
    let (id, r) := r.getU32
    if id ≠ ch.localId then .error .inval
    else
      match r.getString maxPayload with
      | (none, _) => .error .inval
      | (some (i, n), _) =>
        -- the peer overran the window
        if n > ch.localWindow then .error .toomany
        else .ok ({ ch with localWindow := ch.localWindow - n }, i, n)

def channelDataBuild (cap : ℕ) (ch : Channel) (data : List UInt8) :
    Except Err (Channel × List UInt8) :=
  if data.length > ch.remoteWindow then .error .again
  else if data.length > ch.remoteMaxPacket then .error .again
  else
    match ((((init cap).putByte msgChannelData).putU32 ch.remoteId).putString data).finish with
    | .error e => .error e
    | .ok msg => .ok ({ ch with remoteWindow := ch.remoteWindow - data.length }, msg)

/-- `tc_ssh_channel_window_needed`: by how much our window should be extended. -/
def channelWindowNeeded (ch : Channel) : Option ℕ :=
  if ch.localWindow > chanWindowLow then none else some (chanWindow - ch.localWindow)

def channelWindowAdjustBuild (cap : ℕ) (ch : Channel) (increment : ℕ) :
    Except Err (Channel × List UInt8) :=
  if increment = 0 then .error .inval
  else if increment > 2 ^ 32 - 1 - ch.localWindow then .error .range
  else
    match ((((init cap).putByte msgChannelWindowAdjust).putU32 ch.remoteId).putU32
        increment).finish with
    | .error e => .error e
    | .ok msg => .ok ({ ch with localWindow := ch.localWindow + increment }, msg)

def channelWindowAdjustParse (ch : Channel) (payload : List UInt8) : Except Err Channel :=
  let (msg, r) := (Rbuf.init payload).getByte
  if msg ≠ msgChannelWindowAdjust then .error .inval
  else
    let (id, r) := r.getU32
    if id ≠ ch.localId then .error .inval
    else
      let (inc, r) := r.getU32
      if r.bad then .error .inval
      else if inc > 2 ^ 32 - 1 - ch.remoteWindow then .error .range
      else .ok { ch with remoteWindow := ch.remoteWindow + inc }

def channelEofBuild (cap : ℕ) (ch : Channel) : Except Err (Channel × List UInt8) :=
  match (((init cap).putByte msgChannelEof).putU32 ch.remoteId).finish with
  | .error e => .error e
  | .ok msg => .ok ({ ch with eofSent := true }, msg)

def channelCloseBuild (cap : ℕ) (ch : Channel) : Except Err (Channel × List UInt8) :=
  match (((init cap).putByte msgChannelClose).putU32 ch.remoteId).finish with
  | .error e => .error e
  | .ok msg => .ok ({ ch with closed := true }, msg)

/-! ## Rules -/

def dataMessage (remoteId : ℕ) (data : List UInt8) : List UInt8 :=
  msgChannelData :: (ByteOrder.writeBE32 (.ofNat remoteId) ++
    ByteOrder.writeBE32 (.ofNat data.length) ++ data)

variable {ch ch' : Channel} {cap inc : ℕ} {data msg : List UInt8}

theorem of_channelDataBuild (h : channelDataBuild cap ch data = .ok (ch', msg)) :
    ch' = { ch with remoteWindow := ch.remoteWindow - data.length } ∧
      msg = dataMessage ch.remoteId data ∧ data.length ≤ ch.remoteMaxPacket := by
  unfold channelDataBuild at h
  split_ifs at h with _ hmax
  split at h
  · cases h
  rename_i hbuild
  obtain ⟨rfl, rfl⟩ := Prod.mk.inj (Except.ok.inj h)
  obtain ⟨m, hid, rfl⟩ := of_finish_putString hbuild
  obtain ⟨m', htype, rfl⟩ := of_finish_putRaw hid
  obtain ⟨m'', hinit, rfl⟩ := of_finish_putRaw htype
  obtain rfl := Except.ok.inj ((finish_init cap).symm.trans hinit)
  exact ⟨rfl, by simp [dataMessage], by omega⟩

/-- Data that the window and the peer's limit allow, and that fits the buffer, is framed. -/
theorem channelDataBuild_ok (hwindow : data.length ≤ ch.remoteWindow)
    (hmax : data.length ≤ ch.remoteMaxPacket) (hcap : data.length + channelDataOverhead ≤ cap)
    (hlen : data.length < 2 ^ 32) :
    channelDataBuild cap ch data =
      .ok ({ ch with remoteWindow := ch.remoteWindow - data.length },
        dataMessage ch.remoteId data) := by
  have hcap' : data.length + 9 ≤ cap := hcap
  -- each of the four fields fits
  have htype : ((init cap).putByte msgChannelData).finish = .ok [msgChannelData] :=
    finish_putRaw (finish_init cap) (by simp [init]; omega)
  have hid := finish_putRaw (b := ByteOrder.writeBE32 (.ofNat ch.remoteId)) htype
    (by simp [putByte, cap_putRaw, init]; omega)
  have hsize := finish_putRaw (b := ByteOrder.writeBE32 (.ofNat data.length)) hid
    (by simp [putByte, cap_putRaw, init]; omega)
  have hdata := finish_putRaw (b := data) hsize (by simp [putByte, cap_putRaw, init]; omega)
  have hbuild : ((((init cap).putByte msgChannelData).putU32 ch.remoteId).putString
      data).finish = .ok (dataMessage ch.remoteId data) := by
    rw [putString, if_neg (by omega)]
    simpa [dataMessage, putU32] using hdata
  rw [channelDataBuild, if_neg (by omega), if_neg (by omega), hbuild]

lemma channelWindowAdjustBuild_ne_done {e : Err}
    (h : channelWindowAdjustBuild cap ch inc = .error e) : e ≠ .done := by
  rintro rfl
  revert h
  fun_cases channelWindowAdjustBuild cap ch inc <;> intro h <;> cases h
  exact finish_ne_done ‹_› rfl

lemma of_channelWindowAdjustBuild (h : channelWindowAdjustBuild cap ch inc = .ok (ch', msg)) :
    ch' = { ch with localWindow := ch.localWindow + inc } := by
  unfold channelWindowAdjustBuild at h
  split_ifs at h
  split at h
  · cases h
  · exact (Prod.mk.inj (Except.ok.inj h)).1.symm

lemma of_channelWindowAdjustParse {payload : List UInt8}
    (h : channelWindowAdjustParse ch payload = .ok ch') :
    ch' = { ch with remoteWindow := ch'.remoteWindow } := by
  unfold channelWindowAdjustParse at h
  dsimp only at h
  split_ifs at h
  rw [← Except.ok.inj h]

lemma of_channelEofBuild (h : channelEofBuild cap ch = .ok (ch', msg)) :
    ch' = { ch with eofSent := true } := by
  unfold channelEofBuild at h
  split at h
  · cases h
  · exact (Prod.mk.inj (Except.ok.inj h)).1.symm

lemma getD_channelWindowAdjustBuild (h : channelWindowAdjustBuild cap ch inc = .ok (ch', msg)) :
    msg.getD 0 0 = msgChannelWindowAdjust := by
  unfold channelWindowAdjustBuild at h
  split_ifs at h
  split at h
  · cases h
  rename_i hbuild
  obtain ⟨-, rfl⟩ := Prod.mk.inj (Except.ok.inj h)
  refine Starts.finish ?_ hbuild
  exact ((starts_putByte cap msgChannelWindowAdjust).putU32 _).putU32 _

end Ssh
