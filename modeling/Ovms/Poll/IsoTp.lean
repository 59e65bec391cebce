import Ovms.Poll.Model
import Ovms.Lib.IsoTp
import Ovms.Lib.Machine

/-!
# The ISO-TP Engine

`PollerISOTPStart` and `PollerISOTPReceive` (`vehicle_poller_isotp.cpp`), and the two
callers that lead to them: the dispatch of a poll entry in `PollerSend`, and
`OvmsPoller::Incoming`. There are three addressing variants. In extended addressing the
first data byte of a frame belongs to the address, and seven bytes are left.

The stages of the receive function are definitions of their own: `tpMeta` reads the
transport header, `receiveFlowCtrl` continues a transmission, `outOfSequence` aborts the
poll, `receiveData` checks the response header and delivers the slice, and `moreData`
acknowledges a first frame and counts on.
-/

open Ovms.Can

namespace Ovms.Poll

/-! ### Frame layout -/

/-- Where the transport data of a frame starts. -/
def Protocol.frOffset : Protocol → ℕ
  | isotpExtAdr => 1
  | _ => 0

/-- `fr_maxlen`. -/
def Protocol.frMaxlen : Protocol → ℕ
  | isotpExtAdr => 7
  | _ => 8

theorem Protocol.frOffset_add_frMaxlen (p : Protocol) : p.frOffset + p.frMaxlen = 8 := by
  cases p <;> rfl

/-- The format of a transmitted frame. -/
def Protocol.frameFormat : Protocol → FrameFormat
  | isotpExtFrame => .ext
  | _ => .std

/-- The identifier a module is addressed by on the wire. -/
def Protocol.txMsgId (p : Protocol) (txid : UInt32) : UInt32 :=
  match p with
  | isotpExtAdr => txid >>> 8
  | _ => txid

/-- The address bytes before the transport data. -/
def Protocol.address (p : Protocol) (txid : UInt32) : List UInt8 :=
  match p with
  | isotpExtAdr => [(txid &&& 0xff).toUInt8]
  | _ => []

/-- A frame to a module, filled up with a byte. -/
def txFrame (s : Poller) (origin : ℕ) (txid : UInt32) (filler : UInt8) (tp : List UInt8) :
    CanFrame where
  origin := origin
  format := s.protocol.frameFormat
  msgId := s.protocol.txMsgId txid
  dlc := lengthCode 8
  data := fill filler (s.protocol.address txid ++ tp)
  size := length_fill _ _

/-- The transport data of a frame. -/
def tpBytes (p : Protocol) (f : CanFrame) : List UInt8 := f.data.drop p.frOffset

/-! ### Start of a request -/

/-- The broadcast identifier of OBD2 requests. -/
def obdBroadcast : UInt32 := 0x7df

/-- The first stage of `PollerISOTPStart`: who is asked, and who may answer. -/
def expectModules (s : Poller) : Poller :=
  if s.entry.rxmoduleid ≠ 0 then
    { s with
      moduleidSent := s.entry.txmoduleid
      moduleidLow := s.entry.rxmoduleid
      moduleidHigh := s.entry.rxmoduleid }
  else { s with moduleidSent := obdBroadcast, moduleidLow := 0x7e8, moduleidHigh := 0x7ef }

/-- The transport header of a request: single frame, or first frame with a length field of
twelve bits. -/
def startPci (frMaxlen : ℕ) (tpLen : UInt16) : List UInt8 :=
  if tpLen.toNat ≤ frMaxlen - 1 then [.ofNat (0 <<< 4 + tpLen.toNat)]
  else [.ofNat (1 <<< 4 + (tpLen.toNat &&& 0x0f00) >>> 8), .ofNat (tpLen.toNat &&& 0xff)]

/-- `PollerISOTPStart`. -/
def pollerIsotpStart (s : Poller) : Poller × List Effect :=
  let s := expectModules s
  let (txData, txDatalen) := s.entry.args.txData
  let frMaxlen := s.protocol.frMaxlen
  let hdr := 1 + pidLen s.entry.type.toNat
  let tpLen : UInt16 := .ofNat (hdr + txDatalen)
  let tpDatalen := if tpLen.toNat ≤ frMaxlen - 1 then frMaxlen - 1 else frMaxlen - 2
  let head := s.type.toUInt8 :: pidBytes s.entry.type.toNat s.pid
  let txDatasent := min txDatalen (tpDatalen - hdr)
  let frame := txFrame s s.bus s.moduleidSent 0x55
    (startPci frMaxlen tpLen ++ head ++ txData.take txDatasent)
  ({ s with
      txMsgid := frame.msgId
      txFrame := 0
      txData := txData
      txOffset := .ofNat txDatasent
      txRemain := .ofNat (txDatalen - txDatasent)
      mlframe := 0
      mloffset := 0
      mlremain := 0
      waiting := true },
    [.write frame])

/-- The dispatch of a due poll entry in `PollerSend`, for the ISO-TP protocols. -/
def pollerSendEntry (s : Poller) (entry : PollPid) : Poller × List Effect :=
  pollerIsotpStart { s with
    entry := entry, protocol := entry.protocol, type := entry.type, pid := entry.args.pid }

/-! ### Transport header of a received frame -/

/-- ISO-TP frame types, `ISOTP_FT_*`. -/
inductive FrameType
  | single | first | consecutive | flowctrl
  deriving DecidableEq, Repr

/-- The upper four bits of the first transport byte. -/
def frameType (b : UInt8) : Option FrameType :=
  if b >>> 4 = 0 then some .single
  else if b >>> 4 = 1 then some .first
  else if b >>> 4 = 2 then some .consecutive
  else if b >>> 4 = 3 then some .flowctrl
  else none

/-- The transport meta data: `tp_frameindex`, `tp_len`, and address and length of the data
section. -/
structure TpMeta where
  frameindex : ℕ
  len : ℕ
  data : ℕ
  datalen : ℕ
  deriving DecidableEq, Repr

/-- The transport meta data of a data frame. -/
def tpMeta (s : Poller) (f : CanFrame) (ft : FrameType) : TpMeta :=
  let fr := s.protocol.frOffset
  let frMaxlen := s.protocol.frMaxlen
  match ft with
  | .first =>
      let len := (f.u8 fr &&& 0x0f).toNat <<< 8 ||| (f.u8 (fr + 1)).toNat
      ⟨0, len, fr + 2, if len > frMaxlen - 2 then frMaxlen - 2 else len⟩
  | .consecutive =>
      let len := s.mlremain.toNat
      ⟨(f.u8 fr &&& 0x0f).toNat, len, fr + 1, if len > frMaxlen - 1 then frMaxlen - 1 else len⟩
  | _ =>
      let len := (f.u8 fr &&& 0x0f).toNat
      ⟨0, len, fr + 1, len⟩

/-! ### Flow control -/

/-- The module a transmitted frame goes to: the one asked, or on a broadcast the one that
answered. -/
def replyTxid (s : Poller) (f : CanFrame) : UInt32 :=
  if s.moduleidSent = obdBroadcast then f.msgId - 8 else s.moduleidSent

/-- The next consecutive frame of a transmission. -/
def consecutiveFrame (s : Poller) (f : CanFrame) : CanFrame :=
  let txDatasent := min s.txRemain.toNat (s.protocol.frMaxlen - 1)
  txFrame s f.origin (replyTxid s f) 0x55
    (.ofNat (2 <<< 4 + ((s.txFrame + 1) &&& 0x0f).toNat) ::
      (s.txData.drop s.txOffset.toNat).take txDatasent)

/-- The counters after it. -/
def consecutiveSent (s : Poller) : Poller :=
  let txDatasent := min s.txRemain.toNat (s.protocol.frMaxlen - 1)
  { s with
    txFrame := s.txFrame + 1
    txOffset := s.txOffset + .ofNat txDatasent
    txRemain := .ofNat (s.txRemain.toNat - txDatasent) }

/-- Every frame takes at least one byte of the rest. -/
theorem txRemain_consecutiveSent_lt {s : Poller} (h : s.txRemain ≠ 0) :
    (consecutiveSent s).txRemain.toNat < s.txRemain.toNat := by
  have hpos : s.txRemain.toNat ≠ 0 := fun h0 => h (UInt16.toNat_inj.mp h0)
  have hmax : 7 ≤ s.protocol.frMaxlen := by
    cases s.protocol <;> decide
  have hlt := s.txRemain.toNat_lt
  rw [consecutiveSent, UInt16.toNat_ofNat']
  omega

/-- The loop of the flow control branch. `framecnt` is the number of frames the peer still
takes in this block, `0` for no limit. -/
def sendConsecutive (s : Poller) (f : CanFrame) (framecnt : UInt8) : Poller × List Effect :=
  if h : s.txRemain = 0 then (s, [])
  else
    let t := consecutiveSent s
    if t.txRemain = 0 then (t, [.write (consecutiveFrame s f)])
    else if framecnt > 0 ∧ framecnt - 1 = 0 then (t, [.write (consecutiveFrame s f)])
    else
      let r := sendConsecutive t f (if framecnt > 0 then framecnt - 1 else framecnt)
      (r.1, .write (consecutiveFrame s f) :: r.2)
termination_by s.txRemain.toNat
decreasing_by exact txRemain_consecutiveSent_lt h

/-- The flow control branch of `PollerISOTPReceive`. -/
def receiveFlowCtrl (s : Poller) (f : CanFrame) : Poller × Reply :=
  let fr := s.protocol.frOffset
  let command := f.u8 fr &&& 0x0f
  if command > 2 ∨ s.txRemain = 0 then (s, .ignored)
  else if command = 1 then ({ s with waiting := true }, ⟨true, []⟩)
  else if command = 2 then ({ s with txRemain := 0 }, ⟨true, []⟩)
  else
    let r := sendConsecutive s f (f.u8 (fr + 1))
    let s := if r.1.txRemain ≠ 0 then { r.1 with waiting := true } else r.1
    (s, ⟨true, r.2⟩)

/-! ### Data frames -/

/-- The flow control frame that answers a first frame. -/
def flowCtrlFrame (s : Poller) (f : CanFrame) : CanFrame :=
  txFrame s f.origin (replyTxid s f) 0x00 [0x30, 0x00, s.fcSeptime]

/-- The last stages of `PollerISOTPReceive`: more data to come, or the next poll. -/
def moreData (s : Poller) (f : CanFrame) (ft : FrameType) (datalen : UInt16) :
    Poller × List Effect :=
  if s.mlremain ≠ 0 then
    let ack := if ft = .first then [.write (flowCtrlFrame s f)] else []
    let mlframe := if ft = .first then 1 else s.mlframe + 1
    ({ s with mlframe := mlframe, mloffset := s.mloffset + datalen, waiting := true }, ack)
  else
    let s := { s with waiting := false }
    if s.moduleidSent ≠ obdBroadcast then pollerSucceededPollNext s else (s, [])

/-- The response meta data of a data frame. -/
def responseMeta (s : Poller) (f : CanFrame) (ft : FrameType) : ResponseMeta :=
  let tp := tpMeta s f ft
  if ft = .consecutive then nextResponse s tp.data tp.datalen
  else firstResponse f tp.data tp.datalen s.pid

/-- The slice of a matching response, handed over with the remaining length. -/
def deliver (s : Poller) (f : CanFrame) (msgid : UInt32) (tp : TpMeta) (r : ResponseMeta) :
    Packet :=
  ⟨{ s with mlremain := .ofInt (tp.len - tp.datalen), moduleidRec := msgid }, f.data, r.data,
    r.datalen.toUInt8⟩

/-- The data branch of `PollerISOTPReceive`, behind the check of the frame index. -/
def receiveData (s : Poller) (f : CanFrame) (msgid : UInt32) (ft : FrameType) :
    Poller × Reply :=
  let r := responseMeta s f ft
  if r.IsError s then
    if r.errorCode = udsRespNrcRcrrp then ({ s with waiting := true }, ⟨true, []⟩)
    else
      let s := { s with moduleidRec := msgid, mlframe := 0, mloffset := 0, mlremain := 0 }
      let next := moreData s f ft r.datalen
      (next.1, ⟨true, .error s r.errorCode :: next.2⟩)
  else if r.Matches s then
    let p := deliver s f msgid (tpMeta s f ft) r
    let next := moreData p.job f ft r.datalen
    (next.1, ⟨true, .packet p :: next.2⟩)
  else (s, .ignored)

/-- A consecutive frame out of sequence: ignore further frames, and give the bus time. -/
def outOfSequence (s : Poller) (index : ℕ) : Poller × Reply :=
  ({ s with moduleidLow := 0, moduleidHigh := 0, waiting := true },
    ⟨true, [.outOfSequence index (s.mlframe &&& 0x0f).toNat]⟩)

/-- The check of the frame index fails: nothing is expected, or the index is beyond the
expected one. A lower index is tolerated, as some devices begin counting at the first
consecutive frame. -/
def BadIndex (s : Poller) (index : ℕ) : Prop :=
  s.mlremain = 0 ∨ index > (s.mlframe &&& 0x0f).toNat

instance (s : Poller) (index : ℕ) : Decidable (BadIndex s index) :=
  inferInstanceAs (Decidable (_ ∨ _))

/-- The poller listens to a frame: it waits, has a poll list, and the frame comes from its
bus and from a module of the expected range. -/
def Listens (s : Poller) (f : CanFrame) (msgid : UInt32) : Prop :=
  s.waiting = true ∧ s.hasPollList = true ∧ f.origin = s.bus ∧
    s.moduleidLow ≤ msgid ∧ msgid ≤ s.moduleidHigh

instance (s : Poller) (f : CanFrame) (msgid : UInt32) : Decidable (Listens s f msgid) :=
  inferInstanceAs (Decidable (_ ∧ _ ∧ _ ∧ _ ∧ _))

/-- `PollerISOTPReceive`. -/
def pollerIsotpReceive (s : Poller) (f : CanFrame) (msgid : UInt32) : Poller × Reply :=
  if ¬ Listens s f msgid then (s, .ignored)
  else
    match frameType (f.u8 s.protocol.frOffset) with
    | none => (s, .ignored)
    | some .flowctrl => receiveFlowCtrl s f
    | some .consecutive =>
        let index := (tpMeta s f .consecutive).frameindex
        if BadIndex s index then outOfSequence s index
        else receiveData s f msgid .consecutive
    | some ft => receiveData s f msgid ft

/-! ### The frame filter -/

/-- The module a frame comes from: in extended addressing its first data byte belongs to
the address. -/
def frameModule (s : Poller) (f : CanFrame) : UInt32 :=
  match s.protocol with
  | .isotpExtAdr => f.msgId <<< 8 ||| (f.u8 0).toUInt32
  | _ => f.msgId

/-- `OvmsPoller::Incoming` for a frame that belongs to no VW-TP channel. -/
def incoming (s : Poller) (f : CanFrame) : Poller × Reply :=
  if s.type = 0 ∨ f.origin ≠ s.bus ∨ s.entry.txmoduleid = 0 ∨ s.waiting = false then
    (s, .ignored)
  else
    let msgid := frameModule s f
    if s.moduleidLow ≤ msgid ∧ msgid ≤ s.moduleidHigh then pollerIsotpReceive s f msgid
    else (s, .ignored)

end Ovms.Poll
