import Ovms.Poll.Model
import Ovms.Lib.Machine

/-!
# The VW-TP Engine

`PollerVWTPStart`, `PollerVWTPEnter`, `PollerVWTPReceive`, `PollerVWTPTxCallback` and
`PollerVWTPTicker` (`vehicle_poller_vwtp.cpp`): a channel to one module, opened by a setup
and a parameter request, over which requests and responses go in numbered data frames. A
data frame has as many bytes as its length code says, the first of them an opcode and a
sequence number. The first frame of a message has the length of the message in the next
two.

A receive function of one channel state either leaves the switch, and then the next poll
may be due, or returns at once: its `Outcome`. Times, and the time of the last access, are
left out. A channel in use has a bus; a frame of a channel without one is not written.
-/

open Ovms.Can

namespace Ovms.Poll

/-! ### State -/

/-- `vwtp_channelstate_t`. -/
inductive ChannelState
  | closed | channelClose | channelSetup | channelParams | idle | startPoll | transmit | receive
  | abortXfer
  deriving DecidableEq, Repr

/-- The place of a state in its enumeration. -/
def ChannelState.rank : ChannelState → ℕ
  | closed => 0
  | channelClose => 1
  | channelSetup => 2
  | channelParams => 3
  | idle => 4
  | startPoll => 5
  | transmit => 6
  | receive => 7
  | abortXfer => 8

/-- `vwtp_channel_t`. -/
structure Channel where
  state : ChannelState
  bus : Option ℕ
  baseid : UInt16
  moduleid : UInt8
  txid : UInt16
  rxid : UInt16
  blocksize : UInt8
  acktime : UInt32
  septime : UInt32
  txseqnr : UInt32
  rxseqnr : UInt32
  deriving DecidableEq, Repr

/-- `m_poll_vwtp = {}`. -/
def Channel.zero : Channel := ⟨.closed, none, 0, 0, 0, 0, 0, 0, 0, 0, 0⟩

/-- The poller with its VW-TP channel. -/
structure VwtpPoller where
  poll : Poller
  channel : Channel

/-- The sequence number of a frame, below its opcode. -/
def seqNibble (seqnr : UInt32) : UInt8 := (seqnr &&& 0x0f).toUInt8

/-- A frame on the channel, with a length code of the bytes given. The bytes behind them
are those of `prev`. -/
def channelFrame (c : Channel) (bus : ℕ) (bytes prev : List UInt8) : CanFrame where
  origin := bus
  format := .std
  msgId := c.txid.toUInt32
  dlc := lengthCode bytes.length
  data := fill 0 (bytes ++ prev.drop bytes.length)
  size := length_fill _ _

/-- `m_poll_vwtp.bus->Write` of a frame with these bytes. -/
def writeChannel (c : Channel) (bytes : List UInt8) (prev : List UInt8) : List Effect :=
  match c.bus with
  | some bus => [.write (channelFrame c bus bytes prev)]
  | none => []

/-- The poller expects frames of the channel. -/
def expectChannel (v : VwtpPoller) : Poller :=
  { v.poll with
    txMsgid := v.channel.txid.toUInt32
    moduleidSent := v.channel.txid.toUInt32
    moduleidLow := v.channel.rxid.toUInt32
    moduleidHigh := v.channel.rxid.toUInt32 }

/-! ### Transmission -/

/-- What a data frame has behind its opcode and before the payload: on the first frame of a
message its length, the type and the PID. -/
def vwtpHeader (s : Poller) : List UInt8 :=
  if s.txFrame = 0 then
    let pid := pidBytes s.entry.type.toNat s.entry.args.pid
    let txlen : UInt16 := s.txRemain + 1 + .ofNat pid.length
    (txlen >>> 8).toUInt8 :: (txlen &&& 0xff).toUInt8 :: s.entry.type.toUInt8 :: pid
  else []

/-- The payload bytes that the next data frame has room for. -/
def vwtpRoom (s : Poller) : ℕ := min s.txRemain.toNat (7 - (vwtpHeader s).length)

/-- The counters after the next data frame. -/
def vwtpSent (v : VwtpPoller) : VwtpPoller where
  poll :=
    { v.poll with
      txOffset := v.poll.txOffset + .ofNat (vwtpRoom v.poll)
      txRemain := .ofNat (v.poll.txRemain.toNat - vwtpRoom v.poll)
      txFrame := v.poll.txFrame + 1 }
  channel := { v.channel with txseqnr := v.channel.txseqnr + 1 }

/-- The bytes of the next data frame. The opcode tells whether it is the last one, one of a
block, or the last of a block; `left` is the number of frames left in the block. -/
def vwtpBytes (v : VwtpPoller) (left : ℕ) : List UInt8 :=
  let opcode : UInt8 :=
    if (vwtpSent v).poll.txRemain = 0 then 0x10 else if left ≠ 0 then 0x20 else 0x00
  (opcode ||| seqNibble v.channel.txseqnr) :: vwtpHeader v.poll ++
    (v.poll.txData.drop v.poll.txOffset.toNat).take (vwtpRoom v.poll)

/-- The loop of the transmit state over the frames of a block. `prev` is what the frame
buffer holds from the frame before. -/
def sendBlock : ℕ → VwtpPoller → List UInt8 → VwtpPoller × List Effect
  | 0, v, _ => (v, [])
  | left + 1, v, prev =>
      let bytes := vwtpBytes v left
      let write := writeChannel v.channel bytes prev
      let t := vwtpSent v
      if t.poll.txRemain = 0 then (t, write)
      else
        let r := sendBlock left t (bytes ++ prev.drop bytes.length)
        (r.1, write ++ r.2)

/-- The transmit state: a block of frames. -/
def enterTransmit (v : VwtpPoller) : VwtpPoller × List Effect :=
  let r := sendBlock v.channel.blocksize.toNat v (List.replicate 8 0)
  (⟨{ expectChannel r.1 with waiting := true }, { r.1.channel with state := .transmit }⟩, r.2)

/-- The start of a request. -/
def startPoll (v : VwtpPoller) : VwtpPoller :=
  let (txData, txDatalen) := v.poll.entry.args.txData
  { v with
    poll :=
      { v.poll with
        txData := txData
        txRemain := .ofNat txDatalen
        txFrame := 0
        txOffset := 0
        mlframe := 0
        mloffset := 0
        mlremain := 0 } }

/-! ### State transitions -/

/-- `PollerVWTPEnter`. -/
def enter (v : VwtpPoller) (state : ChannelState) : VwtpPoller × List Effect :=
  if v.channel.state = state then (v, [])
  else
    match state with
    | .channelSetup =>
        if v.poll.protocol ≠ .vwtp20 then (v, [])
        else
          let baseid := v.poll.entry.txmoduleid.toUInt16
          let moduleid := v.poll.entry.rxmoduleid.toUInt8
          let c :=
            { v.channel with
              state := .channelSetup, bus := some v.poll.bus, baseid := baseid,
              moduleid := moduleid, txid := baseid, rxid := baseid + moduleid.toUInt16 }
          let offer := baseid + 0x100
          (⟨{ expectChannel ⟨v.poll, c⟩ with waiting := true }, c⟩,
            writeChannel c [moduleid, 0xC0, 0x00, 0x10, (offer &&& 0xff).toUInt8,
              (offer >>> 8).toUInt8, 0x01] [])
    | .channelParams =>
        (⟨{ expectChannel v with waiting := true }, { v.channel with state := .channelParams }⟩,
          writeChannel v.channel [0xA0, 0x0F, 0x8A, 0xFF, 0x0A, 0xFF] [])
    | .channelClose =>
        (⟨{ expectChannel v with waiting := true }, { v.channel with state := .channelClose }⟩,
          writeChannel v.channel [0xA8] [])
    | .closed => (⟨{ v.poll with waiting := false }, .zero⟩, [])
    | .idle => (⟨{ v.poll with waiting := false }, { v.channel with state := .idle }⟩, [])
    | .startPoll => enterTransmit (startPoll v)
    | .transmit => enterTransmit v
    | .receive => (⟨{ v.poll with waiting := true }, { v.channel with state := .receive }⟩, [])
    | .abortXfer =>
        let byte :=
          if v.channel.state = .receive then 0x90 ||| seqNibble v.channel.rxseqnr
          else 0x30 ||| seqNibble v.channel.txseqnr
        let txseqnr :=
          if v.channel.state = .receive then v.channel.txseqnr else v.channel.txseqnr + 1
        (⟨{ expectChannel v with txRemain := 0, mlremain := 0, waiting := false },
            { v.channel with state := .idle, txseqnr := txseqnr }⟩,
          writeChannel v.channel [byte] [])

/-- `PollerVWTPStart`. -/
def vwtpStart (v : VwtpPoller) : VwtpPoller × List Effect :=
  if v.channel.bus ≠ some v.poll.bus ∨
      v.channel.baseid.toUInt32 ≠ v.poll.entry.txmoduleid ∨
      v.channel.moduleid.toUInt32 ≠ v.poll.entry.rxmoduleid then
    if v.channel.state ≠ .closed then enter v .channelClose
    else if v.poll.entry.rxmoduleid ≠ 0 then enter v .channelSetup
    else (v, [.error v.poll 0])
  else if v.channel.state.rank < ChannelState.idle.rank then enter v .channelSetup
  else
    let r :=
      if v.channel.state = .transmit ∨ v.channel.state = .receive then enter v .abortXfer
      else (v, [])
    let t := enter r.1 .startPoll
    (t.1, r.2 ++ t.2)

/-! ### Received frames -/

/-- What the code for a channel state does with a frame: the state and the effects, and
the answer if it returns at once. -/
structure Outcome where
  state : VwtpPoller
  effects : List Effect
  returned : Option Bool

/-- A frame that is logged and dropped. -/
def dropped (v : VwtpPoller) : Outcome := ⟨v, [], some false⟩

/-- `sendPong`. -/
def sendPong (c : Channel) : List Effect :=
  writeChannel c [0xA1, 0x0F, 0x8A, 0xFF, 0x0A, 0xFF] []

/-- `sendAck`. -/
def sendAck (c : Channel) : List Effect := writeChannel c [0xB0 ||| seqNibble c.rxseqnr] []

/-- The module closes the channel: the answer, then the closed state. -/
def closeChannel (v : VwtpPoller) : Outcome :=
  let r := enter v .channelClose
  ⟨(enter r.1 .closed).1, r.2 ++ (enter r.1 .closed).2, none⟩

/-- The opcode of a frame that must have one byte, or 0. -/
def shortOpcode (f : CanFrame) : UInt8 := if f.dlc.val = 1 then f.u8 0 else 0

/-- Channel setup: the answer assigns the identifiers. -/
def receiveSetup (v : VwtpPoller) (f : CanFrame) : Outcome :=
  let opcode := f.u8 1
  if f.dlc.val ≠ 7 ∨ opcode < 0xD0 ∨ opcode > 0xD8 then dropped v
  else if opcode ≠ 0xD0 then
    ⟨⟨{ v.poll with waiting := false }, { v.channel with bus := none, state := .closed }⟩, [],
      none⟩
  else
    let c :=
      { v.channel with
        rxid := (f.u8 3).toUInt16 <<< 8 ||| (f.u8 2).toUInt16
        txid := (f.u8 5).toUInt16 <<< 8 ||| (f.u8 4).toUInt16 }
    let r := enter ⟨v.poll, c⟩ .channelParams
    ⟨r.1, r.2, none⟩

/-- A time in a parameter frame: six bits, and a unit of a power of ten. -/
def timeParam (b : UInt8) : UInt32 :=
  (b &&& 0x3f).toUInt32 * .ofNat (100 * 10 ^ ((b &&& 0xc0) >>> 6).toNat)

/-- Channel parameters: the answer brings block size and times. -/
def receiveParams (v : VwtpPoller) (f : CanFrame) : Outcome :=
  let opcode := if f.dlc.val > 0 then f.u8 0 else 0
  if opcode = 0xA1 then
    let c :=
      { v.channel with
        blocksize := f.u8 1, acktime := timeParam (f.u8 2), septime := timeParam (f.u8 4) }
    let r := enter ⟨v.poll, c⟩ .startPoll
    ⟨r.1, r.2, none⟩
  else if opcode = 0xA8 then closeChannel v
  else dropped v

/-- Channel close: the answer allows another channel. -/
def receiveClose (v : VwtpPoller) (f : CanFrame) : Outcome :=
  if shortOpcode f = 0xA8 then
    let t := (enter v .closed).1
    if t.poll.protocol = .vwtp20 ∧ t.poll.entry.rxmoduleid ≠ 0 then
      let r := enter t .channelSetup
      ⟨r.1, r.2, none⟩
    else ⟨t, [.error t.poll 0], none⟩
  else dropped v

/-- Idle: pings are answered, and data frames out of band aborted. -/
def receiveIdle (v : VwtpPoller) (f : CanFrame) : Outcome :=
  let opcode := f.u8 0
  if opcode = 0xA3 then ⟨v, sendPong v.channel, none⟩
  else if opcode = 0xA8 then closeChannel v
  else if opcode &&& 0xf0 ≤ 0x30 then
    let c := { v.channel with rxseqnr := v.channel.rxseqnr + 1 }
    ⟨⟨v.poll, c⟩, writeChannel c [0x90 ||| seqNibble c.rxseqnr] [], none⟩
  else ⟨v, [], none⟩

/-- Transmit: an acknowledge continues with the next block, or with the response. -/
def receiveTransmit (v : VwtpPoller) (f : CanFrame) : Outcome :=
  let opcode := shortOpcode f
  if opcode &&& 0xf0 = 0xB0 then
    let r := enter v (if v.poll.txRemain > 0 then .transmit else .receive)
    ⟨r.1, r.2, none⟩
  else if opcode &&& 0xf0 = 0x90 then
    let r := enter ⟨{ v.poll with txRemain := 0 }, v.channel⟩ .idle
    ⟨r.1, r.2, none⟩
  else if opcode = 0xA3 then ⟨v, sendPong v.channel, none⟩
  else if opcode = 0xA8 then closeChannel v
  else ⟨v, [], none⟩

/-! ### Data frames -/

/-- The length a first frame declares, twelve bits of bytes 1 and 2. -/
def declaredLength (f : CanFrame) : UInt16 :=
  (f.u8 1 &&& 0x0f).toUInt16 <<< 8 ||| (f.u8 2).toUInt16

/-- `tp_datalen`: the bytes of a data frame by its length code. -/
def vwtpDatalen (s : Poller) (f : CanFrame) : UInt8 :=
  .ofNat f.dlc - if s.mlframe = 0 then 3 else 1

/-- What remains of the message before a data frame. -/
def vwtpRemain (s : Poller) (f : CanFrame) : UInt16 :=
  if s.mlframe = 0 then declaredLength f else s.mlremain

/-- The response meta data of a data frame. -/
def vwtpMeta (s : Poller) (f : CanFrame) : ResponseMeta :=
  if s.mlframe = 0 then firstResponse f 3 (vwtpDatalen s f).toNat s.pid
  else nextResponse s 1 (vwtpDatalen s f).toNat

/-- The end of a data frame: more data, or idle. -/
def vwtpMore (v : VwtpPoller) (datalen : UInt16) : VwtpPoller × List Effect :=
  if v.poll.mlremain ≠ 0 then
    ({ v with
        poll :=
          { v.poll with
            mlframe := v.poll.mlframe + 1, mloffset := v.poll.mloffset + datalen,
            waiting := true } }, [])
  else enter v .idle

/-- The slice of a matching response. -/
def vwtpDeliver (s : Poller) (f : CanFrame) (msgid : UInt32) : Packet :=
  let r := vwtpMeta s f
  ⟨{ s with mlremain := vwtpRemain s f - (vwtpDatalen s f).toUInt16, moduleidRec := msgid },
    f.data, r.data, r.datalen.toUInt8⟩

/-- The data branch of the receive state. The sequence number has been counted. -/
def receiveVwtpData (v : VwtpPoller) (f : CanFrame) (msgid : UInt32) : Outcome :=
  let r := vwtpMeta v.poll f
  let ack := if f.u8 0 &&& 0xf0 ≤ 0x10 then sendAck v.channel else []
  let s := { v.poll with mlremain := vwtpRemain v.poll f }
  if r.IsError v.poll then
    if r.errorCode = udsRespNrcRcrrp then
      ⟨{ v with poll := { s with waiting := true } }, ack, some true⟩
    else
      let job := { s with moduleidRec := s.moduleidSent }
      let idle := enter { v with poll := { job with mlremain := 0 } } .idle
      let next := vwtpMore idle.1 r.datalen
      ⟨next.1, ack ++ .error job r.errorCode :: (idle.2 ++ next.2), none⟩
  else if r.Matches v.poll then
    let p := vwtpDeliver v.poll f msgid
    let next := vwtpMore { v with poll := p.job } r.datalen
    ⟨next.1, ack ++ .packet p :: next.2, none⟩
  else
    let abort := enter { v with poll := s } .abortXfer
    ⟨abort.1, abort.2, some false⟩

/-- The sequence number of a data frame is the expected one. -/
def InSequence (c : Channel) (f : CanFrame) : Prop := f.u8 0 &&& 0x0f = seqNibble c.rxseqnr

instance (c : Channel) (f : CanFrame) : Decidable (InSequence c f) :=
  inferInstanceAs (Decidable (_ = _))

/-- Receive: data frames of the response, in sequence. -/
def receiveReceive (v : VwtpPoller) (f : CanFrame) (msgid : UInt32) : Outcome :=
  let opcode := f.u8 0
  if opcode = 0xA3 then ⟨v, sendPong v.channel, none⟩
  else if opcode = 0xA8 then closeChannel v
  else if opcode < 0x40 then
    let t := { v with channel := { v.channel with rxseqnr := v.channel.rxseqnr + 1 } }
    if ¬ InSequence v.channel f then
      let abort := enter t .abortXfer
      ⟨abort.1, abort.2, some true⟩
    else receiveVwtpData t f msgid
  else ⟨v, [], none⟩

/-- The switch of `PollerVWTPReceive` over the channel state. -/
def receiveState (v : VwtpPoller) (f : CanFrame) (msgid : UInt32) : Outcome :=
  match v.channel.state with
  | .channelSetup => receiveSetup v f
  | .channelParams => receiveParams v f
  | .channelClose => receiveClose v f
  | .idle => receiveIdle v f
  | .transmit => receiveTransmit v f
  | .receive => receiveReceive v f msgid
  | .closed => ⟨v, [], none⟩
  | .startPoll => ⟨v, [], none⟩
  | .abortXfer => ⟨v, [], none⟩

/-- The channel listens to a frame. -/
def Channel.Hears (c : Channel) (msgid : UInt32) : Prop :=
  ¬ (c.state = .closed ∨ c.bus = none ∨ msgid ≠ c.rxid.toUInt32)

instance (c : Channel) (msgid : UInt32) : Decidable (c.Hears msgid) :=
  inferInstanceAs (Decidable (¬ _))

/-- `PollerVWTPReceive`. -/
def vwtpReceive (v : VwtpPoller) (f : CanFrame) (msgid : UInt32) : VwtpPoller × Reply :=
  if ¬ v.channel.Hears msgid then (v, .ignored)
  else
    let r := receiveState v f msgid
    match r.returned with
    | some handled => (r.state, ⟨handled, r.effects⟩)
    | none =>
        if r.state.poll.waiting then (r.state, ⟨true, r.effects⟩)
        else
          let next := pollerSucceededPollNext r.state.poll
          ({ r.state with poll := next.1 }, ⟨true, r.effects ++ next.2⟩)

/-! ### The machine -/

/-- The dispatch of a due poll entry in `PollerSend`, for VW-TP. -/
def vwtpSendEntry (v : VwtpPoller) (entry : PollPid) : VwtpPoller × List Effect :=
  vwtpStart
    { v with
      poll :=
        { v.poll with
          entry := entry, protocol := entry.protocol, type := entry.type,
          pid := entry.args.pid } }

/-- `PollerVWTPTxCallback`. -/
def vwtpTxCallback (v : VwtpPoller) (success : Bool) : VwtpPoller × List Effect :=
  if success then (v, []) else enter v .closed

/-- The state timeouts of `PollerVWTPTicker`. -/
def stateTimeout (v : VwtpPoller) : VwtpPoller × List Effect :=
  match v.channel.state with
  | .channelSetup => enter v .closed
  | .channelParams => enter v .closed
  | .channelClose =>
      let r := enter v .closed
      if r.1.poll.protocol = .vwtp20 then
        let t := vwtpStart r.1
        (t.1, r.2 ++ t.2)
      else r
  | _ => (v, [])

/-- `PollerVWTPTicker`. The clock tells whether the last use of the channel is less than
200 ms ago, and whether it is longer ago than the keepalive time. -/
def vwtpTicker (v : VwtpPoller) (recent inactive : Bool) : VwtpPoller × List Effect :=
  if v.poll.waiting = true ∧ recent = true then (v, [])
  else
    let r :=
      if v.poll.waiting = true then stateTimeout v
      else if v.channel.state ≠ .closed ∧ v.channel.state ≠ .idle then enter v .channelClose
      else (v, [])
    if r.1.channel.state = .idle ∧ inactive = true then
      let t := enter r.1 .channelClose
      (t.1, r.2 ++ t.2)
    else r

/-- A call that moves the poller or its channel: the dispatch of a poll entry, a frame with
the module it comes from, the result of a transmission, the ticker, and the end of the wait
time. -/
inductive VwtpEvent
  | send (entry : PollPid)
  | receive (f : CanFrame) (msgid : UInt32)
  | sent (success : Bool)
  | tick (recent inactive : Bool)
  | expire

/-- The state after a call. -/
def vwtpNext (v : VwtpPoller) : VwtpEvent → VwtpPoller
  | .send entry => (vwtpSendEntry v entry).1
  | .receive f msgid => (vwtpReceive v f msgid).1
  | .sent success => (vwtpTxCallback v success).1
  | .tick recent inactive => (vwtpTicker v recent inactive).1
  | .expire => { v with poll := { v.poll with waiting := false } }

end Ovms.Poll
