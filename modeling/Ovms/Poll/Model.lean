import Ovms.Can.Frame
import Ovms.Lib.Bytes
import Mathlib.Data.List.Forall2

/-!
# The Poller: Requests and Job State

`OvmsPoller` (`components/poller/src/vehicle_poller.h`) sends one OBD2 or UDS request at a
time and hands the response, slice by slice, to the poll series that asked. This module
has what its protocol engines share: the poll entry with its three overlaid ways to hold
the arguments, the classes of poll types, the job state, and the header of a response.

The wait timeout of the poller is one flag here: `SetPollWaiting` and `AddPollWaiting`
raise it, `ResetPollWaiting` clears it, and that time runs out is no call of this module.
Fields of the width the code gives them are of that width; lengths inside a function are
naturals or integers, converted where the code stores them.
-/

open Ovms.Can

namespace Ovms.Poll

/-! ### Poll types -/

/-- `POLL_TYPE_HAS_16BIT_PID`. The argument is an `int`, as the macro is also used on a
difference. -/
def has16BitPid (type : ℤ) : Bool :=
  type == 0x22 || type == 0x24 || type == 0x2E || type == 0x2F || type == 0x05 || type == 0x2A

/-- `POLL_TYPE_HAS_NO_PID`. -/
def hasNoPid (type : ℤ) : Bool :=
  type == 0x14 || type == 0x23 || type == 0x03 || type == 0x04 || type == 0x07 ||
    type == 0x0A || type == 0x18

/-- `POLL_TYPE_HAS_8BIT_PID`. -/
def has8BitPid (type : ℤ) : Bool := !hasNoPid type && !has16BitPid type

/-- The bytes a PID takes in a request and in its response. -/
def pidLen (type : ℤ) : ℕ :=
  if has16BitPid type then 2 else if has8BitPid type then 1 else 0

/-- The PID as it is sent. -/
def pidBytes (type : ℤ) (pid : UInt16) : List UInt8 :=
  if has16BitPid type then [(pid >>> 8).toUInt8, (pid &&& 0xff).toUInt8]
  else if has8BitPid type then [pid.toUInt8]
  else []

@[simp] theorem length_pidBytes (type : ℤ) (pid : UInt16) :
    (pidBytes type pid).length = pidLen type := by
  rw [pidBytes, pidLen]
  split
  · rfl
  · split <;> rfl

theorem pidLen_le (type : ℤ) : pidLen type ≤ 2 := by
  rw [pidLen]
  split
  · exact Nat.le_refl 2
  · split <;> decide

/-! ### Poll entries -/

/-- Protocol variants, `ISOTP_*` and `VWTP_*`. -/
inductive Protocol
  | isotpStd | isotpExtAdr | isotpExtFrame | vwtp16 | vwtp20
  deriving DecidableEq, Repr

/-- `POLL_TXDATA`, the tag of an entry with external payload. -/
def pollTxData : UInt8 := 0xff

/-- A pointer to payload data: its address, and the bytes found there. -/
structure Buffer where
  address : UInt32
  bytes : List UInt8
  deriving DecidableEq, Repr

/-- The six bytes of the argument union behind PID and tag: inline data, or the length of
and the pointer to external data. -/
inductive ArgData
  | inline (data : List UInt8)
  | external (datalen : UInt16) (data : Buffer)
  deriving DecidableEq, Repr

/-- The argument union of `poll_pid_t`. All its members start with the PID; the byte
behind it is `args.datalen` and `xargs.tag`. -/
structure PollArgs where
  pid : UInt16
  tag : UInt8
  rest : ArgData
  deriving DecidableEq, Repr

/-- The bytes of a little-endian word. -/
def wordBytes (w : UInt32) : List UInt8 :=
  [w.toUInt8, (w >>> 8).toUInt8, (w >>> 16).toUInt8, (w >>> 24).toUInt8]

/-- The union read as `args.data`. -/
def ArgData.argsData : ArgData → List UInt8
  | inline data => data
  | external datalen data =>
      datalen.toUInt8 :: (datalen >>> 8).toUInt8 :: wordBytes data.address

/-- The union read as `xargs.datalen`. -/
def ArgData.xargsDatalen : ArgData → ℕ
  | inline data => (data.getD 0 0).toNat + 256 * (data.getD 1 0).toNat
  | external datalen _ => datalen.toNat

/-- The union read through the pointer `xargs.data`. Inline data is no pointer. -/
def ArgData.xargsData : ArgData → List UInt8
  | inline _ => []
  | external _ data => data.bytes

/-- The payload data of the arguments and its length, by the tag. -/
def PollArgs.txData (a : PollArgs) : List UInt8 × ℕ :=
  if a.tag = pollTxData then (a.rest.xargsData, a.rest.xargsDatalen)
  else (a.rest.argsData, a.tag.toNat)

/-- The payload of the arguments. -/
def PollArgs.payload (a : PollArgs) : List UInt8 := a.txData.1.take a.txData.2

/-- There is as much data behind the arguments as they say: an inline length of at most
six, a pointer to a buffer of its size. -/
def PollArgs.Sized (a : PollArgs) : Prop := a.txData.2 ≤ a.txData.1.length

theorem PollArgs.Sized.length_payload {a : PollArgs} (h : a.Sized) :
    a.payload.length = a.txData.2 := by
  rw [payload, List.length_take]
  exact Nat.min_eq_left h

/-- `poll_pid_t`, without the scheduling of the entry. -/
structure PollPid where
  txmoduleid : UInt32
  rxmoduleid : UInt32
  type : UInt16
  args : PollArgs
  protocol : Protocol
  deriving DecidableEq, Repr

/-- `m_poll.entry = {}`. -/
def PollPid.zero : PollPid := ⟨0, 0, 0, ⟨0, 0, .inline (List.replicate 6 0)⟩, .isotpStd⟩

/-- The request an entry stands for: type, PID and payload. -/
def PollPid.request (p : PollPid) : List UInt8 :=
  p.type.toUInt8 :: pidBytes p.type.toNat p.args.pid ++ p.args.payload

/-! ### Job state -/

/-- The members of `OvmsPoller`, those of `m_poll` among them. -/
structure Poller where
  bus : ℕ
  entry : PollPid
  protocol : Protocol
  type : UInt16
  pid : UInt16
  moduleidSent : UInt32
  moduleidLow : UInt32
  moduleidHigh : UInt32
  moduleidRec : UInt32
  mlframe : UInt16
  mloffset : UInt16
  mlremain : UInt16
  txData : List UInt8
  txRemain : UInt16
  txOffset : UInt16
  txFrame : UInt16
  txMsgid : UInt32
  waiting : Bool
  fcSeptime : UInt8
  hasPollList : Bool
  canPoll : Bool

/-- `OvmsPoller::OvmsPoller`. -/
def Poller.new (bus : ℕ) : Poller where
  bus := bus
  entry := .zero
  protocol := .isotpStd
  type := 0
  pid := 0
  moduleidSent := 0
  moduleidLow := 0
  moduleidHigh := 0
  moduleidRec := 0
  mlframe := 0
  mloffset := 0
  mlremain := 0
  txData := []
  txRemain := 0
  txOffset := 0
  txFrame := 0
  txMsgid := 0
  waiting := false
  fcSeptime := 25
  hasPollList := false
  canPoll := true

/-- A call of `PollSeriesList::IncomingPacket`: the job, and a slice of the data bytes of
the frame received. A slice without a start is a null pointer. -/
structure Packet where
  job : Poller
  frame : List UInt8
  data : Option ℕ
  length : UInt8

/-- The bytes of a slice, `none` when it does not lie inside the frame. -/
def Packet.slice (p : Packet) : Option (List UInt8) :=
  match p.data with
  | some off => Lib.readBlock p.frame off p.length.toNat
  | none => if p.length = 0 then some [] else none

/-- What a call hands to the application, to the bus, to the log and to the task queue. -/
inductive Effect
  | packet (p : Packet)
  | error (job : Poller) (code : UInt8)
  | write (f : CanFrame)
  | outOfSequence (index expected : ℕ)
  | sendSuccess

/-- The packets among some effects. -/
def packets (effects : List Effect) : List Packet :=
  effects.filterMap fun e => match e with
    | .packet p => some p
    | _ => none

/-- The frames among some effects. -/
def writes (effects : List Effect) : List CanFrame :=
  effects.filterMap fun e => match e with
    | .write f => some f
    | _ => none

/-- The answer of a receive function: whether it handled the frame, and what it did. -/
structure Reply where
  handled : Bool
  effects : List Effect

/-- A frame that is not for the poller. -/
def Reply.ignored : Reply := ⟨false, []⟩

/-- `PollerSucceededPollNext`. -/
def pollerSucceededPollNext (s : Poller) : Poller × List Effect :=
  ({ s with type := 0 }, if !s.waiting && s.canPoll then [.sendSuccess] else [])

/-! ### The header of a response -/

/-- `UDS_RESP_TYPE_NRC`. -/
def udsRespTypeNrc : UInt8 := 0x7F

/-- `UDS_RESP_NRC_RCRRP`. -/
def udsRespNrcRcrrp : UInt8 := 0x78

/-- The meta data of a response: `response_type`, `response_pid`, the address and length
of the payload, and type and code of an error response. -/
structure ResponseMeta where
  type : UInt8
  pid : UInt16
  data : Option ℕ
  datalen : UInt16
  errorType : UInt8
  errorCode : UInt8
  deriving DecidableEq, Repr

/-- The meta data of a response that starts at byte `tpData` of a frame, with `tpDatalen`
bytes there. -/
def firstResponse (f : CanFrame) (tpData tpDatalen : ℕ) (pid : UInt16) : ResponseMeta :=
  let type := f.u8 tpData
  if type = udsRespTypeNrc then
    ⟨type, 0, none, 0, f.u8 (tpData + 1), f.u8 (tpData + 2)⟩
  else if has16BitPid (type.toNat - 0x40) then
    ⟨type, (f.u8 (tpData + 1)).toUInt16 <<< 8 ||| (f.u8 (tpData + 2)).toUInt16,
      some (tpData + 3), .ofInt (tpDatalen - 3), 0, 0⟩
  else if has8BitPid (type.toNat - 0x40) then
    ⟨type, (f.u8 (tpData + 1)).toUInt16, some (tpData + 2), .ofInt (tpDatalen - 2), 0, 0⟩
  else
    ⟨type, pid, some (tpData + 1), .ofInt (tpDatalen - 1), 0, 0⟩

/-- The meta data of a response that continues in a frame. -/
def nextResponse (s : Poller) (tpData tpDatalen : ℕ) : ResponseMeta :=
  ⟨.ofNat (0x40 + s.type.toNat), s.pid, some tpData, .ofNat tpDatalen, 0, 0⟩

/-- The response is an error response to the request. -/
def ResponseMeta.IsError (r : ResponseMeta) (s : Poller) : Prop :=
  r.type = udsRespTypeNrc ∧ r.errorType.toNat = s.type.toNat

/-- The response is a positive response to the request. -/
def ResponseMeta.Matches (r : ResponseMeta) (s : Poller) : Prop :=
  r.type.toNat = 0x40 + s.type.toNat ∧ r.pid = s.pid

instance (r : ResponseMeta) (s : Poller) : Decidable (r.IsError s) :=
  inferInstanceAs (Decidable (_ ∧ _))

instance (r : ResponseMeta) (s : Poller) : Decidable (r.Matches s) :=
  inferInstanceAs (Decidable (_ ∧ _))

end Ovms.Poll
