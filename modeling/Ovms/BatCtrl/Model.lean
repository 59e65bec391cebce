import Ovms.Bap.Assembler
import Ovms.EGolf.BatteryControl

/-!
# The Battery Controller

`VWeGolfBatteryControl` (`vehicle_vwegolf_bat_ctrl.h`, `vehicle_vwegolf_bat_ctrl.cpp`):
remote climate, charge and charge-current commands, one at a time, over the BAP status
stream of the battery control unit. A command wakes the bus, opens the channel, reads
profile 0, writes it back with its own change, and triggers the immediate start or stop.
The replies of the unit drive it; the one-second tick holds the bus awake and sends a
step again whose reply is lost.

The functions act on one state record: the members of the class, the metrics the module
reads and writes, and the CAN bus. The driver's answer to the `n`-th write is
`CanBus.answer n`, so a theorem about every bus is a theorem about every pattern of failed
transmissions. The field `log` is not a member of the class: it lists what the module did
and saw, and nothing reads it back. The three tasks that call the module take turns call
by call: the order of the calls is free, but one call ends before the next begins.

Counters of seconds are naturals, because none of them passes `kWakeSecs` or wraps. The
charge limit metric is in amperes and the cabin setpoint in tenths of a degree.
-/

open Ovms.Bap Ovms.EGolf

namespace Ovms.BatCtrl

/-! ### The CAN bus -/

/-- What the driver answers to a write: in a hardware buffer, in the software queue, or
rejected. -/
inductive EspErr
  | ok | queued | fail
  deriving DecidableEq, Repr

/-- One frame handed to the driver, with its answer. -/
structure CanWrite where
  id : UInt32
  data : List UInt8
  result : EspErr
  deriving DecidableEq, Repr

/-- The driver: its answers to successive writes, and how many there were. -/
structure CanBus where
  answer : ℕ → EspErr
  writes : ℕ

/-- Hand one frame to the driver. -/
def CanBus.writeExtended (bus : CanBus) (id : UInt32) (data : List UInt8) : CanWrite × CanBus :=
  (⟨id, data, bus.answer bus.writes⟩, { bus with writes := bus.writes + 1 })

/-- A received frame: eight data bytes, of which `dlc` carry the message. -/
structure CanFrame where
  msgId : UInt32
  dlc : ℕ
  data : List UInt8
  size : data.length = 8

/-- A frame of the status stream with the given bytes, padded to eight. -/
def CanFrame.status (bytes : List UInt8) : CanFrame where
  msgId := kCanIdStatus
  dlc := min bytes.length 8
  data := (bytes ++ List.replicate 8 0).take 8
  size := by simp

/-- The received frame as the assembler reads it. -/
def CanFrame.frame (f : CanFrame) : Frame := ⟨f.data, f.dlc, fun h => by rw [f.size]; exact h⟩

/-! ### Commands, notifications and the log -/

/-- Which operation the command in flight performs. -/
inductive BcOp
  | climate | charge | setCurrent
  deriving DecidableEq, Repr

/-- Command progress. -/
inductive ClimatePhase
  | idle | wake | handshake | profile | armWait | confirm | done
  deriving DecidableEq, Repr

/-- Why a command failed. -/
inductive Cause
  | rejected | transmitError | profileUnread | timeout
  deriving DecidableEq, Repr

/-- The user notifications of the module. -/
inductive Notice
  | chargeStopBlocked
  | failed (op : BcOp) (cause : Cause)
  deriving DecidableEq, Repr

/-- The name of an operation in its notification. -/
def BcOp.what : BcOp → String
  | charge => "Charge"
  | setCurrent => "SetChargeCurrent"
  | climate => "Climate"

/-- The text of a cause. -/
def Cause.text : Cause → String
  | rejected => "rejected by the battery control unit"
  | transmitError => "CAN transmit error (try 'can can3 reset')"
  | profileUnread => "could not read the vehicle's profile (no response)"
  | timeout => "no response from ECU (timeout)"

/-- The subtype of a notification; its type is `alert`. -/
def Notice.subtype : Notice → String
  | chargeStopBlocked => "xvg.charge"
  | failed op _ => if op = .climate then "xvg.climate" else "xvg.charge"

/-- The text of a notification. -/
def Notice.text : Notice → String
  | chargeStopBlocked => "Can't stop charging while climate is on — stop climate first"
  | failed op cause => op.what ++ " command failed: " ++ cause.text

/-- The telegrams of a command. The handshake is its two channel-open requests. -/
inductive BapTelegram
  | handshake
  | profileGet (asgTxn : UInt8)
  | profileWrite (asgTxn : UInt8) (p : Profile)
  | trigger (on : Bool)
  deriving DecidableEq, Repr

/-- What the module did or saw. A telegram is listed with the frames handed to the driver
for it and with the success its send function reported; a received element with the phase
it was received in. `readBack` marks that a reply was taken as the read of profile 0. -/
inductive Obs
  | started (op : BcOp) (enable : Bool) (param : UInt8)
  | aborted (phase : ClimatePhase)
  | nmWake (write : CanWrite)
  | telegram (t : BapTelegram) (writes : List CanWrite) (ok : Bool)
  | received (phase : ClimatePhase) (el : Element)
  | readBack (el : Element) (p : Profile)
  | notified (n : Notice)
  deriving DecidableEq, Repr

/-! ### The state -/

/-- The standard metrics the module reads or writes. -/
structure Metrics where
  hvac : Bool
  chargeInprogress : Bool
  climit : ℕ
  cabinsetpoint : ℕ
  deriving DecidableEq, Repr

/-- The state of the controller. -/
structure BatteryControl where
  bapAsm : AssemblerSet 224 4
  profile0 : Profile
  txn : TxnCounter
  phase : ClimatePhase
  op : BcOp
  param : UInt8
  enable : Bool
  bcuSeen : Bool
  haveProfile0 : Bool
  armSkipped : Bool
  apply : Bool
  confirmed : Bool
  error : Bool
  txFail : Bool
  wakeHold : ℕ
  phaseSecs : ℕ
  metrics : Metrics
  bus : CanBus
  log : List Obs

/-- Seconds the wake bridge is held at most. -/
def kWakeSecs : ℕ := 20

/-- Seconds after which a step without a reply is sent again. -/
def kRetrySecs : ℕ := 2

/-- The spare node that wakes the network. -/
def kNmWakeNode : UInt8 := 0x7D

/-- A newly constructed controller on any bus, with any values in the metrics. -/
structure Initial (s : BatteryControl) : Prop where
  bapAsm : s.bapAsm.Fresh 2
  profile0 : s.profile0 = {}
  txn : s.txn = {}
  phase : s.phase = .idle
  op : s.op = .climate
  param : s.param = 0
  flags : s.enable = false ∧ s.bcuSeen = false ∧ s.haveProfile0 = false ∧
    s.armSkipped = false ∧ s.apply = false ∧ s.confirmed = false ∧ s.error = false ∧
    s.txFail = false
  wakeHold : s.wakeHold = 0
  phaseSecs : s.phaseSecs = 0
  log : s.log = []

/-- A new controller whose buffers read zero. -/
def BatteryControl.zeroed (answer : ℕ → EspErr) (metrics : Metrics) : BatteryControl where
  bapAsm := .zeroed 2 224 4 (by decide)
  profile0 := {}
  txn := {}
  phase := .idle
  op := .climate
  param := 0
  enable := false
  bcuSeen := false
  haveProfile0 := false
  armSkipped := false
  apply := false
  confirmed := false
  error := false
  txFail := false
  wakeHold := 0
  phaseSecs := 0
  metrics
  bus := ⟨answer, 0⟩
  log := []

/-- Such a controller is new. -/
theorem zeroed_initial (answer : ℕ → EspErr) (metrics : Metrics) :
    Initial (.zeroed answer metrics) where
  bapAsm := AssemblerSet.zeroed_fresh _ _ _ _
  profile0 := rfl
  txn := rfl
  phase := rfl
  op := rfl
  param := rfl
  flags := ⟨rfl, rfl, rfl, rfl, rfl, rfl, rfl, rfl⟩
  wakeHold := rfl
  phaseSecs := rfl
  log := rfl

/-! ### What a command writes -/

/-- The record a command writes: the one read back, with the field the command owns
changed, and the charge current capped. -/
def armRecord (op : BcOp) (apply : Bool) (param : UInt8) (profile0 : Profile) : Profile :=
  let charge : UInt8 :=
    (profile0.operation ||| poCharging) &&& ~~~(poClimate ||| poAllowBattery)
  let p : Profile :=
    match op with
    | .climate =>
        { profile0 with
          operation := (profile0.operation ||| poClimate ||| poAllowBattery) &&& ~~~poCharging }
    | .charge => { profile0 with operation := charge }
    | .setCurrent =>
        let p := { profile0 with maxCurrent := param }
        if apply then { p with operation := charge } else p
  if p.maxCurrent > kMaxCurrentHardLimit then { p with maxCurrent := kMaxCurrentHardLimit }
  else p

/-- Whether a command has to write: a new charge current always, else only what differs
from the record read back. -/
def writeNeeded (op : BcOp) (apply : Bool) (param : UInt8) (profile0 : Profile) : Bool :=
  let p := armRecord op apply param profile0
  !(op != .setCurrent && p.operation == profile0.operation &&
    p.maxCurrent == profile0.maxCurrent)

/-! ### What the unit says -/

/-- The operation-mode echo of the unit. -/
def isOpMode (el : Element) : Bool :=
  el.opcode == Opcode.status.code && el.func == Func.operationMode.code && !el.body.isEmpty

/-- The on/off flag of an operation-mode echo. -/
def opModeOn (el : Element) : Bool := el.body[0]?.getD 0 != 0

/-- The acknowledgement of the handshake. -/
def isHandshakeAck (el : Element) : Bool :=
  el.opcode == Opcode.status.code &&
    (el.func == Func.bapGetAll.code || el.func == Func.bapConfig.code)

/-- A profile-array status whose leading byte names this module. -/
def isOwnArray (el : Element) : Bool :=
  el.opcode == Opcode.status.code && el.func == Func.profilesArray.code &&
    match el.body with
    | [] => false
    | lead :: _ => (lead >>> 4) &&& 0x07 == kAsgIdOvms

/-- The leading byte of an array status. -/
def arrayLead (el : Element) : UInt8 := el.body[0]?.getD 0

/-- The echo of an own array write: bit 7 of the leading byte is set. -/
def isSetEcho (el : Element) : Bool := isOwnArray el && arrayLead el &&& 0x80 != 0

/-- The profile at position 0 of a well-formed reply. -/
def globalProfile (el : Element) : Option Profile :=
  let d := decodeProfileArray el.body 4
  if d.2.malformed then none else d.1.find? fun p => p.position == 0

/-- The reply to an own profile request: bit 7 is clear, and there is an array header. -/
def isGetReply (el : Element) : Bool :=
  isOwnArray el && arrayLead el &&& 0x80 == 0 && decide (el.body.length ≥ 6)

namespace BatteryControl

/-! ### Transmission -/

/-- The context of a send: the bus, and the frames of the telegram so far. -/
structure Tx where
  bus : CanBus
  writes : List CanWrite

/-- `TxFrame`: one frame onto the command id. A queued frame will be transmitted, so it
counts as success. -/
def txFrame (tx : Tx) (frame : List UInt8) : Bool × Tx :=
  let r := tx.bus.writeExtended kCanIdCommand frame
  (r.1.result == .ok || r.1.result == .queued, ⟨r.2, tx.writes ++ [r.1]⟩)

/-- `SendNmWake`: wake the cluster from the spare node. -/
def sendNmWake (s : BatteryControl) : BatteryControl :=
  let r := s.bus.writeExtended (0x1B000000 ||| kNmWakeNode.toUInt32)
    [kNmWakeNode, 0x10, 0x49, 0x85, 0x14, 0x00, 0x00, 0x00]
  { s with bus := r.2, log := s.log ++ [.nmWake r.1] }

/-- The state after a telegram: its frames are on the bus and in the log, and a rejected
one raises the transmit-failure flag. -/
def sent (s : BatteryControl) (t : BapTelegram) (tx : Tx) (ok : Bool) : Bool × BatteryControl :=
  let s := { s with bus := tx.bus, log := s.log ++ [.telegram t tx.writes ok] }
  if !ok then (false, { s with txFail := true }) else (true, s)

/-- `SendHandshake`: both channel-open requests, whatever becomes of the first. -/
def sendHandshake (s : BatteryControl) : Bool × BatteryControl :=
  let g1 := sendElement txFrame ⟨s.bus, []⟩ .get kLsg Func.bapConfig.code none 0
  let g2 := sendElement txFrame g1.2 .get kLsg Func.bapGetAll.code none 0
  s.sent .handshake g2.2 (g1.1.isOk && g2.1.isOk)

/-- `SendProfileGet`: request the profile array, in the segmented form of the factory
unit. -/
def sendProfileGet (s : BatteryControl) : Bool × BatteryControl :=
  let txn := s.txn.next
  let asgTxn := asgTxnByte kAsgIdOvms txn.last
  let r := txFrame ⟨s.bus, []⟩ [0x80, 0x04, 0x19, 0x59, asgTxn, 0x00, 0x00, 0x04]
  { s with txn }.sent (.profileGet asgTxn) r.2 r.1

/-- `SendArm`: write profile 0 back, unless it already is what the command needs. -/
def sendArm (s : BatteryControl) : Bool × BatteryControl :=
  let p := armRecord s.op s.apply s.param s.profile0
  if !writeNeeded s.op s.apply s.param s.profile0 then (true, { s with armSkipped := true })
  else
    let r := sendProfileWrite txFrame ⟨s.bus, []⟩ s.txn kAsgIdOvms 0 0 p
    { s with armSkipped := false, txn := r.2.2 }.sent
      (.profileWrite (asgTxnByte kAsgIdOvms r.2.2.last) p) r.2.1 r.1.isOk

/-- `SendTrigger`: the immediate start or stop. -/
def sendTrigger (s : BatteryControl) (on : Bool) : Bool × BatteryControl :=
  let r := sendClimate txFrame ⟨s.bus, []⟩ on
  s.sent (.trigger on) r.2 r.1.isOk

/-! ### Command entry -/

/-- `Begin`: reset the command state, select the operation, and wake the bus. -/
def begin (s : BatteryControl) (op : BcOp) (enable : Bool) (param : UInt8) :
    Bool × BatteryControl :=
  let s := { s with
    op, param, enable,
    apply := op == BcOp.setCurrent && s.metrics.chargeInprogress,
    confirmed := false, error := false, txFail := false, haveProfile0 := false,
    armSkipped := false, bcuSeen := false, phase := .wake, phaseSecs := 0,
    wakeHold := kWakeSecs, log := s.log ++ [Obs.started op enable param] }
  (true, s.sendNmWake)

/-- `Climate`. -/
def climate (s : BatteryControl) (enable : Bool) : Bool × BatteryControl :=
  s.begin .climate enable 0

/-- `Charge`: stopping is refused while climate is on. -/
def charge (s : BatteryControl) (enable : Bool) : Bool × BatteryControl :=
  if !enable && s.metrics.hvac then
    (false, { s with log := s.log ++ [.notified .chargeStopBlocked] })
  else s.begin .charge enable 0

/-- `SetChargeCurrent`: the request is snapped to a step the car accepts. -/
def setChargeCurrent (s : BatteryControl) (amps : UInt16) : Bool × BatteryControl :=
  s.begin .setCurrent true (clampMaxCurrent amps)

/-- `Abort`: drop the command and release the wake bridge. -/
def abort (s : BatteryControl) : BatteryControl :=
  { s with phase := .idle, wakeHold := 0, log := s.log ++ [.aborted s.phase] }

/-! ### The tick -/

/-- What follows a successful `SendArm`: wait for the echo of the write, or trigger at
once when nothing was written. -/
def afterArm (s : BatteryControl) : BatteryControl :=
  if s.op = .setCurrent then { s with phase := if s.apply then .armWait else .confirm }
  else if s.armSkipped then { (s.sendTrigger s.enable).2 with phase := .confirm }
  else { s with phase := .armWait }

/-- The backstop: send the current step again. -/
def resend (s : BatteryControl) : BatteryControl :=
  match s.phase with
  | .handshake => s.sendHandshake.2
  | .profile =>
      if s.haveProfile0 then
        let r := s.sendArm
        if r.1 then r.2.afterArm else r.2
      else s.sendProfileGet.2
  | .armWait => s.sendArm.2
  | .confirm =>
      if s.op = .setCurrent ∧ s.apply = false then s.sendArm.2 else (s.sendTrigger s.enable).2
  | _ => s

/-- The cause a failed command is reported with. -/
def failureCause (s : BatteryControl) : Cause :=
  if s.error then .rejected
  else if s.txFail then .transmitError
  else if !s.haveProfile0 then .profileUnread
  else .timeout

/-- The end of the wake bridge: a command that is not confirmed has failed. -/
def finish (s : BatteryControl) : BatteryControl :=
  let s := if s.confirmed then s
    else { s with log := s.log ++ [.notified (.failed s.op s.failureCause)] }
  { s with phase := .idle }

/-- The first half of a live tick: hold the bus awake, and send a step again whose reply
is overdue. -/
def backstop (s : BatteryControl) : BatteryControl :=
  let s := s.sendNmWake
  let s := { s with phaseSecs := s.phaseSecs + 1 }
  if !s.confirmed ∧ s.phaseSecs ≥ kRetrySecs then { s with phaseSecs := 0 }.resend else s

/-- The second half: count the wake bridge down. -/
def countDown (s : BatteryControl) : BatteryControl :=
  let s := if s.wakeHold > 0 then { s with wakeHold := s.wakeHold - 1 } else s
  if s.wakeHold = 0 then s.finish else s

/-- `Ticker1`: one second has passed. -/
def ticker1 (s : BatteryControl) (busAlive : Bool) : BatteryControl :=
  let s := if !busAlive then { s with metrics := { s.metrics with hvac := false } } else s
  if s.phase = .idle ∨ s.wakeHold = 0 then s else s.backstop.countDown

/-! ### Incoming frames -/

/-- The operation-mode echo is reflected in every phase, for a climate command in the
metric too. -/
def noteOpMode (s : BatteryControl) (el : Element) : BatteryControl :=
  let s := if s.phase ≠ .done then { s with error := false } else s
  if s.op = .climate then { s with metrics := { s.metrics with hvac := opModeOn el } } else s

/-- A BAP error ends the command on the next tick. -/
def reject (s : BatteryControl) : BatteryControl :=
  { s with error := true, phase := .done, wakeHold := if s.wakeHold > 1 then 1 else s.wakeHold }

/-- The command is confirmed; the wake bridge is released after a short grace. -/
def confirm (s : BatteryControl) : BatteryControl :=
  { s with confirmed := true, phase := .done, wakeHold := if s.wakeHold > 2 then 2 else s.wakeHold }

/-- The operation-mode echo confirms a triggered command whose request it matches. -/
def confirmOpMode (s : BatteryControl) (el : Element) : BatteryControl :=
  if (s.op = .climate ∨ s.op = .charge ∨ (s.op = .setCurrent ∧ s.apply)) ∧
      s.phase = .confirm ∧ opModeOn el = s.enable then s.confirm
  else s

/-- The write echo: it releases the trigger, or confirms a command that is only a write. -/
def setEcho (s : BatteryControl) : BatteryControl :=
  if s.op = .setCurrent then
    let s := { s with metrics := { s.metrics with climit := s.param.toNat } }
    if s.apply ∧ s.phase = .armWait then
      { (s.sendTrigger true).2 with phase := .confirm, phaseSecs := 0 }
    else if !s.apply ∧ s.phase = .confirm then s.confirm
    else s
  else if (s.op = .climate ∨ s.op = .charge) ∧ s.phase = .armWait then
    { (s.sendTrigger s.enable).2 with phase := .confirm, phaseSecs := 0 }
  else s

/-- The profile is read back: reflect it in the metrics, then arm it. -/
def adopt (s : BatteryControl) (el : Element) (p : Profile) : BatteryControl :=
  let s := { s with profile0 := p, haveProfile0 := true, log := s.log ++ [Obs.readBack el p] }
  let s := if s.op ≠ .setCurrent then
      { s with metrics := { s.metrics with climit := p.maxCurrent.toNat } } else s
  let s := if p.temperatureRaw ≠ 0xFF then
      { s with metrics := { s.metrics with cabinsetpoint := rawToDeciDegC p.temperatureRaw } }
    else s
  let r := s.sendArm
  if !r.1 then r.2 else { r.2.afterArm with phaseSecs := 0 }

/-- A profile-array status that names this module. -/
def profilesArray (s : BatteryControl) (el : Element) : BatteryControl :=
  if isSetEcho el then s.setEcho
  else if s.phase = .profile ∧ s.haveProfile0 = false ∧ isGetReply el then
    match globalProfile el with
    | none => s
    | some p => s.adopt el p
  else s

/-- A complete element of the battery control unit. -/
def handle (s : BatteryControl) (el : Element) : BatteryControl :=
  let s := { s with txFail := false, log := s.log ++ [.received s.phase el] }
  let s := if isOpMode el then s.noteOpMode el else s
  if s.phase = .wake then { s.sendHandshake.2 with phase := .handshake, phaseSecs := 0 }
  else if s.phase = .handshake ∧ isHandshakeAck el then
    { s.sendProfileGet.2 with phase := .profile, phaseSecs := 0 }
  else if el.opcode = Opcode.error.code then s.reject
  else if isOpMode el then s.confirmOpMode el
  else if isOwnArray el then s.profilesArray el
  else s

/-- The assembler set a frame is fed to: the first frame of a command finds it reset. -/
def listening (s : BatteryControl) : AssemblerSet 224 4 :=
  if !s.bcuSeen then s.bapAsm.reset else s.bapAsm

/-- The element of the battery control unit that a frame completes, if any. -/
def element (s : BatteryControl) (f : CanFrame) : Option Element :=
  match (s.listening.feed f.msgId f.frame).2 with
  | some el => if el.lsg = kLsg then some el else none
  | none => none

/-- `IncomingBapStatus`: one frame of the status stream. -/
def incomingBapStatus (s : BatteryControl) (f : CanFrame) : BatteryControl :=
  let s' := { s with bapAsm := (s.listening.feed f.msgId f.frame).1, bcuSeen := true }
  match s.element f with
  | none => s'
  | some el => s'.handle el

/-- `IncomingClimaEcuStatus`: the conditioning bit of the clima unit. -/
def incomingClimaEcuStatus (s : BatteryControl) (f : CanFrame) : BatteryControl :=
  { s with metrics := { s.metrics with hvac := f.data[3]?.getD 0 &&& 0x08 != 0 } }

end BatteryControl

/-! ### Calls from outside -/

/-- One call of an entry point, or a change of the metrics by another module. -/
inductive Event
  | climate (enable : Bool)
  | charge (enable : Bool)
  | setChargeCurrent (amps : UInt16)
  | ticker1 (busAlive : Bool)
  | incomingBapStatus (f : CanFrame)
  | incomingClimaEcuStatus (f : CanFrame)
  | abort
  | metrics (m : Metrics)

/-- The state after a call. -/
def step (s : BatteryControl) : Event → BatteryControl
  | .climate enable => (s.climate enable).2
  | .charge enable => (s.charge enable).2
  | .setChargeCurrent amps => (s.setChargeCurrent amps).2
  | .ticker1 busAlive => s.ticker1 busAlive
  | .incomingBapStatus f => s.incomingBapStatus f
  | .incomingClimaEcuStatus f => s.incomingClimaEcuStatus f
  | .abort => s.abort
  | .metrics m => { s with metrics := m }

/-! ### A dialogue with the unit -/

/-- A car whose driver takes every frame, and a controller that was never used. -/
def parked : BatteryControl := .zeroed (fun _ => .ok) ⟨false, false, 16, 200⟩

/-- Frames of the status stream, one after another. -/
def replies (frames : List (List UInt8)) : List Event :=
  frames.map fun bytes => .incomingBapStatus (.status bytes)

/-- A reply of the unit with the body `body`, in the frames it takes. -/
def reply (opcode : Opcode) (func : Func) (body : List UInt8) : List Event :=
  replies (framing opcode.code kLsg func.code 0 body)

/-- The answer to a profile request: one record, at position 0, with the given operation,
charge current and name. -/
def profileBody (asgTxn operation maxCurrent : UInt8) (name : List UInt8) : List UInt8 :=
  [asgTxn, 1, 0, 0, 1, operation, 0, maxCurrent, 50, 0, 0, 100, 0, 0, 0, 0, 0, 120, 0, 0, 0, 0, 0,
    0, UInt8.ofNat name.length] ++ name

/-- The name "Option". -/
def optionName : List UInt8 := [0x4F, 0x70, 0x74, 0x69, 0x6F, 0x6E]

/-- The handshake of a command is answered. -/
def opened : List Event := reply .status .bapConfig [1, 2] ++ reply .status .bapGetAll [1, 2]

/-- The profile that answer is decoded to. -/
def profileRead (name : List UInt8) : Profile :=
  (globalProfile
    ⟨Opcode.status.code, kLsg, Func.profilesArray.code, profileBody 0x31 1 16 name⟩).getD {}

/-- A climate start up to its confirmation: the bus wakes, the handshake is acknowledged,
the profile is read and written, the write is echoed, and the trigger is confirmed. -/
def climateStart (name : List UInt8) : List Event :=
  .climate true :: (opened ++ reply .status .profilesArray (profileBody 0x31 1 16 name) ++
    reply .status .profilesArray [0xB2, 0, 0, 1] ++ reply .status .operationMode [1])

end Ovms.BatCtrl
