import Ovms.BatCtrl.Model
import Ovms.Bms.Model
import Ovms.Ocu.Heartbeat

/-!
# The e-Golf

The whole vehicle module (`vehicle_vwegolf.cpp`): the frames of the powertrain bus and of the
comfort bus become metrics, and calls go on to the heartbeat of the online connection unit and to
the battery controller. All of them take turns.

The decoders read the eight bytes of a frame, whatever its format and its length code. The
arithmetic of `float` is a parameter. A literal is the quotient of two numbers that `float` has,
which is rounded to the same value.
-/

open Ovms.Can
open Ovms.Bms (Arith)
open Ovms.BatCtrl (BatteryControl)

namespace Ovms.EGolf

/-! ### Metrics -/

/-- The metrics of a `float` that frames set. -/
inductive Quantity
  | posSpeed | batSoc | batCurrent | batVoltage | batPower | batEnergyRecd | batEnergyUsed
  | posLatitude | posLongitude | chargeVoltage | batTemp | batCapacity | envCabintemp
  | batRangeEst | batRangeIdeal | posOdometer | envTemp
  deriving DecidableEq

/-- The metrics that say whether something is open, locked, set or connected. -/
inductive Switch
  | posGpslock | envLocked | doorFl | doorFr | doorRl | doorRr | doorTrunk | doorHood
  | doorChargeport | chargeTimermode
  deriving DecidableEq

/-- The values of `ms_v_charge_type`. -/
inductive ChargeType
  | type2 | ccs
  deriving DecidableEq

/-- The metrics that the frames set. One that was never set is `none`. -/
structure Metrics (F : Type) where
  quantity : Quantity → Option F
  switch : Switch → Option Bool
  gear : Option ℤ
  /-- `xvg.v.recup`. -/
  recup : ℤ
  drivemode : Option ℤ
  vin : Option (List UInt8)
  awake : Option Bool
  on : Option Bool
  parktime : Option ℕ
  chargeDurationFull : Option ℕ
  chargeInprogress : Option Bool
  /-- Whether `ms_v_charge_state` is `charging`. Otherwise it is `stopped`. -/
  chargeState : Option Bool
  chargeType : Option ChargeType

/-- `NotifyChargeStart` and `NotifyChargeStopped`. -/
inductive Notice
  | chargeStart | chargeStopped
  deriving DecidableEq, Repr

/-- `OvmsVehicleVWeGolf`, with the notifications it has raised. -/
structure OvmsVehicleVWeGolf (F : Type) where
  metrics : Metrics F
  kl15On : Bool
  drivetrainReady : Bool
  vinPartsReceived : UInt8
  vinBuf : List UInt8
  ocu : Ocu.VWeGolf
  batctrl : BatteryControl
  notices : List Notice

namespace Metrics

variable {F : Type} (m : Metrics F)

/-- Nothing is set but the strength of regenerative braking. -/
def new : Metrics F :=
  ⟨fun _ => none, fun _ => none, none, -1, none, none, none, none, none, none, none, none, none⟩

/-- `SetValue` of a `float`. -/
def set (q : Quantity) (value : F) : Metrics F :=
  { m with quantity := Function.update m.quantity q (some value) }

/-- `SetValue` of a `bool`. -/
def setSwitch (w : Switch) (value : Bool) : Metrics F :=
  { m with switch := Function.update m.switch w (some value) }

/-- `AsFloat`. -/
def asFloat [Arith F] (q : Quantity) : F := (m.quantity q).getD (0 : ℤ)

end Metrics

/-! ### Decoders that set metrics only -/

/-- Bits `lo` to `lo + width - 1` of the bytes, counted from the first one. -/
def field (f : CanFrame) (lo width : ℕ) : ℕ :=
  (List.range 8).foldl (fun n i => n + (f.u8 i).toNat * 256 ^ i) 0 / 2 ^ lo % 2 ^ width

section Decoders

variable {F : Type} [Arith F] (m : Metrics F) (f : CanFrame)

/-- A literal of `float`. -/
def literal (num den : ℤ) : F := (num : F) / (den : F)

/-- `0xFD`. -/
def Metrics.speed : Metrics F := m.set .posSpeed ((field f 32 16 : ℤ) * literal 1 100)

/-- `0x131`. -/
def Metrics.stateOfCharge : Metrics F :=
  if f.u8 3 = 0xFE then m else m.set .batSoc (((f.u8 3).toNat : ℤ) * literal 1 2)

/-- `0x191`. -/
def Metrics.battery : Metrics F :=
  if f.u8 2 = 0xFF then m
  else
    let m := m.set .batCurrent (((2047 : ℤ) : F) - ((field f 12 12 : ℤ) : F))
    let m := m.set .batVoltage ((field f 24 12 : ℤ) * literal 1 4)
    m.set .batPower (m.asFloat .batVoltage * m.asFloat .batCurrent / (1000 : ℤ))

/-- `0x2AF`. -/
def Metrics.tripEnergy : Metrics F :=
  let energy (raw : ℕ) : F := (raw : ℤ) * (10 : ℤ) / (3600000 : ℤ)
  (m.set .batEnergyRecd (energy (field f 32 15))).set .batEnergyUsed (energy (field f 48 15))

/-- `0x486`. -/
def Metrics.gps : Metrics F :=
  let degrees (raw sign : ℕ) : F :=
    let x : F := (raw : ℤ) * literal 1 1000000
    if sign = 1 then -x else x
  let lat := degrees (field f 0 27) (field f 55 1)
  let lon := degrees (field f 27 28) (field f 56 1)
  let valid := decide ((-91 : ℤ) < lat ∧ lat < (91 : ℤ) ∧ (-181 : ℤ) < lon ∧ lon < (181 : ℤ))
  let m := m.setSwitch .posGpslock valid
  if valid then (m.set .posLatitude lat).set .posLongitude lon else m

/-- `0x386`. -/
def Metrics.driveMode : Metrics F :=
  if f.u8 5 = 0x02 then { m with drivemode := some 1 }
  else if f.u8 5 = 0x05 then { m with drivemode := some 2 }
  else if f.u8 5 = 0x08 then { m with drivemode := some 3 }
  else m

/-- `0x583`. -/
def Metrics.doors : Metrics F :=
  [(Switch.envLocked, 17), (.doorFl, 24), (.doorFr, 25), (.doorRl, 26), (.doorRr, 27),
    (.doorTrunk, 28)].foldl (fun m s => m.setSwitch s.1 (field f s.2 1 == 1)) m

/-- `0x59E`. -/
def Metrics.packTemperature : Metrics F :=
  if f.u8 2 ≥ 0xFE then m
  else m.set .batTemp (((f.u8 2).toNat : ℤ) * literal 1 2 - (40 : ℤ))

/-- `0x5CA`. -/
def Metrics.energyContent : Metrics F :=
  if f.u8 2 &&& 0x7F = 0x7F then m
  else m.set .batCapacity ((field f 12 11 : ℤ) * (50 : ℤ) / (1000 : ℤ))

/-- `0x5EA`, behind the battery controller. -/
def Metrics.climaCabin : Metrics F :=
  if field f 50 10 ≥ 0x3FE then m
  else m.set .envCabintemp ((field f 50 10 : ℤ) * literal 1 10 - (40 : ℤ))

/-- `0x5F5`. -/
def Metrics.ranges : Metrics F :=
  (m.set .batRangeEst (field f 29 11 : ℤ)).set .batRangeIdeal (field f 0 11 : ℤ)

/-- `0x65A`. -/
def Metrics.hood : Metrics F := m.setSwitch .doorHood (field f 32 1 == 1)

/-- `0x66E`. -/
def Metrics.cabin : Metrics F :=
  if f.u8 4 = 0xFE then m
  else m.set .envCabintemp (((f.u8 4).toNat : ℤ) * literal 1 2 - (50 : ℤ))

/-- `0x6B7`. -/
def Metrics.odometer : Metrics F :=
  let m := m.set .posOdometer (field f 0 20 : ℤ)
  let m := if field f 20 17 ≠ 0x1FFFF then { m with parktime := some (field f 20 17) } else m
  m.set .envTemp (((f.u8 7).toNat : ℤ) * literal 1 2 - (50 : ℤ))

/-- The bit of `0x594` that says that the car is charging. -/
def isCharging : Bool := field f 29 1 == 1

/-- `0x594`, but for the cabin setpoint. -/
def Metrics.chargeManagement : Metrics F :=
  let m := m.setSwitch .chargeTimermode (field f 21 2 == 1)
  let m := { m with
    chargeDurationFull := some (field f 12 9 * 5)
    chargeInprogress := some (isCharging f)
    chargeState := some (isCharging f) }
  let m := if isCharging f then m.set .chargeVoltage (m.asFloat .batVoltage) else m
  let m :=
    if field f 42 2 = 1 then { m with chargeType := some .type2 }
    else if field f 42 2 = 2 then { m with chargeType := some .ccs }
    else m
  m.setSwitch .doorChargeport (field f 42 2 != 0)

/-- The cases of `IncomingFrameCan3` that set metrics only. -/
def Metrics.decode : Metrics F :=
  if f.msgId = 0xFD then m.speed f
  else if f.msgId = 0x131 then m.stateOfCharge f
  else if f.msgId = 0x191 then m.battery f
  else if f.msgId = 0x2AF then m.tripEnergy f
  else if f.msgId = 0x486 then m.gps f
  else if f.msgId = 0x386 then m.driveMode f
  else if f.msgId = 0x583 then m.doors f
  else if f.msgId = 0x59E then m.packTemperature f
  else if f.msgId = 0x5CA then m.energyContent f
  else if f.msgId = 0x5F5 then m.ranges f
  else if f.msgId = 0x65A then m.hood f
  else if f.msgId = 0x66E then m.cabin f
  else if f.msgId = 0x6B7 then m.odometer f
  else m

end Decoders

/-! ### Decoders that keep a state -/

namespace OvmsVehicleVWeGolf

variable {F : Type} [Arith F] (s : OvmsVehicleVWeGolf F) (f : CanFrame)

/-- The gear, and the strength of regenerative braking in it. -/
def setGear (nibble rc : ℕ) : OvmsVehicleVWeGolf F :=
  { s with
    metrics := { s.metrics with
      gear :=
        if nibble = 2 then some 0 else if nibble = 3 then some (-1) else if nibble = 4 then some 0
        else if nibble = 5 then some 1 else if nibble = 6 then some 1 else s.metrics.gear
      recup :=
        if nibble = 6 then 4
        else if nibble = 5 then if rc ≥ 1 ∧ rc ≤ 3 then rc else 0
        else -1 } }

/-- `0x187`. -/
def gearSelector : OvmsVehicleVWeGolf F := s.setGear (field f 16 4) (field f 12 3)

/-- Bytes are written into `m_vin_buf`, and their part is received. -/
def receivePart (part : UInt8) (offset : ℕ) (bytes : List UInt8) : OvmsVehicleVWeGolf F :=
  { s with
    vinBuf := s.vinBuf.take offset ++ bytes ++ s.vinBuf.drop (offset + bytes.length)
    vinPartsReceived := s.vinPartsReceived ||| part }

/-- The characters of an array up to the first that is 0. -/
def cString (bytes : List UInt8) : List UInt8 := bytes.takeWhile (· ≠ 0)

/-- `0x6B4`: a part of the vehicle identification number. -/
def vinPart : OvmsVehicleVWeGolf F :=
  if s.vinPartsReceived = 0x07 then s
  else
    let s :=
      if f.u8 0 = 0 then s.receivePart 0x01 0 [f.u8 5, f.u8 6, f.u8 7]
      else if f.u8 0 = 1 then s.receivePart 0x02 3 (f.data.drop 1)
      else if f.u8 0 = 2 then s.receivePart 0x04 10 (f.data.drop 1)
      else s
    if s.vinPartsReceived = 0x07 then
      let vinBuf := s.vinBuf.set 17 0
      { s with vinBuf, metrics := { s.metrics with vin := some (cString vinBuf) } }
    else s

/-- `IncomingFrameCan2`. -/
def incomingFrameCan2 : OvmsVehicleVWeGolf F :=
  if f.msgId = 0x187 then s.gearSelector f
  else if f.msgId = 0x6B4 then s.vinPart f
  else s

/-- `0x594`. The cabin setpoint is a metric of the battery controller, in tenths of a degree. -/
def chargeManagement : OvmsVehicleVWeGolf F :=
  { s with
    metrics := s.metrics.chargeManagement f
    batctrl := BatCtrl.step s.batctrl <| .metrics { s.batctrl.metrics with
      chargeInprogress := isCharging f, cabinsetpoint := field f 56 5 * 5 + 155 }
    notices := if isCharging f = s.metrics.chargeInprogress.getD false then s.notices
      else s.notices ++ [if isCharging f then .chargeStart else .chargeStopped] }

/-- `0x391`, and the bit of it that says that the drivetrain is ready. -/
def isReady : Bool := field f 61 1 == 1

/-- `0x3C0`, and the bit of it for terminal 15. -/
def isKl15 : Bool := field f 17 1 == 1

/-- `ms_v_env_awake` and `ms_v_env_on` follow the terminal and the drivetrain. -/
def terminals (kl15On drivetrainReady : Bool) : OvmsVehicleVWeGolf F :=
  { s with
    kl15On, drivetrainReady
    metrics := { s.metrics with on := some (kl15On && drivetrainReady) } }

/-- The frame, for the battery controller. -/
def toBatCtrl : BatCtrl.CanFrame := ⟨f.msgId, f.dlc, f.data, f.size⟩

/-- The cases of `IncomingFrameCan3`. -/
def decode : OvmsVehicleVWeGolf F :=
  if f.msgId = 0x3C0 then
    let s := { s with metrics := { s.metrics with awake := some (isKl15 f) } }
    s.terminals (isKl15 f) s.drivetrainReady
  else if f.msgId = 0x391 then s.terminals s.kl15On (isReady f)
  else if f.msgId = 0x594 then s.chargeManagement f
  else if f.msgId = 0x5EA then
    { s with
      batctrl := BatCtrl.step s.batctrl (.incomingClimaEcuStatus (toBatCtrl f))
      metrics := s.metrics.climaCabin f }
  else if f.msgId = 0x17332510 then
    { s with batctrl := BatCtrl.step s.batctrl (.incomingBapStatus (toBatCtrl f)) }
  else { s with metrics := s.metrics.decode f }

end OvmsVehicleVWeGolf

/-! ### Calls from outside -/

/-- One call of an entry point. Receiving and ticking read the scheduler's tick count. -/
inductive Event
  | can2 (f : CanFrame)
  | can3 (f : CanFrame) (now : UInt32)
  | ticker1 (now : UInt32)
  | lock (pinCheck : Bool)
  | unlock (pinCheck : Bool)
  | mirrorFoldIn
  | horn
  | indicators
  | panic
  | wakeup
  | offline
  | climateControl (enable : Bool)
  | setChargeCurrent (limit : UInt16)
  | startCharge
  | stopCharge

/-- What the heartbeat sees of a call. -/
def Event.ocu : Event → Option Ocu.Event
  | can3 f now => some (.frame f now)
  | ticker1 now => some (.ticker1 now)
  | lock pinCheck => some (.lock pinCheck)
  | unlock pinCheck => some (.unlock pinCheck)
  | mirrorFoldIn => some .mirrorFoldIn
  | horn => some .horn
  | indicators => some .indicators
  | panic => some .panic
  | wakeup => some .wakeup
  | offline => some .offline
  | can2 _ | climateControl _ | setChargeCurrent _ | startCharge | stopCharge => none

/-- What the battery controller sees of a command. -/
def Event.batctrl : Event → Option BatCtrl.Event
  | offline => some .abort
  | climateControl enable => some (.climate enable)
  | setChargeCurrent limit => some (.setChargeCurrent limit)
  | startCharge => some (.charge true)
  | stopCharge => some (.charge false)
  | _ => none

namespace OvmsVehicleVWeGolf

variable {F : Type} [Arith F]

/-- The rest of `Ticker1`, behind the heartbeat: a silent bus clears what its frames have set. -/
def ticker1 (s : OvmsVehicleVWeGolf F) : OvmsVehicleVWeGolf F :=
  let alive := decide (s.ocu.busIdleTicks < Ocu.busTimeoutSecs)
  let s := if alive then s
    else { s.terminals false false with
      metrics := { s.metrics with awake := some false, on := some false, recup := -1 } }
  { s with batctrl := BatCtrl.step s.batctrl (.ticker1 alive) }

/-- A call, behind the heartbeat. -/
def perform (s : OvmsVehicleVWeGolf F) : Event → OvmsVehicleVWeGolf F
  | .can2 f => s.incomingFrameCan2 f
  | .can3 f _ => s.decode f
  | .ticker1 _ => s.ticker1
  | e => { s with batctrl := (e.batctrl.map (BatCtrl.step s.batctrl)).getD s.batctrl }

/-- One call. -/
def step (s : OvmsVehicleVWeGolf F) (e : Event) : OvmsVehicleVWeGolf F :=
  perform { s with ocu := (e.ocu.map (Ocu.next s.ocu)).getD s.ocu } e

/-- The module at construction, with its battery controller. -/
def new (batctrl : BatteryControl) : OvmsVehicleVWeGolf F :=
  ⟨.new, false, false, 0, List.replicate 18 0, .boot, batctrl, []⟩

/-- The module after some calls. -/
def run (batctrl : BatteryControl) (es : List Event) : OvmsVehicleVWeGolf F :=
  es.foldl step (new batctrl)

end OvmsVehicleVWeGolf

end Ovms.EGolf
