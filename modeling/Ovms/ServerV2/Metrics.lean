import Ovms.Lib.Machine
import Mathlib.Algebra.Order.Group.Unbundled.Int

/-!
# Metric Changes in the Messages of a Server V2

Every metric has a flag for the server V2, which `SetModified` sets. A function `TransmitMsg…`
reads and clears the flags of its metrics; if one was set, or if it is told to send always, it
composes the text of its message from the present values and gives it to `Transmit`, whose answer
it does not look at.

So a change is forgotten in two ways: the flag is clear and `Transmit` failed
(`stat_not_transmitted`); or the flag is clear because the message of another kind was sent, which
carries the metric as well (`Call.shared`).

## Convention

A message contains the value of a metric if its text is computed from the value: rounded,
converted, or as a bit among others. The texts themselves are not modelled.
-/

open Lib

namespace Ovms.ServerV2

/-- The metrics that the messages are about. -/
inductive StandardMetric
  | msVBatSoc | msVChargeVoltage | msVChargeCurrent | msVChargeState | msVChargeSubstate
  | msVChargeMode | msVBatRangeIdeal | msVBatRangeEst | msVChargeClimit | msVChargeKwh
  | msVChargeTimermode | msVChargeTimerstart | msVBatCac | msVBatCapacity | msVChargeDurationFull
  | msVChargeDurationRange | msVChargeDurationSoc | msVChargeInprogress | msVChargeLimitRange
  | msVChargeLimitSoc | msVEnvCooling | msVBatRangeFull | msVBatPower | msVBatVoltage | msVBatSoh
  | msVChargePower | msVChargeEfficiency | msVBatCurrent | msVBatRangeSpeed | msVChargeKwhGrid
  | msVChargeKwhGridTotal | msVChargeTimestamp | msVChargeTime | msVGenInprogress | msVGenPilot
  | msVGenVoltage | msVGenCurrent | msVGenPower | msVGenEfficiency | msVGenType | msVGenState
  | msVGenSubstate | msVGenMode | msVGenClimit | msVGenLimitRange | msVGenLimitSoc | msVGenKwh
  | msVGenKwhGrid | msVGenKwhGridTotal | msVGenTime | msVGenTimermode | msVGenTimerstart
  | msVGenDurationEmpty | msVGenDurationRange | msVGenDurationSoc | msVGenTemp | msVGenTimestamp
  | msVPosLatitude | msVPosLongitude | msVPosDirection | msVPosAltitude | msVPosGpslock
  | msVPosGpssq | msVPosGpsmode | msVPosGpshdop | msVPosSatcount | msVPosGpsspeed | msVPosSpeed
  | msVEnvDrivemode | msVBatEnergyUsed | msVBatEnergyRecd | msVInvPower | msVInvEfficiency
  | msVPosTrip | msVTpmsPressure | msVTpmsTemp | msVTpmsHealth | msVTpmsAlert | msMVersion
  | msVVin | msVType | msMNetProvider | msVEnvServiceRange | msVEnvServiceTime | msMHardware
  | msMNetMdmMode | msMNetSq | msVDoorFl | msVDoorFr | msVDoorChargeport | msVChargePilot
  | msVEnvHandbrake | msVEnvOn | msVEnvLocked | msVEnvValet | msVEnvHeadlights | msVDoorHood
  | msVDoorTrunk | msVEnvAwake | msVEnvCtrlLogin | msVEnvCtrlConfig | msVEnvAlarm | msVInvTemp
  | msVMotTemp | msVBatTemp | msVEnvTemp | msVBat12vVoltage | msVDoorRl | msVDoorRr
  | msVEnvCharging12v | msVEnvAux12v | msVEnvHvac | msVChargeTemp | msVEnvCabintemp
  | msVPosOdometer | msVEnvParktime | msVBat12vVoltageRef | msVBat12vCurrent
  deriving DecidableEq

/-- The messages, by the function that composes them; `TransmitMsgTPMS` composes two. -/
inductive MsgKind
  /-- `MP-0 S` -/
  | stat
  /-- `MP-0 X` -/
  | gen
  /-- `MP-0 L` -/
  | gps
  /-- `MP-0 Y` -/
  | tpms
  /-- `MP-0 W` -/
  | tpmsLegacy
  /-- `MP-0 F` -/
  | firmware
  /-- `MP-0 D` -/
  | environment
  deriving DecidableEq

/-- The functions that transmit metrics. -/
inductive Call
  | stat | gen | gps | tpms | firmware | environment | capabilities | group
  deriving DecidableEq

/-- The metrics whose flags a function reads and clears, in its order. -/
def Call.flags : Call → List StandardMetric
  | .stat =>
    [.msVBatSoc, .msVChargeVoltage, .msVChargeCurrent, .msVChargeState, .msVChargeSubstate,
     .msVChargeMode, .msVBatRangeIdeal, .msVBatRangeEst, .msVChargeClimit, .msVChargeKwh,
     .msVChargeTimermode, .msVChargeTimerstart, .msVBatCac, .msVBatCapacity, .msVChargeDurationFull,
     .msVChargeDurationRange, .msVChargeDurationSoc, .msVChargeInprogress, .msVChargeLimitRange,
     .msVChargeLimitSoc, .msVEnvCooling, .msVBatRangeFull, .msVBatPower, .msVBatVoltage, .msVBatSoh,
     .msVChargePower, .msVChargeEfficiency, .msVBatCurrent, .msVBatRangeSpeed, .msVChargeKwhGrid,
     .msVChargeKwhGridTotal, .msVChargeTimestamp]
  | .gen =>
    [.msVGenInprogress, .msVGenPilot, .msVGenVoltage, .msVGenCurrent, .msVGenPower,
     .msVGenEfficiency, .msVGenType, .msVGenState, .msVGenSubstate, .msVGenMode, .msVGenClimit,
     .msVGenLimitRange, .msVGenLimitSoc, .msVGenKwh, .msVGenLimitRange, .msVGenLimitSoc,
     .msVGenKwhGrid, .msVGenKwhGridTotal, .msVGenTime, .msVGenTimermode, .msVGenTimerstart,
     .msVGenDurationEmpty, .msVGenDurationRange, .msVGenDurationSoc, .msVGenTemp, .msVGenTimestamp]
  | .gps =>
    [.msVPosLatitude, .msVPosLongitude, .msVPosDirection, .msVPosAltitude, .msVPosGpslock,
     .msVPosGpssq, .msVPosGpsmode, .msVPosGpshdop, .msVPosSatcount, .msVPosGpsspeed, .msVPosSpeed,
     .msVEnvDrivemode, .msVBatPower, .msVBatEnergyUsed, .msVBatEnergyRecd, .msVInvPower,
     .msVInvEfficiency]
  | .tpms =>
    [.msVTpmsPressure, .msVTpmsTemp, .msVTpmsHealth, .msVTpmsAlert]
  | .firmware =>
    [.msMVersion, .msVVin, .msVType, .msMNetProvider, .msVEnvServiceRange, .msVEnvServiceTime,
     .msMHardware, .msMNetMdmMode]
  | .environment =>
    [.msVDoorFl, .msVDoorFr, .msVDoorChargeport, .msVChargePilot, .msVChargeInprogress,
     .msVEnvHandbrake, .msVEnvOn, .msVEnvLocked, .msVEnvValet, .msVEnvHeadlights, .msVDoorHood,
     .msVDoorTrunk, .msVEnvAwake, .msVEnvCooling, .msVEnvCtrlLogin, .msVEnvCtrlConfig, .msVEnvAlarm,
     .msVInvTemp, .msVMotTemp, .msVBatTemp, .msVEnvTemp, .msVBat12vVoltage, .msVDoorRl, .msVDoorRr,
     .msVEnvCharging12v, .msVEnvAux12v, .msVEnvHvac, .msVChargeTemp, .msVEnvCabintemp]
  | .capabilities | .group => []

/-- The metrics that the text of a message is computed from, in the order of the text. -/
def carried : MsgKind → List StandardMetric
  | .stat =>
    [.msVChargeDurationRange, .msVChargeDurationSoc, .msVChargeInprogress, .msVBatSoc,
     .msVChargeVoltage, .msVChargeCurrent, .msVChargeState, .msVChargeMode, .msVBatRangeIdeal,
     .msVBatRangeEst, .msVChargeClimit, .msVChargeTime, .msVChargeKwh, .msVChargeSubstate,
     .msVChargeTimermode, .msVChargeTimerstart, .msVBatCac, .msVChargeDurationFull,
     .msVChargeLimitRange, .msVChargeLimitSoc, .msVEnvCooling, .msVBatRangeFull, .msVBatPower,
     .msVBatVoltage, .msVBatSoh, .msVChargePower, .msVChargeEfficiency, .msVBatCurrent,
     .msVBatRangeSpeed, .msVChargeKwhGrid, .msVChargeKwhGridTotal, .msVBatCapacity,
     .msVChargeTimestamp]
  | .gen =>
    [.msVGenInprogress, .msVGenPilot, .msVGenVoltage, .msVGenCurrent, .msVGenPower,
     .msVGenEfficiency, .msVGenType, .msVGenState, .msVGenSubstate, .msVGenMode, .msVGenClimit,
     .msVGenLimitRange, .msVGenLimitSoc, .msVGenKwh, .msVGenKwhGrid, .msVGenKwhGridTotal,
     .msVGenTime, .msVGenTimermode, .msVGenTimerstart, .msVGenDurationEmpty, .msVGenDurationRange,
     .msVGenDurationSoc, .msVGenTemp, .msVGenTimestamp]
  | .gps =>
    [.msVEnvDrivemode, .msVPosLatitude, .msVPosLongitude, .msVPosDirection, .msVPosAltitude,
     .msVPosGpslock, .msVPosSpeed, .msVPosTrip, .msVBatPower, .msVBatEnergyUsed, .msVBatEnergyRecd,
     .msVInvPower, .msVInvEfficiency, .msVPosGpsmode, .msVPosSatcount, .msVPosGpshdop,
     .msVPosGpsspeed, .msVPosGpssq]
  | .tpms =>
    [.msVTpmsPressure, .msVTpmsTemp, .msVTpmsHealth, .msVTpmsAlert]
  | .tpmsLegacy =>
    [.msVTpmsTemp, .msVTpmsPressure]
  | .firmware =>
    [.msMVersion, .msVVin, .msMNetSq, .msVType, .msMNetProvider, .msVEnvServiceRange,
     .msVEnvServiceTime, .msMHardware, .msMNetMdmMode]
  | .environment =>
    [.msVDoorFl, .msVDoorFr, .msVDoorChargeport, .msVChargePilot, .msVChargeInprogress,
     .msVEnvHandbrake, .msVEnvOn, .msVEnvLocked, .msVEnvValet, .msVEnvHeadlights, .msVDoorHood,
     .msVDoorTrunk, .msVInvTemp, .msVMotTemp, .msVBatTemp, .msVPosTrip, .msVPosOdometer,
     .msVPosSpeed, .msVEnvParktime, .msVEnvTemp, .msVEnvAwake, .msVEnvCooling, .msVEnvCtrlLogin,
     .msVEnvCtrlConfig, .msVBat12vVoltage, .msVEnvAlarm, .msVBat12vVoltageRef, .msVDoorRl,
     .msVDoorRr, .msVEnvCharging12v, .msVEnvAux12v, .msVEnvHvac, .msVChargeTemp, .msVBat12vCurrent,
     .msVEnvCabintemp]

/-- A message by the values its text is computed from. -/
structure MsgText (V : Type*) where
  kind : MsgKind
  values : List (StandardMetric × V)

/-- The metrics as the server V2 sees them, with what was transmitted. -/
structure Reporter (V : Type*) where
  /-- the value of each metric -/
  value : StandardMetric → V
  /-- the bit of the server V2 in `m_modified` of each metric -/
  modified : StandardMetric → Bool
  /-- the static `last_m_net_sq` of `TransmitMsgFirmware` -/
  lastNetSq : ℤ
  /-- the metrics that changed since the flags were registered -/
  changed : StandardMetric → Bool
  /-- the messages whose `Transmit` succeeded -/
  sent : List (MsgText V)

/-- What happens outside while a function runs. -/
structure Outside (V : Type*) where
  /-- the changes that other tasks make after the flags are cleared (or after the message before)
  and before the text is composed -/
  changes : MsgKind → List (StandardMetric × V)
  /-- what `Transmit` answers -/
  ok : MsgKind → Bool

namespace Reporter

variable {V : Type*}

/-- A metric gets another value, with `SetModified(true)`. (`SetModified(false)`, for an equal
value, leaves the value and the flags alone.) -/
def setModified (s : Reporter V) (m : StandardMetric) (v : V) : Reporter V :=
  { s with
    value := Function.update s.value m v
    modified := Function.update s.modified m true
    changed := Function.update s.changed m true }

/-- `IsModifiedAndClear`. -/
def isModifiedAndClear (s : Reporter V) (m : StandardMetric) : Bool × Reporter V :=
  (s.modified m, { s with modified := Function.update s.modified m false })

/-- The flags are read and cleared, all of them: `|` does not stop at the first one set. -/
def clearFlags (s : Reporter V) : List StandardMetric → Bool × Reporter V
  | [] => (false, s)
  | m :: ms =>
    let (modified, s) := s.isModifiedAndClear m
    let (others, s) := s.clearFlags ms
    (modified || others, s)

/-- The text is composed. -/
def compose (s : Reporter V) (kind : MsgKind) : MsgText V :=
  ⟨kind, (carried kind).map fun m => (m, s.value m)⟩

/-- The text of a message is composed and given to `Transmit`. -/
def transmit (s : Reporter V) (kind : MsgKind) (w : Outside V) : Reporter V :=
  let s := (w.changes kind).foldl (fun s c => s.setModified c.1 c.2) s
  if w.ok kind then { s with sent := s.sent ++ [s.compose kind] } else s

/-- What the functions `TransmitMsg…` have in common. -/
def transmitMsg (flags : List StandardMetric) (kinds : List MsgKind) (s : Reporter V)
    (always : Bool) (w : Outside V) : Reporter V :=
  let (modified, s) := s.clearFlags flags
  if !always && !modified then s else kinds.foldl (fun s kind => s.transmit kind w) s

/-- `TransmitMsgStat`. -/
def transmitMsgStat : Reporter V → Bool → Outside V → Reporter V :=
  transmitMsg Call.stat.flags [.stat]

/-- `TransmitMsgGen`. -/
def transmitMsgGen : Reporter V → Bool → Outside V → Reporter V :=
  transmitMsg Call.gen.flags [.gen]

/-- `TransmitMsgGPS`. -/
def transmitMsgGPS : Reporter V → Bool → Outside V → Reporter V :=
  transmitMsg Call.gps.flags [.gps]

/-- `TransmitMsgTPMS`. -/
def transmitMsgTPMS : Reporter V → Bool → Outside V → Reporter V :=
  transmitMsg Call.tpms.flags [.tpms, .tpmsLegacy]

/-- `TransmitMsgFirmware`: the signal quality counts if it is more than 2 away from the one last
sent; its own flag is not looked at. -/
def transmitMsgFirmware (netSq : V → ℤ) (s : Reporter V) (always : Bool) (w : Outside V) :
    Reporter V :=
  let currNetSq := netSq (s.value .msMNetSq)
  let (modified, s) := s.clearFlags Call.firmware.flags
  if !always && !(modified || decide (2 < |currNetSq - s.lastNetSq|)) then s
  else { s with lastNetSq := currNetSq }.transmit .firmware w

/-- `TransmitMsgEnvironment`. -/
def transmitMsgEnvironment : Reporter V → Bool → Outside V → Reporter V :=
  transmitMsg Call.environment.flags [.environment]

/-- `TransmitMsgCapabilities`, `TransmitMsgGroup`: nothing is sent. -/
def transmitMsgCapabilities (s : Reporter V) (_always : Bool) : Reporter V := s

@[inherit_doc transmitMsgCapabilities]
def transmitMsgGroup (s : Reporter V) (_always : Bool) : Reporter V := s

/-- What happens. -/
inductive Event (V : Type*)
  /-- a metric changes -/
  | setModified (m : StandardMetric) (v : V)
  /-- a function is called -/
  | transmitMsg (call : Call) (always : Bool) (w : Outside V)

/-- One step; `netSq` is `AsInt(0, sq)`. -/
def step (netSq : V → ℤ) (s : Reporter V) : Event V → Reporter V
  | .setModified m v => s.setModified m v
  | .transmitMsg call always w =>
    match call with
    | .stat => s.transmitMsgStat always w
    | .gen => s.transmitMsgGen always w
    | .gps => s.transmitMsgGPS always w
    | .tpms => s.transmitMsgTPMS always w
    | .firmware => s.transmitMsgFirmware netSq always w
    | .environment => s.transmitMsgEnvironment always w
    | .capabilities => s.transmitMsgCapabilities always
    | .group => s.transmitMsgGroup always

/-- The flags are registered: some metrics may have their flag set already. -/
def registered (value : StandardMetric → V) (modified : StandardMetric → Bool) : Reporter V :=
  ⟨value, modified, 0, fun _ => false, []⟩

/-! ### What must not be forgotten -/

/-- The value that the metric has now was in a message of the kind that was transmitted. -/
def Contained (s : Reporter V) (kind : MsgKind) (m : StandardMetric) : Prop :=
  ∃ msg ∈ s.sent, msg.kind = kind ∧ (m, s.value m) ∈ msg.values

end Reporter

/-- The messages that a function sends. -/
def Call.kinds : Call → List MsgKind
  | .stat => [.stat]
  | .gen => [.gen]
  | .gps => [.gps]
  | .tpms => [.tpms, .tpmsLegacy]
  | .firmware => [.firmware]
  | .environment => [.environment]
  | .capabilities | .group => []

/-- The metrics that are carried by messages of two functions: the other messages that carry a
metric whose flag the function clears. -/
def Call.shared : Call → List (StandardMetric × MsgKind)
  | .stat => [(.msVChargeInprogress, .environment), (.msVEnvCooling, .environment),
      (.msVBatPower, .gps)]
  | .gps => [(.msVPosSpeed, .environment), (.msVBatPower, .stat)]
  | .environment => [(.msVChargeInprogress, .stat), (.msVEnvCooling, .stat)]
  | .gen | .tpms | .firmware | .capabilities | .group => []

/-- The metrics that other tasks change while messages of these kinds are composed. -/
def Outside.touched {V : Type*} (w : Outside V) (kinds : List MsgKind) : List StandardMetric :=
  kinds.flatMap fun kind => (w.changes kind).map Prod.fst

namespace Reporter

variable {V : Type*}

/-- A set flag is cleared for a value that is transmitted, or was: each message of the function
that carries the metric is, and each message of another function that carries it was. -/
def Keeps (s : Reporter V) : Event V → Prop
  | .setModified _ _ => True
  | .transmitMsg call _ w =>
    ∀ m ∈ call.flags, s.modified m = true → s.changed m = true → m ∉ w.touched call.kinds →
      (∀ kind ∈ call.kinds, m ∈ carried kind → w.ok kind = true ∨ s.Contained kind m) ∧
      ∀ kind, (m, kind) ∈ call.shared → s.Contained kind m

end Reporter

/-! ### The shared metrics -/

namespace Reporter

variable {V : Type*} {s t u : Reporter V}

/-! ### The flags -/

/-- What sending messages does: other tasks change the metrics `touched`, and the messages of the
`kinds` whose `Transmit` succeeds are added. -/
structure Sends (w : Outside V) (touched : List StandardMetric) (kinds : List MsgKind)
    (s t : Reporter V) : Prop where
  clear : ∀ m, t.modified m = false ↔ m ∉ touched ∧ s.modified m = false
  changed : ∀ m, t.changed m = true ↔ m ∈ touched ∨ s.changed m = true
  contained : ∀ m ∉ touched, ∀ kind, t.Contained kind m ↔
    s.Contained kind m ∨ kind ∈ kinds ∧ w.ok kind = true ∧ m ∈ carried kind

theorem Sends.refl (w : Outside V) (s : Reporter V) : Sends w [] [] s s where
  clear m := by simp
  changed m := by simp
  contained m _ kind := by simp

/-- One message after the other. -/
theorem Sends.trans {w : Outside V} {as bs : List StandardMetric} {ks ls : List MsgKind}
    (h₁ : Sends w as ks s t) (h₂ : Sends w bs ls t u) : Sends w (as ++ bs) (ks ++ ls) s u where
  clear m := by rw [h₂.clear, h₁.clear, List.mem_append]; tauto
  changed m := by rw [h₂.changed, h₁.changed, List.mem_append]; tauto
  contained m hm kind := by
    rw [List.mem_append, not_or] at hm
    rw [h₂.contained m hm.2, h₁.contained m hm.1, List.mem_append]
    tauto

end Reporter

end Ovms.ServerV2
