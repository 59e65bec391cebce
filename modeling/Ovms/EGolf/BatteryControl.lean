import Ovms.Bap.Cursor
import Ovms.Bap.Send

/-!
# Battery Control on LSG 0x25

The vehicle layer over the BAP transport (`egolf/battery_control.h`,
`egolf/battery_control.cpp`): the ids of the battery control unit, the profile record and
its codec, the profile array, and the two telegrams a command sends through
`sendElement`.

The name field of a profile is the whole 25-byte array of the source.
-/

open Ovms.Bap

namespace Ovms.EGolf

/-- The logical device of the battery control unit. -/
def kLsg : UInt8 := 0x25

/-- Base of the MQB identifiers. -/
def kMqbBase : UInt16 := 0x1733

/-- The identifier of a logical device's subsystem. -/
def mqbCanId (lsg subsystem : UInt8) (base : UInt16) : UInt32 :=
  base.toUInt32 <<< 16 ||| lsg.toUInt32 <<< 8 ||| subsystem.toUInt32

/-- The identifier commands are written to, `0x17332501`. -/
def kCanIdCommand : UInt32 := mqbCanId kLsg 0x01 kMqbBase

/-- The identifier status telegrams arrive on, `0x17332510`. -/
def kCanIdStatus : UInt32 := mqbCanId kLsg 0x10 kMqbBase

/-- The functions of LSG 0x25 a command uses. -/
inductive Func
  | bapGetAll | bapConfig | operationMode | profilesArray
  deriving DecidableEq, Repr

/-- The 6-bit id of a function in the element header. -/
def Func.code : Func → UInt8
  | bapGetAll => 0x01
  | bapConfig => 0x02
  | operationMode => 0x18
  | profilesArray => 0x19

/-- Operation bit: charge at this location. -/
def poCharging : UInt8 := 0x01

/-- Operation bit: climatise. -/
def poClimate : UInt8 := 0x02

/-- Operation bit: climatise without external supply. -/
def poAllowBattery : UInt8 := 0x04

/-! ### Charge current and temperature -/

/-- The absolute ceiling of a written charge current. -/
def kMaxCurrentHardLimit : UInt8 := 0x20

/-- The charge currents the car accepts. -/
def kMaxCurrentSteps : List UInt8 := [5, 10, 13, 32]

/-- One round of the search for the nearest step: the candidate replaces the best one
when it is strictly closer. -/
def nearerStep (amps : UInt16) (best : UInt8 × UInt16) (v : UInt8) : UInt8 × UInt16 :=
  let dist := if amps > v.toUInt16 then amps - v.toUInt16 else v.toUInt16 - amps
  if dist < best.2 then (v, dist) else best

/-- The nearest accepted charge current; the lower one on a tie. -/
def clampMaxCurrent (amps : UInt16) : UInt8 :=
  let amps := if amps > kMaxCurrentHardLimit.toUInt16 then kMaxCurrentHardLimit.toUInt16
    else amps
  (kMaxCurrentSteps.foldl (nearerStep amps) (5, 0xFFFF)).1

theorem nearerStep_fst (amps : UInt16) (best : UInt8 × UInt16) (v : UInt8) :
    (nearerStep amps best v).1 = v ∨ (nearerStep amps best v).1 = best.1 := by
  simp only [nearerStep, apply_ite Prod.fst]
  exact ite_eq_or_eq _ _ _

/-- The search ends at the best step it started from or at one of the steps. -/
theorem foldl_nearerStep_mem (amps : UInt16) (steps : List UInt8) :
    ∀ best : UInt8 × UInt16, (steps.foldl (nearerStep amps) best).1 ∈ best.1 :: steps := by
  induction steps with
  | nil => intro best; exact List.mem_singleton.mpr rfl
  | cons v steps ih =>
      intro best
      rcases List.mem_cons.mp (ih (nearerStep amps best v)) with h | h
      · rw [List.foldl_cons, h]
        rcases nearerStep_fst amps best v with hv | hbest
        · rw [hv]
          exact List.mem_cons_of_mem _ List.mem_cons_self
        · rw [hbest]
          exact List.mem_cons_self
      · exact List.mem_cons_of_mem _ (List.mem_cons_of_mem _ h)

theorem clampMaxCurrent_mem (amps : UInt16) : clampMaxCurrent amps ∈ kMaxCurrentSteps := by
  have h5 : (5 : UInt8) ∈ kMaxCurrentSteps := by decide
  rcases List.mem_cons.mp (foldl_nearerStep_mem _ kMaxCurrentSteps (5, 0xFFFF)) with h | h
  · rw [clampMaxCurrent, h]
    exact h5
  · exact h

/-- **A clamped charge current respects the hard limit.** -/
theorem clampMaxCurrent_le (amps : UInt16) : clampMaxCurrent amps ≤ kMaxCurrentHardLimit := by
  have h : ∀ v ∈ kMaxCurrentSteps, v ≤ kMaxCurrentHardLimit := by
    simp [kMaxCurrentSteps, kMaxCurrentHardLimit]
  exact h _ (clampMaxCurrent_mem amps)

/-- A raw temperature byte in tenths of a degree Celsius. -/
def rawToDeciDegC (raw : UInt8) : ℕ := raw.toNat + 100

/-! ### The profile record -/

/-- Length of the fixed fields of a record, the name length included. -/
def kProfileFixedLen : ℕ := 20

/-- Longest name a profile holds. -/
def kProfileMaxName : UInt8 := 24

/-- A battery control profile. -/
structure Profile where
  operation : UInt8 := 0
  operation2 : UInt8 := 0
  maxCurrent : UInt8 := 0
  minChargeLevel : UInt8 := 0
  minRange : UInt16 := 0
  targetChargeLevel : UInt8 := 0
  targetChargeDuration : UInt8 := 0
  targetChargeRange : UInt16 := 0
  unitRange : UInt8 := 0
  rangeCalculationSetup : UInt8 := 0
  temperatureRaw : UInt8 := 0
  temperatureUnit : UInt8 := 0
  leadTime : UInt8 := 0
  holdingTimePlug : UInt8 := 0
  holdingTimeBattery : UInt8 := 0
  providerDataId : UInt16 := 0
  nameLen : UInt8 := 0
  name : List UInt8 := List.replicate 25 0
  nameTruncated : Bool := false
  position : UInt16 := 0
  deriving DecidableEq, Repr

/-- Read one full record: the fixed fields in order, then the name. -/
def readProfile : StateM Reader (Bool × Profile) := do
  let operation ← Reader.u8
  let operation2 ← Reader.u8
  let maxCurrent ← Reader.u8
  let minChargeLevel ← Reader.u8
  let minRange ← Reader.u16le
  let targetChargeLevel ← Reader.u8
  let targetChargeDuration ← Reader.u8
  let targetChargeRange ← Reader.u16le
  let unitRange ← Reader.u8
  let rangeCalculationSetup ← Reader.u8
  let temperatureRaw ← Reader.u8
  let temperatureUnit ← Reader.u8
  let leadTime ← Reader.u8
  let holdingTimePlug ← Reader.u8
  let holdingTimeBattery ← Reader.u8
  let providerDataId ← Reader.u16le
  let s ← Reader.strLp (List.replicate 25 0) (kProfileMaxName + 1)
  let r ← get
  pure (r.ok,
    { operation, operation2, maxCurrent, minChargeLevel, minRange, targetChargeLevel,
      targetChargeDuration, targetChargeRange, unitRange, rangeCalculationSetup,
      temperatureRaw, temperatureUnit, leadTime, holdingTimePlug, holdingTimeBattery,
      providerDataId, nameLen := s.copied, name := s.out, nameTruncated := s.truncated })

/-- Encode a full record into a buffer of `cap` bytes; empty when it does not fit. -/
def encodeProfile (cap : ℕ) (p : Profile) : List UInt8 :=
  let w := (((((((Writer.ofCap cap).u8 p.operation).u8 p.operation2).u8 p.maxCurrent).u8
    p.minChargeLevel).u16le p.minRange).u8 p.targetChargeLevel).u8 p.targetChargeDuration
  let w := ((((w.u16le p.targetChargeRange).u8 p.unitRange).u8 p.rangeCalculationSetup).u8
    p.temperatureRaw).u8 p.temperatureUnit
  let w := (((w.u8 p.leadTime).u8 p.holdingTimePlug).u8 p.holdingTimeBattery).u16le
    p.providerDataId
  let nameLen := if p.nameLen > kProfileMaxName then kProfileMaxName else p.nameLen
  let w := w.strLp p.name nameLen
  if w.ok then w.out else []

/-! ### The profile array -/

/-- How the decoding of a profile array ended. -/
structure ArrayResult where
  count : ℕ
  declared : ℕ
  complete : Bool
  truncated : Bool
  malformed : Bool
  deriving DecidableEq, Repr

/-- How the record loop ended: the profiles, the index reached, and the two flags. -/
structure LoopEnd where
  out : List Profile
  index : ℕ
  truncated : Bool
  malformed : Bool
  deriving DecidableEq, Repr

/-- The index and the position of one element, as the flags of the array say. -/
def readPosition (largeIdx posTransmit : Bool) (startIndex : UInt16) (i : ℕ) :
    StateM Reader UInt16 :=
  if posTransmit then
    if largeIdx then Reader.u16le else do
      let b ← Reader.u8
      pure b.toUInt16
  else pure (startIndex + UInt16.ofNat i)

/-- The record loop; the first argument counts the elements that are left. -/
def decodeRecords (maxOut : ℕ) (largeIdx posTransmit : Bool) (recordAddr : UInt8)
    (startIndex : UInt16) : ℕ → ℕ → List Profile → Reader → LoopEnd
  | 0, i, out, _ => ⟨out, i, false, false⟩
  | left + 1, i, out, r =>
      if !r.ok then ⟨out, i, false, false⟩
      else if out.length ≥ maxOut then ⟨out, i, true, false⟩
      else
        let pos := readPosition largeIdx posTransmit startIndex i r
        if recordAddr == 6 then
          decodeRecords maxOut largeIdx posTransmit recordAddr startIndex left (i + 1) out
            (Reader.skip 4 pos.2).2
        else
          let p := readProfile pos.2
          if !p.1.1 then ⟨out, i, false, true⟩
          else
            decodeRecords maxOut largeIdx posTransmit recordAddr startIndex left (i + 1)
              (out ++ [{ p.1.2 with position := pos.1 }]) p.2

/-- The five or seven header bytes of an array: flags, start index and element count. -/
def readArrayHeader : StateM Reader (UInt8 × UInt16 × UInt16) := do
  let _arrayId ← Reader.u8
  let _totalElementsInList ← Reader.u8
  let flags ← Reader.u8
  let index : StateM Reader UInt16 :=
    if flags &&& 0x80 != 0 then Reader.u16le else do
      let b ← Reader.u8
      pure b.toUInt16
  let startIndex ← index
  let elementCount ← index
  pure (flags, startIndex, elementCount)

/-- Decode a profile array into at most `maxOut` profiles. -/
def decodeProfileArray (body : List UInt8) (maxOut : ℕ) : List Profile × ArrayResult :=
  let h := readArrayHeader (Reader.ofBody body)
  let flags := h.1.1
  let startIndex := h.1.2.1
  let elementCount := h.1.2.2.toNat
  if !h.2.ok then ([], ⟨0, elementCount, false, false, true⟩)
  else
    let e := decodeRecords maxOut (flags &&& 0x80 != 0) (flags &&& 0x40 != 0) (flags &&& 0x0F)
      startIndex elementCount 0 [] h.2
    let done := !e.truncated && !e.malformed && decide (e.index ≥ elementCount)
    (e.out, ⟨e.out.length, elementCount, done, e.truncated,
      e.malformed || (!e.truncated && !done)⟩)

/-! ### Array writes and triggers -/

/-- The client id of this module. -/
def kAsgIdOvms : UInt8 := 0x3

/-- The leading byte of an array telegram: client id and transaction. -/
def asgTxnByte (asgId txn : UInt8) : UInt8 := (asgId &&& 0x0F) <<< 4 ||| (txn &&& 0x0F)

/-- `TxnCounter`: the last transaction id. -/
structure TxnCounter where
  last : UInt8 := 0
  deriving DecidableEq, Repr

/-- The next transaction id, `1` to `0xF`. -/
def TxnCounter.next (tc : TxnCounter) : TxnCounter :=
  ⟨if tc.last ≥ 0x0F then 0x01 else tc.last + 1⟩

/-- The body of an array write; empty when it does not fit the buffer. -/
def buildArrayWriteBody (cap : ℕ) (asgTxn recordAddr startIndex count : UInt8)
    (records : List UInt8) : List UInt8 :=
  if cap < 4 + records.length then []
  else asgTxn :: recordAddr :: startIndex :: count :: records

section Sends

variable {σ : Type*} (sink : σ → List UInt8 → Bool × σ)

/-- Write one profile with an array write under a fresh transaction id. -/
def sendProfileWrite (ctx : σ) (tc : TxnCounter) (asgId recordAddr startIndex : UInt8)
    (p : Profile) : SendResult × σ × TxnCounter :=
  let recCap := kProfileFixedLen + kProfileMaxName.toNat + 1
  let rec' := encodeProfile recCap p
  if rec'.isEmpty then (⟨.refused, 0⟩, ctx, tc)
  else
    let tc := tc.next
    let body := buildArrayWriteBody (4 + recCap) (asgTxnByte asgId tc.last) recordAddr
      startIndex 1 rec'
    if body.isEmpty then (⟨.refused, 0⟩, ctx, tc)
    else
      let r := sendElement sink ctx .setGet kLsg Func.profilesArray.code (some body) body.length
      (r.1, r.2, tc)

/-- The two-byte body of an immediate start or stop. -/
def buildOperationMode (on : Bool) : List UInt8 := if on then [0x00, 0x01] else [0x00, 0x00]

/-- Start or stop the immediate profile. -/
def sendClimate (ctx : σ) (on : Bool) : SendResult × σ :=
  sendElement sink ctx .setGet kLsg Func.operationMode.code (some (buildOperationMode on)) 2

end Sends

end Ovms.EGolf
