import Ovms.EGolf.Vehicle
import Ovms.Lib.History

/-!
# What the e-Golf Reports

Whether the car is awake and drivable, and its charges, as the module reports them, are told from
the frames received so far. Frames, ticks and commands come in any order.

A bit of the comfort bus stands until a later frame of the same kind, or until the bus has been
silent for `VWEGOLF_BUS_TIMEOUT_SECS`. The notifications of charges are the changes of one bit.
-/

open Lib
open Ovms.Can
open Ovms.Bms (Arith)
open Ovms.BatCtrl (BatteryControl)

namespace Ovms.EGolf

/-! ### Silence of the comfort bus -/

/-- A frame of the comfort bus. -/
def Event.isCan3 : Event → Bool
  | can3 _ _ => true
  | _ => false

/-- A call of the ticker. -/
def Event.isTicker1 : Event → Bool
  | ticker1 _ => true
  | _ => false

/-- The seconds since the latest frame of the comfort bus. -/
def quiet (es : List Event) : ℕ := (sinceLast Event.isCan3 es).countP Event.isTicker1

section Stands

variable {id : UInt32} {bit : CanFrame → Bool} {es : List Event} {e : Event}

end Stands

/-! ### The counter of silence -/

variable {F : Type} [Arith F] {b : BatteryControl} {es : List Event}

open OvmsVehicleVWeGolf

/-- The members that say whether the car is awake and drivable, and their metrics. -/
structure Drive where
  kl15On : Bool
  drivetrainReady : Bool
  awake : Option Bool
  on : Option Bool

/-- A frame of the comfort bus. -/
def Drive.frame (d : Drive) (f : CanFrame) : Drive :=
  if f.msgId = 0x3C0 then
    { d with
      kl15On := isKl15 f, awake := some (isKl15 f), on := some (isKl15 f && d.drivetrainReady) }
  else if f.msgId = 0x391 then
    { d with drivetrainReady := isReady f, on := some (d.kl15On && isReady f) }
  else d

/-- What silence leaves. -/
def Drive.asleep : Drive := ⟨false, false, some false, some false⟩

/-- Whether the car is charging, and what was said about it. -/
structure Charge where
  inprogress : Option Bool
  state : Option Bool
  notices : List Notice

/-- A frame of the comfort bus. -/
def Charge.frame (c : Charge) (f : CanFrame) : Charge :=
  if f.msgId = 0x594 then
    ⟨some (isCharging f), some (isCharging f),
      if isCharging f = c.inprogress.getD false then c.notices
      else c.notices ++ [if isCharging f then .chargeStart else .chargeStopped]⟩
  else c

namespace OvmsVehicleVWeGolf

variable (s : OvmsVehicleVWeGolf F)

def drive : Drive := ⟨s.kl15On, s.drivetrainReady, s.metrics.awake, s.metrics.on⟩

def charge : Charge := ⟨s.metrics.chargeInprogress, s.metrics.chargeState, s.notices⟩

/-- The identification number and its parts. -/
def identity : Option (List UInt8) × UInt8 × List UInt8 :=
  (s.metrics.vin, s.vinPartsReceived, s.vinBuf)

end OvmsVehicleVWeGolf

/-- What is told here of the metrics. -/
def Metrics.told (m : Metrics F) :=
  (m.vin, m.awake, m.on, m.chargeInprogress, m.chargeState)

omit [Arith F] in
theorem told_ite {m x y : Metrics F} {c : Prop} [Decidable c] (hx : x.told = m.told)
    (hy : y.told = m.told) : (if c then x else y).told = m.told := by
  split
  · exact hx
  · exact hy

/-- The frames that set metrics only set none of these. -/
theorem told_decode (m : Metrics F) (f : CanFrame) : (m.decode f).told = m.told := by
  have htwo : (m.odometer f).told = m.told := by
    rw [Metrics.odometer]
    split <;> rfl
  rw [Metrics.decode]
  refine told_ite rfl (told_ite (told_ite rfl rfl) (told_ite (told_ite rfl rfl) (told_ite rfl
    (told_ite (told_ite rfl rfl) (told_ite (told_ite rfl (told_ite rfl (told_ite rfl rfl))) ?_)))))
  exact told_ite rfl (told_ite (told_ite rfl rfl) (told_ite (told_ite rfl rfl) (told_ite rfl
    (told_ite rfl (told_ite (told_ite rfl rfl) (told_ite htwo rfl))))))

theorem told_chargeManagement (m : Metrics F) (f : CanFrame) : (m.chargeManagement f).told =
    (m.vin, m.awake, m.on, some (isCharging f), some (isCharging f)) := by
  simp only [Metrics.chargeManagement, Metrics.setSwitch, Metrics.set]
  split <;> split <;> (try split) <;> simp only [Metrics.told]

/-- A frame of the powertrain bus leaves the rest as it is. -/
def Kept (s t : OvmsVehicleVWeGolf F) : Prop :=
  t.drive = s.drive ∧ t.charge = s.charge ∧ t.ocu = s.ocu

omit [Arith F] in
theorem kept_incomingFrameCan2 (s : OvmsVehicleVWeGolf F) (f : CanFrame) :
    Kept s (s.incomingFrameCan2 f) := by
  have hif {c : Prop} [Decidable c] {x y : OvmsVehicleVWeGolf F} (hx : Kept s x)
      (hy : Kept s y) : Kept s (if c then x else y) := by
    split
    · exact hx
    · exact hy
  have hsame : Kept s s := ⟨rfl, rfl, rfl⟩
  have hpart (part : UInt8) (offset : ℕ) (bytes : List UInt8) :
      Kept s (s.receivePart part offset bytes) := ⟨rfl, rfl, rfl⟩
  have hset {t : OvmsVehicleVWeGolf F} (ht : Kept s t) (buf : List UInt8) (vin) :
      Kept s { t with vinBuf := buf, metrics := { t.metrics with vin } } := ht
  have hgear (nibble rc : ℕ) : Kept s (s.setGear nibble rc) := ⟨rfl, rfl, rfl⟩
  rw [incomingFrameCan2, gearSelector, vinPart]
  have hparts := hif (c := f.u8 0 = 0) (hpart 0x01 0 [f.u8 5, f.u8 6, f.u8 7])
    (hif (c := f.u8 0 = 1) (hpart 0x02 3 (f.data.drop 1))
      (hif (c := f.u8 0 = 2) (hpart 0x04 10 (f.data.drop 1)) hsame))
  exact hif (hgear _ _) (hif (hif hsame (hif (hset hparts _ _) hparts)) hsame)

omit [Arith F] in
theorem told_with (s : OvmsVehicleVWeGolf F) (metrics : Metrics F) (batctrl : BatteryControl)
    (notices : List Notice) :
    let t := { s with metrics, batctrl, notices }
    t.identity = (metrics.vin, s.vinPartsReceived, s.vinBuf) ∧ t.ocu = s.ocu ∧
      t.drive = ⟨s.kl15On, s.drivetrainReady, metrics.awake, metrics.on⟩ ∧
      t.charge = ⟨metrics.chargeInprogress, metrics.chargeState, notices⟩ :=
  ⟨rfl, rfl, rfl, rfl⟩

/-- A frame of the comfort bus. -/
theorem decode_cases (s : OvmsVehicleVWeGolf F) (f : CanFrame) :
    (s.decode f).identity = s.identity ∧ (s.decode f).ocu = s.ocu ∧
      (s.decode f).drive = s.drive.frame f ∧ (s.decode f).charge = s.charge.frame f := by
  rw [decode, Drive.frame, Charge.frame]
  split
  next h =>
    rw [if_neg (by rw [h]; decide)]
    exact ⟨rfl, rfl, rfl, rfl⟩
  next =>
    split
    next h =>
      rw [if_neg (by rw [h]; decide)]
      exact ⟨rfl, rfl, rfl, rfl⟩
    next =>
      split
      next =>
        have htold := told_chargeManagement s.metrics f
        simp only [Metrics.told, Prod.mk.injEq] at htold
        obtain ⟨hvin, hawake, hon, hinprogress, hstate⟩ := htold
        obtain ⟨hidentity, hocu, hdrive, hcharge⟩ := told_with s (s.metrics.chargeManagement f)
          (s.chargeManagement f).batctrl (s.chargeManagement f).notices
        rw [hvin] at hidentity
        rw [hawake, hon] at hdrive
        rw [hinprogress, hstate] at hcharge
        exact ⟨hidentity, hocu, hdrive, hcharge⟩
      next =>
        have hother {m : Metrics F} (h : m.told = s.metrics.told) (batctrl : BatteryControl) :
            ({ s with metrics := m, batctrl } : OvmsVehicleVWeGolf F).identity = s.identity ∧
              s.ocu = s.ocu ∧
              ({ s with metrics := m, batctrl } : OvmsVehicleVWeGolf F).drive = s.drive ∧
              ({ s with metrics := m, batctrl } : OvmsVehicleVWeGolf F).charge = s.charge := by
          simp only [Metrics.told, Prod.mk.injEq] at h
          simp only [identity, drive, charge, h, and_self]
        split
        next =>
          refine hother ?_ _
          rw [Metrics.climaCabin]
          exact told_ite rfl rfl
        next =>
          split
          next => exact ⟨rfl, rfl, rfl, rfl⟩
          next => exact hother (told_decode s.metrics f) s.batctrl

omit [Arith F] in
/-- A tick. -/
theorem ticker1_cases (s : OvmsVehicleVWeGolf F) :
    s.ticker1.identity = s.identity ∧ s.ticker1.ocu = s.ocu ∧ s.ticker1.charge = s.charge ∧
      s.ticker1.drive =
        if s.ocu.busIdleTicks < Ocu.busTimeoutSecs then s.drive else .asleep := by
  rw [OvmsVehicleVWeGolf.ticker1]
  by_cases h : s.ocu.busIdleTicks < Ocu.busTimeoutSecs
  · rw [decide_eq_true h, if_pos rfl, if_pos h]
    exact ⟨rfl, rfl, rfl, rfl⟩
  · rw [decide_eq_false h, if_neg Bool.false_ne_true, if_neg h]
    exact ⟨rfl, rfl, rfl, rfl⟩

theorem perform_cases (s : OvmsVehicleVWeGolf F) (e : Event) :
    (s.perform e).ocu = s.ocu ∧
    ((∀ f, e ≠ .can2 f) → (s.perform e).identity = s.identity) ∧
    (s.perform e).charge = (match e with | .can3 f _ => s.charge.frame f | _ => s.charge) ∧
    (s.perform e).drive = match e with
      | .can3 f _ => s.drive.frame f
      | .ticker1 _ =>
          if (s.perform e).ocu.busIdleTicks < Ocu.busTimeoutSecs then s.drive else .asleep
      | _ => s.drive := by
  cases e with
  | can2 f =>
      obtain ⟨hdrive, hcharge, hocu⟩ := kept_incomingFrameCan2 s f
      exact ⟨hocu, fun h => absurd rfl (h f), hcharge, hdrive⟩
  | can3 f now =>
      obtain ⟨hidentity, hocu, hdrive, hcharge⟩ := decode_cases s f
      exact ⟨hocu, fun _ => hidentity, hcharge, hdrive⟩
  | ticker1 now =>
      obtain ⟨hidentity, hocu, hcharge, hdrive⟩ := ticker1_cases s
      refine ⟨hocu, fun _ => hidentity, hcharge, hdrive.trans ?_⟩
      rw [← hocu]
      rfl
  | _ => exact ⟨rfl, fun _ => rfl, rfl, rfl⟩

/-- **Step lemma.** One call, by its kind. -/
theorem step_cases (s : OvmsVehicleVWeGolf F) (e : Event) :
    (s.step e).ocu = (e.ocu.map (Ocu.next s.ocu)).getD s.ocu ∧
    ((∀ f, e ≠ .can2 f) → (s.step e).identity = s.identity) ∧
    (s.step e).charge = (match e with | .can3 f _ => s.charge.frame f | _ => s.charge) ∧
    (s.step e).drive = match e with
      | .can3 f _ => s.drive.frame f
      | .ticker1 _ =>
          if (s.step e).ocu.busIdleTicks < Ocu.busTimeoutSecs then s.drive else .asleep
      | _ => s.drive := by
  have hwith (ocu : Ocu.VWeGolf) : ({ s with ocu } : OvmsVehicleVWeGolf F).identity = s.identity ∧
      ({ s with ocu } : OvmsVehicleVWeGolf F).charge = s.charge ∧
      ({ s with ocu } : OvmsVehicleVWeGolf F).drive = s.drive := ⟨rfl, rfl, rfl⟩
  obtain ⟨hidentity, hcharge, hdrive⟩ := hwith ((e.ocu.map (Ocu.next s.ocu)).getD s.ocu)
  have h := perform_cases { s with ocu := (e.ocu.map (Ocu.next s.ocu)).getD s.ocu } e
  rw [hidentity, hcharge, hdrive] at h
  exact h

theorem run_concat (es : List Event) (e : Event) :
    (run b (es ++ [e]) : OvmsVehicleVWeGolf F) = (run b es).step e := List.foldl_concat ..

/-- A flag that a bit of a frame sets and that silence clears. -/
structure Follows (flag : Drive → Bool) (id : UInt32) (bit : CanFrame → Bool) : Prop where
  asleep : flag .asleep = false
  frame : ∀ d f, flag (d.frame f) = if f.msgId = id then bit f else flag d

/-- The members and the metrics say the same. -/
def Drive.Shown (d : Drive) : Prop :=
  d.awake.getD false = d.kl15On ∧ d.on.getD false = (d.kl15On && d.drivetrainReady)

/-- The bit of a charge frame. -/
def Event.charging : Event → Option Bool
  | can3 f _ => if f.msgId = 0x594 then some (isCharging f) else none
  | _ => none

/-- The notification of a change. -/
def noticeOf (charging : Bool) : Notice := if charging then .chargeStart else .chargeStopped

/-- The notifications of a series of bits, behind a first one. -/
def changes : Bool → List Bool → List Notice
  | _, [] => []
  | was, x :: bits => (if x = was then [] else [noticeOf x]) ++ changes x bits

end Ovms.EGolf
