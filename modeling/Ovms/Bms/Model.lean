import Mathlib.Algebra.Order.Ring.Rat
import Mathlib.Data.Rat.Floor
import Mathlib.Data.Rat.Sqrt
import Ovms.Lib.Bytes
import Ovms.Lib.Machine

/-!
# Battery Cells

The readings of battery cells that `OvmsVehicle` keeps
(`components/vehicle/vehicle_bms.cpp`): voltages and temperatures, one series of each at a time.
Which cells of a series have been read is kept in a bit set and a counter. When the counter has
reached the number of cells, the series is published, its deviations from the average raise the
alert levels of the cells, and the next series starts. When the number of cells changes, the
readings of the series go into the new arrays through the setter.

Both families share their code, except for what completes a series. The arithmetic is a parameter:
`F` stands for `float`, `D` for `double`. A step is `none` when it leaves an array. A new array
holds zeros.
-/

open Lib

namespace Ovms.Bms

/-! ### Arithmetic -/

/-- The arithmetic of a floating type. Nothing is assumed of it. -/
class Arith (α : Type) extends Add α, Sub α, Mul α, Div α, Neg α, LT α, LE α, IntCast α where
  decLt : DecidableLT α
  decLe : DecidableLE α

instance decidableLT {α : Type} [Arith α] : DecidableLT α := Arith.decLt

instance decidableLE {α : Type} [Arith α] : DecidableLE α := Arith.decLe

/-- Conversions between `float` and `double`, and what the code takes from the library. -/
class Floats (F : Type) (D : outParam Type) [Arith F] [Arith D] where
  widen : F → D
  narrow : D → F
  sqrt : D → D
  half : D
  roundPrec : D → ℕ → D

section Macros

variable {α : Type} [Arith α]

/-- `SQR`. -/
def sqr (n : α) : α := n * n

/-- `ABS`. -/
def abs (n : α) : α := if n < (0 : ℤ) then -n else n

/-- `LIMIT_MIN`. -/
def limitMin (n lim : α) : α := if n < lim then lim else n

end Macros

/-! ### The members -/

/-- `OvmsStatus`. -/
inductive OvmsStatus
  | ok
  | warn
  | alert
  deriving DecidableEq

/-- Its number. -/
def OvmsStatus.level : OvmsStatus → ℕ
  | .ok => 0
  | .warn => 1
  | .alert => 2

/-- The members for one family of readings; `smooth` is what only one of them has. What was
published, and the cells that were counted as new alerts since the last reset, are recorded. -/
structure Series (F X : Type) where
  readings : ℕ
  readingspermodule : ℤ
  limitmin : F
  limitmax : F
  values : List F
  mins : List F
  maxs : List F
  devmaxs : List F
  alerts : List OvmsStatus
  alertsNew : ℕ
  smooth : X
  has : Bool
  bitset : List Bool
  bitsetC : ℕ
  published : List (List F)
  counted : List ℕ

/-- `m_bms_vstddev_cnt` and `m_bms_vstddev_avg`. -/
structure Smoothing (F : Type) where
  cnt : ℕ
  avg : F

/-- From which deviation on a cell is warned of, and from which on it is an alert. -/
structure Thresholds (F : Type) where
  warn : F
  alert : F

/-- The thresholds for voltages. -/
structure VoltageThresholds (F : Type) extends Thresholds F where
  maxgrad : F
  maxsddev : F

/-- The members. Thresholds are what the configuration gives. -/
structure OvmsVehicle (F : Type) where
  v : Series F (Smoothing F)
  t : Series F Unit
  vthr : VoltageThresholds F
  tthr : Thresholds F

/-! ### Checked arrays -/

/-- An element of an array is written. -/
def write {α : Type} (l : List α) (i : ℕ) (a : α) : Option (List α) :=
  if i < l.length then some (l.set i a) else none

/-- The first elements of an array are written. -/
def fill {α : Type} (l : List α) (n : ℕ) (a : α) : Option (List α) :=
  if n ≤ l.length then some (List.replicate n a ++ l.drop n) else none

namespace Series

variable {F D X : Type} [Arith F] [Arith D] [Floats F D] [Inhabited X]

/-! ### Restarts, resets and arrangements -/

/-- `BmsRestartCellVoltages`, `BmsRestartCellTemperatures`. -/
def restart (s : Series F X) : Series F X :=
  { s with bitset := List.replicate s.readings false, bitsetC := 0 }

/-- `BmsResetCellVoltages`, `BmsResetCellTemperatures`. -/
def reset (s : Series F X) : Option (Series F X) :=
  if 0 < s.readings then do
    let mins ← fill s.mins s.readings (0 : ℤ)
    let maxs ← fill s.maxs s.readings (0 : ℤ)
    let devmaxs ← fill s.devmaxs s.readings (0 : ℤ)
    let alerts ← fill s.alerts s.readings .ok
    some { s.restart with
      has := false
      mins := mins
      maxs := maxs
      devmaxs := devmaxs
      alerts := alerts
      alertsNew := 0
      smooth := default
      counted := [] }
  else some s

/-- `BmsSetCellArrangementVoltage`, `BmsSetCellArrangementTemperature`. -/
def setCellArrangement (s : Series F X) (readings : ℕ) (readingspermodule : ℤ) :
    Option (Series F X) :=
  reset { s with
    values := List.replicate readings (0 : ℤ)
    mins := List.replicate readings (0 : ℤ)
    maxs := List.replicate readings (0 : ℤ)
    devmaxs := List.replicate readings (0 : ℤ)
    alerts := List.replicate readings .ok
    alertsNew := 0
    bitset := []
    readings := readings
    readingspermodule := readingspermodule
    counted := [] }

/-! ### A reading -/

/-- A reading is for a cell, and within the limits. -/
def Accepts (s : Series F X) (index : ℤ) (value : F) : Prop :=
  ¬ (index < 0 ∨ s.readings ≤ index) ∧ ¬ (value < s.limitmin ∨ s.limitmax < value)

instance (s : Series F X) (index : ℤ) (value : F) : Decidable (s.Accepts index value) :=
  inferInstanceAs (Decidable (_ ∧ _))

/-- The extremes of a cell. -/
def extremes (s : Series F X) (i : ℕ) (value : F) : Option (Series F X) :=
  if s.has = false then do
    let mins ← write s.mins i value
    let maxs ← write s.maxs i value
    some { s with mins := mins, maxs := maxs }
  else do
    let lowest ← s.mins[i]?
    if value < lowest then
      let mins ← write s.mins i value
      some { s with mins := mins }
    else
      let highest ← s.maxs[i]?
      if highest < value then
        let maxs ← write s.maxs i value
        some { s with maxs := maxs }
      else some s

/-- A reading is stored, and counted if it is the first one of its cell. -/
def store (s : Series F X) (i : ℕ) (value : F) : Option (Series F X) := do
  let values ← write s.values i value
  let s ← extremes { s with values := values } i value
  let seen ← s.bitset[i]?
  some { s with bitsetC := if seen then s.bitsetC else s.bitsetC + 1 }

/-- The series is complete. -/
def complete (check : Series F X → Option (Series F X)) (s : Series F X) : Option (Series F X) := do
  let values ← readBlock s.values 0 s.readings
  let _ ← readBlock s.mins 0 s.readings
  let _ ← readBlock s.maxs 0 s.readings
  let s ← check s
  some { s.restart with has := true, published := s.published ++ [values] }

/-- A cell is marked as read. -/
def mark (s : Series F X) (i : ℕ) : Option (Series F X) := do
  let bitset ← write s.bitset i true
  some { s with bitset := bitset }

/-- `BmsSetCellVoltage`, `BmsSetCellTemperature`. -/
def setCell (check : Series F X → Option (Series F X)) (s : Series F X) (index : ℤ) (value : F) :
    Option (Series F X) :=
  if s.Accepts index value then do
    let s ← s.store index.toNat value
    if s.bitsetC = s.readings then s.complete check else s.mark index.toNat
  else some s

/-! ### Another number of cells -/

/-- The cells that are marked, below a number, and their readings. -/
def marked (s : Series F X) (maxv : ℕ) : Option (List (ℕ × F)) :=
  (List.range maxv).foldlM (fun cells i => do
    let seen ← s.bitset[i]?
    if seen then
      let value ← s.values[i]?
      some (cells ++ [(i, value)])
    else some cells) []

/-- A reading is replayed. -/
def replay (check : Series F X → Option (Series F X)) (s : Series F X) (cell : ℕ × F) :
    Option (Series F X) :=
  s.setCell check cell.1 cell.2

/-- The readings per module, which 0 leaves unchanged. -/
def perModule (s : Series F X) (readingspermodule : ℤ) : ℤ :=
  if readingspermodule ≤ 0 then s.readingspermodule else readingspermodule

/-- `BmsCheckChangeCellArrangementVoltage`, `BmsCheckChangeCellArrangementTemperature`. -/
def checkChangeCellArrangement (check : Series F X → Option (Series F X)) (s : Series F X)
    (readings : ℕ) (readingspermodule : ℤ) : Option (Series F X × Bool) :=
  let readingspermodule := s.perModule readingspermodule
  if readings ≠ s.readings then
    if s.bitsetC = 0 then do
      let s ← s.setCellArrangement readings readingspermodule
      some (s, true)
    else do
      let cells ← s.marked (min readings s.readings)
      let s ← s.setCellArrangement readings readingspermodule
      let s ← cells.foldlM (replay check) s
      some (s, true)
  else if readingspermodule ≠ s.readingspermodule then
    some ({ s with readingspermodule := readingspermodule }, true)
  else some (s, false)

/-! ### Deviations -/

/-- The average. -/
def average (values : List F) : D :=
  values.foldl (fun sum v => sum + Floats.widen v) ((0 : ℤ) : D) / ((values.length : ℤ) : D)

/-- The standard deviation. -/
def stddev (values : List F) : D :=
  Floats.sqrt F (limitMin (values.foldl (fun sqrsum v => sqrsum + Floats.widen (sqr v))
    ((0 : ℤ) : D) / ((values.length : ℤ) : D) - sqr (average values)) (0 : ℤ))

/-- The gradient. -/
def gradient (values : List F) : F :=
  let middle : D := (((values.length : ℤ) / 2 : ℤ) : D) - Floats.half F
  let sumn : D := values.zipIdx.foldl (fun sumn v =>
    sumn + (((v.2 : ℤ) : D) - middle) * (Floats.widen v.1 - average values)) (0 : ℤ)
  let sumd : D := (List.range values.length).foldl (fun sumd i =>
    sumd + sqr (((i : ℤ) : D) - middle)) (0 : ℤ)
  Floats.narrow (sumn / sumd * ((values.length : ℤ) : D))

/-- The largest deviation of a cell. -/
def deviate (s : Series F X) (i : ℕ) (dev : F) : Option (Series F X) := do
  let devmax ← s.devmaxs[i]?
  if abs devmax < abs dev then
    let devmaxs ← write s.devmaxs i dev
    some { s with devmaxs := devmaxs }
  else some s

/-- A cell is an alert, and counted. -/
def raiseAlert (s : Series F X) (i : ℕ) : Option (Series F X) := do
  let alerts ← write s.alerts i .alert
  some { s with
    alerts := alerts, alertsNew := s.alertsNew + 1, counted := s.counted ++ [i] }

/-- A cell is warned of. -/
def raiseWarn (s : Series F X) (i : ℕ) : Option (Series F X) := do
  let alerts ← write s.alerts i .warn
  some { s with alerts := alerts }

/-- A deviation reaches a threshold. -/
def Reaches (dev : F) (stddev : D) (threshold : F) : Prop :=
  stddev + Floats.widen threshold ≤ Floats.widen (abs dev)

instance (dev : F) (stddev : D) (threshold : F) : Decidable (Reaches dev stddev threshold) :=
  inferInstanceAs (Decidable (_ ≤ _))

end Series

open Series

section Checks

variable {F D : Type} [Arith F] [Arith D] [Floats F D]

/-! ### A complete series of voltages -/

instance : Inhabited (Smoothing F) := ⟨⟨0, (0 : ℤ)⟩⟩

/-- `VSTDDEV_SMOOTHCNT`. -/
def vstddevSmoothcnt : ℕ := 5

/-- Whether a series of voltages is consistent; the average of the standard deviation follows. -/
def seriesValid (thr : VoltageThresholds F) (grad : F) (stddev : D) (smooth : Smoothing F) :
    Bool × Smoothing F :=
  if thr.maxgrad < abs grad then (false, smooth)
  else if smooth.cnt < vstddevSmoothcnt then
    (false, ⟨smooth.cnt + 1, Floats.narrow
      ((Floats.widen (((smooth.cnt : ℤ) : F) * smooth.avg) + stddev)
        / (((smooth.cnt + 1 : ℕ) : ℤ) : D))⟩)
  else if Floats.widen thr.maxsddev < stddev - Floats.widen smooth.avg then (false, smooth)
  else (true, ⟨smooth.cnt, Floats.narrow
    ((Floats.widen ((((vstddevSmoothcnt - 1 : ℕ) : ℤ) : F) * smooth.avg) + stddev)
      / ((vstddevSmoothcnt : ℤ) : D))⟩)

/-- A cell of a consistent series of voltages. -/
def checkCellVoltage (thr : VoltageThresholds F) (avg stddev : D)
    (s : Series F (Smoothing F)) (i : ℕ) : Option (Series F (Smoothing F)) := do
  let value ← s.values[i]?
  let dev : F := Floats.narrow (Floats.roundPrec F (Floats.widen value - avg) 5)
  let s ← s.deviate i dev
  let valert ← s.alerts[i]?
  if Reaches dev stddev thr.alert ∧ valert.level ≤ OvmsStatus.warn.level then s.raiseAlert i
  else if Reaches dev stddev thr.warn ∧ valert.level < OvmsStatus.warn.level then s.raiseWarn i
  else some s

/-- A series of voltages is complete. -/
def checkVoltage (thr : VoltageThresholds F) (s : Series F (Smoothing F)) :
    Option (Series F (Smoothing F)) := do
  let values ← readBlock s.values 0 s.readings
  let valid := seriesValid thr (gradient values) (stddev values) s.smooth
  let s := { s with smooth := valid.2 }
  if valid.1 then
    (List.range s.readings).foldlM (checkCellVoltage thr (average values) (stddev values)) s
  else some s

/-! ### A complete series of temperatures -/

/-- The deviation of a temperature. -/
def temperatureDev (value : F) (avg : D) : F :=
  Floats.narrow (Floats.roundPrec F (Floats.widen value - avg) 2)

/-- A cell of a series of temperatures. Its second test looks at the alerts for voltages. -/
def checkCellTemperature (valerts : List OvmsStatus) (thr : Thresholds F) (avg stddev : D)
    (s : Series F Unit) (i : ℕ) : Option (Series F Unit) := do
  let value ← s.values[i]?
  let dev : F := temperatureDev value avg
  let s ← s.deviate i dev
  let talert ← s.alerts[i]?
  if Reaches dev stddev thr.alert ∧ talert.level < OvmsStatus.alert.level then s.raiseAlert i
  else if Reaches dev stddev thr.warn then
    let valert ← valerts[i]?
    if valert.level < OvmsStatus.warn.level then s.raiseWarn i else some s
  else some s

/-- A series of temperatures is complete. -/
def checkTemperature (valerts : List OvmsStatus) (thr : Thresholds F) (s : Series F Unit) :
    Option (Series F Unit) := do
  let values ← readBlock s.values 0 s.readings
  (List.range s.readings).foldlM
    (checkCellTemperature valerts thr (average values) (stddev values)) s

end Checks

/-! ### Both families -/

/-- What is called for one family. -/
inductive SeriesOp (F : Type)
  | setCellArrangement (readings : ℕ) (readingspermodule : ℤ)
  | checkChangeCellArrangement (readings : ℕ) (readingspermodule : ℤ)
  | setCell (index : ℤ) (value : F)
  | restart
  | reset

/-- What is called: a function for voltages, the same for temperatures, `BmsResetCellStats`; or the
configuration changes. -/
inductive Op (F : Type)
  | voltages (op : SeriesOp F)
  | temperatures (op : SeriesOp F)
  | resetCellStats
  | configVoltage (thr : VoltageThresholds F)
  | configTemperature (thr : Thresholds F)

section Vehicle

variable {F D X : Type} [Arith F] [Arith D] [Floats F D] [Inhabited X]

/-- A function for one family. -/
def Series.perform (check : Series F X → Option (Series F X)) (s : Series F X) :
    SeriesOp F → Option (Series F X)
  | .setCellArrangement readings readingspermodule =>
      s.setCellArrangement readings readingspermodule
  | .checkChangeCellArrangement readings readingspermodule =>
      (s.checkChangeCellArrangement check readings readingspermodule).map Prod.fst
  | .setCell index value => s.setCell check index value
  | .restart => some s.restart
  | .reset => s.reset

namespace OvmsVehicle

/-- A function for voltages. -/
def voltages (m : OvmsVehicle F) (op : SeriesOp F) : Option (OvmsVehicle F) :=
  (m.v.perform (checkVoltage m.vthr) op).map fun v => { m with v := v }

/-- A function for temperatures. -/
def temperatures (m : OvmsVehicle F) (op : SeriesOp F) : Option (OvmsVehicle F) :=
  (m.t.perform (checkTemperature m.v.alerts m.tthr) op).map fun t => { m with t := t }

/-- `BmsResetCellStats`. -/
def resetCellStats (m : OvmsVehicle F) : Option (OvmsVehicle F) := do
  let v ← m.v.reset
  let t ← m.t.reset
  some { m with v := v, t := t }

/-- A step. -/
def step (m : OvmsVehicle F) : Op F → Option (OvmsVehicle F)
  | .voltages op => m.voltages op
  | .temperatures op => m.temperatures op
  | .resetCellStats => m.resetCellStats
  | .configVoltage thr => some { m with vthr := thr }
  | .configTemperature thr => some { m with tthr := thr }

/-- No cells. -/
def newSeries (limitmin limitmax : F) : Series F X where
  readings := 0
  readingspermodule := 0
  limitmin := limitmin
  limitmax := limitmax
  values := []
  mins := []
  maxs := []
  devmaxs := []
  alerts := []
  alertsNew := 0
  smooth := default
  has := false
  bitset := []
  bitsetC := 0
  published := []
  counted := []

/-- A new vehicle, with its limits and thresholds. -/
def new (vmin vmax tmin tmax : F) (vthr : VoltageThresholds F) (tthr : Thresholds F) :
    OvmsVehicle F :=
  ⟨newSeries vmin vmax, newSeries tmin tmax, vthr, tthr⟩

end OvmsVehicle

end Vehicle

/-! ### Arithmetic that can be computed -/

/-- Rational numbers, for what needs no rounding. -/
instance : Arith ℚ where
  decLt := inferInstance
  decLe := inferInstance

instance : Floats ℚ ℚ where
  widen := id
  narrow := id
  sqrt := Rat.sqrt
  half := 1 / 2
  roundPrec := fun x prec => ⌊x * 10 ^ prec + 1 / 2⌋ / 10 ^ prec

end Ovms.Bms
