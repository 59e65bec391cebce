import Ovms.Units.Target
import Mathlib.Data.Rat.Floor

/-!
# Unit Conversion

`UnitConvert` (`main/ovms_metrics.cpp`) converts a value from one unit to another, once for
integers and once for floats, each by a switch over the two units. The floats are read as exact
rational numbers. The integers are those of 32 bits: a conversion with a product beyond them has
no result here, and a quotient is truncated.
-/

namespace Ovms.Units

/-! ### Integers of the processor -/

/-- A value of type `int`. -/
def fits (x : ℤ) : Option ℤ := if -2 ^ 31 ≤ x ∧ x < 2 ^ 31 then some x else none

/-- A product. -/
def imul (a b : ℤ) : Option ℤ := fits (a * b)

/-- A float without its fraction. -/
def trunc (x : ℚ) : ℤ := x.num.tdiv x.den

/-- A float cast to `int`. -/
def toInt (x : ℚ) : Option ℤ := fits (trunc x)

/-- `feet_per_mile`. -/
def feetPerMile : ℤ := 5280

/-- `mi_to_km` of an integer. -/
def miToKm (mi : ℤ) : Option ℤ := (imul mi 4023).map (·.tdiv 2500)

/-- `km_to_mi` of an integer. -/
def kmToMi (km : ℤ) : Option ℤ := (imul km 2500).map (·.tdiv 4023)

/-- `mi_to_km` of a float. -/
def miToKmFloat (mi : ℚ) : ℚ := mi * 1.609347

/-- `km_to_mi` of a float. -/
def kmToMiFloat (km : ℚ) : ℚ := km * 0.6213700

/-- `value ? f : 0`, where `f` divides by the value. -/
def orZero (f : ℚ → ℚ) (value : ℤ) : Option ℤ := if value ≠ 0 then toInt (f value) else some 0

/-- `value ? f : 0` of a float. -/
def orZeroFloat (f : ℚ → ℚ) (value : ℚ) : ℚ := if value ≠ 0 then f value else 0

/-- What the clock of the C library makes of a time of day: `localtime_r` and `gmtime_r`. -/
structure Zone where
  toLocal : ℤ → ℤ
  toUTC : ℤ → ℤ

/-! ### The tables -/

open MetricUnit

/-- Distance, acceleration, power, energy, charge and consumption. -/
def intQuantities : List (MetricUnit × List (MetricUnit × (ℤ → Option ℤ))) :=
  [(kilometers,
      [(miles, kmToMi),
        (meters, fun v => imul v 1000),
        (feet, fun v => (kmToMi v).bind (imul · feetPerMile))]),
    (miles,
      [(kilometers, miToKm),
        (meters, fun v => (imul v 1000).bind miToKm),
        (feet, fun v => imul v feetPerMile)]),
    (meters,
      [(miles, fun v => (kmToMi v).map (·.tdiv 1000)),
        (kilometers, fun v => some (v.tdiv 1000)),
        (feet, fun v => ((imul v feetPerMile).bind kmToMi).map (·.tdiv 1000))]),
    (feet,
      [(kilometers, fun v => (miToKm v).map (·.tdiv feetPerMile)),
        (meters, fun v => ((imul v 1000).bind miToKm).map (·.tdiv feetPerMile)),
        (miles, fun v => some (v.tdiv feetPerMile))]),
    (kphPS,
      [(mphPS, kmToMi),
        (metersPSS, fun v => (imul v 10).map (·.tdiv 36)),
        (feetPSS, fun v => ((imul v feetPerMile).bind kmToMi).map (·.tdiv 3600))]),
    (mphPS,
      [(kphPS, miToKm),
        (metersPSS, fun v => ((imul v 10).bind miToKm).map (·.tdiv 36)),
        (feetPSS, fun v => (imul v feetPerMile).map (·.tdiv 3600))]),
    (metersPSS,
      [(kphPS, fun v => (imul v 36).map (·.tdiv 10)),
        (mphPS, fun v => ((imul v 36).bind kmToMi).map (·.tdiv 10)),
        (feetPSS, fun v => (imul v feetPerMile).bind kmToMi)]),
    (feetPSS,
      [(kphPS, fun v => ((imul v 36).bind miToKm).map (·.tdiv (feetPerMile * 10))),
        (mphPS, fun v => (imul v 3600).map (·.tdiv feetPerMile)),
        (metersPSS, fun v => (miToKm (v.tdiv feetPerMile)).bind (imul · 1000))]),
    (kW,
      [(watts, fun v => imul v 1000)]),
    (watts,
      [(kW, fun v => some (v.tdiv 1000))]),
    (kWh,
      [(wattHours, fun v => imul v 1000),
        (megaJoules, fun v => toInt (v * 3.6))]),
    (wattHours,
      [(kWh, fun v => some (v.tdiv 1000)),
        (megaJoules, fun v => (imul v 9).map (·.tdiv 2500))]),
    (megaJoules,
      [(kWh, fun v => (imul v 5).map (·.tdiv 18)),
        (wattHours, fun v => (imul v 2500).map (·.tdiv 9))]),
    (ampHours,
      [(kilocoulombs, fun v => (imul v 18).map (·.tdiv 5))]),
    (kilocoulombs,
      [(ampHours, fun v => (imul v 5).map (·.tdiv 18))]),
    (wattHoursPK,
      [(wattHoursPM, miToKm),
        (kWhP100K, fun v => some (v.tdiv 10)),
        (kPkWh, orZero fun v => 1000 / v),
        (mPkWh, orZero fun v => kmToMiFloat (1000 / v))]),
    (wattHoursPM,
      [(wattHoursPK, kmToMi),
        (kWhP100K, fun v => (kmToMi v).map (·.tdiv 10)),
        (kPkWh, orZero fun v => miToKmFloat (1000 / v)),
        (mPkWh, orZero fun v => 1000 / v)]),
    (kWhP100K,
      [(wattHoursPM, fun v => (imul v 10).bind miToKm),
        (wattHoursPK, fun v => imul v 10),
        (kPkWh, orZero fun v => 100 / v),
        (mPkWh, orZero fun v => kmToMiFloat (100 / v))]),
    (kPkWh,
      [(wattHoursPM, orZero fun v => 1000 / kmToMiFloat v),
        (wattHoursPK, orZero fun v => 1 / (1000 * v)),
        (kWhP100K, orZero fun v => 100 / v),
        (mPkWh, kmToMi)]),
    (mPkWh,
      [(wattHoursPM, fun v => some (if v ≠ 0 then (1000 : ℤ).tdiv v else 0)),
        (wattHoursPK, orZero fun v => 1000 / miToKmFloat v),
        (kWhP100K, orZero fun v => 100 / miToKmFloat v),
        (kPkWh, miToKm)])]

/-- Temperature, pressure, time, speed, signal quality and ratio. -/
def intReadings (zone : Zone) : List (MetricUnit × List (MetricUnit × (ℤ → Option ℤ))) :=
  [(celcius,
      [(fahrenheit, fun v => (imul v 9).bind fun x => fits (x.tdiv 5 + 32))]),
    (fahrenheit,
      [(celcius, fun v => ((fits (v - 32)).bind (imul · 5)).map (·.tdiv 9))]),
    (celciusDiff,
      [(fahrenheitDiff, fun v => (imul v 9).map (·.tdiv 5))]),
    (fahrenheitDiff,
      [(celciusDiff, fun v => (imul v 5).map (·.tdiv 9))]),
    (kPa,
      [(pa, fun v => imul v 1000),
        (bar, fun v => some (v.tdiv 100)),
        (psi, fun v => toInt (v * 0.14503773773020923))]),
    (pa,
      [(kPa, fun v => some (v.tdiv 1000)),
        (bar, fun v => some (v.tdiv 100000)),
        (psi, fun v => toInt (v * 0.00014503773773020923))]),
    (psi,
      [(kPa, fun v => toInt (v * 6.894757293168361)),
        (pa, fun v => toInt (v * 6894.757293168361)),
        (bar, fun v => toInt (v * 0.06894757293168361))]),
    (bar,
      [(pa, fun v => imul v 100000),
        (kPa, fun v => imul v 100),
        (psi, fun v => toInt (v * 14.503773773020923))]),
    (seconds,
      [(minutes, fun v => some (v.tdiv 60)),
        (hours, fun v => some (v.tdiv 3600))]),
    (minutes,
      [(seconds, fun v => imul v 60),
        (timeUTC, fun v => imul v 60),
        (timeLocal, fun v => imul v 60),
        (hours, fun v => some (v.tdiv 60))]),
    (hours,
      [(seconds, fun v => imul v 3600),
        (timeUTC, fun v => imul v 3600),
        (timeLocal, fun v => imul v 3600),
        (minutes, fun v => imul v 60)]),
    (timeUTC,
      [(minutes, fun v => some (v.tdiv 60)),
        (hours, fun v => some (v.tdiv 3600)),
        (timeLocal, fun v => some (zone.toLocal v)),
        -- no case of the source: the value as it is
        (timeUTC, fun v => some v)]),
    (timeLocal,
      [(minutes, fun v => some (v.tdiv 60)),
        (hours, fun v => some (v.tdiv 3600)),
        (timeUTC, fun v => some (zone.toUTC v)),
        -- no case of the source: the value as it is
        (timeLocal, fun v => some v)]),
    (kph,
      [(mph, kmToMi),
        (metersPS, fun v => (imul v 5).map (·.tdiv 18)),
        (feetPS, fun v => ((imul v feetPerMile).bind kmToMi).map (·.tdiv 3600))]),
    (mph,
      [(kph, miToKm),
        (feetPS, fun v => (imul v feetPerMile).map (·.tdiv 3600)),
        (metersPS, fun v => ((imul v 5).bind miToKm).map (·.tdiv 18))]),
    (metersPS,
      [(mph, fun v => ((imul v 18).bind kmToMi).map (·.tdiv 5)),
        (kph, fun v => (imul v 18).map (·.tdiv 5)),
        (feetPS, fun v => ((imul v feetPerMile).bind kmToMi).map (·.tdiv 1000))]),
    (feetPS,
      [(kph, fun v => (miToKm v).map (·.tdiv feetPerMile)),
        (mph, fun v => (imul v 3600).map (·.tdiv feetPerMile)),
        (metersPS, fun v => ((imul v 1000).bind miToKm).map (·.tdiv feetPerMile))]),
    (dbm,
      [(sq, fun v => some (if v ≤ -51 then (v + 113).tdiv 2 else 0))]),
    (sq,
      [(dbm, fun v => if v ≤ 31 then (imul v 2).bind fun x => fits (-113 + x) else some 0)]),
    (percentage,
      [(permille, fun v => imul v 10)]),
    (permille,
      [(percentage, fun v => some (v.tdiv 10))])]

/-- The cases of `UnitConvert` for integers. -/
def intConversions (zone : Zone) : List (MetricUnit × List (MetricUnit × (ℤ → Option ℤ))) :=
  intQuantities ++ intReadings zone

/-- `round`: a half goes away from zero. -/
def roundAway (x : ℚ) : ℤ := if 0 ≤ x then ⌊x + 1 / 2⌋ else ⌈x - 1 / 2⌉

/-- Distance, acceleration, power, energy, charge and consumption of floats. -/
def floatQuantities : List (MetricUnit × List (MetricUnit × (ℚ → ℚ))) :=
  [(kilometers,
      [(miles, kmToMiFloat),
        (meters, fun v => v * 1000),
        (feet, fun v => kmToMiFloat v * feetPerMile)]),
    (miles,
      [(kilometers, miToKmFloat),
        (meters, fun v => miToKmFloat v * 1000),
        (feet, fun v => v * feetPerMile)]),
    (meters,
      [(miles, fun v => kmToMiFloat (v / 1000)),
        (kilometers, fun v => v / 1000),
        (feet, fun v => kmToMiFloat (v / 1000) * feetPerMile)]),
    (feet,
      [(kilometers, fun v => miToKmFloat (v / feetPerMile)),
        (meters, fun v => miToKmFloat (v / feetPerMile) * 1000),
        (miles, fun v => v / feetPerMile)]),
    (kphPS,
      [(mphPS, kmToMiFloat),
        (metersPSS, fun v => v / 3.6),
        (feetPSS, fun v => kmToMiFloat v * feetPerMile / 3600)]),
    (mphPS,
      [(kphPS, miToKmFloat),
        (metersPSS, fun v => miToKmFloat v / 3.6),
        (feetPSS, fun v => v * feetPerMile / 3600)]),
    (metersPSS,
      [(kphPS, fun v => v * 3.6),
        (mphPS, fun v => kmToMiFloat v * 3.6),
        (feetPSS, fun v => kmToMiFloat v * feetPerMile)]),
    (feetPSS,
      [(kphPS, fun v => miToKmFloat (v / feetPerMile) * 3.6),
        (mphPS, fun v => v * 3600 / feetPerMile),
        (metersPSS, fun v => miToKmFloat (v / feetPerMile) * 1000)]),
    (kW,
      [(watts, fun v => v * 1000)]),
    (watts,
      [(kW, fun v => v / 1000)]),
    (kWh,
      [(wattHours, fun v => v * 1000),
        (megaJoules, fun v => v * 3.6)]),
    (wattHours,
      [(kWh, fun v => v * 0.001),
        (megaJoules, fun v => v * 0.0036)]),
    (megaJoules,
      [(kWh, fun v => v * 2.777778),
        (wattHours, fun v => v * 277.7778)]),
    (ampHours,
      [(kilocoulombs, fun v => v * 3.6)]),
    (kilocoulombs,
      [(ampHours, fun v => v * 0.277778)]),
    (wattHoursPK,
      [(wattHoursPM, miToKmFloat),
        (kWhP100K, fun v => v / 10),
        (kPkWh, orZeroFloat fun v => 1000 / v),
        (mPkWh, orZeroFloat fun v => kmToMiFloat (1000 / v))]),
    (wattHoursPM,
      [(wattHoursPK, kmToMiFloat),
        (kWhP100K, fun v => kmToMiFloat v / 10),
        (kPkWh, orZeroFloat fun v => miToKmFloat (1000 / v)),
        (mPkWh, orZeroFloat fun v => 1000 / v)]),
    (kWhP100K,
      [(wattHoursPM, fun v => miToKmFloat (v * 10)),
        (wattHoursPK, fun v => v * 10),
        (kPkWh, orZeroFloat fun v => 100 / v),
        (mPkWh, orZeroFloat fun v => kmToMiFloat (100 / v))]),
    (kPkWh,
      [(wattHoursPM, orZeroFloat fun v => 1000 / kmToMiFloat v),
        (wattHoursPK, orZeroFloat fun v => 0.001 / v),
        (kWhP100K, orZeroFloat fun v => 100 / v),
        (mPkWh, kmToMiFloat)]),
    (mPkWh,
      [(wattHoursPM, orZeroFloat fun v => 1000 / v),
        (wattHoursPK, orZeroFloat fun v => 1000 / miToKmFloat v),
        (kWhP100K, orZeroFloat fun v => 100 / miToKmFloat v),
        (kPkWh, miToKmFloat)])]

/-- Temperature, pressure, time, speed, signal quality and ratio of floats. -/
def floatReadings (zone : Zone) : List (MetricUnit × List (MetricUnit × (ℚ → ℚ))) :=
  [(celcius,
      [(fahrenheit, fun v => v * 9 / 5 + 32)]),
    (fahrenheit,
      [(celcius, fun v => (v - 32) * 5 / 9)]),
    (celciusDiff,
      [(fahrenheitDiff, fun v => v * 9 / 5)]),
    (fahrenheitDiff,
      [(celciusDiff, fun v => v * 5 / 9)]),
    (kPa,
      [(pa, fun v => v * 1000),
        (bar, fun v => v / 100),
        (psi, fun v => v * 0.14503773773020923)]),
    (pa,
      [(kPa, fun v => v / 1000),
        (bar, fun v => v / 100000),
        (psi, fun v => v * 0.00014503773773020923)]),
    (psi,
      [(kPa, fun v => v * 6.894757293168361),
        (pa, fun v => v * 6894.757293168361),
        (bar, fun v => v * 0.06894757293168361)]),
    (bar,
      [(pa, fun v => v * 100000),
        (kPa, fun v => v * 100),
        (psi, fun v => v * 14.503773773020923)]),
    (seconds,
      [(minutes, fun v => v / 60),
        (hours, fun v => v / 3600)]),
    (minutes,
      [(seconds, fun v => v * 60),
        (timeUTC, fun v => v * 60),
        (timeLocal, fun v => v * 60),
        (hours, fun v => v / 60)]),
    (hours,
      [(seconds, fun v => v * 3600),
        (timeUTC, fun v => v * 3600),
        (timeLocal, fun v => v * 3600),
        (minutes, fun v => v * 60)]),
    (timeUTC,
      [(minutes, fun v => v / 60),
        (hours, fun v => v / 3600),
        -- times of day are converted as integers
        (timeLocal, fun v => zone.toLocal (roundAway v)),
        (timeUTC, fun v => roundAway v)]),
    (timeLocal,
      [(minutes, fun v => v / 60),
        (hours, fun v => v / 3600),
        (timeUTC, fun v => zone.toUTC (roundAway v)),
        (timeLocal, fun v => roundAway v)]),
    (kph,
      [(mph, kmToMiFloat),
        (metersPS, fun v => v * 0.277778),
        (feetPS, fun v => kmToMiFloat (v * feetPerMile) / 3600)]),
    (mph,
      [(kph, miToKmFloat),
        (feetPS, fun v => v * feetPerMile / 3600),
        (metersPS, fun v => miToKmFloat v * 0.277778)]),
    (metersPS,
      [(mph, fun v => kmToMiFloat v * 3.6),
        (kph, fun v => v * 3.6),
        (feetPS, fun v => kmToMiFloat (v * feetPerMile) / 1000)]),
    (feetPS,
      [(kph, fun v => miToKmFloat v / feetPerMile),
        (mph, fun v => v * 3600 / feetPerMile),
        (metersPS, fun v => miToKmFloat (v * 1000) / feetPerMile)]),
    (dbm,
      [(sq, fun v => trunc (if v ≤ -51 then (v + 113) / 2 else 0))]),
    (sq,
      [(dbm, fun v => trunc (if v ≤ 31 then -113 + v * 2 else 0))]),
    (percentage,
      [(permille, fun v => v * 10.0)]),
    (permille,
      [(percentage, fun v => v * 0.10)])]

/-- The cases of `UnitConvert` for floats, in the order of those for integers. -/
def floatConversions (zone : Zone) : List (MetricUnit × List (MetricUnit × (ℚ → ℚ))) :=
  floatQuantities ++ floatReadings zone

/-- `UnitConvert` of an integer, where no product is too large. -/
def intConvert (zone : Zone) (userUnit : MetricUnit → MetricUnit) (source target : MetricUnit)
    (value : ℤ) : Option ℤ :=
  let target := checkTargetUnit userUnit source target
  if target = native then some value
  else
    match ((intConversions zone).lookup source).bind (·.lookup target) with
    | some f => f value
    | none => some value

/-- `UnitConvert` of a float. -/
def floatConvert (zone : Zone) (userUnit : MetricUnit → MetricUnit) (source target : MetricUnit)
    (value : ℚ) : ℚ :=
  let target := checkTargetUnit userUnit source target
  if target = native then value
  else
    match ((floatConversions zone).lookup source).bind (·.lookup target) with
    | some f => f value
    | none => value

end Ovms.Units
