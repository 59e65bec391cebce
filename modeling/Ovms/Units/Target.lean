/-!
# Metric Units

`metric_unit_t` (`main/ovms_metrics.h`): the units of a metric, and the targets of a conversion
that stand for one. `CheckTargetUnit` (`main/ovms_metrics.cpp`) finds the unit that a target
stands for, or `Native`, when there is nothing to convert.
-/

namespace Ovms.Units

/-- `metric_unit_t`. -/
inductive MetricUnit
  | native | toMetric | toImperial | toUser
  | kilometers | miles | meters | feet
  | celcius | fahrenheit | celciusDiff | fahrenheitDiff
  | kPa | pa | psi | bar
  | volts | amps | ampHours | kW | kWh | watts | wattHours | kilocoulombs | megaJoules
  | seconds | minutes | hours | timeUTC | timeLocal
  | degrees
  | kph | mph | metersPS | feetPS
  | kphPS | mphPS | metersPSS | feetPSS
  | dbm | sq
  | days | months | years | dateUnix | dateUTC | dateLocal
  | percentage | permille
  | wattHoursPK | wattHoursPM | kWhP100K | kPkWh | mPkWh
  | nm
  | unitNotFound
  deriving DecidableEq, Repr

namespace MetricUnit

/-- The column `MetricUnit` of `unit_info`. -/
def metricUnit : MetricUnit → MetricUnit
  | miles => kilometers
  | feet => meters
  | fahrenheit => celcius
  | fahrenheitDiff => celciusDiff
  | psi => kPa
  | mph => kph
  | feetPS => metersPS
  | mphPS => kphPS
  | feetPSS => metersPSS
  | sq => dbm
  | wattHoursPM => wattHoursPK
  | mPkWh => kPkWh
  | _ => native

/-- The column `ImperialUnit` of `unit_info`. -/
def imperialUnit : MetricUnit → MetricUnit
  | kilometers => miles
  | meters => feet
  | celcius => fahrenheit
  | celciusDiff => fahrenheitDiff
  | kPa | pa | bar => psi
  | kph => mph
  | metersPS => feetPS
  | kphPS => mphPS
  | metersPSS => feetPSS
  | dbm => sq
  | wattHoursPK => wattHoursPM
  | kWhP100K | kPkWh => mPkWh
  | _ => native

end MetricUnit

/-- `CheckTargetUnit`, without the full check. `userUnit` is the unit that the user has chosen
for the group of a unit. -/
def checkTargetUnit (userUnit : MetricUnit → MetricUnit) (source target : MetricUnit) :
    MetricUnit :=
  if source = .native then source
  else
    match target with
    | .native => target
    -- the error value is behind the end of `unit_info`
    | .toMetric => if source = .unitNotFound then target else source.metricUnit
    | .toImperial => if source = .unitNotFound then target else source.imperialUnit
    | .toUser => userUnit source
    | _ => if target = source then .native else target

end Ovms.Units
