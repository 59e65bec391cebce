import Ovms.Lib.Monomial
import Ovms.Units.Convert
import Mathlib.Tactic.NormNum
import Mathlib.Tactic.Ring

/-!
# Converting There and Back

The floats of `UnitConvert` (`main/ovms_metrics.cpp`) are converted pair by pair, each with a
factor of its own. But for temperatures every conversion is a multiple of the value or of its
inverse, with the inverse between a consumption and a range, so that one value tells for all
whether a conversion undoes another, and whether a detour by a third unit leads to the same value.

Five conversions have a wrong factor. Of meters a second squared, the feet are a thousand times too
many; of feet a second squared, the kilometers an hour and second are a thousandth; the kilometers
an hour of feet a second lack the seconds of an hour; mega joules are ten times too many kWh; and
the consumption of a range is a millionth of what it should be.
-/

open Lib

namespace Ovms.Units

open MetricUnit

variable {zone : Zone} {userUnit : MetricUnit → MetricUnit} {a b c : MetricUnit}
  {f g h : ℚ → ℚ}

/-- The case of `UnitConvert` for two units. -/
def conversion (zone : Zone) (source target : MetricUnit) : Option (ℚ → ℚ) :=
  ((floatConversions zone).lookup source).bind (·.lookup target)

/-- The units of time zones and of signal quality. -/
def leftOut : List MetricUnit := [timeUTC, timeLocal, dbm, sq]

/-- Two units that are converted in both directions. -/
def Linked (zone : Zone) (a b : MetricUnit) : Prop :=
  a ∉ leftOut ∧ b ∉ leftOut ∧ (conversion zone a b).isSome ∧ (conversion zone b a).isSome

/-- The conversions with a wrong factor. -/
def slips : List (MetricUnit × MetricUnit) :=
  [(metersPSS, feetPSS), (feetPSS, kphPS), (megaJoules, kWh), (kPkWh, wattHoursPK), (feetPS, kph)]

/-- A round trip without a slip. -/
def RoundTrip (a b : MetricUnit) : Prop := (a, b) ∉ slips ∧ (b, a) ∉ slips

/-- A detour without a slip, next to a direct way without one; and the detour whose two slips make
up for each other. -/
def Detour (a c b : MetricUnit) : Prop :=
  (a, c) ∉ slips ∧ (c, b) ∉ slips ∧ (a, b) ∉ slips ∨
    a = metersPSS ∧ c = feetPSS ∧ b = kphPS

instance : DecidableRel RoundTrip := fun _ _ => inferInstanceAs (Decidable (_ ∧ _))

instance (a c b : MetricUnit) : Decidable (Detour a c b) := inferInstanceAs (Decidable (_ ∨ _))

/-! ### Monomials -/

/-- The sense of a unit: a range for an energy is the inverse of a consumption. -/
def sense : MetricUnit → ℤ
  | kPkWh | mPkWh => -1
  | _ => 1

/-- Temperatures have an offset. -/
def temperatures : List MetricUnit := [celcius, fahrenheit]

/-- `feet_per_mile` as a float. -/
abbrev mile : ℚ := feetPerMile

theorem viaMi {n : ℤ} (hf : Monomial n f) : Monomial n fun v => kmToMiFloat (f v) :=
  hf.mul 0.6213700

theorem viaKm {n : ℤ} (hf : Monomial n f) : Monomial n fun v => miToKmFloat (f v) :=
  hf.mul 1.609347

theorem unlessZero (hf : Monomial (-1) f) : Monomial (-1) (orZeroFloat f) := fun v => by
  rw [orZeroFloat, orZeroFloat, if_pos one_ne_zero]
  split
  next => exact hf v
  next hv => rw [not_not.mp hv, zpow_neg_one, inv_zero, mul_zero]

open Monomial in
/-- Quantities. -/
theorem quantities_monomial : ∀ row ∈ floatQuantities, ∀ e ∈ row.2,
    Monomial (sense row.1 * sense e.1) e.2 := by
  simp only [floatQuantities, List.forall_mem_cons, List.not_mem_nil, IsEmpty.forall_iff,
    implies_true, and_true]
  refine ⟨?kilometers, ?miles, ?meters, ?feet, ?kphPS, ?mphPS, ?metersPSS, ?feetPSS, ?kW,
    ?watts, ?kWh, ?wattHours, ?megaJoules, ?ampHours, ?kilocoulombs, ?wattHoursPK, ?wattHoursPM,
    ?kWhP100K, ?kPkWh, ?mPkWh⟩
  case kilometers => exact ⟨viaMi var, var.mul 1000, (viaMi var).mul mile⟩
  case miles => exact ⟨viaKm var, (viaKm var).mul 1000, var.mul mile⟩
  case meters => exact ⟨viaMi (var.div 1000), var.div 1000, (viaMi (var.div 1000)).mul mile⟩
  case feet =>
    exact ⟨viaKm (var.div mile), (viaKm (var.div mile)).mul 1000, var.div mile⟩
  case kphPS => exact ⟨viaMi var, var.div 3.6, ((viaMi var).mul mile).div 3600⟩
  case mphPS => exact ⟨viaKm var, (viaKm var).div 3.6, (var.mul mile).div 3600⟩
  case metersPSS => exact ⟨var.mul 3.6, (viaMi var).mul 3.6, (viaMi var).mul mile⟩
  case feetPSS =>
    exact ⟨(viaKm (var.div mile)).mul 3.6, (var.mul 3600).div mile,
      (viaKm (var.div mile)).mul 1000⟩
  case kW => exact var.mul 1000
  case watts => exact var.div 1000
  case kWh => exact ⟨var.mul 1000, var.mul 3.6⟩
  case wattHours => exact ⟨var.mul 0.001, var.mul 0.0036⟩
  case megaJoules => exact ⟨var.mul 2.777778, var.mul 277.7778⟩
  case ampHours => exact var.mul 3.6
  case kilocoulombs => exact var.mul 0.277778
  case wattHoursPK =>
    exact ⟨viaKm var, var.div 10, unlessZero (var.inv 1000), unlessZero (viaMi (var.inv 1000))⟩
  case wattHoursPM =>
    exact ⟨viaMi var, (viaMi var).div 10, unlessZero (viaKm (var.inv 1000)),
      unlessZero (var.inv 1000)⟩
  case kWhP100K =>
    exact ⟨viaKm (var.mul 10), var.mul 10, unlessZero (var.inv 100),
      unlessZero (viaMi (var.inv 100))⟩
  case kPkWh =>
    exact ⟨unlessZero ((viaMi var).inv 1000), unlessZero (var.inv 0.001),
      unlessZero (var.inv 100), viaMi var⟩
  case mPkWh =>
    exact ⟨unlessZero (var.inv 1000), unlessZero ((viaKm var).inv 1000),
      unlessZero ((viaKm var).inv 100), viaKm var⟩

open Monomial in
/-- Readings. -/
theorem readings_monomial (zone : Zone) : ∀ row ∈ floatReadings zone,
    row.1 ∉ leftOut → row.1 ∉ temperatures →
      ∀ e ∈ row.2, Monomial (sense row.1 * sense e.1) e.2 := by
  simp only [floatReadings, List.forall_mem_cons, List.not_mem_nil, IsEmpty.forall_iff,
    implies_true, and_true]
  refine ⟨?celcius, ?fahrenheit, ?celciusDiff, ?fahrenheitDiff, ?kPa, ?pa, ?psi, ?bar, ?seconds,
    ?minutes, ?hours, ?timeUTC, ?timeLocal, ?kph, ?mph, ?metersPS, ?feetPS, ?dbm, ?sq,
    ?percentage, ?permille⟩
  case celcius | fahrenheit => exact fun _ h => absurd (by decide) h
  case timeUTC | timeLocal | dbm | sq => exact fun h => absurd (by decide) h
  case celciusDiff => exact fun _ _ => (var.mul 9).div 5
  case fahrenheitDiff => exact fun _ _ => (var.mul 5).div 9
  case kPa => exact fun _ _ => ⟨var.mul 1000, var.div 100, var.mul 0.14503773773020923⟩
  case pa => exact fun _ _ => ⟨var.div 1000, var.div 100000, var.mul 0.00014503773773020923⟩
  case psi =>
    exact fun _ _ =>
      ⟨var.mul 6.894757293168361, var.mul 6894.757293168361, var.mul 0.06894757293168361⟩
  case bar => exact fun _ _ => ⟨var.mul 100000, var.mul 100, var.mul 14.503773773020923⟩
  case seconds => exact fun _ _ => ⟨var.div 60, var.div 3600⟩
  case minutes => exact fun _ _ => ⟨var.mul 60, var.mul 60, var.mul 60, var.div 60⟩
  case hours => exact fun _ _ => ⟨var.mul 3600, var.mul 3600, var.mul 3600, var.mul 60⟩
  case kph =>
    exact fun _ _ => ⟨viaMi var, var.mul 0.277778, (viaMi (var.mul mile)).div 3600⟩
  case mph =>
    exact fun _ _ => ⟨viaKm var, (var.mul mile).div 3600, (viaKm var).mul 0.277778⟩
  case metersPS =>
    exact fun _ _ => ⟨(viaMi var).mul 3.6, var.mul 3.6, (viaMi (var.mul mile)).div 1000⟩
  case feetPS =>
    exact fun _ _ => ⟨(viaKm var).div mile, (var.mul 3600).div mile,
      (viaKm (var.mul 1000)).div mile⟩
  case percentage => exact fun _ _ => var.mul 10.0
  case permille => exact fun _ _ => var.mul 0.10

/-! ### The cases of the switch -/

/-- The zone of the checks: no unit but those of time zones depends on it. -/
def plainZone : Zone := ⟨id, id⟩

theorem mem_of_lookup {α : Type} {x : α} {l : List (MetricUnit × α)}
    (h : l.lookup a = some x) : (a, x) ∈ l := by
  obtain ⟨l₁, l₂, rfl, -⟩ := List.lookup_eq_some_iff.mp h
  exact List.mem_append_right _ List.mem_cons_self

theorem mem_of_conversion (h : conversion zone a b = some f) :
    ∃ row, (a, row) ∈ floatConversions zone ∧ (b, f) ∈ row := by
  obtain ⟨row, hrow, hb⟩ := Option.bind_eq_some_iff.mp h
  exact ⟨row, mem_of_lookup hrow, mem_of_lookup hb⟩

theorem conversion_eq_plain (ha : a ∉ leftOut) : conversion zone a = conversion plainZone a := by
  cases a <;> first | rfl | exact absurd (by decide) ha

theorem keys_checked : ∀ row ∈ floatConversions plainZone, row.1 ∉ leftOut → row.1 ≠ native ∧
    ∀ e ∈ row.2, e.1 ∉ [native, toMetric, toImperial, toUser, row.1] := by
  decide

theorem checkTargetUnit_eq (ha : a ≠ native)
    (hb : b ∉ [native, toMetric, toImperial, toUser, a]) : checkTargetUnit userUnit a b = b := by
  simp only [List.mem_cons, List.not_mem_nil, or_false, not_or] at hb
  obtain ⟨hnative, hmetric, himperial, huser, hne⟩ := hb
  rw [checkTargetUnit, if_neg ha, if_neg hne]
  exacts [hnative, hmetric, himperial, huser]

/-- The value of a conversion. -/
theorem floatConvert_eq (ha : a ∉ leftOut) (h : conversion zone a b = some f) (v : ℚ) :
    floatConvert zone userUnit a b v = f v := by
  have hplain := h
  rw [conversion_eq_plain ha] at hplain
  obtain ⟨row, hrow, hb⟩ := mem_of_conversion hplain
  obtain ⟨hnative, hkeys⟩ := keys_checked _ hrow ha
  have hkey := hkeys _ hb
  rw [conversion] at h
  rw [floatConvert, checkTargetUnit_eq hnative hkey]
  dsimp only
  rw [h, if_neg]
  exact fun hb => hkey (hb ▸ List.mem_cons_self)

/-- **A conversion is a monomial**, but for temperatures. -/
theorem monomial_conversion (ha : a ∉ leftOut) (htemp : a ∉ temperatures)
    (h : conversion zone a b = some f) : Monomial (sense a * sense b) f := by
  obtain ⟨row, hrow, hb⟩ := mem_of_conversion h
  rcases List.mem_append.mp hrow with hrow | hrow
  · exact quantities_monomial _ hrow _ hb
  · exact readings_monomial zone _ hrow ha htemp _ hb

theorem sense_mul_self (a : MetricUnit) : sense a * sense a = 1 := by
  cases a <;> rfl

theorem sense_mul_sense (a b c : MetricUnit) :
    sense a * sense c * (sense c * sense b) = sense a * sense b := by
  rw [mul_assoc, ← mul_assoc (sense c), sense_mul_self, one_mul]

/-! ### One value for all -/

theorem roundTrips_checked : ∀ row ∈ floatConversions plainZone, ∀ e ∈ row.2,
    row.1 ∉ leftOut → e.1 ∉ leftOut → row.1 ∉ temperatures →
      (conversion plainZone e.1 row.1).all fun back =>
        Within (1 / 1000) (back (e.2 1)) 1 ↔ RoundTrip row.1 e.1 := by
  decide +kernel

theorem detours_checked : ∀ row ∈ floatConversions plainZone, ∀ e ∈ row.2,
    row.1 ∉ leftOut → e.1 ∉ leftOut → row.1 ∉ temperatures →
      ((floatConversions plainZone).lookup e.1).all fun row' => row'.all fun e' =>
        e'.1 ∈ leftOut ∨ (row.2.lookup e'.1).all fun direct =>
          Within (1 / 1000) (e'.2 (e.2 1)) (direct 1) ↔ Detour row.1 e.1 e'.1 := by
  decide +kernel

theorem roundTrip_one (ha : a ∉ leftOut) (hb : b ∉ leftOut) (htemp : a ∉ temperatures)
    (hab : conversion plainZone a b = some f) (hba : conversion plainZone b a = some g) :
    Within (1 / 1000) (g (f 1)) 1 ↔ RoundTrip a b := by
  obtain ⟨row, hrow, he⟩ := mem_of_conversion hab
  have hall := roundTrips_checked _ hrow _ he ha hb htemp
  rw [hba, Option.all_some] at hall
  exact of_decide_eq_true hall

/-- A detour at the value 1. -/
theorem detour_one (ha : a ∉ leftOut) (hc : c ∉ leftOut) (hb : b ∉ leftOut)
    (htemp : a ∉ temperatures) (hac : conversion plainZone a c = some f)
    (hcb : conversion plainZone c b = some g) (hab : conversion plainZone a b = some h) :
    Within (1 / 1000) (g (f 1)) (h 1) ↔ Detour a c b := by
  obtain ⟨rowA, hrowA, hf⟩ := Option.bind_eq_some_iff.mp hac
  obtain ⟨rowA', hrowA', hh⟩ := Option.bind_eq_some_iff.mp hab
  obtain ⟨rowC, hrowC, hg⟩ := Option.bind_eq_some_iff.mp hcb
  obtain rfl : rowA = rowA' := Option.some.inj (hrowA.symm.trans hrowA')
  have hall := detours_checked _ (mem_of_lookup hrowA) _ (mem_of_lookup hf) ha hc htemp
  rw [hrowC, Option.all_some] at hall
  have hentry := of_decide_eq_true (List.all_eq_true.mp hall _ (mem_of_lookup hg))
  have hdirect := hentry.resolve_left hb
  rw [hh, Option.all_some] at hdirect
  exact of_decide_eq_true hdirect

/-- Temperatures are converted to each other only. -/
theorem eq_of_conversion_temperature (ha : a ∈ temperatures)
    (h : (conversion plainZone a b).isSome) :
    a = celcius ∧ b = fahrenheit ∨ a = fahrenheit ∧ b = celcius := by
  simp only [temperatures, List.mem_cons, List.not_mem_nil, or_false] at ha
  rcases ha with rfl | rfl
  · change (List.lookup b [(fahrenheit, _)]).isSome = true at h
    rw [List.lookup_isSome_iff] at h
    simpa using h
  · change (List.lookup b [(celcius, _)]).isSome = true at h
    rw [List.lookup_isSome_iff] at h
    simpa using h

theorem mem_temperatures (ha : a ∈ temperatures) (h : (conversion plainZone a b).isSome) :
    b ∈ temperatures := by
  obtain ⟨-, rfl⟩ | ⟨-, rfl⟩ := eq_of_conversion_temperature ha h <;> decide

theorem celcius_fahrenheit (v : ℚ) :
    (v * 9 / 5 + 32 - 32) * 5 / 9 = v ∧ (v - 32) * 5 / 9 * 9 / 5 + 32 = v := by
  constructor <;> ring

/-- A round trip of temperatures. -/
theorem roundTrip_temperature (ha : a ∈ temperatures) (hab : conversion plainZone a b = some f)
    (hba : conversion plainZone b a = some g) (v : ℚ) : g (f v) = v := by
  obtain ⟨rfl, rfl⟩ | ⟨rfl, rfl⟩ :=
    eq_of_conversion_temperature ha (Option.isSome_iff_exists.mpr ⟨f, hab⟩)
  · cases hab
    cases hba
    exact (celcius_fahrenheit v).1
  · cases hab
    cases hba
    exact (celcius_fahrenheit v).2

/-- No detour leads through temperatures. -/
theorem not_detour_temperature (ha : a ∈ temperatures) (hac : (conversion plainZone a c).isSome)
    (hcb : (conversion plainZone c b).isSome) : ¬(conversion plainZone a b).isSome := by
  intro hab
  obtain ⟨rfl, rfl⟩ | ⟨rfl, rfl⟩ := eq_of_conversion_temperature ha hac
  · obtain ⟨h, -⟩ | ⟨-, rfl⟩ := eq_of_conversion_temperature (by decide) hcb
    · cases h
    · cases hab
  · obtain ⟨-, rfl⟩ | ⟨h, -⟩ := eq_of_conversion_temperature (by decide) hcb
    · cases hab
    · cases h

/-! ### All values -/

/-- **The conversions are consistent if and only if they are none of the slips.** Of two units that
are converted in both directions, a value converted there and back is the value again, up to a
thousandth; and a value converted by way of a third unit that is converted to and from both is the
value converted directly. -/
theorem conversions_consistent_iff (zone : Zone) (userUnit : MetricUnit → MetricUnit)
    {a b : MetricUnit} (hab : Linked zone a b) {v : ℚ} (hv : v ≠ 0) :
    (Within (1 / 1000) (floatConvert zone userUnit b a (floatConvert zone userUnit a b v)) v ↔
        RoundTrip a b) ∧
      ∀ c, Linked zone a c → Linked zone c b →
        (Within (1 / 1000) (floatConvert zone userUnit c b (floatConvert zone userUnit a c v))
          (floatConvert zone userUnit a b v) ↔ Detour a c b) := by
  obtain ⟨ha, hb, hab, hba⟩ := hab
  obtain ⟨f, hf⟩ := Option.isSome_iff_exists.mp hab
  obtain ⟨g, hg⟩ := Option.isSome_iff_exists.mp hba
  rw [floatConvert_eq ha hf, floatConvert_eq hb hg]
  rw [conversion_eq_plain ha] at hab hf
  rw [conversion_eq_plain hb] at hba hg
  refine ⟨?roundTrip, fun c hac hcb => ?detour⟩
  case roundTrip =>
    by_cases htemp : a ∈ temperatures
    · rw [roundTrip_temperature htemp hf hg]
      refine iff_of_true (within_self (by norm_num) v) ?_
      obtain ⟨rfl, rfl⟩ | ⟨rfl, rfl⟩ := eq_of_conversion_temperature htemp hab <;> decide
    · have htemp' : b ∉ temperatures := fun hb' => htemp (mem_temperatures hb' hba)
      have hcomp := (monomial_conversion hb htemp' hg).comp (monomial_conversion ha htemp hf)
      rw [sense_mul_sense, sense_mul_self] at hcomp
      have hone := hcomp.within_iff (ε := 1 / 1000) Monomial.var hv
      exact hone.trans (roundTrip_one ha hb htemp hf hg)
  case detour =>
    obtain ⟨-, hc, hac, hca⟩ := hac
    obtain ⟨-, -, hcb, -⟩ := hcb
    obtain ⟨k, hk⟩ := Option.isSome_iff_exists.mp hac
    obtain ⟨l, hl⟩ := Option.isSome_iff_exists.mp hcb
    rw [floatConvert_eq ha hk, floatConvert_eq hc hl]
    rw [conversion_eq_plain ha] at hac hk
    rw [conversion_eq_plain hc] at hca hcb hl
    have htemp : a ∉ temperatures := fun htemp => not_detour_temperature htemp hac hcb hab
    have htemp' : c ∉ temperatures := fun hc' => htemp (mem_temperatures hc' hca)
    have hcomp := (monomial_conversion hc htemp' hl).comp (monomial_conversion ha htemp hk)
    rw [sense_mul_sense] at hcomp
    have hone := hcomp.within_iff (ε := 1 / 1000) (monomial_conversion ha htemp hf) hv
    exact hone.trans (detour_one ha hc hb htemp hk hl hf)

/-- Five kilometers are as many miles and back, and as many by way of meters. -/
theorem conversions_consistent_kilometers :
    (Within (1 / 1000) (floatConvert plainZone id miles kilometers
        (floatConvert plainZone id kilometers miles 5)) 5 ↔ RoundTrip kilometers miles) ∧
      ∀ c, Linked plainZone kilometers c → Linked plainZone c miles →
        (Within (1 / 1000) (floatConvert plainZone id c miles
            (floatConvert plainZone id kilometers c 5))
          (floatConvert plainZone id kilometers miles 5) ↔ Detour kilometers c miles) :=
  conversions_consistent_iff plainZone id ⟨by decide, by decide, rfl, rfl⟩ (by norm_num)

/-- One kWh is 3.6 mega joules, and these are ten kWh. -/
theorem not_conversions_consistent :
    ¬∀ (zone : Zone) (userUnit : MetricUnit → MetricUnit) (a b : MetricUnit), Linked zone a b →
      ∀ v : ℚ, v ≠ 0 →
        Within (1 / 1000) (floatConvert zone userUnit b a (floatConvert zone userUnit a b v)) v ∧
          ∀ c, Linked zone a c → Linked zone c b →
            Within (1 / 1000) (floatConvert zone userUnit c b (floatConvert zone userUnit a c v))
              (floatConvert zone userUnit a b v) := by
  intro hall
  have hlinked : Linked plainZone kWh megaJoules := ⟨by decide, by decide, rfl, rfl⟩
  obtain ⟨hback, -⟩ := hall plainZone id kWh megaJoules hlinked 1 one_ne_zero
  change Within (1 / 1000) (1 * 3.6 * 2.777778) 1 at hback
  norm_num [Within, abs_of_pos] at hback

end Ovms.Units
