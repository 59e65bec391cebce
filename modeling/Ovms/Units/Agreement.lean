import Ovms.Units.Convert
import Mathlib.Algebra.Order.Round
import Mathlib.Tactic.NormNum
import Mathlib.Tactic.Positivity
import Mathlib.Tactic.Linarith
import Mathlib.Tactic.FieldSimp

/-!
# Agreement of the Conversions

The two switches of `UnitConvert` (`main/ovms_metrics.cpp`) are written by hand, with other
formulas and another order of products and quotients. An integer conversion may lose the fraction
of its result, and the factors may differ by a thousandth. The tables are compared row by row:
where the integer is one truncated quotient, its factor is compared with the float's.

Three pairs of units disagree. From kilometers to feet and from feet to meters each second
squared the integer is divided before it is multiplied, and from mega joules to kWh the float's
factor is ten times too large.
-/

namespace Ovms.Units

open MetricUnit

/-! ### Quotients -/

/-- A truncated quotient is less than one away. -/
theorem abs_tdiv_sub_lt_one (a : ℤ) {d : ℤ} (hd : d ≠ 0) :
    |((a.tdiv d : ℤ) : ℚ) - a / d| < 1 := by
  have hd' : (d : ℚ) ≠ 0 := Int.cast_ne_zero.mpr hd
  have hrest : ((a.tdiv d : ℤ) : ℚ) - a / d = -((a.tmod d : ℤ) : ℚ) / d := by
    have hsum : ((d * a.tdiv d + a.tmod d : ℤ) : ℚ) = a :=
      congrArg _ (Int.mul_tdiv_add_tmod a d)
    push_cast at hsum
    rw [eq_div_iff hd', sub_mul, div_mul_cancel₀ _ hd', ← hsum]
    ring
  rw [hrest, abs_div, abs_neg, div_lt_one (abs_pos.mpr hd')]
  have hlt : |a.tmod d| < |d| := by
    rw [Int.abs_eq_natAbs, Int.abs_eq_natAbs, Int.natAbs_tmod]
    exact_mod_cast Nat.mod_lt _ (Int.natAbs_pos.mpr hd)
  exact_mod_cast hlt

theorem abs_trunc_sub_lt_one (x : ℚ) : |(trunc x : ℚ) - x| < 1 := by
  have h := abs_tdiv_sub_lt_one x.num (d := x.den) (by exact_mod_cast x.den_nz)
  rwa [Int.cast_natCast, Rat.num_div_den] at h

/-- Truncating twice is truncating once. -/
theorem tdiv_tdiv (a : ℤ) {d : ℤ} (hd : 0 < d) (e : ℤ) :
    (a.tdiv d).tdiv e = a.tdiv (d * e) := by
  have hnonneg (b : ℤ) (hb : 0 ≤ b) : (b.tdiv d).tdiv e = b.tdiv (d * e) := by
    rw [Int.tdiv_eq_ediv_of_nonneg hb, Int.tdiv_eq_ediv_of_nonneg hb,
      Int.tdiv_eq_ediv_of_nonneg (Int.ediv_nonneg hb hd.le), Int.ediv_ediv_of_nonneg hd.le]
  rcases Int.le_total 0 a with ha | ha
  · exact hnonneg a ha
  · obtain ⟨b, rfl⟩ : ∃ b, a = -b := ⟨-a, (neg_neg a).symm⟩
    rw [Int.neg_tdiv, Int.neg_tdiv, Int.neg_tdiv, hnonneg b (by omega)]

theorem eq_of_fits {x r : ℤ} (h : fits x = some r) : r = x := by
  rw [fits] at h
  split at h
  · exact (Option.some.inj h).symm
  · cases h

/-! ### Agreement -/

/-- An integer is a value up to one and a thousandth. -/
def Close (r : ℤ) (x : ℚ) : Prop := |(r : ℚ) - x| ≤ 1 + |x| / 1000

/-- Two conversions agree on every integer that the first one has a result for. -/
def Agree (f : ℤ → Option ℤ) (g : ℚ → ℚ) : Prop := ∀ v r, f v = some r → Close r (g v)

theorem close_of_lt_one {r : ℤ} {x : ℚ} (h : |(r : ℚ) - x| < 1) : Close r x :=
  h.le.trans (le_add_of_nonneg_right (by positivity))

/-- A conversion is a quotient, truncated once. -/
def Computes (f : ℤ → Option ℤ) (n d : ℤ) : Prop :=
  0 < d ∧ ∀ v r, f v = some r → r = (v * n).tdiv d

namespace Computes

variable {f : ℤ → Option ℤ} {n d : ℤ}

theorem product (k : ℤ) : Computes (fun v => imul v k) k 1 :=
  ⟨one_pos, fun v r h => by rw [Int.tdiv_one]; exact eq_of_fits h⟩

theorem quotient {e : ℤ} (he : 0 < e) : Computes (fun v => some (v.tdiv e)) 1 e :=
  ⟨he, fun v r h => by rw [mul_one]; exact (Option.some.inj h).symm⟩

theorem divided (hf : Computes f n d) {e : ℤ} (he : 0 < e) :
    Computes (fun v => (f v).map (·.tdiv e)) n (d * e) := by
  refine ⟨mul_pos hf.1 he, fun v r h => ?_⟩
  obtain ⟨x, hx, rfl⟩ := Option.map_eq_some_iff.mp h
  rw [hf.2 v x hx, tdiv_tdiv _ hf.1]

theorem after (hf : Computes f n d) (k : ℤ) :
    Computes (fun v => (imul v k).bind f) (k * n) d := by
  refine ⟨hf.1, fun v r h => ?_⟩
  obtain ⟨x, hx, hr⟩ := Option.bind_eq_some_iff.mp h
  rw [hf.2 x r hr, eq_of_fits hx, mul_assoc]

theorem miles : Computes kmToMi 2500 (1 * 4023) := (product 2500).divided (by decide)

theorem kilometers : Computes miToKm 4023 (1 * 2500) := (product 4023).divided (by decide)

/-- A quotient of nearly the factor of the float agrees with it. -/
theorem agree (hf : Computes f n d) {g : ℚ → ℚ} (q : ℚ) (hg : ∀ v, g v = v * q)
    (hq : 0 < q ∧ 999 * (q * d) ≤ 1000 * n ∧ 1000 * n ≤ 1001 * (q * d)) : Agree f g := by
  intro v r h
  have hd : (0 : ℚ) < d := Int.cast_pos.mpr hf.1
  have htrunc := abs_tdiv_sub_lt_one (v * n) hf.1.ne'
  rw [← hf.2 v r h] at htrunc
  have hnear : |(n : ℚ) / d - q| ≤ q / 1000 := by
    rw [abs_le, le_sub_iff_add_le, sub_le_iff_le_add, le_div_iff₀ hd, div_le_iff₀ hd]
    constructor <;> linarith
  have hfactor : |((v * n : ℤ) : ℚ) / d - g v| ≤ |g v| / 1000 := by
    calc |((v * n : ℤ) : ℚ) / d - g v| = |(v : ℚ)| * |(n : ℚ) / d - q| := by
          rw [hg, ← abs_mul]
          congr 1
          push_cast
          ring
      _ ≤ |(v : ℚ)| * (q / 1000) := mul_le_mul_of_nonneg_left hnear (abs_nonneg _)
      _ = |g v| / 1000 := by rw [hg, abs_mul, abs_of_pos hq.1, mul_div_assoc]
  calc |(r : ℚ) - g v| ≤ |(r : ℚ) - ((v * n : ℤ) : ℚ) / d| + |((v * n : ℤ) : ℚ) / d - g v| :=
        abs_sub_le _ _ _
    _ ≤ 1 + |g v| / 1000 := add_le_add htrunc.le hfactor

end Computes

theorem agree_factor (q : ℚ) : Agree (fun v => toInt (v * q)) (fun v => v * q) := by
  intro v r hr
  rw [eq_of_fits hr]
  exact close_of_lt_one (abs_trunc_sub_lt_one _)

/-- So it does where the value divides. -/
theorem agree_orZero {h g : ℚ → ℚ} (heq : ∀ v, v ≠ 0 → g v = h v) :
    Agree (orZero h) (orZeroFloat g) := by
  intro v r hr
  rw [orZero] at hr
  rw [orZeroFloat]
  by_cases hv : v = 0
  · rw [if_neg (not_not.mpr hv)] at hr
    rw [if_neg (not_not.mpr (Int.cast_eq_zero.mpr hv)), ← Option.some.inj hr]
    exact close_of_lt_one (by norm_num)
  · have hv' : (v : ℚ) ≠ 0 := Int.cast_ne_zero.mpr hv
    rw [if_pos hv] at hr
    rw [if_pos hv', heq _ hv', eq_of_fits hr]
    exact close_of_lt_one (abs_trunc_sub_lt_one _)

theorem feetPerMile_cast : ((feetPerMile : ℤ) : ℚ) = 5280 := by norm_num [feetPerMile]

/-! ### Rows that agree -/

theorem agree_product (k : ℤ) : Agree (fun v => imul v k) (fun v => v * k) := by
  intro v r h
  refine close_of_lt_one ?_
  rw [eq_of_fits h, Int.cast_mul, sub_self, abs_zero]
  exact one_pos

theorem agree_quotient {e : ℤ} (he : 0 < e) :
    Agree (fun v => some (v.tdiv e)) (fun v => v / e) := by
  intro v r h
  rw [← Option.some.inj h]
  exact close_of_lt_one (abs_tdiv_sub_lt_one v he.ne')

theorem agree_miles : Agree kmToMi kmToMiFloat :=
  Computes.miles.agree 0.6213700 (fun _ => rfl) (by norm_num)

theorem agree_kilometers : Agree miToKm miToKmFloat :=
  Computes.kilometers.agree 1.609347 (fun _ => rfl) (by norm_num)

/-- A quotient by the value. -/
theorem agree_reciprocal :
    Agree (fun v => some (if v ≠ 0 then (1000 : ℤ).tdiv v else 0))
      (orZeroFloat fun v => 1000 / v) := by
  intro v r h
  rw [orZeroFloat, ← Option.some.inj h]
  by_cases hv : v = 0
  · rw [if_neg (not_not.mpr hv), if_neg (not_not.mpr (Int.cast_eq_zero.mpr hv))]
    exact close_of_lt_one (by norm_num)
  · rw [if_pos hv, if_pos (Int.cast_ne_zero.mpr hv)]
    exact close_of_lt_one (by exact_mod_cast abs_tdiv_sub_lt_one 1000 hv)

/-- Degrees of Fahrenheit. -/
theorem agree_fahrenheit :
    Agree (fun v => (imul v 9).bind fun x => fits (x.tdiv 5 + 32)) (fun v => v * 9 / 5 + 32) := by
  intro v r h
  obtain ⟨x, hx, hr⟩ := Option.bind_eq_some_iff.mp h
  have hlt := abs_tdiv_sub_lt_one (v * 9) (d := 5) (by decide)
  rw [eq_of_fits hr, eq_of_fits hx]
  refine close_of_lt_one ?_
  push_cast at hlt ⊢
  rwa [add_sub_add_right_eq_sub]

/-- Degrees of Celsius. -/
theorem agree_celcius :
    Agree (fun v => ((fits (v - 32)).bind (imul · 5)).map (·.tdiv 9))
      (fun v => (v - 32) * 5 / 9) := by
  intro v r h
  obtain ⟨x, hx, rfl⟩ := Option.map_eq_some_iff.mp h
  obtain ⟨y, hy, hx⟩ := Option.bind_eq_some_iff.mp hx
  have hlt := abs_tdiv_sub_lt_one ((v - 32) * 5) (d := 9) (by decide)
  rw [eq_of_fits hx, eq_of_fits hy]
  refine close_of_lt_one ?_
  push_cast at hlt ⊢
  exact hlt

theorem roundAway_intCast (v : ℤ) : roundAway v = v := by
  rw [roundAway]
  split
  · rw [Int.floor_eq_iff]
    constructor <;> linarith
  · rw [Int.ceil_eq_iff]
    constructor <;> linarith

theorem agree_round (clock : ℤ → ℤ) :
    Agree (fun v => some (clock v)) (fun v => clock (roundAway v)) := by
  intro v r h
  refine close_of_lt_one ?_
  dsimp only
  rw [← Option.some.inj h, roundAway_intCast, sub_self, abs_zero]
  exact one_pos


/-- A quotient of integers without its fraction. -/
theorem trunc_intCast_div (a : ℤ) (d : ℕ) : trunc ((a : ℚ) / d) = a.tdiv d := by
  have hnonneg (b : ℤ) (hb : 0 ≤ b) : trunc ((b : ℚ) / d) = b.tdiv d := by
    have hx : (0 : ℚ) ≤ b / d := div_nonneg (Int.cast_nonneg hb) (Nat.cast_nonneg d)
    rw [trunc, Int.tdiv_eq_ediv_of_nonneg (Rat.num_nonneg.mpr hx), ← Rat.floor_def',
      Int.tdiv_eq_ediv_of_nonneg hb]
    exact Rat.floor_intCast_div_natCast b d
  rcases Int.le_total 0 a with ha | ha
  · exact hnonneg a ha
  · obtain ⟨b, rfl⟩ : ∃ b, a = -b := ⟨-a, (neg_neg a).symm⟩
    have hneg : trunc (((-b : ℤ) : ℚ) / d) = -trunc ((b : ℚ) / d) := by
      rw [Int.cast_neg, neg_div, trunc, Rat.neg_num, Rat.neg_den, Int.neg_tdiv, trunc]
    rw [hneg, hnonneg b (by omega), Int.neg_tdiv]

/-- Signal qualities are cast back. -/
theorem agree_sq :
    Agree (fun v => some (if v ≤ -51 then (v + 113).tdiv 2 else 0))
      (fun v => trunc (if v ≤ -51 then (v + 113) / 2 else 0)) := by
  intro v r h
  have htrunc := trunc_intCast_div (v + 113) 2
  have hle : ((v : ℚ) ≤ -51) = (v ≤ -51) := propext (by exact_mod_cast Iff.rfl)
  rw [← Option.some.inj h]
  refine close_of_lt_one ?_
  simp only [hle]
  split
  · push_cast at htrunc ⊢
    rw [htrunc, sub_self, abs_zero]
    exact one_pos
  · norm_num [trunc]

/-- Signal strengths of them. -/
theorem agree_dbm :
    Agree (fun v => if v ≤ 31 then (imul v 2).bind fun x => fits (-113 + x) else some 0)
      (fun v => trunc (if v ≤ 31 then -113 + v * 2 else 0)) := by
  intro v r h
  have htrunc := trunc_intCast_div (-113 + v * 2) 1
  have hle : ((v : ℚ) ≤ 31) = (v ≤ 31) := propext (by exact_mod_cast Iff.rfl)
  refine close_of_lt_one ?_
  by_cases hv : v ≤ 31
  · simp only [if_pos hv] at h
    simp only [hle, if_pos hv]
    obtain ⟨x, hx, hr⟩ := Option.bind_eq_some_iff.mp h
    rw [Nat.cast_one, div_one, Nat.cast_one, Int.tdiv_one] at htrunc
    push_cast at htrunc
    rw [htrunc, eq_of_fits hr, eq_of_fits hx, sub_self, abs_zero]
    exact one_pos
  · simp only [if_neg hv] at h
    simp only [hle, if_neg hv]
    rw [← Option.some.inj h]
    norm_num [trunc]

/-! ### Tables -/

/-- Two tables with the same keys, and with related entries for each of them. -/
def Rows {α β γ : Type} (R : α → β → γ → Prop) : List (α × β) → List (α × γ) → Prop :=
  List.Forall₂ fun a b => a.1 = b.1 ∧ R a.1 a.2 b.2

/-- Related tables answer alike. -/
theorem Rows.lookup {α β γ : Type} [DecidableEq α] {R : α → β → γ → Prop}
    {l : List (α × β)} {l' : List (α × γ)} (h : Rows R l l') (k : α) :
    Option.Rel (R k) (l.lookup k) (l'.lookup k) := by
  induction h with
  | nil => exact .none
  | @cons a b l l' hab _ ih =>
    obtain ⟨a, x⟩ := a
    obtain ⟨b, y⟩ := b
    obtain ⟨rfl, hxy⟩ := hab
    by_cases hk : k = a
    · rw [hk, List.lookup_cons_self, List.lookup_cons_self]
      exact .some hxy
    · have hne : (k == a) = false := beq_eq_false_iff_ne.mpr hk
      simp only [List.lookup_cons, hne]
      exact ih

/-- The pairs of units whose conversions do not agree. -/
def exceptions : List (MetricUnit × MetricUnit) :=
  [(kilometers, feet), (feetPSS, metersPSS), (megaJoules, kWh)]

/-- Two tables of conversions that agree but for the exceptions. -/
def TablesAgree : List (MetricUnit × List (MetricUnit × (ℤ → Option ℤ))) →
    List (MetricUnit × List (MetricUnit × (ℚ → ℚ))) → Prop :=
  Rows fun source => Rows fun target f g => (source, target) ∉ exceptions → Agree f g

/-- Quantities. -/
theorem quantities_agree : TablesAgree intQuantities floatQuantities := by
  simp only [TablesAgree, Rows, intQuantities, floatQuantities, List.forall₂_cons,
    List.forall₂_nil_left_iff, eq_self, true_and, and_true]
  refine ⟨?kilometers, ?miles, ?meters, ?feet, ?kphPS, ?mphPS, ?metersPSS, ?feetPSS, ?kW,
    ?watts, ?kWh, ?wattHours, ?megaJoules, ?ampHours, ?kilocoulombs, ?wattHoursPK, ?wattHoursPM,
    ?kWhP100K, ?kPkWh, ?mPkWh⟩
  case kilometers =>
    exact ⟨fun _ => agree_miles,
      fun _ => agree_product 1000,
      fun h => absurd (by decide) h⟩
  case miles =>
    exact ⟨fun _ => agree_kilometers,
      fun _ => (Computes.kilometers.after 1000).agree (1.609347 * 1000)
        (fun v => by rw [miToKmFloat]; ring) (by norm_num),
      fun _ => agree_product feetPerMile⟩
  case meters =>
    exact ⟨fun _ => (Computes.miles.divided (by decide)).agree (1 / 1000 * 0.6213700)
        (fun v => by rw [kmToMiFloat]; ring) (by norm_num),
      fun _ => agree_quotient (e := 1000) (by decide),
      fun _ =>
        ((Computes.miles.after feetPerMile).divided (by decide)).agree (1 / 1000 * 0.6213700 * 5280)
          (fun v => by rw [kmToMiFloat, feetPerMile_cast]; ring) (by norm_num [feetPerMile])⟩
  case feet =>
    exact ⟨fun _ => (Computes.kilometers.divided (by decide)).agree (1 / 5280 * 1.609347)
        (fun v => by rw [miToKmFloat, feetPerMile_cast]; ring) (by norm_num [feetPerMile]),
      fun _ =>
        ((Computes.kilometers.after 1000).divided (by decide)).agree (1 / 5280 * 1.609347 * 1000)
          (fun v => by rw [miToKmFloat, feetPerMile_cast]; ring) (by norm_num [feetPerMile]),
      fun _ => agree_quotient (e := feetPerMile) (by decide)⟩
  case kphPS =>
    exact ⟨fun _ => agree_miles,
      fun _ => ((Computes.product 10).divided (by decide)).agree (1 / 3.6)
        (fun v => by ring) (by norm_num),
      fun _ =>
        ((Computes.miles.after feetPerMile).divided (by decide)).agree (0.6213700 * 5280 / 3600)
          (fun v => by rw [kmToMiFloat, feetPerMile_cast]; ring) (by norm_num [feetPerMile])⟩
  case mphPS =>
    exact ⟨fun _ => agree_kilometers,
      fun _ => ((Computes.kilometers.after 10).divided (by decide)).agree (1.609347 / 3.6)
        (fun v => by rw [miToKmFloat]; ring) (by norm_num),
      fun _ => ((Computes.product feetPerMile).divided (by decide)).agree (5280 / 3600)
        (fun v => by rw [feetPerMile_cast]; ring) (by norm_num [feetPerMile])⟩
  case metersPSS =>
    exact ⟨fun _ =>
        ((Computes.product 36).divided (by decide)).agree 3.6 (fun _ => rfl) (by norm_num),
      fun _ => ((Computes.miles.after 36).divided (by decide)).agree (0.6213700 * 3.6)
        (fun v => by rw [kmToMiFloat]; ring) (by norm_num),
      fun _ => (Computes.miles.after feetPerMile).agree (0.6213700 * 5280)
        (fun v => by rw [kmToMiFloat, feetPerMile_cast]; ring) (by norm_num [feetPerMile])⟩
  case feetPSS =>
    exact ⟨fun _ =>
        ((Computes.kilometers.after 36).divided (by decide)).agree (1 / 5280 * 1.609347 * 3.6)
          (fun v => by rw [miToKmFloat, feetPerMile_cast]; ring) (by norm_num [feetPerMile]),
      fun _ => ((Computes.product 3600).divided (by decide)).agree (3600 / 5280)
        (fun v => by rw [feetPerMile_cast]; ring) (by norm_num [feetPerMile]),
      fun h => absurd (by decide) h⟩
  case kW =>
    exact fun _ => agree_product 1000
  case watts =>
    exact fun _ => agree_quotient (e := 1000) (by decide)
  case kWh =>
    exact ⟨fun _ => agree_product 1000,
      fun _ => agree_factor 3.6⟩
  case wattHours =>
    exact ⟨fun _ => (Computes.quotient (e := 1000) (by decide)).agree 0.001
        (fun _ => rfl) (by norm_num),
      fun _ => ((Computes.product 9).divided (by decide)).agree 0.0036 (fun _ => rfl) (by norm_num)⟩
  case megaJoules =>
    exact ⟨fun h => absurd (by decide) h,
      fun _ => ((Computes.product 2500).divided (by decide)).agree 277.7778
        (fun _ => rfl) (by norm_num)⟩
  case ampHours =>
    exact fun _ =>
        ((Computes.product 18).divided (by decide)).agree 3.6 (fun _ => rfl) (by norm_num)
  case kilocoulombs =>
    exact fun _ => ((Computes.product 5).divided (by decide)).agree 0.277778
        (fun _ => rfl) (by norm_num)
  case wattHoursPK =>
    exact ⟨fun _ => agree_kilometers,
      fun _ => agree_quotient (e := 10) (by decide),
      fun _ => agree_orZero fun _ _ => rfl,
      fun _ => agree_orZero fun _ _ => rfl⟩
  case wattHoursPM =>
    exact ⟨fun _ => agree_miles,
      fun _ => (Computes.miles.divided (by decide)).agree (0.6213700 / 10)
        (fun v => by rw [kmToMiFloat]; ring) (by norm_num),
      fun _ => agree_orZero fun _ _ => rfl,
      fun _ => agree_orZero fun _ _ => rfl⟩
  case kWhP100K =>
    exact ⟨fun _ => (Computes.kilometers.after 10).agree (10 * 1.609347)
        (fun v => by rw [miToKmFloat]; ring) (by norm_num),
      fun _ => agree_product 10,
      fun _ => agree_orZero fun _ _ => rfl,
      fun _ => agree_orZero fun _ _ => rfl⟩
  case kPkWh =>
    exact ⟨fun _ => agree_orZero fun _ _ => rfl,
      fun _ => agree_orZero fun v _ => by rw [← div_div]; norm_num,
      fun _ => agree_orZero fun _ _ => rfl,
      fun _ => agree_miles⟩
  case mPkWh =>
    exact ⟨fun _ => agree_reciprocal,
      fun _ => agree_orZero fun _ _ => rfl,
      fun _ => agree_orZero fun _ _ => rfl,
      fun _ => agree_kilometers⟩

/-- Readings. -/
theorem readings_agree (zone : Zone) :
    TablesAgree (intReadings zone) (floatReadings zone) := by
  simp only [TablesAgree, Rows, intReadings, floatReadings, List.forall₂_cons,
    List.forall₂_nil_left_iff, eq_self, true_and, and_true]
  refine ⟨?celcius, ?fahrenheit, ?celciusDiff, ?fahrenheitDiff, ?kPa, ?pa, ?psi, ?bar, ?seconds,
    ?minutes, ?hours, ?timeUTC, ?timeLocal, ?kph, ?mph, ?metersPS, ?feetPS, ?dbm, ?sq, ?percentage,
    ?permille⟩
  case celcius =>
    exact fun _ => agree_fahrenheit
  case fahrenheit =>
    exact fun _ => agree_celcius
  case celciusDiff =>
    exact fun _ => ((Computes.product 9).divided (by decide)).agree (9 / 5)
        (fun v => by ring) (by norm_num)
  case fahrenheitDiff =>
    exact fun _ => ((Computes.product 5).divided (by decide)).agree (5 / 9)
        (fun v => by ring) (by norm_num)
  case kPa =>
    exact ⟨fun _ => agree_product 1000,
      fun _ => agree_quotient (e := 100) (by decide),
      fun _ => agree_factor 0.14503773773020923⟩
  case pa =>
    exact ⟨fun _ => agree_quotient (e := 1000) (by decide),
      fun _ => agree_quotient (e := 100000) (by decide),
      fun _ => agree_factor 0.00014503773773020923⟩
  case psi =>
    exact ⟨fun _ => agree_factor 6.894757293168361,
      fun _ => agree_factor 6894.757293168361,
      fun _ => agree_factor 0.06894757293168361⟩
  case bar =>
    exact ⟨fun _ => agree_product 100000,
      fun _ => agree_product 100,
      fun _ => agree_factor 14.503773773020923⟩
  case seconds =>
    exact ⟨fun _ => agree_quotient (e := 60) (by decide),
      fun _ => agree_quotient (e := 3600) (by decide)⟩
  case minutes =>
    exact ⟨fun _ => agree_product 60,
      fun _ => agree_product 60,
      fun _ => agree_product 60,
      fun _ => agree_quotient (e := 60) (by decide)⟩
  case hours =>
    exact ⟨fun _ => agree_product 3600,
      fun _ => agree_product 3600,
      fun _ => agree_product 3600,
      fun _ => agree_product 60⟩
  case timeUTC =>
    exact ⟨fun _ => agree_quotient (e := 60) (by decide),
      fun _ => agree_quotient (e := 3600) (by decide),
      fun _ => agree_round zone.toLocal,
      fun _ => agree_round id⟩
  case timeLocal =>
    exact ⟨fun _ => agree_quotient (e := 60) (by decide),
      fun _ => agree_quotient (e := 3600) (by decide),
      fun _ => agree_round zone.toUTC,
      fun _ => agree_round id⟩
  case kph =>
    exact ⟨fun _ => agree_miles,
      fun _ =>
        ((Computes.product 5).divided (by decide)).agree 0.277778 (fun _ => rfl) (by norm_num),
      fun _ =>
        ((Computes.miles.after feetPerMile).divided (by decide)).agree (5280 * 0.6213700 / 3600)
          (fun v => by rw [kmToMiFloat, feetPerMile_cast]; ring) (by norm_num [feetPerMile])⟩
  case mph =>
    exact ⟨fun _ => agree_kilometers,
      fun _ => ((Computes.product feetPerMile).divided (by decide)).agree (5280 / 3600)
        (fun v => by rw [feetPerMile_cast]; ring) (by norm_num [feetPerMile]),
      fun _ => ((Computes.kilometers.after 5).divided (by decide)).agree (1.609347 * 0.277778)
        (fun v => by rw [miToKmFloat]; ring) (by norm_num)⟩
  case metersPS =>
    exact ⟨fun _ => ((Computes.miles.after 18).divided (by decide)).agree (0.6213700 * 3.6)
        (fun v => by rw [kmToMiFloat]; ring) (by norm_num),
      fun _ => ((Computes.product 18).divided (by decide)).agree 3.6 (fun _ => rfl) (by norm_num),
      fun _ =>
        ((Computes.miles.after feetPerMile).divided (by decide)).agree (5280 * 0.6213700 / 1000)
          (fun v => by rw [kmToMiFloat, feetPerMile_cast]; ring) (by norm_num [feetPerMile])⟩
  case feetPS =>
    exact ⟨fun _ => (Computes.kilometers.divided (by decide)).agree (1.609347 / 5280)
        (fun v => by rw [miToKmFloat, feetPerMile_cast]; ring) (by norm_num [feetPerMile]),
      fun _ => ((Computes.product 3600).divided (by decide)).agree (3600 / 5280)
        (fun v => by rw [feetPerMile_cast]; ring) (by norm_num [feetPerMile]),
      fun _ => ((Computes.kilometers.after 1000).divided (by decide)).agree (1000 * 1.609347 / 5280)
        (fun v => by rw [miToKmFloat, feetPerMile_cast]; ring) (by norm_num [feetPerMile])⟩
  case dbm =>
    exact fun _ => agree_sq
  case sq =>
    exact fun _ => agree_dbm
  case percentage =>
    exact fun _ => (Computes.product 10).agree 10.0 (fun _ => rfl) (by norm_num)
  case permille =>
    exact fun _ => (Computes.quotient (e := 10) (by decide)).agree 0.10 (fun _ => rfl) (by norm_num)

theorem conversions_agree (zone : Zone) :
    TablesAgree (intConversions zone) (floatConversions zone) :=
  List.rel_append quantities_agree (readings_agree zone)

/-- Tables of related tables answer alike. -/
theorem Rows.lookup_bind {α β γ δ : Type} [DecidableEq α] [DecidableEq β]
    {R : α → β → γ → δ → Prop} {l : List (α × List (β × γ))} {l' : List (α × List (β × δ))}
    (h : Rows (fun a => Rows (R a)) l l') (a : α) (b : β) :
    Option.Rel (R a b) ((l.lookup a).bind (·.lookup b)) ((l'.lookup a).bind (·.lookup b)) := by
  have hrel := h.lookup a
  generalize l.lookup a = x at hrel ⊢
  generalize l'.lookup a = y at hrel ⊢
  cases hrel with
  | none => exact .none
  | some hrows => exact hrows.lookup b

/-! ### Agreement -/

theorem close_self (v : ℤ) : Close v v :=
  close_of_lt_one (by rw [sub_self, abs_zero]; exact one_pos)

/-- A pair that is no exception agrees. -/
theorem convert_close {zone : Zone} {userUnit : MetricUnit → MetricUnit}
    {source target : MetricUnit}
    (hpair : (source, checkTargetUnit userUnit source target) ∉ exceptions) {v r : ℤ}
    (h : intConvert zone userUnit source target v = some r) :
    Close r (floatConvert zone userUnit source target v) := by
  have hrel := (conversions_agree zone).lookup_bind source (checkTargetUnit userUnit source target)
  simp only [intConvert] at h
  simp only [floatConvert]
  split at h
  next hnative =>
    rw [if_pos hnative, ← Option.some.inj h]
    exact close_self v
  next hnative =>
    rw [if_neg hnative]
    -- both switches have a case, or neither
    generalize ((intConversions zone).lookup source).bind _ = f at h hrel
    generalize ((floatConversions zone).lookup source).bind _ = g at hrel ⊢
    cases hrel with
    | none =>
      rw [← Option.some.inj h]
      exact close_self v
    | some hagree => exact hagree hpair v r h

/-- An exception disagrees on some value. -/
theorem convert_not_close {zone : Zone} {userUnit : MetricUnit → MetricUnit}
    {source target : MetricUnit}
    (hpair : (source, checkTargetUnit userUnit source target) ∈ exceptions) :
    ∃ v r, intConvert zone userUnit source target v = some r ∧
      ¬Close r (floatConvert zone userUnit source target v) := by
  simp only [exceptions, List.mem_cons, Prod.mk.injEq, List.not_mem_nil, or_false] at hpair
  obtain ⟨rfl, htarget⟩ | ⟨rfl, htarget⟩ | ⟨rfl, htarget⟩ := hpair
  case inl =>
    -- a kilometer is no whole mile
    refine ⟨1, 0, ?_, ?_⟩
    · rw [intConvert, htarget]
      rfl
    · rw [floatConvert, htarget]
      change ¬Close 0 (kmToMiFloat 1 * feetPerMile)
      norm_num [Close, kmToMiFloat, feetPerMile_cast, abs_of_pos]
  case inr.inl =>
    -- a hundred feet are no whole mile
    refine ⟨100, 0, ?_, ?_⟩
    · rw [intConvert, htarget]
      rfl
    · rw [floatConvert, htarget]
      change ¬Close 0 (miToKmFloat (100 / feetPerMile) * 1000)
      norm_num [Close, miToKmFloat, feetPerMile_cast, abs_of_pos]
  case inr.inr =>
    refine ⟨1000, 277, ?_, ?_⟩
    · rw [intConvert, htarget]
      rfl
    · rw [floatConvert, htarget]
      change ¬Close 277 (1000 * 2.777778)
      norm_num [Close, abs_of_pos, abs_of_neg]

/-- **The integer and the float conversion agree, up to one and a thousandth of the result, on
every integer without an overflow if and only if the units are none of the three pairs.** -/
theorem convert_close_iff (zone : Zone) (userUnit : MetricUnit → MetricUnit)
    (source target : MetricUnit) :
    (∀ v r, intConvert zone userUnit source target v = some r →
        Close r (floatConvert zone userUnit source target v)) ↔
      (source, checkTargetUnit userUnit source target) ∉ exceptions := by
  constructor
  · intro hclose hpair
    obtain ⟨v, r, hr, hnot⟩ := @convert_not_close zone _ _ _ hpair
    exact hnot (hclose v r hr)
  · intro hpair v r hr
    exact convert_close hpair hr

/-- One kilometer is no foot as an integer, and 3280 feet as a float. -/
theorem not_convert_close_kilometer :
    ¬∀ (zone : Zone) (userUnit : MetricUnit → MetricUnit) (source target : MetricUnit) (v r : ℤ),
      intConvert zone userUnit source target v = some r →
        Close r (floatConvert zone userUnit source target v) := by
  intro hclose
  have hfoot := hclose ⟨id, id⟩ id kilometers feet 1 0 rfl
  change Close 0 (kmToMiFloat 1 * feetPerMile) at hfoot
  norm_num [Close, kmToMiFloat, feetPerMile_cast, abs_of_pos] at hfoot

end Ovms.Units
