import Mathlib.Algebra.Order.Floor.Ring
import Mathlib.Algebra.Order.Ring.Abs
import Mathlib.Data.Rat.Floor
import Mathlib.Tactic.IntervalCases
import Mathlib.Tactic.Linarith
import Mathlib.Tactic.NormNum
import Ovms.Can.Frame

/-!
# Values in OBD2 Replies

The replies to requests for a PID (`components/obd2ecu/src/obd2ecu.cpp`): a value is written into
two bytes, by the inverse of a formula for each format. Values are taken as exact numbers.

Formats 3 and 6 cut off the fraction before they scale the value, the others afterwards.
-/

open Ovms.Can

namespace Ovms.Obd2ecu

/-! ### The formulas -/

/-- The formulas of the numeric formats, for the bytes A and B. -/
def formula (format : ℕ) (a b : UInt8) : ℚ :=
  match format with
  | 1 => a.toNat
  | 2 => 100 * a.toNat / 255
  | 3 => (256 * a.toNat + b.toNat) / 4
  | 4 => a.toNat - 40
  | 5 => 256 * a.toNat + b.toNat
  | 6 => (256 * a.toNat + b.toNat) / 100
  | 7 => a.toNat * 3
  | 8 => a.toNat / 2 - 64
  | 9 => 100 * a.toNat / 128 - 100
  | _ => 0

/-- The formats that use both bytes. -/
def TwoBytes (format : ℕ) : Prop := format = 3 ∨ format = 5 ∨ format = 6

instance : DecidablePred TwoBytes := fun _ => inferInstanceAs (Decidable (_ ∨ _ ∨ _))

/-- The least value of a format. -/
def least (format : ℕ) : ℚ := formula format 0 0

/-- The greatest one. -/
def greatest (format : ℕ) : ℚ := formula format 255 255

/-- What the next code adds to the value. -/
def quantum (format : ℕ) : ℚ :=
  if TwoBytes format then formula format 0 1 - formula format 0 0
  else formula format 1 0 - formula format 0 0

/-! ### The reply -/

/-- A floating point number becomes an `int`. -/
def toInt (x : ℚ) : ℤ := if 0 ≤ x then ⌊x⌋ else ⌈x⌉

/-- An `int` becomes a byte. -/
def toByte (z : ℤ) : UInt8 := UInt8.ofNat (z % 256).toNat

/-- The byte above it. -/
def highByte (z : ℤ) : UInt8 := toByte (z / 256)

/-- The bytes A, B, C and D. -/
structure DataBytes where
  a : UInt8 := 0
  b : UInt8 := 0
  c : UInt8 := 0
  d : UInt8 := 0

/-- The bytes for a value. -/
def dataBytes (data : ℚ) (format : ℕ) : DataBytes :=
  match format with
  | 1 => { a := toByte (toInt data) }
  | 2 => { a := toByte (toInt (data * 255 / 100)) }
  | 3 =>
      if 16383.75 < data then { a := 0xFF, b := 0xFF }
      else { a := highByte (toInt data * 4), b := toByte (toInt data * 4) }
  | 4 => { a := toByte (toInt data + 40) }
  | 5 => { a := highByte (toInt data), b := toByte (toInt data) }
  | 6 =>
      if 655.35 < data then { a := 0xFF, b := 0xFF }
      else { a := highByte (toInt data * 100), b := toByte (toInt data * 100) }
  | 7 => { a := toByte (toInt (data / 3)) }
  | 8 => { a := toByte (toInt ((data + 64) * 2)) }
  | 9 => { a := toByte (toInt ((data + 100) * 1.28)) }
  | 10 =>
      { a := toByte (toInt data / 0x1000000)
        b := toByte (toInt data / 0x10000)
        c := highByte (toInt data)
        d := toByte (toInt data) }
  | _ => {}

/-- `RESPONSE_PID`. -/
def responsePid : UInt32 := 0x7E8

/-- `obd2ecu::FillFrame`. The frame is of no bus. -/
def fillFrame (reply : UInt32) (pid : UInt8) (data : ℚ) (format : ℕ) : CanFrame :=
  let bytes := dataBytes data format
  .zeroFilled 0 (if reply ≠ responsePid then .ext else .std) reply 8
    [6, 0x41, pid, bytes.a, bytes.b, bytes.c, bytes.d, 0x55]

/-! ### What a reader gets -/

/-- Between the least and the greatest value of the format, a reader gets the value up to less than
the resolution; above it, formats 3 and 6 send the greatest code. -/
def CarriesValue (data : ℚ) (format : ℕ) (frame : CanFrame) : Prop :=
  (least format ≤ data → data ≤ greatest format →
    |formula format (frame.u8 3) (frame.u8 4) - data| < quantum format) ∧
  (format = 3 ∨ format = 6 → greatest format < data →
    frame.u8 3 = 0xFF ∧ frame.u8 4 = 0xFF)

/-! ### Bytes -/

@[simp] theorem toNat_one : (1 : UInt8).toNat = 1 := rfl

@[simp] theorem toNat_max : (255 : UInt8).toNat = 255 := rfl

theorem toNat_toByte {z : ℤ} (h : 0 ≤ z) (h' : z < 256) : ((toByte z).toNat : ℚ) = z := by
  have hlt : z.toNat < 256 := by omega
  rw [toByte, Int.emod_eq_of_lt h h', UInt8.toNat_ofNat_of_lt' hlt]
  have hz : ((z.toNat : ℤ) : ℚ) = z := by rw [Int.toNat_of_nonneg h]
  exact_mod_cast hz

theorem highByte_add_toByte {z : ℤ} (h : 0 ≤ z) (h' : z < 65536) :
    256 * ((highByte z).toNat : ℚ) + (toByte z).toNat = z := by
  have hlow : toByte z = toByte (z % 256) := by rw [toByte, toByte, Int.emod_emod]
  rw [highByte, hlow, toNat_toByte (by omega) (by omega), toNat_toByte (by omega) (by omega)]
  have hz : 256 * (z / 256) + z % 256 = z := Int.mul_ediv_add_emod z 256
  exact_mod_cast hz

/-! ### One format after the other -/

section Formats

variable {data x q o : ℚ}

theorem toInt_of_nonneg (h : 0 ≤ x) : toInt x = ⌊x⌋ := if_pos h

theorem abs_toInt_sub_lt (x : ℚ) : |(toInt x : ℚ) - x| < 1 := by
  have hfloor := Int.floor_le x
  have hfloor' := Int.lt_floor_add_one x
  have hceil := Int.le_ceil x
  have hceil' := Int.ceil_lt_add_one x
  rw [abs_lt, toInt]
  split <;> constructor <;> linarith

theorem abs_floor_sub_lt (hq : 0 < q) (hdata : data = x * q + o) :
    |(⌊x⌋ : ℚ) * q + o - data| < q := by
  have hsub : (⌊x⌋ : ℚ) * q + o - data = -(Int.fract x * q) := by
    rw [hdata, Int.fract]
    ring
  have hlt : Int.fract x * q < q := mul_lt_of_lt_one_left hq (Int.fract_lt_one x)
  rwa [hsub, abs_neg, abs_of_nonneg (mul_nonneg (Int.fract_nonneg x) hq.le)]

theorem abs_toByte_sub_lt (hq : 0 < q) (hdata : data = x * q + o) (h : 0 ≤ x) (h' : x ≤ 255) :
    |((toByte (toInt x)).toNat : ℚ) * q + o - data| < q := by
  have hpos : 0 ≤ ⌊x⌋ := Int.floor_nonneg.mpr h
  have hlt : ⌊x⌋ < 256 := Int.floor_lt.mpr (by push_cast; linarith)
  rw [toInt_of_nonneg h, toNat_toByte hpos hlt]
  exact abs_floor_sub_lt hq hdata

/-- A value whose fraction is cut off before it is scaled, in two bytes. -/
theorem highByte_add_toByte_scaled {k : ℤ} (hk : 0 < k) (h : 0 ≤ data) (h' : data ≤ 65535 / k) :
    (256 * ((highByte (toInt data * k)).toNat : ℚ) + (toByte (toInt data * k)).toNat) / k =
      ⌊data⌋ := by
  have hkq : (0 : ℚ) < k := by exact_mod_cast hk
  have hpos : 0 ≤ ⌊data⌋ * k := mul_nonneg (Int.floor_nonneg.mpr h) hk.le
  have hle : ((⌊data⌋ * k : ℤ) : ℚ) ≤ (65535 : ℤ) := by
    push_cast
    rw [le_div_iff₀ hkq] at h'
    exact (mul_le_mul_of_nonneg_right (Int.floor_le data) hkq.le).trans h'
  have hlt : ⌊data⌋ * k < 65536 := Int.lt_add_one_of_le (by exact_mod_cast hle)
  rw [toInt_of_nonneg h, highByte_add_toByte hpos hlt]
  push_cast
  exact mul_div_cancel_right₀ _ hkq.ne'

theorem abs_floor_sub (data : ℚ) : |(⌊data⌋ : ℚ) - data| = Int.fract data := by
  rw [abs_sub_comm, Int.self_sub_floor, abs_of_nonneg (Int.fract_nonneg data)]

end Formats

/-! ### When a value comes back -/

/-- A reader gets the value up to less than the resolution. -/
def Near (data : ℚ) (format : ℕ) : Prop :=
  |formula format (dataBytes data format).a (dataBytes data format).b - data| < quantum format

section Formats

variable {format : ℕ} {data x q o : ℚ}

/-- A format of one byte that scales the value first. -/
theorem near_of_scaled (hq : 0 < q) (hformula : ∀ a b, formula format a b = a.toNat * q + o)
    (htwo : ¬ TwoBytes format) (hbyte : (dataBytes data format).a = toByte (toInt x))
    (hdata : data = x * q + o) (h : least format ≤ data) (h' : data ≤ greatest format) :
    Near data format := by
  have hquantum : quantum format = q := by
    rw [quantum, if_neg htwo, hformula, hformula]
    norm_num
  have hpos : 0 * q ≤ x * q := by
    rw [least, hformula, hdata] at h
    norm_num at h
    rwa [zero_mul]
  have hle : x * q ≤ 255 * q := by
    rw [greatest, hformula, hdata] at h'
    norm_num at h'
    exact h'
  rw [Near, hformula, hquantum, hbyte]
  exact abs_toByte_sub_lt hq hdata (le_of_mul_le_mul_right hpos hq) (le_of_mul_le_mul_right hle hq)

/-- The format with an offset of 40, which is added behind the cut. -/
theorem near_four (h : least 4 ≤ data) (h' : data ≤ greatest 4) : Near data 4 := by
  have hcut := abs_lt.mp (abs_toInt_sub_lt data)
  norm_num [least, greatest, formula] at h h'
  have hlow : (-41 : ℚ) < toInt data := by linarith
  have hhigh : (toInt data : ℚ) < 216 := by linarith
  have hpos : 0 ≤ toInt data + 40 := by
    have hlow' : (-41 : ℤ) < toInt data := by exact_mod_cast hlow
    omega
  have hlt : toInt data + 40 < 256 := by
    have hhigh' : toInt data < (216 : ℤ) := by exact_mod_cast hhigh
    omega
  have hquantum : quantum 4 = 1 := by norm_num [quantum, TwoBytes, formula]
  have hvalue : formula 4 (toByte (toInt data + 40)) 0 = toInt data := by
    rw [formula, toNat_toByte hpos hlt]
    push_cast
    ring
  rw [Near, hquantum]
  change |formula 4 (toByte (toInt data + 40)) 0 - data| < 1
  rw [hvalue]
  exact abs_toInt_sub_lt data

/-- The formats of two bytes cut off the fraction first. -/
theorem near_iff_of_twoBytes {k : ℤ} (hk : 0 < k)
    (hformula : ∀ a b, formula format a b = (256 * a.toNat + b.toNat) / k)
    (ha : data ≤ greatest format → (dataBytes data format).a = highByte (toInt data * k))
    (hb : data ≤ greatest format → (dataBytes data format).b = toByte (toInt data * k))
    (h : least format ≤ data) (h' : data ≤ greatest format) :
    Near data format ↔ Int.fract data < quantum format := by
  have hpos : 0 ≤ data := by
    rw [least, hformula] at h
    norm_num at h
    exact h
  have hle : data ≤ 65535 / k := by
    have hmax := h'
    rw [greatest, hformula] at hmax
    norm_num at hmax
    exact hmax
  rw [Near, ha h', hb h', hformula, highByte_add_toByte_scaled hk hpos hle, abs_floor_sub]

end Formats

/-- Formats that scale the value first. -/
theorem near_of_ne {format : ℕ} (hformat : 1 ≤ format ∧ format ≤ 9) (h3 : format ≠ 3)
    (h6 : format ≠ 6) {data : ℚ} (h : least format ≤ data) (h' : data ≤ greatest format) :
    Near data format := by
  obtain ⟨hlow, hhigh⟩ := hformat
  interval_cases format
  case «1» =>
    exact near_of_scaled (q := 1) (o := 0) one_pos (fun a b => by rw [formula]; ring) (by decide)
      rfl (by ring) h h'
  case «2» =>
    exact near_of_scaled (q := 100 / 255) (o := 0) (by norm_num) (fun a b => by rw [formula]; ring)
      (by decide) rfl (by ring) h h'
  case «3» => exact absurd rfl h3
  case «4» => exact near_four h h'
  case «5» =>
    rw [near_iff_of_twoBytes one_pos (fun a b => by rw [formula, Int.cast_one, div_one])
      (fun _ => by rw [mul_one]; rfl) (fun _ => by rw [mul_one]; rfl) h h']
    norm_num [quantum, TwoBytes, formula]
    exact Int.fract_lt_one data
  case «6» => exact absurd rfl h6
  case «7» =>
    exact near_of_scaled (q := 3) (o := 0) (by norm_num) (fun a b => by rw [formula]; ring)
      (by decide) rfl (by ring) h h'
  case «8» =>
    exact near_of_scaled (q := 1 / 2) (o := -64) (by norm_num) (fun a b => by rw [formula]; ring)
      (by decide) rfl (by ring) h h'
  case «9» =>
    exact near_of_scaled (q := 100 / 128) (o := -100) (by norm_num)
      (fun a b => by rw [formula]; ring) (by decide) rfl (by norm_num; ring) h h'

/-- Formats that cut off the fraction first. -/
theorem near_iff {format : ℕ} (hformat : format = 3 ∨ format = 6) {data : ℚ}
    (h : least format ≤ data) (h' : data ≤ greatest format) :
    Near data format ↔ Int.fract data < quantum format := by
  rcases hformat with rfl | rfl
  · have hbytes : data ≤ greatest 3 → dataBytes data 3 =
        { a := highByte (toInt data * 4), b := toByte (toInt data * 4) } := by
      intro hle
      refine if_neg (not_lt.mpr (hle.trans_eq ?_))
      norm_num [greatest, formula]
    exact near_iff_of_twoBytes (k := 4) (by decide) (fun a b => by rw [formula]; norm_num)
      (fun hle => by rw [hbytes hle]) (fun hle => by rw [hbytes hle]) h h'
  · have hbytes : data ≤ greatest 6 → dataBytes data 6 =
        { a := highByte (toInt data * 100), b := toByte (toInt data * 100) } := by
      intro hle
      refine if_neg (not_lt.mpr (hle.trans_eq ?_))
      norm_num [greatest, formula]
    exact near_iff_of_twoBytes (k := 100) (by decide) (fun a b => by rw [formula]; norm_num)
      (fun hle => by rw [hbytes hle]) (fun hle => by rw [hbytes hle]) h h'

theorem dataBytes_of_greatest_lt {format : ℕ} (hformat : format = 3 ∨ format = 6) {data : ℚ}
    (h : greatest format < data) : dataBytes data format = { a := 0xFF, b := 0xFF } := by
  rcases hformat with rfl | rfl
  · refine if_pos (lt_of_eq_of_lt ?_ h)
    norm_num [greatest, formula]
  · refine if_pos (lt_of_eq_of_lt ?_ h)
    norm_num [greatest, formula]

/-- **When a reply carries its value**: for every numeric format and every value, exactly if the
format scales before it cuts off the fraction, or the fraction is less than its resolution. -/
theorem carriesValue_iff (reply : UInt32) (pid : UInt8) (data : ℚ) {format : ℕ}
    (hformat : 1 ≤ format ∧ format ≤ 9) :
    CarriesValue data format (fillFrame reply pid data format) ↔
      (format = 3 ∨ format = 6 → least format ≤ data → data ≤ greatest format →
        Int.fract data < quantum format) := by
  constructor
  · rintro ⟨hnear, -⟩ hcut h h'
    exact (near_iff hcut h h').mp (hnear h h')
  · intro hfract
    refine ⟨fun h h' => ?_, fun hcut h => ?_⟩
    · change Near data format
      by_cases hcut : format = 3 ∨ format = 6
      · exact (near_iff hcut h h').mpr (hfract hcut h h')
      · exact near_of_ne hformat (mt .inl hcut) (mt .inr hcut) h h'
    · change (dataBytes data format).a = 0xFF ∧ (dataBytes data format).b = 0xFF
      rw [dataBytes_of_greatest_lt hcut h]
      exact ⟨rfl, rfl⟩

theorem carriesValue_half : CarriesValue (1 / 2) 3 (fillFrame responsePid 0x0C (1 / 2) 3) ↔
    ((3 = 3 ∨ 3 = 6) → least 3 ≤ 1 / 2 → 1 / 2 ≤ greatest 3 →
      Int.fract (1 / 2 : ℚ) < quantum 3) :=
  carriesValue_iff responsePid 0x0C (1 / 2) (by decide)

/-- Half a revolution is sent as none, though the format has quarters. -/
theorem not_carriesValue : ¬ CarriesValue (1 / 2) 3 (fillFrame responsePid 0x0C (1 / 2) 3) := by
  rintro ⟨hnear, -⟩
  have h : least 3 ≤ 1 / 2 := by norm_num [least, formula]
  have h' : 1 / 2 ≤ greatest 3 := by norm_num [greatest, formula]
  have hfract := (near_iff (.inl rfl) h h').mp (hnear h h')
  norm_num [quantum, TwoBytes, formula, Int.fract] at hfract

end Ovms.Obd2ecu
