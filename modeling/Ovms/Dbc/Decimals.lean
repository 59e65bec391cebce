import Mathlib.Data.Rat.Cast.Order
import Mathlib.Tactic.Ring
import Ovms.Dbc.Tokeniser

/-!
# Decimals in a DBC

A stream writes a `double` with six significant digits (`Config.printFloat`). The tokeniser reads
that text as an integer or as a floating point number, and in either case its value is the `double`
next to those six digits.
-/

open Lib
open Ovms.Canlog (isDigitOf print)
open Ovms.Config (fraction printG printFloat roundEven significant)
open Ovms.Location (IsSign Stops digitsValue isDigitOf_print scanExponent)
open Ovms.ServerV2 (ascii)

namespace Ovms.Dbc.File

variable {c : UInt8} {negative : Bool} {sign digits decimals exponent rest : Text} {x : ℤ}

/-- `double_val`. A `NAN` is no number here. -/
def doubleVal : Token → Option ℚ
  | .intVal n => some (toDouble n)
  | .doubleVal value => some value
  | _ => none

/-- What six significant digits say of a number. -/
def sixDigits (v : ℚ) : ℚ :=
  let size : ℚ := (significant |v|).1 * 10 ^ ((significant |v|).2 - 5)
  if v < 0 then -size else size

/-- `operator<<` of a number. -/
def printDouble (v : ℚ) : Text := printFloat (decide (v < 0)) (.finite |v|)

/-! ### Digits without the zeros at their end -/

/-- An exponent, which may be left out. -/
def IsExponent (exponent : Text) (x : ℤ) : Prop :=
  exponent = [] ∧ x = 0 ∨ ∃ negative sign digits, exponent = 0x65 :: (sign ++ digits) ∧
    IsSign negative sign ∧ digits ≠ [] ∧ (∀ c ∈ digits, isDigitOf 10 c = true) ∧
    x = if negative then -(digitsValue digits : ℤ) else digitsValue digits

/-- An exponent is read. -/
theorem IsExponent.scanExponent (h : IsExponent exponent x) (hrest : Apart rest) :
    scanExponent (exponent ++ rest) = (x, rest) := by
  rcases h with ⟨rfl, rfl⟩ | ⟨negative, sign, digits, rfl, hsign, hne, hdigits, rfl⟩
  · exact hrest.scanExponent
  · obtain ⟨d, ds, rfl⟩ := List.exists_cons_of_ne_nil hne
    have hread := readSign_append hsign (hdigits d List.mem_cons_self) (ds ++ rest)
    have htake := Location.takeWhile_digits hdigits hrest.stops
    have hdrop := Location.dropWhile_digits hdigits hrest.stops
    rw [List.cons_append] at htake hdrop
    rw [List.cons_append, List.append_assoc, List.cons_append, Location.scanExponent, hread]
    dsimp only
    rw [htake, hdrop, if_pos ⟨.inl rfl, hne⟩]

/-- No digit and no point. -/
theorem IsExponent.head (h : IsExponent exponent x) (hrest : Apart rest)
    (hc : c ∈ (exponent ++ rest).head?) : isDigitOf 10 c = false ∧ c ≠ 0x2E ∧ c ≠ 0x78 := by
  rcases h with ⟨rfl, -⟩ | ⟨negative, sign, digits, rfl, -⟩
  · refine ⟨(hrest.head hc).2.1, (hrest.head hc).2.2, ?_⟩
    rintro rfl
    exact hrest.notMem_head hc
  · obtain rfl := Option.some.inj hc
    decide

end Ovms.Dbc.File
