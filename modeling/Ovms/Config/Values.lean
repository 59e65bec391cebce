import Mathlib.Data.Int.Log
import Mathlib.Data.Rat.Floor
import Ovms.Config.File
import Ovms.ServerV2.Command

/-!
# Floating Point Numbers as Texts

A stream writes a floating point number with six significant digits, as `printf` does with `%g`:
without the zeros at their end, and with an exponent where the number is small or large.
-/

open Lib

namespace Ovms.Config

/-- The size of a `float`. -/
inductive Magnitude
  | nan
  | inf
  | finite (size : ℚ)

/-- A number rounded to a whole one, half way to an even one. -/
def roundEven (x : ℚ) : ℤ :=
  if x - ⌊x⌋ < 1 / 2 ∨ x - ⌊x⌋ = 1 / 2 ∧ ⌊x⌋ % 2 = 0 then ⌊x⌋ else ⌊x⌋ + 1

/-- Six digits of a positive number, and the exponent of the first. -/
def significant (size : ℚ) : ℕ × ℤ :=
  let exponent := Int.log 10 size
  let digits := (roundEven (size * 10 ^ (5 - exponent))).toNat
  if digits = 10 ^ 6 then (10 ^ 5, exponent + 1) else (digits, exponent)

/-- Digits behind a point, without the zeros at their end. -/
def fraction (digits : Text) : Text :=
  match (digits.reverse.dropWhile (· = 0x30)).reverse with
  | [] => []
  | digits => 0x2E :: digits

/-- `%g`: a stream writes six digits. -/
def printG (size : ℚ) : Text :=
  if size = 0 then ServerV2.ascii "0"
  else
    let (digits, exponent) := significant size
    let digits := Canlog.print false 10 6 digits
    if 0 ≤ exponent ∧ exponent < 6 then
      digits.take (exponent.toNat + 1) ++ fraction (digits.drop (exponent.toNat + 1))
    else if -4 ≤ exponent ∧ exponent < 0 then
      ServerV2.ascii "0" ++ fraction (List.replicate (-exponent - 1).toNat 0x30 ++ digits)
    else
      digits.take 1 ++ fraction (digits.drop 1) ++
        ServerV2.ascii (if exponent < 0 then "e-" else "e+") ++
        Canlog.print false 10 2 exponent.natAbs

/-- A `float` as a stream writes it. -/
def printFloat (negative : Bool) (magnitude : Magnitude) : Text :=
  (if negative then ServerV2.ascii "-" else []) ++
    match magnitude with
    | .nan => ServerV2.ascii "nan"
    | .inf => ServerV2.ascii "inf"
    | .finite size => printG size

example : printG (3 / 2) = ServerV2.ascii "1.5" := by decide +kernel

example : printG 12345678 = ServerV2.ascii "1.23457e+07" := by decide +kernel

end Ovms.Config
