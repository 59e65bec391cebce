import Mathlib.Algebra.Ring.Int.Defs
import Mathlib.Algebra.Ring.Nat
import Mathlib.Order.Lattice

/-!
# Numbers of a DBC

`dbcNumber` (`components/dbc/src/dbc_number.cpp`) is a 32-bit integer, signed or not, or a
double, or nothing yet. Sums and products take the kind of the right operand, as far as it is
an integer, and are formed in its 32 bits: of two integers they are the right value modulo
`2 ^ 32`, read in the range of that kind.
-/

namespace Ovms.Dbc

/-- `dbcNumber`: its type and its value. -/
inductive DbcNumber
  | none
  | integerSigned (sintval : Int32)
  | integerUnsigned (uintval : UInt32)
  | double (doubleval : Float)
  deriving Repr

namespace DbcNumber

/-- `IsDefined`. -/
def isDefined : DbcNumber → Bool
  | none => false
  | _ => true

/-- `Set` of a double: a whole number becomes an integer. -/
def setDouble (value : Float) : DbcNumber :=
  if value.ceil == value then
    if value < 0 then integerSigned value.toInt32 else integerUnsigned value.toUInt32
  else double value

/-- `GetUnsignedInteger`. -/
def getUnsignedInteger : DbcNumber → UInt32
  | integerSigned sintval => sintval.toUInt32
  | integerUnsigned uintval => uintval
  | double doubleval => doubleval.toUInt32
  | none => 0

/-- `operator==` with an unsigned integer. -/
def eqUnsigned (m : DbcNumber) (value : UInt32) : Bool :=
  match m with
  | integerSigned sintval => decide (sintval ≥ 0) && value == sintval.toUInt32
  | integerUnsigned uintval => uintval == value
  | double doubleval => value.toFloat == doubleval
  | none => false

/-- `operator*`. -/
def mul (m value : DbcNumber) : DbcNumber :=
  match value, m with
  | integerSigned v, integerSigned s => integerSigned (s * v)
  | integerSigned v, integerUnsigned u => integerSigned (u.toInt32 * v)
  | integerSigned v, double d => setDouble (d * v.toFloat)
  | integerUnsigned v, integerSigned s => integerUnsigned (s.toUInt32 * v)
  | integerUnsigned v, integerUnsigned u => integerUnsigned (u * v)
  | integerUnsigned v, double d => setDouble (d * v.toFloat)
  | double v, integerSigned s => setDouble (s.toFloat * v)
  | double v, integerUnsigned u => setDouble (u.toFloat * v)
  | double v, double d => setDouble (d * v)
  | _, _ => integerUnsigned 0

/-- `operator+`. -/
def add (m value : DbcNumber) : DbcNumber :=
  match value, m with
  | integerSigned v, integerSigned s => integerSigned (s + v)
  | integerSigned v, integerUnsigned u => integerSigned (u.toInt32 + v)
  | integerSigned v, double d => setDouble (d + v.toFloat)
  | integerUnsigned v, integerSigned s => integerUnsigned (s.toUInt32 + v)
  | integerUnsigned v, integerUnsigned u => integerUnsigned (u + v)
  | integerUnsigned v, double d => setDouble (d + v.toFloat)
  | double v, integerSigned s => setDouble (s.toFloat + v)
  | double v, integerUnsigned u => setDouble (u.toFloat + v)
  | double v, double d => setDouble (d + v)
  | _, _ => integerUnsigned 0

/-! ### The integers they denote -/

/-- The integer that a number of an integer kind denotes. -/
def toInt : DbcNumber → Option ℤ
  | integerSigned sintval => some sintval.toInt
  | integerUnsigned uintval => some uintval.toNat
  | _ => Option.none

/-- Some integer kind can denote a value. -/
def Representable (r : ℤ) : Prop := -2 ^ 31 ≤ r ∧ r < 2 ^ 32

instance (r : ℤ) : Decidable (Representable r) := inferInstanceAs (Decidable (_ ∧ _))

/-- A value is in the range of the kind of a number. -/
def Fits (r : ℤ) : DbcNumber → Prop
  | integerSigned _ => -2 ^ 31 ≤ r ∧ r < 2 ^ 31
  | integerUnsigned _ => 0 ≤ r ∧ r < 2 ^ 32
  | _ => False

instance (r : ℤ) : (m : DbcNumber) → Decidable (Fits r m)
  | integerSigned _ => inferInstanceAs (Decidable (_ ∧ _))
  | integerUnsigned _ => inferInstanceAs (Decidable (_ ∧ _))
  | none => inferInstanceAs (Decidable False)
  | double _ => inferInstanceAs (Decidable False)

/-- A value modulo `2 ^ 32`, in the range of the kind of a number. -/
def wrap (r : ℤ) : DbcNumber → ℤ
  | integerSigned _ => r.bmod (2 ^ 32)
  | integerUnsigned _ => r % 2 ^ 32
  | _ => r

/-- Reading a value in a range keeps it when it is in the range. -/
theorem wrap_eq_iff {m : DbcNumber} {x r : ℤ} (h : m.toInt = some x) :
    wrap r m = r ↔ Fits r m := by
  cases m with
  | none => cases h
  | double => cases h
  | integerSigned =>
      rw [wrap, Fits]
      have hle := Int.le_bmod (x := r) (m := 2 ^ 32) (by decide)
      have hlt := Int.bmod_lt (x := r) (m := 2 ^ 32) (by decide)
      constructor
      · intro hr
        rw [hr] at hle hlt
        omega
      · intro hr
        exact Int.bmod_eq_of_le (by omega) (by omega)
  | integerUnsigned =>
      rw [wrap, Fits]
      omega

theorem toInt_toInt32 (u : UInt32) : u.toInt32.toInt = (u.toNat : ℤ).bmod (2 ^ 32) :=
  BitVec.toInt_eq_toNat_bmod u.toBitVec

theorem toNat_toUInt32 (s : Int32) : (s.toUInt32.toNat : ℤ) = s.toInt % 2 ^ 32 := by
  have h := toInt_toInt32 s.toUInt32
  rw [Int32.toInt32_toUInt32] at h
  have hlt := s.toUInt32.toNat_lt
  rw [h]
  have := Int.bmod_emod (x := (s.toUInt32.toNat : ℤ)) (m := 2 ^ 32)
  omega

/-- A sum of integers is the sum, read in the range of the right operand. -/
theorem toInt_add {a b : DbcNumber} {x y : ℤ} (ha : a.toInt = some x) (hb : b.toInt = some y) :
    (a.add b).toInt = some (wrap (x + y) b) := by
  cases a <;> cases b <;> simp only [toInt, Option.some.injEq, reduceCtorEq] at ha hb <;>
    subst ha hb
  · simp [add, toInt, wrap]
  · simp [add, toInt, wrap, toNat_toUInt32]
  · simp [add, toInt, wrap, toInt_toInt32]
  · simp [add, toInt, wrap]

/-- A product of integers is the product, read in the range of the right operand. -/
theorem toInt_mul {a b : DbcNumber} {x y : ℤ} (ha : a.toInt = some x) (hb : b.toInt = some y) :
    (a.mul b).toInt = some (wrap (x * y) b) := by
  cases a <;> cases b <;> simp only [toInt, Option.some.injEq, reduceCtorEq] at ha hb <;>
    subst ha hb
  · simp [mul, toInt, wrap]
  · simp [mul, toInt, wrap, toNat_toUInt32, Int.mul_emod]
  · simp [mul, toInt, wrap, toInt_toInt32]
  · simp [mul, toInt, wrap]

/-- **Sums and products of integers are exact when they are in the range of the right operand**:
of those that some integer kind can denote, a signed operand excludes the values from `2 ^ 31`
on, and an unsigned one those below zero. -/
theorem exact_iff_fits {a b : DbcNumber} {x y : ℤ} (ha : a.toInt = some x)
    (hb : b.toInt = some y) :
    (Representable (x + y) → ((a.add b).toInt = some (x + y) ↔ Fits (x + y) b)) ∧
      (Representable (x * y) → ((a.mul b).toInt = some (x * y) ↔ Fits (x * y) b)) := by
  rw [toInt_add ha hb, toInt_mul ha hb, Option.some.injEq, Option.some.injEq, wrap_eq_iff hb,
    wrap_eq_iff hb]
  exact ⟨fun _ => Iff.rfl, fun _ => Iff.rfl⟩

/-- Two less five, of a signed and an unsigned operand. -/
theorem exact_iff_fits_two_five :
    ((integerUnsigned 2).add (integerSigned (-5))).toInt = some (-3) ∧
      ((integerUnsigned 2).mul (integerSigned (-5))).toInt = some (-10) :=
  have h := exact_iff_fits (a := integerUnsigned 2) (b := integerSigned (-5)) rfl rfl
  ⟨(h.1 (by decide)).mpr (by decide), (h.2 (by decide)).mpr (by decide)⟩

/-- **The order of the operands matters**: five times minus one is minus five, minus one times
five is not. -/
theorem not_exact_neg_one :
    ¬ ∀ (a b : DbcNumber) (x y : ℤ), a.toInt = some x → b.toInt = some y →
      (Representable (x + y) → (a.add b).toInt = some (x + y)) ∧
        (Representable (x * y) → (a.mul b).toInt = some (x * y)) := by
  intro h
  have hmul := (h (integerSigned (-1)) (integerUnsigned 5) (-1) 5 rfl rfl).2 (by decide)
  revert hmul
  decide

end DbcNumber

end Ovms.Dbc
