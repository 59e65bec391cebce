import Mathlib.Logic.Function.Basic
import Ovms.Bms.Model

/-!
# The Tracker of a Series

What the tracking of battery cells is for: the readings of a series are kept until every cell has
had one, and another number of cells keeps those of the cells that are still there.
-/

namespace Ovms.Bms

/-! ### The tracker -/

/-- The readings that the cells of a series have had, and the series that are complete. -/
structure Tracker (F : Type) where
  limitmin : F
  limitmax : F
  cells : ℕ
  got : ℕ → Option F
  published : List (List F)

namespace Tracker

variable {F : Type}

/-- Every cell has had a reading. -/
def Full (k : Tracker F) : Prop := 0 < k.cells ∧ ∀ j < k.cells, (k.got j).isSome

instance (k : Tracker F) : Decidable k.Full := inferInstanceAs (Decidable (_ ∧ _))

/-- The next series starts. -/
def restart (k : Tracker F) : Tracker F := { k with got := fun _ => none }

/-- A series that is full is complete. -/
def settle (k : Tracker F) : Tracker F :=
  if k.Full then
    { k.restart with published := k.published ++ [(List.range k.cells).filterMap k.got] }
  else k

/-- So many cells, without readings. -/
def arrange (k : Tracker F) (cells : ℕ) : Tracker F := { k.restart with cells := cells }

/-- So many cells, with the readings of those that are still there. -/
def rearrange (k : Tracker F) (cells : ℕ) : Tracker F :=
  if cells = k.cells then k
  else settle { k.arrange cells with got := fun j => if j < cells then k.got j else none }

/-- The readings of the cells below a number. -/
def readings (k : Tracker F) (n : ℕ) : List (ℕ × F) :=
  (List.range n).filterMap fun j => (k.got j).map fun value => (j, value)

theorem readings_succ (k : Tracker F) (n : ℕ) :
    k.readings (n + 1) = k.readings n ++ ((k.got n).map fun value => (n, value)).toList := by
  rw [readings, readings, List.range_succ, List.filterMap_append]
  cases hgot : k.got n <;> simp [hgot]

/-- The tracker with the readings of the cells below a number, of so many. -/
def below (k : Tracker F) (cells n : ℕ) : Tracker F :=
  { k.arrange cells with got := fun j => if j < n then k.got j else none }

@[simp] theorem cells_settle (k : Tracker F) : k.settle.cells = k.cells := by
  rw [settle]
  split <;> rfl

@[simp] theorem cells_rearrange (k : Tracker F) (cells : ℕ) :
    (k.rearrange cells).cells = cells := by
  rw [rearrange]
  split
  · rename_i hcells
    exact hcells.symm
  · exact cells_settle _

theorem settle_below (k : Tracker F) {cells n : ℕ} (hn : n < cells) :
    (k.below cells n).settle = k.below cells n := by
  refine if_neg fun hfull => ?_
  have hsome := hfull.2 n hn
  simp [below] at hsome

/-- One more cell. -/
theorem below_succ (k : Tracker F) (cells n : ℕ) : k.below cells (n + 1) =
    { k.below cells n with got := Function.update (k.below cells n).got n (k.got n) } := by
  rw [below, below]
  congr 1
  funext j
  rcases lt_trichotomy j n with hlt | rfl | hgt
  · rw [Function.update_of_ne hlt.ne]
    simp [hlt, Nat.lt_succ_of_lt hlt]
  · simp
  · rw [Function.update_of_ne hgt.ne']
    simp [show ¬ j < n + 1 by omega, show ¬ j < n by omega]

variable [Arith F]

/-- A value is within the limits. -/
def Within (k : Tracker F) (value : F) : Prop := ¬ (value < k.limitmin ∨ k.limitmax < value)

instance (k : Tracker F) (value : F) : Decidable (k.Within value) :=
  inferInstanceAs (Decidable (¬ _))

/-- A reading. -/
def read (k : Tracker F) (index : ℤ) (value : F) : Tracker F :=
  if ¬ (index < 0 ∨ k.cells ≤ index) ∧ k.Within value then
    settle { k with got := Function.update k.got index.toNat (some value) }
  else k

@[simp] theorem cells_read (k : Tracker F) (index : ℤ) (value : F) :
    (k.read index value).cells = k.cells := by
  rw [read]
  split
  · exact cells_settle _
  · rfl

/-- What is called. -/
def perform (k : Tracker F) : SeriesOp F → Tracker F
  | .setCellArrangement readings _ => k.arrange readings
  | .checkChangeCellArrangement readings _ => k.rearrange readings
  | .setCell index value => k.read index value
  | .restart => k.restart
  | .reset => k.restart

omit [Arith F] in
theorem below_succ_of_none {k : Tracker F} {cells n : ℕ} (hgot : k.got n = none) :
    k.below cells (n + 1) = k.below cells n := by
  have hsame : Function.update (k.below cells n).got n none = (k.below cells n).got := by
    rw [Function.update_eq_self_iff]
    simp [below]
  rw [below_succ, hgot, hsame]

theorem read_below {k : Tracker F} {cells n : ℕ} {value : F} (hn : n < cells)
    (hwithin : k.Within value) (hgot : k.got n = some value) :
    (k.below cells n).read n value = (k.below cells (n + 1)).settle := by
  rw [below_succ, hgot]
  refine if_pos ⟨?_, hwithin⟩
  change ¬ ((n : ℤ) < 0 ∨ (cells : ℤ) ≤ n)
  omega

/-- The readings of the cells below a number, read again by as many cells or more. -/
theorem read_readings {k : Tracker F} (hwithin : ∀ j value, k.got j = some value →
    k.Within value) {cells n : ℕ} (hn : n ≤ cells) :
    (k.readings n).foldl (fun k c => k.read c.1 c.2) (k.arrange cells)
      = (k.below cells n).settle := by
  induction n with
  | zero =>
      have hnone : k.below cells 0 = k.arrange cells := rfl
      rw [hnone, settle, if_neg]
      · rfl
      · exact fun hfull => by cases hfull.2 0 hfull.1
  | succ n ih =>
      rw [readings_succ, List.foldl_append, ih (by omega), settle_below k hn]
      cases hgot : k.got n with
      | none =>
          rw [below_succ_of_none hgot]
          exact (settle_below k hn).symm
      | some value => exact read_below hn (hwithin n value hgot) hgot

/-- **Another number of cells**: the readings of the cells that are still there are read again. -/
theorem rearrange_eq {k : Tracker F} (hgot : ∀ j value, k.got j = some value →
    j < k.cells ∧ k.Within value) {cells : ℕ} (hne : cells ≠ k.cells) :
    (k.readings (min cells k.cells)).foldl (fun k c => k.read c.1 c.2) (k.arrange cells)
      = k.rearrange cells := by
  rw [read_readings (fun j value hj => (hgot j value hj).2) (Nat.min_le_left _ _),
    rearrange, if_neg hne]
  congr 1
  rw [below]
  congr 1
  funext j
  by_cases hj : j < cells
  · by_cases hcells : j < k.cells
    · simp [hj, hcells]
    · cases hnone : k.got j with
      | none => simp
      | some value => exact absurd (hgot j value hnone).1 hcells
  · simp [hj]

end Tracker

end Ovms.Bms
