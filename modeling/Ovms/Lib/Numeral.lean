import Mathlib.Data.Nat.Digits.Lemmas

/-!
# Numerals of a Width

Numbers written in a base, most significant digit first, with zeros in front up to a width,
and read back. A number never takes fewer than one digit, and takes more than the width
when it does not fit.
-/

namespace Lib

/-- The digits of a number, most significant first, with zeros in front up to a width. -/
def numeral (base width n : ℕ) : List ℕ :=
  List.leftpad (max width 1) 0 (Nat.digits base n).reverse

/-- The number that digits stand for, most significant first. -/
def value (base : ℕ) (ds : List ℕ) : ℕ := ds.foldl (fun acc d => acc * base + d) 0

theorem value_append_singleton (base : ℕ) (ds : List ℕ) (d : ℕ) :
    value base (ds ++ [d]) = value base ds * base + d := by
  rw [value, List.foldl_append]
  rfl

/-- A number with a first digit other than zero is not zero. -/
theorem value_cons_pos {base d : ℕ} (hbase : 0 < base) (hd : 0 < d) (ds : List ℕ) :
    0 < value base (d :: ds) := by
  have hfold : ∀ (ds : List ℕ) (acc : ℕ), 0 < acc →
      0 < ds.foldl (fun acc d => acc * base + d) acc := by
    intro ds
    induction ds with
    | nil => exact fun acc h => h
    | cons d ds ih => exact fun acc h => ih _ (Nat.add_pos_left (Nat.mul_pos h hbase) d)
  exact hfold ds _ (Nat.add_pos_right _ hd)

theorem value_reverse (base : ℕ) (ds : List ℕ) :
    value base ds.reverse = Nat.ofDigits base ds := by
  induction ds with
  | nil => rfl
  | cons d ds ih =>
      rw [List.reverse_cons, value_append_singleton, ih, Nat.ofDigits_cons, Nat.mul_comm,
        Nat.add_comm]

theorem value_replicate_append (base k : ℕ) (ds : List ℕ) :
    value base (List.replicate k 0 ++ ds) = value base ds := by
  induction k with
  | zero => rfl
  | succ k ih =>
      rw [List.replicate_succ, List.cons_append, value, List.foldl_cons, Nat.zero_mul]
      exact ih

/-- **A numeral is read back as its number.** -/
theorem value_numeral (base width n : ℕ) : value base (numeral base width n) = n := by
  rw [numeral, List.leftpad, value_replicate_append, value_reverse, Nat.ofDigits_digits]

theorem lt_of_mem_numeral {base width n d : ℕ} (hbase : 1 < base)
    (h : d ∈ numeral base width n) : d < base := by
  rw [numeral, List.leftpad, List.mem_append, List.mem_replicate, List.mem_reverse] at h
  rcases h with ⟨-, rfl⟩ | h
  · exact Nat.zero_lt_of_lt hbase
  · exact Nat.digits_lt_base hbase h

theorem length_numeral_eq_max (base width n : ℕ) :
    (numeral base width n).length = max (max width 1) (Nat.digits base n).length := by
  rw [numeral, List.leftpad, List.length_append, List.length_replicate, List.length_reverse]
  omega

/-- **A number that fits takes the width.** -/
theorem length_numeral {base width n : ℕ} (hbase : 1 < base) (hwidth : 0 < width)
    (h : n < base ^ width) : (numeral base width n).length = width := by
  have hdigits := (Nat.digits_length_le_iff hbase n).mpr h
  rw [length_numeral_eq_max]
  omega

theorem length_numeral_le {base width n k : ℕ} (hbase : 1 < base) (h : n < base ^ k) :
    (numeral base width n).length ≤ max (max width 1) k := by
  have hdigits := (Nat.digits_length_le_iff hbase n).mpr h
  rw [length_numeral_eq_max]
  omega

theorem numeral_succ {base width n : ℕ} (hbase : 1 < base) (hwidth : 0 < width)
    (h : n < base ^ width) : numeral base (width + 1) n = 0 :: numeral base width n := by
  have hdigits := (Nat.digits_length_le_iff hbase n).mpr h
  rw [numeral, numeral, List.leftpad, List.leftpad, List.length_reverse, Nat.max_eq_left hwidth,
    Nat.max_eq_left (Nat.succ_le_succ (Nat.zero_le _)), Nat.succ_sub hdigits, List.replicate_succ,
    List.cons_append]

/-- A number that is a digit takes one digit. -/
theorem numeral_one {base n : ℕ} (h : n < base) : numeral base 1 n = [n] := by
  cases n with
  | zero =>
      rw [numeral, Nat.digits_zero]
      rfl
  | succ n =>
      rw [numeral, Nat.digits_of_lt base (n + 1) (Nat.succ_ne_zero n) h]
      rfl

theorem numeral_ne_nil (base width n : ℕ) : numeral base width n ≠ [] := by
  intro h
  have := length_numeral_eq_max base width n
  rw [h, List.length_nil] at this
  omega

/-- A numeral of two digits is the two halves of a number below the square of the base. -/
theorem numeral_two {base n : ℕ} (hbase : 1 < base) (h : n < base ^ 2) :
    numeral base 2 n = [n / base, n % base] := by
  have hlen := length_numeral hbase Nat.two_pos h
  have hvalue := value_numeral base 2 n
  match hds : numeral base 2 n with
  | [] | [_] | _ :: _ :: _ :: _ =>
      rw [hds] at hlen
      simp at hlen
  | [high, low] =>
      have hlow : low < base := lt_of_mem_numeral hbase (by rw [hds]; simp)
      have hn : high * base + low = n := by
        rw [← hvalue, hds, value]
        simp
      have hdiv : n / base = high := by
        rw [← hn, Nat.mul_comm, Nat.mul_add_div (by omega), Nat.div_eq_of_lt hlow, Nat.add_zero]
      have hmod : n % base = low := by
        rw [← hn, Nat.mul_comm, Nat.mul_add_mod, Nat.mod_eq_of_lt hlow]
      rw [hdiv, hmod]

end Lib
