import Ovms.Lib.Numeral
import Mathlib.Data.List.Infix

/-!
# Numbers in Text

The number formats of `printf` that the log formats use (`%d`, `%0*X`, `%x` and their like,
for values that are not negative), and `strtol`, by which they read numbers back. Text is a
list of bytes, without the terminator; what stands behind the end of a text reads as the
terminator.

A `long` has 32 bits: `strtol` answers the largest or the smallest for what is beyond.
-/

open Lib

namespace Ovms.Canlog

/-! ### Characters -/

/-- `isspace`. -/
def isSpace (c : UInt8) : Bool := c == 32 || (Nat.ble 9 c.toNat && Nat.ble c.toNat 13)

/-- `isdigit`. -/
def isDigit (c : UInt8) : Bool := Nat.ble 48 c.toNat && Nat.ble c.toNat 57

/-- The character of a digit. -/
def digitChar (upper : Bool) (d : ℕ) : UInt8 :=
  if d < 10 then .ofNat (48 + d) else if upper then .ofNat (55 + d) else .ofNat (87 + d)

/-- The digit of a character: decimal digits, and letters of either case. -/
def digitOf (c : UInt8) : Option ℕ :=
  let n := c.toNat
  if 48 ≤ n ∧ n ≤ 57 then some (n - 48)
  else if 65 ≤ n ∧ n ≤ 90 then some (n - 55)
  else if 97 ≤ n ∧ n ≤ 122 then some (n - 87)
  else none

/-- Whether a character is a digit of a base. -/
def isDigitOf (base : ℕ) (c : UInt8) : Bool :=
  match digitOf c with
  | some d => Nat.blt d base
  | none => false

/-- A digit is read from its character. -/
theorem digitOf_digitChar (upper : Bool) {d : ℕ} (h : d < 36) :
    digitOf (digitChar upper d) = some d := by
  have hsmall : ∀ n : ℕ, n < 256 → (UInt8.ofNat n).toNat = n := fun n hn =>
    UInt8.toNat_ofNat_of_lt' hn
  rw [digitChar]
  split
  · rw [digitOf, hsmall _ (by omega), if_pos (by omega), Nat.add_sub_cancel_left]
  · split
    · rw [digitOf, hsmall _ (by omega), if_neg (by omega), if_pos (by omega),
        Nat.add_sub_cancel_left]
    · rw [digitOf, hsmall _ (by omega), if_neg (by omega), if_neg (by omega), if_pos (by omega),
        Nat.add_sub_cancel_left]

/-! ### Printing -/

/-- A number as `printf` writes it, in a base, with zeros in front up to a width. -/
def print (upper : Bool) (base width n : ℕ) : List UInt8 :=
  (numeral base width n).map (digitChar upper)

theorem length_print (upper : Bool) {base width n : ℕ} (hbase : 1 < base) (hwidth : 0 < width)
    (h : n < base ^ width) : (print upper base width n).length = width := by
  rw [print, List.length_map, length_numeral hbase hwidth h]

theorem isDigitOf_of_mem_print {upper : Bool} {base width n : ℕ} {c : UInt8} (hbase : 1 < base)
    (hmax : base ≤ 36) (h : c ∈ print upper base width n) : isDigitOf base c = true := by
  rw [print, List.mem_map] at h
  obtain ⟨d, hd, rfl⟩ := h
  have hlt := lt_of_mem_numeral hbase hd
  rw [isDigitOf, digitOf_digitChar upper (Nat.lt_of_lt_of_le hlt hmax)]
  exact Nat.ble_eq_true_of_le hlt

theorem print_ne_nil (upper : Bool) (base width n : ℕ) : print upper base width n ≠ [] :=
  fun h => numeral_ne_nil base width n (List.map_eq_nil_iff.mp h)

/-! ### Reading -/

/-- What `strtol` answers: the value, the text behind it, and whether it was out of range. -/
structure Strtol where
  value : ℤ
  rest : List UInt8
  overflow : Bool
  deriving DecidableEq, Repr

/-- The sign in front of a number. -/
def readSign : List UInt8 → Bool × List UInt8
  | [] => (false, [])
  | c :: text =>
      if c = 45 then (true, text) else if c = 43 then (false, text) else (false, c :: text)

/-- The mark of a base-16 number, skipped only if a digit follows. -/
def skipMark (base : ℕ) : List UInt8 → List UInt8
  | zero :: mark :: c :: text =>
      if base = 16 ∧ zero = 48 ∧ (mark = 120 ∨ mark = 88) ∧ isDigitOf 16 c = true then c :: text
      else zero :: mark :: c :: text
  | text => text

/-- A number as a `long`. -/
def toLong (negative : Bool) (n : ℕ) : ℤ × Bool :=
  if negative then if n ≤ 2147483648 then (-n, false) else (-2147483648, true)
  else if n ≤ 2147483647 then (n, false) else (2147483647, true)

/-- `strtol`. Without a digit the value is 0, and the text behind it all of the text. -/
def strtol (base : ℕ) (text : List UInt8) : Strtol :=
  let signed := readSign (text.dropWhile isSpace)
  let body := skipMark base signed.2
  let digits := body.takeWhile (isDigitOf base)
  if digits = [] then ⟨0, text, false⟩
  else
    let long := toLong signed.1 (value base (digits.map fun c => (digitOf c).getD 0))
    ⟨long.1, body.dropWhile (isDigitOf base), long.2⟩

/-- Digits are no blanks. -/
theorem isSpace_of_isDigitOf {base : ℕ} {c : UInt8} (h : isDigitOf base c = true) :
    isSpace c = false := by
  rw [isDigitOf, digitOf] at h
  have hbig : 13 < c.toNat := by
    by_contra hsmall
    rw [if_neg (by omega), if_neg (by omega), if_neg (by omega)] at h
    cases h
  have hne : c ≠ 32 := by
    rintro rfl
    simp at h
  rw [isSpace, beq_eq_false_iff_ne.mpr hne, Bool.false_or, Bool.and_eq_false_iff]
  exact .inr (Bool.eq_false_iff.mpr fun hle => Nat.not_le_of_lt hbig (Nat.le_of_ble_eq_true hle))

theorem readSign_of_isDigitOf {base : ℕ} {c : UInt8} (h : isDigitOf base c = true)
    (text : List UInt8) : readSign (c :: text) = (false, c :: text) := by
  rw [readSign, if_neg, if_neg]
  · rintro rfl
    simp [isDigitOf, digitOf] at h
  · rintro rfl
    simp [isDigitOf, digitOf] at h

/-- No mark is skipped where there is none. -/
theorem skipMark_eq_self {base : ℕ} {text : List UInt8}
    (h : base = 16 → ∀ c ∈ text[1]?, c ≠ 120 ∧ c ≠ 88) : skipMark base text = text := by
  match text with
  | [] | [_] | [_, _] => rfl
  | zero :: mark :: c :: text =>
      refine if_neg ?_
      rintro ⟨hbase, -, hmark, -⟩
      obtain ⟨hlower, hupper⟩ := h hbase mark rfl
      exact hmark.elim hlower hupper

/-- The digits printed are the digits of the number. -/
theorem map_digitOf_print (upper : Bool) {base : ℕ} (hbase : 1 < base) (hmax : base ≤ 36)
    (width n : ℕ) :
    (print upper base width n).map (fun c => (digitOf c).getD 0) = numeral base width n := by
  rw [print, List.map_map]
  conv_rhs => rw [← List.map_id (numeral base width n)]
  refine List.map_congr_left fun d hd => ?_
  have hlt := lt_of_mem_numeral hbase hd
  change (digitOf (digitChar upper d)).getD 0 = d
  rw [digitOf_digitChar upper (Nat.lt_of_lt_of_le hlt hmax)]
  rfl

/-- **A number printed is read back**, as a `long`, up to what follows it, when that is a
blank or the end of the text. -/
theorem strtol_print (upper : Bool) {base : ℕ} (hbase : 1 < base) (hmax : base ≤ 36)
    {blanks rest : List UInt8} (hblanks : ∀ c ∈ blanks, isSpace c = true)
    (hrest : ∀ c ∈ rest.head?, c = 32) (width n : ℕ) :
    strtol base (blanks ++ (print upper base width n ++ rest)) =
      ⟨(toLong false n).1, rest, (toLong false n).2⟩ := by
  obtain ⟨c, cs, hprint⟩ := List.exists_cons_of_ne_nil (print_ne_nil upper base width n)
  have hdigit : ∀ d ∈ print upper base width n, isDigitOf base d = true := fun d =>
    isDigitOf_of_mem_print hbase hmax
  have hhead : isDigitOf base c = true := hdigit c (by rw [hprint]; exact List.mem_cons_self)
  have hblank : isDigitOf base 32 = false := rfl
  -- what follows the number starts with no digit
  have hstop : rest.takeWhile (isDigitOf base) = [] ∧ rest.dropWhile (isDigitOf base) = rest := by
    cases rest with
    | nil => exact ⟨rfl, rfl⟩
    | cons r rest =>
        obtain rfl : r = 32 := hrest r rfl
        rw [List.takeWhile_cons, List.dropWhile_cons, hblank]
        exact ⟨rfl, rfl⟩
  have hspace : (blanks ++ (print upper base width n ++ rest)).dropWhile isSpace =
      print upper base width n ++ rest := by
    rw [List.dropWhile_append_of_pos hblanks, hprint, List.cons_append,
      List.dropWhile_cons_of_neg]
    rw [isSpace_of_isDigitOf hhead]
    decide
  have hmark : skipMark base (print upper base width n ++ rest) =
      print upper base width n ++ rest := by
    refine skipMark_eq_self fun h16 d hd => ?_
    subst h16
    have hd' : isDigitOf 16 d = true ∨ d = 32 := by
      rw [hprint, List.cons_append, List.getElem?_cons_succ] at hd
      cases cs with
      | nil => exact .inr (hrest d (by rwa [List.nil_append, ← List.head?_eq_getElem?] at hd))
      | cons e cs =>
          obtain rfl : e = d := Option.some.inj hd
          exact .inl (hdigit e (by rw [hprint]; simp))
    constructor <;> rintro rfl <;> exact hd'.elim (by decide) (by decide)
  have hsign : readSign (print upper base width n ++ rest) =
      (false, print upper base width n ++ rest) := by
    rw [hprint, List.cons_append]
    exact readSign_of_isDigitOf hhead _
  rw [strtol, hspace, hsign, hmark, List.takeWhile_append_of_pos hdigit,
    List.dropWhile_append_of_pos hdigit, hstop.1, hstop.2, List.append_nil,
    if_neg (print_ne_nil upper base width n), map_digitOf_print upper hbase hmax, value_numeral]

theorem toLong_of_le {n : ℕ} (h : n ≤ 2147483647) : toLong false n = ((n : ℤ), false) := by
  rw [toLong, if_neg Bool.false_ne_true, if_pos h]

theorem strtol_print_append (upper : Bool) {base : ℕ} (hbase : 1 < base) (hmax : base ≤ 36)
    {rest : List UInt8} (hrest : ∀ c ∈ rest.head?, c = 32) (width : ℕ) {n : ℕ}
    (hn : n ≤ 2147483647) :
    strtol base (print upper base width n ++ rest) = ⟨n, rest, false⟩ := by
  have h := strtol_print upper hbase hmax (List.forall_mem_nil _) hrest width n
  rwa [toLong_of_le hn] at h

theorem strtol_print_self (upper : Bool) {base : ℕ} (hbase : 1 < base) (hmax : base ≤ 36)
    (width : ℕ) {n : ℕ} (hn : n ≤ 2147483647) :
    strtol base (print upper base width n) = ⟨n, [], false⟩ := by
  have hend : ∀ c ∈ ([] : List UInt8).head?, c = 32 := fun c h => by cases h
  have h := strtol_print_append upper hbase hmax hend width hn
  rwa [List.append_nil] at h

end Ovms.Canlog
