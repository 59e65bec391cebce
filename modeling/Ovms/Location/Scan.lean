import Mathlib.Algebra.Order.Field.Rat
import Mathlib.Data.List.DropRight
import Mathlib.Data.Rat.Floor
import Mathlib.Tactic.Ring
import Ovms.Canlog.Text

/-!
# Scanning Numbers

The conversions of `sscanf` and `snprintf` with which locations are stored
(`components/ovms_location/src/ovms_location.cpp`). `%d` and `%u` read the same texts, a sign and
digits, but they do not agree on the value: with a sign in front, `%u` counts from the end of its
range, where `%d` stops at the least number. Coordinates are decimals, and carried exactly.
-/

open Lib Ovms.Canlog

namespace Ovms.Location

/-! ### Integers -/

/-- The number that a text of digits stands for. -/
def digitsValue (digits : List UInt8) : ℕ := value 10 (digits.map fun c => (digitOf c).getD 0)

/-- Blanks, a sign and digits: whether it is negative, the number, and the text behind it. -/
def scanDigits (text : List UInt8) : Option (Bool × ℕ × List UInt8) :=
  let signed := readSign (text.dropWhile isSpace)
  let digits := signed.2.takeWhile (isDigitOf 10)
  if digits = [] then none
  else some (signed.1, digitsValue digits, signed.2.dropWhile (isDigitOf 10))

/-- A number as an `unsigned long`, as `strtoul` answers it. -/
def toUlong (negative : Bool) (n : ℕ) : ℕ :=
  if 4294967295 < n then 4294967295
  else if negative then (4294967296 - n) % 4294967296
  else n

/-- `%d`. -/
def scanInt (text : List UInt8) : Option (ℤ × List UInt8) :=
  (scanDigits text).map fun r => ((toLong r.1 r.2.1).1, r.2.2)

/-- `%u`, into an `int`. -/
def scanUnsigned (text : List UInt8) : Option (ℤ × List UInt8) :=
  (scanDigits text).map fun r => (Int.bmod (toUlong r.1 r.2.1) 4294967296, r.2.2)

/-! ### Decimals -/

/-- A point, and the digits behind it. -/
def scanFraction : List UInt8 → List UInt8 × List UInt8
  | [] => ([], [])
  | c :: text =>
      if c = 46 then (text.takeWhile (isDigitOf 10), text.dropWhile (isDigitOf 10))
      else ([], c :: text)

/-- An exponent, if there is a complete one. -/
def scanExponent : List UInt8 → ℤ × List UInt8
  | [] => (0, [])
  | c :: text =>
      let signed := readSign text
      let digits := signed.2.takeWhile (isDigitOf 10)
      if (c = 101 ∨ c = 69) ∧ digits ≠ [] then
        (if signed.1 then -(digitsValue digits : ℤ) else digitsValue digits,
          signed.2.dropWhile (isDigitOf 10))
      else (0, c :: text)

/-- `%f`, for decimals. -/
def scanFloat (text : List UInt8) : Option (ℚ × List UInt8) :=
  let signed := readSign (text.dropWhile isSpace)
  let whole := signed.2.takeWhile (isDigitOf 10)
  let fraction := scanFraction (signed.2.dropWhile (isDigitOf 10))
  if whole = [] ∧ fraction.1 = [] then none
  else
    let exponent := scanExponent fraction.2
    let size : ℚ :=
      (digitsValue whole + digitsValue fraction.1 / 10 ^ fraction.1.length) * 10 ^ exponent.1
    some (if signed.1 then -size else size, exponent.2)

/-! ### Printing -/

/-- `%d`. -/
def printInt (z : ℤ) : List UInt8 :=
  (if z < 0 then [45] else []) ++ print false 10 1 z.natAbs

/-- The nearest number, the even one of two. -/
def roundEven (x : ℚ) : ℕ :=
  let n := x.floor.toNat
  if x - n < 1 / 2 ∨ x - n = 1 / 2 ∧ n % 2 = 0 then n else n + 1

/-- `%0.6f`. -/
def printFixed (x : ℚ) : List UInt8 :=
  let n := roundEven (|x| * 1000000)
  (if x < 0 then [45] else []) ++
    (print false 10 1 (n / 1000000) ++ 46 :: print false 10 6 (n % 1000000))

/-! ### The texts that are numbers -/

variable {negative : Bool} {n : ℕ} {text rest blanks sign digits : List UInt8}

/-- A sign, which may be left out. -/
def IsSign (negative : Bool) (sign : List UInt8) : Prop :=
  negative = false ∧ (sign = [] ∨ sign = [43]) ∨ negative = true ∧ sign = [45]

/-- The text is a number: blanks, a sign and digits. -/
def Signed (negative : Bool) (n : ℕ) (text : List UInt8) : Prop :=
  ∃ blanks sign digits, text = blanks ++ (sign ++ digits) ∧
    (∀ c ∈ blanks, isSpace c = true) ∧ IsSign negative sign ∧ digits ≠ [] ∧
    (∀ c ∈ digits, isDigitOf 10 c = true) ∧ n = digitsValue digits

/-- Nothing in a text continues a number. -/
def Stops (rest : List UInt8) : Prop := ∀ c ∈ rest.head?, isDigitOf 10 c = false

theorem takeWhile_digits (hdigits : ∀ c ∈ digits, isDigitOf 10 c = true) (hrest : Stops rest) :
    (digits ++ rest).takeWhile (isDigitOf 10) = digits := by
  rw [List.takeWhile_append_of_pos hdigits]
  cases rest with
  | nil => exact List.append_nil digits
  | cons c rest =>
      rw [List.takeWhile_cons, hrest c rfl]
      exact List.append_nil digits

theorem dropWhile_digits (hdigits : ∀ c ∈ digits, isDigitOf 10 c = true) (hrest : Stops rest) :
    (digits ++ rest).dropWhile (isDigitOf 10) = rest := by
  rw [List.dropWhile_append_of_pos hdigits]
  cases rest with
  | nil => rfl
  | cons c rest => rw [List.dropWhile_cons, hrest c rfl, if_neg Bool.false_ne_true]

/-- A sign is read, up to a digit. -/
theorem readSign_sign (hblanks : ∀ c ∈ blanks, isSpace c = true) (hsign : IsSign negative sign)
    {c : UInt8} (hc : isDigitOf 10 c = true) (body : List UInt8) :
    readSign ((blanks ++ (sign ++ c :: body)).dropWhile isSpace) = (negative, c :: body) := by
  rw [List.dropWhile_append_of_pos hblanks]
  rcases hsign with ⟨rfl, rfl | rfl⟩ | ⟨rfl, rfl⟩
  · rw [List.nil_append, List.dropWhile_cons_of_neg
      (fun h => Bool.false_ne_true ((isSpace_of_isDigitOf hc).symm.trans h))]
    exact readSign_of_isDigitOf hc body
  · rfl
  · rfl

/-- A number is read, up to something else. -/
theorem Signed.scanDigits (h : Signed negative n text) (hrest : Stops rest) :
    scanDigits (text ++ rest) = some (negative, n, rest) := by
  obtain ⟨blanks, sign, digits, rfl, hblanks, hsign, hne, hdigits, rfl⟩ := h
  obtain ⟨c, cs, rfl⟩ := List.exists_cons_of_ne_nil hne
  have hc : isDigitOf 10 c = true := hdigits c List.mem_cons_self
  have htext : blanks ++ (sign ++ c :: cs) ++ rest = blanks ++ (sign ++ c :: (cs ++ rest)) := by
    simp only [List.append_assoc, List.cons_append]
  have htake := takeWhile_digits hdigits hrest
  have hdrop := dropWhile_digits hdigits hrest
  rw [List.cons_append] at htake hdrop
  rw [Location.scanDigits, htext, readSign_sign hblanks hsign hc]
  rw [htake, hdrop, if_neg hne]

theorem exists_of_readSign {body : List UInt8} (h : readSign text = (negative, body)) :
    ∃ sign, IsSign negative sign ∧ text = sign ++ body := by
  cases text with
  | nil =>
      cases h
      exact ⟨[], .inl ⟨rfl, .inl rfl⟩, rfl⟩
  | cons c text =>
      rw [readSign] at h
      split at h
      · next hc =>
          cases h
          exact ⟨[45], .inr ⟨rfl, rfl⟩, by rw [hc]; rfl⟩
      · split at h
        · next hc =>
            cases h
            exact ⟨[43], .inl ⟨rfl, .inr rfl⟩, by rw [hc]; rfl⟩
        · cases h
          exact ⟨[], .inl ⟨rfl, .inl rfl⟩, rfl⟩

/-- What is read is a number, and something else follows. -/
theorem exists_of_scanDigits (h : scanDigits text = some (negative, n, rest)) :
    ∃ number, text = number ++ rest ∧ Signed negative n number ∧ Stops rest := by
  rw [scanDigits] at h
  obtain ⟨⟨negative', body⟩, hread⟩ :
    ∃ signed, readSign (text.dropWhile isSpace) = signed := ⟨_, rfl⟩
  obtain ⟨sign, hsign, hbody⟩ := exists_of_readSign hread
  rw [hread] at h
  split at h
  · cases h
  · next hne =>
      cases h
      refine ⟨text.takeWhile isSpace ++ (sign ++ body.takeWhile (isDigitOf 10)), ?_,
        ⟨_, _, _, rfl, fun c hc => List.mem_takeWhile_imp hc, hsign, hne,
          fun c hc => List.mem_takeWhile_imp hc, rfl⟩, ?_⟩
      · rw [List.append_assoc, List.append_assoc, List.takeWhile_append_dropWhile, ← hbody,
          List.takeWhile_append_dropWhile]
      · intro c hc
        have hnot := List.head?_dropWhile_not (isDigitOf 10) body
        rw [Option.mem_def.mp hc] at hnot
        exact hnot

theorem digitsValue_print (width n : ℕ) : digitsValue (print false 10 width n) = n := by
  rw [digitsValue, map_digitOf_print false (by decide) (by decide), value_numeral]

theorem isDigitOf_print {width n : ℕ} : ∀ c ∈ print false 10 width n, isDigitOf 10 c = true :=
  fun _ hc => isDigitOf_of_mem_print (by decide) (by decide) hc

/-- A number that is printed is one. -/
theorem signed_printInt (z : ℤ) : Signed (decide (z < 0)) z.natAbs (printInt z) := by
  refine ⟨[], _, _, rfl, List.forall_mem_nil _, ?_, print_ne_nil false 10 1 _, isDigitOf_print,
    (digitsValue_print 1 _).symm⟩
  by_cases h : z < 0
  · rw [if_pos h]
    exact .inr ⟨decide_eq_true h, rfl⟩
  · rw [if_neg h]
    exact .inl ⟨decide_eq_false h, .inl rfl⟩

/-- A minus sign makes a number negative. -/
theorem Signed.mem_minus_iff (h : Signed negative n text) : 45 ∈ text ↔ negative = true := by
  obtain ⟨blanks, sign, digits, rfl, hblanks, hsign, -, hdigits, -⟩ := h
  have hblank : (45 : UInt8) ∉ blanks := fun hmem =>
    absurd (hblanks 45 hmem) (by decide)
  have hdigit : (45 : UInt8) ∉ digits := fun hmem =>
    absurd (hdigits 45 hmem) (by decide)
  rw [List.mem_append, List.mem_append, or_iff_right hblank, or_iff_left hdigit]
  rcases hsign with ⟨rfl, rfl | rfl⟩ | ⟨rfl, rfl⟩ <;> simp

theorem Signed.semicolon_notMem (h : Signed negative n text) : 59 ∉ text := by
  obtain ⟨blanks, sign, digits, rfl, hblanks, hsign, -, hdigits, -⟩ := h
  rw [List.mem_append, List.mem_append]
  rintro (hmem | hmem | hmem)
  · exact absurd (hblanks 59 hmem) (by decide)
  · rcases hsign with ⟨-, rfl | rfl⟩ | ⟨-, rfl⟩ <;> simp at hmem
  · exact absurd (hdigits 59 hmem) (by decide)

theorem Signed.unique (h : Signed negative n text) {negative' : Bool} {n' : ℕ}
    (h' : Signed negative' n' text) : negative = negative' ∧ n = n' := by
  have hstops : Stops [] := fun c hc => absurd hc (by simp)
  have hsame := (h.scanDigits hstops).symm.trans (h'.scanDigits hstops)
  obtain ⟨hnegative, hn⟩ := Prod.mk.inj (Option.some.inj hsame)
  exact ⟨hnegative, (Prod.mk.inj hn).1⟩

/-- **Both conversions**: what `%u` takes for a number of some size is one for `%d` exactly if it
has no minus sign. -/
theorem toLong_of_toUlong (h : 100 ≤ Int.bmod (toUlong negative n) 4294967296) :
    100 ≤ (toLong negative n).1 ↔ negative = false := by
  cases negative with
  | false =>
      refine iff_of_true ?_ rfl
      rw [toUlong] at h
      rw [toLong, if_neg Bool.false_ne_true]
      split at h
      · exact absurd h (by decide)
      · rw [if_neg Bool.false_ne_true, Int.bmod_def] at h
        split <;> omega
  | true =>
      refine iff_of_false ?_ Bool.noConfusion
      rw [toLong, if_pos rfl]
      split <;> dsimp only <;> omega

/-- A number of its range is itself. -/
theorem scanUnsigned_printInt {k : ℕ} (hk : k ≤ 2147483647) (hrest : Stops rest) :
    scanUnsigned (printInt k ++ rest) = some ((k : ℤ), rest) := by
  have hdigits := (signed_printInt k).scanDigits hrest
  rw [decide_eq_false (Int.not_lt.mpr (Int.natCast_nonneg k)), Int.natAbs_natCast] at hdigits
  have hulong : toUlong false k = k := by
    rw [toUlong, if_neg (by omega), if_neg Bool.false_ne_true]
  have hbmod : Int.bmod (k : ℤ) 4294967296 = k := by
    rw [Int.bmod_def]
    split <;> omega
  rw [scanUnsigned, hdigits, Option.map_some]
  dsimp only
  rw [hulong, hbmod]

/-! ### Decimals are read back -/

theorem roundEven_natCast (n : ℕ) : roundEven n = n := by
  have hfloor : ((n : ℚ).floor).toNat = n := by
    rw [← Int.cast_natCast, Rat.floor_intCast, Int.toNat_natCast]
  rw [roundEven, hfloor, sub_self]
  exact if_pos (.inl (by norm_num))

theorem abs_millionths (m : ℤ) : |(m : ℚ) / 1000000| * 1000000 = (m.natAbs : ℚ) := by
  rw [abs_div, abs_of_pos (by norm_num : (0 : ℚ) < 1000000), div_mul_cancel₀ _ (by norm_num),
    Nat.cast_natAbs, Int.cast_abs]

theorem printFixed_millionths (m : ℤ) : printFixed ((m : ℚ) / 1000000) =
    (if m < 0 then [45] else []) ++ (print false 10 1 (m.natAbs / 1000000) ++
      46 :: print false 10 6 (m.natAbs % 1000000)) := by
  have hneg : (m : ℚ) / 1000000 < 0 ↔ m < 0 := by
    rw [div_lt_iff₀ (by norm_num), zero_mul, Int.cast_lt_zero]
  rw [printFixed, abs_millionths, roundEven_natCast, if_congr hneg rfl rfl]

theorem add_millionths (n : ℕ) :
    ((n / 1000000 : ℕ) : ℚ) + ((n % 1000000 : ℕ) : ℚ) / 10 ^ 6 = (n : ℚ) / 1000000 := by
  have hn : (n : ℚ) = 1000000 * (n / 1000000 : ℕ) + (n % 1000000 : ℕ) := by
    exact_mod_cast (Nat.div_add_mod n 1000000).symm
  rw [hn]
  ring

theorem stops_cons {c : UInt8} (h : isDigitOf 10 c = false) (rest : List UInt8) :
    Stops (c :: rest) := fun d hd => by
  obtain rfl := Option.some.inj hd
  exact h

/-- The digits of a decimal, up to a comma. -/
theorem scanFloat_digits {whole fraction : List UInt8} (hsign : IsSign negative sign)
    (hne : whole ≠ []) (hwhole : ∀ c ∈ whole, isDigitOf 10 c = true)
    (hfraction : ∀ c ∈ fraction, isDigitOf 10 c = true) (rest : List UInt8) :
    scanFloat (sign ++ (whole ++ 46 :: (fraction ++ 44 :: rest))) =
      let size : ℚ := digitsValue whole + digitsValue fraction / 10 ^ fraction.length
      some (if negative then -size else size, 44 :: rest) := by
  obtain ⟨c, cs, rfl⟩ := List.exists_cons_of_ne_nil hne
  have hc : isDigitOf 10 c = true := hwhole c List.mem_cons_self
  have hstops : Stops (46 :: (fraction ++ 44 :: rest)) := stops_cons rfl _
  have htake := takeWhile_digits hwhole hstops
  have hdrop := dropWhile_digits hwhole hstops
  have hscan : scanFraction (46 :: (fraction ++ 44 :: rest)) = (fraction, 44 :: rest) := by
    rw [scanFraction, if_pos rfl, takeWhile_digits hfraction (stops_cons rfl _),
      dropWhile_digits hfraction (stops_cons rfl _)]
  have hexponent : scanExponent (44 :: rest) = (0, 44 :: rest) := by
    rw [scanExponent]
    exact if_neg fun h => absurd h.1 (by decide)
  have hread := readSign_sign (List.forall_mem_nil _) hsign hc
    (cs ++ 46 :: (fraction ++ 44 :: rest))
  rw [List.nil_append, ← List.cons_append] at hread
  rw [scanFloat, hread]
  dsimp only
  rw [htake, hdrop, hscan, if_neg (fun h => hne h.1), hexponent]
  dsimp only
  rw [zpow_zero, mul_one]

/-- **A decimal** of at most six fraction digits is read back, up to a comma. -/
theorem scanFloat_printFixed (m : ℤ) (rest : List UInt8) :
    scanFloat (printFixed ((m : ℚ) / 1000000) ++ 44 :: rest) =
      some ((m : ℚ) / 1000000, 44 :: rest) := by
  have hsign : IsSign (decide (m < 0)) (if m < 0 then [45] else []) := by
    by_cases h : m < 0
    · rw [if_pos h]
      exact .inr ⟨decide_eq_true h, rfl⟩
    · rw [if_neg h]
      exact .inl ⟨decide_eq_false h, .inl rfl⟩
  have hlength : (print false 10 6 (m.natAbs % 1000000)).length = 6 :=
    length_print false (by decide) (by decide) (Nat.mod_lt _ (by decide))
  rw [printFixed_millionths, List.append_assoc, List.append_assoc, List.cons_append,
    scanFloat_digits hsign (print_ne_nil false 10 1 _) isDigitOf_print isDigitOf_print,
    digitsValue_print, digitsValue_print, hlength, add_millionths]
  dsimp only
  congr 2
  by_cases h : m < 0
  · rw [if_pos (decide_eq_true h), ← neg_div, Nat.cast_natAbs, abs_of_neg h, Int.cast_neg,
      neg_neg]
  · rw [if_neg (fun hlt => h (of_decide_eq_true hlt)), Nat.cast_natAbs,
      abs_of_nonneg (Int.not_lt.mp h)]

theorem scanFloat_dropWhile (text : List UInt8) :
    scanFloat (text.dropWhile isSpace) = scanFloat text := by
  rw [scanFloat, List.dropWhile_idempotent]
  rfl

theorem scanUnsigned_dropWhile (text : List UInt8) :
    scanUnsigned (text.dropWhile isSpace) = scanUnsigned text := by
  rw [scanUnsigned, scanDigits, List.dropWhile_idempotent]
  rfl

/-! ### Lengths -/

theorem length_print_le {k d : ℕ} (hd : 1 ≤ d) (h : k < 10 ^ d) :
    (print false 10 1 k).length ≤ d := by
  have hle : (numeral 10 1 k).length ≤ max (max 1 1) d := length_numeral_le (by decide) h
  rw [print, List.length_map]
  omega

theorem length_printFixed_le (m : ℤ) {d : ℕ} (hd : 1 ≤ d) (h : m.natAbs / 1000000 < 10 ^ d) :
    (printFixed ((m : ℚ) / 1000000)).length ≤ d + 8 := by
  have hwhole := length_print_le hd h
  have hfraction : (print false 10 6 (m.natAbs % 1000000)).length = 6 :=
    length_print false (by decide) (by decide) (Nat.mod_lt _ (by decide))
  rw [printFixed_millionths, List.length_append, List.length_append, List.length_cons, hfraction]
  split <;> simp only [List.length_cons, List.length_nil] <;> omega

theorem length_printInt_le {k d : ℕ} (hd : 1 ≤ d) (h : k < 10 ^ d) :
    (printInt k).length ≤ d := by
  rw [printInt, if_neg (Int.not_lt.mpr (Int.natCast_nonneg k)), List.nil_append,
    Int.natAbs_natCast]
  exact length_print_le hd h

end Ovms.Location
