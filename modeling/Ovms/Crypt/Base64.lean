import Mathlib.Data.List.TakeWhile

/-!
# Base64

`base64encode` and `base64decode` (`components/crypto/crypt_base64.cpp`) on lists of bytes. The
decoder reads a string up to its terminator and passes over everything that is not a digit, the
padding too; the digits that are left at the end give one byte less than there are.
-/

namespace Ovms.Crypt

/-! ### Strings -/

/-- A string of the language C: the bytes before the first zero. -/
def cString (bytes : List UInt8) : List UInt8 := bytes.takeWhile (· ≠ 0)

theorem ne_zero_of_mem_cString {bytes : List UInt8} {c : UInt8} (h : c ∈ cString bytes) :
    c ≠ 0 := by
  simpa using List.mem_takeWhile_imp h

theorem cString_eq_self {bytes : List UInt8} (h : ∀ c ∈ bytes, c ≠ 0) : cString bytes = bytes := by
  refine List.takeWhile_eq_self_iff.mpr fun c hc => ?_
  simpa using h c hc

theorem cString_append_zero {front : List UInt8} (h : ∀ c ∈ front, c ≠ 0) (rest : List UInt8) :
    cString (front ++ 0 :: rest) = front := by
  have hfront : ∀ c ∈ front, decide (c ≠ 0) = true := fun c hc => by simpa using h c hc
  rw [cString, List.takeWhile_append_of_pos hfront, List.takeWhile_cons_of_neg (by decide),
    List.append_nil]

/-! ### The code -/

/-- `cb64`: `A`..`Z`, `a`..`z`, `0`..`9`, `+`, `/`. -/
def cb64 : List UInt8 :=
  [65, 66, 67, 68, 69, 70, 71, 72, 73, 74, 75, 76, 77, 78, 79, 80, 81, 82, 83, 84, 85, 86, 87, 88,
    89, 90, 97, 98, 99, 100, 101, 102, 103, 104, 105, 106, 107, 108, 109, 110, 111, 112, 113, 114,
    115, 116, 117, 118, 119, 120, 121, 122, 48, 49, 50, 51, 52, 53, 54, 55, 56, 57, 43, 47]

/-- `cd64`: for the characters from `+` to `z`, `$` or the value of the digit and 62. -/
def cd64 : List UInt8 :=
  [124, 36, 36, 36, 125, 114, 115, 116, 117, 118, 119, 120, 121, 122, 123, 36, 36, 36, 36, 36, 36,
    36, 62, 63, 64, 65, 66, 67, 68, 69, 70, 71, 72, 73, 74, 75, 76, 77, 78, 79, 80, 81, 82, 83, 84,
    85, 86, 87, 36, 36, 36, 36, 36, 36, 88, 89, 90, 91, 92, 93, 94, 95, 96, 97, 98, 99, 100, 101,
    102, 103, 104, 105, 106, 107, 108, 109, 110, 111, 112, 113]

/-- A digit. -/
def digit (value : UInt8) : UInt8 := cb64.getD value.toNat 0

/-- `encodeblock`. -/
def encodeblock (a b c : UInt8) (len : ℕ) : List UInt8 :=
  [digit (a >>> 2), digit ((a &&& 0x03) <<< 4 ||| (b &&& 0xf0) >>> 4),
    if 1 < len then digit ((b &&& 0x0f) <<< 2 ||| (c &&& 0xc0) >>> 6) else 61,
    if 2 < len then digit (c &&& 0x3f) else 61]

/-- `base64encode`. -/
def base64encode : List UInt8 → List UInt8
  | [] => []
  | [a] => encodeblock a 0 0 1
  | [a, b] => encodeblock a b 0 2
  | a :: b :: c :: rest => encodeblock a b c 3 ++ base64encode rest

/-- What a character stands for: nothing, if it is passed over. -/
def value (c : UInt8) : Option UInt8 :=
  let v := if c < 43 || 122 < c then 0 else cd64.getD (c.toNat - 43) 0
  let v := if v = 0 then 0 else if v = 36 then 0 else v - 61
  if v = 0 then none else some (v - 1)

/-- `decodeblock`. -/
def decodeblock (a b c d : UInt8) : List UInt8 :=
  [a <<< 2 ||| b >>> 4, b <<< 4 ||| c >>> 2, (c <<< 6) &&& 0xc0 ||| d]

/-- The loop of `base64decode` over the digits. -/
def decodeDigits : List UInt8 → List UInt8
  | [] => []
  | [a] => (decodeblock a 0 0 0).take 0
  | [a, b] => (decodeblock a b 0 0).take 1
  | [a, b, c] => (decodeblock a b c 0).take 2
  | a :: b :: c :: d :: rest => decodeblock a b c d ++ decodeDigits rest

/-- `base64decode`. -/
def base64decode (input : List UInt8) : List UInt8 :=
  decodeDigits ((cString input).filterMap value)

/-! ### Blocks -/

theorem forall_byte {p : UInt8 → Prop} (h : ∀ i : Fin 256, p (UInt8.ofFin i)) (a : UInt8) : p a :=
  h a.toFin

theorem digit_spec (a : UInt8) : a < 64 → value (digit a) = some a ∧ digit a ≠ 0 := by
  revert a
  exact forall_byte (by decide +kernel)

theorem value_digit (a : UInt8) (h : a < 64) : value (digit a) = some a := (digit_spec a h).1

theorem digit_ne_zero (a : UInt8) (h : a < 64) : digit a ≠ 0 := (digit_spec a h).2

theorem value_pad : value 61 = none := by decide

theorem parts_lt (x : UInt8) :
    x >>> 2 < 64 ∧ (x &&& 0x03) <<< 4 < 64 ∧ (x &&& 0xf0) >>> 4 < 64 ∧ (x &&& 0x0f) <<< 2 < 64 ∧
      (x &&& 0xc0) >>> 6 < 64 ∧ x &&& 0x3f < 64 := by
  revert x
  exact forall_byte (by decide +kernel)

theorem parts_join (x : UInt8) :
    (x >>> 2) <<< 2 ||| ((x &&& 0x03) <<< 4) >>> 4 = x ∧
      ((x &&& 0xf0) >>> 4) <<< 4 ||| ((x &&& 0x0f) <<< 2) >>> 2 = x ∧
      (((x &&& 0xc0) >>> 6) <<< 6) &&& 0xc0 ||| (x &&& 0x3f) = x := by
  revert x
  exact forall_byte (by decide +kernel)

theorem parts_shifted_out (x : UInt8) :
    ((x &&& 0xf0) >>> 4) >>> 4 = 0 ∧ ((x &&& 0x03) <<< 4) <<< 4 = 0 ∧
      ((x &&& 0xc0) >>> 6) >>> 2 = 0 ∧ ((x &&& 0x0f) <<< 2) <<< 6 = 0 := by
  revert x
  exact forall_byte (by decide +kernel)

theorem or_lt_64 {x y : UInt8} (hx : x < 64) (hy : y < 64) : x ||| y < 64 := by
  rw [UInt8.lt_iff_toNat_lt] at hx hy ⊢
  rw [UInt8.toNat_or]
  exact Nat.or_lt_two_pow (n := 6) hx hy

section Block

variable (a b c : UInt8)

/-- The second digit of a block, of the end of a byte and the start of the next. -/
def second : UInt8 := (a &&& 0x03) <<< 4 ||| (b &&& 0xf0) >>> 4

/-- The third digit of a block. -/
def third : UInt8 := (b &&& 0x0f) <<< 2 ||| (c &&& 0xc0) >>> 6

theorem first_lt : a >>> 2 < 64 := (parts_lt a).1

theorem second_lt : second a b < 64 := or_lt_64 (parts_lt a).2.1 (parts_lt b).2.2.1

theorem third_lt : third b c < 64 := or_lt_64 (parts_lt b).2.2.2.1 (parts_lt c).2.2.2.2.1

theorem fourth_lt : c &&& 0x3f < 64 := (parts_lt c).2.2.2.2.2

theorem decode_first : (a >>> 2) <<< 2 ||| second a b >>> 4 = a := by
  obtain ⟨hb, -⟩ := parts_shifted_out b
  rw [second, UInt8.shiftRight_or, hb, UInt8.or_zero, (parts_join a).1]

theorem decode_second : second a b <<< 4 ||| third b c >>> 2 = b := by
  obtain ⟨-, ha, -⟩ := parts_shifted_out a
  obtain ⟨-, -, hc, -⟩ := parts_shifted_out c
  rw [second, third, UInt8.shiftLeft_or, UInt8.shiftRight_or, ha, hc, UInt8.zero_or, UInt8.or_zero,
    (parts_join b).2.1]

theorem decode_third : (third b c <<< 6) &&& 0xc0 ||| (c &&& 0x3f) = c := by
  obtain ⟨-, -, -, hb⟩ := parts_shifted_out b
  rw [third, UInt8.shiftLeft_or, hb, UInt8.zero_or, (parts_join c).2.2]

end Block

/-! ### Round trip -/

/-- The digits of an encoding. -/
def digits : List UInt8 → List UInt8
  | [] => []
  | [a] => [a >>> 2, second a 0]
  | [a, b] => [a >>> 2, second a b, third b 0]
  | a :: b :: c :: rest => a >>> 2 :: second a b :: third b c :: (c &&& 0x3f) :: digits rest

/-- They give the bytes back. -/
theorem decodeDigits_digits (data : List UInt8) : decodeDigits (digits data) = data := by
  fun_induction digits data with
  | case1 => rfl
  | case2 a => simp [decodeDigits, decodeblock, decode_first]
  | case3 a b => simp [decodeDigits, decodeblock, decode_first, decode_second]
  | case4 a b c rest ih =>
    rw [decodeDigits, ih, decodeblock, decode_first, decode_second, decode_third]
    rfl

theorem encodeblock_eq (a b c : UInt8) (len : ℕ) :
    encodeblock a b c len =
      [digit (a >>> 2), digit (second a b), if 1 < len then digit (third b c) else 61,
        if 2 < len then digit (c &&& 0x3f) else 61] := rfl

/-- They are what the decoder reads. -/
theorem filterMap_base64encode (data : List UInt8) :
    (base64encode data).filterMap value = digits data := by
  fun_induction digits data with
  | case1 => rfl
  | case2 a =>
    rw [base64encode, encodeblock_eq, if_neg (by decide), if_neg (by decide)]
    simp only [List.filterMap_cons, value_digit _ (first_lt a), value_digit _ (second_lt a 0),
      value_pad, List.filterMap_nil]
  | case3 a b =>
    rw [base64encode, encodeblock_eq, if_pos (by decide), if_neg (by decide)]
    simp only [List.filterMap_cons, value_digit _ (first_lt a), value_digit _ (second_lt a b),
      value_digit _ (third_lt b 0), value_pad, List.filterMap_nil]
  | case4 a b c rest ih =>
    rw [base64encode, encodeblock_eq, if_pos (by decide), if_pos (by decide), List.filterMap_append,
      ih]
    simp only [List.filterMap_cons, value_digit _ (first_lt a), value_digit _ (second_lt a b),
      value_digit _ (third_lt b c), value_digit _ (fourth_lt c), List.filterMap_nil,
      List.cons_append, List.nil_append]

/-- A block has no zero in it. -/
theorem ne_zero_of_mem_encodeblock {a b c x : UInt8} {len : ℕ} (h : x ∈ encodeblock a b c len) :
    x ≠ 0 := by
  rw [encodeblock_eq] at h
  simp only [List.mem_cons, List.not_mem_nil, or_false] at h
  obtain rfl | rfl | rfl | rfl := h
  · exact digit_ne_zero _ (first_lt a)
  · exact digit_ne_zero _ (second_lt a b)
  · split
    · exact digit_ne_zero _ (third_lt b c)
    · decide
  · split
    · exact digit_ne_zero _ (fourth_lt c)
    · decide

/-- An encoding has no zero in it. -/
theorem ne_zero_of_mem_base64encode {data : List UInt8} {x : UInt8} (h : x ∈ base64encode data) :
    x ≠ 0 := by
  fun_induction base64encode data with
  | case1 => cases h
  | case2 | case3 => exact ne_zero_of_mem_encodeblock h
  | case4 a b c rest ih =>
    obtain h | h := List.mem_append.mp h
    · exact ne_zero_of_mem_encodeblock h
    · exact ih h

/-- **Decoding undoes encoding**, whatever follows that has no digits in it. -/
theorem base64decode_base64encode (data : List UInt8) {rest : List UInt8}
    (hrest : ∀ c ∈ rest, c ≠ 0 ∧ value c = none) :
    base64decode (base64encode data ++ rest) = data := by
  have hstring : cString (base64encode data ++ rest) = base64encode data ++ rest := by
    refine cString_eq_self fun c hc => ?_
    obtain hc | hc := List.mem_append.mp hc
    · exact ne_zero_of_mem_base64encode hc
    · exact (hrest c hc).1
  have hnone : rest.filterMap value = [] :=
    List.filterMap_eq_nil_iff.mpr fun c hc => (hrest c hc).2
  rw [base64decode, hstring, List.filterMap_append, hnone, List.append_nil, filterMap_base64encode,
    decodeDigits_digits]

/-- Digits give three bytes for four, and one byte less than they are where some are left. -/
theorem length_decodeDigits (values : List UInt8) :
    (decodeDigits values).length = values.length - (values.length + 3) / 4 := by
  fun_induction decodeDigits values with
  | case1 => rfl
  | case2 | case3 | case4 => simp [decodeblock]
  | case5 a b c d rest ih =>
    rw [List.length_append, ih, decodeblock]
    simp only [List.length_cons, List.length_nil]
    omega

/-- **A string that is not empty is longer than what it decodes to.** -/
theorem length_base64decode_lt {input : List UInt8} (h : input ≠ []) :
    (base64decode input).length < input.length := by
  have hdigits : ((cString input).filterMap value).length ≤ input.length :=
    (List.length_filterMap_le _ _).trans (List.takeWhile_prefix _).length_le
  have hpos : 0 < input.length := List.length_pos_iff.mpr h
  rw [base64decode, length_decodeDigits]
  omega

end Ovms.Crypt
