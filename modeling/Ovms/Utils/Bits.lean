import Mathlib.Data.Nat.Bitwise

/-!
# Bit Fields

`get_uint_bits` and `get_int_bits` (`main/ovms_utils.h`) take a field of up to 16 bits out of a
word, each in a version for a field known at compile time and one for a field known at run time.
The signed ones extend the sign with `sign_extend`, which has the two versions as well.

The mask of the unsigned ones is one bit wider than the field. So the bit above the field is in
the result, if there is room for it; of a negative number it is a copy of the sign in any case.
-/

namespace Ovms.Utils

variable {w v k : ℕ}

/-- `sign_extend` with a sign bit that is known at run time. -/
def signExtend (v : ℕ) (uvalue : BitVec w) (signbit : ℕ) : BitVec v :=
  let newuvalue := uvalue.setWidth v
  let signmask := 1#w <<< signbit
  if newuvalue &&& signmask.setWidth v ≠ 0 then newuvalue ||| ~~~(signmask.setWidth v - 1)
  else newuvalue

/-- `sign_extend` with a sign bit that is known at compile time. -/
def signExtendConst (v signbit : ℕ) (uvalue : BitVec w) : BitVec v :=
  let newuvalue := uvalue.setWidth v
  if newuvalue &&& (1#w <<< signbit).setWidth v ≠ 0 then
    newuvalue ||| ~~~(1#v <<< signbit - 1)
  else newuvalue

/-- `get_uint_bits` with a field that is known at compile time. -/
def getUintBitsConst (bit bitlen : ℕ) (data : BitVec 32) : BitVec 16 :=
  (data >>> bit &&& (1#32 <<< (bitlen + 1) - 1)).setWidth 16

/-- `get_uint_bits` with a field that is known at run time. -/
def getUintBits (data : BitVec 32) (bit bitlen : ℕ) : BitVec 16 :=
  (data >>> bit &&& (1#32 <<< (bitlen + 1) - 1)).setWidth 16

/-- `get_int_bits` with a field that is known at compile time. -/
def getIntBitsConst (bit bitlen : ℕ) (data : BitVec 32) : BitVec 16 :=
  signExtendConst 16 (bitlen - 1) (getUintBitsConst bit bitlen data)

/-- `get_int_bits` with a field that is known at run time. -/
def getIntBits (data : BitVec 32) (bit bitlen : ℕ) : BitVec 16 :=
  signExtend 16 (getUintBits data bit bitlen) (bitlen - 1)

/-- The bits of a field. -/
def field (data : BitVec 32) (bit bitlen : ℕ) : BitVec bitlen := (data >>> bit).setWidth bitlen

theorem toNat_field (data : BitVec 32) (bit bitlen : ℕ) :
    (field data bit bitlen).toNat = data.toNat / 2 ^ bit % 2 ^ bitlen := by
  rw [field, BitVec.toNat_setWidth, BitVec.toNat_ushiftRight, Nat.shiftRight_eq_div_pow]

/-! ### Sign extension -/

theorem one_shiftLeft_eq_twoPow (v k : ℕ) : 1#v <<< k = BitVec.twoPow v k := rfl

theorem setWidth_signmask (hk : k < w) (hwv : w ≤ v) :
    (1#w <<< k).setWidth v = BitVec.twoPow v k := by
  refine BitVec.eq_of_getLsbD_eq fun i hi => ?_
  rw [BitVec.getLsbD_setWidth, one_shiftLeft_eq_twoPow, BitVec.getLsbD_twoPow,
    BitVec.getLsbD_twoPow, decide_eq_true hi, decide_eq_true hk,
    decide_eq_true (Nat.lt_of_lt_of_le hk hwv), Bool.true_and]

/-- The bits below a bit. -/
theorem getLsbD_twoPow_sub_one (hk : k < v) (i : ℕ) :
    (BitVec.twoPow v k - 1).getLsbD i = decide (i < k) := by
  have hlt : 2 ^ k < 2 ^ v := Nat.pow_lt_pow_right (by decide) hk
  have hone : (1 : BitVec v).toNat = 1 :=
    Nat.mod_eq_of_lt (Nat.one_lt_two_pow (Nat.ne_zero_of_lt hk))
  have hmask : (BitVec.twoPow v k).toNat = 2 ^ k := by
    rw [BitVec.toNat_twoPow, Nat.mod_eq_of_lt hlt]
  rw [← BitVec.testBit_toNat, BitVec.toNat_sub_of_le, hmask, hone, Nat.testBit_two_pow_sub_one]
  rw [BitVec.le_def, hmask, hone]
  exact Nat.one_le_two_pow

/-- The mask finds the sign. -/
theorem and_twoPow_ne_zero_iff (x : BitVec v) (hk : k < v) :
    x &&& BitVec.twoPow v k ≠ 0 ↔ x.getLsbD k = true := by
  rw [BitVec.and_twoPow]
  cases h : x.getLsbD k
  · exact iff_of_false (fun hne => hne (if_neg (by simp))) (by simp)
  · refine iff_of_true (fun heq => ?_) rfl
    rw [if_pos rfl] at heq
    have hbit := congrArg (·.getLsbD k) heq
    simp [hk] at hbit

theorem signExtend_eq (x : BitVec w) (hk : k < w) (hwv : w ≤ v) :
    signExtend v x k =
      if x.getLsbD k = true then x.setWidth v ||| ~~~(BitVec.twoPow v k - 1) else x.setWidth v := by
  have hkv : k < v := Nat.lt_of_lt_of_le hk hwv
  rw [signExtend, setWidth_signmask hk hwv]
  refine if_congr ?_ rfl rfl
  rw [and_twoPow_ne_zero_iff _ hkv, BitVec.getLsbD_setWidth, decide_eq_true hkv, Bool.true_and]

theorem signExtendConst_eq (x : BitVec w) (hk : k < w) (hwv : w ≤ v) :
    signExtendConst v k x = signExtend v x k := by
  rw [signExtendConst, signExtend, setWidth_signmask hk hwv]
  rfl

/-- **`sign_extend` reads the bits up to the sign bit**, exactly where that is set or no bit above
it is. -/
theorem signExtend_eq_iff (x : BitVec w) (hk : k < w) (hwv : w ≤ v) :
    signExtend v x k = (x.setWidth (k + 1)).signExtend v ↔
      x.getLsbD k = true ∨ ∀ i, k < i → x.getLsbD i = false := by
  have hkv : k < v := Nat.lt_of_lt_of_le hk hwv
  have hmsb : (x.setWidth (k + 1)).msb = x.getLsbD k := by
    rw [BitVec.msb_eq_getLsbD_last, Nat.add_sub_cancel, BitVec.getLsbD_setWidth,
      decide_eq_true (Nat.lt_succ_self k), Bool.true_and]
  have hbit : ∀ i, i < v → ((x.setWidth (k + 1)).signExtend v).getLsbD i =
      if i < k + 1 then x.getLsbD i else x.getLsbD k := by
    intro i hi
    rw [BitVec.getLsbD_signExtend, decide_eq_true hi, Bool.true_and, hmsb,
      BitVec.getLsbD_setWidth]
    split
    next hik => rw [decide_eq_true hik, Bool.true_and]
    next => rfl
  rw [signExtend_eq x hk hwv]
  cases hsign : x.getLsbD k
  · rw [if_neg (by simp)]
    constructor
    · intro heq
      refine .inr fun i hi => ?_
      by_cases hiv : i < v
      · have := congrArg (·.getLsbD i) heq
        rwa [hbit i hiv, if_neg (by omega), hsign, BitVec.getLsbD_setWidth, decide_eq_true hiv,
          Bool.true_and] at this
      · exact BitVec.getLsbD_of_ge x i (by omega)
    · rintro (h | h)
      · cases h
      · refine BitVec.eq_of_getLsbD_eq fun i hi => ?_
        rw [hbit i hi, BitVec.getLsbD_setWidth, decide_eq_true hi, Bool.true_and]
        split
        next => rfl
        next hik => rw [h i (by omega), hsign]
  · refine iff_of_true (BitVec.eq_of_getLsbD_eq fun i hi => ?_) (.inl rfl)
    rw [if_pos rfl, hbit i hi, hsign, BitVec.getLsbD_or, BitVec.getLsbD_not,
      getLsbD_twoPow_sub_one hkv, BitVec.getLsbD_setWidth, decide_eq_true hi, Bool.true_and,
      Bool.true_and]
    split
    next hik =>
      by_cases hlt : i < k
      · rw [decide_eq_true hlt, Bool.not_true, Bool.or_false]
      · obtain rfl : i = k := by omega
        rw [hsign, Bool.true_or]
    next hik => rw [decide_eq_false (by omega), Bool.not_false, Bool.or_true]

/-! ### Fields -/

section Fields

variable {bit len : ℕ} (data : BitVec 32)

theorem getLsbD_getUintBits (hlen : len ≤ 16) {i : ℕ} (hi : i < 16) :
    (getUintBits data bit len).getLsbD i = (data.getLsbD (bit + i) && decide (i < len + 1)) := by
  rw [getUintBits, BitVec.getLsbD_setWidth, decide_eq_true hi, Bool.true_and, BitVec.getLsbD_and,
    BitVec.getLsbD_ushiftRight, one_shiftLeft_eq_twoPow, getLsbD_twoPow_sub_one (by omega)]

theorem getLsbD_field (i : ℕ) :
    (field data bit len).getLsbD i = (decide (i < len) && data.getLsbD (bit + i)) := by
  rw [field, BitVec.getLsbD_setWidth, BitVec.getLsbD_ushiftRight]

theorem setWidth_getUintBits (hlen : len ≤ 16) :
    (getUintBits data bit len).setWidth len = field data bit len := by
  refine BitVec.eq_of_getLsbD_eq fun i hi => ?_
  rw [BitVec.getLsbD_setWidth, getLsbD_getUintBits data hlen (by omega), getLsbD_field,
    decide_eq_true hi, decide_eq_true (Nat.lt_succ_of_lt hi), Bool.true_and, Bool.and_true,
    Bool.true_and]

/-- **The unsigned field** is answered where there is no room for the bit above it, or it is
clear. -/
theorem getUintBits_eq_iff (hlen : len ≤ 16) :
    (getUintBits data bit len).toNat = (field data bit len).toNat ↔
      len = 16 ∨ data.getLsbD (bit + len) = false := by
  have hsame : (getUintBits data bit len).toNat = (field data bit len).toNat ↔
      getUintBits data bit len = (field data bit len).setWidth 16 := by
    rw [← BitVec.toNat_inj, BitVec.toNat_setWidth_of_le hlen]
  have hlow : ∀ i, i < len → i < 16 →
      (getUintBits data bit len).getLsbD i = ((field data bit len).setWidth 16).getLsbD i := by
    intro i hi hi16
    rw [getLsbD_getUintBits data hlen hi16, BitVec.getLsbD_setWidth, getLsbD_field,
      decide_eq_true hi, decide_eq_true hi16, decide_eq_true (Nat.lt_succ_of_lt hi), Bool.and_true,
      Bool.true_and, Bool.true_and]
  rw [hsame]
  constructor
  · intro heq
    by_cases h16 : len = 16
    · exact .inl h16
    · have hbit := congrArg (·.getLsbD len) heq
      rw [getLsbD_getUintBits data hlen (by omega), BitVec.getLsbD_setWidth, getLsbD_field,
        decide_eq_true (Nat.lt_succ_self len), decide_eq_false (Nat.lt_irrefl len)] at hbit
      exact .inr (by simpa using hbit)
  · intro hclear
    refine BitVec.eq_of_getLsbD_eq fun i hi => ?_
    by_cases hlt : i < len
    · exact hlow i hlt hi
    · rw [getLsbD_getUintBits data hlen hi, BitVec.getLsbD_setWidth, getLsbD_field,
        decide_eq_false hlt, Bool.false_and, Bool.and_false]
      by_cases heq : i = len
      · rw [heq] at hi ⊢
        rw [hclear.resolve_left (by omega), Bool.false_and]
      · rw [decide_eq_false (by omega), Bool.and_false]

/-- **The signed field** is answered where the unsigned one is, and where it is negative. -/
theorem getIntBits_eq_iff (hpos : 1 ≤ len) (hlen : len ≤ 16) :
    (getIntBits data bit len).toInt = (field data bit len).toInt ↔
      len = 16 ∨ data.getLsbD (bit + (len - 1)) = true ∨ data.getLsbD (bit + len) = false := by
  have hsucc : len - 1 + 1 = len := by omega
  have hsame : (getIntBits data bit len).toInt = (field data bit len).toInt ↔
      getIntBits data bit len =
        ((getUintBits data bit len).setWidth (len - 1 + 1)).signExtend 16 := by
    rw [hsucc, setWidth_getUintBits data hlen, ← BitVec.toInt_inj,
      BitVec.toInt_signExtend_of_le hlen]
  rw [hsame, getIntBits, signExtend_eq_iff _ (by omega) le_rfl,
    getLsbD_getUintBits data hlen (by omega), decide_eq_true (by omega), Bool.and_true]
  constructor
  · rintro (h | h)
    · exact .inr (.inl h)
    · by_cases h16 : len = 16
      · exact .inl h16
      · have hbit := h len (by omega)
        rw [getLsbD_getUintBits data hlen (by omega), decide_eq_true (Nat.lt_succ_self len),
          Bool.and_true] at hbit
        exact .inr (.inr hbit)
  · rintro (h | h | h)
    · exact .inr fun i hi => BitVec.getLsbD_of_ge _ i (by omega)
    · exact .inl h
    · refine .inr fun i hi => ?_
      by_cases hi16 : i < 16
      · rw [getLsbD_getUintBits data hlen hi16]
        by_cases heq : i = len
        · rw [heq, h, Bool.false_and]
        · rw [decide_eq_false (by omega), Bool.and_false]
      · exact BitVec.getLsbD_of_ge _ i (by omega)

theorem getUintBitsConst_eq : getUintBitsConst bit len data = getUintBits data bit len := rfl

theorem getIntBitsConst_eq (hpos : 1 ≤ len) (hlen : len ≤ 16) :
    getIntBitsConst bit len data = getIntBits data bit len := by
  rw [getIntBitsConst, signExtendConst_eq _ (by omega) le_rfl, getUintBitsConst_eq, getIntBits]

end Fields

/-- **When bit fields are exact**: the unsigned one where it has 16 bits or the bit above it is
clear, the signed one also where it is negative; in the versions for run time and for compile
time alike. -/
theorem bits_exact_iff (data : BitVec 32) (bit len : ℕ) (hpos : 1 ≤ len) (hlen : len ≤ 16) :
    ((getUintBits data bit len).toNat = data.toNat / 2 ^ bit % 2 ^ len ↔
        len = 16 ∨ data.getLsbD (bit + len) = false) ∧
      ((getUintBitsConst bit len data).toNat = data.toNat / 2 ^ bit % 2 ^ len ↔
        len = 16 ∨ data.getLsbD (bit + len) = false) ∧
      ((getIntBits data bit len).toInt = (field data bit len).toInt ↔
        len = 16 ∨ data.getLsbD (bit + (len - 1)) = true ∨ data.getLsbD (bit + len) = false) ∧
      ((getIntBitsConst bit len data).toInt = (field data bit len).toInt ↔
        len = 16 ∨ data.getLsbD (bit + (len - 1)) = true ∨ data.getLsbD (bit + len) = false) := by
  rw [getUintBitsConst_eq, getIntBitsConst_eq data hpos hlen, ← toNat_field]
  exact ⟨getUintBits_eq_iff data hlen, getUintBits_eq_iff data hlen,
    getIntBits_eq_iff data hpos hlen, getIntBits_eq_iff data hpos hlen⟩

/-- A field of four bits below a bit that is set. -/
theorem bits_exact_iff_nibble :
    ((getUintBits 0x10 0 4).toNat = 0x10 / 2 ^ 0 % 2 ^ 4 ↔
        4 = 16 ∨ (0x10 : BitVec 32).getLsbD (0 + 4) = false) ∧ 1 ≤ 4 ∧ 4 ≤ 16 :=
  ⟨(bits_exact_iff 0x10 0 4 (by decide) (by decide)).1, by decide, by decide⟩

/-- The bit above the field is in the result. -/
theorem not_bits_exact :
    (getUintBits 0x10 0 4).toNat ≠ 0x10 / 2 ^ 0 % 2 ^ 4 ∧
      (getIntBits 0x10 0 4).toInt ≠ (field 0x10 0 4).toInt := by
  decide

end Ovms.Utils
