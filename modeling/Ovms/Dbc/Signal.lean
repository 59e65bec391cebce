import Ovms.Dbc.Number
import Ovms.Dbc.Extract
import Mathlib.Data.Nat.Bitwise

/-!
# Decoding a Signal

`dbcSignal::Decode` (`components/dbc/src/dbc.cpp`) extracts the bits of a signal from a message,
reads them as a number of the signal's type, and applies its factor and its offset. Before that
it compares the end of the signal with the size of the message, and leaves the number undefined
for a signal that does not fit. The end that it compares is the start bit and the size, counted
upwards. That is where a little endian signal ends; a big endian one ends up to seven bits
before or after it, with the place of its start bit in the byte.

## Main results

* `toInt_signExtend`: a bit pattern as two's complement of its size.
* `extract_and_decode`: **the extraction is right, and decoding as well, of a big endian signal
  when it ends in the message counted upwards too**.
* `decode_within_iff`: **decoding stays in the message, and leaves out only what is outside,
  exactly when the bounds agree**.
-/

namespace Ovms.Dbc

/-! ### The signal -/

/-- `dbcValueType_t`. -/
inductive ValueType
  | unsigned | signed
  deriving DecidableEq, Repr

/-- The members of `dbcSignal` that say how it is decoded. -/
structure DbcSignal where
  startBit : Int32
  signalSize : Int32
  byteOrder : ByteOrder
  valueType : ValueType
  factor : DbcNumber
  offset : DbcNumber
  deriving Repr

/-- `sign_extend`, from 32 bits to 32. -/
def signExtend (uvalue : UInt32) (signbit : UInt8) : Int32 :=
  let signmask := (1 : UInt32) <<< signbit.toUInt32
  (if uvalue &&& signmask ≠ 0 then uvalue ||| ~~~(signmask - 1) else uvalue).toInt32

namespace DbcSignal

/-- The start bit as the loops take it. -/
def bpos (s : DbcSignal) : ℕ := s.startBit.toUInt32.toNat

/-- The size as the loops take it. -/
def bits (s : DbcSignal) : ℕ := s.signalSize.toUInt32.toNat

/-- The number that the extracted bits stand for. -/
def value (s : DbcSignal) (val : UInt64) : DbcNumber :=
  match s.valueType with
  | .unsigned => .integerUnsigned val.toUInt32
  | .signed => .integerSigned (signExtend val.toUInt32 (s.signalSize - 1).toUInt32.toUInt8)

/-- The end of `Decode`: the factor and the offset. -/
def scale (s : DbcSignal) (result : DbcNumber) : DbcNumber :=
  let result := if !s.factor.eqUnsigned 1 then result.mul s.factor else result
  if !s.offset.eqUnsigned 0 then result.add s.offset else result

/-- The comparison of `Decode` with the size of the message. -/
def exceeds (s : DbcSignal) (size : UInt8) : Bool :=
  decide ((s.startBit + s.signalSize + 7) / 8 > Int32.ofNat size.toNat)

/-- `Decode`. Without a result it reads a byte that is not in the message. -/
def decode (s : DbcSignal) (msg : List UInt8) (size : UInt8) : Option DbcNumber :=
  if size = 0 then some s.offset
  else if s.exceeds size then some .none
  else (extract s.byteOrder msg s.bpos s.bits).map fun val => s.scale (s.value val)

/-! ### Defined values -/

theorem isDefined_setDouble (value : Float) : (DbcNumber.setDouble value).isDefined = true := by
  rw [DbcNumber.setDouble]
  split
  · split <;> rfl
  · rfl

/-- Factor and offset leave a number. -/
theorem isDefined_scale (s : DbcSignal) {result : DbcNumber} (h : result.isDefined = true) :
    (s.scale result).isDefined = true := by
  have hmul (m value : DbcNumber) : (m.mul value).isDefined = true := by
    cases m <;> cases value <;> first | rfl | exact isDefined_setDouble _
  have hadd (m value : DbcNumber) : (m.add value).isDefined = true := by
    cases m <;> cases value <;> first | rfl | exact isDefined_setDouble _
  rw [scale]
  split
  · exact hadd _ _
  · split
    · exact hmul _ _
    · exact h

theorem isDefined_value (s : DbcSignal) (val : UInt64) : (s.value val).isDefined = true := by
  rw [value]
  split <;> rfl

/-! ### The comparison -/

section Comparison

variable {s : DbcSignal}

theorem bits_eq (h : 1 ≤ s.signalSize.toInt) : (s.bits : ℤ) = s.signalSize.toInt := by
  rw [bits, DbcNumber.toNat_toUInt32]
  have := s.signalSize.toInt_lt
  omega

theorem bpos_eq (s : DbcSignal) : (s.bpos : ℤ) = s.startBit.toInt % 2 ^ 32 := by
  rw [bpos, DbcNumber.toNat_toUInt32]

/-- The end counted upwards is compared, unless it is too large for an integer. -/
theorem exceeds_iff (hlo : 1 ≤ s.signalSize.toInt) (hhi : s.signalSize.toInt ≤ 64)
    (size : UInt8) :
    s.exceeds size = true ↔ s.startBit.toInt + s.signalSize.toInt + 7 < 2 ^ 31 ∧
      8 * (size.toNat : ℤ) < s.startBit.toInt + s.signalSize.toInt := by
  have hsize : (Int32.ofNat size.toNat).toInt = size.toNat := by
    have := size.toNat_lt
    exact Int32.toInt_ofNat_of_lt (by omega)
  have hstart := s.startBit.toInt_lt
  have hstart' := s.startBit.le_toInt
  rw [exceeds, decide_eq_true_eq, gt_iff_lt, Int32.lt_iff_toInt_lt, hsize,
    Int32.toInt_div_of_ne_right _ _ (by decide), Int32.toInt_add, Int32.toInt_add]
  have h7 : (7 : Int32).toInt = 7 := rfl
  have h8 : (8 : Int32).toInt = 8 := rfl
  rw [h7, h8, Int.bmod_add_bmod]
  generalize s.startBit.toInt = x at *
  generalize s.signalSize.toInt = y at *
  have htdiv (z : ℤ) : (size.toNat : ℤ) < z.tdiv 8 ↔ 8 * (size.toNat : ℤ) + 8 ≤ z := by
    rcases Int.le_total 0 z with hz | hz
    · rw [Int.tdiv_eq_ediv_of_nonneg hz]
      omega
    · obtain ⟨w, rfl⟩ : ∃ w, z = -w := ⟨-z, by omega⟩
      rw [Int.neg_tdiv, Int.tdiv_eq_ediv_of_nonneg (by omega)]
      omega
  rw [htdiv]
  by_cases hsum : x + y + 7 < 2 ^ 31
  · rw [Int.bmod_eq_of_le (by omega) (by omega)]
    omega
  · -- the sum starts again at the least integer
    have hwrap : (x + y + 7).bmod (2 ^ 32) = x + y + 7 - (2 ^ 32 : ℕ) := by
      rw [← Int.sub_bmod_right]
      exact Int.bmod_eq_of_le (by omega) (by omega)
    rw [hwrap]
    omega

end Comparison

end DbcSignal

/-! ### Two's complement -/

section SignExtend

variable {size : ℕ}

/-- The mask of the sign bit. -/
theorem toNat_signmask (hlo : 1 ≤ size) (hhi : size ≤ 32) :
    ((1 : UInt32) <<< (UInt8.ofNat (size - 1)).toUInt32).toNat = 2 ^ (size - 1) := by
  have hshift : (UInt8.ofNat (size - 1)).toUInt32.toNat % 32 = size - 1 := by
    rw [UInt8.toNat_toUInt32, UInt8.toNat_ofNat']
    omega
  have hlt : 2 ^ (size - 1) < 2 ^ 32 := Nat.pow_lt_pow_right (by decide) (by omega)
  rw [UInt32.toNat_shiftLeft, hshift, UInt32.toNat_one, Nat.one_shiftLeft]
  exact Nat.mod_eq_of_lt hlt

theorem and_signmask_ne_zero_iff (hlo : 1 ≤ size) (hhi : size ≤ 32) (v : UInt32) :
    v &&& (1 : UInt32) <<< (UInt8.ofNat (size - 1)).toUInt32 ≠ 0 ↔
      v.toNat.testBit (size - 1) = true := by
  rw [Ne, ← UInt32.toNat_inj, UInt32.toNat_and, toNat_signmask hlo hhi, UInt32.toNat_zero,
    Nat.and_two_pow]
  cases v.toNat.testBit (size - 1) <;> simp

/-- The bits that a negative number is filled up with. -/
theorem testBit_signfill (hlo : 1 ≤ size) (hhi : size ≤ 32) (i : ℕ) :
    (~~~((1 : UInt32) <<< (UInt8.ofNat (size - 1)).toUInt32 - 1)).toNat.testBit i =
      (decide (i < 32) && !decide (i < size - 1)) := by
  have hlt : 2 ^ (size - 1) < 2 ^ 32 := Nat.pow_lt_pow_right (by decide) (by omega)
  have hlow : ((1 : UInt32) <<< (UInt8.ofNat (size - 1)).toUInt32 - 1).toNat =
      2 ^ (size - 1) - 1 := by
    rw [UInt32.toNat_sub_of_le, toNat_signmask hlo hhi, UInt32.toNat_one]
    rw [UInt32.le_iff_toNat_le, toNat_signmask hlo hhi, UInt32.toNat_one]
    exact Nat.one_le_two_pow
  rw [UInt32.toNat_not, hlow, show UInt32.size - 1 - (2 ^ (size - 1) - 1) =
    2 ^ 32 - (2 ^ (size - 1) - 1 + 1) by rw [UInt32.size]; omega,
    Nat.testBit_two_pow_sub_succ (by omega), Nat.testBit_two_pow_sub_one]

/-- The pattern is extended by its sign bit. -/
theorem toBitVec_signExtend {v : UInt32} (hlo : 1 ≤ size) (hhi : size ≤ 32)
    (hv : v.toNat < 2 ^ size) : (signExtend v (UInt8.ofNat (size - 1))).toBitVec =
      (v.toBitVec.setWidth size).signExtend 32 := by
  have hmsb : (v.toBitVec.setWidth size).msb = v.toNat.testBit (size - 1) := by
    rw [BitVec.msb_eq_getLsbD_last, BitVec.getLsbD_setWidth, decide_eq_true (by omega),
      Bool.true_and, ← BitVec.testBit_toNat, UInt32.toNat_toBitVec]
  refine BitVec.eq_of_getLsbD_eq fun i hi => ?_
  rw [BitVec.getLsbD_signExtend, hmsb, BitVec.getLsbD_setWidth, ← BitVec.testBit_toNat,
    ← BitVec.testBit_toNat, UInt32.toNat_toBitVec, decide_eq_true hi, Bool.true_and, signExtend,
    UInt32.toBitVec_toInt32, UInt32.toNat_toBitVec]
  by_cases hneg : v.toNat.testBit (size - 1) = true
  · rw [if_pos ((and_signmask_ne_zero_iff hlo hhi v).mpr hneg), UInt32.toNat_or,
      Nat.testBit_or, testBit_signfill hlo hhi, hneg, decide_eq_true hi, Bool.true_and]
    by_cases hsize : i < size
    · rw [if_pos hsize, decide_eq_true hsize, Bool.true_and]
      by_cases htop : i < size - 1
      · simp [htop]
      · rw [show i = size - 1 by omega, hneg, Bool.true_or]
    · simp [hsize, show ¬ i < size - 1 by omega]
  · rw [if_neg (fun h => hneg ((and_signmask_ne_zero_iff hlo hhi v).mp h)),
      Bool.eq_false_iff.mpr hneg]
    by_cases hsize : i < size
    · rw [if_pos hsize, decide_eq_true hsize, Bool.true_and]
    · rw [if_neg hsize]
      exact Nat.testBit_lt_two_pow
        (Nat.lt_of_lt_of_le hv (Nat.pow_le_pow_right (by decide) (by omega)))

theorem toInt_signExtend {v : UInt32} (hlo : 1 ≤ size) (hhi : size ≤ 32)
    (hv : v.toNat < 2 ^ size) :
    (signExtend v (UInt8.ofNat (size - 1))).toInt = (v.toNat : ℤ).bmod (2 ^ size) := by
  rw [← Int32.toInt_toBitVec, toBitVec_signExtend hlo hhi hv,
    BitVec.toInt_signExtend_of_le hhi, BitVec.toInt_eq_toNat_bmod, BitVec.toNat_setWidth,
    UInt32.toNat_toBitVec, Nat.mod_eq_of_lt hv]

end SignExtend

/-! ### What decoding answers -/

namespace DbcSignal

/-- The bits of the signal are all in a message of this length. -/
def Inside (s : DbcSignal) (length : ℕ) : Prop :=
  0 ≤ s.startBit.toInt ∧ Dbc.Inside s.byteOrder s.bpos s.bits length

/-- How far the end of a signal is ahead of its end counted upwards. -/
def ahead (order : ByteOrder) (start : ℤ) : ℤ :=
  match order with
  | .littleEndian => 0
  | .bigEndian => 7 - 2 * (start % 8)

/-- The end counted upwards is on the side of the end of the message on which the end is: in
the message both, or neither. -/
def BoundsAgree (s : DbcSignal) (length : ℕ) : Prop :=
  let stop := s.startBit.toInt + s.signalSize.toInt
  let limit : ℤ := 8 * length
  let last := stop + ahead s.byteOrder s.startBit.toInt
  stop + 7 < 2 ^ 31 ∧
    if s.startBit.toInt < 0 then limit < stop
    else ¬ (stop ≤ limit ∧ limit < last) ∧ ¬ (last ≤ limit ∧ limit < stop)

/-- The integer that the bits of a signal stand for. -/
def integer (s : DbcSignal) (val : UInt64) : ℤ :=
  match s.valueType with
  | .unsigned => val.toNat
  | .signed => (val.toNat : ℤ).bmod (2 ^ s.bits)

theorem neg_seven_le_ahead (order : ByteOrder) (start : ℤ) : -7 ≤ ahead order start := by
  cases order <;> rw [ahead] <;> omega

/-- A signal is inside by its end. -/
theorem inside_iff_ahead {order : ByteOrder} {start bits length : ℕ} (hbits : 0 < bits) :
    Dbc.Inside order start bits length ↔
      (start : ℤ) + bits + ahead order start ≤ 8 * length := by
  cases order with
  | littleEndian =>
      rw [inside_littleEndian hbits, ahead]
      omega
  | bigEndian =>
      rw [inside_bigEndian hbits, ahead, readBefore]
      omega

variable {s : DbcSignal} {msg : List UInt8} {size : UInt8}

/-- A signal of which something is extracted does not start below zero. -/
theorem inside_iff (hlo : 1 ≤ s.signalSize.toInt) (hmsg : msg.length = size.toNat) :
    s.Inside msg.length ↔ Dbc.Inside s.byteOrder s.bpos s.bits msg.length := by
  have hbits := bits_eq hlo
  have hbpos := s.bpos_eq
  have hsize := size.toNat_lt
  refine ⟨fun h => h.2, fun h => ⟨?_, h⟩⟩
  have hahead := neg_seven_le_ahead s.byteOrder s.bpos
  rw [inside_iff_ahead (by omega)] at h
  have := s.startBit.le_toInt
  omega

/-- By the end of the signal, where it does not start below zero. -/
theorem inside_iff_le (hlo : 1 ≤ s.signalSize.toInt) (length : ℕ) :
    s.Inside length ↔ 0 ≤ s.startBit.toInt ∧ s.startBit.toInt + s.signalSize.toInt +
      ahead s.byteOrder s.startBit.toInt ≤ 8 * length := by
  have hbits := bits_eq hlo
  refine and_congr_right fun hstart => ?_
  have hbpos : (s.bpos : ℤ) = s.startBit.toInt := by
    have := s.bpos_eq
    have := s.startBit.toInt_lt
    omega
  rw [inside_iff_ahead (by omega), hbits, hbpos]

/-- What decoding answers, with a message of some bytes. -/
theorem decode_eq (hmsg : msg.length = size.toNat) (hpos : 1 ≤ msg.length) :
    s.decode msg size = if s.exceeds size then some .none
      else (extract s.byteOrder msg s.bpos s.bits).map fun val => s.scale (s.value val) := by
  have hzero : size ≠ 0 := by
    rintro rfl
    rw [hmsg] at hpos
    exact absurd hpos (by decide)
  rw [decode, if_neg hzero]

/-- **Decoding stays in the message, and leaves out only what is outside, exactly when the
bounds agree.** -/
theorem decode_within_iff (hlo : 1 ≤ s.signalSize.toInt) (hhi : s.signalSize.toInt ≤ 64)
    (hmsg : msg.length = size.toNat) (hpos : 1 ≤ msg.length) :
    (∃ result, s.decode msg size = some result ∧
      (result.isDefined = true ↔ s.Inside msg.length)) ↔ s.BoundsAgree msg.length := by
  have hbits := bits_eq hlo
  have hexceeds := exceeds_iff hlo hhi size
  rw [← hmsg] at hexceeds
  have hread := isSome_extract_iff s.byteOrder msg s.bpos (show 0 < s.bits by omega)
  rw [← inside_iff hlo hmsg] at hread
  have hinside := inside_iff_le hlo msg.length
  have hahead := neg_seven_le_ahead s.byteOrder s.startBit.toInt
  have hsize := size.toNat_lt
  rw [decode_eq hmsg hpos, BoundsAgree]
  by_cases hout : s.exceeds size = true
  · -- the signal is left out
    have hcheck := hexceeds.mp hout
    have hanswer : (∃ result, some DbcNumber.none = some result ∧
        (result.isDefined = true ↔ s.Inside msg.length)) ↔ ¬ s.Inside msg.length := by
      simp [DbcNumber.isDefined]
    rw [if_pos hout, hanswer, hinside]
    split <;> omega
  · -- the signal is read
    have hcheck : ¬ _ := fun h => hout (hexceeds.mpr h)
    have hanswer : (∃ result, (extract s.byteOrder msg s.bpos s.bits).map
          (fun val => s.scale (s.value val)) = some result ∧
        (result.isDefined = true ↔ s.Inside msg.length)) ↔ s.Inside msg.length := by
      rw [← hread]
      cases extract s.byteOrder msg s.bpos s.bits with
      | none => simp
      | some val => simp [s.isDefined_scale (s.isDefined_value val)]
    rw [if_neg hout, hanswer, hinside]
    split <;> omega

theorem toNat_lt_of_collected {f : ℕ → ℕ} {n : ℕ} {val : UInt64}
    (h : Collected msg f 0 n val) : val.toNat < 2 ^ n := by
  refine Nat.lt_pow_two_of_testBit _ fun k hk => ?_
  rw [h k, decide_eq_false (by omega), Bool.false_and]

/-- The number of the extracted bits is the integer that they stand for. -/
theorem toInt_value (hlo : 1 ≤ s.signalSize.toInt) (hhi : s.signalSize.toInt ≤ 32) {val : UInt64}
    (hval : val.toNat < 2 ^ s.bits) : (s.value val).toInt = some (s.integer val) := by
  have hbits := bits_eq hlo
  have hword : val.toUInt32.toNat = val.toNat := by
    have := Nat.pow_le_pow_right (n := 2) (by decide) (show s.bits ≤ 32 by omega)
    rw [UInt64.toNat_toUInt32]
    omega
  have hsign : (s.signalSize - 1).toUInt32.toUInt8 = UInt8.ofNat (s.bits - 1) := by
    have hone : (1 : UInt32) ≤ s.signalSize.toUInt32 := by
      rw [UInt32.le_iff_toNat_le, ← bits, UInt32.toNat_one]
      omega
    rw [← UInt8.toNat_inj, UInt32.toNat_toUInt8, UInt8.toNat_ofNat', Int32.toUInt32_sub,
      show (1 : Int32).toUInt32 = 1 from rfl, UInt32.toNat_sub_of_le _ _ hone, UInt32.toNat_one,
      bits]
  rw [value, integer]
  cases s.valueType with
  | unsigned =>
      dsimp only
      rw [DbcNumber.toInt, hword]
  | signed =>
      dsimp only
      rw [DbcNumber.toInt, hsign, toInt_signExtend (by omega) (by omega) (by rwa [hword]), hword]

/-- **Decoding is right** of a little endian signal, and of a big endian one that ends in the
message counted upwards too. -/
theorem decode_eq_integer_iff {val : UInt64} (hlo : 1 ≤ s.signalSize.toInt)
    (hhi : s.signalSize.toInt ≤ 32) (hfactor : s.factor.eqUnsigned 1 = true)
    (hoffset : s.offset.eqUnsigned 0 = true) (hmsg : msg.length = size.toNat)
    (hinside : s.Inside msg.length) (hval : extract s.byteOrder msg s.bpos s.bits = some val) :
    (s.decode msg size).bind DbcNumber.toInt = some (s.integer val) ↔
      s.byteOrder = .littleEndian ∨
        s.startBit.toInt + s.signalSize.toInt ≤ 8 * msg.length := by
  have hbits := bits_eq hlo
  have hcollected := collected_extract (by omega) hval
  have hend := (inside_iff_le hlo _).mp hinside
  have hexceeds := exceeds_iff hlo (by omega) size
  rw [← hmsg] at hexceeds
  have hsize := size.toNat_lt
  have hahead := neg_seven_le_ahead s.byteOrder s.startBit.toInt
  have hpos : 1 ≤ msg.length := by
    have := hend.2
    cases horder : s.byteOrder <;> rw [horder, ahead] at this <;> omega
  have hscale : s.scale (s.value val) = s.value val := by
    rw [scale, hfactor, hoffset]
    rfl
  rw [decode_eq hmsg hpos, hval, Option.map_some, hscale]
  by_cases hout : s.exceeds size = true
  · have hcheck := hexceeds.mp hout
    rw [if_pos hout]
    refine iff_of_false (fun h => by cases h) ?_
    rintro (horder | hle)
    · rw [horder, ahead] at hend
      omega
    · omega
  · have hcheck : ¬ _ := fun h => hout (hexceeds.mpr h)
    rw [if_neg hout, Option.bind_some, toInt_value hlo hhi (toNat_lt_of_collected hcollected)]
    exact iff_of_true rfl (.inr (by omega))

/-- **The extraction is right, of all bits that are inside. Decoding is right as well, of a little
endian signal, and of a big endian one that ends in the message counted upwards too.** -/
theorem extract_and_decode (order : ByteOrder) (candata : List UInt8) (start bits : ℕ)
    (hpos : 0 < bits) (hbits : bits ≤ 64) (hinside : Dbc.Inside order start bits candata.length) :
    ∃ val, extract order candata start bits = some val ∧
      Collected candata (signalBit order start bits) 0 bits val ∧
      ∀ (s : DbcSignal) (size : UInt8), s.byteOrder = order → s.bpos = start → s.bits = bits →
        1 ≤ s.signalSize.toInt → s.signalSize.toInt ≤ 32 → s.factor.eqUnsigned 1 = true →
        s.offset.eqUnsigned 0 = true → candata.length = size.toNat →
        ((s.decode candata size).bind DbcNumber.toInt = some (s.integer val) ↔
          s.byteOrder = .littleEndian ∨
            s.startBit.toInt + s.signalSize.toInt ≤ 8 * candata.length) := by
  obtain ⟨val, hval⟩ :=
    Option.isSome_iff_exists.mp ((isSome_extract_iff order candata start hpos).mpr hinside)
  refine ⟨val, hval, collected_extract hbits hval, ?_⟩
  rintro s size rfl rfl rfl hlo hhi hfactor hoffset hmsg
  exact decode_eq_integer_iff hlo hhi hfactor hoffset hmsg ((inside_iff hlo hmsg).mpr hinside) hval

/-- A byte that is a big endian signal. -/
def byteSignal (startBit : Int32) : DbcSignal where
  startBit := startBit
  signalSize := 8
  byteOrder := .bigEndian
  valueType := .unsigned
  factor := .integerUnsigned 1
  offset := .integerUnsigned 0

theorem inside_byteSignal (length : ℕ) : (byteSignal 7).Inside length ↔ 1 ≤ length := by
  rw [inside_iff_le (by decide)]
  have hend : (byteSignal 7).startBit.toInt + (byteSignal 7).signalSize.toInt +
      ahead (byteSignal 7).byteOrder (byteSignal 7).startBit.toInt = 8 := by decide
  have hstart : 0 ≤ (byteSignal 7).startBit.toInt := by decide
  rw [hend]
  omega

/-- The first of two bytes. -/
theorem extract_and_decode_first :
    ((byteSignal 7).decode [0x12, 0x34] 2).bind DbcNumber.toInt = some 0x12 := by
  obtain ⟨val, hval, -, hdecode⟩ := extract_and_decode .bigEndian [0x12, 0x34] 7 8 (by decide)
    (by decide) ((inside_byteSignal 2).mpr (by decide)).2
  have hextract : extract .bigEndian [0x12, 0x34] 7 8 = some 0x12 := by decide
  obtain rfl := Option.some.inj (hextract.symm.trans hval)
  exact (hdecode (byteSignal 7) 2 rfl rfl rfl (by decide) (by decide) rfl rfl rfl).mpr
    (.inr (by decide))

/-- **A byte that is the whole message is not decoded.** -/
theorem not_decode_byteSignal :
    ¬ ∀ (s : DbcSignal) (msg : List UInt8) (size : UInt8) (val : UInt64),
      1 ≤ s.signalSize.toInt → s.signalSize.toInt ≤ 32 → s.factor.eqUnsigned 1 = true →
      s.offset.eqUnsigned 0 = true → msg.length = size.toNat → s.Inside msg.length →
      extract s.byteOrder msg s.bpos s.bits = some val →
      (s.decode msg size).bind DbcNumber.toInt = some (s.integer val) := by
  intro h
  have hbyte := h (byteSignal 7) [0x12] 1 0x12 (by decide) (by decide) rfl rfl rfl
    ((inside_byteSignal 1).mpr le_rfl) (by decide)
  revert hbyte
  decide

/-- Two bytes are enough for both ends of it. -/
theorem decode_within_iff_first :
    ∃ result, (byteSignal 7).decode [0x12, 0x34] 2 = some result ∧
      (result.isDefined = true ↔ (byteSignal 7).Inside 2) :=
  (@decode_within_iff (byteSignal 7) [0x12, 0x34] 2 (by decide) (by decide) rfl (by decide)).mpr
    (by rw [BoundsAgree]; decide)

/-- **A signal that begins with the last bit of a message is read beyond its end.** -/
theorem not_decode_within :
    ¬ ∀ (s : DbcSignal) (msg : List UInt8) (size : UInt8), 1 ≤ s.signalSize.toInt →
      s.signalSize.toInt ≤ 64 → msg.length = size.toNat → 1 ≤ msg.length →
      ∃ result, s.decode msg size = some result ∧
        (result.isDefined = true ↔ s.Inside msg.length) := by
  intro h
  obtain ⟨result, hresult, -⟩ := h (byteSignal 0) [0x12] 1 (by decide) (by decide) rfl le_rfl
  revert hresult
  have hout : (byteSignal 0).decode [0x12] 1 = none := rfl
  rw [hout]
  exact fun h => by cases h

end DbcSignal

end Ovms.Dbc
