import Mathlib.Algebra.Ring.Nat
import Mathlib.Data.List.Basic

/-!
# The Bits of a Signal

A signal of a DBC is a number of bits of a message, from a start bit on. Bits are numbered byte
by byte, from the least significant bit of each. In little endian order the start bit is the
least significant one of the signal and the numbers go up; in big endian order it is the most
significant one, the numbers go down to the end of the byte, and on from bit seven of the next.

`dbc_extract_bits_little_endian` and `dbc_extract_bits_big_endian`
(`components/dbc/src/dbc.cpp`) collect the bits slice by slice, where a slice is what lies in
one byte. A byte that the message does not have is none.
-/

namespace Ovms.Dbc

/-! ### The loops -/

/-- `dbc_extract_bits`. -/
def dbcExtractBits (candata : List UInt8) (bpos align shifter pos : ℕ) : Option UInt64 := do
  let val ← candata[bpos / 8]?
  let mask := (1 <<< shifter) - 1
  pure (((val.toUInt64 >>> align.toUInt64) &&& Nat.toUInt64 mask) <<< pos.toUInt64)

/-- The loop of `dbc_extract_bits_little_endian`. Every repeat takes at least one bit. -/
def littleEndianLoop (candata : List UInt8) : ℕ → ℕ → ℕ → ℕ → UInt64 → Option UInt64
  | 0, _, _, _, val => some val
  | fuel + 1, bpos, bits, pos, val =>
      if bits > 0 then
        let aligner := bpos % 8
        let shifter := min (8 - aligner) bits
        match dbcExtractBits candata bpos aligner shifter pos with
        | none => none
        | some slice => littleEndianLoop candata fuel (bpos + shifter) (bits - shifter)
            (pos + shifter) (val ||| slice)
      else some val

/-- `dbc_extract_bits_little_endian`. -/
def dbcExtractBitsLittleEndian (candata : List UInt8) (bpos bits : ℕ) : Option UInt64 :=
  littleEndianLoop candata bits bpos bits 0 0

/-- The loop of `dbc_extract_bits_big_endian`. Every repeat takes at least one bit. -/
def bigEndianLoop (candata : List UInt8) : ℕ → ℕ → ℕ → ℕ → UInt64 → Option UInt64
  | 0, _, _, _, val => some val
  | fuel + 1, bpos, bits, pos, val =>
      if bits > 0 then
        let slicer := min (bpos % 8 + 1) bits
        let aligner := bpos % 8 + 1 - slicer
        match dbcExtractBits candata bpos aligner slicer (pos - slicer) with
        | none => none
        | some slice => bigEndianLoop candata fuel ((bpos / 8 + 1) * 8 + 7) (bits - slicer)
            (pos - slicer) (val ||| slice)
      else some val

/-- `dbc_extract_bits_big_endian`. -/
def dbcExtractBitsBigEndian (candata : List UInt8) (bpos bits : ℕ) : Option UInt64 :=
  bigEndianLoop candata bits bpos bits bits 0

/-- `dbcByteOrder_t`. -/
inductive ByteOrder
  | bigEndian | littleEndian
  deriving DecidableEq, Repr

/-- The extraction for a byte order. -/
def extract (order : ByteOrder) (candata : List UInt8) (bpos bits : ℕ) : Option UInt64 :=
  match order with
  | .bigEndian => dbcExtractBitsBigEndian candata bpos bits
  | .littleEndian => dbcExtractBitsLittleEndian candata bpos bits

/-! ### The numbering -/

/-- The bit of a message with a number. -/
def messageBit (candata : List UInt8) (p : ℕ) : Bool :=
  (candata.getD (p / 8) 0).toNat.testBit (p % 8)

/-- The number of a bit in big endian order: down in a byte, and on to the next. -/
def bigEndianBit (start : ℕ) : ℕ → ℕ
  | 0 => start
  | n + 1 =>
      let p := bigEndianBit start n
      if p % 8 = 0 then p + 15 else p - 1

/-- The number of the bit of a signal that has a significance. -/
def signalBit (order : ByteOrder) (start size k : ℕ) : ℕ :=
  match order with
  | .littleEndian => start + k
  | .bigEndian => bigEndianBit start (size - 1 - k)

/-- All bits of a signal are in a message of this length. -/
def Inside (order : ByteOrder) (start size length : ℕ) : Prop :=
  ∀ k, k < size → signalBit order start size k < 8 * length

/-- The bits between two significances come from a message, and there are no others. -/
def Collected (candata : List UInt8) (f : ℕ → ℕ) (lo hi : ℕ) (val : UInt64) : Prop :=
  ∀ k, val.toNat.testBit k = (decide (lo ≤ k ∧ k < hi) && messageBit candata (f k))

/-- How many bits lie before one, when each byte is read from its most significant bit on. -/
def readBefore (p : ℕ) : ℕ := 8 * (p / 8) + (7 - p % 8)

theorem readBefore_readBefore (p : ℕ) : readBefore (readBefore p) = p := by
  rw [readBefore, readBefore]
  omega

/-- Big endian order is reading on. -/
theorem readBefore_bigEndianBit (start n : ℕ) :
    readBefore (bigEndianBit start n) = readBefore start + n := by
  induction n with
  | zero => rfl
  | succ n ih =>
      rw [readBefore] at ih
      rw [bigEndianBit]
      split <;> rw [readBefore] <;> omega

theorem bigEndianBit_eq (start n : ℕ) :
    bigEndianBit start n = readBefore (readBefore start + n) := by
  rw [← readBefore_bigEndianBit, readBefore_readBefore]

/-- Where a little endian signal is inside. -/
theorem inside_littleEndian {start size length : ℕ} (hsize : 0 < size) :
    Inside .littleEndian start size length ↔ start + size ≤ 8 * length := by
  constructor
  · intro h
    have := h (size - 1) (by omega)
    rw [signalBit] at this
    omega
  · intro h k hk
    rw [signalBit]
    omega

/-- Where a big endian signal is inside. -/
theorem inside_bigEndian {start size length : ℕ} (hsize : 0 < size) :
    Inside .bigEndian start size length ↔ readBefore start + size ≤ 8 * length := by
  constructor
  · intro h
    have hlast := h 0 hsize
    rw [signalBit, bigEndianBit_eq] at hlast
    generalize readBefore start = q at hlast ⊢
    rw [readBefore] at hlast
    omega
  · intro h k hk
    rw [signalBit, bigEndianBit_eq]
    generalize readBefore start = q at h ⊢
    rw [readBefore]
    omega

/-! ### Slices -/

theorem isSome_dbcExtractBits (candata : List UInt8) (bpos align shifter pos : ℕ) :
    (dbcExtractBits candata bpos align shifter pos).isSome ↔ bpos / 8 < candata.length := by
  rw [dbcExtractBits, Option.bind_eq_bind, Option.isSome_bind]
  simp

/-- The bits of a slice, moved to their place. -/
theorem testBit_slice {val : UInt8} {align shifter pos : ℕ} (hshifter : 0 < shifter)
    (halign : align + shifter ≤ 8) (hpos : pos + shifter ≤ 64) (k : ℕ) :
    (((val.toUInt64 >>> align.toUInt64) &&& Nat.toUInt64 ((1 <<< shifter) - 1)) <<<
        pos.toUInt64).toNat.testBit k =
      (decide (pos ≤ k ∧ k < pos + shifter) && val.toNat.testBit (align + (k - pos))) := by
  have hmod {n : ℕ} (h : n < 64) : n.toUInt64.toNat % 64 = n := by
    rw [Nat.toUInt64_eq, UInt64.toNat_ofNat']
    omega
  have hmask : (Nat.toUInt64 ((1 <<< shifter) - 1)).toNat = 2 ^ shifter - 1 := by
    have hle : 2 ^ shifter ≤ 2 ^ 8 := Nat.pow_le_pow_right (by decide) (by omega)
    rw [Nat.toUInt64_eq, UInt64.toNat_ofNat', Nat.one_shiftLeft]
    omega
  rw [UInt64.toNat_shiftLeft, UInt64.toNat_and, UInt64.toNat_shiftRight, UInt8.toNat_toUInt64,
    hmask, hmod (by omega), hmod (by omega), Nat.testBit_mod_two_pow, Nat.testBit_shiftLeft,
    Nat.testBit_and, Nat.testBit_shiftRight, Nat.testBit_two_pow_sub_one]
  by_cases hk : pos ≤ k ∧ k < pos + shifter
  · have hlt : k < 64 := by omega
    have hin : k - pos < shifter := by omega
    simp [hk, hlt, hin]
  · have hout : ¬ (pos ≤ k ∧ k - pos < shifter) := by omega
    rw [decide_eq_false hk, Bool.false_and]
    by_cases hle : pos ≤ k
    · simp [hle, show ¬ k - pos < shifter by omega]
    · simp [hle]

/-- A slice holds the bits of its byte. -/
theorem collected_dbcExtractBits {candata : List UInt8} {bpos align shifter pos : ℕ}
    {f : ℕ → ℕ} {slice : UInt64} (hshifter : 0 < shifter) (halign : align + shifter ≤ 8)
    (hpos : pos + shifter ≤ 64)
    (hf : ∀ j, j < shifter → f (pos + j) = 8 * (bpos / 8) + align + j)
    (h : dbcExtractBits candata bpos align shifter pos = some slice) :
    Collected candata f pos (pos + shifter) slice := by
  rw [dbcExtractBits, Option.bind_eq_bind, Option.bind_eq_some_iff] at h
  obtain ⟨val, hval, h⟩ := h
  obtain rfl := Option.some.inj h
  intro k
  rw [testBit_slice hshifter halign hpos]
  by_cases hk : pos ≤ k ∧ k < pos + shifter
  · have hplace := hf (k - pos) (by omega)
    rw [Nat.add_sub_cancel' hk.1] at hplace
    rw [messageBit, hplace, show (8 * (bpos / 8) + align + (k - pos)) / 8 = bpos / 8 by omega,
      show (8 * (bpos / 8) + align + (k - pos)) % 8 = align + (k - pos) by omega,
      List.getD_eq_getElem?_getD, hval, Option.getD_some]
  · rw [decide_eq_false hk, Bool.false_and, Bool.false_and]

theorem collected_zero (candata : List UInt8) (f : ℕ → ℕ) (n : ℕ) :
    Collected candata f n n 0 := by
  intro k
  rw [UInt64.toNat_zero, Nat.zero_testBit, decide_eq_false (by omega), Bool.false_and]

/-- Ranges side by side are collected together. -/
theorem Collected.or {candata : List UInt8} {f : ℕ → ℕ} {a b c : ℕ} {v w : UInt64}
    (hv : Collected candata f a b v) (hw : Collected candata f b c w) (hab : a ≤ b)
    (hbc : b ≤ c) : Collected candata f a c (v ||| w) := by
  intro k
  rw [UInt64.toNat_or, Nat.testBit_or, hv k, hw k, ← Bool.and_or_distrib_right,
    ← Bool.decide_or]
  congr 1
  rw [decide_eq_decide]
  omega

/-! ### What the loops read -/

/-- The little endian loop ends when the rest of the signal is in the message. -/
theorem isSome_littleEndianLoop (candata : List UInt8) :
    ∀ (fuel bpos bits pos : ℕ) (val : UInt64), bits ≤ fuel →
      ((littleEndianLoop candata fuel bpos bits pos val).isSome ↔
        bits = 0 ∨ bpos + bits ≤ 8 * candata.length) := by
  intro fuel
  induction fuel with
  | zero =>
      intro bpos bits pos val hfuel
      simp [littleEndianLoop, Nat.le_zero.mp hfuel]
  | succ fuel ih =>
      intro bpos bits pos val hfuel
      rw [littleEndianLoop]
      by_cases hbits : bits > 0
      · rw [if_pos hbits]
        dsimp only
        have hthere := isSome_dbcExtractBits candata bpos (bpos % 8) (min (8 - bpos % 8) bits) pos
        cases hslice : dbcExtractBits candata bpos (bpos % 8) (min (8 - bpos % 8) bits) pos with
        | none =>
            rw [hslice] at hthere
            have : ¬ bpos / 8 < candata.length := fun h => by cases hthere.mpr h
            simp only [Option.isSome_none, Bool.false_eq_true, false_iff]
            omega
        | some slice =>
            rw [hslice] at hthere
            have := hthere.mp rfl
            dsimp only
            rw [ih _ _ _ _ (by omega)]
            omega
      · simp [Nat.eq_zero_of_not_pos hbits]

/-- The big endian loop ends when the rest of the signal is in the message. -/
theorem isSome_bigEndianLoop (candata : List UInt8) :
    ∀ (fuel bpos bits pos : ℕ) (val : UInt64), bits ≤ fuel →
      ((bigEndianLoop candata fuel bpos bits pos val).isSome ↔
        bits = 0 ∨ readBefore bpos + bits ≤ 8 * candata.length) := by
  intro fuel
  induction fuel with
  | zero =>
      intro bpos bits pos val hfuel
      simp [bigEndianLoop, Nat.le_zero.mp hfuel]
  | succ fuel ih =>
      intro bpos bits pos val hfuel
      rw [bigEndianLoop]
      by_cases hbits : bits > 0
      · rw [if_pos hbits]
        dsimp only
        have hthere := isSome_dbcExtractBits candata bpos
          (bpos % 8 + 1 - min (bpos % 8 + 1) bits) (min (bpos % 8 + 1) bits)
          (pos - min (bpos % 8 + 1) bits)
        generalize dbcExtractBits candata bpos (bpos % 8 + 1 - min (bpos % 8 + 1) bits)
          (min (bpos % 8 + 1) bits) (pos - min (bpos % 8 + 1) bits) = slice at hthere ⊢
        cases slice with
        | none =>
            have : ¬ bpos / 8 < candata.length := fun h => by cases hthere.mpr h
            simp only [Option.isSome_none, Bool.false_eq_true, false_iff, readBefore]
            omega
        | some slice =>
            have := hthere.mp rfl
            dsimp only
            rw [ih _ _ _ _ (by omega), readBefore, readBefore]
            omega
      · simp [Nat.eq_zero_of_not_pos hbits]

/-- **What is read is in the message exactly when the signal is.** -/
theorem isSome_extract_iff (order : ByteOrder) (candata : List UInt8) (start : ℕ) {size : ℕ}
    (hsize : 0 < size) :
    (extract order candata start size).isSome ↔ Inside order start size candata.length := by
  cases order with
  | littleEndian =>
      rw [extract, dbcExtractBitsLittleEndian, isSome_littleEndianLoop _ _ _ _ _ _ le_rfl,
        inside_littleEndian hsize]
      omega
  | bigEndian =>
      rw [extract, dbcExtractBitsBigEndian, isSome_bigEndianLoop _ _ _ _ _ _ le_rfl,
        inside_bigEndian hsize]
      omega

/-! ### What the loops collect -/

/-- The little endian loop collects the bits above those it has. -/
theorem collected_littleEndianLoop (candata : List UInt8) (start : ℕ) :
    ∀ (fuel bits pos : ℕ) (val v : UInt64), bits ≤ fuel → pos + bits ≤ 64 →
      Collected candata (start + ·) 0 pos val →
      littleEndianLoop candata fuel (start + pos) bits pos val = some v →
      Collected candata (start + ·) 0 (pos + bits) v := by
  intro fuel
  induction fuel with
  | zero =>
      intro bits pos val v hfuel _ hval h
      obtain rfl := Nat.le_zero.mp hfuel
      obtain rfl := Option.some.inj h
      exact hval
  | succ fuel ih =>
      intro bits pos val v hfuel hroom hval h
      rw [littleEndianLoop] at h
      by_cases hbits : bits > 0
      · rw [if_pos hbits] at h
        dsimp only at h
        generalize hshifter : min (8 - (start + pos) % 8) bits = shifter at h
        cases hslice : dbcExtractBits candata (start + pos) ((start + pos) % 8) shifter pos with
        | none => rw [hslice] at h; cases h
        | some slice =>
            rw [hslice] at h
            have hgot : Collected candata (start + ·) pos (pos + shifter) slice :=
              collected_dbcExtractBits (by omega) (by omega) (by omega)
                (fun j _ => by omega) hslice
            have := ih (bits - shifter) (pos + shifter) (val ||| slice) v (by omega) (by omega)
              (hval.or hgot (by omega) (by omega)) (by rw [← Nat.add_assoc]; exact h)
            rwa [show pos + shifter + (bits - shifter) = pos + bits by omega] at this
      · rw [if_neg hbits] at h
        obtain rfl := Option.some.inj h
        rwa [Nat.eq_zero_of_not_pos hbits]

/-- The big endian loop collects the bits below those it has. -/
theorem collected_bigEndianLoop (candata : List UInt8) (start size : ℕ) (hsize : size ≤ 64) :
    ∀ (fuel bpos bits : ℕ) (val v : UInt64), bits ≤ fuel → bits ≤ size →
      (0 < bits → readBefore bpos + bits = readBefore start + size) →
      Collected candata (signalBit .bigEndian start size) bits size val →
      bigEndianLoop candata fuel bpos bits bits val = some v →
      Collected candata (signalBit .bigEndian start size) 0 size v := by
  intro fuel
  induction fuel with
  | zero =>
      intro bpos bits val v hfuel _ _ hval h
      obtain rfl := Nat.le_zero.mp hfuel
      obtain rfl := Option.some.inj h
      exact hval
  | succ fuel ih =>
      intro bpos bits val v hfuel hle hat hval h
      rw [bigEndianLoop] at h
      by_cases hbits : bits > 0
      · rw [if_pos hbits] at h
        dsimp only at h
        generalize hslicer : min (bpos % 8 + 1) bits = slicer at h
        cases hslice : dbcExtractBits candata bpos (bpos % 8 + 1 - slicer) slicer
            (bits - slicer) with
        | none => rw [hslice] at h; cases h
        | some slice =>
            rw [hslice] at h
            have hq := hat hbits
            have hgot : Collected candata (signalBit .bigEndian start size) (bits - slicer)
                (bits - slicer + slicer) slice := by
              refine collected_dbcExtractBits (by omega) (by omega) (by omega)
                (fun j hj => ?_) hslice
              rw [signalBit, bigEndianBit_eq, show readBefore start + (size - 1 -
                (bits - slicer + j)) = readBefore bpos + (slicer - 1 - j) by omega]
              rw [readBefore] at hq ⊢
              rw [readBefore]
              omega
            rw [Nat.sub_add_cancel (by omega)] at hgot
            refine ih _ (bits - slicer) (val ||| slice) v (by omega) (by omega) (fun hmore => ?_)
              (UInt64.or_comm slice val ▸ hgot.or hval (by omega) hle) h
            rw [readBefore] at hq ⊢
            omega
      · rw [if_neg hbits] at h
        obtain rfl := Option.some.inj h
        rwa [Nat.eq_zero_of_not_pos hbits] at hval

/-- **What is extracted are the bits of the signal.** -/
theorem collected_extract {order : ByteOrder} {candata : List UInt8} {start size : ℕ}
    {v : UInt64} (hsize : size ≤ 64) (h : extract order candata start size = some v) :
    Collected candata (signalBit order start size) 0 size v := by
  cases order with
  | littleEndian =>
      have := collected_littleEndianLoop candata start size size 0 0 v le_rfl (by omega)
        (collected_zero _ _ _) h
      rwa [Nat.zero_add] at this
  | bigEndian =>
      exact collected_bigEndianLoop candata start size hsize size start size 0 v le_rfl le_rfl
        (fun _ => rfl) (collected_zero _ _ _) h

end Ovms.Dbc
