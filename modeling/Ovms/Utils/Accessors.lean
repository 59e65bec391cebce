import Ovms.Utils.Bits
import Mathlib.Data.Nat.Digits.Defs

/-!
# Integers in a Buffer

The accessors `get_*_be` and `get_*_le` (`main/ovms_utils.h`) read an integer of a number of bytes
out of a buffer. They are templates, over the number of bytes and the type of the result, with a
recursion over the bytes and a check of the last index in 32 bits.

The little endian recursion shifts a byte as an `int` and has 32 bits inside; the check wraps for
an index close to the end of 32 bits; and the signed little endian accessor reads the bytes in
the other order. A read outside of the buffer has no result here, nor has a shift by 32 bits and
more.
-/

namespace Ovms.Utils

/-- A buffer, of a size in 32 bits. -/
structure Buffer where
  bytes : List UInt8
  length_lt : bytes.length < 2 ^ 32

namespace Buffer

/-- The size. -/
def size (data : Buffer) : UInt32 := .ofNat data.bytes.length

/-- `data[i]`. -/
def read (data : Buffer) (i : UInt32) : Option (BitVec 8) :=
  data.bytes[i.toNat]?.map (·.toBitVec)

/-- Some bytes of the buffer. -/
def slice (data : Buffer) (index n : ℕ) : List UInt8 := (data.bytes.drop index).take n

end Buffer

/-- `ovms_bytes_impl_t<BYTES, UINT>::get_bytes_uint`. -/
def beBytesUint (v : ℕ) (data : Buffer) (index : UInt32) : ℕ → Option (BitVec v)
  | 0 => none
  | 1 => (data.read index).map (·.setWidth v)
  | n + 2 =>
      (data.read (index + .ofNat (n + 1))).bind fun byte =>
        (beBytesUint v data index (n + 1)).map fun (rest : BitVec v) =>
          byte.setWidth v ||| rest <<< 8

/-- `get_bytes_le_impl_t<BYTES>::get_bytes_uint`. -/
def leBytesUint32 (data : Buffer) (index : UInt32) : ℕ → Option (BitVec 32)
  | 0 => none
  | 1 => (data.read index).map (·.setWidth 32)
  | n + 2 =>
      if 8 * (n + 1) < 32 then
        (data.read (index + .ofNat (n + 1))).bind fun byte =>
          (leBytesUint32 data index (n + 1)).map fun (rest : BitVec 32) =>
            byte.setWidth 32 <<< (8 * (n + 1)) ||| rest
      else none

/-- `get_bytes_le_impl_t<BYTES, UINT>::get_bytes_uint`: the type is that of the result only. -/
def leBytesUint (v : ℕ) (data : Buffer) (index : UInt32) (n : ℕ) : Option (BitVec v) :=
  (leBytesUint32 data index n).map (·.setWidth v)

/-! ### The accessors -/

/-- The check of an accessor, and the value. -/
def access {α : Type} (index length : UInt32) (n : ℕ) (value : Option α) : Option (Option α) :=
  if length ≤ index + .ofNat (n - 1) then some none else value.map some

/-- `get_uint_bytes_be`. -/
def getUintBytesBe (v n : ℕ) (data : Buffer) (index length : UInt32) :
    Option (Option (BitVec v)) :=
  access index length n (beBytesUint v data index n)

/-- `get_int_bytes_be`. -/
def getIntBytesBe (v n : ℕ) (data : Buffer) (index length : UInt32) : Option (Option (BitVec v)) :=
  access index length n ((beBytesUint v data index n).map (signExtendConst v (n * 8 - 1)))

/-- `get_uint_buff_be`. -/
def getUintBuffBe (v n : ℕ) (data : Buffer) (index : UInt32) : Option (Option (BitVec v)) :=
  access index data.size n (beBytesUint v data index n)

/-- `get_buff_int_be`. -/
def getBuffIntBe (v n : ℕ) (data : Buffer) (index : UInt32) : Option (Option (BitVec v)) :=
  access index data.size n ((beBytesUint v data index n).map (signExtendConst v (n * 8 - 1)))

/-- `get_bytes_uint_le`. -/
def getBytesUintLe (v n : ℕ) (data : Buffer) (index length : UInt32) :
    Option (Option (BitVec v)) :=
  access index length n (leBytesUint v data index n)

/-- `get_buff_uint_le`. -/
def getBuffUintLe (v n : ℕ) (data : Buffer) (index : UInt32) : Option (Option (BitVec v)) :=
  access index data.size n (leBytesUint v data index n)

/-- `get_buff_int_le`: it has the big endian recursion. -/
def getBuffIntLe (v n : ℕ) (data : Buffer) (index : UInt32) : Option (Option (BitVec v)) :=
  access index data.size n ((beBytesUint v data index n).map (signExtendConst v (n * 8 - 1)))

/-! ### What they have to answer -/

/-- Bytes as an integer, the lowest first. -/
def leValue (bytes : List UInt8) : ℕ := Nat.ofDigits 256 (bytes.map UInt8.toNat)

/-- Bytes as an integer, the highest first. -/
def beValue (bytes : List UInt8) : ℕ := leValue bytes.reverse

/-- An unsigned accessor is exact: false outside of the buffer, and the integer of the bytes
inside. -/
def UnsignedExact {v : ℕ} (value : List UInt8 → ℕ) (n : ℕ) (data : Buffer) (index : UInt32)
    (answer : Option (Option (BitVec v))) : Prop :=
  (data.bytes.length < index.toNat + n → answer = some none) ∧
    (index.toNat + n ≤ data.bytes.length →
      ∃ r, answer = some (some r) ∧ r.toNat = value (data.slice index.toNat n))

/-- A signed accessor is exact: the two's complement of the same bytes. -/
def SignedExact {v : ℕ} (value : List UInt8 → ℕ) (n : ℕ) (data : Buffer) (index : UInt32)
    (answer : Option (Option (BitVec v))) : Prop :=
  (data.bytes.length < index.toNat + n → answer = some none) ∧
    (index.toNat + n ≤ data.bytes.length →
      ∃ r, answer = some (some r) ∧
        r.toInt = (BitVec.ofNat (8 * n) (value (data.slice index.toNat n))).toInt)

/-- The check of the last index is right: it does not wrap, or is outside of the buffer then,
too. -/
def Checked (n : ℕ) (data : Buffer) (index : UInt32) : Prop :=
  index.toNat + (n - 1) < 2 ^ 32 ∨ data.bytes.length + 2 ^ 32 ≤ index.toNat + (n - 1)

/-! ### Bytes -/

theorem leValue_concat (bytes : List UInt8) (b : UInt8) :
    leValue (bytes ++ [b]) = b.toNat * 256 ^ bytes.length + leValue bytes := by
  rw [leValue, List.map_append, Nat.ofDigits_append, List.length_map, List.map_singleton,
    Nat.ofDigits_singleton, leValue]
  ring

theorem beValue_concat (bytes : List UInt8) (b : UInt8) :
    beValue (bytes ++ [b]) = beValue bytes * 256 + b.toNat := by
  rw [beValue, List.reverse_append, List.reverse_singleton, List.singleton_append, leValue,
    List.map_cons, Nat.ofDigits_cons, beValue, leValue]
  ring

theorem leValue_lt (bytes : List UInt8) : leValue bytes < 256 ^ bytes.length := by
  have h := Nat.ofDigits_lt_base_pow_length (b := 256) (l := bytes.map UInt8.toNat) (by decide)
    fun x hx => by
      obtain ⟨b, -, rfl⟩ := List.mem_map.mp hx
      exact b.toNat_lt
  rwa [List.length_map] at h

theorem beValue_lt (bytes : List UInt8) : beValue bytes < 256 ^ bytes.length := by
  have h := leValue_lt bytes.reverse
  rwa [List.length_reverse] at h

/-- Different bytes are different integers. -/
theorem leValue_inj {a b : List UInt8} (hlen : a.length = b.length) :
    leValue a = leValue b ↔ a = b := by
  have hbyte : ∀ l : List UInt8, ∀ x ∈ l.map UInt8.toNat, x < 256 := by
    intro l x hx
    obtain ⟨c, -, rfl⟩ := List.mem_map.mp hx
    exact c.toNat_lt
  refine ⟨fun h => ?_, congrArg leValue⟩
  have hmap := Nat.ofDigits_inj_of_len_eq (by decide)
    (by rw [List.length_map, List.length_map, hlen]) (hbyte a) (hbyte b) h
  exact List.map_inj_right (fun x y hxy => UInt8.toNat_inj.mp hxy) |>.mp hmap

namespace Buffer

variable {data : Buffer} {index n : ℕ}

theorem length_slice (h : index + n ≤ data.bytes.length) : (data.slice index n).length = n := by
  rw [slice, List.length_take, List.length_drop]
  omega

theorem slice_succ (h : index + n < data.bytes.length) :
    data.slice index (n + 1) = data.slice index n ++ [data.bytes[index + n]] := by
  rw [slice, slice, List.take_add_one, List.getElem?_drop, List.getElem?_eq_getElem h]
  rfl

theorem slice_one (h : index < data.bytes.length) : data.slice index 1 = [data.bytes[index]] := by
  rw [slice, List.drop_eq_getElem_cons h, List.take_succ_cons, List.take_zero]

theorem read_eq {i : UInt32} (hi : i.toNat = index) (h : index < data.bytes.length) :
    data.read i = some data.bytes[index].toBitVec := by
  subst hi
  rw [read, List.getElem?_eq_getElem h, Option.map_some]

end Buffer

theorem toNat_add_ofNat {index : UInt32} {k : ℕ} (h : index.toNat + k < 2 ^ 32) :
    (index + .ofNat k).toNat = index.toNat + k := by
  rw [UInt32.toNat_add, UInt32.toNat_ofNat', Nat.add_mod_mod, Nat.mod_eq_of_lt h]

section Values

variable {v n : ℕ} {data : Buffer} {index : UInt32}

/-- **The big endian recursion** inside of the buffer. -/
theorem toNat_beBytesUint (hn : 1 ≤ n) (hv : 8 * n ≤ v)
    (h : index.toNat + n ≤ data.bytes.length) :
    ∃ r, beBytesUint v data index n = some r ∧
      r.toNat = beValue (data.slice index.toNat n) := by
  have hsize := data.length_lt
  induction n, hn using Nat.le_induction with
  | base =>
      refine ⟨data.bytes[index.toNat].toBitVec.setWidth v, ?_, ?_⟩
      · rw [beBytesUint, Buffer.read_eq rfl (by omega), Option.map_some]
      · rw [Buffer.slice_one (by omega), BitVec.toNat_setWidth_of_le (by omega)]
        exact Nat.ofDigits_singleton.symm
  | succ n hn ih =>
      obtain ⟨rest, hrest, hvalue⟩ := ih (by omega) (by omega)
      obtain ⟨m, rfl⟩ : ∃ m, n = m + 1 := ⟨n - 1, by omega⟩
      have hread : data.read (index + .ofNat (m + 1)) =
          some data.bytes[index.toNat + (m + 1)].toBitVec :=
        Buffer.read_eq (toNat_add_ofNat (by omega)) (by omega)
      refine ⟨data.bytes[index.toNat + (m + 1)].toBitVec.setWidth v ||| rest <<< 8, ?_, ?_⟩
      · rw [beBytesUint, hread, Option.bind_some, hrest, Option.map_some]
      · have hlt : rest.toNat * 2 ^ 8 < 2 ^ v := by
          have hbound := beValue_lt (data.slice index.toNat (m + 1))
          rw [Buffer.length_slice (by omega), ← hvalue] at hbound
          calc rest.toNat * 2 ^ 8 < 256 ^ (m + 1) * 2 ^ 8 :=
                Nat.mul_lt_mul_of_pos_right hbound (by decide)
            _ = 2 ^ (8 * (m + 1 + 1)) := by
                rw [show (256 : ℕ) = 2 ^ 8 from rfl, ← pow_mul, ← pow_add, Nat.mul_succ 8 (m + 1)]
            _ ≤ 2 ^ v := Nat.pow_le_pow_right (by decide) hv
        have hbyte : (data.bytes[index.toNat + (m + 1)].toBitVec.setWidth v).toNat =
            data.bytes[index.toNat + (m + 1)].toNat :=
          BitVec.toNat_setWidth_of_le (by omega)
        rw [Buffer.slice_succ (by omega), beValue_concat, ← hvalue, BitVec.toNat_or, hbyte,
          BitVec.toNat_shiftLeft, Nat.shiftLeft_eq, Nat.mod_eq_of_lt hlt, Nat.lor_comm,
          ← Nat.shiftLeft_eq, ← Nat.shiftLeft_add_eq_or_of_lt (UInt8.toNat_lt _),
          Nat.shiftLeft_eq]

/-- **The little endian recursion** inside of the buffer, of up to four bytes. -/
theorem toNat_leBytesUint32 (hn : 1 ≤ n) (hn4 : n ≤ 4)
    (h : index.toNat + n ≤ data.bytes.length) :
    ∃ r, leBytesUint32 data index n = some r ∧
      r.toNat = leValue (data.slice index.toNat n) := by
  have hsize := data.length_lt
  induction n, hn using Nat.le_induction with
  | base =>
      refine ⟨data.bytes[index.toNat].toBitVec.setWidth 32, ?_, ?_⟩
      · rw [leBytesUint32, Buffer.read_eq rfl (by omega), Option.map_some]
      · rw [Buffer.slice_one (by omega), BitVec.toNat_setWidth_of_le (by omega)]
        exact Nat.ofDigits_singleton.symm
  | succ n hn ih =>
      obtain ⟨rest, hrest, hvalue⟩ := ih (by omega) (by omega)
      obtain ⟨m, rfl⟩ : ∃ m, n = m + 1 := ⟨n - 1, by omega⟩
      have hread : data.read (index + .ofNat (m + 1)) =
          some data.bytes[index.toNat + (m + 1)].toBitVec :=
        Buffer.read_eq (toNat_add_ofNat (by omega)) (by omega)
      refine ⟨data.bytes[index.toNat + (m + 1)].toBitVec.setWidth 32 <<< (8 * (m + 1)) ||| rest,
        ?_, ?_⟩
      · rw [leBytesUint32, if_pos (by omega), hread, Option.bind_some, hrest, Option.map_some]
      · have hpow : (256 : ℕ) ^ (m + 1) = 2 ^ (8 * (m + 1)) := by
          rw [show (256 : ℕ) = 2 ^ 8 from rfl, ← pow_mul]
        have hbound : rest.toNat < 2 ^ (8 * (m + 1)) := by
          have hbound := leValue_lt (data.slice index.toNat (m + 1))
          rwa [Buffer.length_slice (by omega), ← hvalue, hpow] at hbound
        have hlt : data.bytes[index.toNat + (m + 1)].toNat * 2 ^ (8 * (m + 1)) < 2 ^ 32 := by
          calc data.bytes[index.toNat + (m + 1)].toNat * 2 ^ (8 * (m + 1))
              < 2 ^ 8 * 2 ^ (8 * (m + 1)) :=
                Nat.mul_lt_mul_of_pos_right (UInt8.toNat_lt _) (Nat.two_pow_pos _)
            _ = 2 ^ (8 + 8 * (m + 1)) := (pow_add 2 8 (8 * (m + 1))).symm
            _ ≤ 2 ^ 32 := Nat.pow_le_pow_right (by decide) (by omega)
        have hbyte : (data.bytes[index.toNat + (m + 1)].toBitVec.setWidth 32).toNat =
            data.bytes[index.toNat + (m + 1)].toNat :=
          BitVec.toNat_setWidth_of_le (by decide)
        rw [Buffer.slice_succ (by omega), leValue_concat, ← hvalue, Buffer.length_slice (by omega),
          BitVec.toNat_or, BitVec.toNat_shiftLeft, hbyte, Nat.shiftLeft_eq, Nat.mod_eq_of_lt hlt,
          hpow, ← Nat.shiftLeft_eq, ← Nat.shiftLeft_add_eq_or_of_lt hbound]

theorem leBytesUint32_eq_none (hn : 5 ≤ n) : leBytesUint32 data index n = none := by
  obtain ⟨m, rfl⟩ : ∃ m, n = m + 2 := ⟨n - 2, by omega⟩
  rw [leBytesUint32, if_neg (by omega)]

/-! ### When they are exact -/

theorem le_add_ofNat_iff :
    data.size ≤ index + .ofNat (n - 1) ↔
      data.bytes.length ≤ (index.toNat + (n - 1)) % 2 ^ 32 := by
  rw [UInt32.le_iff_toNat_le, UInt32.toNat_add, UInt32.toNat_ofNat', Nat.add_mod_mod, Buffer.size,
    UInt32.toNat_ofNat', Nat.mod_eq_of_lt data.length_lt]

/-- An accessor answers false exactly outside of the buffer, where its check is right. -/
theorem access_exact_iff {α : Type} {value : Option α} {P : α → Prop} (hn : 1 ≤ n) (hn8 : n ≤ 8) :
    ((data.bytes.length < index.toNat + n →
        access index data.size n value = some none) ∧
      (index.toNat + n ≤ data.bytes.length →
        ∃ r, access index data.size n value = some (some r) ∧ P r)) ↔
      Checked n data index ∧
        (index.toNat + n ≤ data.bytes.length → ∃ r, value = some r ∧ P r) := by
  have hsize := data.length_lt
  have hindex := index.toNat_lt
  -- the accessor answers false exactly when the sum, which may wrap, is outside
  have hfalse : access index data.size n value = some none ↔
      data.bytes.length ≤ (index.toNat + (n - 1)) % 2 ^ 32 := by
    rw [← le_add_ofNat_iff, access]
    split
    next h => exact iff_of_true rfl h
    next h =>
      refine iff_of_false (fun heq => ?_) h
      obtain ⟨r, -, hr⟩ := Option.map_eq_some_iff.mp heq
      cases hr
  have hvalue : index.toNat + n ≤ data.bytes.length → access index data.size n value =
      value.map some := by
    intro hin
    rw [access, if_neg]
    rw [le_add_ofNat_iff, Nat.mod_eq_of_lt (by omega)]
    omega
  rw [hfalse]
  constructor
  · rintro ⟨hout, hin⟩
    refine ⟨?_, fun h => ?_⟩
    · by_contra hwrap
      rw [Checked, not_or, Nat.not_lt, Nat.not_le] at hwrap
      have := hout (by omega)
      rw [Nat.mod_eq_sub_mod hwrap.1, Nat.mod_eq_of_lt (by omega)] at this
      omega
    · obtain ⟨r, hr, hP⟩ := hin h
      rw [hvalue h, Option.map_eq_some_iff] at hr
      obtain ⟨r', hr', heq⟩ := hr
      exact ⟨r', hr', Option.some.inj heq ▸ hP⟩
  · rintro ⟨hcheck, hin⟩
    refine ⟨fun h => ?_, fun h => ?_⟩
    · rcases hcheck with hlt | hwrap
      · rw [Nat.mod_eq_of_lt hlt]
        omega
      · rw [Nat.mod_eq_sub_mod (by omega), Nat.mod_eq_of_lt (by omega)]
        omega
    · obtain ⟨r, hr, hP⟩ := hin h
      exact ⟨r, by rw [hvalue h, hr, Option.map_some], hP⟩

/-- The sign of as many bytes is extended. -/
theorem toInt_signExtendConst {r : BitVec v} {x : ℕ} (hn : 1 ≤ n) (hv : 8 * n ≤ v)
    (hr : r.toNat = x) (hx : x < 256 ^ n) :
    (signExtendConst v (n * 8 - 1) r).toInt = (BitVec.ofNat (8 * n) x).toInt := by
  have hpow : (256 : ℕ) ^ n = 2 ^ (8 * n) := by
    rw [show (256 : ℕ) = 2 ^ 8 from rfl, ← pow_mul]
  have hsucc : n * 8 - 1 + 1 = 8 * n := by omega
  have hlow : ∀ i, n * 8 - 1 < i → r.getLsbD i = false := by
    intro i hi
    rw [← BitVec.testBit_toNat, hr]
    exact Nat.testBit_lt_two_pow
      (Nat.lt_of_lt_of_le (hpow ▸ hx) (Nat.pow_le_pow_right (by decide) (by omega)))
  have hfield : r.setWidth (n * 8 - 1 + 1) = BitVec.ofNat (n * 8 - 1 + 1) x := by
    refine BitVec.eq_of_toNat_eq ?_
    rw [BitVec.toNat_setWidth, BitVec.toNat_ofNat, hr]
  rw [signExtendConst_eq r (by omega) le_rfl,
    (signExtend_eq_iff r (by omega) le_rfl).mpr (.inr hlow),
    hfield, hsucc, BitVec.toInt_signExtend_of_le hv]

theorem unsignedExact_be_iff (hn : 1 ≤ n) (hn8 : n ≤ 8) (hv : 8 * n ≤ v) :
    UnsignedExact beValue n data index (getUintBuffBe v n data index) ↔ Checked n data index := by
  rw [UnsignedExact, getUintBuffBe, access_exact_iff hn hn8]
  exact and_iff_left fun h => toNat_beBytesUint hn hv h

/-- The signed ones. -/
theorem signedExact_be_iff (hn : 1 ≤ n) (hn8 : n ≤ 8) (hv : 8 * n ≤ v) :
    SignedExact beValue n data index (getBuffIntBe v n data index) ↔ Checked n data index := by
  rw [SignedExact, getBuffIntBe, access_exact_iff hn hn8]
  refine and_iff_left fun h => ?_
  obtain ⟨r, hr, hvalue⟩ := toNat_beBytesUint hn hv h
  have hlt := beValue_lt (data.slice index.toNat n)
  rw [Buffer.length_slice h] at hlt
  exact ⟨_, by rw [hr, Option.map_some], toInt_signExtendConst hn hv hvalue hlt⟩

/-- The unsigned little endian accessors: of up to four bytes. -/
theorem unsignedExact_le_iff (hn : 1 ≤ n) (hn8 : n ≤ 8) (hv : 8 * n ≤ v) :
    UnsignedExact leValue n data index (getBuffUintLe v n data index) ↔
      Checked n data index ∧ (n ≤ 4 ∨ data.bytes.length < index.toNat + n) := by
  rw [UnsignedExact, getBuffUintLe, access_exact_iff hn hn8]
  refine and_congr_right fun _ => ⟨fun h => ?_, fun h hin => ?_⟩
  · by_contra hwide
    rw [not_or, Nat.not_le, Nat.not_lt] at hwide
    obtain ⟨r, hr, -⟩ := h hwide.2
    rw [leBytesUint, leBytesUint32_eq_none hwide.1] at hr
    cases hr
  · obtain ⟨r, hr, hvalue⟩ := toNat_leBytesUint32 hn (h.resolve_right (by omega)) hin
    refine ⟨r.setWidth v, by rw [leBytesUint, hr, Option.map_some], ?_⟩
    have hlt := leValue_lt (data.slice index.toNat n)
    rw [Buffer.length_slice hin, ← hvalue, show (256 : ℕ) = 2 ^ 8 from rfl, ← pow_mul] at hlt
    rw [BitVec.toNat_setWidth, Nat.mod_eq_of_lt
      (Nat.lt_of_lt_of_le hlt (Nat.pow_le_pow_right (by decide) hv)), hvalue]

/-- The signed little endian accessor: of bytes that are the same from both ends. -/
theorem signedExact_le_iff (hn : 1 ≤ n) (hn8 : n ≤ 8) (hv : 8 * n ≤ v) :
    SignedExact leValue n data index (getBuffIntLe v n data index) ↔
      Checked n data index ∧ (index.toNat + n ≤ data.bytes.length →
        (data.slice index.toNat n).reverse = data.slice index.toNat n) := by
  rw [SignedExact, getBuffIntLe, access_exact_iff hn hn8]
  refine and_congr_right fun _ => forall_congr' fun hin => ?_
  obtain ⟨r, hr, hvalue⟩ := toNat_beBytesUint hn hv hin
  have hlen := Buffer.length_slice hin
  have hbe := beValue_lt (data.slice index.toNat n)
  have hle := leValue_lt (data.slice index.toNat n)
  rw [hlen] at hbe hle
  have hsame : (signExtendConst v (n * 8 - 1) r).toInt =
      (BitVec.ofNat (8 * n) (leValue (data.slice index.toNat n))).toInt ↔
        beValue (data.slice index.toNat n) = leValue (data.slice index.toNat n) := by
    rw [show (256 : ℕ) = 2 ^ 8 from rfl, ← pow_mul] at hbe hle
    rw [toInt_signExtendConst hn hv hvalue (by rwa [show (256 : ℕ) = 2 ^ 8 from rfl, ← pow_mul]),
      BitVec.toInt_inj, ← BitVec.toNat_inj, BitVec.toNat_ofNat, BitVec.toNat_ofNat,
      Nat.mod_eq_of_lt hbe, Nat.mod_eq_of_lt hle]
  rw [beValue, leValue_inj List.length_reverse] at hsame
  rw [hr, Option.map_some]
  constructor
  · rintro ⟨r', hr', hint⟩
    obtain rfl := Option.some.inj hr'
    exact hsame.mp hint
  · exact fun h => ⟨_, rfl, hsame.mpr h⟩

end Values

/-- **When the accessors are exact**: the big endian ones where the sum of the check does not
wrap into the buffer, the unsigned little endian ones where it does not and there are four bytes
at most, and the signed little endian one where it does not and the bytes are the same from both
ends. -/
theorem accessors_exact_iff (data : Buffer) (index : UInt32) (n v : ℕ) (hn : 1 ≤ n) (hn8 : n ≤ 8)
    (hv : 8 * n ≤ v) :
    (UnsignedExact beValue n data index (getUintBytesBe v n data index data.size) ↔
        Checked n data index) ∧
      (UnsignedExact beValue n data index (getUintBuffBe v n data index) ↔
        Checked n data index) ∧
      (SignedExact beValue n data index (getIntBytesBe v n data index data.size) ↔
        Checked n data index) ∧
      (SignedExact beValue n data index (getBuffIntBe v n data index) ↔ Checked n data index) ∧
      (UnsignedExact leValue n data index (getBytesUintLe v n data index data.size) ↔
        Checked n data index ∧ (n ≤ 4 ∨ data.bytes.length < index.toNat + n)) ∧
      (UnsignedExact leValue n data index (getBuffUintLe v n data index) ↔
        Checked n data index ∧ (n ≤ 4 ∨ data.bytes.length < index.toNat + n)) ∧
      (SignedExact leValue n data index (getBuffIntLe v n data index) ↔
        Checked n data index ∧ (index.toNat + n ≤ data.bytes.length →
          (data.slice index.toNat n).reverse = data.slice index.toNat n)) :=
  ⟨unsignedExact_be_iff hn hn8 hv, unsignedExact_be_iff hn hn8 hv, signedExact_be_iff hn hn8 hv,
    signedExact_be_iff hn hn8 hv, unsignedExact_le_iff hn hn8 hv, unsignedExact_le_iff hn hn8 hv,
    signedExact_le_iff hn hn8 hv⟩

/-- Two bytes of a buffer. -/
theorem accessors_exact_iff_two :
    (UnsignedExact beValue 2 ⟨[1, 2], by decide⟩ 0
        (getUintBytesBe 16 2 ⟨[1, 2], by decide⟩ 0 (Buffer.size ⟨[1, 2], by decide⟩)) ↔
      Checked 2 ⟨[1, 2], by decide⟩ 0) ∧ 1 ≤ 2 ∧ 2 ≤ 8 ∧ 8 * 2 ≤ 16 :=
  ⟨(accessors_exact_iff ⟨[1, 2], by decide⟩ 0 2 16 (by decide) (by decide) (by decide)).1,
    by decide, by decide, by decide⟩

/-- An index at the end of 32 bits, five bytes of the lowest first, and two signed ones. -/
theorem not_accessors_exact :
    getUintBytesBe 16 2 ⟨[1, 2], by decide⟩ 0xFFFFFFFF 2 ≠ some none ∧
      getBuffUintLe 64 5 ⟨[1, 2, 3, 4, 5], by decide⟩ 0 = none ∧
      getBuffIntLe 16 2 ⟨[1, 2], by decide⟩ 0 = some (some 0x0102) ∧
      leValue [1, 2] = 0x0201 := by
  decide

end Ovms.Utils
