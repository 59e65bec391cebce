import Ovms.Lib.Bytes

/-!
# BAP Elements and Frame Control Bytes

The bottom of the BAP codec (`bap/bap.h`, `bap/bap.cpp`): the two-byte application
header of a telegram, the decoded `Element`, and the control byte that tells a short
frame from a start frame and a continuation.

An element's body is a list of bytes. The source hands out a pointer and a length, and
the pointer is null exactly when the length is zero, so the list carries both.
-/

open Lib

namespace Ovms.Bap

/-- BAP operation codes, the top nibble of the element header. -/
inductive Opcode
  | get | setGet | heartbeat | status | statusAck | ack | error
  deriving DecidableEq, Repr

/-- The value of an operation code on the wire. -/
def Opcode.code : Opcode → UInt8
  | get => 1
  | setGet => 2
  | heartbeat => 3
  | status => 4
  | statusAck => 5
  | ack => 6
  | error => 7

/-- A decoded BAP element: the application header fields and the body. -/
structure Element where
  opcode : UInt8
  lsg : UInt8
  func : UInt8
  body : List UInt8
  deriving DecidableEq, Repr

/-- The 12-bit function id `(lsg << 6) | func`. -/
def func12 (lsg func : UInt8) : UInt16 :=
  (lsg &&& 0x3F).toUInt16 <<< 6 ||| (func &&& 0x3F).toUInt16

/-- Encode the two header bytes of `(opcode, lsg, func)`. -/
def encodeHeader (opcode lsg func : UInt8) : UInt8 × UInt8 :=
  ((opcode &&& 0x0F) <<< 4 ||| ((func12 lsg func >>> 8).toUInt8 &&& 0x0F),
    (func12 lsg func &&& 0xFF).toUInt8)

/-- Decode two header bytes into `(opcode, lsg, func)`. -/
def decodeHeader (in0 in1 : UInt8) : UInt8 × UInt8 × UInt8 :=
  let func12 : UInt16 := (in0 &&& 0x0F).toUInt16 <<< 8 ||| in1.toUInt16
  (in0 >>> 4, (func12 >>> 6).toUInt8, (func12 &&& 0x3F).toUInt8)

/-- Decode a fully reassembled element, header first; `none` below two bytes. -/
def decodeElement : List UInt8 → Option Element
  | in0 :: in1 :: body =>
      let h := decodeHeader in0 in1
      some ⟨h.1, h.2.1, h.2.2, body⟩
  | _ => none

/-! ### The header on the wire -/

/-- The function id as a number. -/
theorem toNat_func12 (lsg func : UInt8) :
    (func12 lsg func).toNat = lsg.toNat % 2 ^ 6 * 2 ^ 6 + func.toNat % 2 ^ 6 := by
  have hshift : (6 : UInt16).toNat % 16 = 6 := rfl
  rw [func12, UInt16.toNat_or, UInt16.toNat_shiftLeft, UInt8.toNat_toUInt16,
    UInt8.toNat_toUInt16, Lib.UInt8.toNat_and_mask lsg (k := 6) rfl,
    Lib.UInt8.toNat_and_mask func (k := 6) rfl, hshift]
  have hfit : (lsg.toNat % 2 ^ 6) <<< 6 < 2 ^ 16 := by
    rw [Nat.shiftLeft_eq]
    omega
  rw [Nat.mod_eq_of_lt hfit, shiftLeft_or_eq _ (by omega)]

/-- The first header byte as a number: the opcode nibble over the high bits of the
device id. -/
theorem toNat_encodeHeader_fst (opcode lsg func : UInt8) :
    (encodeHeader opcode lsg func).1.toNat
      = opcode.toNat % 2 ^ 4 * 2 ^ 4 + lsg.toNat % 2 ^ 6 / 2 ^ 2 := by
  have h4 : (4 : UInt8).toNat % 8 = 4 := rfl
  have h8 : (8 : UInt16).toNat % 16 = 8 := rfl
  rw [encodeHeader, UInt8.toNat_or, UInt8.toNat_shiftLeft,
    Lib.UInt8.toNat_and_mask opcode (k := 4) rfl, Lib.UInt8.toNat_and_mask _ (k := 4) rfl,
    UInt16.toNat_toUInt8, UInt16.toNat_shiftRight, toNat_func12, h4, h8,
    Nat.shiftRight_eq_div_pow]
  have hfit : (opcode.toNat % 2 ^ 4) <<< 4 < 2 ^ 8 := by
    rw [Nat.shiftLeft_eq]
    omega
  rw [Nat.mod_eq_of_lt hfit, shiftLeft_or_eq _ (by omega)]
  omega

/-- The second header byte as a number: the low bits of the device id over the function
id. -/
theorem toNat_encodeHeader_snd (opcode lsg func : UInt8) :
    (encodeHeader opcode lsg func).2.toNat
      = lsg.toNat % 2 ^ 2 * 2 ^ 6 + func.toNat % 2 ^ 6 := by
  rw [encodeHeader, UInt16.toNat_toUInt8, Lib.UInt16.toNat_and_mask _ (k := 8) rfl,
    toNat_func12]
  omega

/-- The function id the decoder assembles from two header bytes, as a number. -/
theorem toNat_headerBits (in0 in1 : UInt8) :
    ((in0 &&& 0x0F).toUInt16 <<< 8 ||| in1.toUInt16).toNat
      = in0.toNat % 2 ^ 4 * 2 ^ 8 + in1.toNat := by
  have h8 : (8 : UInt16).toNat % 16 = 8 := rfl
  have hin1 := in1.toNat_lt
  rw [UInt16.toNat_or, UInt16.toNat_shiftLeft, UInt8.toNat_toUInt16, UInt8.toNat_toUInt16,
    Lib.UInt8.toNat_and_mask in0 (k := 4) rfl, h8]
  have hfit : (in0.toNat % 2 ^ 4) <<< 8 < 2 ^ 16 := by
    rw [Nat.shiftLeft_eq]
    omega
  rw [Nat.mod_eq_of_lt hfit, shiftLeft_or_eq _ (by omega)]

/-- **The header round trip**: opcodes of four bits and device and function ids of six
bits survive the wire. -/
theorem decodeHeader_encodeHeader {opcode lsg func : UInt8} (ho : opcode.toNat < 16)
    (hl : lsg.toNat < 64) (hf : func.toNat < 64) :
    decodeHeader (encodeHeader opcode lsg func).1 (encodeHeader opcode lsg func).2
      = (opcode, lsg, func) := by
  have h1 := toNat_encodeHeader_fst opcode lsg func
  have h2 := toNat_encodeHeader_snd opcode lsg func
  generalize encodeHeader opcode lsg func = h at h1 h2
  have hbits := toNat_headerBits h.1 h.2
  rw [decodeHeader, Prod.mk.injEq, Prod.mk.injEq]
  refine ⟨UInt8.toNat_inj.mp ?_, UInt8.toNat_inj.mp ?_, UInt8.toNat_inj.mp ?_⟩
  · have h4 : (4 : UInt8).toNat % 8 = 4 := rfl
    rw [UInt8.toNat_shiftRight, h4, Nat.shiftRight_eq_div_pow]
    omega
  · have h6 : (6 : UInt16).toNat % 16 = 6 := rfl
    rw [UInt16.toNat_toUInt8, UInt16.toNat_shiftRight, h6, Nat.shiftRight_eq_div_pow, hbits]
    omega
  · rw [UInt16.toNat_toUInt8, Lib.UInt16.toNat_and_mask _ (k := 6) rfl, hbits]
    omega

/-! ### Frame control bytes -/

/-- A start frame of a segmented telegram: top nibble `8..B`. -/
def isSegStart (b : UInt8) : Bool := b >>> 4 ≥ 0x8 && b >>> 4 ≤ 0xB

/-- A continuation frame: top nibble `C..F`. -/
def isSegCont (b : UInt8) : Bool := b >>> 4 ≥ 0xC

/-- A short frame: bit 7 clear, the byte is the first header byte. -/
def isShortFrame (b : UInt8) : Bool := b &&& 0x80 == 0

/-- The interleave channel of a segmented frame. -/
def segGroup (b : UInt8) : UInt8 := b >>> 4 &&& 0x3

/-- The continuation index of a continuation frame. -/
def segIndex (b : UInt8) : UInt8 := b &&& 0xF

/-- The control byte of a start frame on channel `group`. -/
def startControl (group : UInt8) : UInt8 := (0x80 : UInt8) ||| (group &&& 0x3) <<< 4

/-- The control byte of a continuation on channel `group` with index `index`. -/
def contControl (group index : UInt8) : UInt8 :=
  (0xC0 : UInt8) ||| (group &&& 0x3) <<< 4 ||| (index &&& 0xF)

theorem isShortFrame_of_lt {b : UInt8} (h : b.toNat < 128) : isShortFrame b = true := by
  have hb : b = UInt8.ofNat b.toNat := (UInt8.ofNat_toNat).symm
  revert hb
  generalize b.toNat = n at h
  rintro rfl
  revert n
  decide

theorem isShortFrame_encodeHeader {opcode : UInt8} (lsg func : UInt8)
    (ho : opcode.toNat ≤ 7) : isShortFrame (encodeHeader opcode lsg func).1 = true := by
  refine isShortFrame_of_lt ?_
  rw [toNat_encodeHeader_fst]
  omega

theorem exists_fin_of_mask {m : UInt8} {k : ℕ} (x : UInt8) (h : m.toNat = 2 ^ k - 1) :
    ∃ i : Fin (2 ^ k), x &&& m = UInt8.ofNat i.val := by
  have hmod := Lib.UInt8.toNat_and_mask x h
  refine ⟨⟨(x &&& m).toNat, ?_⟩, (UInt8.ofNat_toNat).symm⟩
  rw [hmod]
  exact Nat.mod_lt _ (Nat.two_pow_pos k)

private theorem startControl_table : ∀ g : Fin 4,
    isShortFrame ((0x80 : UInt8) ||| UInt8.ofNat g.val <<< 4) = false ∧
    isSegStart ((0x80 : UInt8) ||| UInt8.ofNat g.val <<< 4) = true ∧
    segGroup ((0x80 : UInt8) ||| UInt8.ofNat g.val <<< 4) = UInt8.ofNat g.val := by
  decide

private theorem contControl_table : ∀ (g : Fin 4) (k : Fin 16),
    let b := (0xC0 : UInt8) ||| UInt8.ofNat g.val <<< 4 ||| UInt8.ofNat k.val
    isShortFrame b = false ∧ isSegStart b = false ∧ isSegCont b = true ∧
      segGroup b = UInt8.ofNat g.val ∧ segIndex b = UInt8.ofNat k.val := by
  decide

theorem startControl_spec (group : UInt8) :
    isShortFrame (startControl group) = false ∧ isSegStart (startControl group) = true ∧
      segGroup (startControl group) = group &&& 0x3 := by
  obtain ⟨g, hg⟩ := exists_fin_of_mask group (m := 0x3) (k := 2) rfl
  rw [startControl, hg]
  exact startControl_table g

/-- A continuation control byte reads as a continuation of the sender's channel, with the
sender's index. -/
theorem contControl_spec (group index : UInt8) :
    isShortFrame (contControl group index) = false ∧
      isSegStart (contControl group index) = false ∧
      isSegCont (contControl group index) = true ∧
      segGroup (contControl group index) = group &&& 0x3 ∧
      segIndex (contControl group index) = index &&& 0xF := by
  obtain ⟨g, hg⟩ := exists_fin_of_mask group (m := 0x3) (k := 2) rfl
  obtain ⟨k, hk⟩ := exists_fin_of_mask index (m := 0xF) (k := 4) rfl
  rw [contControl, hg, hk]
  exact contControl_table g k

end Ovms.Bap
