import Mathlib.Data.List.Basic

/-!
# CAN Frames

`CAN_frame_t` (`components/can/src/can.h`): the bus a frame belongs to, its format, its
identifier, the 4-bit data length code and eight data bytes. The eight bytes are always
there, whatever the length code says; that there are eight of them is a field of the
frame, so no frame of another size can be built.
-/

namespace Ovms.Can

/-- `CAN_frame_format_t`: 11-bit or 29-bit identifier. -/
inductive FrameFormat
  | std | ext
  deriving DecidableEq, Repr

/-- `CAN_frame_t`. The origin is the number of the bus. -/
structure CanFrame where
  origin : ℕ
  format : FrameFormat
  msgId : UInt32
  dlc : Fin 16
  data : List UInt8
  size : data.length = 8
  deriving DecidableEq, Repr

/-- Data byte `i`: `data.u8[i]`. -/
def CanFrame.u8 (f : CanFrame) (i : ℕ) : UInt8 := f.data.getD i 0

/-- Eight bytes: the given ones, then the filler. -/
def fill (filler : UInt8) (bytes : List UInt8) : List UInt8 :=
  (bytes ++ List.replicate 8 filler).take 8

@[simp] theorem length_fill (filler : UInt8) (bytes : List UInt8) :
    (fill filler bytes).length = 8 := by
  rw [fill, List.length_take, List.length_append, List.length_replicate]
  omega

theorem fill_eq {filler : UInt8} {bytes : List UInt8} (h : bytes.length ≤ 8) :
    fill filler bytes = bytes ++ List.replicate (8 - bytes.length) filler := by
  rw [fill, List.take_append, List.take_of_length_le h, List.take_replicate]
  congr 2
  omega

/-- A number as a length code, of four bits. -/
def lengthCode (n : ℕ) : Fin 16 := .ofNat 16 n

theorem val_lengthCode {n : ℕ} (h : n < 16) : (lengthCode n).val = n :=
  Nat.mod_eq_of_lt h

/-- A frame with eight data bytes, filled up with zeros. -/
def CanFrame.zeroFilled (origin : ℕ) (format : FrameFormat) (msgId : UInt32) (dlc : ℕ)
    (bytes : List UInt8) : CanFrame where
  origin := origin
  format := format
  msgId := msgId
  dlc := lengthCode dlc
  data := fill 0 bytes
  size := length_fill 0 bytes

/-- The frame of `canbus::WriteStandard` with a length of eight. -/
def writeStandard (origin : ℕ) (id : UInt16) (bytes : List UInt8) : CanFrame :=
  .zeroFilled origin .std id.toUInt32 8 bytes

/-- The frame of `canbus::WriteExtended` with a length of eight. -/
def writeExtended (origin : ℕ) (id : UInt32) (bytes : List UInt8) : CanFrame :=
  .zeroFilled origin .ext id 8 bytes

theorem u8_writeStandard {bytes : List UInt8} (h : bytes.length = 8) (origin : ℕ) (id : UInt16)
    (i : ℕ) : (writeStandard origin id bytes).u8 i = bytes.getD i 0 := by
  have hfill : fill 0 bytes = bytes := by
    rw [fill_eq (Nat.le_of_eq h), h]
    exact List.append_nil bytes
  exact congrArg (List.getD · i 0) hfill

end Ovms.Can
