import Ovms.Can.Frame
import Ovms.Buffer.OvmsBuffer
import Mathlib.Algebra.Group.Nat.Defs
import Mathlib.Data.Int.Notation

/-!
# Log Formats

What the CAN log formats (`components/can/src/canformat*.cpp`) have in common. A format
writes a log message as text or as a record (`get`), and reads messages from a stream that
comes in chunks (`put`). The chunk is stuffed into a buffer of the format; each call of
`put` takes at most one message out of the buffer, and asks to be called again.

The buffer is the bounded queue that `OvmsBuffer` was shown to be. Everything else a call
reads is in `Env`. Of a log message this module has the types that hold a frame; status and
text messages are only ever written.

A copy whose length comes from the stream may run over what it copies to or from. Such an
access is recorded with its extent; what it does to the memory beyond is not modelled, and
the call goes on as the code would.
-/

open Lib Ovms.Can Ovms.Buffer

namespace Ovms.Canlog

/-! ### Log messages -/

/-- `CAN_log_type_t`, of the messages that hold a frame. -/
inductive LogType
  | none | frameRX | frameTX | frameTXQueue | frameTXFail
  deriving DecidableEq, Repr

/-- `struct timeval`, of a time since 1970. -/
structure Timeval where
  sec : ℕ
  usec : ℕ
  sec_lt : sec < 9223372036854775808
  usec_lt : usec < 1000000
  deriving DecidableEq, Repr

/-- The cleared time. -/
def Timeval.zero : Timeval := ⟨0, 0, Nat.succ_pos _, Nat.succ_pos _⟩

/-- `CAN_frame_t`. The origin is the number of the bus; it may be missing. -/
@[ext]
structure Frame where
  origin : Option ℕ
  rtr : Bool
  format : FrameFormat
  msgId : UInt32
  dlc : Fin 16
  data : List UInt8
  size : data.length = 8
  deriving Repr

instance : DecidableEq Frame := fun _ _ => decidable_of_iff' _ Frame.ext_iff

/-- The cleared frame. -/
def Frame.zero : Frame := ⟨Option.none, false, .std, 0, lengthCode 0, fill 0 [], length_fill 0 []⟩

/-- Eight bytes, the first of them overwritten. What goes further is not in them. -/
def overwrite (data bytes : List UInt8) : List UInt8 := (bytes ++ data.drop bytes.length).take 8

theorem length_overwrite {data : List UInt8} (h : data.length = 8) (bytes : List UInt8) :
    (overwrite data bytes).length = 8 := by
  rw [overwrite, List.length_take, List.length_append, List.length_drop, h]
  omega

/-- The frame with bytes copied to the start of its data. -/
def Frame.copy (f : Frame) (bytes : List UInt8) : Frame :=
  { f with data := overwrite f.data bytes, size := length_overwrite f.size bytes }

/-- The frame with data byte `k` set. -/
def Frame.set (f : Frame) (k : ℕ) (byte : UInt8) : Frame :=
  { f with data := f.data.set k byte, size := List.length_set.trans f.size }

theorem Frame.take_set (f : Frame) {k : ℕ} (hk : k < 8) (byte : UInt8) :
    (f.set k byte).data.take (k + 1) = f.data.take k ++ [byte] := by
  have hsize : k < f.data.length := Nat.lt_of_lt_of_eq hk f.size.symm
  change (f.data.set k byte).take (k + 1) = _
  rw [List.take_add_one, List.getElem?_set_self hsize, List.take_set_of_le (Nat.le_refl k)]
  rfl

/-- The data bytes that the length code says are there. -/
def Frame.payload (f : Frame) : List UInt8 := f.data.take f.dlc.val

theorem Frame.length_payload_le (f : Frame) : f.payload.length ≤ 8 := by
  rw [payload, ← f.size]
  exact List.length_take_le' ..

theorem Frame.length_payload {f : Frame} (h : f.dlc.val ≤ 8) : f.payload.length = f.dlc.val := by
  rw [payload, List.length_take, f.size, Nat.min_eq_left h]

theorem Frame.payload_copy {f : Frame} {bytes : List UInt8} (hlen : bytes.length ≤ 8)
    (hdlc : f.dlc.val = bytes.length) : (f.copy bytes).payload = bytes := by
  change (overwrite f.data bytes).take f.dlc.val = bytes
  rw [hdlc, overwrite, List.take_take, Nat.min_eq_left hlen, List.take_left' rfl]

theorem length_zeroFill (bytes : List UInt8) : (fill 0 bytes).length = 8 := length_fill 0 bytes

/-- A frame with these data bytes, filled up with zeros. -/
def Frame.ofBytes (origin : Option ℕ) (format : FrameFormat) (msgId : UInt32)
    (bytes : List UInt8) : Frame :=
  ⟨origin, false, format, msgId, lengthCode bytes.length, fill 0 bytes, length_zeroFill bytes⟩

/-- Two frames of the same format, with the same identifier, length code and data bytes. -/
structure Frame.Agrees (f g : Frame) : Prop where
  format : f.format = g.format
  msgId : f.msgId = g.msgId
  dlc : f.dlc = g.dlc
  payload : f.payload = g.payload

/-- The identifier is one of the format: it has 11 bits or 29. -/
def Frame.IdFits (f : Frame) : Prop :=
  f.msgId.toNat < match f.format with
    | .std => 2 ^ 11
    | .ext => 2 ^ 29

/-- `CAN_log_message_t`. -/
structure LogMessage where
  type : LogType
  timestamp : Timeval
  frame : Frame
  deriving DecidableEq, Repr

/-- The cleared message. -/
def LogMessage.zero : LogMessage := ⟨.none, .zero, .zero⟩

/-! ### Buses -/

/-- `CAN_mode_t`. -/
inductive CanMode
  | off | listen | active
  deriving DecidableEq, Repr

/-- `CAN_speed_t`. -/
inductive CanSpeed
  | kbps33 | kbps50 | kbps83 | kbps100 | kbps125 | kbps250 | kbps500 | kbps1000
  deriving DecidableEq, Repr

/-- `MAP_CAN_SPEED`. -/
def CanSpeed.bitsPerSecond : CanSpeed → UInt32
  | .kbps33 => 33333
  | .kbps50 => 50000
  | .kbps83 => 83333
  | .kbps100 => 100000
  | .kbps125 => 125000
  | .kbps250 => 250000
  | .kbps500 => 500000
  | .kbps1000 => 1000000

/-- What a call of a format reads besides its arguments: the buses there are, with mode and
speed, the time, and whether it is called for a connection. -/
structure Env where
  present : ℕ → Bool
  mode : ℕ → CanMode
  speed : ℕ → CanSpeed
  now : Timeval
  connected : Bool

/-- `can::GetBus`. There are at most `CAN_MAXBUSES` of them. -/
def Env.getBus (env : Env) (busnumber : ℤ) : Option ℕ :=
  if busnumber < 0 ∨ 5 ≤ busnumber then none
  else if env.present busnumber.toNat then some busnumber.toNat else none

/-- All buses are there. -/
def Env.full : Env := ⟨fun _ => true, fun _ => .active, fun _ => .kbps500, .zero, false⟩

theorem Env.getBus_eq_none (env : Env) {n : ℤ} (h : n < 0 ∨ 5 ≤ n) : env.getBus n = none := by
  rw [getBus, if_pos h]

theorem Env.lt_of_getBus {env : Env} {b c : ℕ} (h : env.getBus b = some c) : b < 5 := by
  by_contra hge
  rw [Env.getBus_eq_none env (.inr (by omega))] at h
  cases h

/-! ### Decoders -/

/-- `CANFORMAT_SERVE_BUFFERSIZE`. -/
def serveBufferSize : ℕ := 1024

/-- `canformat_serve_mode_t`. -/
inductive ServeMode
  | discard | simulate | transmit
  deriving DecidableEq, Repr

/-- The members of `canformat`, and `m_syncing` of `canformat_cs11`. -/
structure Decoder where
  servemode : ServeMode
  servediscarding : Bool
  buf : Fifo UInt8 serveBufferSize
  syncing : Bool

namespace Decoder

/-- A new format. -/
def new (mode : ServeMode) : Decoder := ⟨mode, false, .empty, false⟩

/-- `IsServeDiscarding`. -/
def isServeDiscarding (d : Decoder) : Bool := d.servediscarding || d.servemode == .discard

/-- `SetServeDiscarding(true)`. -/
def setServeDiscarding (d : Decoder) : Decoder := { d with servediscarding := true }

/-- `m_buf.Pop`. -/
def pop (d : Decoder) (n : ℕ) : Decoder := { d with buf := d.buf.drop n }

/-- The bytes buffered. -/
def items (d : Decoder) : List UInt8 := d.buf.items

/-- `Stuff`: as much of the chunk as fits. -/
def stuff (d : Decoder) (chunk : List UInt8) : Decoder × ℕ :=
  let consumed := if chunk.length > d.buf.free then d.buf.free else chunk.length
  ({ d with buf := d.buf.push (chunk.take consumed) }, consumed)

/-- `m_buf.HasLine`. -/
def hasLine (d : Decoder) : Bool := (lineLength d.items).isSome

/-- `m_buf.ReadLine`. -/
def readLine (d : Decoder) : Decoder × List UInt8 :=
  (d.pop (lineExtent d.items), d.items.take ((lineLength d.items).getD 0))

end Decoder

/-- What a call does to other parts. -/
inductive Effect
  | incoming (frame : Frame)
  | write (frame : Frame)
  | transmit (bytes : List UInt8)
  | start (bus : ℕ) (speed : CanSpeed)
  | configure (bus : Option ℕ) (mode : CanMode) (speed : CanSpeed)
  | pauseTransmission
  | resumeTransmission
  | clearFilters
  | addFilter (filter : List UInt8)
  deriving DecidableEq, Repr

/-- What is done with a frame read, as the mode says. Without a bus it is dropped. -/
def serveFrame (mode : ServeMode) (f : Frame) : List Effect :=
  match f.origin, mode with
  | some _, .transmit => [.write f]
  | some _, .simulate => [.incoming f]
  | some _, .discard | none, _ => []

/-- What an access goes to: the data of a frame, the bytes in the buffer, the bytes taken
from it, or the local variable they are taken into. -/
inductive Region
  | frameData | buffered | record | scratch
  deriving DecidableEq, Repr

/-- An access to the first `extent` bytes of a region of `size` bytes. -/
structure Access where
  region : Region
  extent : ℕ
  size : ℕ
  deriving DecidableEq, Repr

/-- What a call of `put` leaves, but for the bytes it consumed: the format, whether it asks
to be called again, the message, and what it did. -/
structure Parsed where
  decoder : Decoder
  hasmore : Bool
  message : LogMessage
  effects : List Effect
  accesses : List Access

/-- Nothing but the state of the format changes. -/
def Parsed.quiet (decoder : Decoder) (hasmore : Bool) : Parsed :=
  ⟨decoder, hasmore, .zero, [], []⟩

/-- How every `put` that uses the buffer starts: a full buffer is the end of all reading,
and then the chunk is stuffed. It answers the bytes of the chunk consumed, too. -/
def bufferedPut (parse : Decoder → Parsed) (d : Decoder) (chunk : List UInt8) : ℕ × Parsed :=
  let d := if d.buf.free = 0 then d.setServeDiscarding else d
  if d.isServeDiscarding then (chunk.length, .quiet d false)
  else
    let stuffed := d.stuff chunk
    (stuffed.2, parse stuffed.1)

/-- What a format that reads lines does with its buffer: without a line, nothing. -/
def lineParse (parse : Decoder → List UInt8 → Parsed) (d : Decoder) : Parsed :=
  if d.hasLine then parse d.readLine.1 d.readLine.2 else .quiet d false

/-- The `put` of a format that reads lines. -/
def linePut (parse : Decoder → List UInt8 → Parsed) : Decoder → List UInt8 → ℕ × Parsed :=
  bufferedPut (lineParse parse)

/-! ### Reading a line -/

/-- The format with these bytes buffered. -/
def Decoder.holding (d : Decoder) (bytes : List UInt8) : Decoder :=
  { d with buf := (.empty : Fifo UInt8 serveBufferSize).push bytes }

theorem Decoder.items_holding {d : Decoder} {bytes : List UInt8}
    (h : bytes.length ≤ serveBufferSize) : (d.holding bytes).items = bytes :=
  Fifo.items_push h

/-- What is stuffed into an empty buffer. -/
theorem Decoder.stuff_of_items_eq_nil {d : Decoder} (h : d.items = []) (chunk : List UInt8) :
    d.stuff chunk =
      (d.holding (chunk.take serveBufferSize), min serveBufferSize chunk.length) := by
  have hbuf : d.buf = .empty := Fifo.ext h
  have hfree : d.buf.free = serveBufferSize := by rw [hbuf]; rfl
  rw [Decoder.stuff, hfree, hbuf]
  split
  · rename_i hgt
    rw [Nat.min_eq_left (Nat.le_of_lt hgt)]
    rfl
  · rename_i hle
    have hle' := Nat.le_of_not_lt hle
    rw [Nat.min_eq_right hle', List.take_of_length_le (Nat.le_refl _),
      List.take_of_length_le hle']
    rfl

/-- **What comes to an empty buffer is parsed from it**, as far as it fits. -/
theorem bufferedPut_of_items_eq_nil (parse : Decoder → Parsed) {d : Decoder}
    (hserve : d.isServeDiscarding = false) (hempty : d.items = []) (chunk : List UInt8) :
    bufferedPut parse d chunk =
      (min serveBufferSize chunk.length, parse (d.holding (chunk.take serveBufferSize))) := by
  have hfree : d.buf.free ≠ 0 := by
    rw [show d.buf = .empty from Fifo.ext hempty]
    decide
  rw [bufferedPut, if_neg hfree, if_neg (by rw [hserve]; decide),
    Decoder.stuff_of_items_eq_nil hempty]

/-- **A record comes to an empty buffer**, and other bytes behind it. As many of them are kept
as there is room for; they are left when the record is taken out. -/
theorem bufferedPut_append (parse : Decoder → Parsed) {d : Decoder}
    (hserve : d.isServeDiscarding = false) (hempty : d.items = []) (r rest kept : List UInt8)
    (hr : r.length ≤ serveBufferSize) (hkept : kept = rest.take (serveBufferSize - r.length)) :
    bufferedPut parse d (r ++ rest) =
        (min serveBufferSize (r ++ rest).length, parse (d.holding (r ++ kept))) ∧
      (d.holding (r ++ kept)).items = r ++ kept ∧
      (d.holding (r ++ kept)).pop r.length = d.holding kept ∧ (d.holding kept).items = kept := by
  have htake : (r ++ rest).take serveBufferSize = r ++ kept := by
    rw [List.take_append, List.take_of_length_le hr, hkept]
  have hfit : (r ++ kept).length ≤ serveBufferSize := by
    rw [← htake, List.length_take]
    exact Nat.min_le_left _ _
  have hkeptfit : kept.length ≤ serveBufferSize := by
    rw [List.length_append] at hfit
    omega
  have hitems : (d.holding (r ++ kept)).items = r ++ kept := Decoder.items_holding hfit
  have hleft : (d.holding kept).items = kept := Decoder.items_holding hkeptfit
  have hbuf : (d.holding (r ++ kept)).buf.drop r.length = (d.holding kept).buf := by
    refine Fifo.ext ?_
    rw [Fifo.items_drop]
    change (d.holding (r ++ kept)).items.drop r.length = (d.holding kept).items
    rw [hitems, hleft, List.drop_left' rfl]
  refine ⟨?_, hitems, ?_, hleft⟩
  · rw [bufferedPut_of_items_eq_nil _ hserve hempty, htake]
  · rw [Decoder.pop, hbuf]
    rfl

theorem lineLength_append {line rest : List UInt8} (hline : ∀ c ∈ line, isLineEnd c = false) :
    lineLength (line ++ 10 :: rest) = some line.length := by
  rw [lineLength, List.findIdx?_append, List.findIdx?_eq_none_iff.mpr hline,
    List.findIdx?_cons, if_pos (show isLineEnd 10 = true from rfl)]
  simp

theorem lineExtent_append {line rest : List UInt8} (hline : ∀ c ∈ line, isLineEnd c = false) :
    lineExtent (line ++ 10 :: rest) = line.length + 1 := by
  rw [lineExtent, lineLength_append hline]
  change line.length + terminator ((line ++ 10 :: rest).drop line.length) = line.length + 1
  rw [List.drop_left' rfl]
  rfl

/-- **A format that reads lines takes one line**: given a line and what may follow it, it
parses the line, and keeps of what follows as much as it has room for. -/
theorem linePut_line {parse : Decoder → List UInt8 → Parsed} {d : Decoder}
    (hserve : d.isServeDiscarding = false) (hempty : d.items = []) {line : List UInt8}
    (hline : ∀ c ∈ line, isLineEnd c = false) (hfit : line.length < serveBufferSize)
    (rest : List UInt8) :
    linePut parse d (line ++ 10 :: rest) =
      (min serveBufferSize (line ++ 10 :: rest).length,
        parse (d.holding (rest.take (serveBufferSize - (line.length + 1)))) line) := by
  obtain ⟨kept, hkept⟩ : ∃ kept, kept = rest.take (serveBufferSize - (line.length + 1)) :=
    ⟨_, rfl⟩
  have hextent : (line ++ [10]).length = line.length + 1 := List.length_append
  have hsplit (rest : List UInt8) : line ++ [10] ++ rest = line ++ 10 :: rest :=
    List.append_assoc ..
  -- the line is taken out with its end, and what follows is left
  obtain ⟨hput, hitems, hpop, -⟩ := bufferedPut_append (lineParse parse) hserve hempty
    (line ++ [10]) rest kept (by rw [hextent]; exact Nat.succ_le_of_lt hfit)
    (by rw [hextent]; exact hkept)
  rw [hextent] at hpop
  simp only [hsplit] at hput hitems hpop
  have hparse : lineParse parse (d.holding (line ++ 10 :: kept)) = parse (d.holding kept) line := by
    rw [lineParse, Decoder.hasLine, Decoder.readLine, hitems, lineLength_append hline,
      lineExtent_append hline, hpop, Option.isSome_some, if_pos rfl]
    exact congrArg (parse _) (List.take_left' rfl)
  rw [linePut, hput, hparse, ← hkept]

end Ovms.Canlog
