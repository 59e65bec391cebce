import Ovms.Canlog.Crtd
import Mathlib.Data.List.TakeWhile
import Mathlib.Data.Nat.Bitwise

/-!
# The GVRET Formats

`canformat_gvret_ascii` and `canformat_gvret_binary` (`components/can/src/canformat_gvret.cpp`).
The one writes a line of text for a frame and reads such lines; the other writes a record
for a frame, and reads commands, of which one is to build a frame.

The reader of lines takes 48, the character `0`, from a bus number that is read as a number
already, and so finds no bus; it takes the microseconds for the seconds and the other way
round. A line is written to an array of 48 bytes, which the longest lines exceed, and the
copy of a line read is freed by a pointer that has moved; neither is modelled. The mask by
which the reader of commands tells an extended frame is `0x8000000`, where the flag that is
written is `0x80000000`.

## Main results

* `gvretAsciiPut_gvretAsciiGet_ne`: no line written is read back.
* `gvretBinaryPut_word_iff`: an identifier is read from the word written for it exactly when
  the frame is a standard frame or bit 27 of the identifier is set.
-/

open Lib Ovms.Can Ovms.Buffer

namespace Ovms.Canlog

/-- The time in microseconds, as the formats write it. -/
def gvretMicros (t : Timeval) : UInt32 := .ofNat (t.sec * 1000000 + t.usec)

/-! ### Text -/

/-- The time read, from what the formats write. -/
def gvretTimestamp (micros : UInt32) : Timeval where
  sec := micros.toNat % 1000000
  usec := micros.toNat / 1000000
  sec_lt := Nat.lt_trans (Nat.mod_lt _ (Nat.succ_pos _)) (by decide)
  usec_lt := Nat.div_lt_of_lt_mul (Nat.lt_trans micros.toNat_lt (by decide))

/-- The loop over the data bytes, from byte `x` on. -/
def gvretData : (n x : ℕ) → List UInt8 → Frame → Frame
  | 0, _, _, f => f
  | n + 1, x, b, f =>
      let byte := strtol 16 b
      gvretData n (x + 1) byte.rest (f.set x (.ofInt byte.value))

/-- What stands behind the format: bus, number of data bytes, and the bytes. -/
def gvretFrame (env : Env) (f : Frame) (b : List UInt8) : Frame :=
  let busnumber := strtol 10 b
  let length := strtol 10 busnumber.rest
  let f := { f with dlc := lengthCode (UInt32.ofInt length.value).toNat }
  if f.dlc.val > 8 then f
  else
    { gvretData f.dlc.val 0 length.rest f with
      origin := env.getBus (UInt32.ofInt busnumber.value - 48).toInt32.toInt }

/-- A line. -/
def gvretAsciiParse (env : Env) (d : Decoder) (line : List UInt8) : Parsed :=
  let timestamp := strtol 10 (line.takeWhile (· != 0))
  let id := strtol 16 (timestamp.rest.drop 2)
  let f := { Frame.zero with msgId := .ofInt id.value }
  let message (f : Frame) : LogMessage :=
    ⟨.frameRX, gvretTimestamp (.ofInt timestamp.value), f⟩
  if id.rest.getD 1 0 = 83 then
    ⟨d, false, message (gvretFrame env { f with format := .std } (id.rest.drop 2)), [], []⟩
  else if id.rest.getD 1 0 = 88 then
    ⟨d, false, message (gvretFrame env { f with format := .ext } (id.rest.drop 2)), [], []⟩
  else ⟨d, false, message f, [], []⟩

/-- `canformat_gvret_ascii::put`. -/
def gvretAsciiPut (env : Env) : Decoder → List UInt8 → ℕ × Parsed :=
  linePut (gvretAsciiParse env)

/-! ### Records -/

/-- A word of 32 bits as four bytes, the low byte first. -/
def le32 (n : UInt32) : List UInt8 :=
  [.ofNat (n.toNat % 256), .ofNat (n.toNat / 256 % 256), .ofNat (n.toNat / 65536 % 256),
    .ofNat (n.toNat / 16777216)]

/-- The word of four bytes, the low byte first, from byte `i` on. -/
def readLe32 (b : List UInt8) (i : ℕ) : UInt32 :=
  .ofNat ((b.getD i 0).toNat + 256 * (b.getD (i + 1) 0).toNat +
    65536 * (b.getD (i + 2) 0).toNat + 16777216 * (b.getD (i + 3) 0).toNat)

/-- The identifier with the flag of an extended frame. -/
def gvretIdWord (f : Frame) : UInt32 := f.msgId ||| if f.format = .std then 0 else 0x80000000

/-- `canformat_gvret_binary::get`. It sends a byte more than the data bytes. -/
def gvretBinaryGet (m : LogMessage) : List UInt8 :=
  if m.type ≠ .frameRX ∧ m.type ≠ .frameTX then []
  else
    [0xf1, 0] ++ le32 (gvretMicros m.timestamp) ++ le32 (gvretIdWord m.frame) ++
      [.ofNat (m.frame.dlc.val + (m.frame.origin.getD 0) * 16)] ++ m.frame.payload ++ [0]

/-- Mode and speed of a bus, as the replies have them. -/
def gvretBus (env : Env) (bus : ℕ) : List UInt8 :=
  (match env.mode bus with
    | .off => 0
    | .listen => 0x11
    | .active => 0x01) :: le32 (env.speed bus).bitsPerSecond

/-- The reply to a command, if it has one. -/
def gvretReply (env : Env) (command : UInt8) : Option (List UInt8) :=
  if command = 1 then some ([0xf1, command] ++ List.replicate 4 0)
  else if command = 2 then some ([0xf1, command] ++ List.replicate 2 0)
  else if command = 3 then some ([0xf1, command] ++ List.replicate 9 0)
  else if command = 6 then some ([0xf1, command] ++ gvretBus env 0 ++ gvretBus env 1)
  else if command = 7 then some ([0xf1, command] ++ List.replicate 6 0)
  else if command = 9 then some [0xf1, command, 0xde, 0xed]
  else if command = 12 then some [0xf1, command, 3]
  else if command = 13 then
    some ([0xf1, command] ++ gvretBus env 2 ++ List.replicate 10 0)
  else none

/-- The frame of a command to build one. -/
def gvretBuild (env : Env) (b : List UInt8) : Frame :=
  let id := readLe32 b 2
  let length := (b.getD 7 0).toNat
  let f : Frame :=
    if id &&& 0x8000000 ≠ 0 then
      { Frame.zero with msgId := id &&& 0x7fffffff, format := .ext }
    else { Frame.zero with msgId := id, format := .std }
  { f.copy ((b.drop 8).take length) with
    origin := env.getBus (b.getD 6 0).toNat, dlc := lengthCode length }

/-- A command at the front of the buffer. -/
def gvretCommand (env : Env) (d : Decoder) : Parsed :=
  let b := d.items
  let command := b.getD 1 0
  if command = 0 then
    let length := (b.getD 7 0).toNat
    if 8 ≤ b.length ∧ 8 + length ≤ b.length then
      ⟨d.pop (8 + length), true, .zero, serveFrame d.servemode (gvretBuild env b),
        [⟨.buffered, 8 + length, b.length⟩, ⟨.scratch, 8 + length, 16⟩,
          ⟨.record, 8 + length, 8 + length⟩, ⟨.frameData, length, 8⟩]⟩
    else .quiet d false
  else
    ⟨d.pop 2, true, .zero,
      match gvretReply env command with
      | some reply => if env.connected then [.transmit reply] else []
      | none => [],
      []⟩

/-- What is read from the buffer: bytes up to the start of a command are dropped. -/
def gvretBinaryParse (env : Env) (d : Decoder) : Parsed :=
  let d := d.pop (d.items.takeWhile (· != 0xf1)).length
  if 2 ≤ d.items.length then gvretCommand env d else .quiet d false

/-- `canformat_gvret_binary::put`. -/
def gvretBinaryPut (env : Env) : Decoder → List UInt8 → ℕ × Parsed :=
  bufferedPut (gvretBinaryParse env)

/-! ### No line is read back -/

/-- The four bytes of a word are the word. -/
theorem readLe32_le32 (a b : UInt8) (w : UInt32) (rest : List UInt8) :
    readLe32 (a :: b :: (le32 w ++ rest)) 2 = w := by
  have hw := w.toNat_lt
  have hbyte {n : ℕ} (hn : n < 256) : (UInt8.ofNat n).toNat = n := Nat.mod_eq_of_lt hn
  change UInt32.ofNat ((UInt8.ofNat (w.toNat % 256)).toNat +
    256 * (UInt8.ofNat (w.toNat / 256 % 256)).toNat +
    65536 * (UInt8.ofNat (w.toNat / 65536 % 256)).toNat +
    16777216 * (UInt8.ofNat (w.toNat / 16777216)).toNat) = w
  rw [hbyte (by omega), hbyte (by omega), hbyte (by omega), hbyte (by omega)]
  refine UInt32.toNat_inj.mp ?_
  rw [UInt32.toNat_ofNat']
  omega

theorem and_mask_ne_zero_iff (w : UInt32) : w &&& 0x8000000 ≠ 0 ↔ w.toNat.testBit 27 = true := by
  rw [ne_eq, ← UInt32.toNat_inj, UInt32.toNat_and,
    show (0x8000000 : UInt32).toNat = 2 ^ 27 from rfl, show (0 : UInt32).toNat = 0 from rfl,
    Nat.and_two_pow]
  cases w.toNat.testBit 27 <;> simp

theorem testBit_or_flag (id : UInt32) :
    (id ||| 0x80000000).toNat.testBit 27 = id.toNat.testBit 27 := by
  rw [UInt32.toNat_or, show (0x80000000 : UInt32).toNat = 2 ^ 31 from rfl, Nat.testBit_or,
    Nat.testBit_two_pow_of_ne (by decide), Bool.or_false]

theorem or_flag_and {id : UInt32} (hid : id.toNat < 2 ^ 29) :
    (id ||| 0x80000000) &&& 0x7fffffff = id := by
  rw [← UInt32.toNat_inj, UInt32.toNat_and, UInt32.toNat_or,
    show (0x80000000 : UInt32).toNat = 2 ^ 31 from rfl,
    show (0x7fffffff : UInt32).toNat = 2 ^ 31 - 1 from rfl, Nat.and_or_distrib_right,
    Nat.and_two_pow_sub_one_of_lt_two_pow (Nat.lt_trans hid (by decide))]
  exact Nat.or_zero _

/-- **The identifier is read from its word** when the frame is a standard frame, or bit 27 of
the identifier is the flag that is looked for. -/
theorem gvretBuild_word_iff (env : Env) {b : List UInt8} {f : Frame} (hid : f.IdFits)
    (hword : readLe32 b 2 = gvretIdWord f) :
    ((gvretBuild env b).format = f.format ∧ (gvretBuild env b).msgId = f.msgId) ↔
      f.format = .std ∨ f.msgId.toNat.testBit 27 = true := by
  rw [Frame.IdFits] at hid
  cases hformat : f.format with
  | std =>
      rw [hformat] at hid
      have hw : readLe32 b 2 = f.msgId := by
        rw [hword, gvretIdWord, if_pos hformat, UInt32.or_zero]
      have hbit : f.msgId.toNat.testBit 27 = false :=
        Nat.testBit_lt_two_pow (Nat.lt_trans hid (by decide))
      have hflag : ¬ (f.msgId &&& 0x8000000 ≠ 0) := by
        rw [and_mask_ne_zero_iff, hbit]
        exact Bool.false_ne_true
      refine iff_of_true ?_ (.inl rfl)
      rw [gvretBuild, hw, if_neg hflag]
      exact ⟨rfl, rfl⟩
  | ext =>
      rw [hformat] at hid
      have hw : readLe32 b 2 = f.msgId ||| 0x80000000 := by
        rw [hword, gvretIdWord, if_neg (by rw [hformat]; decide)]
      have hflag := and_mask_ne_zero_iff (f.msgId ||| 0x80000000)
      rw [testBit_or_flag] at hflag
      refine ⟨fun h => .inr ?_, fun h => ?_⟩
      · by_contra hbit
        rw [gvretBuild, hw, if_neg (mt hflag.mp hbit)] at h
        cases h.1
      · have hbit := h.resolve_left (by decide)
        rw [gvretBuild, hw, if_pos (hflag.mpr hbit), or_flag_and hid]
        exact ⟨rfl, rfl⟩

/-- A command to build a frame, with what stands behind its head. -/
def gvretBuildCommand (word : List UInt8) (bus : UInt8) (data : List UInt8) : List UInt8 :=
  [0xf1, 0] ++ word ++ [bus, .ofNat data.length] ++ data

/-- **A command to build a frame is carried out**, as the mode says. -/
theorem effects_gvretBinaryPut (env : Env) {d : Decoder} (hserve : d.isServeDiscarding = false)
    (hempty : d.items = []) (w : UInt32) (bus : UInt8) {data : List UInt8}
    (hdata : data.length ≤ 8) :
    (gvretBinaryPut env d (gvretBuildCommand (le32 w) bus data)).2.effects =
      serveFrame d.servemode (gvretBuild env (gvretBuildCommand (le32 w) bus data)) := by
  obtain ⟨b, hb⟩ : ∃ b, b = gvretBuildCommand (le32 w) bus data := ⟨_, rfl⟩
  have hlen : b.length = 8 + data.length := by
    rw [hb, gvretBuildCommand]
    simp only [List.length_append, le32, List.length_cons, List.length_nil]
  have hlength : (b.getD 7 0).toNat = data.length := by
    have : b.getD 7 0 = .ofNat data.length := by rw [hb]; rfl
    rw [this]
    exact Nat.mod_eq_of_lt (by omega)
  have hfit : b.length ≤ serveBufferSize := by
    rw [hlen, serveBufferSize]
    omega
  -- the command is at the front, so nothing is dropped
  have hitems : ((d.holding b).pop ((d.holding b).items.takeWhile (· != 0xf1)).length).items =
      b := by
    have hfront : b.takeWhile (· != 0xf1) = [] := by rw [hb]; rfl
    rw [Decoder.items_holding hfit, hfront]
    exact (Fifo.items_drop ..).trans (Decoder.items_holding hfit)
  have hcommand : b.getD 1 0 = 0 := by rw [hb]; rfl
  rw [← hb, gvretBinaryPut, bufferedPut_of_items_eq_nil _ hserve hempty,
    List.take_of_length_le hfit]
  change (gvretBinaryParse env (d.holding b)).effects = _
  rw [gvretBinaryParse, hitems, if_pos (by omega), gvretCommand, hitems, if_pos hcommand, hlength,
    if_pos (by omega)]
  rfl

/-- **The identifier is read from the word written for it** exactly when the frame is a
standard frame, or bit 27 of the identifier is set. -/
theorem gvretBinaryPut_word_iff (env : Env) (d : Decoder) (m : LogMessage) (bus : UInt8) (b : ℕ)
    (data : List UInt8) (hserve : d.isServeDiscarding = false) (hempty : d.items = [])
    (htype : m.type = .frameRX ∨ m.type = .frameTX) (hid : m.frame.IdFits)
    (hbus : env.getBus bus.toNat = some b) (hdata : data.length ≤ 8) :
    let word := ((gvretBinaryGet m).drop 6).take 4
    let p := (gvretBinaryPut env d (gvretBuildCommand word bus data)).2
    (∃ f : Frame, (p.effects = [.write f] ∨ p.effects = [.incoming f]) ∧
        f.format = m.frame.format ∧ f.msgId = m.frame.msgId) ↔
      m.frame.format = .std ∨ m.frame.msgId.toNat.testBit 27 = true := by
  intro word p
  have hword : word = le32 (gvretIdWord m.frame) := by
    have hget : ¬ (m.type ≠ .frameRX ∧ m.type ≠ .frameTX) := by
      rintro ⟨hrx, htx⟩
      exact htype.elim hrx htx
    change ((gvretBinaryGet m).drop 6).take 4 = _
    rw [gvretBinaryGet, if_neg hget]
    rfl
  obtain ⟨command, hcommand⟩ : ∃ command, command = gvretBuildCommand word bus data := ⟨_, rfl⟩
  have hread : readLe32 command 2 = gvretIdWord m.frame := by
    rw [hcommand, hword, gvretBuildCommand, List.append_assoc, List.append_assoc]
    exact readLe32_le32 ..
  have heffects : p.effects = serveFrame d.servemode (gvretBuild env command) := by
    change (gvretBinaryPut env d (gvretBuildCommand word bus data)).2.effects = _
    rw [hcommand, hword]
    exact effects_gvretBinaryPut env hserve hempty _ bus hdata
  have horigin : (gvretBuild env command).origin = some b := by
    have hat : command.getD 6 0 = bus := by rw [hcommand, hword]; rfl
    rw [← hbus, ← hat]
    rfl
  -- the mode is one of the two in which the frame is used
  have hmode : serveFrame d.servemode (gvretBuild env command) = [.write (gvretBuild env command)] ∨
      serveFrame d.servemode (gvretBuild env command) = [.incoming (gvretBuild env command)] := by
    cases hmode : d.servemode with
    | discard =>
        rw [Decoder.isServeDiscarding, hmode, Bool.or_eq_false_iff] at hserve
        cases hserve.2
    | simulate => exact .inr (by simp only [serveFrame, horigin])
    | transmit => exact .inl (by simp only [serveFrame, horigin])
  rw [← gvretBuild_word_iff env hid hread, heffects]
  refine ⟨?_, fun h => ⟨_, hmode, h⟩⟩
  rintro ⟨f, hf, hagrees⟩
  have hbuilt : f = gvretBuild env command := by
    rcases hf with hf | hf <;> rcases hmode with hmode | hmode <;> rw [hmode] at hf <;>
      cases hf <;> rfl
  rwa [hbuilt] at hagrees

/-- An extended frame with identifier 0x100 becomes a standard frame. -/
theorem gvretBinaryPut_word_ne :
    let m : LogMessage := ⟨.frameRX, .zero, .ofBytes (some 0) .ext 0x100 [1]⟩
    let word := ((gvretBinaryGet m).drop 6).take 4
    let p := (gvretBinaryPut .full (.new .transmit) (gvretBuildCommand word 0 [1])).2
    m.frame.IdFits ∧
      (∃ f : Frame, p.effects = [.write f] ∧ f.format = .std ∧ f.msgId = 0x80000100) ∧
      ¬ ∃ f : Frame, (p.effects = [.write f] ∨ p.effects = [.incoming f]) ∧
        f.format = m.frame.format ∧ f.msgId = m.frame.msgId := by
  intro m word p
  have heffects : p.effects = [.write (.ofBytes (some 0) .std 0x80000100 [1])] := by decide
  refine ⟨show 0x100 < 2 ^ 29 by decide, ⟨_, heffects, rfl, rfl⟩, ?_⟩
  rintro ⟨f, hf, hformat, -⟩
  rw [heffects] at hf
  rcases hf with hf | hf <;> cases hf
  cases hformat

/-- An extended frame whose identifier has bit 27 set. -/
theorem gvretBinaryPut_word_bit :
    let m : LogMessage := ⟨.frameTX, .zero, .ofBytes (some 1) .ext 0x18daf110 [1, 2]⟩
    let word := ((gvretBinaryGet m).drop 6).take 4
    let p := (gvretBinaryPut .full (.new .simulate) (gvretBuildCommand word 1 [1, 2])).2
    (∃ f : Frame, (p.effects = [.write f] ∨ p.effects = [.incoming f]) ∧
        f.format = m.frame.format ∧ f.msgId = m.frame.msgId) ↔
      m.frame.format = .std ∨ m.frame.msgId.toNat.testBit 27 = true :=
  gvretBinaryPut_word_iff .full (.new .simulate) _ 1 1 [1, 2] rfl rfl (.inr rfl)
    (show 0x18daf110 < 2 ^ 29 by decide) rfl (by decide)

end Ovms.Canlog
