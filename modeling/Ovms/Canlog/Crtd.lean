import Ovms.Canlog.Format
import Ovms.Canlog.Text
import Ovms.Lib.Bytes
import Mathlib.Tactic.IntervalCases

/-!
# The CRTD Format

`canformat_crtd` (`components/can/src/canformat_crtd.cpp`) writes a message as a line of
text: the time, the bus, the direction and the width of the identifier, the identifier, and
the data bytes. It reads such lines back, and lines that are commands to the connection.

A text is written to an array of 192 bytes, more than a line takes.
-/

open Lib Ovms.Can Ovms.Buffer

namespace Ovms.Canlog

/-! ### Writing -/

/-- Characters as bytes. -/
def ascii (cs : List Char) : List UInt8 := cs.map fun c => .ofNat c.toNat

/-- `HexByte`: a byte as two characters. -/
def hexByte (byte : UInt8) : List UInt8 :=
  [digitChar false (byte.toNat / 16), digitChar false (byte.toNat % 16)]

/-- The data bytes of a line, each behind a blank. -/
def crtdBytes (bytes : List UInt8) : List UInt8 := bytes.flatMap fun byte => 32 :: hexByte byte

/-- `"11"` or `"29"`, and the identifier with as many digits as it can take. -/
def crtdId (f : Frame) : List UInt8 :=
  match f.format with
  | .std => ascii ['1', '1', ' '] ++ print true 16 3 f.msgId.toNat
  | .ext => ascii ['2', '9', ' '] ++ print true 16 8 f.msgId.toNat

/-- The time, in seconds and microseconds. -/
def crtdTime (t : Timeval) : List UInt8 :=
  print false 10 1 t.sec ++ 46 :: print false 10 6 t.usec

/-- The time and the number of the bus, counted from 1. -/
def crtdPrefix (m : LogMessage) : List UInt8 :=
  crtdTime m.timestamp ++ [32, .ofNat (m.frame.origin.getD 0) + 49]

/-- The line of `canformat_crtd::get`, without its end. The loop over the data bytes runs to
the length code; beyond eight it would leave the data. -/
def crtdLine (m : LogMessage) : List UInt8 :=
  let frame := crtdId m.frame ++ crtdBytes m.frame.payload
  match m.type with
  | .none => []
  | .frameRX => crtdPrefix m ++ ascii ['R'] ++ frame
  | .frameTX => crtdPrefix m ++ ascii ['T'] ++ frame
  | .frameTXQueue =>
      crtdPrefix m ++
        ascii ['C', 'E', 'R', ' ', 'T', 'X', '_', 'Q', 'u', 'e', 'u', 'e', ' ', 'T'] ++ frame
  | .frameTXFail =>
      crtdPrefix m ++
        ascii ['C', 'E', 'R', ' ', 'T', 'X', '_', 'F', 'a', 'i', 'l', ' ', 'T'] ++ frame

/-- `canformat_crtd::get`. -/
def crtdGet (m : LogMessage) : List UInt8 := crtdLine m ++ [10]

/-! ### Reading -/

/-- What stands behind the bus: a frame, of a type and a format, or a command. -/
inductive CrtdTag
  | frame (type : LogType) (format : FrameFormat)
  | configure | pause | resume | clearFilters | addFilter | invalid
  deriving DecidableEq, Repr

/-- The tag of three characters. -/
def crtdTag (b : List UInt8) : CrtdTag :=
  let tag := [b.getD 0 0, b.getD 1 0, b.getD 2 0]
  if tag = ascii ['R', '1', '1'] then .frame .frameRX .std
  else if tag = ascii ['R', '2', '9'] then .frame .frameRX .ext
  else if tag = ascii ['T', '1', '1'] then .frame .frameTX .std
  else if tag = ascii ['T', '2', '9'] then .frame .frameTX .ext
  else if tag = ascii ['C', 'B', 'C'] then .configure
  else if tag = ascii ['C', 'D', 'P'] then .pause
  else if tag = ascii ['C', 'D', 'R'] then .resume
  else if tag = ascii ['C', 'F', 'C'] then .clearFilters
  else if tag = ascii ['C', 'F', 'A'] then .addFilter
  else .invalid

/-- The speeds that can be configured. -/
def crtdSpeed (n : ℤ) : Option CanSpeed :=
  if n = 33333 then some .kbps33
  else if n = 50000 then some .kbps50
  else if n = 83333 then some .kbps83
  else if n = 100000 then some .kbps100
  else if n = 125000 then some .kbps125
  else if n = 250000 then some .kbps250
  else if n = 500000 then some .kbps500
  else if n = 1000000 then some .kbps1000
  else none

/-- The loop over the data bytes, up to `n` more. -/
def crtdData : ℕ → List UInt8 → Frame → Frame
  | 0, _, f => f
  | n + 1, b, f =>
      if b.getD 0 0 = 0 then f
      else
        let d := strtol 16 (b.drop 1)
        if d.value = 0 ∧ d.overflow = true then f
        else
          crtdData n d.rest
            { f.set (8 - (n + 1)) (.ofInt d.value) with dlc := lengthCode (f.dlc.val + 1) }

/-- A frame: identifier, data bytes, and last the bus. -/
def crtdFrame (env : Env) (bus : UInt8) (type : LogType) (format : FrameFormat)
    (b : List UInt8) : LogMessage :=
  let m : LogMessage := ⟨type, .zero, { Frame.zero with format := format }⟩
  if b.getD 3 0 ≠ 32 then m
  else
    let id := strtol 16 (b.drop 4)
    let m := { m with frame := { m.frame with msgId := .ofInt id.value } }
    if UInt32.ofInt id.value = 0 ∧ id.overflow = true then m
    else
      { m with
        frame := { crtdData 8 id.rest m.frame with origin := env.getBus (bus.toNat - 49) } }

/-- What is for the connection, if there is one. -/
def forConnection (env : Env) (effect : Effect) : List Effect :=
  if env.connected then [effect] else []

/-- A tag and what follows it, of a bus. -/
def crtdTagged (env : Env) (d : Decoder) (bus : UInt8) (b : List UInt8) : Parsed :=
  match crtdTag b with
  | .frame type format => ⟨d, true, crtdFrame env bus type format b, [], []⟩
  | .configure =>
      let mode : CanMode := if b.getD 4 0 = 65 then .active else .listen
      match crtdSpeed (strtol 10 (b.drop 6)).value with
      | some speed =>
          ⟨d, true, .zero,
            forConnection env (.configure (env.getBus (bus.toNat - 49)) mode speed), []⟩
      | none => .quiet d true
  | .pause => ⟨d, true, .zero, forConnection env .pauseTransmission, []⟩
  | .resume => ⟨d, true, .zero, forConnection env .resumeTransmission, []⟩
  | .clearFilters => ⟨d, true, .zero, forConnection env .clearFilters, []⟩
  | .addFilter =>
      ⟨d, true, .zero, forConnection env (.addFilter ((b.drop 4).takeWhile (· != 0))), []⟩
  | .invalid => .quiet d true

/-- A line: it starts with a digit, and after a blank there may be the bus. -/
def crtdParse (env : Env) (d : Decoder) (line : List UInt8) : Parsed :=
  if isDigit (line.getD 0 0) = false then .quiet d true
  else
    let b := line.dropWhile fun c => c != 0 && c != 32
    if b.getD 0 0 = 0 then .quiet d true
    else if isDigit (b.getD 1 0) then crtdTagged env d (b.getD 1 0) (b.drop 2)
    else crtdTagged env d 49 (b.drop 1)

/-- `canformat_crtd::put`. -/
def crtdPut (env : Env) : Decoder → List UInt8 → ℕ × Parsed := linePut (crtdParse env)

/-! ### Round trip -/

/-- A digit ends no line, and no word. -/
theorem ne_of_isDigitOf {base : ℕ} {c : UInt8} (h : isDigitOf base c = true) :
    isLineEnd c = false ∧ c ≠ 0 ∧ c ≠ 32 := by
  have hspace := isSpace_of_isDigitOf h
  refine ⟨?_, ?_, ?_⟩
  · rw [isLineEnd, Bool.or_eq_false_iff, beq_eq_false_iff_ne, beq_eq_false_iff_ne]
    constructor <;> rintro rfl <;> simp [isSpace] at hspace
  · rintro rfl
    simp [isDigitOf, digitOf] at h
  · rintro rfl
    simp [isSpace] at hspace

theorem hexByte_eq_print (byte : UInt8) : hexByte byte = print false 16 2 byte.toNat := by
  rw [print, numeral_two (by decide) byte.toNat_lt]
  rfl

theorem head?_crtdBytes (bytes : List UInt8) : ∀ c ∈ (crtdBytes bytes).head?, c = 32 := by
  intro c hc
  cases bytes with
  | nil => cases hc
  | cons byte bytes => exact (Option.some.inj hc).symm

theorem UInt8.ofInt_toNat (n : UInt8) : UInt8.ofInt (n.toNat : ℤ) = n := by
  rw [← UInt8.toNat_inj, UInt8.ofInt, UInt8.toNat_ofNat']
  have := n.toNat_lt
  omega

/-- **The data bytes are read back**, behind those read before, and nothing else changes. -/
theorem crtdData_crtdBytes (bytes : List UInt8) : ∀ {n : ℕ} {f : Frame}, bytes.length ≤ n →
    f.dlc.val + n = 8 →
      (crtdData n (crtdBytes bytes) f).dlc.val = f.dlc.val + bytes.length ∧
        (crtdData n (crtdBytes bytes) f).payload = f.payload ++ bytes ∧
        (crtdData n (crtdBytes bytes) f).format = f.format ∧
        (crtdData n (crtdBytes bytes) f).msgId = f.msgId := by
  induction bytes with
  | nil =>
      intro n f _ _
      have hdone : crtdData n (crtdBytes []) f = f := by
        cases n with
        | zero => rfl
        | succ n => exact if_pos rfl
      rw [hdone, List.append_nil]
      exact ⟨rfl, rfl, rfl, rfl⟩
  | cons byte bytes ih =>
      intro n f hlen hdlc
      obtain ⟨n, rfl⟩ : ∃ n', n = n' + 1 := ⟨n - 1, by rw [List.length_cons] at hlen; omega⟩
      have htext : crtdBytes (byte :: bytes) =
          32 :: (print false 16 2 byte.toNat ++ crtdBytes bytes) := by
        rw [← hexByte_eq_print]
        rfl
      have hbyte : byte.toNat ≤ 2147483647 := by
        have := byte.toNat_lt
        omega
      have hread : strtol 16 (print false 16 2 byte.toNat ++ crtdBytes bytes) =
          ⟨byte.toNat, crtdBytes bytes, false⟩ :=
        strtol_print_append false (by decide) (by decide) (head?_crtdBytes bytes) 2 hbyte
      obtain ⟨g, hg⟩ : ∃ g : Frame, g =
          { f.set (8 - (n + 1)) byte with dlc := lengthCode (f.dlc.val + 1) } := ⟨_, rfl⟩
      have hstep : crtdData (n + 1) (crtdBytes (byte :: bytes)) f =
          crtdData n (crtdBytes bytes) g := by
        rw [htext, crtdData, List.getD_cons_zero, if_neg (show ¬ (32 : UInt8) = 0 by decide)]
        simp only [List.drop_succ_cons, List.drop_zero, hread, UInt8.ofInt_toNat]
        rw [if_neg (fun h => Bool.false_ne_true h.2), ← hg]
      have hgdlc : g.dlc.val = f.dlc.val + 1 := by
        rw [hg]
        exact val_lengthCode (by omega)
      have hgpayload : g.payload = f.payload ++ [byte] := by
        have hindex : 8 - (n + 1) = f.dlc.val := by omega
        rw [Frame.payload, hgdlc, hg]
        change (f.set (8 - (n + 1)) byte).data.take (f.dlc.val + 1) = _
        rw [hindex, f.take_set (by omega) byte]
        rfl
      obtain ⟨h₁, h₂, h₃, h₄⟩ := ih (n := n) (f := g) (by rw [List.length_cons] at hlen; omega)
        (by omega)
      rw [hstep, h₁, h₂, h₃, h₄, hgdlc, hgpayload, List.length_cons, List.append_assoc]
      exact ⟨by omega, rfl, by rw [hg]; rfl, by rw [hg]; rfl⟩

/-- The letter of a direction. -/
def crtdDirection : LogType → UInt8
  | .frameRX => 82
  | _ => 84

/-- The line of a frame received or transmitted: a word, and behind it bus, direction,
identifier and data bytes. -/
theorem crtdLine_eq {m : LogMessage} (htype : m.type = .frameRX ∨ m.type = .frameTX) :
    crtdLine m =
      crtdTime m.timestamp ++ 32 :: (.ofNat (m.frame.origin.getD 0) + 49) ::
        crtdDirection m.type :: (crtdId m.frame ++ crtdBytes m.frame.payload) := by
  rcases htype with htype | htype <;> rw [crtdLine, htype, crtdPrefix] <;>
    simp only [List.append_assoc, List.cons_append, List.nil_append] <;> rfl

theorem of_mem_crtdTime {t : Timeval} {c : UInt8} (h : c ∈ crtdTime t) :
    isDigitOf 10 c = true ∨ c = 46 := by
  rw [crtdTime, List.mem_append, List.mem_cons] at h
  rcases h with h | h | h
  · exact .inl (isDigitOf_of_mem_print (by decide) (by decide) h)
  · exact .inr h
  · exact .inl (isDigitOf_of_mem_print (by decide) (by decide) h)

/-- The characters of an identifier are digits and a blank. -/
theorem of_mem_crtdId {f : Frame} {c : UInt8} (h : c ∈ crtdId f) :
    isDigitOf 16 c = true ∨ c = 32 := by
  rw [crtdId] at h
  cases hformat : f.format with
  | std | ext =>
      simp only [hformat, List.mem_append] at h
      rcases h with h | h
      · simp only [ascii, List.map_cons, List.map_nil, List.mem_cons, List.not_mem_nil,
          or_false] at h
        rcases h with rfl | rfl | rfl
        · exact .inl rfl
        · exact .inl rfl
        · exact .inr rfl
      · exact .inl (isDigitOf_of_mem_print (by decide) (by decide) h)

/-- So are those of data bytes. -/
theorem of_mem_crtdBytes {bytes : List UInt8} {c : UInt8} (h : c ∈ crtdBytes bytes) :
    isDigitOf 16 c = true ∨ c = 32 := by
  rw [crtdBytes, List.mem_flatMap] at h
  obtain ⟨byte, -, hc⟩ := h
  rw [List.mem_cons, hexByte_eq_print] at hc
  rcases hc with rfl | hc
  · exact .inr rfl
  · exact .inl (isDigitOf_of_mem_print (by decide) (by decide) hc)

theorem isDigit_bus {b : ℕ} (hb : b < 5) :
    isDigit (.ofNat b + 49) = true ∧ ((UInt8.ofNat b + 49).toNat : ℤ) - 49 = b ∧
      isLineEnd (.ofNat b + 49) = false := by
  match b, hb with
  | 0, _ | 1, _ | 2, _ | 3, _ | 4, _ => exact ⟨rfl, rfl, rfl⟩

/-- A line has no end in it. -/
theorem isLineEnd_of_mem_crtdLine {m : LogMessage}
    (htype : m.type = .frameRX ∨ m.type = .frameTX) {b : ℕ} (horigin : m.frame.origin = some b)
    (hb : b < 5) : ∀ c ∈ crtdLine m, isLineEnd c = false := by
  intro c hc
  rw [crtdLine_eq htype, horigin, List.mem_append, List.mem_cons, List.mem_cons, List.mem_cons,
    List.mem_append] at hc
  have hother : isDigitOf 16 c = true ∨ c = 32 → isLineEnd c = false := by
    rintro (h | rfl)
    · exact (ne_of_isDigitOf h).1
    · rfl
  rcases hc with hc | rfl | rfl | rfl | hc | hc
  · rcases of_mem_crtdTime hc with h | rfl
    · exact (ne_of_isDigitOf h).1
    · rfl
  · rfl
  · exact (isDigit_bus hb).2.2
  · rcases htype with h | h <;> rw [h] <;> rfl
  · exact hother (of_mem_crtdId hc)
  · exact hother (of_mem_crtdBytes hc)

/-- The characters of data bytes. -/
theorem length_crtdBytes (bytes : List UInt8) : (crtdBytes bytes).length = 3 * bytes.length := by
  induction bytes with
  | nil => rfl
  | cons byte bytes ih =>
      rw [crtdBytes, List.flatMap_cons, List.length_append, List.length_cons, List.length_cons]
      change 3 + (crtdBytes bytes).length = _
      rw [ih]
      omega

/-- A line fits into the buffer. -/
theorem length_crtdLine_lt {m : LogMessage} (htype : m.type = .frameRX ∨ m.type = .frameTX) :
    (crtdLine m).length < serveBufferSize := by
  have hsec : (print false 10 1 m.timestamp.sec).length ≤ 19 := by
    rw [print, List.length_map]
    exact length_numeral_le (by decide)
      (show m.timestamp.sec < 10 ^ 19 from Nat.lt_trans m.timestamp.sec_lt (by decide))
  have husec : (print false 10 6 m.timestamp.usec).length = 6 :=
    length_print false (by decide) (by decide) m.timestamp.usec_lt
  have hid : (crtdId m.frame).length ≤ 11 := by
    have hdigits (width : ℕ) : (print true 16 width m.frame.msgId.toNat).length ≤
        max (max width 1) 8 := by
      rw [print, List.length_map]
      exact length_numeral_le (by decide) m.frame.msgId.toNat_lt
    rw [crtdId]
    cases m.frame.format with
    | std =>
        rw [List.length_append]
        exact Nat.add_le_add_left (hdigits 3) 3
    | ext =>
        rw [List.length_append]
        exact Nat.add_le_add_left (hdigits 8) 3
  have hdata : (crtdBytes m.frame.payload).length ≤ 24 := by
    have := m.frame.length_payload_le
    rw [length_crtdBytes]
    omega
  rw [crtdLine_eq htype, crtdTime, serveBufferSize]
  simp only [List.length_append, List.length_cons]
  omega

/-- A line is a word, the bus, and what is tagged. -/
theorem crtdParse_eq (env : Env) (d : Decoder) (t : Timeval) {bus : UInt8}
    (hbus : isDigit bus = true) (tail : List UInt8) :
    crtdParse env d (crtdTime t ++ 32 :: bus :: tail) = crtdTagged env d bus tail := by
  have hword : ∀ c ∈ crtdTime t, (c != 0 && c != 32) = true := by
    intro c hc
    rcases of_mem_crtdTime hc with h | rfl
    · rw [bne_iff_ne.mpr (ne_of_isDigitOf h).2.1, bne_iff_ne.mpr (ne_of_isDigitOf h).2.2]
      rfl
    · rfl
  have hdrop : (crtdTime t ++ 32 :: bus :: tail).dropWhile (fun c => c != 0 && c != 32) =
      32 :: bus :: tail := by
    rw [List.dropWhile_append_of_pos hword]
    rfl
  have hhead : isDigit ((crtdTime t ++ 32 :: bus :: tail).getD 0 0) = true := by
    obtain ⟨d, ds, hds⟩ := List.exists_cons_of_ne_nil (numeral_ne_nil 10 1 t.sec)
    have hd : d < 10 := lt_of_mem_numeral (by decide) (by rw [hds]; exact List.mem_cons_self)
    rw [crtdTime, print, hds, List.map_cons, List.cons_append, List.cons_append,
      List.getD_cons_zero]
    interval_cases d <;> rfl
  rw [crtdParse, hdrop, hhead]
  change (if isDigit bus = true then crtdTagged env d bus tail else _) = _
  rw [if_pos hbus]

/-- A frame tagged is a frame. -/
theorem crtdTagged_eq (env : Env) (d : Decoder) (bus : UInt8) {m : LogMessage}
    (htype : m.type = .frameRX ∨ m.type = .frameTX) (tail : List UInt8) :
    let b := crtdDirection m.type :: (crtdId m.frame ++ tail)
    crtdTagged env d bus b = ⟨d, true, crtdFrame env bus m.type m.frame.format b, [], []⟩ := by
  intro b
  have htag : crtdTag b = .frame m.type m.frame.format := by
    rcases htype with htype | htype <;> cases hformat : m.frame.format <;>
      simp only [b, crtdId, htype, hformat] <;> rfl
  rw [crtdTagged, htag]

/-- A frame is read as it was written. -/
theorem crtdFrame_agrees (env : Env) (bus : UInt8) {m : LogMessage} (hid : m.frame.IdFits)
    (hdlc : m.frame.dlc.val ≤ 8) (dir : UInt8) :
    let b := dir :: (crtdId m.frame ++ crtdBytes m.frame.payload)
    let r := crtdFrame env bus m.type m.frame.format b
    r.type = m.type ∧ r.frame.origin = env.getBus (bus.toNat - 49) ∧
      r.frame.Agrees m.frame := by
  intro b r
  obtain ⟨width, hdrop, hblank⟩ : ∃ width, b.drop 4 =
      print true 16 width m.frame.msgId.toNat ++ crtdBytes m.frame.payload ∧ b.getD 3 0 = 32 := by
    cases hformat : m.frame.format with
    | std =>
        exact ⟨3, by simp only [b, crtdId, hformat]; rfl, by simp only [b, crtdId, hformat]; rfl⟩
    | ext =>
        exact ⟨8, by simp only [b, crtdId, hformat]; rfl, by simp only [b, crtdId, hformat]; rfl⟩
  have hsmall : m.frame.msgId.toNat ≤ 2147483647 := by
    rw [Frame.IdFits] at hid
    cases hformat : m.frame.format with
    | std | ext =>
        rw [hformat] at hid
        exact Nat.le_trans (Nat.le_of_lt hid) (by decide)
  have hread : strtol 16 (b.drop 4) = ⟨m.frame.msgId.toNat, crtdBytes m.frame.payload, false⟩ := by
    rw [hdrop]
    exact strtol_print_append true (by decide) (by decide) (head?_crtdBytes _) width hsmall
  have hlen := Frame.length_payload hdlc
  -- the frame the loop starts from has no data bytes yet
  obtain ⟨f, hf⟩ : ∃ f : Frame, f =
      { Frame.zero with format := m.frame.format, msgId := m.frame.msgId } := ⟨_, rfl⟩
  have hfdlc : f.dlc.val = 0 := by rw [hf]; rfl
  obtain ⟨h₁, h₂, h₃, h₄⟩ := crtdData_crtdBytes m.frame.payload (n := 8) (f := f)
    (by omega) (by omega)
  have hr : r = ⟨m.type, .zero, { crtdData 8 (crtdBytes m.frame.payload) f with
      origin := env.getBus (bus.toNat - 49) }⟩ := by
    simp only [r, crtdFrame, hblank, hread, UInt32.ofInt_toNat]
    rw [if_neg (not_not_intro rfl), if_neg (fun h => Bool.false_ne_true h.2), hf]
  rw [hr]
  refine ⟨rfl, rfl, ?_, ?_, ?_, ?_⟩
  · exact h₃.trans (by rw [hf])
  · exact h₄.trans (by rw [hf])
  · exact Fin.ext (h₁.trans (by rw [hfdlc, hlen, Nat.zero_add]))
  · refine h₂.trans ?_
    rw [Frame.payload, hfdlc]
    rfl

/-- **What is written for a frame received or transmitted is read back**: the same direction,
bus, format, identifier, length code and data bytes, and exactly the line is taken. -/
theorem crtdPut_crtdGet (env : Env) (d : Decoder) (m : LogMessage) (b : ℕ) (rest : List UInt8)
    (hserve : d.isServeDiscarding = false) (hempty : d.items = [])
    (htype : m.type = .frameRX ∨ m.type = .frameTX) (horigin : m.frame.origin = some b)
    (hbus : env.getBus b = some b) (hid : m.frame.IdFits) (hdlc : m.frame.dlc.val ≤ 8) :
    let text := crtdGet m
    let p := crtdPut env d (text ++ rest)
    p.2.message.type = m.type ∧ p.2.message.frame.origin = some b ∧
      p.2.message.frame.Agrees m.frame ∧
      p.1 = min serveBufferSize (text ++ rest).length ∧
      p.2.decoder.items = rest.take (serveBufferSize - text.length) := by
  intro text p
  have hfive := Env.lt_of_getBus hbus
  obtain ⟨hdigit, hnumber, -⟩ := isDigit_bus hfive
  have hfit := length_crtdLine_lt htype
  have htext : text.length = (crtdLine m).length + 1 := List.length_append
  obtain ⟨hrtype, hrorigin, hagrees⟩ :=
    crtdFrame_agrees env (.ofNat b + 49) hid hdlc (crtdDirection m.type)
  have hline : text ++ rest = crtdLine m ++ 10 :: rest := List.append_assoc ..
  have hp : p = (min serveBufferSize (text ++ rest).length,
      ⟨d.holding (rest.take (serveBufferSize - text.length)), true,
        crtdFrame env (.ofNat b + 49) m.type m.frame.format
          (crtdDirection m.type :: (crtdId m.frame ++ crtdBytes m.frame.payload)), [], []⟩) := by
    change crtdPut env d (text ++ rest) = _
    rw [hline, crtdPut, linePut_line hserve hempty
      (isLineEnd_of_mem_crtdLine htype horigin hfive) hfit rest, ← htext]
    rw [crtdLine_eq htype, horigin, Option.getD_some, crtdParse_eq env _ _ hdigit,
      crtdTagged_eq env _ _ htype]
  rw [hp]
  refine ⟨hrtype, ?_, hagrees, rfl, ?_⟩
  · rw [hrorigin, hnumber, hbus]
  · refine Decoder.items_holding ?_
    rw [List.length_take]
    omega

/-- For example, a frame transmitted with an identifier of 29 bits. -/
theorem crtdPut_crtdGet_t29 :
    let m : LogMessage := ⟨.frameTX, .zero, .ofBytes (some 3) .ext 0x17332510 [1, 0xab, 255]⟩
    let p := crtdPut .full (.new .transmit) (crtdGet m ++ [])
    p.2.message.type = m.type ∧ p.2.message.frame.origin = some 3 ∧
      p.2.message.frame.Agrees m.frame ∧
      p.1 = min serveBufferSize (crtdGet m ++ []).length ∧
      p.2.decoder.items = [].take (serveBufferSize - (crtdGet m).length) :=
  crtdPut_crtdGet _ (.new .transmit) _ 3 [] rfl rfl (.inr rfl) rfl rfl
    (show 0x17332510 < 2 ^ 29 by decide) (show 3 ≤ 8 by decide)

end Ovms.Canlog
