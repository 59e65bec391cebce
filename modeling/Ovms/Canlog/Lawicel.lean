import Ovms.Canlog.Crtd
import Mathlib.Data.List.Chain

/-!
# The Lawicel Format

`canformat_lawicel` (`components/can/src/canformat_lawicel.cpp`) writes a frame as one word:
a letter for its format, the identifier, the number of data bytes, the bytes, with two
digits each, and the milliseconds. It reads the second digit of a byte one place too far:
there the first digit of the next byte stands, or of the milliseconds.
-/

open Lib Ovms.Can Ovms.Buffer

namespace Ovms.Canlog

/-! ### Writing -/

/-- The data bytes of a line. -/
def lawicelBytes (bytes : List UInt8) : List UInt8 :=
  bytes.flatMap fun byte => print false 16 2 byte.toNat

/-- The letter of the format, and the identifier. -/
def lawicelId (f : Frame) : List UInt8 :=
  match f.format with
  | .std => 116 :: print false 16 3 f.msgId.toNat
  | .ext => 84 :: print false 16 8 f.msgId.toNat

/-- The line of a frame, without its end. -/
def lawicelLine (f : Frame) (usec : ℕ) : List UInt8 :=
  lawicelId f ++ (print false 10 1 f.dlc.val ++
    (lawicelBytes f.payload ++ print false 16 4 (usec / 1000)))

/-- `canformat_lawicel::get`. -/
def lawicelGet (m : LogMessage) : List UInt8 :=
  if m.type ≠ .frameRX ∧ m.type ≠ .frameTX then []
  else if m.frame.dlc.val > 8 then []
  else lawicelLine m.frame m.timestamp.usec ++ [10]

/-! ### Reading -/

/-- The loop over the data bytes, from byte `x` on. -/
def lawicelData : (n x : ℕ) → List UInt8 → Frame → Frame
  | 0, _, _, f => f
  | n + 1, x, b, f =>
      let byte := (strtol 16 [b.getD 0 0, b.getD 2 0]).value
      lawicelData n (x + 1) (b.drop 2) (f.set x (.ofInt byte))

/-- The number of data bytes and the bytes, of a frame whose format and identifier are
read. -/
def lawicelFrame (env : Env) (f : Frame) (b : List UInt8) : LogMessage :=
  let f := { f with dlc := lengthCode (b.getD 0 0 - 48).toNat }
  if f.dlc.val > 8 then ⟨.frameRX, .zero, f⟩
  else ⟨.frameRX, env.now, { lawicelData f.dlc.val 0 (b.drop 1) f with origin := env.getBus 0 }⟩

/-- The identifier of `width` digits behind the letter. -/
def lawicelTagged (format : FrameFormat) (width : ℕ) (b : List UInt8) : Frame :=
  { Frame.zero with
    format := format
    msgId := .ofInt (strtol 16 ((b.drop 1).take width)).value }

/-- A line. -/
def lawicelParse (env : Env) (d : Decoder) (b : List UInt8) : Parsed :=
  if b.getD 0 0 = 116 then
    ⟨d, true, lawicelFrame env (lawicelTagged .std 3 b) (b.drop 4), [], []⟩
  else if b.getD 0 0 = 84 then
    ⟨d, true, lawicelFrame env (lawicelTagged .ext 8 b) (b.drop 9), [], []⟩
  else .quiet d true

/-- `canformat_lawicel::put`. -/
def lawicelPut (env : Env) : Decoder → List UInt8 → ℕ × Parsed := linePut (lawicelParse env)

/-! ### What is read back -/

/-- The data bytes read: of each the first digit, and then the first digit of the next. -/
def misread : List UInt8 → List UInt8
  | [] => []
  | byte :: bytes =>
      .ofNat (byte.toNat / 16 * 16 + (bytes.headD 0).toNat / 16) :: misread bytes

/-- The second digit of a byte is the first digit of the next. -/
def DigitShared (x y : UInt8) : Prop := x.toNat % 16 = y.toNat / 16

/-- The bytes read are those written when all digits are shared. -/
theorem misread_eq_self_iff (bytes : List UInt8) :
    misread bytes = bytes ↔ (bytes ++ [0]).IsChain DigitShared := by
  induction bytes with
  | nil => exact iff_of_true rfl (List.isChain_singleton 0)
  | cons byte bytes ih =>
      obtain ⟨next, rest, hnext, hhead⟩ :
          ∃ next rest, bytes ++ [0] = next :: rest ∧ bytes.headD 0 = next := by
        cases bytes with
        | nil => exact ⟨0, [], rfl, rfl⟩
        | cons next bytes => exact ⟨next, bytes ++ [0], rfl, rfl⟩
      have hfirst : UInt8.ofNat (byte.toNat / 16 * 16 + (bytes.headD 0).toNat / 16) = byte ↔
          DigitShared byte next := by
        have hbyte := byte.toNat_lt
        have hsecond := next.toNat_lt
        rw [hhead, ← UInt8.toNat_inj, UInt8.toNat_ofNat', DigitShared]
        omega
      rw [misread, List.cons_append, hnext, List.isChain_cons_cons, ← hnext, ← ih, List.cons.injEq,
        hfirst]

theorem print_byte (byte : UInt8) :
    print false 16 2 byte.toNat =
      [digitChar false (byte.toNat / 16), digitChar false (byte.toNat % 16)] :=
  (hexByte_eq_print byte).symm

/-- Behind a byte stands the first digit of the next, or what follows the bytes. -/
theorem getD_lawicelBytes (bytes : List UInt8) {tail : List UInt8}
    (htail : tail.head? = some 48) :
    (lawicelBytes bytes ++ tail).getD 0 0 = digitChar false ((bytes.headD 0).toNat / 16) := by
  cases bytes with
  | nil =>
      cases tail with
      | nil => cases htail
      | cons c tail =>
          obtain rfl : c = 48 := Option.some.inj htail
          rfl
  | cons byte bytes =>
      rw [lawicelBytes, List.flatMap_cons, print_byte]
      rfl

/-- Two digits are read as their number. -/
theorem strtol_digits {high low : ℕ} (hhigh : high < 16) (hlow : low < 16) :
    (strtol 16 [digitChar false high, digitChar false low]).value = (high * 16 + low : ℕ) := by
  have hprint : print false 16 2 (high * 16 + low) =
      [digitChar false high, digitChar false low] := by
    have hdiv : (high * 16 + low) / 16 = high := by omega
    have hmod : (high * 16 + low) % 16 = low := by omega
    rw [print, numeral_two (by decide) (by omega), hdiv, hmod]
    rfl
  have hsmall : high * 16 + low ≤ 2147483647 := by omega
  rw [← hprint, strtol_print_self false (by decide) (by decide) 2 hsmall]

/-- **The data bytes read**, behind those read before; nothing else changes. -/
theorem lawicelData_lawicelBytes {tail : List UInt8} (htail : tail.head? = some 48) :
    ∀ (bytes : List UInt8) {x : ℕ} (f : Frame), x + bytes.length ≤ 8 →
      let g := lawicelData bytes.length x (lawicelBytes bytes ++ tail) f
      g.data.take (x + bytes.length) = f.data.take x ++ misread bytes ∧
        g.format = f.format ∧ g.msgId = f.msgId ∧ g.dlc = f.dlc := by
  intro bytes
  induction bytes with
  | nil =>
      intro x f _
      exact ⟨(List.append_nil _).symm, rfl, rfl, rfl⟩
  | cons byte bytes ih =>
      intro x f hlen g
      rw [List.length_cons] at hlen
      have htext : lawicelBytes (byte :: bytes) ++ tail =
          digitChar false (byte.toNat / 16) :: digitChar false (byte.toNat % 16) ::
            (lawicelBytes bytes ++ tail) := by
        rw [lawicelBytes, List.flatMap_cons, print_byte]
        rfl
      obtain ⟨y, hy⟩ : ∃ y : UInt8,
          y = .ofNat (byte.toNat / 16 * 16 + (bytes.headD 0).toNat / 16) := ⟨_, rfl⟩
      have hread : UInt8.ofInt (strtol 16 [digitChar false (byte.toNat / 16),
          digitChar false ((bytes.headD 0).toNat / 16)]).value = y := by
        have hhigh := byte.toNat_lt
        have hlow := (bytes.headD 0).toNat_lt
        have hvalue : (byte.toNat / 16 * 16 + (bytes.headD 0).toNat / 16) = y.toNat := by
          rw [hy, UInt8.toNat_ofNat']
          omega
        rw [strtol_digits (by omega) (by omega), hvalue, UInt8.ofInt_toNat]
      have hg : g = lawicelData bytes.length (x + 1) (lawicelBytes bytes ++ tail) (f.set x y) := by
        change lawicelData (bytes.length + 1) x (lawicelBytes (byte :: bytes) ++ tail) f = _
        rw [htext, lawicelData, List.getD_cons_zero, List.getD_cons_succ, List.getD_cons_succ,
          getD_lawicelBytes bytes htail, hread]
        rfl
      obtain ⟨hdata, hformat, hmsgId, hdlc⟩ := ih (x := x + 1) (f.set x y) (by omega)
      rw [hg, List.length_cons, ← Nat.add_assoc, Nat.add_right_comm, hdata,
        f.take_set (by omega) y,
        List.append_assoc, misread, ← hy]
      exact ⟨rfl, hformat, hmsgId, hdlc⟩

theorem head?_millis {usec : ℕ} (h : usec < 1000000) :
    (print false 16 4 (usec / 1000)).head? = some 48 := by
  have hsmall : usec / 1000 < 16 ^ 3 := by omega
  rw [print, numeral_succ (by decide) (by decide) hsmall]
  rfl

theorem print_dlc {n : ℕ} (h : n ≤ 8) :
    print false 10 1 n = [.ofNat (48 + n)] ∧ (UInt8.ofNat (48 + n) - 48).toNat = n := by
  rw [print, numeral_one (by omega)]
  interval_cases n <;> exact ⟨rfl, rfl⟩

/-- A frame is read with the format and the identifier read before, and the data bytes
misread. -/
theorem lawicelFrame_eq (env : Env) (f : Frame) (bytes : List UInt8) {tail : List UInt8}
    (hlen : bytes.length ≤ 8) (htail : tail.head? = some 48) :
    let r := (lawicelFrame env f
      (print false 10 1 bytes.length ++ (lawicelBytes bytes ++ tail))).frame
    r.origin = env.getBus 0 ∧ r.format = f.format ∧ r.msgId = f.msgId ∧
      r.dlc.val = bytes.length ∧ r.payload = misread bytes := by
  intro r
  obtain ⟨hprint, hdigit⟩ := print_dlc hlen
  obtain ⟨g, hg⟩ : ∃ g : Frame, g = { f with dlc := lengthCode bytes.length } := ⟨_, rfl⟩
  have hdlc : (lengthCode bytes.length).val = bytes.length := val_lengthCode (by omega)
  obtain ⟨hdata, hformat, hmsgId, hgdlc⟩ :=
    lawicelData_lawicelBytes htail bytes (x := 0) g (by omega)
  have hr : r = { lawicelData bytes.length 0 (lawicelBytes bytes ++ tail) g with
      origin := env.getBus 0 } := by
    simp only [r, hprint, lawicelFrame, List.cons_append, List.nil_append, List.getD_cons_zero,
      hdigit, hdlc, List.drop_succ_cons, List.drop_zero, ← hg]
    rw [if_neg (by omega)]
  have hrdlc : r.dlc.val = bytes.length := by
    rw [hr]
    change (lawicelData _ _ _ g).dlc.val = _
    rw [hgdlc, hg, hdlc]
  refine ⟨by rw [hr], ?_, ?_, hrdlc, ?_⟩
  · rw [hr]
    exact hformat.trans (by rw [hg])
  · rw [hr]
    exact hmsgId.trans (by rw [hg])
  · rw [Nat.zero_add, List.take_zero, List.nil_append] at hdata
    rw [Frame.payload, hrdlc, hr]
    exact hdata

/-- The identifier is read as it was written, and what follows it is left. -/
theorem lawicelTagged_eq (format : FrameFormat) (letter : UInt8) (width : ℕ) {id : UInt32}
    (hwidth : 0 < width) (hid : id.toNat < 16 ^ width) (hsmall : id.toNat ≤ 2147483647)
    (tail : List UInt8) :
    let b := letter :: print false 16 width id.toNat ++ tail
    (lawicelTagged format width b).msgId = id ∧ b.drop (width + 1) = tail := by
  intro b
  have hlen : (print false 16 width id.toNat).length = width :=
    length_print false (by decide) hwidth hid
  have htake : (b.drop 1).take width = print false 16 width id.toNat := List.take_left' hlen
  refine ⟨?_, ?_⟩
  · change UInt32.ofInt (strtol 16 ((b.drop 1).take width)).value = id
    rw [htake, strtol_print_self false (by decide) (by decide) width hsmall, UInt32.ofInt_toNat]
  · exact (List.drop_succ_cons ..).trans (List.drop_left' hlen)

/-- Format and identifier are read as they were written. -/
theorem lawicelParse_line (env : Env) (d : Decoder) {f : Frame} (hid : f.IdFits) (usec : ℕ) :
    ∃ g : Frame, g.format = f.format ∧ g.msgId = f.msgId ∧
      lawicelParse env d (lawicelLine f usec) =
        ⟨d, true, lawicelFrame env g (print false 10 1 f.dlc.val ++
          (lawicelBytes f.payload ++ print false 16 4 (usec / 1000))), [], []⟩ := by
  obtain ⟨tail, htail⟩ : ∃ tail, tail = print false 10 1 f.dlc.val ++
      (lawicelBytes f.payload ++ print false 16 4 (usec / 1000)) := ⟨_, rfl⟩
  rw [Frame.IdFits] at hid
  rw [lawicelLine, lawicelId, ← htail]
  cases hformat : f.format with
  | std =>
      rw [hformat] at hid
      obtain ⟨hmsgId, hdrop⟩ := lawicelTagged_eq .std 116 3 (by decide)
        (Nat.lt_trans hid (by decide)) (Nat.le_trans (Nat.le_of_lt hid) (by decide)) tail
      refine ⟨_, rfl, hmsgId, ?_⟩
      rw [lawicelParse, hdrop]
      rfl
  | ext =>
      rw [hformat] at hid
      obtain ⟨hmsgId, hdrop⟩ := lawicelTagged_eq .ext 84 8 (by decide)
        (Nat.lt_trans hid (by decide)) (Nat.le_trans (Nat.le_of_lt hid) (by decide)) tail
      refine ⟨_, rfl, hmsgId, ?_⟩
      rw [lawicelParse, hdrop]
      rfl

/-- A line has no end in it. -/
theorem isLineEnd_of_mem_lawicelLine {f : Frame} {usec : ℕ} :
    ∀ c ∈ lawicelLine f usec, isLineEnd c = false := by
  intro c hc
  have hdigit {base width n : ℕ} (hbase : 1 < base) (hmax : base ≤ 36)
      (h : c ∈ print false base width n) : isLineEnd c = false :=
    (ne_of_isDigitOf (isDigitOf_of_mem_print hbase hmax h)).1
  rw [lawicelLine, List.mem_append, List.mem_append, List.mem_append, lawicelBytes,
    List.mem_flatMap] at hc
  rcases hc with hc | hc | ⟨byte, -, hc⟩ | hc
  · rw [lawicelId] at hc
    cases hformat : f.format with
    | std | ext =>
        simp only [hformat, List.mem_cons] at hc
        rcases hc with rfl | hc
        · rfl
        · exact hdigit (by decide) (by decide) hc
  · exact hdigit (by decide) (by decide) hc
  · exact hdigit (by decide) (by decide) hc
  · exact hdigit (by decide) (by decide) hc

/-- A line fits into the buffer. -/
theorem length_lawicelLine_lt {f : Frame} {usec : ℕ} (husec : usec < 1000000) :
    (lawicelLine f usec).length < serveBufferSize := by
  have hid : (lawicelId f).length ≤ 9 := by
    have hdigits (width : ℕ) : (print false 16 width f.msgId.toNat).length ≤
        max (max width 1) 8 := by
      rw [print, List.length_map]
      exact length_numeral_le (by decide) f.msgId.toNat_lt
    rw [lawicelId]
    cases f.format with
    | std => exact Nat.succ_le_succ (hdigits 3)
    | ext => exact Nat.succ_le_succ (hdigits 8)
  have hdlc : (print false 10 1 f.dlc.val).length ≤ 2 := by
    rw [print, List.length_map]
    exact length_numeral_le (k := 2) (by decide) (Nat.lt_trans f.dlc.isLt (by decide))
  have hdata (bytes : List UInt8) : (lawicelBytes bytes).length = 2 * bytes.length := by
    induction bytes with
    | nil => rfl
    | cons byte bytes ih =>
        rw [lawicelBytes, List.flatMap_cons, List.length_append, print_byte]
        change 2 + (lawicelBytes bytes).length = 2 * (bytes.length + 1)
        rw [ih]
        omega
  have hpayload := f.length_payload_le
  have hmillis : (print false 16 4 (usec / 1000)).length = 4 :=
    length_print false (by decide) (by decide) (by omega)
  rw [lawicelLine, serveBufferSize]
  simp only [List.length_append, hdata]
  omega

/-- **What is written is read back** exactly when the first bus is there, the second digit of
each data byte is the first of the next, and the second digit of the last is 0. -/
theorem lawicelPut_lawicelGet_iff (env : Env) (d : Decoder) (m : LogMessage)
    (hserve : d.isServeDiscarding = false) (hempty : d.items = [])
    (htype : m.type = .frameRX ∨ m.type = .frameTX) (hid : m.frame.IdFits)
    (hdlc : m.frame.dlc.val ≤ 8) :
    let r := (lawicelPut env d (lawicelGet m)).2.message.frame
    (r.origin ≠ none ∧ r.Agrees m.frame) ↔
      env.present 0 = true ∧ (m.frame.payload ++ [0]).IsChain DigitShared := by
  intro r
  have hlen := Frame.length_payload hdlc
  have hget : lawicelGet m = lawicelLine m.frame m.timestamp.usec ++ 10 :: [] := by
    rw [lawicelGet, if_neg, if_neg (Nat.not_lt_of_le hdlc)]
    rintro ⟨hrx, htx⟩
    exact htype.elim hrx htx
  obtain ⟨g, hgformat, hgmsgId, hparse⟩ := lawicelParse_line env
    (d.holding (List.take (serveBufferSize - ((lawicelLine m.frame m.timestamp.usec).length + 1))
      [])) hid m.timestamp.usec
  obtain ⟨horigin, hformat, hmsgId, hrdlc, hpayload⟩ := lawicelFrame_eq env g m.frame.payload
    (by omega) (head?_millis m.timestamp.usec_lt)
  have hr : r = (lawicelFrame env g (print false 10 1 m.frame.payload.length ++
      (lawicelBytes m.frame.payload ++ print false 16 4 (m.timestamp.usec / 1000)))).frame := by
    change (lawicelPut env d (lawicelGet m)).2.message.frame = _
    rw [hget, lawicelPut, linePut_line hserve hempty isLineEnd_of_mem_lawicelLine
      (length_lawicelLine_lt m.timestamp.usec_lt), hparse, hlen]
  have hbus : env.getBus 0 ≠ none ↔ env.present 0 = true := by
    rw [Env.getBus, if_neg (by decide), Int.toNat_zero]
    cases env.present 0 <;> simp
  rw [hr, horigin, hbus, ← misread_eq_self_iff]
  refine and_congr_right fun _ => ⟨fun h => ?_, fun h => ⟨?_, ?_, ?_, ?_⟩⟩
  · exact hpayload.symm.trans h.payload
  · exact hformat.trans hgformat
  · exact hmsgId.trans hgmsgId
  · exact Fin.ext (hrdlc.trans hlen)
  · exact hpayload.trans h

/-- A frame with one data byte 1: the byte is read as 0. -/
theorem lawicelPut_lawicelGet_ne :
    let m : LogMessage := ⟨.frameRX, .zero, .ofBytes (some 0) .std 0x100 [1]⟩
    let r := (lawicelPut .full (.new .simulate) (lawicelGet m)).2.message.frame
    m.frame.IdFits ∧ m.frame.dlc.val ≤ 8 ∧ r.origin = some 0 ∧ r.payload = [0] ∧
      ¬ (r.origin ≠ none ∧ r.Agrees m.frame) := by
  have hpayload : (lawicelPut .full (.new .simulate) (lawicelGet ⟨.frameRX, .zero,
      .ofBytes (some 0) .std 0x100 [1]⟩)).2.message.frame.payload = [0] := by
    decide
  refine ⟨show 0x100 < 2 ^ 11 by decide, by decide, by decide, hpayload, fun h => ?_⟩
  have hagrees := hpayload.symm.trans h.2.payload
  cases hagrees

/-- A frame whose data bytes share their digits. -/
theorem lawicelPut_lawicelGet_shared :
    let m : LogMessage := ⟨.frameRX, .zero, .ofBytes (some 0) .ext 0x17332510 [0x12, 0x23, 0x30]⟩
    let r := (lawicelPut .full (.new .simulate) (lawicelGet m)).2.message.frame
    (r.origin ≠ none ∧ r.Agrees m.frame) ↔
      Env.full.present 0 = true ∧ (m.frame.payload ++ [0]).IsChain DigitShared :=
  lawicelPut_lawicelGet_iff _ (.new .simulate) _ rfl rfl (.inl rfl)
    (show 0x17332510 < 2 ^ 29 by decide) (show 3 ≤ 8 by decide)

end Ovms.Canlog
