import Ovms.Canlog.Format
import Mathlib.Data.Nat.Bitwise

/-!
# Formats of Records

`canformat_pcap` (`components/can/src/canformat_pcap.cpp`), `canformat_cs11`
(`canformat_canswitch.cpp`) and `canformat_panda` (`canformat_panda.cpp`). A record has a
fixed size or starts with its size; nothing marks where one starts.

The reader of `pcap` looks at the 24 bytes at the front, and asks to be called again before
it knows whether they are a header or the start of a record, for which 32 bytes are needed.
The lengths in the records are those of the stream.

The bytes of a record that is too short to have them are read as 0; in the code they are
what the local variable happens to hold.
-/

open Lib Ovms.Can Ovms.Buffer

namespace Ovms.Canlog

/-! ### pcap -/

/-- A word of 32 bits as four bytes, the high byte first. -/
def be32 (n : UInt32) : List UInt8 :=
  [.ofNat (n.toNat / 16777216), .ofNat (n.toNat / 65536 % 256), .ofNat (n.toNat / 256 % 256),
    .ofNat (n.toNat % 256)]

/-- The word of four bytes, the high byte first, from byte `i` on. -/
def readBe32 (b : List UInt8) (i : ℕ) : UInt32 :=
  .ofNat (16777216 * (b.getD i 0).toNat + 65536 * (b.getD (i + 1) 0).toNat +
    256 * (b.getD (i + 2) 0).toNat + (b.getD (i + 3) 0).toNat)

/-- The identifier with the flags. -/
def pcapIdFlags (f : Frame) : UInt32 :=
  f.msgId ||| (if f.format = .ext then 0x80000000 else 0) ||| if f.rtr then 0x40000000 else 0

/-- `canformat_pcap::get`. -/
def pcapGet (m : LogMessage) : List UInt8 :=
  if m.type ≠ .frameRX then []
  else if m.frame.dlc.val > 8 then []
  else
    be32 (.ofNat m.timestamp.sec) ++ be32 (.ofNat m.timestamp.usec) ++ be32 16 ++ be32 16 ++
      be32 (pcapIdFlags m.frame) ++ [.ofNat m.frame.dlc.val, 0, 0, 0] ++ fill 0 m.frame.payload

/-- `canformat_pcap::getheader`. -/
def pcapGetHeader : List UInt8 :=
  be32 0xa1b2c3d4 ++ [0, 2, 0, 4] ++ be32 0 ++ be32 0 ++ be32 8 ++ be32 0xe3

/-- What the bytes at the front are taken for: a header, a header of a stream that is not
read, or anything else. -/
inductive PcapFront
  | header | foreign | record
  deriving DecidableEq, Repr

/-- What these bytes are taken for. -/
def pcapFront (b : List UInt8) : PcapFront :=
  let magic := readBe32 b 0
  if magic = 0xa1b2c3d4 then if readBe32 b 20 ≠ 0xe3 then .foreign else .header
  else if magic = 0xd4c3b2a1 ∨ magic = 0xa1b23c4d ∨ magic = 0x4d3cb2a1 then .foreign
  else .record

/-- The length in a record. -/
def pcapLength (r : List UInt8) : ℕ := (r.getD 20 0).toNat

/-- The record holds no frame. -/
def pcapIgnored (r : List UInt8) : Bool := readBe32 r 16 &&& 0x20000000 != 0

/-- The message of a record. -/
def pcapMessage (env : Env) (r : List UInt8) : LogMessage :=
  let idf := readBe32 r 16
  let f : Frame :=
    { Frame.zero with
      rtr := idf &&& 0x40000000 != 0
      format := if idf &&& 0x80000000 ≠ 0 then .ext else .std
      msgId := idf &&& 0x1fffffff
      origin := env.getBus 0
      dlc := lengthCode (pcapLength r) }
  ⟨.frameRX, .zero, f.copy ((r.drop 24).take (pcapLength r))⟩

/-- What is done behind a header: a record is taken, if there are the bytes of one. -/
def pcapRecord (env : Env) (d : Decoder) : Parsed :=
  let r := d.items.take 32
  if d.items.length < 32 then .quiet d true
  else if pcapIgnored r then ⟨d.pop 32, true, .zero, [], [⟨.buffered, 32, d.items.length⟩]⟩
  else
    ⟨d.pop 32, true, pcapMessage env r, [],
      [⟨.buffered, 32, d.items.length⟩, ⟨.record, 24 + pcapLength r, 32⟩,
        ⟨.frameData, pcapLength r, 8⟩]⟩

/-- What is read from the buffer. -/
def pcapParse (env : Env) (d : Decoder) : Parsed :=
  if d.items.length < 24 then .quiet d false
  else
    match pcapFront d.items with
    | .foreign => .quiet d.setServeDiscarding true
    | .header => pcapRecord env (d.pop 24)
    | .record => pcapRecord env d

/-- `canformat_pcap::put`. -/
def pcapPut (env : Env) : Decoder → List UInt8 → ℕ × Parsed := bufferedPut (pcapParse env)

/-! ### A record is read back -/

/-- The four bytes of a word are the word. -/
theorem readBe32_be32 (w : UInt32) (rest : List UInt8) : readBe32 (be32 w ++ rest) 0 = w := by
  have hw := w.toNat_lt
  have hbyte {n : ℕ} (hn : n < 256) : (UInt8.ofNat n).toNat = n := Nat.mod_eq_of_lt hn
  change UInt32.ofNat (16777216 * (UInt8.ofNat (w.toNat / 16777216)).toNat +
    65536 * (UInt8.ofNat (w.toNat / 65536 % 256)).toNat +
    256 * (UInt8.ofNat (w.toNat / 256 % 256)).toNat + (UInt8.ofNat (w.toNat % 256)).toNat) = w
  rw [hbyte (by omega), hbyte (by omega), hbyte (by omega), hbyte (by omega)]
  refine UInt32.toNat_inj.mp ?_
  rw [UInt32.toNat_ofNat']
  omega

theorem and_flag_eq_zero {id flag : UInt32} (hid : id.toNat < 2 ^ 29) {i : ℕ} (hi : 29 ≤ i)
    (hflag : flag.toNat = 2 ^ i) : id &&& flag = 0 := by
  have hbit : id.toNat.testBit i = false :=
    Nat.testBit_lt_two_pow (Nat.lt_of_lt_of_le hid (Nat.pow_le_pow_right Nat.two_pos hi))
  rw [← UInt32.toNat_inj, UInt32.toNat_and, hflag, Nat.and_two_pow, hbit]
  exact Nat.zero_mul _

theorem and_mask_eq_self {id : UInt32} (hid : id.toNat < 2 ^ 29) : id &&& 0x1fffffff = id := by
  rw [← UInt32.toNat_inj, UInt32.toNat_and,
    show (0x1fffffff : UInt32).toNat = 2 ^ 29 - 1 from rfl,
    Nat.and_two_pow_sub_one_of_lt_two_pow hid]

theorem or_and (v w mask : UInt32) : (v ||| w) &&& mask = v &&& mask ||| w &&& mask := by
  rw [← UInt32.toNat_inj, UInt32.toNat_and, UInt32.toNat_or, UInt32.toNat_or, UInt32.toNat_and,
    UInt32.toNat_and, Nat.and_or_distrib_right]

/-- **The flags are read as they were written**, and the identifier without them. -/
theorem pcapIdFlags_and {f : Frame} (hid : f.IdFits) :
    pcapIdFlags f &&& 0x20000000 = 0 ∧
      (pcapIdFlags f &&& 0x40000000 ≠ 0 ↔ f.rtr = true) ∧
      (pcapIdFlags f &&& 0x80000000 ≠ 0 ↔ f.format = .ext) ∧
      pcapIdFlags f &&& 0x1fffffff = f.msgId := by
  have hid29 : f.msgId.toNat < 2 ^ 29 := by
    rw [Frame.IdFits] at hid
    cases hformat : f.format <;> rw [hformat] at hid
    · exact Nat.lt_trans hid (by decide)
    · exact hid
  have hmsg : f.msgId &&& 0x20000000 = 0 := and_flag_eq_zero hid29 (i := 29) (by decide) rfl
  have hrtr : f.msgId &&& 0x40000000 = 0 := and_flag_eq_zero hid29 (i := 30) (by decide) rfl
  have hext : f.msgId &&& 0x80000000 = 0 := and_flag_eq_zero hid29 (i := 31) (by decide) rfl
  have hnoext : (if f.format = .ext then (0x80000000 : UInt32) else 0) &&& 0x1fffffff = 0 := by
    split <;> rfl
  have hnortr : (if f.rtr then (0x40000000 : UInt32) else 0) &&& 0x1fffffff = 0 := by
    split <;> rfl
  refine ⟨?_, ?_, ?_, ?_⟩ <;> rw [pcapIdFlags, or_and, or_and]
  · rw [hmsg]
    cases f.format <;> cases f.rtr <;> rfl
  · rw [hrtr]
    cases f.format <;> cases f.rtr <;> decide
  · rw [hext]
    cases f.format <;> cases f.rtr <;> decide
  · rw [and_mask_eq_self hid29, hnoext, hnortr, UInt32.or_zero, UInt32.or_zero]

theorem pcapGet_eq {m : LogMessage} (htype : m.type = .frameRX) (hdlc : m.frame.dlc.val ≤ 8) :
    pcapGet m = be32 (.ofNat m.timestamp.sec) ++ (be32 (.ofNat m.timestamp.usec) ++
      (be32 16 ++ (be32 16 ++ (be32 (pcapIdFlags m.frame) ++
        (.ofNat m.frame.dlc.val :: 0 :: 0 :: 0 :: fill 0 m.frame.payload))))) := by
  rw [pcapGet, if_neg (by simp [htype]), if_neg (Nat.not_lt_of_le hdlc)]
  rfl

theorem length_pcapGet {m : LogMessage} (htype : m.type = .frameRX)
    (hdlc : m.frame.dlc.val ≤ 8) : (pcapGet m).length = 32 := by
  rw [pcapGet_eq htype hdlc]
  simp [be32]

/-- A message is read as one received on the first bus. -/
structure PcapReads (env : Env) (m r : LogMessage) : Prop where
  type : r.type = .frameRX
  origin : r.frame.origin = env.getBus 0
  rtr : r.frame.rtr = m.frame.rtr
  agrees : r.frame.Agrees m.frame

/-- **The message of a record is the one written**, but for the bus and the time. -/
theorem pcapMessage_pcapGet (env : Env) {m : LogMessage} (htype : m.type = .frameRX)
    (hid : m.frame.IdFits) (hdlc : m.frame.dlc.val ≤ 8) :
    pcapIgnored (pcapGet m) = false ∧ PcapReads env m (pcapMessage env (pcapGet m)) := by
  obtain ⟨hmsg, hrtr, hext, hmask⟩ := pcapIdFlags_and hid
  have hflags : readBe32 (pcapGet m) 16 = pcapIdFlags m.frame := by
    rw [pcapGet_eq htype hdlc]
    exact readBe32_be32 _ (.ofNat m.frame.dlc.val :: 0 :: 0 :: 0 :: fill 0 m.frame.payload)
  have hlength : pcapLength (pcapGet m) = m.frame.dlc.val := by
    rw [pcapGet_eq htype hdlc]
    exact UInt8.toNat_ofNat_of_lt' (Nat.lt_of_le_of_lt hdlc (by decide))
  have hpayload := Frame.length_payload hdlc
  have hdata : ((pcapGet m).drop 24).take m.frame.dlc.val = m.frame.payload := by
    have hdrop : (pcapGet m).drop 24 = fill 0 m.frame.payload := by
      rw [pcapGet_eq htype hdlc]
      rfl
    rw [hdrop, fill_eq (hpayload ▸ hdlc), ← hpayload, List.take_left' rfl]
  have hdlc' : (lengthCode m.frame.dlc.val).val = m.frame.dlc.val := val_lengthCode m.frame.dlc.isLt
  refine ⟨?_, rfl, rfl, ?_, ?_, ?_, ?_, ?_⟩
  · rw [pcapIgnored, hflags, hmsg]
    rfl
  · change (readBe32 (pcapGet m) 16 &&& 0x40000000 != 0) = _
    rw [hflags, Bool.eq_iff_iff, bne_iff_ne]
    exact hrtr
  · change (if readBe32 (pcapGet m) 16 &&& 0x80000000 ≠ 0 then FrameFormat.ext else .std) = _
    rw [hflags]
    split
    · rename_i h
      exact (hext.mp h).symm
    · rename_i h
      cases hformat : m.frame.format with
      | std => rfl
      | ext => exact absurd (hext.mpr hformat) h
  · change readBe32 (pcapGet m) 16 &&& 0x1fffffff = _
    rw [hflags, hmask]
  · change lengthCode (pcapLength (pcapGet m)) = _
    rw [hlength]
    exact Fin.ext hdlc'
  · change (Frame.copy _ (((pcapGet m).drop 24).take (pcapLength (pcapGet m)))).payload = _
    rw [hlength, hdata, Frame.payload_copy (hpayload ▸ hdlc)]
    exact hdlc'.trans hpayload.symm

/-- A record at the front of the buffer is taken out. -/
theorem pcapRecord_pcapGet (env : Env) {d : Decoder} {m : LogMessage} {kept : List UInt8}
    (hitems : d.items = pcapGet m ++ kept) (htype : m.type = .frameRX) (hid : m.frame.IdFits)
    (hdlc : m.frame.dlc.val ≤ 8) :
    PcapReads env m (pcapRecord env d).message ∧ (pcapRecord env d).decoder = d.pop 32 := by
  have hlen := length_pcapGet htype hdlc
  have hlong : ¬ d.items.length < 32 := by
    rw [hitems, List.length_append, hlen]
    exact Nat.not_lt_of_le (Nat.le_add_right _ _)
  have hfront : d.items.take 32 = pcapGet m := by
    rw [hitems, List.take_left' hlen]
  obtain ⟨hignored, hreads⟩ := pcapMessage_pcapGet env htype hid hdlc
  rw [pcapRecord, hfront, if_neg hlong, hignored, if_neg Bool.false_ne_true]
  exact ⟨hreads, rfl⟩

/-- **A record that stands behind the header is read back whatever its seconds are**: the
reader does not look at them. -/
theorem pcapPut_pcapGetHeader (env : Env) {d : Decoder} {m : LogMessage}
    (hserve : d.isServeDiscarding = false) (hempty : d.items = []) (htype : m.type = .frameRX)
    (hid : m.frame.IdFits) (hdlc : m.frame.dlc.val ≤ 8) :
    PcapReads env m (pcapPut env d (pcapGetHeader ++ pcapGet m)).2.message := by
  have hlen := length_pcapGet htype hdlc
  obtain ⟨hput, hitems, hpop, hleft⟩ := bufferedPut_append (pcapParse env) hserve hempty
    pcapGetHeader (pcapGet m) (pcapGet m) (by decide)
    (List.take_of_length_le (by rw [hlen]; decide)).symm
  have hlong : ¬ (pcapGetHeader ++ pcapGet m).length < 24 := by
    rw [List.length_append, hlen]
    omega
  have hheader : pcapFront (pcapGetHeader ++ pcapGet m) = .header := by
    have hmagic : readBe32 (pcapGetHeader ++ pcapGet m) 0 = 0xa1b2c3d4 := readBe32_be32 ..
    have hnetwork : readBe32 (pcapGetHeader ++ pcapGet m) 20 = 0xe3 :=
      readBe32_be32 0xe3 (pcapGet m)
    rw [pcapFront, hmagic, if_pos rfl, hnetwork, if_neg (not_not_intro rfl)]
  rw [pcapPut, hput]
  change PcapReads env m (pcapParse env (d.holding (pcapGetHeader ++ pcapGet m))).message
  rw [pcapParse, hitems, if_neg hlong, hheader]
  change (d.holding (pcapGetHeader ++ pcapGet m)).pop 24 = d.holding (pcapGet m) at hpop
  dsimp only
  rw [hpop]
  exact (pcapRecord_pcapGet env (hleft.trans (List.append_nil _).symm) htype hid hdlc).1

theorem pcapPut_pcapGetHeader_std :
    let m : LogMessage := ⟨.frameRX, .zero, .ofBytes (some 1) .std 0x5A7 [1, 2]⟩
    PcapReads .full m (pcapPut .full (.new .simulate) (pcapGetHeader ++ pcapGet m)).2.message := by
  intro m
  exact pcapPut_pcapGetHeader .full (d := .new .simulate) (m := m) rfl rfl rfl
    (show 0x5A7 < 2 ^ 11 by decide) (show 2 ≤ 8 by decide)

/-! ### cs11 -/

/-- `CANFORMAT_CS11_MAXLEN`. -/
def cs11MaxLen : ℕ := 12

/-- `canformat_cs11::get`. -/
def cs11Get (m : LogMessage) : List UInt8 :=
  if m.type = .frameRX ∧ m.frame.format = .std then
    if m.frame.dlc.val > 8 then []
    else
      [.ofNat (m.frame.dlc.val + 3), .ofNat (m.frame.origin.getD 0),
        .ofNat (m.frame.msgId.toNat % 256), .ofNat (m.frame.msgId.toNat / 256 % 256)] ++
          m.frame.payload
  else []

/-- The speeds a bus can be started with. -/
def cs11Speed (code : UInt8) : Option CanSpeed :=
  if code = 0 then some .kbps125
  else if code = 1 then some .kbps250
  else if code = 2 then some .kbps500
  else if code = 3 then some .kbps1000
  else if code = 4 then some .kbps83
  else none

/-- What the command to start a bus does. -/
def cs11Start (env : Env) (b : List UInt8) : List Effect :=
  match env.getBus (b.getD 1 0).toNat, cs11Speed (b.getD 2 0) with
  | some bus, some speed => [.start bus speed]
  | none, _ | some _, none => []

/-- The length code of a record whose first byte is `len`: `len - 3` as a field of 4 bits. -/
def cs11Dlc (len : ℕ) : Fin 16 := lengthCode (len + 13)

/-- The message of a record. -/
def cs11Message (env : Env) (len : ℕ) (r : List UInt8) : LogMessage :=
  let f : Frame :=
    { Frame.zero with
      format := .std
      origin := env.getBus (r.getD 1 0).toNat
      msgId := .ofNat ((r.getD 3 0).toNat * 256 + (r.getD 2 0).toNat)
      dlc := cs11Dlc len }
  ⟨.frameTX, .zero, f.copy ((r.drop 4).take (cs11Dlc len).val)⟩

/-- A record, which is its length and that many bytes. -/
def cs11Record (env : Env) (d : Decoder) (len : ℕ) : Parsed :=
  let r := d.items.take (len + 1)
  ⟨d.pop (len + 1), true, cs11Message env len r,
    if d.syncing && env.connected then [.transmit [1, r.getD 1 0]] else [],
    [⟨.buffered, len + 1, d.items.length⟩, ⟨.scratch, len + 1, cs11MaxLen⟩,
      ⟨.record, 4 + (cs11Dlc len).val, len + 1⟩, ⟨.frameData, (cs11Dlc len).val, 8⟩]⟩

/-- What is read from the buffer. -/
def cs11Parse (env : Env) (d : Decoder) : Parsed :=
  match d.items with
  | [] => .quiet d false
  | first :: rest =>
      if first = 0 then
        ⟨{ d.pop 1 with syncing := true }, true, .zero, [], [⟨.scratch, 1, cs11MaxLen⟩]⟩
      else if first = 255 then
        if rest.length + 1 ≥ 3 then
          ⟨d.pop 3, true, .zero, cs11Start env (first :: rest), [⟨.scratch, 3, cs11MaxLen⟩]⟩
        else .quiet d false
      else if rest.length + 1 ≥ first.toNat + 1 then cs11Record env d first.toNat
      else .quiet d false

/-- `canformat_cs11::put`. -/
def cs11Put (env : Env) : Decoder → List UInt8 → ℕ × Parsed := bufferedPut (cs11Parse env)

theorem cs11Get_eq {m : LogMessage} {b : ℕ} (htype : m.type = .frameRX)
    (hformat : m.frame.format = .std) (hdlc : m.frame.dlc.val ≤ 8)
    (horigin : m.frame.origin = some b) :
    cs11Get m = .ofNat (m.frame.dlc.val + 3) :: .ofNat b :: .ofNat (m.frame.msgId.toNat % 256) ::
      .ofNat (m.frame.msgId.toNat / 256 % 256) :: m.frame.payload := by
  rw [cs11Get, if_pos ⟨htype, hformat⟩, if_neg (Nat.not_lt_of_le hdlc), horigin]
  rfl

/-- **The message of a record is the one written**, as one to transmit. -/
theorem cs11Message_cs11Get (env : Env) {m : LogMessage} {b : ℕ} (htype : m.type = .frameRX)
    (hformat : m.frame.format = .std) (hid : m.frame.IdFits) (hdlc : m.frame.dlc.val ≤ 8)
    (horigin : m.frame.origin = some b) (hbus : env.getBus b = some b) :
    (cs11Message env (m.frame.dlc.val + 3) (cs11Get m)).frame.origin = some b ∧
      (cs11Message env (m.frame.dlc.val + 3) (cs11Get m)).frame.Agrees m.frame := by
  have hbyte {n : ℕ} (hn : n < 256) : (UInt8.ofNat n).toNat = n := Nat.mod_eq_of_lt hn
  have hpayload := Frame.length_payload hdlc
  have hcode : (cs11Dlc (m.frame.dlc.val + 3)).val = m.frame.dlc.val := by
    change (m.frame.dlc.val + 3 + 13) % 16 = m.frame.dlc.val
    omega
  have hdata : ((cs11Get m).drop 4).take m.frame.dlc.val = m.frame.payload := by
    rw [cs11Get_eq htype hformat hdlc horigin]
    exact List.take_of_length_le (Nat.le_of_eq hpayload)
  refine ⟨?_, hformat.symm, ?_, Fin.ext hcode, ?_⟩
  · change env.getBus ((cs11Get m).getD 1 0).toNat = some b
    have hread : ((cs11Get m).getD 1 0).toNat = b := by
      rw [cs11Get_eq htype hformat hdlc horigin]
      exact hbyte (Nat.lt_trans (Env.lt_of_getBus hbus) (by decide))
    rw [hread, hbus]
  · rw [Frame.IdFits, hformat] at hid
    change UInt32.ofNat (((cs11Get m).getD 3 0).toNat * 256 + ((cs11Get m).getD 2 0).toNat) = _
    rw [cs11Get_eq htype hformat hdlc horigin]
    change UInt32.ofNat ((UInt8.ofNat (m.frame.msgId.toNat / 256 % 256)).toNat * 256 +
      (UInt8.ofNat (m.frame.msgId.toNat % 256)).toNat) = _
    rw [hbyte (by omega), hbyte (by omega), ← UInt32.toNat_inj, UInt32.toNat_ofNat']
    dsimp only at hid
    omega
  · change (Frame.copy _ (((cs11Get m).drop 4).take (cs11Dlc (m.frame.dlc.val + 3)).val)).payload =
      m.frame.payload
    rw [hcode, hdata, Frame.payload_copy (hpayload ▸ hdlc)]
    exact hcode.trans hpayload.symm

/-- **A record written is read back**, as a frame to transmit on the bus that it came from,
and what follows it is left for the next call. -/
theorem cs11Put_cs11Get (env : Env) {d : Decoder} {m : LogMessage} {b : ℕ}
    (hserve : d.isServeDiscarding = false) (hempty : d.items = []) (htype : m.type = .frameRX)
    (hformat : m.frame.format = .std) (hid : m.frame.IdFits) (hdlc : m.frame.dlc.val ≤ 8)
    (horigin : m.frame.origin = some b) (hbus : env.getBus b = some b) (rest : List UInt8) :
    let p := (cs11Put env d (cs11Get m ++ rest)).2
    p.message.type = .frameTX ∧ p.message.frame.origin = some b ∧
      p.message.frame.Agrees m.frame ∧
      p.decoder.items = rest.take (serveBufferSize - (m.frame.dlc.val + 4)) := by
  intro p
  have hlen : (cs11Get m).length = m.frame.dlc.val + 4 := by
    rw [cs11Get_eq htype hformat hdlc horigin]
    simp only [List.length_cons, Frame.length_payload hdlc]
  obtain ⟨kept, hkept⟩ : ∃ kept, kept = rest.take (serveBufferSize - (m.frame.dlc.val + 4)) :=
    ⟨_, rfl⟩
  obtain ⟨hput, hitems, hpop, hleft⟩ := bufferedPut_append (cs11Parse env) hserve hempty
    (cs11Get m) rest kept (by rw [hlen, serveBufferSize]; omega) (by rw [hlen]; exact hkept)
  have hp : p = cs11Parse env (d.holding (cs11Get m ++ kept)) := congrArg Prod.snd hput
  -- the first byte is a length
  have hfirst : (UInt8.ofNat (m.frame.dlc.val + 3)).toNat = m.frame.dlc.val + 3 :=
    UInt8.toNat_ofNat_of_lt' (show m.frame.dlc.val + 3 < 256 by omega)
  have hsync : UInt8.ofNat (m.frame.dlc.val + 3) ≠ 0 := fun h => by
    rw [h] at hfirst
    cases hfirst
  have hstart : UInt8.ofNat (m.frame.dlc.val + 3) ≠ 255 := fun h => by
    rw [h] at hfirst
    change 255 = _ at hfirst
    omega
  have hrecord : cs11Parse env (d.holding (cs11Get m ++ kept)) =
      cs11Record env (d.holding (cs11Get m ++ kept)) (m.frame.dlc.val + 3) := by
    have hcons := cs11Get_eq htype hformat hdlc horigin
    rw [cs11Parse, hitems, hcons]
    dsimp only [List.cons_append]
    rw [if_neg hsync, if_neg hstart, hfirst, if_pos]
    simp only [List.length_cons, List.length_append, Frame.length_payload hdlc]
    omega
  have hfront : (cs11Get m ++ kept).take (m.frame.dlc.val + 3 + 1) = cs11Get m :=
    List.take_left' hlen
  rw [hlen] at hpop
  obtain ⟨hfound, hagrees⟩ := cs11Message_cs11Get env htype hformat hid hdlc horigin hbus
  rw [← hkept, hp, hrecord, cs11Record, hitems, hfront, hpop]
  exact ⟨rfl, hfound, hagrees, hleft⟩

/-- A frame of the second bus, with another byte behind its record. -/
theorem cs11Put_cs11Get_std :
    let m : LogMessage := ⟨.frameRX, .zero, .ofBytes (some 1) .std 0x5A7 [1, 2]⟩
    let p := (cs11Put .full (.new .simulate) (cs11Get m ++ [0])).2
    p.message.type = .frameTX ∧ p.message.frame.origin = some 1 ∧
      p.message.frame.Agrees m.frame ∧
      p.decoder.items = [0].take (serveBufferSize - (m.frame.dlc.val + 4)) := by
  intro m
  exact cs11Put_cs11Get .full (d := .new .simulate) (m := m) rfl rfl rfl rfl
    (show 0x5A7 < 2 ^ 11 by decide) (show 2 ≤ 8 by decide) rfl rfl [0]

/-! ### panda -/

/-- `canformat_panda::put`: what comes in is ignored. -/
def pandaPut (d : Decoder) (chunk : List UInt8) : ℕ × Parsed := (chunk.length, .quiet d false)

end Ovms.Canlog
