import Mathlib.Data.List.Forall2
import Ovms.EGolf.BatteryControl

/-!
# The Profile Record on the Wire

A record of a profile array is a run of bytes: nineteen fixed bytes, the length of the
name, and the name. This module cuts an array into those runs without looking at the
fields (`recordsOf`), and says what the codec does to one of them: decoding keeps every
fixed byte and the first 24 characters of the name, and encoding writes them back.
-/

open Ovms.Bap

namespace Ovms.EGolf

/-! ### Cutting records out of an array -/

/-- The record at the head of some bytes, and what follows it. -/
def takeRecord (bytes : List UInt8) : Option (List UInt8 × List UInt8) :=
  match bytes[19]? with
  | none => none
  | some len =>
      if bytes.length < kProfileFixedLen + len.toNat then none
      else some (bytes.splitAt (kProfileFixedLen + len.toNat))

/-- The declared name length of a record. -/
def nameLength (record : List UInt8) : ℕ := (record[19]?.getD 0).toNat

/-- The records of an array with their positions, up to the first that is cut short. -/
def recordsOf (largeIdx posTransmit : Bool) (startIndex : UInt16) :
    ℕ → ℕ → Reader → List (UInt16 × List UInt8)
  | 0, _, _ => []
  | left + 1, i, r =>
      let pos := readPosition largeIdx posTransmit startIndex i r
      if !pos.2.ok then []
      else
        match takeRecord pos.2.rest with
        | none => []
        | some (record, rest) =>
            (pos.1, record) ::
              recordsOf largeIdx posTransmit startIndex left (i + 1) ⟨rest, true⟩

/-- The bytes of the record at position 0 of a profile array. -/
def globalRecord (body : List UInt8) : Option (List UInt8) :=
  let h := readArrayHeader (Reader.ofBody body)
  ((recordsOf (h.1.1 &&& 0x80 != 0) (h.1.1 &&& 0x40 != 0) h.1.2.1 h.1.2.2.toNat 0
    h.2).find? fun pr => pr.1 == 0).map Prod.snd

/-- A record is nineteen fixed bytes, a length and as many characters. -/
theorem takeRecord_eq_some {bytes record rest : List UInt8}
    (h : takeRecord bytes = some (record, rest)) :
    ∃ fixed len name, fixed.length = 19 ∧ name.length = len.toNat ∧
      record = fixed ++ len :: name ∧ bytes = record ++ rest := by
  rw [takeRecord] at h
  cases h19 : bytes[19]? with
  | none => simp [h19] at h
  | some len =>
      rw [h19] at h
      simp only [kProfileFixedLen, Option.ite_none_left_eq_some, List.splitAt_eq,
        Option.some.injEq, Prod.mk.injEq] at h
      obtain ⟨hlen, rfl, rfl⟩ := h
      obtain ⟨h19lt, hget⟩ := List.getElem?_eq_some_iff.mp h19
      refine ⟨bytes.take 19, len, (bytes.drop 20).take len.toNat, ?_, ?_, ?_, ?_⟩
      · rw [List.length_take]
        omega
      · rw [List.length_take, List.length_drop]
        omega
      · have hsplit : bytes = bytes.take 19 ++ len :: bytes.drop 20 := by
          rw [← hget, ← List.drop_eq_getElem_cons h19lt, List.take_append_drop]
        have htake : (bytes.take 19).length = 19 := by
          rw [List.length_take]
          omega
        calc bytes.take (20 + len.toNat)
            = (bytes.take 19 ++ len :: bytes.drop 20).take (20 + len.toNat) := by rw [← hsplit]
          _ = bytes.take 19 ++ len :: (bytes.drop 20).take len.toNat := by
            rw [List.take_append, List.take_of_length_le (by omega), htake,
              show 20 + len.toNat - 19 = len.toNat + 1 by omega, List.take_succ_cons]
      · rw [List.take_append_drop]

/-- Nothing is cut out of fewer than twenty bytes, or of fewer than the name needs. -/
theorem takeRecord_eq_none {bytes : List UInt8} (h : takeRecord bytes = none) :
    bytes.length < 20 ∨ ∃ fixed len tail, fixed.length = 19 ∧ bytes = fixed ++ len :: tail ∧
      tail.length < len.toNat := by
  rw [takeRecord] at h
  cases h19 : bytes[19]? with
  | none =>
      left
      have := List.getElem?_eq_none_iff.mp h19
      omega
  | some len =>
      right
      rw [h19] at h
      obtain ⟨h19lt, hget⟩ := List.getElem?_eq_some_iff.mp h19
      by_cases hlt : bytes.length < kProfileFixedLen + len.toNat
      · refine ⟨bytes.take 19, len, bytes.drop 20, ?_, ?_, ?_⟩
        · rw [List.length_take]
          omega
        · rw [← hget, ← List.drop_eq_getElem_cons h19lt, List.take_append_drop]
        · rw [kProfileFixedLen] at hlt
          rw [List.length_drop]
          omega
      · simp [hlt] at h

/-! ### Reading a record -/

/-- The profile that nineteen fixed bytes and a name make. -/
def profileOf : List UInt8 → Reader.LpString → Profile
  | [operation, operation2, maxCurrent, minChargeLevel, minRange0, minRange1,
      targetChargeLevel, targetChargeDuration, targetChargeRange0, targetChargeRange1,
      unitRange, rangeCalculationSetup, temperatureRaw, temperatureUnit, leadTime,
      holdingTimePlug, holdingTimeBattery, providerDataId0, providerDataId1], s =>
      { operation, operation2, maxCurrent, minChargeLevel,
        minRange := minRange0.toUInt16 ||| minRange1.toUInt16 <<< 8,
        targetChargeLevel, targetChargeDuration,
        targetChargeRange := targetChargeRange0.toUInt16 ||| targetChargeRange1.toUInt16 <<< 8,
        unitRange, rangeCalculationSetup, temperatureRaw, temperatureUnit, leadTime,
        holdingTimePlug, holdingTimeBattery,
        providerDataId := providerDataId0.toUInt16 ||| providerDataId1.toUInt16 <<< 8,
        nameLen := s.copied, name := s.out, nameTruncated := s.truncated }
  | _, _ => {}

theorem readProfile_append {fixed : List UInt8} (h : fixed.length = 19) (tail : List UInt8) :
    readProfile ⟨fixed ++ tail, true⟩
      = (let s := Reader.strLp (List.replicate 25 0) (kProfileMaxName + 1) ⟨tail, true⟩
         ((s.2.ok, profileOf fixed s.1), s.2)) := by
  match fixed, h with
  | [_, _, _, _, _, _, _, _, _, _, _, _, _, _, _, _, _, _, _], _ => rfl

theorem consumes_readProfile : Reader.Consumes kProfileFixedLen readProfile := by
  rw [readProfile]
  refine .u8_bind fun _ => .u8_bind fun _ => .u8_bind fun _ => .u8_bind fun _ => ?_
  refine .u16le_bind fun _ => .u8_bind fun _ => .u8_bind fun _ => .u16le_bind fun _ => ?_
  refine .u8_bind fun _ => .u8_bind fun _ => .u8_bind fun _ => .u8_bind fun _ => ?_
  refine .u8_bind fun _ => .u8_bind fun _ => .u8_bind fun _ => .u16le_bind fun _ => ?_
  exact .strLp_bind fun _ r hok => ⟨hok, le_rfl⟩

theorem readProfile_not_ok (bytes : List UInt8) : (readProfile ⟨bytes, false⟩).1.1 = false := by
  by_contra h
  have hok := (consumes_readProfile ⟨bytes, false⟩ (eq_true_of_ne_false h)).1
  cases hok

theorem readProfile_short {bytes : List UInt8} (h : bytes.length < kProfileFixedLen) :
    (readProfile ⟨bytes, true⟩).1.1 = false := by
  by_contra hne
  have hlen := (consumes_readProfile ⟨bytes, true⟩ (eq_true_of_ne_false hne)).2
  exact absurd (Nat.le_of_add_left_le hlen) (Nat.not_le.mpr h)

/-- The number of characters that survive decoding. -/
def keptName (len : UInt8) : UInt8 := if len > kProfileMaxName then kProfileMaxName else len

/-- **Reading a record** takes its fixed fields and at most 24 characters of its name. -/
theorem readProfile_eq {fixed name : List UInt8} {len : UInt8} (h : fixed.length = 19)
    (hname : name.length = len.toNat) (rest : List UInt8) :
    ∃ s : Reader.LpString, readProfile ⟨fixed ++ len :: name ++ rest, true⟩
        = ((true, profileOf fixed s), ⟨rest, true⟩) ∧
      s.copied = keptName len ∧
      s.out.take (keptName len).toNat = name.take (keptName len).toNat := by
  have hcap : kProfileMaxName + 1 ≠ 0 := by decide
  have hmax : kProfileMaxName + 1 - 1 = kProfileMaxName := by decide
  rw [List.append_assoc, List.cons_append, readProfile_append h,
    Reader.strLp_eq _ hcap (by rw [List.length_append]; omega)]
  have hdrop : (name ++ rest).drop len.toNat = rest := by
    rw [← hname, List.drop_left]
  have hkept : (keptName len).toNat ≤ name.length := by
    rw [hname, keptName]
    split
    · rename_i hgt
      exact le_of_lt (UInt8.lt_iff_toNat_lt.mp hgt)
    · exact le_rfl
  simp only [hdrop, hmax]
  refine ⟨_, rfl, rfl, ?_⟩
  change (List.set ((name ++ rest).take (keptName len).toNat ++ _) (keptName len).toNat 0).take
    (keptName len).toNat = _
  rw [List.take_set_of_le le_rfl, List.take_append_of_le_length hkept, List.take_left']
  rw [List.length_take]
  omega

/-- **Anything shorter than a record is refused.** -/
theorem readProfile_fails {bytes : List UInt8} (h : takeRecord bytes = none) :
    (readProfile ⟨bytes, true⟩).1.1 = false := by
  rcases takeRecord_eq_none h with hlen | ⟨fixed, len, tail, hfixed, rfl, htail⟩
  · exact readProfile_short hlen
  · rw [readProfile_append hfixed]
    refine Reader.strLp_short _ fun len' tail' heq => ?_
    obtain ⟨rfl, rfl⟩ := List.cons.inj heq
    exact htail

/-! ### Writing a record -/

/-- The nineteen fixed bytes of a profile. -/
def fixedBytes (p : Profile) : List UInt8 :=
  [p.operation, p.operation2, p.maxCurrent, p.minChargeLevel, (p.minRange &&& 0xFF).toUInt8,
    (p.minRange >>> 8 &&& 0xFF).toUInt8, p.targetChargeLevel, p.targetChargeDuration,
    (p.targetChargeRange &&& 0xFF).toUInt8, (p.targetChargeRange >>> 8 &&& 0xFF).toUInt8,
    p.unitRange, p.rangeCalculationSetup, p.temperatureRaw, p.temperatureUnit, p.leadTime,
    p.holdingTimePlug, p.holdingTimeBattery, (p.providerDataId &&& 0xFF).toUInt8,
    (p.providerDataId >>> 8 &&& 0xFF).toUInt8]

theorem keptName_le (len : UInt8) : (keptName len).toNat ≤ 24 := by
  rw [keptName]
  split
  · decide
  · rename_i h
    have hle := UInt8.not_lt.mp h
    exact UInt8.le_iff_toNat_le.mp hle

/-- **Writing a profile** puts its fixed bytes, then at most 24 characters of its name. -/
theorem encodeProfile_eq (p : Profile) :
    encodeProfile 45 p
      = fixedBytes p ++ keptName p.nameLen :: p.name.take (keptName p.nameLen).toNat := by
  have hlen : ¬ (fixedBytes p ++ [keptName p.nameLen]).length
      + (keptName p.nameLen).toNat > 45 := by
    have hkept := keptName_le p.nameLen
    have h20 : (fixedBytes p ++ [keptName p.nameLen]).length = 20 := rfl
    omega
  have hname : Writer.strLp ⟨fixedBytes p, 45, true⟩ p.name (keptName p.nameLen)
      = ⟨(fixedBytes p ++ [keptName p.nameLen]) ++ p.name.take (keptName p.nameLen).toNat, 45,
          true⟩ := by
    rw [Writer.strLp, Writer.u8_eq _ (by simp [fixedBytes])]
    exact if_neg hlen
  -- the fixed fields, one write after the other
  have hfixed : encodeProfile 45 p
      = if (Writer.strLp ⟨fixedBytes p, 45, true⟩ p.name (keptName p.nameLen)).ok then
          (Writer.strLp ⟨fixedBytes p, 45, true⟩ p.name (keptName p.nameLen)).out
        else [] := by
    simp (disch := simp) only [encodeProfile, Writer.ofCap, Writer.u8_eq, Writer.u16le_eq,
      List.cons_append, List.nil_append]
    rfl
  rw [hfixed, hname, if_pos rfl, List.append_assoc]
  rfl

/-- A 16-bit scalar is written back as the two bytes it was read from. -/
theorem le16_bytes (lo hi : UInt8) :
    ((lo.toUInt16 ||| hi.toUInt16 <<< 8) &&& 0xFF).toUInt8 = lo ∧
      ((lo.toUInt16 ||| hi.toUInt16 <<< 8) >>> 8 &&& 0xFF).toUInt8 = hi := by
  have h8 : (8 : UInt16).toNat % 16 = 8 := rfl
  have hlo := lo.toNat_lt
  have hhi := hi.toNat_lt
  have hfit : hi.toNat <<< 8 < 2 ^ 16 := by
    rw [Nat.shiftLeft_eq]
    omega
  have hword : (lo.toUInt16 ||| hi.toUInt16 <<< 8).toNat = hi.toNat * 2 ^ 8 + lo.toNat := by
    rw [UInt16.toNat_or, UInt16.toNat_shiftLeft, UInt8.toNat_toUInt16, UInt8.toNat_toUInt16, h8,
      Nat.mod_eq_of_lt hfit, Nat.or_comm, Lib.shiftLeft_or_eq _ (by omega)]
  constructor
  · refine UInt8.toNat_inj.mp ?_
    rw [UInt16.toNat_toUInt8, Lib.UInt16.toNat_and_mask _ (k := 8) rfl, hword]
    omega
  · refine UInt8.toNat_inj.mp ?_
    rw [UInt16.toNat_toUInt8, Lib.UInt16.toNat_and_mask _ (k := 8) rfl, UInt16.toNat_shiftRight,
      h8, Nat.shiftRight_eq_div_pow, hword]
    omega

theorem fixedBytes_profileOf {fixed : List UInt8} (h : fixed.length = 19)
    (s : Reader.LpString) : fixedBytes (profileOf fixed s) = fixed := by
  match fixed, h with
  | [_, _, _, _, b4, b5, _, _, b8, b9, _, _, _, _, _, _, _, b17, b18], _ =>
      simp only [fixedBytes, profileOf, le16_bytes]

/-! ### Records and profiles -/

/-- The profile `p` was read from `record`. -/
def FromRecord (p : Profile) (record : List UInt8) : Prop :=
  ∃ fixed len name s, fixed.length = 19 ∧ name.length = len.toNat ∧
    record = fixed ++ len :: name ∧ p = { profileOf fixed s with position := p.position } ∧
    s.copied = keptName len ∧
    s.out.take (keptName len).toNat = name.take (keptName len).toNat

/-- One record read off an array: the code and the cut agree. -/
theorem readProfile_takeRecord {bytes record rest : List UInt8}
    (h : takeRecord bytes = some (record, rest)) :
    ∃ p, readProfile ⟨bytes, true⟩ = ((true, p), ⟨rest, true⟩) ∧
      ∀ position, FromRecord { p with position } record := by
  obtain ⟨fixed, len, name, hfixed, hname, rfl, rfl⟩ := takeRecord_eq_some h
  obtain ⟨s, hread, hcopied, hout⟩ := readProfile_eq hfixed hname rest
  exact ⟨profileOf fixed s, hread, fun position =>
    ⟨fixed, len, name, s, hfixed, hname, rfl, rfl, hcopied, hout⟩⟩

/-- **The decoded profiles are the records of the array**, one by one, as far as the
decoder went. -/
theorem decodeRecords_eq (maxOut : ℕ) (largeIdx posTransmit : Bool) {recordAddr : UInt8}
    (startIndex : UInt16) (h6 : recordAddr ≠ 6) :
    ∀ (left i : ℕ) (out : List Profile) (bytes : List UInt8),
      ∃ ps, (decodeRecords maxOut largeIdx posTransmit recordAddr startIndex left i out
          ⟨bytes, true⟩).out = out ++ ps ∧
        ∃ tail, List.Forall₂ (fun p pr => p.position = pr.1 ∧ FromRecord p pr.2) ps tail ∧
          tail <+: recordsOf largeIdx posTransmit startIndex left i ⟨bytes, true⟩ := by
  intro left
  induction left with
  | zero => intro i out bytes; exact ⟨[], by simp [decodeRecords], [], .nil, List.nil_prefix⟩
  | succ left ih =>
      intro i out bytes
      simp only [decodeRecords, recordsOf, Bool.not_true, Bool.false_eq_true, if_false]
      by_cases hfull : out.length ≥ maxOut
      · rw [if_pos hfull]
        exact ⟨[], by simp, [], .nil, List.nil_prefix⟩
      rw [if_neg hfull]
      have haddr : (recordAddr == 6) = false := beq_false_of_ne h6
      simp only [haddr, Bool.false_eq_true, if_false]
      obtain ⟨pos, hpos⟩ : ∃ pos, readPosition largeIdx posTransmit startIndex i ⟨bytes, true⟩
          = pos := ⟨_, rfl⟩
      obtain ⟨position, ⟨bytes', ok⟩⟩ := pos
      simp only [hpos]
      cases ok with
      | false =>
          refine ⟨[], ?_, [], .nil, List.nil_prefix⟩
          rw [readProfile_not_ok]
          simp
      | true =>
          cases hrec : takeRecord bytes' with
          | none =>
              refine ⟨[], ?_, [], .nil, List.nil_prefix⟩
              rw [readProfile_fails hrec]
              simp
          | some record =>
              obtain ⟨record, rest⟩ := record
              obtain ⟨p, hread, hfrom⟩ := readProfile_takeRecord hrec
              obtain ⟨ps, hps, tail, htail, hprefix⟩ :=
                ih (i + 1) (out ++ [{ p with position }]) rest
              refine ⟨{ p with position } :: ps, ?_, (position, record) :: tail,
                .cons ⟨rfl, hfrom position⟩ htail, ?_⟩
              · rw [hread]
                simp only [Bool.not_true, Bool.false_eq_true, if_false]
                rw [hps, List.append_assoc]
                rfl
              · simp only [Bool.not_true, Bool.false_eq_true, if_false]
                exact List.prefix_cons_inj _ |>.mpr hprefix

/-- Compact records are skipped: nothing is decoded from them. -/
theorem decodeRecords_compact {maxOut : ℕ} {largeIdx posTransmit : Bool}
    {startIndex : UInt16} :
    ∀ (left i : ℕ) (out : List Profile) (r : Reader),
      (decodeRecords maxOut largeIdx posTransmit 6 startIndex left i out r).out = out := by
  intro left
  induction left with
  | zero => intro i out r; rfl
  | succ left ih =>
      intro i out r
      simp only [decodeRecords, beq_self_eq_true, if_true]
      split
      · rfl
      · split
        · rfl
        · exact ih _ _ _

/-- Search in two aligned lists finds the same place. -/
private theorem find?_forall₂ {ps : List Profile} {rs : List (UInt16 × List UInt8)}
    (h : List.Forall₂ (fun p pr => p.position = pr.1 ∧ FromRecord p pr.2) ps rs)
    {p : Profile} (hp : (ps.find? fun p => p.position == 0) = some p) :
    ∃ record, (rs.find? fun pr => pr.1 == 0) = some (0, record) ∧ FromRecord p record := by
  induction h with
  | nil => cases hp
  | @cons q pr qs rs hq _ ih =>
      obtain ⟨hpos, hfrom⟩ := hq
      by_cases h0 : q.position = 0
      · rw [List.find?_cons_of_pos (by simp [h0])] at hp
        obtain rfl := Option.some.inj hp
        refine ⟨pr.2, ?_, hfrom⟩
        rw [List.find?_cons_of_pos (by simp [← hpos, h0])]
        rw [← h0, hpos]
      · rw [List.find?_cons_of_neg (by simp [h0])] at hp
        obtain ⟨record, hfind, hrec⟩ := ih hp
        exact ⟨record, by rw [List.find?_cons_of_neg (by simp [← hpos, h0]), hfind], hrec⟩

/-- **The profile decoded at position 0 comes from the record at position 0.** -/
theorem exists_record {body : List UInt8} {maxOut : ℕ} {p : Profile}
    (h : ((decodeProfileArray body maxOut).1.find? fun p => p.position == 0) = some p) :
    ∃ record, globalRecord body = some record ∧ FromRecord p record := by
  rw [decodeProfileArray] at h
  rw [globalRecord]
  obtain ⟨hd, hhd⟩ : ∃ hd, readArrayHeader (Reader.ofBody body) = hd := ⟨_, rfl⟩
  obtain ⟨⟨flags, startIndex, elementCount⟩, ⟨rest, ok⟩⟩ := hd
  simp only [hhd] at h ⊢
  cases ok with
  | false => simp at h
  | true =>
      simp only [Bool.not_true, Bool.false_eq_true, if_false] at h
      by_cases h6 : flags &&& 0x0F = 6
      · rw [h6, decodeRecords_compact] at h
        cases h
      · obtain ⟨ps, hps, tail, htail, hprefix⟩ :=
          decodeRecords_eq maxOut (flags &&& 0x80 != 0) (flags &&& 0x40 != 0) startIndex h6
            elementCount.toNat 0 [] rest
        rw [hps, List.nil_append] at h
        obtain ⟨record, hfind, hfrom⟩ := find?_forall₂ htail h
        obtain ⟨more, hmore⟩ := hprefix
        refine ⟨record, ?_, hfrom⟩
        rw [← hmore, List.find?_append, hfind]
        rfl

/-! ### Reading and writing back -/

/-- Two records differ at most in the operation byte and the charge-current byte. -/
def SameRecord (written record : List UInt8) : Prop :=
  ∀ i, i ≠ 0 → i ≠ 2 → written[i]? = record[i]?

theorem fixedBytes_update (p : Profile) (operation maxCurrent : UInt8) :
    fixedBytes { p with operation, maxCurrent }
      = ((fixedBytes p).set 0 operation).set 2 maxCurrent := rfl

/-- **Read, modify, write.** Writing a profile back after changing its operation and its
charge current preserves the record it was read from, those two bytes apart, if and only
if the declared name has at most 24 characters. -/
theorem encode_preserves_iff {p : Profile} {record : List UInt8} (h : FromRecord p record)
    (operation maxCurrent : UInt8) :
    SameRecord (encodeProfile 45 { p with operation, maxCurrent }) record ↔
      nameLength record ≤ 24 := by
  obtain ⟨fixed, len, name, s, hfixed, hname, rfl, hp, hcopied, hout⟩ := h
  have hnameLen : p.nameLen = keptName len := by
    rw [hp, ← hcopied]
    match fixed, hfixed with
    | [_, _, _, _, _, _, _, _, _, _, _, _, _, _, _, _, _, _, _], _ => rfl
  have hpname : p.name = s.out := by
    rw [hp]
    match fixed, hfixed with
    | [_, _, _, _, _, _, _, _, _, _, _, _, _, _, _, _, _, _, _], _ => rfl
  have hbytes : fixedBytes p = fixed := by
    rw [hp]
    exact fixedBytes_profileOf hfixed s
  have hidem : keptName (keptName len) = keptName len := by
    have hle := keptName_le len
    rw [keptName, if_neg]
    exact fun hgt => absurd (UInt8.lt_iff_toNat_lt.mp hgt) (Nat.not_lt.mpr hle)
  have henc : encodeProfile 45 { p with operation, maxCurrent }
      = (fixed.set 0 operation).set 2 maxCurrent ++
          keptName len :: name.take (keptName len).toNat := by
    rw [encodeProfile_eq, fixedBytes_update, hbytes, hnameLen, hidem, hpname, hout]
  have hlen19 : nameLength (fixed ++ len :: name) = len.toNat := by
    rw [nameLength, List.getElem?_append_right (by omega), hfixed]
    rfl
  have hset : ((fixed.set 0 operation).set 2 maxCurrent).length = 19 := by
    rw [List.length_set, List.length_set, hfixed]
  rw [henc, hlen19]
  constructor
  · intro hsame
    have h19 := hsame 19 (by omega) (by omega)
    rw [List.getElem?_append_right (by omega), List.getElem?_append_right (by omega), hset,
      hfixed] at h19
    have hkept : keptName len = len := by simpa using h19
    rw [← hkept]
    exact keptName_le len
  · intro h24 i h0 h2
    have hkept : keptName len = len := by
      rw [keptName, if_neg]
      exact fun hgt => absurd (UInt8.lt_iff_toNat_lt.mp hgt) (Nat.not_lt.mpr h24)
    rw [hkept, ← hname, List.take_length]
    rcases Nat.lt_or_ge i 19 with hi | hi
    · rw [List.getElem?_append_left (by omega), List.getElem?_append_left (by omega),
        List.getElem?_set_ne (by omega), List.getElem?_set_ne (by omega)]
    · rw [List.getElem?_append_right (by omega), List.getElem?_append_right (by omega), hset,
        hfixed]

end Ovms.EGolf
