import Ovms.Poll.Step

/-!
# Reassembly of Responses

A module answers a request with a positive response: the request type plus `0x40`, the PID
of the request, and data. ISO 15765-2 cuts it into frames, and `PollerISOTPReceive` hands
the data to the application frame by frame.

The state while a response is under way is computed from what has been handed over and
what is left (`Receiving`); one lemma for each kind of frame moves it, and the induction
over the consecutive frames is `handsOver_consecutives_iff`.
-/

open Ovms.Can Lib.IsoTp

namespace Ovms.Poll

/-! ### Bytes of a frame -/

theorem u8_add (f : CanFrame) (d i : ℕ) : f.u8 (d + i) = (f.data.drop d).getD i 0 := by
  rw [CanFrame.u8, List.getD_eq_getElem?_getD, List.getD_eq_getElem?_getD, List.getElem?_drop]

theorem length_tpBytes (p : Protocol) (f : CanFrame) : (tpBytes p f).length = p.frMaxlen := by
  have := p.frOffset_add_frMaxlen
  rw [tpBytes, List.length_drop, f.size]
  omega

theorem Protocol.frMaxlen_cases (p : Protocol) : p.frMaxlen = 7 ∨ p.frMaxlen = 8 := by
  cases p <;> decide

/-- The upper four bits tell the frame type. -/
theorem frameType_ofNat {k low : ℕ} (hk : k < 4) (hlow : low < 16) :
    frameType (.ofNat (k * 16 + low)) =
      [FrameType.single, .first, .consecutive, .flowctrl][k]? := by
  have hshift : (UInt8.ofNat (k * 16 + low)) >>> 4 = UInt8.ofNat k := by
    apply UInt8.toNat_inj.mp
    rw [UInt8.toNat_shiftRight, UInt8.toNat_ofNat', UInt8.toNat_ofNat']
    have h4 : (4 : UInt8).toNat % 8 = 4 := by decide
    rw [h4, Nat.shiftRight_eq_div_pow]
    omega
  rw [frameType, hshift]
  match k with
  | 0 => rfl
  | 1 => rfl
  | 2 => rfl
  | 3 => rfl

theorem toNat_ofNat_and_0f (k : ℕ) {low : ℕ} (hlow : low < 16) :
    (UInt8.ofNat (k * 16 + low) &&& 0x0f).toNat = low := by
  rw [Lib.UInt8.toNat_and_mask (k := 4) _ (by decide), UInt8.toNat_ofNat']
  omega

/-! ### Positive responses -/

/-- What a positive response to the request in progress starts with. -/
def responseHeader (s : Poller) : List UInt8 :=
  .ofNat (0x40 + s.type.toNat) :: pidBytes s.type.toNat s.pid

/-- A positive response to the request in progress. -/
def responseTo (s : Poller) (data : List UInt8) : List UInt8 := responseHeader s ++ data

/-- The request has positive responses: its type plus `0x40` is a byte, and not the one
that marks an error response, and its PID has the width of its type. -/
structure Answerable (s : Poller) : Prop where
  type_le : s.type.toNat ≤ 0xBF
  type_ne : s.type.toNat ≠ 0x3F
  pid_lt : has8BitPid s.type.toNat = true → s.pid.toNat < 256

theorem length_responseHeader (s : Poller) :
    (responseHeader s).length = 1 + pidLen s.type.toNat := by
  rw [responseHeader, List.length_cons, length_pidBytes, Nat.add_comm]

/-- The header of a response that is no error response: the payload starts behind it. -/
theorem firstResponse_of_ne {f : CanFrame} {d : ℕ} (len : ℕ) (pid : UInt16)
    (h : f.u8 d ≠ udsRespTypeNrc) :
    (firstResponse f d len pid).type = f.u8 d ∧
      (firstResponse f d len pid).data = some (d + (1 + pidLen ((f.u8 d).toNat - 0x40))) ∧
      (firstResponse f d len pid).datalen =
        .ofInt (len - (1 + pidLen ((f.u8 d).toNat - 0x40) : ℕ)) := by
  simp only [firstResponse, if_neg h, pidLen]
  split
  · exact ⟨rfl, rfl, rfl⟩
  · split
    · exact ⟨rfl, rfl, rfl⟩
    · exact ⟨rfl, rfl, rfl⟩

/-- The two bytes of a PID make the PID. -/
theorem pid_of_bytes (pid : UInt16) :
    (pid >>> 8).toUInt8.toUInt16 <<< 8 ||| (pid &&& 0xff).toUInt8.toUInt16 = pid := by
  have hlt := pid.toNat_lt
  have h8 : (8 : UInt16).toNat % 16 = 8 := by decide
  have hlow : (pid &&& 0xff).toUInt8.toUInt16.toNat = pid.toNat % 2 ^ 8 := by
    rw [UInt8.toNat_toUInt16, UInt16.toNat_toUInt8,
      Lib.UInt16.toNat_and_mask (k := 8) _ (by decide)]
    omega
  have hhigh : (pid >>> 8).toUInt8.toUInt16.toNat = pid.toNat / 2 ^ 8 := by
    rw [UInt8.toNat_toUInt16, UInt16.toNat_toUInt8, UInt16.toNat_shiftRight, h8,
      Nat.shiftRight_eq_div_pow]
    omega
  apply UInt16.toNat_inj.mp
  rw [UInt16.toNat_or, UInt16.toNat_shiftLeft, h8, hlow, hhigh]
  have hsmall : (pid.toNat / 2 ^ 8) <<< 8 % 2 ^ 16 = (pid.toNat / 2 ^ 8) <<< 8 := by
    rw [Nat.shiftLeft_eq]
    omega
  rw [hsmall, Lib.shiftLeft_or_eq _ (Nat.mod_lt _ (by decide))]
  omega

theorem toUInt16_toUInt8 {pid : UInt16} (h : pid.toNat < 256) : pid.toUInt8.toUInt16 = pid := by
  apply UInt16.toNat_inj.mp
  rw [UInt8.toNat_toUInt16, UInt16.toNat_toUInt8]
  omega

/-- The meta data of a frame in which a positive response starts: it matches the request,
and the payload starts behind the header. -/
theorem firstResponse_header {s : Poller} (ha : Answerable s) {f : CanFrame} {d : ℕ}
    {tail : List UInt8} (hbytes : f.data.drop d = responseHeader s ++ tail) (len : ℕ) :
    ¬ (firstResponse f d len s.pid).IsError s ∧ (firstResponse f d len s.pid).Matches s ∧
      (firstResponse f d len s.pid).data = some (d + (responseHeader s).length) ∧
      (firstResponse f d len s.pid).datalen = .ofInt (len - (responseHeader s).length) := by
  have htype : f.u8 d = .ofNat (0x40 + s.type.toNat) := by
    rw [← Nat.add_zero d, u8_add, hbytes]
    rfl
  have htoNat : (f.u8 d).toNat = 0x40 + s.type.toNat := by
    rw [htype, UInt8.toNat_ofNat']
    have := ha.type_le
    omega
  have hne : f.u8 d ≠ udsRespTypeNrc := by
    intro h
    have h7f : (0x7F : ℕ) = 0x40 + s.type.toNat := by rw [← htoNat, h]; rfl
    have := ha.type_ne
    omega
  have hint : ((f.u8 d).toNat : ℤ) - 0x40 = s.type.toNat := by
    rw [htoNat]
    omega
  obtain ⟨hrtype, hrdata, hrlen⟩ := firstResponse_of_ne len s.pid hne
  rw [hint, ← length_responseHeader] at hrdata hrlen
  refine ⟨fun h => hne (hrtype ▸ h.1), ⟨hrtype ▸ htoNat, ?_⟩, hrdata, hrlen⟩
  simp only [firstResponse, if_neg hne, hint]
  rw [responseHeader, pidBytes] at hbytes
  split
  · rename_i h16
    rw [if_pos h16] at hbytes
    rw [u8_add, u8_add, hbytes]
    exact pid_of_bytes s.pid
  · rename_i h16
    split
    · rename_i h8
      rw [if_neg h16, if_pos h8] at hbytes
      rw [u8_add, hbytes]
      exact toUInt16_toUInt8 (ha.pid_lt h8)
    · rfl

/-! ### One frame of a response -/

/-- The packet that hands over `n` bytes at `d`, with `rem` bytes of the message left. -/
def handed (s : Poller) (f : CanFrame) (msgid : UInt32) (d n rem : ℕ) : Packet :=
  ⟨{ s with mlremain := .ofNat rem, moduleidRec := msgid }, f.data, some d, .ofNat n⟩

/-- A frame handed over: the packet, then what `moreData` does. -/
def handOver (s : Poller) (f : CanFrame) (msgid : UInt32) (ft : FrameType) (d n rem : ℕ) :
    Poller × Reply :=
  let p := handed s f msgid d n rem
  let next := moreData p.job f ft (.ofNat n)
  (next.1, ⟨true, .packet p :: next.2⟩)

theorem slice_handed {s : Poller} {f : CanFrame} {msgid : UInt32} {d n rem : ℕ}
    (h : d + n ≤ 8) : (handed s f msgid d n rem).slice = some ((f.data.drop d).take n) := by
  have hn : (UInt8.ofNat n).toNat = n := by
    rw [UInt8.toNat_ofNat']
    omega
  change Lib.readBlock f.data d (UInt8.ofNat n).toNat = _
  rw [hn, Lib.readBlock_eq_some (by rw [f.size]; exact h)]

theorem toUInt8_ofNat {n : ℕ} : (UInt16.ofNat n).toUInt8 = .ofNat n := by
  apply UInt8.toNat_inj.mp
  rw [UInt16.toNat_toUInt8, UInt16.toNat_ofNat', UInt8.toNat_ofNat']
  omega

/-- A data frame with a matching header is handed over. -/
theorem receiveData_of_matches {s : Poller} {f : CanFrame} {msgid : UInt32} {ft : FrameType}
    {d n : ℕ} (herr : ¬ (responseMeta s f ft).IsError s)
    (hmatch : (responseMeta s f ft).Matches s) (hdata : (responseMeta s f ft).data = some d)
    (hlen : (responseMeta s f ft).datalen = .ofNat n)
    (hle : (tpMeta s f ft).datalen ≤ (tpMeta s f ft).len) :
    receiveData s f msgid ft =
      handOver s f msgid ft d n ((tpMeta s f ft).len - (tpMeta s f ft).datalen) := by
  rw [receiveData]
  simp only [if_neg herr, if_pos hmatch, deliver, hdata, hlen, Lib.UInt16.ofInt_sub_of_le hle,
    toUInt8_ofNat]
  rfl

theorem badIndex_iff (s : Poller) (index : ℕ) :
    BadIndex s index ↔ s.mlremain.toNat = 0 ∨ s.mlframe.toNat % 16 < index := by
  rw [BadIndex, Lib.UInt16.toNat_and_mask (k := 4) _ (by decide), ← UInt16.toNat_inj]
  rfl

section Frames

variable {s : Poller} {f : CanFrame} {msgid : UInt32}

/-- The parts of a consecutive frame as the receiver reads them. -/
theorem tpMeta_consecutive {idx : ℕ} {content : List UInt8} (hidx : idx < 16)
    (hf : Carries s.protocol.frMaxlen (.consecutive idx content) (tpBytes s.protocol f)) :
    frameType (f.u8 s.protocol.frOffset) = some .consecutive ∧
      (tpMeta s f .consecutive).frameindex = idx := by
  obtain ⟨-, tail, htail⟩ := hf
  have hpci : f.u8 s.protocol.frOffset = .ofNat (2 * 16 + idx) := by
    rw [← Nat.add_zero s.protocol.frOffset, u8_add]
    change (tpBytes s.protocol f).getD 0 0 = _
    rw [← htail]
    rfl
  refine ⟨?_, ?_⟩
  · rw [hpci, frameType_ofNat (by decide) hidx]
    rfl
  · change (f.u8 s.protocol.frOffset &&& 0x0f).toNat = idx
    rw [hpci, toNat_ofNat_and_0f 2 hidx]

theorem tpMeta_consecutive_datalen (s : Poller) (f : CanFrame) :
    (tpMeta s f .consecutive).datalen = min s.mlremain.toNat (s.protocol.frMaxlen - 1) := by
  rw [tpMeta]
  simp only
  split <;> omega

/-- A continued response matches the request. -/
theorem nextResponse_matches {s : Poller} (htype : s.type.toNat ≤ 0xBF) (d len : ℕ) :
    ¬ (nextResponse s d len).IsError s ∧ (nextResponse s d len).Matches s := by
  have htoNat : (nextResponse s d len).type.toNat = 0x40 + s.type.toNat := by
    rw [nextResponse, UInt8.toNat_ofNat']
    omega
  refine ⟨?_, htoNat, rfl⟩
  rintro ⟨herr, hzero⟩
  have h7f : (0x7F : ℕ) = 0x40 + s.type.toNat := by rw [← htoNat, herr]; rfl
  have h0 : (0 : ℕ) = s.type.toNat := hzero
  omega

/-- **A consecutive frame** with an index up to the expected one is handed over, whatever
its content: as many bytes as remain and fit. -/
theorem receive_consecutive {idx : ℕ} {content : List UInt8} (hl : Listens s f msgid)
    (htype : s.type.toNat ≤ 0xBF) (hrem : s.mlremain.toNat ≠ 0) (hidx : idx < 16)
    (hok : idx ≤ s.mlframe.toNat % 16)
    (hf : Carries s.protocol.frMaxlen (.consecutive idx content) (tpBytes s.protocol f)) :
    pollerIsotpReceive s f msgid =
      handOver s f msgid .consecutive (s.protocol.frOffset + 1)
        (min s.mlremain.toNat (s.protocol.frMaxlen - 1))
        (s.mlremain.toNat - (s.protocol.frMaxlen - 1)) := by
  obtain ⟨hft, hindex⟩ := tpMeta_consecutive hidx hf
  have hgood : ¬ BadIndex s (tpMeta s f .consecutive).frameindex := by
    rw [badIndex_iff, hindex]
    omega
  have hdatalen := tpMeta_consecutive_datalen s f
  have hlen : (tpMeta s f .consecutive).len = s.mlremain.toNat := rfl
  obtain ⟨herr, hmatch⟩ : ¬ (responseMeta s f .consecutive).IsError s ∧
      (responseMeta s f .consecutive).Matches s := nextResponse_matches htype _ _
  rw [pollerIsotpReceive, if_neg (not_not.mpr hl), hft]
  simp only [if_neg hgood]
  rw [receiveData_of_matches herr hmatch rfl rfl (by omega), hlen, hdatalen]
  congr 1
  omega

/-- A consecutive frame beyond the expected index aborts the poll. -/
theorem receive_consecutive_bad {idx : ℕ} {content : List UInt8} (hl : Listens s f msgid)
    (hidx : idx < 16) (hbad : s.mlframe.toNat % 16 < idx)
    (hf : Carries s.protocol.frMaxlen (.consecutive idx content) (tpBytes s.protocol f)) :
    pollerIsotpReceive s f msgid = outOfSequence s idx := by
  obtain ⟨hft, hindex⟩ := tpMeta_consecutive hidx hf
  rw [pollerIsotpReceive, if_neg (not_not.mpr hl), hft]
  simp only [hindex]
  exact if_pos ((badIndex_iff s idx).mpr (Or.inr hbad))

/-- A frame in which a positive response starts is handed over, without its header. -/
theorem receive_start {ft : FrameType} {tail : List UInt8} (hl : Listens s f msgid)
    (ha : Answerable s) (hft : frameType (f.u8 s.protocol.frOffset) = some ft)
    (hstart : ft = .single ∨ ft = .first)
    (hbytes : f.data.drop (tpMeta s f ft).data = responseHeader s ++ tail)
    (hhdr : (responseHeader s).length ≤ (tpMeta s f ft).datalen)
    (hle : (tpMeta s f ft).datalen ≤ (tpMeta s f ft).len) :
    pollerIsotpReceive s f msgid =
      handOver s f msgid ft ((tpMeta s f ft).data + (responseHeader s).length)
        ((tpMeta s f ft).datalen - (responseHeader s).length)
        ((tpMeta s f ft).len - (tpMeta s f ft).datalen) := by
  have hmeta : responseMeta s f ft =
      firstResponse f (tpMeta s f ft).data (tpMeta s f ft).datalen s.pid := by
    rcases hstart with rfl | rfl <;> rfl
  obtain ⟨herr, hmatch, hdata, hlen⟩ := firstResponse_header ha hbytes (tpMeta s f ft).datalen
  rw [Lib.UInt16.ofInt_sub_of_le hhdr] at hlen
  rw [← hmeta] at herr hmatch hdata hlen
  rw [pollerIsotpReceive, if_neg (not_not.mpr hl), hft]
  rcases hstart with rfl | rfl
  · exact receiveData_of_matches herr hmatch hdata hlen hle
  · exact receiveData_of_matches herr hmatch hdata hlen hle

/-- **A first frame** hands over what follows the header. -/
theorem receive_first {data : List UInt8} (hl : Listens s f msgid) (ha : Answerable s)
    (hlong : s.protocol.frMaxlen ≤ (responseTo s data).length)
    (hmax : (responseTo s data).length ≤ 4095)
    (hf : Carries s.protocol.frMaxlen (.first (responseTo s data).length
      ((responseTo s data).take (s.protocol.frMaxlen - 2))) (tpBytes s.protocol f)) :
    ∃ tail, f.data.drop (s.protocol.frOffset + 2 + (responseHeader s).length) =
        data.take (s.protocol.frMaxlen - 2 - (responseHeader s).length) ++ tail ∧
      pollerIsotpReceive s f msgid =
        handOver s f msgid .first (s.protocol.frOffset + 2 + (responseHeader s).length)
          (s.protocol.frMaxlen - 2 - (responseHeader s).length)
          ((responseTo s data).length - (s.protocol.frMaxlen - 2)) := by
  obtain ⟨-, tail, htail⟩ := hf
  have hcap := s.protocol.frMaxlen_cases
  have hhdr : (responseHeader s).length ≤ s.protocol.frMaxlen - 2 := by
    have := pidLen_le s.type.toNat
    rw [length_responseHeader]
    omega
  -- the bytes of the frame, one after the other
  set len := (responseTo s data).length with hlenDef
  have hbyte (i : ℕ) : f.u8 (s.protocol.frOffset + i) =
      ((Pdu.first len ((responseTo s data).take (s.protocol.frMaxlen - 2))).bytes ++ tail).getD
        i 0 := by
    rw [htail, u8_add]
    rfl
  have h0 : f.u8 s.protocol.frOffset = .ofNat (1 * 16 + len / 256) := hbyte 0
  have h1 : f.u8 (s.protocol.frOffset + 1) = .ofNat (len % 256) := hbyte 1
  have hft : frameType (f.u8 s.protocol.frOffset) = some .first := by
    rw [h0, frameType_ofNat (by decide) (by omega)]
    rfl
  have hlen : (tpMeta s f .first).len = len := by
    change (f.u8 s.protocol.frOffset &&& 0x0f).toNat <<< 8 |||
      (f.u8 (s.protocol.frOffset + 1)).toNat = len
    have hlow : (UInt8.ofNat (len % 256)).toNat = len % 256 := by
      rw [UInt8.toNat_ofNat']
      omega
    have hsmall : len % 256 < 2 ^ 8 := Nat.mod_lt _ (by decide)
    rw [h0, h1, toNat_ofNat_and_0f 1 (by omega), hlow, Lib.shiftLeft_or_eq _ hsmall]
    omega
  have hdatalen : (tpMeta s f .first).datalen = s.protocol.frMaxlen - 2 := by
    change (if (tpMeta s f .first).len > s.protocol.frMaxlen - 2 then s.protocol.frMaxlen - 2
      else (tpMeta s f .first).len) = _
    rw [hlen, if_pos (by omega)]
  -- the content is the header, the first data bytes, and the filler
  have hcontent : f.data.drop (s.protocol.frOffset + 2) = responseHeader s ++
      (data.take (s.protocol.frMaxlen - 2 - (responseHeader s).length) ++ tail) := by
    rw [← List.drop_drop]
    change (tpBytes s.protocol f).drop 2 = _
    rw [← htail, responseTo, List.take_append, List.take_of_length_le hhdr, ← List.append_assoc]
    rfl
  have hreceive := receive_start hl ha hft (Or.inr rfl) hcontent (by rw [hdatalen]; exact hhdr)
    (by rw [hlen, hdatalen]; omega)
  rw [hlen, hdatalen] at hreceive
  refine ⟨tail, ?_, hreceive⟩
  rw [← List.drop_drop, hcontent, List.drop_left]

/-- **A single frame** hands over all that follows the header. -/
theorem receive_single {data : List UInt8} (hl : Listens s f msgid) (ha : Answerable s)
    (hshort : (responseTo s data).length ≤ s.protocol.frMaxlen - 1)
    (hf : Carries s.protocol.frMaxlen (.single (responseTo s data)) (tpBytes s.protocol f)) :
    ∃ tail, f.data.drop (s.protocol.frOffset + 1 + (responseHeader s).length) = data ++ tail ∧
      pollerIsotpReceive s f msgid =
        handOver s f msgid .single (s.protocol.frOffset + 1 + (responseHeader s).length)
          data.length 0 := by
  obtain ⟨-, tail, htail⟩ := hf
  have hcap := s.protocol.frMaxlen_cases
  have hlenEq : (responseTo s data).length = (responseHeader s).length + data.length :=
    List.length_append
  set len := (responseTo s data).length with hlenDef
  have h0 : f.u8 s.protocol.frOffset = .ofNat (0 * 16 + len) := by
    rw [Nat.zero_mul, Nat.zero_add, ← Nat.add_zero s.protocol.frOffset, u8_add]
    change (tpBytes s.protocol f).getD 0 0 = _
    rw [← htail]
    rfl
  have hft : frameType (f.u8 s.protocol.frOffset) = some .single := by
    rw [h0, frameType_ofNat (by decide) (by omega)]
    rfl
  have hlen : (tpMeta s f .single).len = len := by
    change (f.u8 s.protocol.frOffset &&& 0x0f).toNat = len
    rw [h0, toNat_ofNat_and_0f 0 (by omega)]
  have hdatalen : (tpMeta s f .single).datalen = len := hlen
  have hcontent : f.data.drop (s.protocol.frOffset + 1) =
      responseHeader s ++ (data ++ tail) := by
    rw [← List.drop_drop]
    change (tpBytes s.protocol f).drop 1 = _
    rw [← htail, ← List.append_assoc]
    rfl
  have hreceive := receive_start hl ha hft (Or.inl rfl) hcontent
    (by rw [hdatalen]; omega) (by rw [hlen, hdatalen])
  rw [hlen, hdatalen, Nat.sub_self, hlenEq, Nat.add_sub_cancel_left] at hreceive
  refine ⟨tail, ?_, hreceive⟩
  rw [← List.drop_drop, hcontent, List.drop_left]

end Frames

/-! ### Runs of frames -/

@[simp] theorem packets_handOver (s : Poller) (f : CanFrame) (msgid : UInt32) (ft : FrameType)
    (d n rem : ℕ) :
    packets (handOver s f msgid ft d n rem).2.effects = [handed s f msgid d n rem] := by
  rw [handOver]
  exact congrArg (_ :: ·) (packets_moreData _ f ft _)

/-- Frames of one module, received one after the other. -/
def receiveAll (msgid : UInt32) (s : Poller) (frames : List CanFrame) : Poller × List Reply :=
  Lib.runOut (fun s f => pollerIsotpReceive s f msgid) s frames

theorem receiveAll_cons (msgid : UInt32) (s : Poller) (f : CanFrame) (frames : List CanFrame) :
    (receiveAll msgid s (f :: frames)).2 = (pollerIsotpReceive s f msgid).2 ::
      (receiveAll msgid (pollerIsotpReceive s f msgid).1 frames).2 := rfl

/-- The replies hand over `rest`, in order, after `off` bytes handed over before: each is
one packet that carries its offset, and the last one alone has nothing remaining. -/
def HandsOver : ℕ → List UInt8 → List Reply → Prop
  | _, rest, [] => rest = []
  | off, rest, r :: rs =>
      ∃ p bytes more, packets r.effects = [p] ∧ p.slice = some bytes ∧ rest = bytes ++ more ∧
        p.job.mloffset.toNat = off ∧ (p.job.mlremain = 0 ↔ rs = []) ∧
        HandsOver (off + bytes.length) more rs

/-- A response is under way: `off` bytes of its data have been handed over, `rest` is
still to come, and the next consecutive frame is the one with this number. -/
structure Receiving (s : Poller) (msgid : UInt32) (number off : ℕ) (rest : List UInt8) :
    Prop where
  waiting : s.waiting = true
  hasPollList : s.hasPollList = true
  low : s.moduleidLow ≤ msgid
  high : msgid ≤ s.moduleidHigh
  type_le : s.type.toNat ≤ 0xBF
  mlframe : s.mlframe.toNat = number
  mloffset : s.mloffset.toNat = off
  mlremain : s.mlremain.toNat = rest.length
  number_le : number ≤ off + 1
  length_le : off + rest.length ≤ 4095

section Receiving

variable {s : Poller} {f : CanFrame} {msgid : UInt32} {number off : ℕ} {rest : List UInt8}

theorem Receiving.listens (h : Receiving s msgid number off rest) (hf : f.origin = s.bus) :
    Listens s f msgid :=
  ⟨h.waiting, h.hasPollList, hf, h.low, h.high⟩

/-- The state after a slice of `n` bytes that leaves `rem` bytes to come. -/
def carryOn (s : Poller) (msgid : UInt32) (ft : FrameType) (n rem : ℕ) : Poller :=
  { s with
    mlremain := .ofNat rem
    moduleidRec := msgid
    mlframe := if ft = .first then 1 else s.mlframe + 1
    mloffset := s.mloffset + .ofNat n
    waiting := true }

/-- A frame handed over that leaves something to come. -/
theorem handOver_fst {ft : FrameType} {d n rem : ℕ} (hrem : rem ≠ 0) (hlt : rem < 65536) :
    (handOver s f msgid ft d n rem).1 = carryOn s msgid ft n rem := by
  have hne : (handed s f msgid d n rem).job.mlremain ≠ 0 := by
    intro h
    have hzero : (UInt16.ofNat rem).toNat = 0 := congrArg UInt16.toNat h
    rw [UInt16.toNat_ofNat'] at hzero
    omega
  rw [handOver, moreData]
  simp only [if_pos hne]
  rfl

/-- **Step lemma.** A consecutive frame with the next bytes and an index up to the expected
one is handed over, and what is left stays under way. -/
theorem Receiving.step {idx : ℕ} (h : Receiving s msgid number off rest) (hne : rest ≠ [])
    (hbus : f.origin = s.bus) (hidx : idx < 16) (hok : idx ≤ number % 16)
    (hf : Carries s.protocol.frMaxlen (.consecutive idx (rest.take (s.protocol.frMaxlen - 1)))
      (tpBytes s.protocol f)) :
    ∃ p, packets (pollerIsotpReceive s f msgid).2.effects = [p] ∧
      p.slice = some (rest.take (s.protocol.frMaxlen - 1)) ∧ p.job.mloffset.toNat = off ∧
      (p.job.mlremain = 0 ↔ rest.drop (s.protocol.frMaxlen - 1) = []) ∧
      (rest.drop (s.protocol.frMaxlen - 1) ≠ [] →
        (pollerIsotpReceive s f msgid).1.bus = s.bus ∧
        (pollerIsotpReceive s f msgid).1.protocol = s.protocol ∧
        Receiving (pollerIsotpReceive s f msgid).1 msgid (number + 1)
          (off + (rest.take (s.protocol.frMaxlen - 1)).length)
          (rest.drop (s.protocol.frMaxlen - 1))) := by
  have hcap := s.protocol.frMaxlen_cases
  have hoff := s.protocol.frOffset_add_frMaxlen
  have hpos : 0 < rest.length := List.length_pos_of_ne_nil hne
  have hle := h.length_le
  have hnum := h.number_le
  have hreceive := receive_consecutive (h.listens hbus) h.type_le
    (by rw [h.mlremain]; omega) hidx (by rw [h.mlframe]; exact hok) hf
  rw [h.mlremain] at hreceive
  have htake : (rest.take (s.protocol.frMaxlen - 1)).length =
      min rest.length (s.protocol.frMaxlen - 1) := by
    rw [List.length_take, Nat.min_comm]
  have hdrop : (rest.drop (s.protocol.frMaxlen - 1)).length =
      rest.length - (s.protocol.frMaxlen - 1) := List.length_drop
  rw [← htake, ← hdrop] at hreceive
  have hnil : rest.drop (s.protocol.frMaxlen - 1) = [] ↔
      (rest.drop (s.protocol.frMaxlen - 1)).length = 0 := List.length_eq_zero_iff.symm
  generalize rest.take (s.protocol.frMaxlen - 1) = bytes at *
  generalize rest.drop (s.protocol.frMaxlen - 1) = more at *
  rw [hreceive]
  refine ⟨_, packets_handOver _ _ _ _ _ _ _, ?_, h.mloffset, ?_, ?_⟩
  · -- the slice is the content of the unit
    obtain ⟨-, tail, htail⟩ := hf
    rw [slice_handed (by omega), ← List.drop_drop]
    change some (((tpBytes s.protocol f).drop 1).take bytes.length) = _
    rw [← htail]
    exact congrArg some (List.take_left)
  · rw [hnil]
    change UInt16.ofNat more.length = 0 ↔ _
    rw [← UInt16.toNat_inj, UInt16.toNat_ofNat']
    change more.length % 2 ^ 16 = 0 ↔ _
    omega
  · intro hmore
    have hmorePos : more.length ≠ 0 := mt List.eq_nil_of_length_eq_zero hmore
    rw [handOver_fst hmorePos (by omega)]
    refine ⟨rfl, rfl, ?_⟩
    have hframe : (s.mlframe + 1).toNat = number + 1 := by
      rw [UInt16.toNat_add, h.mlframe]
      change (number + 1) % 65536 = _
      omega
    have hoffset : (s.mloffset + .ofNat bytes.length).toNat = off + bytes.length := by
      rw [UInt16.toNat_add, h.mloffset, UInt16.toNat_ofNat']
      omega
    have hremain : (UInt16.ofNat more.length).toNat = more.length := by
      rw [UInt16.toNat_ofNat']
      omega
    exact ⟨rfl, h.hasPollList, h.low, h.high, h.type_le, hframe, hoffset, hremain, by omega,
      by omega⟩

/-- A frame carries a unit in its transport data. -/
def OnWire (p : Protocol) (u : Pdu) (f : CanFrame) : Prop :=
  Carries p.frMaxlen u (tpBytes p f)

/-- The first of some replies hands over the next bytes: the others hand over the rest. -/
theorem handsOver_cons {r : Reply} {rs : List Reply} {p : Packet} {bytes : List UInt8}
    (more : List UInt8) (hp : packets r.effects = [p]) (hslice : p.slice = some bytes)
    (hoffset : p.job.mloffset.toNat = off) (hremain : p.job.mlremain = 0 ↔ rs = []) :
    HandsOver off (bytes ++ more) (r :: rs) ↔ HandsOver (off + bytes.length) more rs := by
  constructor
  · rintro ⟨p', bytes', more', hp', hslice', hsplit, -, -, hmore⟩
    obtain rfl : p = p' := (List.cons.inj (hp.symm.trans hp')).1
    obtain rfl : bytes = bytes' := Option.some.inj (hslice.symm.trans hslice')
    obtain rfl : more = more' := List.append_cancel_left hsplit
    exact hmore
  · intro hmore
    exact ⟨p, bytes, more, hp, hslice, rfl, hoffset, hremain, hmore⟩

theorem receiveAll_eq_nil {frames : List CanFrame} :
    (receiveAll msgid s frames).2 = [] ↔ frames = [] := by
  rw [← List.length_eq_zero_iff, ← List.length_eq_zero_iff, receiveAll, Lib.length_runOut]

/-- **Run lemma.** The consecutive frames of what is left, numbered by a device that lags
behind the count of the poller: they hand it over exactly when no number is beyond the
count, both modulo 16. -/
theorem handsOver_consecutives_iff (lag number : ℕ) (rest : List UInt8) :
    ∀ {s : Poller} {off : ℕ} {frames : List CanFrame},
      Receiving s msgid (number + lag) off rest → (∀ f ∈ frames, f.origin = s.bus) →
      List.Forall₂ (OnWire s.protocol) (consecutives s.protocol.frMaxlen number rest) frames →
      (HandsOver off rest (receiveAll msgid s frames).2 ↔
        ∀ k, k * (s.protocol.frMaxlen - 1) < rest.length →
          (number + k) % 16 ≤ (number + lag + k) % 16) := by
  intro s off frames h hbus hf
  have hcap : 2 ≤ s.protocol.frMaxlen := by
    have := s.protocol.frMaxlen_cases
    omega
  generalize hp : s.protocol = proto at hf hcap ⊢
  induction number, rest using consecutives_induction hcap generalizing s off frames with
  | hnil number =>
      rw [consecutives_nil, List.forall₂_nil_left_iff] at hf
      rw [hf]
      exact iff_of_true rfl fun k hk => absurd hk (Nat.not_lt_zero _)
  | hcons number rest hne ih =>
      subst hp
      have hpos : 0 < rest.length := List.length_pos_of_ne_nil hne
      rw [consecutives_of_ne_nil hcap number hne, List.forall₂_cons_left_iff] at hf
      obtain ⟨f, frames, hwire, hrest, rfl⟩ := hf
      obtain ⟨hf, hframes⟩ := List.forall_mem_cons.mp hbus
      by_cases hok : number % 16 ≤ (number + lag) % 16
      · obtain ⟨p, hp, hslice, hoffset, hremain, hnext⟩ :=
          h.step hne hf (Nat.mod_lt _ (by decide)) hok hwire
        have hlast : (receiveAll msgid (pollerIsotpReceive s f msgid).1 frames).2 = [] ↔
            rest.drop (s.protocol.frMaxlen - 1) = [] := by
          rw [receiveAll_eq_nil, ← consecutives_eq_nil hcap (number + 1)]
          constructor
          · rintro rfl
            exact List.forall₂_nil_right_iff.mp hrest
          · intro hnil
            rw [hnil] at hrest
            exact List.forall₂_nil_left_iff.mp hrest
        have htail : HandsOver (off + (rest.take (s.protocol.frMaxlen - 1)).length)
            (rest.drop (s.protocol.frMaxlen - 1))
            (receiveAll msgid (pollerIsotpReceive s f msgid).1 frames).2 ↔
            ∀ k, k * (s.protocol.frMaxlen - 1) <
                (rest.drop (s.protocol.frMaxlen - 1)).length →
              (number + 1 + k) % 16 ≤ (number + 1 + lag + k) % 16 := by
          by_cases hmore : rest.drop (s.protocol.frMaxlen - 1) = []
          · rw [hlast.mpr hmore, hmore]
            exact iff_of_true rfl fun k hk => absurd hk (Nat.not_lt_zero _)
          · obtain ⟨hsameBus, hsameProtocol, hreceiving⟩ := hnext hmore
            rw [Nat.add_right_comm] at hreceiving
            exact ih hreceiving (by rw [hsameBus]; exact hframes) hsameProtocol hrest
        have hcons := handsOver_cons (rest.drop (s.protocol.frMaxlen - 1)) hp hslice
          hoffset (hremain.trans hlast.symm)
        rw [List.take_append_drop] at hcons
        refine hcons.trans (htail.trans ?_)
        rw [List.length_drop]
        constructor
        · intro hall k hk
          match k with
          | 0 => exact hok
          | k + 1 =>
              rw [Nat.succ_mul] at hk
              have hstep := hall k (by omega)
              have hleft : number + 1 + k = number + (k + 1) := by omega
              have hright : number + 1 + lag + k = number + lag + (k + 1) := by omega
              rwa [hleft, hright] at hstep
        · intro hall k hk
          have hstep := hall (k + 1) (by rw [Nat.succ_mul]; omega)
          have hleft : number + 1 + k = number + (k + 1) := by omega
          have hright : number + 1 + lag + k = number + lag + (k + 1) := by omega
          rwa [hleft, hright]
      · have hbad := receive_consecutive_bad (h.listens hf) (Nat.mod_lt _ (by decide))
          (by rw [h.mlframe]; omega) hwire
        refine iff_of_false ?_ fun hall => hok (hall 0 (by rw [Nat.zero_mul]; exact hpos))
        rw [receiveAll_cons, hbad]
        rintro ⟨p, bytes, more, hp, -⟩
        cases hp

end Receiving

/-! ### Whole responses -/

/-- The poller waits for the response of a module, with nothing handed over. -/
structure Waiting (s : Poller) (msgid : UInt32) : Prop where
  waiting : s.waiting = true
  hasPollList : s.hasPollList = true
  low : s.moduleidLow ≤ msgid
  high : msgid ≤ s.moduleidHigh
  mloffset : s.mloffset = 0

section Waiting

variable {s : Poller} {f : CanFrame} {msgid : UInt32} {data : List UInt8}

theorem Waiting.listens (h : Waiting s msgid) (hf : f.origin = s.bus) : Listens s f msgid :=
  ⟨h.waiting, h.hasPollList, hf, h.low, h.high⟩

/-- The first frame of a response hands over what follows the header, and puts the rest
under way. -/
theorem Waiting.first (h : Waiting s msgid) (ha : Answerable s) (hbus : f.origin = s.bus)
    (hlong : s.protocol.frMaxlen ≤ (responseTo s data).length)
    (hmax : (responseTo s data).length ≤ 4095)
    (hf : OnWire s.protocol (.first (responseTo s data).length
      ((responseTo s data).take (s.protocol.frMaxlen - 2))) f) :
    ∃ p n, n = s.protocol.frMaxlen - 2 - (responseHeader s).length ∧
      packets (pollerIsotpReceive s f msgid).2.effects = [p] ∧
      p.slice = some (data.take n) ∧ p.job.mloffset = 0 ∧ p.job.mlremain ≠ 0 ∧
      data.drop n ≠ [] ∧ (responseTo s data).drop (s.protocol.frMaxlen - 2) = data.drop n ∧
      (pollerIsotpReceive s f msgid).1.bus = s.bus ∧
      (pollerIsotpReceive s f msgid).1.protocol = s.protocol ∧
      Receiving (pollerIsotpReceive s f msgid).1 msgid 1 (data.take n).length
        (data.drop n) := by
  have hcap := s.protocol.frMaxlen_cases
  have hoff := s.protocol.frOffset_add_frMaxlen
  have hhdr : (responseHeader s).length ≤ 3 := by
    have := pidLen_le s.type.toNat
    rw [length_responseHeader]
    omega
  have hlen : (responseTo s data).length = (responseHeader s).length + data.length :=
    List.length_append
  obtain ⟨tail, htail, hreceive⟩ := receive_first (h.listens hbus) ha hlong hmax hf
  obtain ⟨n, hn⟩ : ∃ n, n = s.protocol.frMaxlen - 2 - (responseHeader s).length := ⟨_, rfl⟩
  rw [← hn] at htail hreceive
  have htake : (data.take n).length = n := by
    rw [List.length_take]
    omega
  have hdrop : (data.drop n).length = data.length - n := List.length_drop
  have hrem : (responseTo s data).length - (s.protocol.frMaxlen - 2) = data.length - n := by
    omega
  rw [hrem] at hreceive
  have hne : data.length - n ≠ 0 := by omega
  rw [hreceive]
  refine ⟨_, n, hn, packets_handOver _ _ _ _ _ _ _, ?_, h.mloffset, ?_, ?_, ?_, ?_⟩
  · rw [slice_handed (by omega), htail]
    exact congrArg some (List.take_left' htake)
  · intro hzero
    have : (UInt16.ofNat (data.length - n)).toNat = 0 := congrArg UInt16.toNat hzero
    rw [UInt16.toNat_ofNat'] at this
    omega
  · exact List.ne_nil_of_length_pos (by omega)
  · have hsplit : s.protocol.frMaxlen - 2 = (responseHeader s).length + n := by omega
    rw [responseTo, hsplit, List.drop_append, List.drop_of_length_le (by omega), List.nil_append,
      Nat.add_sub_cancel_left]
  · rw [handOver_fst hne (by omega)]
    refine ⟨rfl, rfl, rfl, h.hasPollList, h.low, h.high, ha.type_le, rfl, ?_, ?_, by omega, ?_⟩
    · change (s.mloffset + .ofNat n).toNat = _
      rw [h.mloffset, htake, UInt16.toNat_add, UInt16.toNat_ofNat']
      change (0 + n % 65536) % 65536 = n
      omega
    · change (UInt16.ofNat (data.length - n)).toNat = _
      rw [UInt16.toNat_ofNat', hdrop]
      omega
    · omega

/-- **A response in several frames**, from a device that numbers the first consecutive
frame 1 or 0: it is handed over exactly when no number is beyond the count of the poller,
both modulo 16. -/
theorem Waiting.handsOver_first_iff (h : Waiting s msgid) (ha : Answerable s) {base : ℕ}
    (hbase : base ≤ 1) (hlong : s.protocol.frMaxlen ≤ (responseTo s data).length)
    (hmax : (responseTo s data).length ≤ 4095) {frames : List CanFrame}
    (hbus : ∀ g ∈ f :: frames, g.origin = s.bus)
    (hf : OnWire s.protocol (.first (responseTo s data).length
      ((responseTo s data).take (s.protocol.frMaxlen - 2))) f)
    (hrest : List.Forall₂ (OnWire s.protocol) (consecutives s.protocol.frMaxlen base
      ((responseTo s data).drop (s.protocol.frMaxlen - 2))) frames) :
    HandsOver 0 data (receiveAll msgid s (f :: frames)).2 ↔
      ∀ k, k * (s.protocol.frMaxlen - 1) <
          (responseTo s data).length - (s.protocol.frMaxlen - 2) →
        (base + k) % 16 ≤ (1 + k) % 16 := by
  have hcap := s.protocol.frMaxlen_cases
  obtain ⟨hfBus, hframes⟩ := List.forall_mem_cons.mp hbus
  obtain ⟨p, n, -, hp, hslice, hoffset, hremain, hne, hdrop, hsameBus, hsameProtocol,
    hreceiving⟩ := h.first ha hfBus hlong hmax hf
  have hlength : (responseTo s data).length - (s.protocol.frMaxlen - 2) =
      (data.drop n).length := by
    rw [← hdrop, List.length_drop]
  rw [hdrop] at hrest
  have hreplies : (receiveAll msgid (pollerIsotpReceive s f msgid).1 frames).2 ≠ [] := by
    intro hnil
    rw [receiveAll_eq_nil.mp hnil, List.forall₂_nil_right_iff,
      consecutives_eq_nil (by omega) base] at hrest
    exact hne hrest
  have hzero : p.job.mloffset.toNat = 0 := congrArg UInt16.toNat hoffset
  have hcons := handsOver_cons (data.drop n) hp hslice hzero (iff_of_false hremain hreplies)
  rw [List.take_append_drop, Nat.zero_add] at hcons
  obtain ⟨lag, hlag⟩ : ∃ lag, base + lag = 1 := ⟨1 - base, by omega⟩
  have hrun := handsOver_consecutives_iff lag base (data.drop n) (hlag.symm ▸ hreceiving)
    (by rw [hsameBus]; exact hframes) (by rw [hsameProtocol]; exact hrest)
  rw [hsameProtocol, hlag] at hrun
  rw [hlength]
  exact hcons.trans hrun

/-- **Every response** is handed over, segmented as it is: slice after slice in order,
each with its offset, and nothing remaining at the last one alone. -/
theorem Waiting.handsOver (h : Waiting s msgid) (ha : Answerable s)
    (hmax : (responseTo s data).length ≤ 4095) {frames : List CanFrame}
    (hbus : ∀ f ∈ frames, f.origin = s.bus)
    (hf : List.Forall₂ (OnWire s.protocol) (segment s.protocol.frMaxlen (responseTo s data))
      frames) :
    (receiveAll msgid s frames).2 ≠ [] ∧ HandsOver 0 data (receiveAll msgid s frames).2 := by
  have hcap := s.protocol.frMaxlen_cases
  have hoff := s.protocol.frOffset_add_frMaxlen
  rw [Lib.IsoTp.segment] at hf
  split at hf
  · rename_i hshort
    rw [List.forall₂_cons_left_iff] at hf
    obtain ⟨f, frames, hwire, hrest, rfl⟩ := hf
    rw [List.forall₂_nil_left_iff] at hrest
    subst hrest
    obtain ⟨tail, htail, hreceive⟩ := receive_single
      (h.listens (hbus f List.mem_cons_self)) ha hshort hwire
    have hlen : (responseTo s data).length = (responseHeader s).length + data.length :=
      List.length_append
    have hp : packets (pollerIsotpReceive s f msgid).2.effects = _ :=
      (congrArg (fun r => packets r.2.effects) hreceive).trans (packets_handOver ..)
    refine ⟨List.cons_ne_nil _ _, _, data, [], hp, ?_, (List.append_nil data).symm, ?_, ?_, rfl⟩
    · rw [slice_handed (by omega), htail]
      exact congrArg some List.take_left
    · exact congrArg UInt16.toNat h.mloffset
    · exact iff_of_true rfl rfl
  · rename_i hlong
    rw [List.forall₂_cons_left_iff] at hf
    obtain ⟨f, frames, hwire, hrest, rfl⟩ := hf
    have hle : s.protocol.frMaxlen ≤ (responseTo s data).length := by omega
    exact ⟨List.cons_ne_nil _ _, (h.handsOver_first_iff ha (Nat.le_refl 1) hle hmax hbus hwire
      hrest).mpr fun k _ => Nat.le_refl _⟩

end Waiting

/-! ### From the request to the response -/

/-- The poller of a request that has been sent: after the start, and any flow control frames
of the module asked. -/
def requested (s : Poller) (entry : PollPid) (msgid : UInt32) (flow : List CanFrame) : Poller :=
  (receiveAll msgid (pollerSendEntry s entry).1 flow).1

/-- Flow control frames of the addressing variant. -/
def FlowControls (p : Protocol) (flow : List CanFrame) : Prop :=
  ∀ f ∈ flow, frameType (f.u8 p.frOffset) = some .flowctrl

/-- They move the transmission counters alone. -/
theorem receiveAll_flowctrl (msgid : UInt32) {flow : List CanFrame} :
    ∀ {s : Poller}, FlowControls s.protocol flow →
      ∃ remain offset frame, (receiveAll msgid s flow).1 = s.withTx remain offset frame := by
  induction flow with
  | nil => exact fun _ => ⟨_, _, _, rfl⟩
  | cons f flow ih =>
      intro s hflow
      obtain ⟨hf, hrest⟩ := List.forall_mem_cons.mp hflow
      obtain ⟨remain, offset, frame, hstep⟩ := receive_flowctrl msgid hf
      have hprotocol : (pollerIsotpReceive s f msgid).1.protocol = s.protocol := by
        rw [hstep]
        rfl
      obtain ⟨remain, offset, frame, hrun⟩ :=
        ih (s := (pollerIsotpReceive s f msgid).1) (by rw [hprotocol]; exact hrest)
      refine ⟨remain, offset, frame, hrun.trans ?_⟩
      rw [hstep]
      rfl

/-- Who may answer a poll entry. -/
def PollPid.Answers (entry : PollPid) (msgid : UInt32) : Prop :=
  if entry.rxmoduleid ≠ 0 then msgid = entry.rxmoduleid else 0x7e8 ≤ msgid ∧ msgid ≤ 0x7ef

/-- The modules that may answer are in the expected range, and nothing else is set. -/
theorem expectModules_spec (s : Poller) {msgid : UInt32} (h : s.entry.Answers msgid) :
    ∃ sent low high, low ≤ msgid ∧ msgid ≤ high ∧
      expectModules s =
        { s with moduleidSent := sent, moduleidLow := low, moduleidHigh := high } := by
  rw [PollPid.Answers] at h
  rw [expectModules]
  split
  · rename_i hrx
    rw [if_pos hrx] at h
    exact ⟨_, _, _, UInt32.le_of_eq h.symm, UInt32.le_of_eq h, rfl⟩
  · rename_i hrx
    rw [if_neg hrx] at h
    exact ⟨_, _, _, h.1, h.2, rfl⟩

/-- The state of a request that has been sent, as far as a response depends on it. -/
theorem requested_spec {s : Poller} {entry : PollPid} {msgid : UInt32} {flow : List CanFrame}
    (hlist : s.hasPollList = true) (hmodule : entry.Answers msgid)
    (hflow : FlowControls entry.protocol flow) :
    Waiting (requested s entry msgid flow) msgid ∧
      (requested s entry msgid flow).bus = s.bus ∧
      (requested s entry msgid flow).protocol = entry.protocol ∧
      (requested s entry msgid flow).type = entry.type ∧
      (requested s entry msgid flow).pid = entry.args.pid := by
  obtain ⟨started, hstarted⟩ : ∃ t : Poller, t = (pollerSendEntry s entry).1 := ⟨_, rfl⟩
  obtain ⟨sent, low, high, hlow, hhigh, hexpect⟩ := expectModules_spec
    { s with
      entry := entry, protocol := entry.protocol, type := entry.type, pid := entry.args.pid }
    hmodule
  have hfields := hstarted
  rw [pollerSendEntry, pollerIsotpStart, hexpect] at hfields
  obtain ⟨remain, offset, frame, hrun⟩ :=
    receiveAll_flowctrl msgid (s := started) (by rw [hfields]; exact hflow)
  rw [requested, ← hstarted, hrun, hfields]
  exact ⟨⟨rfl, hlist, hlow, hhigh, rfl⟩, rfl, rfl, rfl, rfl⟩

/-- A positive response to a poll entry. -/
def PollPid.response (entry : PollPid) (data : List UInt8) : List UInt8 :=
  .ofNat (0x40 + entry.type.toNat) :: pidBytes entry.type.toNat entry.args.pid ++ data

theorem responseTo_requested {s : Poller} {entry : PollPid} {msgid : UInt32}
    {flow : List CanFrame} (htype : (requested s entry msgid flow).type = entry.type)
    (hpid : (requested s entry msgid flow).pid = entry.args.pid) (data : List UInt8) :
    responseTo (requested s entry msgid flow) data = entry.response data := by
  rw [responseTo, responseHeader, htype, hpid]
  rfl

/-- **Reassembly.** Whatever the state before the request, and whatever flow control frames
the module asked for its payload by, every positive response of up to 4095 bytes is handed
over: each frame is one slice, in order, with its offset, and nothing remains after the
last one alone. The type `0x3F` is left out, as its response would be an error response. -/
theorem response_reassembled {s : Poller} {entry : PollPid} {msgid : UInt32}
    {flow frames : List CanFrame} {data : List UInt8} (hlist : s.hasPollList = true)
    (hmodule : entry.Answers msgid) (hflow : FlowControls entry.protocol flow)
    (htype : entry.type.toNat ≤ 0xBF) (hne : entry.type.toNat ≠ 0x3F)
    (hpid : has8BitPid entry.type.toNat = true → entry.args.pid.toNat < 256)
    (hlen : (entry.response data).length ≤ 4095) (hbus : ∀ f ∈ frames, f.origin = s.bus)
    (hf : List.Forall₂ (OnWire entry.protocol)
      (segment entry.protocol.frMaxlen (entry.response data)) frames) :
    (receiveAll msgid (requested s entry msgid flow) frames).2 ≠ [] ∧
      HandsOver 0 data (receiveAll msgid (requested s entry msgid flow) frames).2 := by
  obtain ⟨hwaiting, hsameBus, hprotocol, htypeEq, hpidEq⟩ := requested_spec hlist hmodule hflow
  have hresponse := responseTo_requested htypeEq hpidEq data
  have ha : Answerable (requested s entry msgid flow) :=
    ⟨htypeEq ▸ htype, htypeEq ▸ hne, by rw [htypeEq, hpidEq]; exact hpid⟩
  exact hwaiting.handsOver ha (hresponse ▸ hlen) (by rw [hsameBus]; exact hbus)
    (by rw [hprotocol, hresponse]; exact hf)

/-- A poller with a poll list. -/
def listed : Poller := { Poller.new 1 with hasPollList := true }

/-- A poll entry of one module, in standard addressing. -/
def entryOf (type pid : UInt16) : PollPid :=
  { PollPid.zero with
    txmoduleid := 0x7e0, rxmoduleid := 0x7e8, type := type,
    args := ⟨pid, 0, .inline (List.replicate 6 0)⟩ }

/-- A frame of that module. -/
def moduleFrame (bytes : List UInt8) : CanFrame := .zeroFilled 1 .std 0x7e8 8 bytes

/-- Ten bytes of data, in a first frame and a consecutive frame. -/
theorem response_reassembled_two_frames :
    HandsOver 0 [1, 2, 3, 4, 5, 6, 7, 8, 9, 10]
      (receiveAll 0x7e8 (requested listed (entryOf 0x22 0x1234) 0x7e8 [])
        [moduleFrame [0x10, 13, 0x62, 0x12, 0x34, 1, 2, 3],
          moduleFrame [0x21, 4, 5, 6, 7, 8, 9, 10]]).2 := by
  have hanswers : (entryOf 0x22 0x1234).Answers 0x7e8 := by
    rw [PollPid.Answers, if_pos (by decide)]
    rfl
  have hsegment : segment 8 ((entryOf 0x22 0x1234).response [1, 2, 3, 4, 5, 6, 7, 8, 9, 10]) =
      [.first 13 [0x62, 0x12, 0x34, 1, 2, 3], .consecutive 1 [4, 5, 6, 7, 8, 9, 10]] := by
    have hrest : consecutives 8 1 [4, 5, 6, 7, 8, 9, 10] =
        .consecutive 1 [4, 5, 6, 7, 8, 9, 10] :: consecutives 8 2 [] :=
      consecutives_of_ne_nil (by decide) 1 (by decide)
    rw [consecutives_nil] at hrest
    rw [Lib.IsoTp.segment, if_neg (by decide)]
    exact congrArg _ hrest
  refine (response_reassembled rfl hanswers (List.forall_mem_nil _) (by decide) (by decide)
    (by decide) (by decide) (by decide) ?_).2
  change List.Forall₂ _ (segment 8 _) _
  rw [hsegment]
  exact .cons ⟨rfl, [], rfl⟩ (.cons ⟨rfl, [], rfl⟩ .nil)

/-- The response to type `0x3F` starts with `0x7F` and is taken for an error response: its
data byte is not handed over. Nor is that to a PID wider than its type, of which only the
lower byte comes back. -/
theorem response_to_3f_lost :
    (List.Forall₂ (OnWire .isotpStd) (segment 8 ((entryOf 0x3F 0).response [1]))
        [moduleFrame [3, 0x7F, 0, 1]] ∧
      ¬ HandsOver 0 [1] (receiveAll 0x7e8 (requested listed (entryOf 0x3F 0) 0x7e8 [])
        [moduleFrame [3, 0x7F, 0, 1]]).2) ∧
    (List.Forall₂ (OnWire .isotpStd) (segment 8 ((entryOf 0x01 0x112).response [1]))
        [moduleFrame [3, 0x41, 0x12, 1]] ∧
      ¬ HandsOver 0 [1] (receiveAll 0x7e8 (requested listed (entryOf 0x01 0x112) 0x7e8 [])
        [moduleFrame [3, 0x41, 0x12, 1]]).2) := by
  refine ⟨⟨.cons ⟨rfl, _, rfl⟩ .nil, ?_⟩, ⟨.cons ⟨rfl, _, rfl⟩ .nil, ?_⟩⟩
  · rintro ⟨p, bytes, more, hp, hslice, hsplit, -, -, hmore⟩
    obtain rfl : p = _ := (List.cons.inj hp).1.symm
    obtain rfl : bytes = [] := (Option.some.inj hslice).symm
    rw [hmore] at hsplit
    cases hsplit
  · rintro ⟨p, bytes, more, hp, -⟩
    cases hp

end Ovms.Poll
