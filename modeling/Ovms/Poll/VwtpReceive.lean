import Ovms.Poll.VwtpStep
import Ovms.Poll.Bounds

/-!
# Bounds of the VW-TP Receiver

A data frame is taken apart by its length code: the transport header, the response header
of a first frame, and the slice for the application. The length code and the declared
message length are both used as received, one without a check against the headers and the
other without a check against the length code. The poller is therefore run with a record
of the message (`Recorded`), and the bounds of its slices are compared with a condition on
the frames.
-/

open Ovms.Can

namespace Ovms.Poll

/-! ### The record of a message -/

/-- A poller with a record of the message it receives: the length that the first frame
declared, and how far into the message the slices handed over reach. -/
structure Recorded where
  v : VwtpPoller
  declared : ℕ
  covered : ℕ

/-- The record of a poller from here on: what remains counts as the message. -/
def Recorded.start (v : VwtpPoller) : Recorded := ⟨v, v.poll.mlremain.toNat, 0⟩

/-- The declared length of the message a data frame belongs to. -/
def Recorded.declaredBy (o : Recorded) (f : CanFrame) : ℕ :=
  if o.v.poll.mlframe = 0 then (declaredLength f).toNat else o.declared

/-- How far into the message a slice of a data frame reaches. A message starts behind the
three bytes of transport header of a first frame. -/
def Recorded.reach (o : Recorded) (p : Packet) : ℕ :=
  if o.v.poll.mlframe = 0 then p.data.getD 3 - 3 + p.length.toNat
  else o.covered + p.length.toNat

/-- A slice is inside the bytes that belong to a frame by its length code. -/
def Packet.InFrame (p : Packet) (dlc : ℕ) : Prop :=
  match p.data with
  | some off => off + p.length.toNat ≤ dlc
  | none => p.length = 0

instance (p : Packet) (dlc : ℕ) : Decidable (p.InFrame dlc) :=
  match p with
  | ⟨_, _, some _, _⟩ => inferInstanceAs (Decidable (_ ≤ _))
  | ⟨_, _, none, _⟩ => inferInstanceAs (Decidable (_ = _))

/-- A slice of a frame is inside the frame and inside the message, and what remains of the
message is no more than before. -/
structure Recorded.Inside (o : Recorded) (f : CanFrame) (p : Packet) : Prop where
  frame : p.InFrame f.dlc
  message : o.reach p ≤ o.declaredBy f
  remain : p.job.mlremain ≤ vwtpRemain o.v.poll f

/-- The poller and the record after a call. -/
def Recorded.next (o : Recorded) : VwtpEvent → Recorded
  | .receive f msgid =>
      let r := vwtpReceive o.v f msgid
      match packets r.2.effects with
      | p :: _ => ⟨r.1, o.declaredBy f, o.reach p⟩
      | [] => { o with v := r.1 }
  | e => { o with v := vwtpNext o.v e }

/-- The slices of a call are inside their frame and the message. -/
def Recorded.InBounds (o : Recorded) : VwtpEvent → Prop
  | .receive f msgid => ∀ p ∈ packets (vwtpReceive o.v f msgid).2.effects, o.Inside f p
  | _ => True

/-! ### Frames that fit -/

/-- A data frame has its transport header, and the response header if it is the first, and
no more data than remains of the message. A first frame with the type of an error response,
which only a request of that type takes for data, has an empty slice; the length code less
three is a byte. -/
def Fits (s : Poller) (f : CanFrame) : Prop :=
  if s.mlframe ≠ 0 then 1 ≤ f.dlc.val ∧ f.dlc.val - 1 ≤ s.mlremain.toNat
  else if f.u8 3 = udsRespTypeNrc then (f.dlc.val + 253) % 256 ≤ (declaredLength f).toNat
  else 3 + headerLen (f.u8 3) ≤ f.dlc.val ∧ f.dlc.val - 3 ≤ (declaredLength f).toNat

/-- The frame of an event fits, if it is accepted as data. -/
def VwtpEvent.Fits (v : VwtpPoller) : VwtpEvent → Prop
  | .receive f msgid => AcceptsData v f msgid → Poll.Fits v.poll f
  | _ => True

/-! ### One frame -/

section Frame

variable {s : Poller} {f : CanFrame}

theorem toNat_vwtpDatalen_first (h : s.mlframe = 0) (f : CanFrame) :
    (vwtpDatalen s f).toNat = (f.dlc.val + 253) % 256 := by
  have hdlc := f.dlc.isLt
  rw [vwtpDatalen, if_pos h, UInt8.toNat_sub, UInt8.toNat_ofNat']
  change (2 ^ 8 - 3 + _) % 2 ^ 8 = _
  omega

theorem toNat_vwtpDatalen_next (h : s.mlframe ≠ 0) (f : CanFrame) :
    (vwtpDatalen s f).toNat = (f.dlc.val + 255) % 256 := by
  have hdlc := f.dlc.isLt
  rw [vwtpDatalen, if_neg h, UInt8.toNat_sub, UInt8.toNat_ofNat']
  change (2 ^ 8 - 1 + _) % 2 ^ 8 = _
  omega

/-- What remains after a slice does not go below zero when there is as much as the data
section takes. -/
theorem remain_deliver_iff (s : Poller) (f : CanFrame) (msgid : UInt32) :
    (vwtpDeliver s f msgid).job.mlremain ≤ vwtpRemain s f ↔
      (vwtpDatalen s f).toNat ≤ (vwtpRemain s f).toNat := by
  refine (Lib.UInt16.sub_le_self_iff _ _).trans ?_
  rw [UInt16.le_iff_toNat_le, UInt8.toNat_toUInt16]

/-- What remains after a slice, when there is enough. -/
theorem toNat_remain_deliver (msgid : UInt32)
    (h : (vwtpDatalen s f).toNat ≤ (vwtpRemain s f).toNat) :
    (vwtpDeliver s f msgid).job.mlremain.toNat =
      (vwtpRemain s f).toNat - (vwtpDatalen s f).toNat := by
  have hle : (vwtpDatalen s f).toUInt16 ≤ vwtpRemain s f := by
    rw [UInt16.le_iff_toNat_le, UInt8.toNat_toUInt16]
    exact h
  change (vwtpRemain s f - (vwtpDatalen s f).toUInt16).toNat = _
  rw [UInt16.toNat_sub_of_le _ _ hle, UInt8.toNat_toUInt16]

theorem deliver_next (h : s.mlframe ≠ 0) (f : CanFrame) (msgid : UInt32) :
    (vwtpDeliver s f msgid).data = some 1 ∧
      (vwtpDeliver s f msgid).length = vwtpDatalen s f := by
  rw [vwtpDeliver]
  simp only [vwtpMeta, if_neg h, nextResponse, toUInt8_ofNat, UInt8.ofNat_toNat, and_self]

theorem deliver_error (h : s.mlframe = 0) (herror : f.u8 3 = udsRespTypeNrc) (msgid : UInt32) :
    (vwtpDeliver s f msgid).data = none ∧ (vwtpDeliver s f msgid).length = 0 := by
  rw [vwtpDeliver]
  simp only [vwtpMeta, if_pos h, firstResponse, if_pos herror]
  exact ⟨trivial, rfl⟩

/-- The slice of a first frame starts behind the response header, and is what the data
section has left. -/
theorem deliver_first (h : s.mlframe = 0) (hne : f.u8 3 ≠ udsRespTypeNrc) (msgid : UInt32) :
    (vwtpDeliver s f msgid).data = some (3 + headerLen (f.u8 3)) ∧
      (headerLen (f.u8 3) ≤ (vwtpDatalen s f).toNat →
        (vwtpDeliver s f msgid).length.toNat =
          (vwtpDatalen s f).toNat - headerLen (f.u8 3)) := by
  obtain ⟨-, hdata, hlen⟩ := firstResponse_of_ne (vwtpDatalen s f).toNat s.pid hne
  rw [vwtpDeliver]
  simp only [vwtpMeta, if_pos h]
  refine ⟨hdata, fun hhdr => ?_⟩
  have hlt := (vwtpDatalen s f).toNat_lt
  rw [headerLen] at hhdr ⊢
  rw [hlen, Lib.UInt16.ofInt_sub_of_le hhdr, toUInt8_ofNat, UInt8.toNat_ofNat']
  omega

end Frame

/-- What the slices cover and what remains is no more than the declared length, unless the
next frame is the first of a message. -/
def Recorded.Covered (o : Recorded) : Prop :=
  o.v.poll.mlframe = 0 ∨ o.covered + o.v.poll.mlremain.toNat ≤ o.declared

/-- **One frame.** Its slice is inside the frame and the message, and what remains does not
go below zero, exactly when the frame fits. -/
theorem Recorded.inside_iff {o : Recorded} (h : o.Covered) (f : CanFrame) (msgid : UInt32) :
    o.Inside f (vwtpDeliver o.v.poll f msgid) ↔ Fits o.v.poll f := by
  have hdlc := f.dlc.isLt
  obtain ⟨p, hp⟩ : ∃ p, p = vwtpDeliver o.v.poll f msgid := ⟨_, rfl⟩
  have hremain := remain_deliver_iff o.v.poll f msgid
  rw [← hp] at hremain ⊢
  have hiff : o.Inside f p ↔ p.InFrame f.dlc ∧ o.reach p ≤ o.declaredBy f ∧
      (vwtpDatalen o.v.poll f).toNat ≤ (vwtpRemain o.v.poll f).toNat :=
    ⟨fun hi => ⟨hi.frame, hi.message, hremain.mp hi.remain⟩,
      fun ⟨hframe, hmessage, hle⟩ => ⟨hframe, hmessage, hremain.mpr hle⟩⟩
  rw [hiff, Fits, reach, declaredBy, Packet.InFrame]
  by_cases hzero : o.v.poll.mlframe = 0
  · have hlen := toNat_vwtpDatalen_first hzero f
    have hdeclared : vwtpRemain o.v.poll f = declaredLength f := if_pos hzero
    rw [if_pos hzero, if_pos hzero, if_neg (not_not.mpr hzero), hdeclared, hlen]
    by_cases herror : f.u8 3 = udsRespTypeNrc
    · obtain ⟨hdata, hlength⟩ := deliver_error hzero herror msgid
      rw [← hp] at hdata hlength
      rw [if_pos herror, hdata, hlength]
      exact ⟨fun hi => hi.2.2, fun hle => ⟨rfl, Nat.zero_le _, hle⟩⟩
    · obtain ⟨hdata, hlength⟩ := deliver_first hzero herror msgid
      rw [← hp] at hdata hlength
      rw [if_neg herror, hdata]
      simp only [Option.getD_some]
      constructor
      · rintro ⟨hframe, -, hle⟩
        omega
      · rintro ⟨hheader, hle⟩
        have := hlength (by omega)
        omega
  · have hlen := toNat_vwtpDatalen_next hzero f
    have hcovered := h.resolve_left hzero
    obtain ⟨hdata, hlength⟩ := deliver_next hzero f msgid
    rw [← hp] at hdata hlength
    rw [if_neg hzero, if_neg hzero, if_pos hzero, vwtpRemain_of_ne hzero, hdata, hlength, hlen]
    simp only
    omega

/-! ### Runs -/

theorem Recorded.next_accepted {o : Recorded} {f : CanFrame} {msgid : UInt32}
    (h : AcceptsData o.v f msgid) :
    o.next (.receive f msgid) = ⟨(vwtpReceive o.v f msgid).1, o.declaredBy f,
      o.reach (vwtpDeliver o.v.poll f msgid)⟩ := by
  rw [next, (receive_acceptsData h).1]

theorem Recorded.next_refused {o : Recorded} {f : CanFrame} {msgid : UInt32}
    (h : ¬ AcceptsData o.v f msgid) :
    o.next (.receive f msgid) = { o with v := (vwtpReceive o.v f msgid).1 } := by
  rw [next, (receive_quiet h).silent]

theorem Recorded.Covered.quiet {o : Recorded} {r : VwtpPoller × List Effect} (h : o.Covered)
    (hquiet : Quiet o.v r) : Recorded.Covered { o with v := r.1 } := by
  rcases hquiet.remain with hzero | ⟨hframe, hremain⟩
  · exact .inl hzero
  · rcases h with hzero | hle
    · exact .inl (hframe.trans hzero)
    · exact .inr (Nat.le_trans (Nat.add_le_add_left hremain _) hle)

/-- A frame that fits keeps the record covered. -/
theorem Recorded.Covered.accepted {o : Recorded} {f : CanFrame} {msgid : UInt32}
    (h : o.Covered) (haccepts : AcceptsData o.v f msgid) (hfits : Fits o.v.poll f) :
    (o.next (.receive f msgid)).Covered := by
  obtain ⟨p, hp⟩ : ∃ p, p = vwtpDeliver o.v.poll f msgid := ⟨_, rfl⟩
  obtain ⟨-, hremain, -, -⟩ := receive_acceptsData haccepts
  have hinside := (inside_iff h f msgid).mpr hfits
  have hle := (remain_deliver_iff o.v.poll f msgid).mp hinside.remain
  have hnat := toNat_remain_deliver msgid hle
  have hmessage := hinside.message
  rw [next_accepted haccepts]
  refine .inr ?_
  change o.reach _ + (vwtpReceive o.v f msgid).1.poll.mlremain.toNat ≤ o.declaredBy f
  rw [hremain, hnat]
  rw [← hp] at hmessage ⊢
  -- the slice and its header are the data section
  rw [reach, declaredBy] at hmessage ⊢
  by_cases hzero : o.v.poll.mlframe = 0
  · have hdeclared : vwtpRemain o.v.poll f = declaredLength f := if_pos hzero
    rw [if_pos hzero, if_pos hzero] at hmessage ⊢
    rw [hdeclared] at hle ⊢
    by_cases herror : f.u8 3 = udsRespTypeNrc
    · obtain ⟨hdata, hlength⟩ := deliver_error hzero herror msgid
      rw [← hp] at hdata hlength
      rw [hdata, hlength]
      change 3 - 3 + 0 + _ ≤ _
      omega
    · obtain ⟨hdata, hlength⟩ := deliver_first hzero herror msgid
      rw [← hp] at hdata hlength
      rw [Fits, if_neg (not_not.mpr hzero), if_neg herror] at hfits
      have hlen := toNat_vwtpDatalen_first hzero f
      have hdlc := f.dlc.isLt
      have hslice := hlength (by omega)
      rw [hdata, Option.getD_some, hslice]
      omega
  · obtain ⟨-, hlength⟩ := deliver_next hzero f msgid
    rw [← hp] at hlength
    have hcovered := h.resolve_left hzero
    rw [vwtpRemain_of_ne hzero] at hle ⊢
    rw [if_neg hzero, if_neg hzero, hlength] at hmessage ⊢
    omega

/-- **Bounds along a run.** From any state, whatever is requested and received: every slice
is inside its frame and the declared message, and what remains never goes below zero,
exactly when every frame accepted as data fits. -/
theorem vwtp_inBounds_iff (v : VwtpPoller) (es : List VwtpEvent) :
    Lib.Along Recorded.next Recorded.InBounds (.start v) es ↔
      Lib.Along vwtpNext VwtpEvent.Fits v es := by
  have hpart (o : Recorded) (e : VwtpEvent) : (o.next e).v = vwtpNext o.v e := by
    cases e with
    | receive f msgid =>
        rw [Recorded.next]
        split <;> rfl
    | send entry => rfl
    | sent success => rfl
    | tick recent inactive => rfl
    | expire => rfl
  have hcovered : (Recorded.start v).Covered := .inr (Nat.le_of_eq (Nat.zero_add _))
  refine (Lib.along_congr_of_invariant (I := Recorded.Covered) ?_ ?_ hcovered).trans
    (Lib.along_map Recorded.v hpart)
  · intro o e h
    cases e with
    | receive f msgid =>
        rw [Recorded.InBounds, VwtpEvent.Fits]
        by_cases haccepts : AcceptsData o.v f msgid
        · rw [(receive_acceptsData haccepts).1, List.forall_mem_singleton,
            Recorded.inside_iff h]
          exact ⟨fun hfits _ => hfits, fun hfits => hfits haccepts⟩
        · rw [(receive_quiet haccepts).silent]
          exact iff_of_true (List.forall_mem_nil _) fun hyes => absurd hyes haccepts
    | send entry => exact Iff.rfl
    | sent success => exact Iff.rfl
    | tick recent inactive => exact Iff.rfl
    | expire => exact Iff.rfl
  · intro o e h hfits
    cases e with
    | receive f msgid =>
        by_cases haccepts : AcceptsData o.v f msgid
        · exact h.accepted haccepts (hfits haccepts)
        · rw [Recorded.next_refused haccepts]
          exact h.quiet (receive_quiet haccepts)
    | send entry => exact h.quiet (r := (vwtpNext o.v (.send entry), [])) (next_quiet o.v nofun)
    | sent success => exact h.quiet (r := (vwtpNext o.v (.sent success), [])) (next_quiet o.v nofun)
    | tick recent inactive =>
        exact h.quiet (r := (vwtpNext o.v (.tick recent inactive), [])) (next_quiet o.v nofun)
    | expire => exact h.quiet (r := (vwtpNext o.v (.expire), [])) (next_quiet o.v nofun)

/-! ### Frames that do not fit -/

/-- A frame of the module of a channel. -/
def channelReply (msgId : UInt32) (dlc : ℕ) (bytes : List UInt8) : CanFrame :=
  .zeroFilled 1 .std msgId dlc bytes

/-- A poll entry of a module behind VW-TP. -/
def vwtpEntry : PollPid :=
  { PollPid.zero with
    txmoduleid := 0x200, rxmoduleid := 0x1f, type := 0x22, protocol := .vwtp20,
    args := ⟨0x1234, 0, .inline (List.replicate 6 0)⟩ }

/-- A channel is set up, gets its parameters, and the request is acknowledged. -/
def channelOpened : List VwtpEvent :=
  [.send vwtpEntry,
    .receive (channelReply 0x21f 7 [0x00, 0xD0, 0x00, 0x03, 0x40, 0x07, 0x01]) 0x21f,
    .receive (channelReply 0x300 6 [0xA1, 0x0F, 0x8A, 0xFF, 0x4A, 0xFF]) 0x300,
    .receive (channelReply 0x300 1 [0xB1]) 0x300]

/-- A first frame of eight bytes that declares a message of four leaves 65535 bytes to
come; and one of five bytes, which has no room for the response header, is handed over as a
slice of 255 bytes. -/
theorem message_beyond_declared :
    ¬ Lib.Along Recorded.next Recorded.InBounds (.start ⟨Poller.new 1, .zero⟩)
        (channelOpened ++
          [.receive (channelReply 0x300 8 [0x10, 0, 4, 0x62, 0x12, 0x34, 1, 2]) 0x300]) ∧
    ¬ Lib.Along Recorded.next Recorded.InBounds (.start ⟨Poller.new 1, .zero⟩)
        (channelOpened ++
          [.receive (channelReply 0x300 5 [0x10, 0, 9, 0x62, 0x12, 0x34, 1, 2]) 0x300]) := by
  constructor
  · rintro ⟨-, -, -, -, hslices, -⟩
    exact absurd (hslices _ (List.mem_singleton.mpr rfl)).remain (by decide)
  · rintro ⟨-, -, -, -, hslices, -⟩
    exact absurd (hslices _ (List.mem_singleton.mpr rfl)).frame (by decide)

end Ovms.Poll
