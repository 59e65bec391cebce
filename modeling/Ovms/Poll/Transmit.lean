import Ovms.Poll.Receive

/-!
# Transmission of Requests

A request goes out as a single frame, or as a first frame and then consecutive frames in
blocks, each block granted by a flow control frame of the peer. What is still to be sent is
computed from the transmission counters (`Sending`); one lemma sends the next unit, the
induction over the loop of the flow control branch sends a block, and the induction over
the schedule sends what it grants.

The length field of a first frame has twelve bits and counts the header of the request as
well. A payload of up to 4095 bytes may therefore be too long for it, and the field then
holds the length less 4096.

## Main results

* `Sending.step`, `sendConsecutive_units`, `receiveAll_units`: a frame, a block, a schedule.
* `transmit_faithful_iff`: the frames carry the units of the request as far as the schedule
  grants them, and decode to the request exactly when it has at most 4095 bytes.
-/

open Ovms.Can Lib.IsoTp

namespace Ovms.Poll

/-- The frames written in some replies. -/
def writesOf (replies : List Reply) : List CanFrame := replies.flatMap fun r => writes r.effects

/-! ### Transmitted frames -/

/-- The transport data of a transmitted frame: the given bytes, then the filler. -/
theorem prefix_tpBytes_txFrame (s : Poller) (origin : ℕ) (txid : UInt32) (filler : UInt8)
    {tp : List UInt8} (h : tp.length ≤ s.protocol.frMaxlen) :
    tp <+: tpBytes s.protocol (txFrame s origin txid filler tp) := by
  have hoff := s.protocol.frOffset_add_frMaxlen
  have haddress : (s.protocol.address txid).length = s.protocol.frOffset := by
    cases s.protocol <;> rfl
  change tp <+: (fill filler (s.protocol.address txid ++ tp)).drop s.protocol.frOffset
  rw [fill_eq (by rw [List.length_append]; omega), List.append_assoc, List.drop_left' haddress]
  exact List.prefix_append _ _

theorem onWire_txFrame (s : Poller) (origin : ℕ) (txid : UInt32) (filler : UInt8) {u : Pdu}
    (h : u.bytes.length ≤ s.protocol.frMaxlen) :
    OnWire s.protocol u (txFrame s origin txid filler u.bytes) :=
  ⟨length_tpBytes _ _, prefix_tpBytes_txFrame s origin txid filler h⟩

/-! ### Consecutive frames -/

/-- The counters of a transmission over the next frame. With `rest` to send, it sends as
much of `rest` as it has room for, and the counters then stand behind that. -/
theorem counters_sent {data rest : List UInt8} {remain offset : UInt16} (room : ℕ)
    (hremain : remain.toNat = rest.length)
    (hdata : (data.drop offset.toNat).take rest.length = rest)
    (hlength : offset.toNat + rest.length < 65536) :
    (data.drop offset.toNat).take (min remain.toNat room) = rest.take room ∧
      (UInt16.ofNat (remain.toNat - min remain.toNat room)).toNat = (rest.drop room).length ∧
      (offset + .ofNat (min remain.toNat room)).toNat = offset.toNat + min rest.length room ∧
      (data.drop (offset + .ofNat (min remain.toNat room)).toNat).take (rest.drop room).length =
        rest.drop room := by
  have hoffset : (offset + .ofNat (min remain.toNat room)).toNat =
      offset.toNat + min rest.length room := by
    rw [UInt16.toNat_add, UInt16.toNat_ofNat', hremain]
    omega
  have hdrop : (rest.drop room).length = rest.length - room := List.length_drop
  refine ⟨?_, ?_, hoffset, ?_⟩
  · rw [hremain, Nat.min_comm, ← List.take_take, hdata]
  · rw [UInt16.toNat_ofNat', hremain, hdrop]
    omega
  · rw [hoffset, hdrop, ← List.drop_drop]
    by_cases hlast : rest.length ≤ room
    · rw [List.drop_of_length_le hlast, Nat.sub_eq_zero_of_le hlast, List.take_zero]
    · rw [Nat.min_eq_right (by omega), ← List.drop_take, hdata]

/-- The consecutive frame with this number is the next one to be sent, and `rest` is what
it and those after it carry. -/
structure Sending (s : Poller) (number : ℕ) (rest : List UInt8) : Prop where
  remain : s.txRemain.toNat = rest.length
  data : (s.txData.drop s.txOffset.toNat).take rest.length = rest
  frame : s.txFrame.toNat + 1 = number
  number_le : number ≤ s.txOffset.toNat + 1
  length_le : s.txOffset.toNat + rest.length ≤ 4095

/-- **Step lemma.** The next frame carries the next unit. -/
theorem Sending.step {s : Poller} {number : ℕ} {rest : List UInt8} (h : Sending s number rest)
    (hne : rest ≠ []) (f : CanFrame) :
    OnWire s.protocol (.consecutive (number % 16) (rest.take (s.protocol.frMaxlen - 1)))
        (consecutiveFrame s f) ∧
      Sending (consecutiveSent s) (number + 1) (rest.drop (s.protocol.frMaxlen - 1)) := by
  have hcap := s.protocol.frMaxlen_cases
  have hpos : 0 < rest.length := List.length_pos_of_ne_nil hne
  have hlength := h.length_le
  have hnumber := h.number_le
  obtain ⟨hsent, hremain, hoffset, hdata⟩ := counters_sent (s.protocol.frMaxlen - 1) h.remain
    h.data (by omega)
  constructor
  · have hframe : (s.txFrame + 1).toNat = number := by
      rw [UInt16.toNat_add, ← h.frame]
      have := h.frame
      change (s.txFrame.toNat + 1) % 65536 = _
      omega
    have hpci : 2 <<< 4 + ((s.txFrame + 1) &&& 0x0f).toNat = 0x20 + number % 16 := by
      rw [Lib.UInt16.toNat_and_mask (k := 4) _ (by decide), hframe]
      rfl
    rw [consecutiveFrame]
    simp only [hsent, hpci]
    refine onWire_txFrame s f.origin (replyTxid s f) 0x55
      (u := .consecutive (number % 16) (rest.take (s.protocol.frMaxlen - 1))) ?_
    rw [Pdu.bytes, List.length_cons, List.length_take]
    omega
  · have hdrop : (rest.drop (s.protocol.frMaxlen - 1)).length =
        rest.length - (s.protocol.frMaxlen - 1) := List.length_drop
    refine ⟨hremain, hdata, ?_, ?_, ?_⟩
    · change (s.txFrame + 1).toNat + 1 = _
      rw [UInt16.toNat_add]
      have := h.frame
      change (s.txFrame.toNat + 1) % 65536 + 1 = _
      omega
    · change number + 1 ≤ (s.txOffset + .ofNat _).toNat + 1
      rw [hoffset]
      omega
    · change (s.txOffset + .ofNat _).toNat + _ ≤ _
      rw [hoffset, hdrop]
      omega

/-- The units a transmission has still to send. -/
def Sends (s : Poller) (units : List Pdu) : Prop :=
  ∃ number rest, Sending s number rest ∧ units = consecutives s.protocol.frMaxlen number rest

theorem Sends.eq_nil {s : Poller} {units : List Pdu} (h : Sends s units) :
    units = [] ↔ s.txRemain = 0 := by
  obtain ⟨number, rest, hsending, rfl⟩ := h
  have hcap := s.protocol.frMaxlen_cases
  rw [consecutives_eq_nil (by omega), ← UInt16.toNat_inj, hsending.remain]
  exact List.length_eq_zero_iff.symm

/-- As long as something is left, the next frame carries the next unit. -/
theorem Sends.step {s : Poller} {units : List Pdu} (h : Sends s units) (hrem : s.txRemain ≠ 0)
    (f : CanFrame) :
    ∃ u rest, units = u :: rest ∧ OnWire s.protocol u (consecutiveFrame s f) ∧
      Sends (consecutiveSent s) rest := by
  obtain ⟨number, rest, hsending, rfl⟩ := h
  have hcap := s.protocol.frMaxlen_cases
  have hne : rest ≠ [] := by
    rintro rfl
    exact hrem (UInt16.toNat_inj.mp hsending.remain)
  obtain ⟨hwire, hnext⟩ := hsending.step hne f
  exact ⟨_, _, consecutives_of_ne_nil (by omega) number hne, hwire, _, _, hnext, rfl⟩

/-- A block of `k` units: the frame count of a flow control frame, or, for a count of zero,
all there are. -/
def Grants (framecnt : UInt8) (units : List Pdu) (k : ℕ) : Prop :=
  if framecnt = 0 then units.length ≤ k else framecnt.toNat = k

/-- **A block.** The loop of the flow control branch sends the units granted. -/
theorem sendConsecutive_units (s : Poller) (f : CanFrame) (framecnt : UInt8) :
    ∀ {units : List Pdu} {k : ℕ}, Sends s units → Grants framecnt units k →
      List.Forall₂ (OnWire s.protocol) (units.take k)
          (writes (sendConsecutive s f framecnt).2) ∧
        Sends (sendConsecutive s f framecnt).1 (units.drop k) ∧
        (sendConsecutive s f framecnt).1.protocol = s.protocol := by
  fun_induction sendConsecutive s f framecnt with
  | case1 s framecnt hrem =>
      intro units k h _
      obtain rfl := h.eq_nil.mpr hrem
      rw [List.take_nil, List.drop_nil]
      exact ⟨.nil, h, rfl⟩
  | case2 s framecnt hrem t =>
      rename_i hlast
      intro units k h hgrants
      obtain ⟨u, rest, rfl, hwire, hnext⟩ := h.step hrem f
      obtain rfl := hnext.eq_nil.mpr hlast
      have hk : k ≠ 0 := by
        rw [Grants] at hgrants
        split at hgrants
        · exact Nat.ne_of_gt hgrants
        · rename_i hne
          exact fun hzero => hne (UInt8.toNat_inj.mp (hgrants.trans hzero))
      obtain ⟨k, rfl⟩ := Nat.exists_eq_succ_of_ne_zero hk
      rw [List.take_succ_cons, List.drop_succ_cons, List.take_nil, List.drop_nil]
      exact ⟨.cons hwire .nil, hnext, rfl⟩
  | case3 s framecnt hrem t hmore =>
      rename_i hblock
      intro units k h hgrants
      obtain ⟨u, rest, rfl, hwire, hnext⟩ := h.step hrem f
      have hone : framecnt = 1 := by grind
      subst hone
      obtain rfl : 1 = k := hgrants
      exact ⟨.cons hwire .nil, hnext, rfl⟩
  | case4 s framecnt hrem t hmore hblock =>
      rename_i ih
      intro units k h hgrants
      obtain ⟨u, rest, rfl, hwire, hnext⟩ := h.step hrem f
      have hne : rest ≠ [] := mt hnext.eq_nil.mp hmore
      have hpos : 0 < rest.length := List.length_pos_of_ne_nil hne
      obtain ⟨k', rfl, hgrants'⟩ : ∃ k', k = k' + 1 ∧
          Grants (if framecnt > 0 then framecnt - 1 else framecnt) rest k' := by
        rw [Grants] at hgrants
        split at hgrants
        · rename_i hzero
          subst hzero
          rw [List.length_cons] at hgrants
          exact ⟨k - 1, by omega, by rw [Grants]; change rest.length ≤ k - 1; omega⟩
        · rename_i hnonzero
          have hnat : framecnt.toNat ≠ 0 := fun hzero => hnonzero (UInt8.toNat_inj.mp hzero)
          have hgt : framecnt > 0 := UInt8.lt_iff_toNat_lt.mpr (Nat.pos_of_ne_zero hnat)
          have hmore' : framecnt - 1 ≠ 0 := fun hzero => hblock ⟨hgt, hzero⟩
          have hsub : (framecnt - 1).toNat = framecnt.toNat - 1 :=
            UInt8.toNat_sub_of_le _ _ (UInt8.le_iff_toNat_le.mpr (Nat.pos_of_ne_zero hnat))
          refine ⟨k - 1, by omega, ?_⟩
          rw [if_pos hgt, Grants, if_neg hmore', hsub, hgrants]
      obtain ⟨hblockWire, hblockNext, hprotocol⟩ := ih hnext hgrants'
      exact ⟨.cons hwire hblockWire, hblockNext, hprotocol⟩

/-! ### Schedules -/

/-- The frame count of a flow control frame. -/
def frameCount (p : Protocol) (f : CanFrame) : UInt8 := f.u8 (p.frOffset + 1)

/-- A flow control frame of the peer that continues the transmission or makes it wait. -/
structure FlowFrame (s : Poller) (msgid : UInt32) (f : CanFrame) : Prop where
  listens : Listens s f msgid
  type : frameType (f.u8 s.protocol.frOffset) = some .flowctrl
  command : f.u8 s.protocol.frOffset &&& 0x0f = 0 ∨ f.u8 s.protocol.frOffset &&& 0x0f = 1

/-- The consecutive frames that a schedule grants, of `total` there are: a count of zero
grants them all. -/
def granted (p : Protocol) (total : ℕ) : List CanFrame → ℕ
  | [] => 0
  | f :: flow =>
      (if f.u8 p.frOffset &&& 0x0f = 0 then
        if frameCount p f = 0 then total else (frameCount p f).toNat
      else 0) + granted p total flow

/-- What a flow control frame does: nothing when all is sent, nothing when it makes the
transmission wait, and else it sends a block. -/
theorem receive_flowFrame {s : Poller} {msgid : UInt32} {f : CanFrame} (h : FlowFrame s msgid f) :
    pollerIsotpReceive s f msgid =
      if s.txRemain = 0 then (s, .ignored)
      else if f.u8 s.protocol.frOffset &&& 0x0f = 0 then
        ((sendConsecutive s f (frameCount s.protocol f)).1,
          ⟨true, (sendConsecutive s f (frameCount s.protocol f)).2⟩)
      else (s, ⟨true, []⟩) := by
  have hwaiting : s.waiting = true := h.listens.1
  obtain ⟨remain, offset, frame, hr⟩ := sendConsecutive_fst s f (frameCount s.protocol f)
  rw [pollerIsotpReceive, if_neg (not_not.mpr h.listens), h.type]
  simp only [receiveFlowCtrl]
  by_cases hrem : s.txRemain = 0
  · rw [if_pos (Or.inr hrem), if_pos hrem]
  · rw [if_neg hrem]
    rcases h.command with hcommand | hcommand
    · rw [hcommand, if_neg (by rintro (hgt | hzero); exacts [absurd hgt (by decide), hrem hzero]),
        if_neg (by decide), if_neg (by decide), if_pos rfl]
      rw [frameCount] at hr ⊢
      generalize sendConsecutive s f (f.u8 (s.protocol.frOffset + 1)) = r at hr ⊢
      have hr' : r.1.waiting = true := by
        rw [hr]
        exact hwaiting
      rw [setWaiting_eq hr', ite_self]
    · rw [hcommand, if_neg (by rintro (hgt | hzero); exacts [absurd hgt (by decide), hrem hzero]),
        if_pos rfl, if_neg (by decide), setWaiting_eq hwaiting]

/-- **A schedule.** The flow control frames of a peer have the units sent that they
grant. -/
theorem receiveAll_units (msgid : UInt32) (total : ℕ) (flow : List CanFrame) :
    ∀ {s : Poller} {units : List Pdu}, Sends s units → units.length ≤ total →
      (∀ f ∈ flow, FlowFrame s msgid f) →
      List.Forall₂ (OnWire s.protocol) (units.take (granted s.protocol total flow))
        (writesOf (receiveAll msgid s flow).2) := by
  induction flow with
  | nil =>
      intro s units _ _ _
      exact .nil
  | cons f flow ih =>
      intro s units h htotal hflow
      obtain ⟨hf, hrest⟩ := List.forall_mem_cons.mp hflow
      -- the units the first frame grants, and what it leaves
      obtain ⟨k, hk⟩ : ∃ k, k = if f.u8 s.protocol.frOffset &&& 0x0f = 0 then
        if frameCount s.protocol f = 0 then total else (frameCount s.protocol f).toNat
        else 0 := ⟨_, rfl⟩
      have hstep : List.Forall₂ (OnWire s.protocol) (units.take k)
          (writes (pollerIsotpReceive s f msgid).2.effects) ∧
            Sends (pollerIsotpReceive s f msgid).1 (units.drop k) := by
        rw [receive_flowFrame hf]
        by_cases hrem : s.txRemain = 0
        · obtain rfl := h.eq_nil.mpr hrem
          rw [if_pos hrem, List.take_nil, List.drop_nil]
          exact ⟨.nil, h⟩
        · rw [if_neg hrem]
          split
          · rename_i hcommand
            rw [if_pos hcommand] at hk
            have hgrants : Grants (frameCount s.protocol f) units k := by
              rw [Grants, hk]
              split
              · exact htotal
              · rfl
            obtain ⟨hwire, hnext, -⟩ :=
              sendConsecutive_units s f (frameCount s.protocol f) h hgrants
            exact ⟨hwire, hnext⟩
          · rename_i hcommand
            rw [if_neg hcommand] at hk
            rw [hk]
            exact ⟨.nil, h⟩
      obtain ⟨remain, offset, frame, hstate⟩ := receive_flowctrl msgid hf.type
      have hprotocol : (pollerIsotpReceive s f msgid).1.protocol = s.protocol := by
        rw [hstate]
        rfl
      have hflow' : ∀ g ∈ flow, FlowFrame (pollerIsotpReceive s f msgid).1 msgid g := by
        rw [hstate]
        exact fun g hg => ⟨(hrest g hg).listens, (hrest g hg).type, (hrest g hg).command⟩
      have hrun := ih hstep.2 (by rw [List.length_drop]; omega) hflow'
      rw [hprotocol] at hrun
      rw [granted, ← hk, List.take_add]
      exact List.rel_append hstep.1 hrun

/-! ### The start -/

theorem expectModules_eq (s : Poller) :
    ∃ sent low high, expectModules s =
      { s with moduleidSent := sent, moduleidLow := low, moduleidHigh := high } := by
  rw [expectModules]
  split <;> exact ⟨_, _, _, rfl⟩

/-- The transport header of a single frame and of a first frame. -/
theorem startPci_eq (cap : ℕ) (len : ℕ) (hlen : len < 65536) :
    startPci cap (.ofNat len) =
      if len ≤ cap - 1 then [.ofNat len]
      else [.ofNat (0x10 + len / 256 % 16), .ofNat (len % 256)] := by
  have htoNat : (UInt16.ofNat len).toNat = len := by
    rw [UInt16.toNat_ofNat']
    omega
  have hhigh : (len &&& 0x0f00) >>> 8 = len / 256 % 16 := by
    rw [Nat.shiftRight_and_distrib, Nat.shiftRight_eq_div_pow]
    exact Nat.and_two_pow_sub_one_eq_mod (len / 256) 4
  have hlow : len &&& 0xff = len % 256 := Nat.and_two_pow_sub_one_eq_mod len 8
  rw [startPci, htoNat, hhigh, hlow, Nat.zero_shiftLeft, Nat.zero_add]
  rfl

/-- What a request starts with: its type and its PID. -/
def requestHeader (entry : PollPid) : List UInt8 :=
  entry.type.toUInt8 :: pidBytes entry.type.toNat entry.args.pid

theorem length_requestHeader (entry : PollPid) :
    (requestHeader entry).length = 1 + pidLen entry.type.toNat ∧
      (requestHeader entry).length ≤ 3 := by
  have := pidLen_le entry.type.toNat
  rw [requestHeader, List.length_cons, length_pidBytes]
  omega

/-- As much of the payload as the first transmitted frame has room for. -/
def startSent (entry : PollPid) (room : ℕ) : ℕ :=
  min entry.args.txData.2 (room - (requestHeader entry).length)

/-- **The start.** The frame has the transport header, the request header and the first
payload bytes, and the counters stand behind them. -/
theorem pollerSendEntry_spec (s : Poller) {entry : PollPid} {len n : ℕ}
    (hlen : len = (requestHeader entry).length + entry.args.txData.2) (hmax : len < 65536)
    (hn : n = startSent entry
      (if len ≤ entry.protocol.frMaxlen - 1 then entry.protocol.frMaxlen - 1
        else entry.protocol.frMaxlen - 2)) :
    ∃ t : Poller, t.protocol = entry.protocol ∧
      (pollerSendEntry s entry).2 = [.write (txFrame t t.bus t.moduleidSent 0x55
        (startPci entry.protocol.frMaxlen (.ofNat len) ++
          (requestHeader entry ++ entry.args.txData.1.take n)))] ∧
      (pollerSendEntry s entry).1.protocol = entry.protocol ∧
      (pollerSendEntry s entry).1.txData = entry.args.txData.1 ∧
      (pollerSendEntry s entry).1.txFrame = 0 ∧
      (pollerSendEntry s entry).1.txOffset = .ofNat n ∧
      (pollerSendEntry s entry).1.txRemain = .ofNat (entry.args.txData.2 - n) := by
  obtain ⟨sent, low, high, hexpect⟩ := expectModules_eq
    { s with
      entry := entry, protocol := entry.protocol, type := entry.type, pid := entry.args.pid }
  have htoNat : (UInt16.ofNat len).toNat = len := by
    rw [UInt16.toNat_ofNat']
    omega
  rw [startSent, (length_requestHeader entry).1, ← htoNat, hlen,
    (length_requestHeader entry).1] at hn
  rw [hlen, (length_requestHeader entry).1, pollerSendEntry, pollerIsotpStart, hexpect]
  rw [hn]
  exact ⟨_, rfl, by rw [← List.append_assoc]; rfl, rfl, rfl, rfl, rfl, rfl⟩

/-- The first frame starts with the transport header. -/
theorem startPci_prefix (s : Poller) {entry : PollPid} {len : ℕ}
    (hlen : len = (requestHeader entry).length + entry.args.txData.2) (hmax : len < 65536) :
    ∃ f, (pollerSendEntry s entry).2 = [.write f] ∧
      startPci entry.protocol.frMaxlen (.ofNat len) <+: tpBytes entry.protocol f := by
  have hcap := entry.protocol.frMaxlen_cases
  obtain ⟨-, hhdr⟩ := length_requestHeader entry
  obtain ⟨n, hn⟩ : ∃ n, n = startSent entry
      (if len ≤ entry.protocol.frMaxlen - 1 then entry.protocol.frMaxlen - 1
        else entry.protocol.frMaxlen - 2) := ⟨_, rfl⟩
  obtain ⟨t, ht, hwrite, -⟩ := pollerSendEntry_spec s hlen hmax hn
  have hroom : (startPci entry.protocol.frMaxlen (.ofNat len) ++
      (requestHeader entry ++ entry.args.txData.1.take n)).length ≤ t.protocol.frMaxlen := by
    rw [startSent] at hn
    rw [ht, startPci_eq _ _ hmax, List.length_append, List.length_append, List.length_take]
    split at hn
    · rename_i hfits
      rw [if_pos hfits, List.length_singleton]
      omega
    · rename_i hfits
      rw [if_neg hfits, List.length_cons, List.length_singleton]
      omega
  have hprefix := prefix_tpBytes_txFrame t t.bus t.moduleidSent 0x55 hroom
  rw [ht] at hprefix
  exact ⟨_, hwrite, (List.prefix_append _ _).trans hprefix⟩

section Request

variable {s : Poller} {entry : PollPid}

theorem request_eq (entry : PollPid) :
    entry.request = requestHeader entry ++ entry.args.payload := rfl

theorem length_request (hsized : entry.args.Sized) :
    entry.request.length = (requestHeader entry).length + entry.args.txData.2 := by
  rw [request_eq, List.length_append, hsized.length_payload]

/-- A request of up to 4095 bytes: the first transmitted frame carries its first unit, and
the others are left to send. -/
theorem start_units (s : Poller) (hsized : entry.args.Sized)
    (hmax : entry.request.length ≤ 4095) :
    ∃ f u units, (pollerSendEntry s entry).2 = [.write f] ∧
      segment entry.protocol.frMaxlen entry.request = u :: units ∧
      OnWire entry.protocol u f ∧ Sends (pollerSendEntry s entry).1 units := by
  have hcap := entry.protocol.frMaxlen_cases
  obtain ⟨-, hhdr⟩ := length_requestHeader entry
  have hlen := length_request hsized
  obtain ⟨t, ht, hwrite, hprotocol, hdata, hframe, hoffset, hremain⟩ :=
    pollerSendEntry_spec s hlen (by omega) rfl
  rw [startPci_eq _ _ (by omega)] at hwrite
  by_cases hfits : entry.request.length ≤ entry.protocol.frMaxlen - 1
  · -- a single frame
    have hsent : startSent entry (entry.protocol.frMaxlen - 1) = entry.args.txData.2 := by
      rw [startSent]
      omega
    rw [if_pos hfits, if_pos hfits, hsent, ← PollArgs.payload, ← request_eq] at hwrite
    rw [if_pos hfits, hsent] at hoffset hremain
    rw [Nat.sub_self] at hremain
    refine ⟨_, .single entry.request, [], hwrite, by rw [Lib.IsoTp.segment, if_pos hfits], ?_,
      1, [], ?_, (consecutives_nil 1).symm⟩
    · rw [← ht]
      refine onWire_txFrame t _ _ _ (u := .single entry.request) ?_
      rw [Pdu.bytes, List.length_cons, ht]
      omega
    · refine ⟨by rw [hremain]; rfl, List.take_zero, by rw [hframe]; rfl, by omega, ?_⟩
      rw [hoffset, UInt16.toNat_ofNat', List.length_nil]
      omega
  · -- a first frame
    have hsent : startSent entry (entry.protocol.frMaxlen - 2) =
        entry.protocol.frMaxlen - 2 - (requestHeader entry).length := by
      rw [startSent]
      omega
    rw [if_neg hfits, if_neg hfits, hsent] at hwrite
    rw [if_neg hfits, hsent] at hoffset hremain
    obtain ⟨n, hn⟩ : ∃ n, n = entry.protocol.frMaxlen - 2 - (requestHeader entry).length :=
      ⟨_, rfl⟩
    rw [← hn] at hwrite hoffset hremain
    have htake : entry.request.take (entry.protocol.frMaxlen - 2) =
        requestHeader entry ++ entry.args.txData.1.take n := by
      rw [request_eq, List.take_append, List.take_of_length_le (by omega), ← hn,
        PollArgs.payload, List.take_take, Nat.min_eq_left (by omega)]
    have hdrop : entry.request.drop (entry.protocol.frMaxlen - 2) =
        (entry.args.txData.1.drop n).take (entry.args.txData.2 - n) := by
      rw [request_eq, List.drop_append, List.drop_of_length_le (by omega), List.nil_append,
        ← hn, PollArgs.payload, List.drop_take]
    have hoffsetNat : (pollerSendEntry s entry).1.txOffset.toNat = n := by
      rw [hoffset, UInt16.toNat_ofNat']
      omega
    have hrest : (entry.request.drop (entry.protocol.frMaxlen - 2)).length =
        entry.args.txData.2 - n := by
      rw [List.length_drop]
      omega
    have hpci : 0x10 + entry.request.length / 256 % 16 = 0x10 + entry.request.length / 256 := by
      omega
    rw [hpci, ← htake] at hwrite
    refine ⟨_, .first entry.request.length (entry.request.take (entry.protocol.frMaxlen - 2)),
      consecutives entry.protocol.frMaxlen 1
        (entry.request.drop (entry.protocol.frMaxlen - 2)), hwrite,
      by rw [Lib.IsoTp.segment, if_neg hfits], ?_, 1, _, ?_, by rw [hprotocol]⟩
    · rw [← ht]
      refine onWire_txFrame t _ _ _ (u := .first entry.request.length
        (entry.request.take (t.protocol.frMaxlen - 2))) ?_
      rw [Pdu.bytes, List.length_cons, List.length_cons, List.length_take, ht]
      omega
    · refine ⟨?_, ?_, by rw [hframe]; rfl, by omega, by omega⟩
      · rw [hremain, hrest, UInt16.toNat_ofNat']
        omega
      · rw [hdata, hoffsetNat, hrest, hdrop]

/-- A request that is too long: the length field of its first frame is less than a first
frame can announce. -/
theorem start_overflow (s : Poller) (hsized : entry.args.Sized)
    (hmax : entry.args.txData.2 ≤ 4095) (hlong : 4095 < entry.request.length)
    (frames : List (List UInt8)) :
    ∃ f, (pollerSendEntry s entry).2 = [.write f] ∧
      decode entry.protocol.frMaxlen (tpBytes entry.protocol f :: frames) = none := by
  have hcap := entry.protocol.frMaxlen_cases
  obtain ⟨-, hhdr⟩ := length_requestHeader entry
  have hlen := length_request hsized
  obtain ⟨f, hwrite, content, hcontent⟩ := startPci_prefix s hlen (by omega)
  rw [startPci_eq _ _ (by omega), if_neg (by omega)] at hcontent
  refine ⟨f, hwrite, ?_⟩
  rw [← hcontent]
  have hpci : (UInt8.ofNat (0x10 + entry.request.length / 256 % 16)).toNat = 0x10 := by
    rw [UInt8.toNat_ofNat']
    omega
  have hlow : (UInt8.ofNat (entry.request.length % 256)).toNat < 3 := by
    rw [UInt8.toNat_ofNat']
    omega
  exact decode_eq_none_of_short (by rw [hpci]) (by rw [hpci]; omega)

/-- The frames of a request: the first, and what the flow control frames have sent. -/
def transmitted (s : Poller) (entry : PollPid) (msgid : UInt32) (flow : List CanFrame) :
    List CanFrame :=
  writes (pollerSendEntry s entry).2 ++
    writesOf (receiveAll msgid (pollerSendEntry s entry).1 flow).2

/-- **Faithful transmission.** Whatever flow control frames the peer sends to let the
transmission continue, in blocks of any size, or wait: the frames of a request of up to
4095 bytes carry its units, in order, as far as they are granted. And when all are granted,
the frames decode to the request exactly when it has at most 4095 bytes, header
included. -/
theorem transmit_faithful_iff {msgid : UInt32} {flow : List CanFrame}
    (hsized : entry.args.Sized) (hmax : entry.args.txData.2 ≤ 4095)
    (hflow : ∀ f ∈ flow, FlowFrame (pollerSendEntry s entry).1 msgid f) {total : ℕ}
    (htotal : total = (segment entry.protocol.frMaxlen entry.request).length - 1) :
    (entry.request.length ≤ 4095 →
      List.Forall₂ (OnWire entry.protocol)
        ((segment entry.protocol.frMaxlen entry.request).take
          (1 + granted entry.protocol total flow)) (transmitted s entry msgid flow)) ∧
    (total ≤ granted entry.protocol total flow →
      (decode entry.protocol.frMaxlen
          ((transmitted s entry msgid flow).map (tpBytes entry.protocol)) =
            some entry.request ↔
        entry.request.length ≤ 4095)) := by
  have hprotocol : (pollerSendEntry s entry).1.protocol = entry.protocol := by
    obtain ⟨-, -, -, hprotocol, -⟩ := pollerSendEntry_spec s (length_request hsized)
      (by have := (length_requestHeader entry).2; rw [length_request hsized]; omega) rfl
    exact hprotocol
  have hunits (hlen : entry.request.length ≤ 4095) : List.Forall₂ (OnWire entry.protocol)
      ((segment entry.protocol.frMaxlen entry.request).take
        (1 + granted entry.protocol total flow)) (transmitted s entry msgid flow) := by
    obtain ⟨f, u, units, hwrite, hsegment, hwire, hsends⟩ := start_units s hsized hlen
    rw [hsegment, List.length_cons] at htotal
    have hrun := receiveAll_units msgid total flow hsends (by omega) hflow
    rw [hprotocol] at hrun
    rw [hsegment, Nat.add_comm, List.take_succ_cons, transmitted, hwrite]
    exact .cons hwire hrun
  refine ⟨hunits, fun hgranted => ⟨fun hdecode => ?_, fun hlen => ?_⟩⟩
  · by_contra hlong
    obtain ⟨f, hwrite, hnone⟩ := start_overflow s hsized hmax (Nat.not_le.mp hlong)
      ((writesOf (receiveAll msgid (pollerSendEntry s entry).1 flow).2).map
        (tpBytes entry.protocol))
    rw [transmitted, hwrite] at hdecode
    exact absurd (hnone.symm.trans hdecode) nofun
  · have hcap := entry.protocol.frMaxlen_cases
    have hall := hunits hlen
    rw [List.take_of_length_le (by omega)] at hall
    refine decode_of_carries (by omega) (by omega) (List.cons_ne_nil _ _) hlen ?_
    rw [List.forall₂_map_right_iff]
    exact hall

end Request

/-- A poll entry with an external payload of zeros. -/
def zerosEntry (datalen : UInt16) : PollPid :=
  { entryOf 0x22 0x1234 with
    args := ⟨0x1234, pollTxData, .external datalen ⟨0, List.replicate datalen.toNat 0⟩⟩ }

theorem sized_zerosEntry (datalen : UInt16) : (zerosEntry datalen).args.Sized := by
  have htxData : (zerosEntry datalen).args.txData =
      (List.replicate datalen.toNat 0, datalen.toNat) := rfl
  rw [PollArgs.Sized, htxData]
  exact Nat.le_of_eq List.length_replicate.symm

/-- The flow control frame that asks for all frames. -/
def continueAll : CanFrame := moduleFrame [0x30, 0, 0]

/-- Ten bytes of payload, all asked for at once. -/
theorem transmit_faithful_ten :
    decode 8 ((transmitted listed (zerosEntry 10) 0x7e8 [continueAll]).map (tpBytes .isotpStd)) =
      some (zerosEntry 10).request := by
  have hflow : ∀ f ∈ [continueAll],
      FlowFrame (pollerSendEntry listed (zerosEntry 10)).1 0x7e8 f :=
    List.forall_mem_singleton.mpr ⟨by decide, by decide, by decide⟩
  exact ((transmit_faithful_iff (sized_zerosEntry 10) (by decide) hflow rfl).2
    (Nat.le_refl _)).mpr (by decide)

/-- With 4093 bytes of payload the request has 4096 bytes, and its length field is 0. -/
theorem transmit_overflows :
    decode 8 ((transmitted listed (zerosEntry 4093) 0x7e8 [continueAll]).map
      (tpBytes .isotpStd)) ≠ some (zerosEntry 4093).request := by
  have hpayload : (zerosEntry 4093).args.txData.2 = 4093 := rfl
  have hhdr : (requestHeader (zerosEntry 4093)).length = 3 := rfl
  have hlong : 4095 < (zerosEntry 4093).request.length := by
    rw [length_request (sized_zerosEntry 4093), hpayload, hhdr]
    decide
  obtain ⟨f, hwrite, hnone⟩ := start_overflow listed (sized_zerosEntry 4093)
    (by rw [hpayload]; decide) hlong ((writesOf (receiveAll 0x7e8
      (pollerSendEntry listed (zerosEntry 4093)).1 [continueAll]).2).map (tpBytes .isotpStd))
  rw [transmitted, hwrite]
  exact fun h => absurd (hnone.symm.trans h) nofun

end Ovms.Poll
