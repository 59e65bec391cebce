import Ovms.Poll.IsoTp

/-!
# What a Frame Does

The receive function has one way to hand data to the application: a data frame of the
expected type, index, response type and PID (`Accepts`). This module says once what happens
on it, and what can happen otherwise; the results on runs are derived from that.
-/

open Ovms.Can

namespace Ovms.Poll

variable {s : Poller} {f : CanFrame} {msgid : UInt32}

/-! ### Accepted frames -/

/-- A frame is accepted as a data frame: the poller listens to it, its index is not beyond
the expected one, and its response meta data match the request. -/
structure Accepts (s : Poller) (f : CanFrame) (msgid : UInt32) (ft : FrameType) : Prop where
  listens : Listens s f msgid
  type : frameType (f.u8 s.protocol.frOffset) = some ft
  data : ft ≠ .flowctrl
  index : ft = .consecutive → ¬ BadIndex s (tpMeta s f .consecutive).frameindex
  positive : ¬ (responseMeta s f ft).IsError s
  matched : (responseMeta s f ft).Matches s

/-- What `moreData` does hands over nothing. -/
theorem packets_moreData (s : Poller) (f : CanFrame) (ft : FrameType) (n : UInt16) :
    packets (moreData s f ft n).2 = [] := by
  by_cases hrem : s.mlremain ≠ 0
  · rw [moreData, if_pos hrem]
    cases ft <;> rfl
  · rw [moreData, if_neg hrem]
    simp only
    split
    · rw [pollerSucceededPollNext]
      simp only
      split <;> rfl
    · rfl

/-- An accepted frame is delivered, and `moreData` does the rest. -/
theorem receive_accepted {ft : FrameType} (h : Accepts s f msgid ft) :
    pollerIsotpReceive s f msgid =
      let p := deliver s f msgid (tpMeta s f ft) (responseMeta s f ft)
      let next := moreData p.job f ft (responseMeta s f ft).datalen
      (next.1, ⟨true, .packet p :: next.2⟩) := by
  rw [pollerIsotpReceive, if_neg (not_not.mpr h.listens), h.type]
  have hdata : receiveData s f msgid ft =
      let p := deliver s f msgid (tpMeta s f ft) (responseMeta s f ft)
      let next := moreData p.job f ft (responseMeta s f ft).datalen
      (next.1, ⟨true, .packet p :: next.2⟩) := by
    rw [receiveData]
    simp only [if_neg h.positive, if_pos h.matched]
  cases ft with
  | single => exact hdata
  | first => exact hdata
  | consecutive =>
      simp only [if_neg (h.index rfl)]
      exact hdata
  | flowctrl => exact absurd rfl h.data

theorem packets_receive_accepted {ft : FrameType} (h : Accepts s f msgid ft) :
    packets (pollerIsotpReceive s f msgid).2.effects =
      [deliver s f msgid (tpMeta s f ft) (responseMeta s f ft)] := by
  rw [receive_accepted h]
  exact congrArg (_ :: ·) (packets_moreData _ f ft _)

/-! ### Flow control -/

/-- Other transmission counters. -/
def Poller.withTx (s : Poller) (remain offset frame : UInt16) : Poller :=
  { s with txRemain := remain, txOffset := offset, txFrame := frame }

/-- A block of consecutive frames moves the transmission counters alone. -/
theorem sendConsecutive_fst (s : Poller) (f : CanFrame) (framecnt : UInt8) :
    ∃ remain offset frame, (sendConsecutive s f framecnt).1 = s.withTx remain offset frame := by
  fun_induction sendConsecutive s f framecnt with
  | case1 => exact ⟨_, _, _, rfl⟩
  | case2 => exact ⟨_, _, _, rfl⟩
  | case3 => exact ⟨_, _, _, rfl⟩
  | case4 s framecnt h t hmore hblock r ih =>
      obtain ⟨remain, offset, frame, hr⟩ := ih
      exact ⟨remain, offset, frame, hr⟩

theorem setWaiting_eq (h : s.waiting = true) : { s with waiting := true } = s := by
  rw [← h]

/-- A flow control frame moves the transmission counters alone. -/
theorem receive_flowctrl (msgid : UInt32)
    (hft : frameType (f.u8 s.protocol.frOffset) = some .flowctrl) :
    ∃ remain offset frame,
      (pollerIsotpReceive s f msgid).1 = s.withTx remain offset frame := by
  rw [pollerIsotpReceive, hft]
  split
  · exact ⟨_, _, _, rfl⟩
  · rename_i hl
    have hwaiting : s.waiting = true := (not_not.mp hl).1
    simp only [receiveFlowCtrl]
    split
    · exact ⟨_, _, _, rfl⟩
    · split
      · rw [setWaiting_eq hwaiting]
        exact ⟨_, _, _, rfl⟩
      · split
        · exact ⟨0, _, _, rfl⟩
        · obtain ⟨remain, offset, frame, hr⟩ :=
            sendConsecutive_fst s f (f.u8 (s.protocol.frOffset + 1))
          refine ⟨remain, offset, frame, ?_⟩
          rw [hr, setWaiting_eq (s := s.withTx remain offset frame) hwaiting, ite_self]

theorem packets_sendConsecutive (s : Poller) (f : CanFrame) (framecnt : UInt8) :
    packets (sendConsecutive s f framecnt).2 = [] := by
  fun_induction sendConsecutive s f framecnt with
  | case1 => rfl
  | case2 => rfl
  | case3 => rfl
  | case4 s framecnt h t hmore hblock r ih => exact ih

/-! ### Refused frames -/

/-- The counters of the reassembly are the same. -/
def SameResponse (s t : Poller) : Prop :=
  t.mlremain = s.mlremain ∧ t.mloffset = s.mloffset ∧ t.moduleidRec = s.moduleidRec

/-- The poll is over. -/
def Over (s : Poller) : Prop := s.waiting = false ∧ s.mlremain = 0

/-- A data frame that is not accepted hands over nothing; an error response ends the
poll. -/
theorem receiveData_refused {ft : FrameType}
    (h : (responseMeta s f ft).IsError s ∨ ¬ (responseMeta s f ft).Matches s) :
    packets (receiveData s f msgid ft).2.effects = [] ∧
      (SameResponse s (receiveData s f msgid ft).1 ∨ Over (receiveData s f msgid ft).1) := by
  rw [receiveData]
  simp only
  split
  · split
    · exact ⟨rfl, .inl ⟨rfl, rfl, rfl⟩⟩
    · refine ⟨packets_moreData _ _ _ _, .inr ?_⟩
      simp only [moreData, pollerSucceededPollNext]
      split
      · rename_i hne
        exact absurd rfl hne
      · split <;> exact ⟨rfl, rfl⟩
  · rename_i herr
    rw [if_neg (h.resolve_left herr)]
    exact ⟨rfl, .inl ⟨rfl, rfl, rfl⟩⟩

/-- **A refused frame** hands over nothing, and leaves the reassembly as it is or ends the
poll. -/
theorem receive_refused (h : ∀ ft, ¬ Accepts s f msgid ft) :
    packets (pollerIsotpReceive s f msgid).2.effects = [] ∧
      (SameResponse s (pollerIsotpReceive s f msgid).1 ∨
        Over (pollerIsotpReceive s f msgid).1) := by
  by_cases hl : Listens s f msgid
  case neg =>
    rw [pollerIsotpReceive, if_pos hl]
    exact ⟨rfl, .inl ⟨rfl, rfl, rfl⟩⟩
  have hrefused (ft : FrameType) (hft : frameType (f.u8 s.protocol.frOffset) = some ft)
      (hdata : ft ≠ .flowctrl)
      (hindex : ft = .consecutive → ¬ BadIndex s (tpMeta s f .consecutive).frameindex) :
      (responseMeta s f ft).IsError s ∨ ¬ (responseMeta s f ft).Matches s := by
    by_contra hnot
    obtain ⟨hpositive, hmatched⟩ := not_or.mp hnot
    exact h ft ⟨hl, hft, hdata, hindex, hpositive, not_not.mp hmatched⟩
  cases hft : frameType (f.u8 s.protocol.frOffset) with
  | none =>
      rw [pollerIsotpReceive, if_neg (not_not.mpr hl), hft]
      exact ⟨rfl, .inl ⟨rfl, rfl, rfl⟩⟩
  | some ft =>
      cases ft with
      | flowctrl =>
          obtain ⟨remain, offset, frame, hstate⟩ := receive_flowctrl msgid hft
          refine ⟨?_, .inl (by rw [hstate]; exact ⟨rfl, rfl, rfl⟩)⟩
          rw [pollerIsotpReceive, if_neg (not_not.mpr hl), hft]
          simp only [receiveFlowCtrl]
          split
          · rfl
          · split
            · rfl
            · split
              · rfl
              · exact packets_sendConsecutive _ _ _
      | consecutive =>
          rw [pollerIsotpReceive, if_neg (not_not.mpr hl), hft]
          simp only
          split
          · exact ⟨rfl, .inl ⟨rfl, rfl, rfl⟩⟩
          · rename_i hindex
            exact receiveData_refused (hrefused _ hft (by decide) fun _ => hindex)
      | single =>
          rw [pollerIsotpReceive, if_neg (not_not.mpr hl), hft]
          exact receiveData_refused (hrefused _ hft (by decide) nofun)
      | first =>
          rw [pollerIsotpReceive, if_neg (not_not.mpr hl), hft]
          exact receiveData_refused (hrefused _ hft (by decide) nofun)

/-! ### The machine -/

/-- A call that moves the poller: the dispatch of a poll entry, a frame with the module it
comes from, the end of the wait time, and the settings. -/
inductive Event
  | send (entry : PollPid)
  | receive (f : CanFrame) (msgid : UInt32)
  | expire
  | configure (fcSeptime : UInt8) (hasPollList canPoll : Bool)

/-- The state after a call. -/
def next (s : Poller) : Event → Poller
  | .send entry => (pollerSendEntry s entry).1
  | .receive f msgid => (pollerIsotpReceive s f msgid).1
  | .expire => { s with waiting := false }
  | .configure fcSeptime hasPollList canPoll =>
      { s with fcSeptime := fcSeptime, hasPollList := hasPollList, canPoll := canPoll }

end Ovms.Poll
