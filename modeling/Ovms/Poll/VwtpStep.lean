import Ovms.Poll.Vwtp

/-!
# What a Call of the VW-TP Engine Does

As in ISO-TP there is one way to hand data to the application: a data frame in sequence,
of the expected response type and PID (`AcceptsData`). Every other call hands over nothing,
and only ends or restarts the reassembly (`Quiet`). No call leaves the channel in the
passing state of a poll start, or open without a bus (`Channel.Ready`).
-/

open Ovms.Can

namespace Ovms.Poll

/-! ### Quiet calls -/

/-- The channel is not about to start a poll, and has a bus unless it is closed. -/
structure Channel.Ready (c : Channel) : Prop where
  state : c.state ≠ .startPoll
  bus : c.state ≠ .closed → c.bus.isSome = true

/-- A call hands over nothing, does not add to what remains of a message, and keeps a
channel ready. -/
structure Quiet (v : VwtpPoller) (r : VwtpPoller × List Effect) : Prop where
  silent : packets r.2 = []
  remain : r.1.poll.mlframe = 0 ∨
    r.1.poll.mlframe = v.poll.mlframe ∧ r.1.poll.mlremain ≤ v.poll.mlremain
  ready : v.channel.Ready → r.1.channel.Ready

theorem packets_append (es fs : List Effect) : packets (es ++ fs) = packets es ++ packets fs :=
  List.filterMap_append

@[simp] theorem packets_writeChannel (c : Channel) (bytes prev : List UInt8) :
    packets (writeChannel c bytes prev) = [] := by
  rw [writeChannel]
  cases c.bus <;> rfl

theorem Quiet.of_same {v t : VwtpPoller} {effects : List Effect} (hpackets : packets effects = [])
    (hframe : t.poll.mlframe = v.poll.mlframe) (hremain : t.poll.mlremain = v.poll.mlremain)
    (hstate : t.channel.state = v.channel.state) (hbus : t.channel.bus = v.channel.bus) :
    Quiet v (t, effects) where
  silent := hpackets
  remain := .inr ⟨hframe, Nat.le_of_eq (congrArg UInt16.toNat hremain)⟩
  ready h := ⟨by rw [hstate]; exact h.state, by rw [hstate, hbus]; exact h.bus⟩

theorem Quiet.of_write {v t : VwtpPoller} (c : Channel) (bytes prev : List UInt8)
    (hframe : t.poll.mlframe = v.poll.mlframe) (hremain : t.poll.mlremain ≤ v.poll.mlremain)
    (hready : v.channel.Ready → t.channel.Ready) : Quiet v (t, writeChannel c bytes prev) :=
  ⟨packets_writeChannel c bytes prev, .inr ⟨hframe, hremain⟩, hready⟩

theorem Quiet.refl (v : VwtpPoller) : Quiet v (v, []) := .of_same rfl rfl rfl rfl rfl

/-- Two quiet calls in a row. -/
theorem Quiet.trans {v : VwtpPoller} {r r' : VwtpPoller × List Effect} (h : Quiet v r)
    (h' : Quiet r.1 r') : Quiet v (r'.1, r.2 ++ r'.2) where
  silent := by
    rw [packets_append, h.silent, h'.silent]
    rfl
  remain := by
    rcases h'.remain with hzero | ⟨hframe, hremain⟩
    · exact .inl hzero
    · rcases h.remain with hzero | ⟨hframe', hremain'⟩
      · exact .inl (hframe.trans hzero)
      · exact .inr ⟨hframe.trans hframe', Nat.le_trans hremain hremain'⟩
  ready hready := h'.ready (h.ready hready)

/-! ### State transitions -/

/-- A block of frames moves the transmission counters and the sequence number alone. -/
theorem sendBlock_fst (n : ℕ) (v : VwtpPoller) (prev : List UInt8) :
    ∃ remain offset frame seqnr, (sendBlock n v prev).1 =
      ⟨{ v.poll with txRemain := remain, txOffset := offset, txFrame := frame },
        { v.channel with txseqnr := seqnr }⟩ := by
  induction n generalizing v prev with
  | zero => exact ⟨_, _, _, _, rfl⟩
  | succ n ih =>
      rw [sendBlock]
      simp only
      split
      · exact ⟨_, _, _, _, rfl⟩
      · obtain ⟨remain, offset, frame, seqnr, h⟩ :=
          ih (vwtpSent v) (vwtpBytes v n ++ prev.drop (vwtpBytes v n).length)
        exact ⟨remain, offset, frame, seqnr, h⟩

/-- A block of frames hands over nothing. -/
theorem packets_sendBlock (n : ℕ) (v : VwtpPoller) (prev : List UInt8) :
    packets (sendBlock n v prev).2 = [] := by
  induction n generalizing v prev with
  | zero => rfl
  | succ n ih =>
      rw [sendBlock]
      simp only
      split
      · exact packets_writeChannel _ _ _
      · rw [packets_append, packets_writeChannel, ih]
        rfl

theorem enterTransmit_quiet (v : VwtpPoller) (hopen : v.channel.state ≠ .closed) :
    Quiet v (enterTransmit v) := by
  obtain ⟨remain, offset, frame, seqnr, h⟩ :=
    sendBlock_fst v.channel.blocksize.toNat v (List.replicate 8 0)
  rw [enterTransmit, h]
  exact ⟨packets_sendBlock _ _ _, .inr ⟨rfl, Nat.le_refl _⟩,
    fun hready => ⟨nofun, fun _ => hready.bus hopen⟩⟩

/-- **A state transition** is quiet. A closed channel is opened by a setup request only. -/
theorem enter_quiet (v : VwtpPoller) (state : ChannelState)
    (hopen : v.channel.state ≠ .closed ∨ state = .closed ∨ state = .channelSetup) :
    Quiet v (enter v state) := by
  rw [enter.eq_def]
  split
  · exact .refl v
  · rename_i hne
    cases state with
    | closed =>
        exact ⟨rfl, .inr ⟨rfl, Nat.le_refl _⟩, fun _ => ⟨nofun, fun h => absurd rfl h⟩⟩
    | channelSetup =>
        simp only
        split
        · exact .refl v
        · exact .of_write _ _ _ rfl (Nat.le_refl _) fun _ => ⟨nofun, fun _ => rfl⟩
    | channelParams =>
        have hopen := hopen.resolve_right (by simp)
        exact .of_write _ _ _ rfl (Nat.le_refl _) fun h => ⟨nofun, fun _ => h.bus hopen⟩
    | channelClose =>
        have hopen := hopen.resolve_right (by simp)
        exact .of_write _ _ _ rfl (Nat.le_refl _) fun h => ⟨nofun, fun _ => h.bus hopen⟩
    | idle =>
        have hopen := hopen.resolve_right (by simp)
        exact ⟨rfl, .inr ⟨rfl, Nat.le_refl _⟩, fun h => ⟨nofun, fun _ => h.bus hopen⟩⟩
    | receive =>
        have hopen := hopen.resolve_right (by simp)
        exact ⟨rfl, .inr ⟨rfl, Nat.le_refl _⟩, fun h => ⟨nofun, fun _ => h.bus hopen⟩⟩
    | transmit => exact enterTransmit_quiet v (hopen.resolve_right (by simp))
    | startPoll =>
        have hopen := hopen.resolve_right (by simp)
        obtain ⟨hpackets, -, hready⟩ := enterTransmit_quiet (startPoll v) hopen
        obtain ⟨remain, offset, frame, seqnr, h⟩ :=
          sendBlock_fst (startPoll v).channel.blocksize.toNat (startPoll v) (List.replicate 8 0)
        refine ⟨hpackets, .inl ?_, hready⟩
        simp only [enterTransmit, h]
        rfl
    | abortXfer =>
        have hopen := hopen.resolve_right (by simp)
        exact .of_write _ _ _ rfl (Nat.zero_le _) fun h => ⟨nofun, fun _ => h.bus hopen⟩

/-- An open channel stays open, unless the closed state is entered. -/
theorem enter_open {v : VwtpPoller} {state : ChannelState} (hopen : v.channel.state ≠ .closed)
    (hstate : state ≠ .closed) : (enter v state).1.channel.state ≠ .closed := by
  rw [enter.eq_def]
  split
  · exact hopen
  · cases state with
    | closed => exact absurd rfl hstate
    | channelSetup =>
        simp only
        split
        · exact hopen
        · nofun
    | channelParams => nofun
    | channelClose => nofun
    | idle => nofun
    | receive => nofun
    | transmit => nofun
    | startPoll => nofun
    | abortXfer => nofun

theorem enter_idle_poll (v : VwtpPoller) :
    (enter v .idle).1.poll = { v.poll with waiting := (enter v .idle).1.poll.waiting } := by
  rw [enter]
  split <;> rfl

/-- `PollerVWTPStart` is quiet. -/
theorem vwtpStart_quiet (v : VwtpPoller) : Quiet v (vwtpStart v) := by
  rw [vwtpStart]
  split
  · split
    · rename_i hopen
      exact enter_quiet v _ (.inl hopen)
    · split
      · exact enter_quiet v _ (.inr (.inr rfl))
      · exact .of_same rfl rfl rfl rfl rfl
  · split
    · exact enter_quiet v _ (.inr (.inr rfl))
    · rename_i hrank
      have hopen : v.channel.state ≠ .closed := by
        intro hclosed
        rw [hclosed] at hrank
        exact hrank (by decide)
      simp only
      split
      · exact (enter_quiet v _ (.inl hopen)).trans
          (enter_quiet _ _ (.inl (enter_open hopen (by decide))))
      · exact (Quiet.refl v).trans (enter_quiet v _ (.inl hopen))

theorem vwtpTxCallback_quiet (v : VwtpPoller) (success : Bool) :
    Quiet v (vwtpTxCallback v success) := by
  rw [vwtpTxCallback]
  split
  · exact .refl v
  · exact enter_quiet v _ (.inr (.inl rfl))

/-- The state timeouts. -/
theorem stateTimeout_quiet (v : VwtpPoller) : Quiet v (stateTimeout v) := by
  have hclosed : Quiet v (enter v .closed) := enter_quiet v _ (.inr (.inl rfl))
  rw [stateTimeout]
  split
  · exact hclosed
  · exact hclosed
  · simp only
    split
    · exact hclosed.trans (vwtpStart_quiet _)
    · exact hclosed
  · exact .refl v

/-- `PollerVWTPTicker` is quiet. -/
theorem vwtpTicker_quiet (v : VwtpPoller) (recent inactive : Bool) :
    Quiet v (vwtpTicker v recent inactive) := by
  obtain ⟨r, hr⟩ : ∃ r, r = if v.poll.waiting = true then stateTimeout v
      else if v.channel.state ≠ .closed ∧ v.channel.state ≠ .idle then enter v .channelClose
      else (v, []) := ⟨_, rfl⟩
  have hfirst : Quiet v r := by
    rw [hr]
    split
    · exact stateTimeout_quiet v
    · split
      · rename_i hopen
        exact enter_quiet v _ (.inl hopen.1)
      · exact .refl v
  rw [vwtpTicker]
  split
  · exact .refl v
  · rw [← hr]
    simp only
    split
    · rename_i hidle
      exact hfirst.trans (enter_quiet _ _ (.inl (by rw [hidle.1]; decide)))
    · exact hfirst

/-! ### Received frames -/

/-- A frame is accepted as data of the response: the channel listens to it in the receive
state, it is a data frame in sequence, and its response meta data match the request. -/
structure AcceptsData (v : VwtpPoller) (f : CanFrame) (msgid : UInt32) : Prop where
  hears : v.channel.Hears msgid
  state : v.channel.state = .receive
  opcode : f.u8 0 < 0x40
  sequence : InSequence v.channel f
  positive : ¬ (vwtpMeta v.poll f).IsError v.poll
  matched : (vwtpMeta v.poll f).Matches v.poll

section Frame

variable {v : VwtpPoller} {f : CanFrame} {msgid : UInt32}

/-- The state and the effects of an outcome. -/
def Outcome.call (o : Outcome) : VwtpPoller × List Effect := (o.state, o.effects)

theorem closeChannel_quiet (hopen : v.channel.state ≠ .closed) :
    Quiet v (closeChannel v).call :=
  (enter_quiet v _ (.inl hopen)).trans (enter_quiet _ _ (.inr (.inl rfl)))

theorem Quiet.enter_of_same {t : VwtpPoller} (state : ChannelState)
    (hopen : v.channel.state ≠ .closed) (hframe : t.poll.mlframe = v.poll.mlframe)
    (hremain : t.poll.mlremain = v.poll.mlremain) (hstate : t.channel.state = v.channel.state)
    (hbus : t.channel.bus = v.channel.bus) : Quiet v (enter t state) := by
  have hsame : Quiet v (t, []) := .of_same rfl hframe hremain hstate hbus
  exact hsame.trans (enter_quiet t state (.inl (hstate ▸ hopen)))

/-- A frame in the setup state. -/
theorem receiveSetup_quiet (hopen : v.channel.state ≠ .closed) :
    Quiet v (receiveSetup v f).call := by
  rw [receiveSetup]
  simp only
  split
  · exact .refl v
  · split
    · exact ⟨rfl, .inr ⟨rfl, Nat.le_refl _⟩, fun _ => ⟨nofun, fun h => absurd rfl h⟩⟩
    · exact .enter_of_same _ hopen rfl rfl rfl rfl

/-- A frame in the parameter state. -/
theorem receiveParams_quiet (hopen : v.channel.state ≠ .closed) :
    Quiet v (receiveParams v f).call := by
  rw [receiveParams]
  simp only
  generalize (if f.dlc.val > 0 then f.u8 0 else 0) = opcode
  split
  · exact .enter_of_same _ hopen rfl rfl rfl rfl
  · split
    · exact closeChannel_quiet hopen
    · exact .refl v

/-- A frame in the closing state. -/
theorem receiveClose_quiet :
    Quiet v (receiveClose v f).call := by
  rw [receiveClose]
  split
  · -- nothing is written on the way to the closed state
    have hsilent : (enter v .closed).2 = [] := by
      rw [enter]
      split <;> rfl
    have hclosed : Quiet v ((enter v .closed).1, []) := by
      have h := enter_quiet v .closed (.inr (.inl rfl))
      exact hsilent ▸ h
    simp only
    split
    · exact hclosed.trans (enter_quiet _ _ (.inr (.inr rfl)))
    · exact hclosed.trans (.of_same rfl rfl rfl rfl rfl)
  · exact .refl v

/-- A frame in the idle state. -/
theorem receiveIdle_quiet (hopen : v.channel.state ≠ .closed) :
    Quiet v (receiveIdle v f).call := by
  rw [receiveIdle]
  simp only
  split
  · exact .of_same (packets_writeChannel _ _ _) rfl rfl rfl rfl
  · split
    · exact closeChannel_quiet hopen
    · split
      · exact .of_same (packets_writeChannel _ _ _) rfl rfl rfl rfl
      · exact .refl v

/-- A frame in the transmit state. -/
theorem receiveTransmit_quiet (hopen : v.channel.state ≠ .closed) :
    Quiet v (receiveTransmit v f).call := by
  rw [receiveTransmit]
  simp only
  split
  · exact enter_quiet v _ (.inl hopen)
  · split
    · exact .enter_of_same _ hopen rfl rfl rfl rfl
    · split
      · exact .of_same (packets_writeChannel _ _ _) rfl rfl rfl rfl
      · split
        · exact closeChannel_quiet hopen
        · exact .refl v

theorem vwtpRemain_of_ne {s : Poller} (h : s.mlframe ≠ 0) (f : CanFrame) :
    vwtpRemain s f = s.mlremain := if_neg h

theorem packets_ack (c : Channel) (opcode : UInt8) :
    packets (if opcode &&& 0xf0 ≤ 0x10 then sendAck c else []) = [] := by
  split
  · exact packets_writeChannel _ _ _
  · rfl

/-- A data frame that is not accepted. -/
theorem receiveVwtpData_quiet (hopen : v.channel.state ≠ .closed)
    (h : (vwtpMeta v.poll f).IsError v.poll ∨ ¬ (vwtpMeta v.poll f).Matches v.poll) :
    Quiet v (receiveVwtpData v f msgid).call := by
  -- what remains is declared by a first frame, and the same in the others
  have hremain : v.poll.mlframe = 0 ∨
      v.poll.mlframe = v.poll.mlframe ∧ vwtpRemain v.poll f ≤ v.poll.mlremain := by
    by_cases hzero : v.poll.mlframe = 0
    · exact .inl hzero
    · exact .inr ⟨rfl, Nat.le_of_eq (congrArg UInt16.toNat (vwtpRemain_of_ne hzero f))⟩
  rw [receiveVwtpData]
  simp only
  split
  · split
    · exact ⟨packets_ack _ _, hremain, fun hready => ⟨hready.state, hready.bus⟩⟩
    · obtain ⟨t, ht⟩ : ∃ t : VwtpPoller, t =
          { v with
            poll :=
              { v.poll with
                mlremain := 0, moduleidRec := v.poll.moduleidSent } } := ⟨_, rfl⟩
      have herror : Quiet v (t, (if f.u8 0 &&& 0xf0 ≤ 0x10 then sendAck v.channel else []) ++
          [.error { v.poll with
            mlremain := vwtpRemain v.poll f, moduleidRec := v.poll.moduleidSent }
            (vwtpMeta v.poll f).errorCode]) := by
        rw [ht]
        refine ⟨?_, .inr ⟨rfl, Nat.zero_le _⟩, fun hready => ⟨hready.state, hready.bus⟩⟩
        rw [packets_append, packets_ack]
        rfl
      have htopen : t.channel.state ≠ .closed := ht ▸ hopen
      have hmore : vwtpMore (enter t .idle).1 (vwtpMeta v.poll f).datalen =
          enter (enter t .idle).1 .idle := by
        rw [vwtpMore, if_neg]
        rw [enter_idle_poll, ht]
        exact not_not.mpr rfl
      have hidle := (enter_quiet t .idle (.inl htopen)).trans
        (enter_quiet (enter t .idle).1 .idle (.inl (enter_open htopen (by decide))))
      have hall := herror.trans hidle
      rw [← hmore, List.append_assoc, ht] at hall
      exact hall
  · rename_i herror
    rw [if_neg (h.resolve_left herror)]
    have hmismatch : Quiet v ({ v with
        poll := { v.poll with mlremain := vwtpRemain v.poll f } }, []) :=
      ⟨rfl, hremain, fun hready => ⟨hready.state, hready.bus⟩⟩
    exact hmismatch.trans (enter_quiet _ _ (.inl hopen))

/-- A frame in the receive state that is not accepted as data. -/
theorem receiveReceive_quiet (hhears : v.channel.Hears msgid)
    (hstate : v.channel.state = .receive) (h : ¬ AcceptsData v f msgid) :
    Quiet v (receiveReceive v f msgid).call := by
  have hopen : v.channel.state ≠ .closed := by
    rw [hstate]
    decide
  obtain ⟨t, ht⟩ : ∃ t : VwtpPoller, t =
      { v with channel := { v.channel with rxseqnr := v.channel.rxseqnr + 1 } } := ⟨_, rfl⟩
  have hcounted : Quiet v (t, []) := by
    rw [ht]
    exact .of_same rfl rfl rfl rfl rfl
  have htopen : t.channel.state ≠ .closed := ht ▸ hopen
  rw [receiveReceive]
  simp only
  split
  · exact .of_same (packets_writeChannel _ _ _) rfl rfl rfl rfl
  · split
    · exact closeChannel_quiet hopen
    · split
      · rename_i hopcode
        split
        · exact .enter_of_same _ hopen rfl rfl rfl rfl
        · rename_i hsequence
          have hrefused : (vwtpMeta v.poll f).IsError v.poll ∨
              ¬ (vwtpMeta v.poll f).Matches v.poll := by
            by_contra hnot
            obtain ⟨hpositive, hmatched⟩ := not_or.mp hnot
            exact h ⟨hhears, hstate, hopcode, not_not.mp hsequence, hpositive,
              not_not.mp hmatched⟩
          have hdata : Quiet t (receiveVwtpData t f msgid).call :=
            receiveVwtpData_quiet htopen (by rw [ht]; exact hrefused)
          have hall := hcounted.trans hdata
          rw [ht] at hall
          exact hall
      · exact .refl v

/-- The switch, for a frame that is not accepted as data. -/
theorem receiveState_quiet (hhears : v.channel.Hears msgid) (h : ¬ AcceptsData v f msgid) :
    Quiet v (receiveState v f msgid).call := by
  have hopen : v.channel.state ≠ .closed := fun hclosed => hhears (.inl hclosed)
  rw [receiveState]
  split
  · exact receiveSetup_quiet hopen
  · exact receiveParams_quiet hopen
  · exact receiveClose_quiet
  · exact receiveIdle_quiet hopen
  · exact receiveTransmit_quiet hopen
  · rename_i hstate
    exact receiveReceive_quiet hhears hstate h
  · exact .refl v
  · exact .refl v
  · exact .refl v

theorem packets_pollerSucceededPollNext (s : Poller) :
    packets (pollerSucceededPollNext s).2 = [] := by
  rw [pollerSucceededPollNext]
  simp only
  split <;> rfl

/-- The end of a call, behind the switch. -/
theorem vwtpReceive_of_state {r : Outcome} (hhears : v.channel.Hears msgid)
    (hr : receiveState v f msgid = r) :
    ∃ type effects, packets effects = [] ∧
      (vwtpReceive v f msgid).1 = { r.state with poll := { r.state.poll with type := type } } ∧
        (vwtpReceive v f msgid).2.effects = r.effects ++ effects := by
  rw [vwtpReceive, if_neg (not_not.mpr hhears), hr]
  simp only
  cases r.returned with
  | some handled => exact ⟨r.state.poll.type, [], rfl, rfl, (List.append_nil _).symm⟩
  | none =>
      simp only
      split
      · exact ⟨r.state.poll.type, [], rfl, rfl, (List.append_nil _).symm⟩
      · exact ⟨0, _, packets_pollerSucceededPollNext _, rfl, rfl⟩

/-- **A frame that is not accepted as data** hands over nothing. -/
theorem receive_quiet (h : ¬ AcceptsData v f msgid) :
    Quiet v ((vwtpReceive v f msgid).1, (vwtpReceive v f msgid).2.effects) := by
  by_cases hhears : v.channel.Hears msgid
  · obtain ⟨type, effects, hsilent, hstate, heffects⟩ :=
      vwtpReceive_of_state (f := f) hhears rfl
    have hnext : Quiet (receiveState v f msgid).state
        ((vwtpReceive v f msgid).1, effects) := by
      rw [hstate]
      exact .of_same hsilent rfl rfl rfl rfl
    rw [heffects]
    exact (receiveState_quiet hhears h).trans hnext
  · rw [vwtpReceive, if_pos hhears]
    exact .refl v

/-- **An accepted frame** is one packet. More data is expected while something remains, and
a ready channel stays ready. -/
theorem receive_acceptsData (h : AcceptsData v f msgid) :
    packets (vwtpReceive v f msgid).2.effects = [vwtpDeliver v.poll f msgid] ∧
      (vwtpReceive v f msgid).1.poll.mlremain = (vwtpDeliver v.poll f msgid).job.mlremain ∧
      (vwtpReceive v f msgid).1.poll.mlframe =
        (if (vwtpDeliver v.poll f msgid).job.mlremain ≠ 0 then v.poll.mlframe + 1
        else v.poll.mlframe) ∧
      (v.channel.Ready → (vwtpReceive v f msgid).1.channel.Ready) := by
  obtain ⟨p, hp⟩ : ∃ p, p = vwtpDeliver v.poll f msgid := ⟨_, rfl⟩
  obtain ⟨t, ht⟩ : ∃ t : VwtpPoller, t =
      { v with channel := { v.channel with rxseqnr := v.channel.rxseqnr + 1 } } := ⟨_, rfl⟩
  obtain ⟨next, hnext⟩ : ∃ next, next =
      vwtpMore { t with poll := p.job } (vwtpMeta v.poll f).datalen := ⟨_, rfl⟩
  have hdata : ∃ ack, packets ack = [] ∧
      receiveState v f msgid = ⟨next.1, ack ++ .packet p :: next.2, none⟩ := by
    refine ⟨_, packets_ack t.channel (f.u8 0), ?_⟩
    have hping : f.u8 0 ≠ 0xA3 := fun heq => absurd (heq ▸ h.opcode) (by decide)
    have hclose : f.u8 0 ≠ 0xA8 := fun heq => absurd (heq ▸ h.opcode) (by decide)
    rw [receiveState, h.state]
    simp only
    rw [receiveReceive, if_neg hping, if_neg hclose, if_pos h.opcode]
    simp only
    rw [if_neg (not_not.mpr h.sequence), receiveVwtpData]
    simp only [if_neg h.positive, if_pos h.matched]
    rw [hnext, hp, ht]
  have hmore : packets next.2 = [] ∧ next.1.poll.mlremain = p.job.mlremain ∧
      next.1.poll.mlframe =
        (if p.job.mlremain ≠ 0 then p.job.mlframe + 1 else p.job.mlframe) ∧
      (v.channel.Ready → next.1.channel.Ready) := by
    have hready : v.channel.Ready → t.channel.Ready := by
      rw [ht]
      exact fun hready => ⟨hready.state, hready.bus⟩
    have hopen : t.channel.state ≠ .closed := by
      rw [ht]
      exact fun hclosed => absurd (h.state.symm.trans hclosed) (by decide)
    rw [hnext, vwtpMore]
    split
    · exact ⟨rfl, rfl, rfl, hready⟩
    · have hquiet := enter_quiet { t with poll := p.job } .idle (.inl hopen)
      rw [enter_idle_poll]
      exact ⟨hquiet.silent, rfl, rfl, fun h => hquiet.ready (hready h)⟩
  obtain ⟨ack, hack, hstate⟩ := hdata
  obtain ⟨type, effects, hsilent, hstate', heffects⟩ := vwtpReceive_of_state h.hears hstate
  rw [hstate', heffects, ← hp]
  obtain ⟨hpackets, hremain, hframe, hready⟩ := hmore
  refine ⟨?_, hremain, ?_, hready⟩
  · rw [packets_append, packets_append, hack, hsilent]
    exact congrArg (p :: ·) ((List.append_nil _).trans hpackets)
  · refine hframe.trans ?_
    rw [hp]
    rfl

end Frame

/-! ### Runs -/

/-- The dispatch of a poll entry is quiet. -/
theorem vwtpSendEntry_quiet (v : VwtpPoller) (entry : PollPid) :
    Quiet v (vwtpSendEntry v entry) := by
  obtain ⟨hsilent, hremain, hready⟩ := vwtpStart_quiet
    { v with
      poll :=
        { v.poll with
          entry := entry, protocol := entry.protocol, type := entry.type,
          pid := entry.args.pid } }
  exact ⟨hsilent, hremain, hready⟩

/-- A call that is not a frame. -/
theorem next_quiet (v : VwtpPoller) {e : VwtpEvent} (he : ∀ f msgid, e ≠ .receive f msgid) :
    Quiet v (vwtpNext v e, []) := by
  have hstate {r : VwtpPoller × List Effect} (h : Quiet v r) : Quiet v (r.1, []) :=
    ⟨rfl, h.remain, h.ready⟩
  cases e with
  | receive f msgid => exact absurd rfl (he f msgid)
  | send entry => exact hstate (vwtpSendEntry_quiet v entry)
  | sent success => exact hstate (vwtpTxCallback_quiet v success)
  | tick recent inactive => exact hstate (vwtpTicker_quiet v recent inactive)
  | expire => exact .of_same rfl rfl rfl rfl rfl

end Ovms.Poll
