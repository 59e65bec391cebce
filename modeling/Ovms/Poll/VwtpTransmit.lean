import Ovms.Poll.VwtpStep
import Ovms.Poll.Transmit

/-!
# Transmission over VW-TP

A request goes out in blocks of data frames, and the peer acknowledges each block. The
first block is sent on the way from the poll start into the transmit state. An acknowledge
with bytes left to send is to enter the transmit state again; but a transition to the state
the channel is in already returns at once, and the channel stays where it is. So a request
is complete exactly when it fits into one block, whatever the peer acknowledges.

## Main results

* `sendBlock_spec`, `startBlock_spec`: what a block of frames carries, by induction on its
  size.
* `receive_ack`: an acknowledge writes nothing.
* `vwtp_transmit_iff`: a request is complete exactly when it fits into one block.
-/

open Ovms.Can

namespace Ovms.Poll

/-! ### Data frames -/

/-- The bytes that belong to a frame by its length code, behind the first ones. -/
def content (skip : ℕ) (f : CanFrame) : List UInt8 := (f.data.take f.dlc.val).drop skip

/-- The message that data frames carry: the first one has an opcode and the length of the
message before it, the others have an opcode. -/
def messageOf : List CanFrame → List UInt8
  | [] => []
  | f :: frames => content 3 f ++ frames.flatMap (content 1)

/-- The opcode of a frame ends the message. -/
def EndsMessage (f : CanFrame) : Prop := f.u8 0 &&& 0xf0 = 0x10

instance (f : CanFrame) : Decidable (EndsMessage f) := inferInstanceAs (Decidable (_ = _))

/-- The frames carry the request, every byte once and in order, and the last one ends the
message. -/
structure Complete (entry : PollPid) (frames : List CanFrame) : Prop where
  message : messageOf frames = entry.request
  last : ∃ f, frames.getLast? = some f ∧ EndsMessage f

theorem take_fill {bytes : List UInt8} (h : bytes.length ≤ 8) (tail : List UInt8) :
    (fill 0 (bytes ++ tail)).take bytes.length = bytes := by
  rw [fill, List.take_take, Nat.min_eq_left h, List.append_assoc, List.take_left]

theorem content_channelFrame (c : Channel) (bus : ℕ) {bytes : List UInt8}
    (h : bytes.length ≤ 8) (prev : List UInt8) (skip : ℕ) :
    content skip (channelFrame c bus bytes prev) = bytes.drop skip := by
  have hdlc : (lengthCode bytes.length).val = bytes.length := val_lengthCode (by omega)
  change ((fill 0 (bytes ++ prev.drop bytes.length)).take (lengthCode bytes.length).val).drop
    skip = _
  rw [hdlc, take_fill h]

theorem u8_channelFrame (c : Channel) (bus : ℕ) {byte : UInt8} {bytes : List UInt8}
    (prev : List UInt8) : (channelFrame c bus (byte :: bytes) prev).u8 0 = byte := rfl

/-- The opcode is the upper four bits of the first byte. -/
theorem opcode_or_seqNibble (opcode : UInt8) (seqnr : UInt32) :
    (opcode ||| seqNibble seqnr) &&& 0xf0 = opcode &&& 0xf0 := by
  have hlow : seqNibble seqnr &&& 0xf0 = 0 := by
    rw [seqNibble, UInt32.toUInt8_and, UInt8.and_assoc]
    exact UInt8.and_zero
  apply UInt8.toNat_inj.mp
  rw [UInt8.toNat_and, UInt8.toNat_or, Nat.and_or_distrib_right, ← UInt8.toNat_and,
    ← UInt8.toNat_and, hlow]
  exact Nat.or_zero _

/-! ### A block of frames -/

/-- What a transmission has still to send. -/
structure Pending (s : Poller) (rest : List UInt8) : Prop where
  remain : s.txRemain.toNat = rest.length
  data : (s.txData.drop s.txOffset.toNat).take rest.length = rest
  length_le : s.txOffset.toNat + rest.length < 65536

theorem Pending.eq_nil {s : Poller} {rest : List UInt8} (h : Pending s rest) :
    s.txRemain = 0 ↔ rest = [] := by
  rw [← UInt16.toNat_inj, h.remain]
  exact List.length_eq_zero_iff

/-- **Step lemma.** The next frame has the next bytes, and the bytes behind them are left. -/
theorem Pending.step {v : VwtpPoller} {rest : List UInt8} (h : Pending v.poll rest) (room : ℕ)
    (hroom : room = 7 - (vwtpHeader v.poll).length) (left : ℕ) :
    (∃ opcode, vwtpBytes v left =
        (opcode ||| seqNibble v.channel.txseqnr) :: (vwtpHeader v.poll ++ rest.take room) ∧
      (opcode &&& 0xf0 = 0x10 ↔ rest.drop room = [])) ∧
      Pending (vwtpSent v).poll (rest.drop room) := by
  have hlength := h.length_le
  have hmin : vwtpRoom v.poll = min v.poll.txRemain.toNat room := by
    rw [vwtpRoom, hroom]
  obtain ⟨hbytes, hremain, hoffset, hdata⟩ := counters_sent room h.remain h.data h.length_le
  rw [← hmin] at hbytes hremain hoffset hdata
  have hnext : Pending (vwtpSent v).poll (rest.drop room) := by
    refine ⟨hremain, hdata, ?_⟩
    change (v.poll.txOffset + .ofNat _).toNat + _ < _
    rw [hoffset, List.length_drop]
    omega
  refine ⟨⟨_, by rw [vwtpBytes, hbytes]; rfl, ?_⟩, hnext⟩
  rw [← hnext.eq_nil]
  split
  · rename_i hlast
    exact iff_of_true rfl hlast
  · rename_i hmore
    split
    · exact iff_of_false (by decide) hmore
    · exact iff_of_false (by decide) hmore

theorem length_vwtpHeader_le (s : Poller) : (vwtpHeader s).length ≤ 6 := by
  have := pidLen_le s.entry.type.toNat
  rw [vwtpHeader]
  split
  · simp only [List.length_cons, length_pidBytes]
    omega
  · exact Nat.zero_le 6

/-- Behind the first frame of a message there is no header. -/
theorem vwtpHeader_sent {v : VwtpPoller} (h : v.poll.txFrame.toNat + 1 < 65536) :
    vwtpHeader (vwtpSent v).poll = [] := by
  refine if_neg fun hzero => ?_
  have hcounted : (v.poll.txFrame + 1).toNat = v.poll.txFrame.toNat + 1 := by
    rw [UInt16.toNat_add]
    exact Nat.mod_eq_of_lt h
  have hzero' : (v.poll.txFrame + 1).toNat = 0 := congrArg UInt16.toNat hzero
  omega

/-- A frame that is written carries the header and the next bytes behind its opcode, and
ends the message exactly when no byte is left. -/
theorem frame_spec {v : VwtpPoller} {rest : List UInt8} {bus room : ℕ} (h : Pending v.poll rest)
    (hroom : room = 7 - (vwtpHeader v.poll).length) (hbus : v.channel.bus = some bus) (left : ℕ)
    (prev : List UInt8) :
    ∃ f, writeChannel v.channel (vwtpBytes v left) prev = [.write f] ∧
      (∀ skip, content (skip + 1) f = (vwtpHeader v.poll ++ rest.take room).drop skip) ∧
      (EndsMessage f ↔ rest.drop room = []) := by
  obtain ⟨⟨opcode, hbytes, hopcode⟩, -⟩ := h.step room hroom left
  have hheader := length_vwtpHeader_le v.poll
  have hlength : (vwtpBytes v left).length ≤ 8 := by
    rw [hbytes, List.length_cons, List.length_append, List.length_take]
    omega
  refine ⟨channelFrame v.channel bus (vwtpBytes v left) prev, ?_, fun skip => ?_, ?_⟩
  · rw [writeChannel, hbus]
  · rw [content_channelFrame _ _ hlength, hbytes]
    rfl
  · rw [← hopcode, EndsMessage, hbytes, u8_channelFrame, opcode_or_seqNibble]

/-- **A block** of `n + 1` frames, the first of which has room for `room` bytes: together
they carry the next `room + 7 * n` bytes, and the last one ends the message exactly when
these are all. -/
theorem sendBlock_spec {bus : ℕ} (n : ℕ) : ∀ {v : VwtpPoller} {rest : List UInt8} {room : ℕ}
    (prev : List UInt8), Pending v.poll rest → room = 7 - (vwtpHeader v.poll).length →
    v.poll.txFrame.toNat + n < 65536 → v.channel.bus = some bus →
    ∃ f frames, writes (sendBlock (n + 1) v prev).2 = f :: frames ∧
      (∀ skip, content (skip + 1) f = (vwtpHeader v.poll ++ rest.take room).drop skip) ∧
      frames.flatMap (content 1) = (rest.drop room).take (7 * n) ∧
      ∃ g, (f :: frames).getLast? = some g ∧ (EndsMessage g ↔ rest.length ≤ room + 7 * n) := by
  induction n with
  | zero =>
      intro v rest room prev h hroom _ hbus
      obtain ⟨f, hwrite, hcontent, hends⟩ := frame_spec h hroom hbus 0 prev
      have hwrites : writes (sendBlock 1 v prev).2 = [f] := by
        rw [sendBlock, hwrite]
        simp only
        split <;> rfl
      refine ⟨f, [], hwrites, hcontent, List.take_zero.symm, f, rfl, ?_⟩
      rw [hends]
      exact List.drop_eq_nil_iff
  | succ n ih =>
      intro v rest room prev h hroom hcount hbus
      obtain ⟨f, hwrite, hcontent, hends⟩ := frame_spec h hroom hbus (n + 1) prev
      obtain ⟨-, hnext⟩ := h.step room hroom (n + 1)
      have hdrop : (rest.drop room).length = rest.length - room := List.length_drop
      rw [sendBlock, hwrite]
      by_cases hlast : rest.drop room = []
      · have hle : rest.length ≤ room := List.drop_eq_nil_iff.mp hlast
        simp only [if_pos (hnext.eq_nil.mpr hlast)]
        refine ⟨f, [], rfl, hcontent, by rw [hlast]; rfl, f, rfl, ?_⟩
        exact iff_of_true (hends.mpr hlast) (by omega)
      · have hheader := vwtpHeader_sent (v := v) (by omega)
        have hroom' : 7 = 7 - (vwtpHeader (vwtpSent v).poll).length := by
          rw [hheader]
          rfl
        have hcounted : (v.poll.txFrame + 1).toNat ≤ v.poll.txFrame.toNat + 1 := by
          rw [UInt16.toNat_add]
          exact Nat.mod_le _ _
        obtain ⟨f', frames, hwrites, hcontent', hrest, g, hg, hgends⟩ :=
          ih (vwtpBytes v (n + 1) ++ prev.drop (vwtpBytes v (n + 1)).length) hnext
            hroom' (Nat.lt_of_le_of_lt (Nat.add_le_add_right hcounted n) (by omega)) hbus
        simp only [if_neg (mt hnext.eq_nil.mp hlast)]
        refine ⟨f, f' :: frames, congrArg (f :: ·) hwrites, hcontent, ?_, g, ?_, ?_⟩
        · rw [List.flatMap_cons, hcontent' 0, hheader, hrest, Nat.mul_succ, Nat.add_comm,
            List.take_add]
          rfl
        · rw [List.getLast?_cons, hg]
          rfl
        · rw [hgends, hdrop]
          have hmore : ¬ rest.length ≤ room := fun hle => hlast (List.drop_eq_nil_iff.mpr hle)
          omega

/-! ### The start -/

/-- The payload bytes that fit into the first block: what the first frame has room for
behind its header, and seven in each of the others. -/
def blockRoom (entry : PollPid) (blocksize : UInt8) : ℕ :=
  4 - pidLen entry.type.toNat + 7 * (blocksize.toNat - 1)

/-- An entry has less than 65536 bytes of payload, as lengths are stored in 16 bits. -/
theorem txData_lt (a : PollArgs) : a.txData.2 < 65536 := by
  rw [PollArgs.txData]
  split
  · cases a.rest with
    | inline data =>
        have hlow := (data.getD 0 0).toNat_lt
        have hhigh := (data.getD 1 0).toNat_lt
        change (data.getD 0 0).toNat + 256 * (data.getD 1 0).toNat < 65536
        omega
    | external datalen data => exact datalen.toNat_lt
  · have := a.tag.toNat_lt
    change a.tag.toNat < 65536
    omega

/-- The start of a request has its payload to send. -/
theorem pending_startPoll (v : VwtpPoller) (hsized : v.poll.entry.args.Sized) :
    Pending (startPoll v).poll v.poll.entry.args.payload := by
  have hlt := txData_lt v.poll.entry.args
  have hlength := hsized.length_payload
  refine ⟨?_, ?_, ?_⟩
  · rw [hlength]
    exact Nat.mod_eq_of_lt hlt
  · rw [hlength]
    rfl
  · rw [hlength]
    change 0 + _ < _
    omega

/-- The first frame of a request has the length of the message, type and PID behind the
opcode. -/
theorem vwtpHeader_startPoll (v : VwtpPoller) :
    ∃ high low, vwtpHeader (startPoll v).poll = high :: low :: requestHeader v.poll.entry :=
  ⟨_, _, if_pos rfl⟩

/-- **The first block** carries type, PID and as much of the payload as a block has room
for, and its last frame ends the message exactly when this is all of the payload. -/
theorem startBlock_spec {v : VwtpPoller} {bus : ℕ} (hbus : v.channel.bus = some bus)
    (hblock : 1 ≤ v.channel.blocksize) (hsized : v.poll.entry.args.Sized) :
    messageOf (writes (enterTransmit (startPoll v)).2) =
        requestHeader v.poll.entry ++
          v.poll.entry.args.payload.take (blockRoom v.poll.entry v.channel.blocksize) ∧
      ∃ f, (writes (enterTransmit (startPoll v)).2).getLast? = some f ∧
        (EndsMessage f ↔
          v.poll.entry.args.payload.length ≤ blockRoom v.poll.entry v.channel.blocksize) := by
  obtain ⟨n, hn⟩ : ∃ n, v.channel.blocksize.toNat = n + 1 := by
    have : 1 ≤ v.channel.blocksize.toNat := UInt8.le_iff_toNat_le.mp hblock
    exact ⟨v.channel.blocksize.toNat - 1, by omega⟩
  have hsize := v.channel.blocksize.toNat_lt
  obtain ⟨high, low, hheader⟩ := vwtpHeader_startPoll v
  have hroom : 4 - pidLen v.poll.entry.type.toNat =
      7 - (vwtpHeader (startPoll v).poll).length := by
    rw [hheader, List.length_cons, List.length_cons, (length_requestHeader _).1]
    omega
  have hframe : (startPoll v).poll.txFrame.toNat = 0 := rfl
  obtain ⟨f, frames, hwrites, hcontent, hrest, g, hg, hgends⟩ := sendBlock_spec n
    (List.replicate 8 0) (pending_startPoll v hsized) hroom (by omega) hbus
  have hblockRoom : blockRoom v.poll.entry v.channel.blocksize =
      4 - pidLen v.poll.entry.type.toNat + 7 * n := by
    rw [blockRoom, hn]
    rfl
  have henter : writes (enterTransmit (startPoll v)).2 = f :: frames := by
    have hcount : (startPoll v).channel.blocksize.toNat = n + 1 := hn
    rw [← hwrites, enterTransmit, hcount]
  rw [henter, hblockRoom]
  refine ⟨?_, g, hg, hgends⟩
  rw [messageOf, hcontent 2, hheader, hrest, List.take_add, ← List.append_assoc]
  rfl

/-! ### Acknowledges -/

/-- An acknowledge of the peer of a channel. The code does not look at its sequence
number. -/
structure AckFrame (c : Channel) (f : CanFrame) : Prop where
  msgId : f.msgId = c.rxid.toUInt32
  dlc : f.dlc.val = 1
  opcode : f.u8 0 &&& 0xf0 = 0xB0

/-- A poll is on its way: the poller waits for an acknowledge or for the response. -/
structure Sent (v : VwtpPoller) (rxid : UInt16) : Prop where
  state : v.channel.state = .transmit ∨ v.channel.state = .receive
  bus : v.channel.bus.isSome
  rxid_eq : v.channel.rxid = rxid
  waiting : v.poll.waiting = true

/-- **An acknowledge** writes nothing, with and without bytes left to send. -/
theorem receive_ack {v : VwtpPoller} {f : CanFrame} {c : Channel} (h : Sent v c.rxid)
    (hf : AckFrame c f) :
    writes (vwtpReceive v f f.msgId).2.effects = [] ∧ Sent (vwtpReceive v f f.msgId).1 c.rxid := by
  have hhears : v.channel.Hears f.msgId := by
    rintro (hclosed | hnone | hmsgid)
    · rcases h.state with hstate | hstate
      · exact absurd (hstate.symm.trans hclosed) (by decide)
      · exact absurd (hstate.symm.trans hclosed) (by decide)
    · have := h.bus
      rw [hnone] at this
      cases this
    · exact hmsgid (by rw [hf.msgId, h.rxid_eq])
  have hstate : ∃ t, receiveState v f f.msgId = ⟨t, [], none⟩ ∧ Sent t c.rxid := by
    rw [receiveState]
    rcases h.state with htransmit | hreceive
    · rw [htransmit]
      simp only [receiveTransmit, shortOpcode, if_pos hf.dlc, if_pos hf.opcode]
      split
      · -- the channel is in the transmit state already
        rw [enter.eq_def, if_pos htransmit]
        exact ⟨_, rfl, h⟩
      · rw [enter.eq_def, if_neg (by rw [htransmit]; decide)]
        exact ⟨_, rfl, .inr rfl, h.bus, h.rxid_eq, rfl⟩
    · have hopcode := hf.opcode
      rw [hreceive]
      simp only [receiveReceive]
      rw [if_neg (fun heq => absurd (heq ▸ hopcode) (by decide)),
        if_neg (fun heq => absurd (heq ▸ hopcode) (by decide)), if_neg]
      · exact ⟨_, rfl, h⟩
      · intro hlt
        have hle : (f.u8 0 &&& 0xf0).toNat ≤ (f.u8 0).toNat := by
          rw [UInt8.toNat_and]
          exact Nat.and_le_left
        rw [hopcode] at hle
        exact absurd (UInt8.lt_iff_toNat_lt.mp hlt) (Nat.not_lt.mpr (Nat.le_trans (by decide) hle))
  obtain ⟨t, ht, hsent⟩ := hstate
  rw [vwtpReceive, if_neg (not_not.mpr hhears), ht]
  simp only [if_pos hsent.waiting]
  exact ⟨rfl, hsent⟩

/-- A run of received frames. -/
def acknowledged (v : VwtpPoller) (acks : List CanFrame) : VwtpPoller × List Reply :=
  Lib.runOut (fun v f => vwtpReceive v f f.msgId) v acks

/-- **A run of acknowledges** writes nothing. -/
theorem writesOf_acknowledged {c : Channel} (acks : List CanFrame) :
    ∀ {v : VwtpPoller}, Sent v c.rxid → (∀ f ∈ acks, AckFrame c f) →
      writesOf (acknowledged v acks).2 = [] := by
  induction acks with
  | nil =>
      intro v _ _
      rfl
  | cons f acks ih =>
      intro v h hacks
      obtain ⟨hf, hrest⟩ := List.forall_mem_cons.mp hacks
      obtain ⟨hwrites, hnext⟩ := receive_ack h hf
      have hrun := ih hnext hrest
      change writes (vwtpReceive v f f.msgId).2.effects ++
        writesOf (acknowledged (vwtpReceive v f f.msgId).1 acks).2 = []
      rw [hwrites, hrun]
      rfl

/-! ### Requests -/

/-- The frames of a request: the first block, and what the acknowledges have sent. -/
def vwtpTransmitted (v : VwtpPoller) (acks : List CanFrame) : List CanFrame :=
  writes (enter v .startPoll).2 ++ writesOf (acknowledged (enter v .startPoll).1 acks).2

/-- **Transmission.** On every open channel, for every request and every block size of at
least one, and for every run of acknowledges: the frames carry the whole request, and the
last one ends the message, exactly when the payload fits into the first block. -/
theorem vwtp_transmit_iff {v : VwtpPoller} {acks : List CanFrame} (hready : v.channel.Ready)
    (hopen : v.channel.state ≠ .closed) (hblock : 1 ≤ v.channel.blocksize)
    (hsized : v.poll.entry.args.Sized) (hacks : ∀ f ∈ acks, AckFrame v.channel f) :
    Complete v.poll.entry (vwtpTransmitted v acks) ↔
      v.poll.entry.args.txData.2 ≤ blockRoom v.poll.entry v.channel.blocksize := by
  obtain ⟨bus, hbus⟩ := Option.isSome_iff_exists.mp (hready.bus hopen)
  have henter : enter v .startPoll = enterTransmit (startPoll v) := by
    rw [enter.eq_def, if_neg hready.state]
  have hsent : Sent (enter v .startPoll).1 v.channel.rxid := by
    obtain ⟨remain, offset, frame, seqnr, hblock⟩ := sendBlock_fst
      (startPoll v).channel.blocksize.toNat (startPoll v) (List.replicate 8 0)
    rw [henter, enterTransmit, hblock]
    exact ⟨.inl rfl, hready.bus hopen, rfl, rfl⟩
  have hframes : vwtpTransmitted v acks = writes (enterTransmit (startPoll v)).2 := by
    rw [vwtpTransmitted, writesOf_acknowledged acks hsent hacks, List.append_nil, henter]
  obtain ⟨hmessage, f, hf, hends⟩ := startBlock_spec hbus hblock hsized
  rw [hframes, ← hsized.length_payload]
  constructor
  · rintro ⟨-, g, hg, hgends⟩
    obtain rfl : f = g := Option.some.inj (hf.symm.trans hg)
    exact hends.mp hgends
  · intro hfits
    refine ⟨?_, f, hf, hends.mpr hfits⟩
    rw [hmessage, List.take_of_length_le hfits]
    rfl

/-- An open channel with a request to send. -/
def openChannel (entry : PollPid) (blocksize : UInt8) : VwtpPoller where
  poll := { Poller.new 1 with entry := entry }
  channel :=
    { Channel.zero with
      state := .idle, bus := some 1, txid := 0x740, rxid := 0x300, blocksize := blocksize }

/-- An acknowledge on that channel, with the number of the frame expected next. -/
def ackOf (number : UInt8) : CanFrame := .zeroFilled 1 .std 0x300 1 [0xB0 ||| number]

/-- Ten bytes of payload fit into a block of three frames. -/
theorem vwtp_transmit_ten :
    Complete (zerosEntry 10) (vwtpTransmitted (openChannel (zerosEntry 10) 3) [ackOf 3]) := by
  have hacks : ∀ f ∈ [ackOf 3], AckFrame (openChannel (zerosEntry 10) 3).channel f :=
    List.forall_mem_singleton.mpr ⟨by decide, by decide, by decide⟩
  exact (vwtp_transmit_iff ⟨by decide, fun _ => rfl⟩ (by decide) (by decide)
    (sized_zerosEntry 10) hacks).mpr (by decide)

/-- They do not fit into a block of one frame, and the acknowledge of the frame leaves the
other eight unsent. -/
theorem vwtp_transmit_stalls :
    ¬ Complete (zerosEntry 10)
      (vwtpTransmitted (openChannel (zerosEntry 10) 1) [ackOf 1, ackOf 1, ackOf 1]) :=
  fun h => absurd h.message (by decide)

end Ovms.Poll
