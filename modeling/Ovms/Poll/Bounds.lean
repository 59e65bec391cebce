import Ovms.Poll.Receive

/-!
# Slices and Lengths

A slice that is handed over starts behind the header of the response, and its length is
the announced one less the header. Neither is checked: a frame may announce less than the
header it starts with, and a single frame in extended addressing, or one that announces
eight to fifteen bytes, more than it has.
-/

open Ovms.Can

namespace Ovms.Poll

/-- The bytes of the header of a response of a type: the type and the PID. -/
def headerLen (type : UInt8) : ℕ := 1 + pidLen (type.toNat - 0x40)

/-- The subtractions of lengths on a data frame that starts or continues a response, each
with what is subtracted from what: the header from the data section, unless the frame
starts an error response, and the data section from the remaining length. -/
def dataComputations (s : Poller) (f : CanFrame) (ft : FrameType) : List (ℕ × ℕ) :=
  let tp := tpMeta s f ft
  let header :=
    if ft = .consecutive ∨ f.u8 tp.data = udsRespTypeNrc then []
    else [(tp.datalen, headerLen (f.u8 tp.data))]
  let remaining :=
    if (responseMeta s f ft).IsError s ∨ ¬ (responseMeta s f ft).Matches s then []
    else [(tp.len, tp.datalen)]
  header ++ remaining

/-- The subtractions of lengths on the next consecutive frame of a transmission: what is
sent from what remains, and from the room in the frame. -/
def sendComputations (s : Poller) : List (ℕ × ℕ) :=
  let txDatasent := min s.txRemain.toNat (s.protocol.frMaxlen - 1)
  [(s.txRemain.toNat, txDatasent), (s.protocol.frMaxlen - 1, txDatasent)]

/-- Every subtraction of lengths in a call of `PollerISOTPReceive`. -/
def lengthComputations (s : Poller) (f : CanFrame) (msgid : UInt32) : List (ℕ × ℕ) :=
  if ¬ Listens s f msgid then []
  else
    match frameType (f.u8 s.protocol.frOffset) with
    | none => []
    | some .flowctrl =>
        (List.range (writes (receiveFlowCtrl s f).2.effects).length).flatMap fun i =>
          sendComputations (consecutiveSent^[i] s)
    | some .consecutive =>
        if BadIndex s (tpMeta s f .consecutive).frameindex then []
        else dataComputations s f .consecutive
    | some ft => dataComputations s f ft

/-- Every slice handed over lies inside the frame, and no subtraction of lengths goes below
zero. -/
def InBounds (s : Poller) (f : CanFrame) (msgid : UInt32) : Prop :=
  (∀ p ∈ packets (pollerIsotpReceive s f msgid).2.effects, p.slice.isSome) ∧
    ∀ c ∈ lengthComputations s f msgid, c.2 ≤ c.1

section Call

variable {s : Poller} {f : CanFrame} {msgid : UInt32}

end Call

/-! ### Runs -/

/-- The call of an event is in bounds. -/
def Event.InBounds (s : Poller) : Event → Prop
  | .receive f msgid => Poll.InBounds s f msgid
  | _ => True

end Ovms.Poll
