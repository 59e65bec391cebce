import Mathlib.Algebra.Order.Ring.Int
import Mathlib.Data.Int.Notation
import Mathlib.Data.List.Infix
import Mathlib.Logic.Function.Basic
import Mathlib.Tactic.Ring
import Ovms.Lib.Machine

/-!
# The PID Scanner

A scan of an ECU (`components/retools_pidscan/src/retools_pid.cpp`): one PID after the other is
requested, and what comes back is recorded, also when it comes in several frames. How many bytes of
such a response are still expected is one number for all senders, and what a consecutive frame
brings goes to the last result there is.

So a consecutive frame that continues something else is taken for a part of the last result, and
one that comes first has no result to go to. A single frame may claim more bytes than it has, and
the message for the log reads behind the end of a first frame. A first frame that needs no second
one goes on with the scan although it could not be answered, and the scan has ended.

## Main results

* `Running.sendNextFrame`: the scan goes on to the next PID, or ends.
* `good_along`: the scanner survives and attributes all data correctly exactly along the runs of
  expected frames.
* `scan_ends_in_silence`: the scan of a silent ECU is completed by ticks.
-/

open Lib

namespace Ovms.ReTools

/-! ### Frames -/

/-- A CAN frame. -/
structure Frame where
  msgID : ℕ
  data : Vector UInt8 8
  deriving DecidableEq, Repr

/-- A byte of a frame. What is behind its end is not known: it reads as zero here. -/
def Frame.byte (f : Frame) (i : ℕ) : ℕ := (f.data[i]?.getD 0).toNat

/-- The type of a frame, by ISO 15765-2: 0 for a single frame, 1 for a first one, 2 for a
consecutive one. -/
def Frame.frameType (f : Frame) : ℕ := f.byte 0 / 16

/-- The length in a single frame. -/
def Frame.singleLength (f : Frame) : ℕ := f.byte 0 % 16

/-- The length in a first frame. -/
def Frame.firstLength (f : Frame) : ℕ := f.byte 0 % 16 * 256 + f.byte 1

/-- A range of PIDs to scan, and what is needed for it. The end is reachable by the step. -/
structure Scan where
  rxidLow : ℕ
  rxidHigh : ℕ
  pollType : UInt8
  startPid : ℕ
  pidStep : ℕ
  /-- How many steps there are to the end. -/
  steps : ℕ
  timeout : UInt8
  pidStep_pos : 0 < pidStep
  endPid_le : startPid + steps * pidStep ≤ 65535

/-- The `n`-th PID. -/
def Scan.pid (c : Scan) (n : ℕ) : ℤ := c.startPid + n * c.pidStep

/-- `m_endPid`. -/
def Scan.endPid (c : Scan) : ℤ := c.pid c.steps

/-- All PIDs in order. -/
def Scan.pids (c : Scan) : List ℤ := (List.range (c.steps + 1)).map c.pid

/-- `POLL_TYPE_HAS_16BIT_PID`. -/
def Scan.has16BitPid (c : Scan) : Bool :=
  c.pollType ∈ ([0x22, 0x24, 0x2E, 0x2F, 0x05, 0x2A] : List UInt8)

/-- How many bytes are in front of the payload of a response. -/
def Scan.pidEnd (c : Scan) : ℕ := if c.has16BitPid then 3 else 2

/-- The PID of a response that starts at a byte of a frame. -/
def Scan.responsePid (c : Scan) (f : Frame) (data : ℕ) : ℕ :=
  if c.has16BitPid then f.byte (data + 1) * 256 + f.byte (data + 2) else f.byte (data + 1)

/-- The bytes at the start of a response are a positive one. -/
def Scan.Positive (c : Scan) (f : Frame) (data dataLength : ℕ) : Prop :=
  3 < dataLength ∧ f.byte data = c.pollType.toNat + 0x40

/-- They are a negative one. -/
def Scan.Negative (c : Scan) (f : Frame) (data dataLength : ℕ) : Prop :=
  dataLength = 3 ∧ f.byte data = 0x7F ∧ f.byte (data + 1) = c.pollType.toNat

instance (c : Scan) (f : Frame) (data dataLength : ℕ) :
    Decidable (c.Positive f data dataLength) := inferInstanceAs (Decidable (_ ∧ _))

instance (c : Scan) (f : Frame) (data dataLength : ℕ) :
    Decidable (c.Negative f data dataLength) := inferInstanceAs (Decidable (_ ∧ _ ∧ _))

/-! ### The scanner -/

/-- A byte of a result, with the PID whose response it came in a frame of, if any. -/
structure Byte where
  value : ℕ
  owner : Option ℕ
  deriving DecidableEq, Repr

/-- An element of `m_found`. -/
structure Result where
  rxid : ℕ
  pid : ℕ
  data : List Byte
  deriving DecidableEq, Repr

/-- What a sender is in the middle of: a response to a PID, or something else, and how many bytes
are to follow. -/
structure Transfer where
  pid : Option ℕ
  remain : ℕ
  deriving DecidableEq, Repr

/-- The members of `OvmsReToolsPidScanner` that change, with a record of the run. -/
structure Scanner where
  currentPid : ℤ
  ticker : UInt32
  lastFrame : UInt32
  mfRemain : ℕ
  found : List Result
  /-- The PIDs of the frames that were handed over for transmission. -/
  requested : List ℤ
  /-- A transmission failed. -/
  failed : Bool
  /-- A byte was read that is not in the frame. -/
  outside : Bool
  /-- Something was appended to a result where there is none. -/
  missing : Bool
  /-- What each sender is in the middle of. -/
  transfers : ℕ → Option Transfer

/-- `OvmsReToolsPidScanner::SendNextFrame`, with the result of `Write`. -/
def Scanner.sendNextFrame (c : Scan) (ok : Bool) (s : Scanner) : Scanner :=
  if s.currentPid = c.endPid then { s with currentPid := c.endPid + 1 }
  else
    let s :=
      { s with
        currentPid := s.currentPid + c.pidStep
        requested := s.requested ++ [s.currentPid + c.pidStep]
        mfRemain := 0 }
    if ok then { s with lastFrame := s.ticker }
    else { s with currentPid := c.endPid + 1, failed := true }

/-- `OvmsReToolsPidScanner::Ticker1`. -/
def Scanner.ticker1 (c : Scan) (ok : Bool) (s : Scanner) : Scanner :=
  let s := { s with ticker := s.ticker + 1 }
  if s.currentPid ≤ c.endPid ∧ c.timeout.toUInt32 < s.ticker - s.lastFrame then
    s.sendNextFrame c ok
  else s

/-- `OvmsReToolsPidScanner::FrameCallback`. -/
def Scanner.frameCallback (c : Scan) (success : Bool) (s : Scanner) : Scanner :=
  if success then s else { s with currentPid := c.endPid + 1, failed := true }

/-- The flow control frame of `IncomingPollFrame`, with the result of `Write`. -/
def Scanner.flowControl (c : Scan) (ok : Bool) (s : Scanner) : Scanner :=
  if ok then { s with lastFrame := s.ticker }
  else { s with currentPid := c.endPid + 1, failed := true }

/-- Bytes of a frame, from one on. -/
def Frame.bytes (f : Frame) (owner : Option ℕ) (start length : ℕ) : List Byte :=
  (List.range length).map fun i => ⟨f.byte (start + i), owner⟩

/-- Bytes are appended to the last result. -/
def Scanner.append (bytes : List Byte) (s : Scanner) : Scanner :=
  match s.found.getLast? with
  | none => { s with missing := true }
  | some r => { s with found := s.found.dropLast ++ [{ r with data := r.data ++ bytes }] }

/-- The PID whose response a consecutive frame continues. -/
def Scanner.owner (s : Scanner) (f : Frame) : Option ℕ := (s.transfers f.msgID).bind Transfer.pid

/-- A consecutive frame. -/
def Scanner.consecutive (c : Scan) (f : Frame) (next : Bool) (s : Scanner) : Scanner :=
  let dataLength := min 7 s.mfRemain
  let s := { s with mfRemain := s.mfRemain - dataLength }.append
    (f.bytes (s.owner f) 1 dataLength)
  if s.mfRemain = 0 then s.sendNextFrame c next else { s with lastFrame := s.ticker }

/-- A response is recorded. The message for the log has four bytes of its payload, however many
there are. -/
def Scanner.record (c : Scan) (f : Frame) (data dataLength : ℕ) (s : Scanner) : Scanner :=
  let payload := data + c.pidEnd
  let payloadLength := dataLength - c.pidEnd
  { s with
    outside := s.outside || decide (8 < payload + 4) || decide (8 < payload + payloadLength)
    found := s.found ++ [⟨f.msgID, c.responsePid f data,
      f.bytes (some (c.responsePid f data)) payload payloadLength⟩] }

/-- The bytes at the start of a frame answer the current PID. -/
def Scanner.Answers (c : Scan) (s : Scanner) (f : Frame) (data dataLength : ℕ) : Prop :=
  c.Positive f data dataLength ∧ (c.responsePid f data : ℤ) = s.currentPid

instance (c : Scan) (s : Scanner) (f : Frame) (data dataLength : ℕ) :
    Decidable (s.Answers c f data dataLength) := inferInstanceAs (Decidable (_ ∧ _))

/-- A single or a first frame, with what it has of the response, and the results of transmitting
the flow control and the next request. -/
def Scanner.response (c : Scan) (f : Frame) (first : Bool) (data dataLength : ℕ)
    (flow next : Bool) (s : Scanner) : Scanner :=
  if c.Negative f data dataLength then
    -- The response may be pending.
    if f.byte (data + 2) = 0x78 then s else s.sendNextFrame c next
  else if s.Answers c f data dataLength then
    let s := (if first then s.flowControl c flow else s).record c f data dataLength
    if s.mfRemain = 0 then s.sendNextFrame c next else s
  else s

/-- The frame is looked at. -/
def Scanner.Accepts (c : Scan) (s : Scanner) (f : Frame) : Prop :=
  s.currentPid ≤ c.endPid ∧ c.rxidLow ≤ f.msgID ∧ f.msgID ≤ c.rxidHigh

instance (c : Scan) (s : Scanner) (f : Frame) : Decidable (s.Accepts c f) :=
  inferInstanceAs (Decidable (_ ∧ _ ∧ _))

/-- `OvmsReToolsPidScanner::IncomingPollFrame`. -/
def Scanner.incomingPollFrame (c : Scan) (f : Frame) (flow next : Bool) (s : Scanner) : Scanner :=
  if ¬ s.Accepts c f then s
  else if f.frameType = 0 then
    { s with mfRemain := 0 }.response c f false 1 f.singleLength flow next
  else if f.frameType = 1 then
    let dataLength := min 6 f.firstLength
    { s with mfRemain := f.firstLength - dataLength }.response c f true 2 dataLength flow next
  else if f.frameType = 2 then s.consecutive c f next
  else s

/-- What its sender is in the middle of after a frame. -/
def Scan.track (c : Scan) (f : Frame) (t : Option Transfer) : Option Transfer :=
  if f.frameType = 0 then none
  else if f.frameType = 1 then
    if f.firstLength ≤ 6 then none
    else some {
      pid := if c.Positive f 2 6 then some (c.responsePid f 2) else none
      remain := f.firstLength - 6 }
  else if f.frameType = 2 then
    t.bind fun t => if t.remain ≤ 7 then none else some { t with remain := t.remain - 7 }
  else t

/-- What happens. Transmissions come with whether `Write` takes the frame. -/
inductive Event where
  | frame (f : Frame) (flow next : Bool)
  | ticker1 (next : Bool)
  | frameCallback (success : Bool)

/-- An event is handled, and the record goes on. -/
def Scanner.step (c : Scan) (s : Scanner) : Event → Scanner
  | .frame f flow next =>
      { s.incomingPollFrame c f flow next with
        transfers := Function.update s.transfers f.msgID (c.track f (s.transfers f.msgID)) }
  | .ticker1 next => s.ticker1 c next
  | .frameCallback success => s.frameCallback c success

/-- What the constructor leaves. -/
def Scanner.init (c : Scan) (ok : Bool) : Scanner :=
  Scanner.sendNextFrame c ok
    { currentPid := c.startPid - c.pidStep
      ticker := 0
      lastFrame := 0
      mfRemain := 0
      found := []
      requested := []
      failed := false
      outside := false
      missing := false
      transfers := fun _ => none }

/-! ### What should hold -/

/-- Every result holds bytes of responses to its own PID only. -/
def Attributed (found : List Result) : Prop :=
  ∀ r ∈ found, ∀ b ∈ r.data, b.owner = some r.pid

/-- Nothing is read outside of a frame or appended to a result that does not exist, the results
are right, and the PIDs are requested in order, all of them when the scan is complete, unless a
transmission failed. -/
structure Good (c : Scan) (s : Scanner) : Prop where
  outside : s.outside = false
  missing : s.missing = false
  attributed : Attributed s.found
  ordered : s.requested <+: c.pids
  all : c.endPid < s.currentPid → s.failed = false → s.requested = c.pids

/-- A frame is expected: a single one has the bytes of its answer, a first one is no answer with a
PID of 16 bits, and one that is all of the answer can be acknowledged; a consecutive one finds a
result, and continues a response to its PID if something is still to come. -/
def Expected (c : Scan) (s : Scanner) : Event → Prop
  | .frame f flow _ =>
      s.Accepts c f →
        (f.frameType = 0 → s.Answers c f 1 f.singleLength → f.singleLength ≤ 7) ∧
        (f.frameType = 1 → s.Answers c f 2 (min 6 f.firstLength) →
          c.has16BitPid = false ∧ (flow = true ∨ 6 < f.firstLength)) ∧
        (f.frameType = 2 → ∃ r ∈ s.found.getLast?, 0 < s.mfRemain → s.owner f = some r.pid)
  | .ticker1 _ => True
  | .frameCallback _ => True

/-! ### The PIDs -/

variable {c : Scan} {s : Scanner} {f : Frame} {ok flow next first : Bool} {data dataLength : ℕ}

theorem pid_succ (c : Scan) (n : ℕ) : c.pid (n + 1) = c.pid n + c.pidStep := by
  rw [Scan.pid, Scan.pid]
  push_cast
  ring

theorem pid_lt_pid {m n : ℕ} : c.pid m < c.pid n ↔ m < n := by
  have hpos : (0 : ℤ) < c.pidStep := by exact_mod_cast c.pidStep_pos
  rw [Scan.pid, Scan.pid, add_lt_add_iff_left, mul_lt_mul_iff_left₀ hpos, Nat.cast_lt]

theorem le_endPid_of_mem {pid : ℤ} (h : pid ∈ c.pids) : pid ≤ c.endPid := by
  obtain ⟨n, hn, rfl⟩ := List.mem_map.mp h
  exact Int.not_lt.mp fun hlt =>
    Nat.not_lt_of_le (Nat.le_of_lt_succ (List.mem_range.mp hn)) (pid_lt_pid.mp hlt)

/-! ### What a run keeps -/

/-- The scan has requested so many PIDs. -/
def Running (c : Scan) (s : Scanner) : Prop :=
  ∃ n ≤ c.steps, s.currentPid = c.pid n ∧ s.requested = (List.range (n + 1)).map c.pid

/-- The scan is complete, or was ended. -/
def Done (c : Scan) (s : Scanner) : Prop :=
  s.currentPid = c.endPid + 1 ∧ s.requested <+: c.pids ∧
    (s.failed = false → s.requested = c.pids)

/-- What expected frames keep. -/
structure Sound (c : Scan) (s : Scanner) : Prop where
  outside : s.outside = false
  missing : s.missing = false
  attributed : Attributed s.found
  progress : Running c s ∨ Done c s

theorem Running.ordered (h : Running c s) : s.requested <+: c.pids := by
  obtain ⟨n, hn, -, hrequested⟩ := h
  have hrange : List.range (n + 1) <+: List.range (c.steps + 1) := by
    rw [List.prefix_iff_eq_take, List.length_range, List.take_range, Nat.min_eq_left (by omega)]
  rw [hrequested]
  exact hrange.map c.pid

theorem Running.le (h : Running c s) : s.currentPid ≤ c.endPid := by
  obtain ⟨n, hn, hcurrent, -⟩ := h
  rw [hcurrent]
  exact Int.not_lt.mp fun hlt => Nat.not_lt_of_le hn (pid_lt_pid.mp hlt)

theorem Sound.good (h : Sound c s) : Good c s where
  outside := h.outside
  missing := h.missing
  attributed := h.attributed
  ordered := h.progress.elim Running.ordered fun hdone => hdone.2.1
  all hcomplete hfailed := by
    rcases h.progress with hrun | hdone
    · exact absurd hrun.le (Int.not_le.mpr hcomplete)
    · exact hdone.2.2 hfailed

theorem Sound.running (h : Sound c s) (hle : s.currentPid ≤ c.endPid) : Running c s :=
  h.progress.resolve_right fun hdone => by
    have := hdone.1
    omega

/-- The PID behind the current one is requested, or the scan ends. -/
theorem progress_sendNextFrame {n : ℕ} (hn : n ≤ c.steps)
    (hcurrent : s.currentPid + c.pidStep = c.pid n)
    (hrequested : s.requested = (List.range n).map c.pid) (ok : Bool) :
    Running c (s.sendNextFrame c ok) ∨ Done c (s.sendNextFrame c ok) := by
  have hnext : Running c
      { s with
        currentPid := s.currentPid + c.pidStep
        requested := s.requested ++ [s.currentPid + c.pidStep] } := by
    refine ⟨n, hn, hcurrent, ?_⟩
    rw [hrequested, hcurrent, List.range_succ, List.map_append, List.map_singleton]
  have hne : s.currentPid ≠ c.endPid := fun hend => by
    have hle := hnext.le
    have hpos := c.pidStep_pos
    dsimp only at hle
    omega
  rw [Scanner.sendNextFrame, if_neg hne]
  dsimp only
  split
  · exact .inl hnext
  · exact .inr ⟨rfl, hnext.ordered, fun hfailed => absurd hfailed Bool.noConfusion⟩

/-- **The next PID** is requested, or the scan ends. -/
theorem Running.sendNextFrame (h : Running c s) (ok : Bool) :
    Running c (s.sendNextFrame c ok) ∨ Done c (s.sendNextFrame c ok) := by
  have hordered := h.ordered
  obtain ⟨n, hn, hcurrent, hrequested⟩ := h
  rcases Nat.lt_or_eq_of_le hn with hlt | rfl
  · exact progress_sendNextFrame hlt (by rw [pid_succ, hcurrent]) hrequested ok
  · have hend : s.currentPid = c.endPid := hcurrent
    rw [Scanner.sendNextFrame, if_pos hend]
    exact .inr ⟨rfl, hordered, fun _ => hrequested⟩

@[simp] theorem sendNextFrame_found : (s.sendNextFrame c ok).found = s.found := by
  rw [Scanner.sendNextFrame]
  split
  · rfl
  · split <;> rfl

@[simp] theorem sendNextFrame_outside : (s.sendNextFrame c ok).outside = s.outside := by
  rw [Scanner.sendNextFrame]
  split
  · rfl
  · split <;> rfl

@[simp] theorem sendNextFrame_missing : (s.sendNextFrame c ok).missing = s.missing := by
  rw [Scanner.sendNextFrame]
  split
  · rfl
  · split <;> rfl

theorem Sound.sendNextFrame (h : Sound c s) (hrun : Running c s) (ok : Bool) :
    Sound c (s.sendNextFrame c ok) where
  outside := sendNextFrame_outside.trans h.outside
  missing := sendNextFrame_missing.trans h.missing
  attributed := by
    rw [sendNextFrame_found]
    exact h.attributed
  progress := hrun.sendNextFrame ok

theorem Sound.terminate (h : Sound c s) :
    Sound c { s with currentPid := c.endPid + 1, failed := true } where
  outside := h.outside
  missing := h.missing
  attributed := h.attributed
  progress := .inr ⟨rfl, h.good.ordered, Bool.noConfusion⟩

theorem Sound.init (c : Scan) (ok : Bool) : Sound c (.init c ok) := by
  refine ⟨sendNextFrame_outside, sendNextFrame_missing, ?_, ?_⟩
  · rw [Scanner.init, sendNextFrame_found]
    exact fun _ hr => absurd hr List.not_mem_nil
  · refine progress_sendNextFrame (Nat.zero_le _) ?_ rfl ok
    rw [Scan.pid, Nat.cast_zero, zero_mul, add_zero]
    exact Int.sub_add_cancel _ _

/-! ### Expected frames -/

/-- Where there is a result, a consecutive frame is appended to the last one. -/
theorem consecutive_eq {r : Result} (hr : s.found.getLast? = some r) :
    s.consecutive c f next =
      let bytes := f.bytes (s.owner f) 1 (min 7 s.mfRemain)
      let t :=
        { s with
          mfRemain := s.mfRemain - min 7 s.mfRemain
          found := s.found.dropLast ++ [{ r with data := r.data ++ bytes }] }
      if t.mfRemain = 0 then t.sendNextFrame c next else { t with lastFrame := t.ticker } := by
  rw [Scanner.consecutive, Scanner.append]
  dsimp only
  rw [hr]

/-- Bytes of a response to the PID of the last result are appended to it. -/
theorem Attributed.append {found : List Result} (h : Attributed found) {r : Result}
    (hr : found.getLast? = some r) {bytes : List Byte}
    (hbytes : ∀ b ∈ bytes, b.owner = some r.pid) :
    Attributed (found.dropLast ++ [{ r with data := r.data ++ bytes }]) := by
  intro r' hr'
  rcases List.mem_append.mp hr' with hr' | hr'
  · exact h r' (List.mem_of_mem_dropLast hr')
  · obtain rfl := List.mem_singleton.mp hr'
    intro b hb
    rcases List.mem_append.mp hb with hb | hb
    · exact h r (List.mem_of_getLast? hr) b hb
    · exact hbytes b hb

theorem owner_of_mem_bytes {owner : Option ℕ} {start length : ℕ} {b : Byte}
    (hb : b ∈ f.bytes owner start length) : b.owner = owner := by
  obtain ⟨i, -, rfl⟩ := List.mem_map.mp hb
  rfl

theorem Sound.consecutive (h : Sound c s) (hrun : Running c s) {r : Result}
    (hr : s.found.getLast? = some r) (howner : 0 < s.mfRemain → s.owner f = some r.pid) :
    Sound c (s.consecutive c f next) := by
  have hbytes : ∀ b ∈ f.bytes (s.owner f) 1 (min 7 s.mfRemain), b.owner = some r.pid := by
    intro b hb
    rw [owner_of_mem_bytes hb]
    refine howner (Nat.pos_of_ne_zero fun hzero => ?_)
    rw [hzero] at hb
    exact List.not_mem_nil hb
  have hattributed := h.attributed.append hr hbytes
  rw [consecutive_eq hr]
  dsimp only
  split
  · refine Sound.sendNextFrame ?_ ?_ next
    · exact ⟨h.outside, h.missing, hattributed, .inl hrun⟩
    · exact hrun
  · exact ⟨h.outside, h.missing, hattributed, .inl hrun⟩

theorem Attributed.record (h : Attributed s.found) :
    Attributed (s.record c f data dataLength).found := by
  intro r hr
  rcases List.mem_append.mp hr with hr | hr
  · exact h r hr
  · obtain rfl := List.mem_singleton.mp hr
    exact fun b hb => owner_of_mem_bytes hb

theorem record_outside (hlong : c.pidEnd ≤ dataLength) :
    (s.record c f data dataLength).outside = false ↔
      s.outside = false ∧ data + c.pidEnd ≤ 4 ∧ data + dataLength ≤ 8 := by
  rw [Scanner.record]
  simp only [Bool.or_eq_false_iff, decide_eq_false_iff_not, Nat.not_lt, and_assoc]
  refine and_congr_right fun _ => ?_
  omega

theorem response_of_answers (h : s.Answers c f data dataLength) :
    s.response c f first data dataLength flow next =
      let t := (if first then s.flowControl c flow else s).record c f data dataLength
      if t.mfRemain = 0 then t.sendNextFrame c next else t := by
  have hnegative : ¬ c.Negative f data dataLength := fun hnegative =>
    Nat.lt_irrefl 3 (hnegative.1 ▸ h.1.1)
  rw [Scanner.response, if_neg hnegative, if_pos h]

/-- What anything else does: it is ignored, or the next PID is requested. -/
theorem response_of_not_answers (h : ¬ s.Answers c f data dataLength)
    (first flow next : Bool) :
    s.response c f first data dataLength flow next = s ∨
      s.response c f first data dataLength flow next = s.sendNextFrame c next := by
  rw [Scanner.response, if_neg h]
  split
  · split
    · exact .inl rfl
    · exact .inr rfl
  · exact .inl rfl

theorem pidEnd_le (c : Scan) : c.pidEnd ≤ 3 := by
  rw [Scan.pidEnd]
  split <;> omega

/-- A frame with an answer, all of which is in the frame, is recorded. -/
theorem Sound.response (h : Sound c s) (hrun : Running c s)
    (hanswers : s.Answers c f data dataLength →
      data + c.pidEnd ≤ 4 ∧ data + dataLength ≤ 8 ∧
        (first = true → flow = false → s.mfRemain ≠ 0)) :
    Sound c (s.response c f first data dataLength flow next) := by
  by_cases hanswer : s.Answers c f data dataLength
  · obtain ⟨hpidEnd, hlength, hflow⟩ := hanswers hanswer
    rw [response_of_answers hanswer]
    have hlong : c.pidEnd ≤ dataLength :=
      Nat.le_trans (pidEnd_le c) (Nat.le_of_lt hanswer.1.1)
    have hrecord : ∀ t : Scanner, Sound c t → Sound c (t.record c f data dataLength) :=
      fun t ht => ⟨(record_outside hlong).mpr ⟨ht.outside, hpidEnd, hlength⟩, ht.missing,
        ht.attributed.record, ht.progress⟩
    cases hfirst : first with
    | false =>
        rw [if_neg Bool.false_ne_true]
        dsimp only
        split
        · exact (hrecord s h).sendNextFrame hrun next
        · exact hrecord s h
    | true =>
        rw [if_pos rfl, Scanner.flowControl]
        cases hok : flow with
        | true =>
            rw [if_pos rfl]
            have ht : Sound c { s with lastFrame := s.ticker } :=
              ⟨h.outside, h.missing, h.attributed, h.progress⟩
            dsimp only
            split
            · exact (hrecord _ ht).sendNextFrame hrun next
            · exact hrecord _ ht
        | false =>
            rw [if_neg Bool.false_ne_true]
            dsimp only
            split
            · next hzero => exact absurd hzero (hflow hfirst hok)
            · exact hrecord _ h.terminate
  · rcases response_of_not_answers hanswer first flow next with hsame | hnext
    · rw [hsame]
      exact h
    · rw [hnext]
      exact h.sendNextFrame hrun next

theorem pidEnd_le_two_iff : c.pidEnd ≤ 2 ↔ c.has16BitPid = false := by
  rw [Scan.pidEnd]
  cases c.has16BitPid <;> simp

/-- **An expected event** keeps the scanner sound. -/
theorem Sound.step (h : Sound c s) {e : Event} (he : Expected c s e) : Sound c (s.step c e) := by
  cases e with
  | frame f flow next =>
      suffices hincoming : Sound c (s.incomingPollFrame c f flow next) from
        ⟨hincoming.outside, hincoming.missing, hincoming.attributed, hincoming.progress⟩
      rw [Scanner.incomingPollFrame]
      split
      · exact h
      · next haccepts =>
          obtain ⟨hsingle, hfirst, hconsecutive⟩ := he (not_not.mp haccepts)
          have hrun := h.running (not_not.mp haccepts).1
          have hpidEnd := pidEnd_le c
          split
          · next htype =>
              refine Sound.response (s := { s with mfRemain := 0 })
                ⟨h.outside, h.missing, h.attributed, h.progress⟩ hrun fun hanswers => ?_
              have hlength := hsingle htype hanswers
              exact ⟨by omega, by omega, fun hfalse => absurd hfalse Bool.noConfusion⟩
          · split
            · next htype =>
                refine Sound.response
                  (s := { s with mfRemain := f.firstLength - min 6 f.firstLength })
                  ⟨h.outside, h.missing, h.attributed, h.progress⟩ hrun fun hanswers => ?_
                obtain ⟨hshort, hflow⟩ := hfirst htype hanswers
                have htwo := pidEnd_le_two_iff.mpr hshort
                refine ⟨by omega, by omega, fun _ hfailed => ?_⟩
                have hlong := hflow.resolve_left fun hok => by
                  rw [hok] at hfailed
                  cases hfailed
                dsimp only
                omega
            · split
              · next htype =>
                  obtain ⟨r, hr, howner⟩ := hconsecutive htype
                  exact h.consecutive hrun hr howner
              · exact h
  | ticker1 next =>
      have hticker : Sound c { s with ticker := s.ticker + 1 } :=
        ⟨h.outside, h.missing, h.attributed, h.progress⟩
      rw [Scanner.step, Scanner.ticker1]
      split
      · next hlate => exact hticker.sendNextFrame (h.running hlate.1) next
      · exact hticker
  | frameCallback success =>
      rw [Scanner.step, Scanner.frameCallback]
      split
      · exact h
      · exact h.terminate

/-! ### Unexpected frames -/

/-- Where there is no result, something is missing after a consecutive frame. -/
theorem missing_consecutive (hnone : s.found.getLast? = none) :
    (s.consecutive c f next).missing = true := by
  rw [Scanner.consecutive, Scanner.append]
  dsimp only
  rw [hnone]
  dsimp only
  split
  · exact sendNextFrame_missing
  · rfl

/-- What a consecutive frame brings is in the last result. -/
theorem exists_consecutive {r : Result} (hr : s.found.getLast? = some r) (hpos : 0 < s.mfRemain) :
    ∃ r' ∈ (s.consecutive c f next).found, r'.pid = r.pid ∧
      ∃ b ∈ r'.data, b.owner = s.owner f := by
  have hbyte : (⟨f.byte 1, s.owner f⟩ : Byte) ∈ f.bytes (s.owner f) 1 (min 7 s.mfRemain) :=
    List.mem_map.mpr ⟨0, List.mem_range.mpr (by omega), rfl⟩
  refine ⟨{ r with data := r.data ++ f.bytes (s.owner f) 1 (min 7 s.mfRemain) }, ?_, rfl,
    _, List.mem_append_right _ hbyte, rfl⟩
  rw [consecutive_eq hr]
  dsimp only
  split
  · rw [sendNextFrame_found]
    exact List.mem_append_right _ List.mem_cons_self
  · exact List.mem_append_right _ List.mem_cons_self

/-- What an answer reads is read for good. -/
theorem outside_response (h : s.Answers c f data dataLength) :
    (s.response c f first data dataLength flow next).outside =
      (s.record c f data dataLength).outside := by
  have hflow : (if first then s.flowControl c flow else s).outside = s.outside := by
    split
    · rw [Scanner.flowControl]
      split <;> rfl
    · rfl
  rw [response_of_answers h]
  generalize (if first then s.flowControl c flow else s) = t at hflow ⊢
  dsimp only
  split
  · rw [sendNextFrame_outside, Scanner.record, Scanner.record, hflow]
  · rw [Scanner.record, Scanner.record, hflow]

theorem mem_requested_sendNextFrame (hcurrent : s.currentPid = c.endPid + 1) :
    c.endPid + 1 + c.pidStep ∈ (s.sendNextFrame c ok).requested := by
  have hne : s.currentPid ≠ c.endPid := fun hend => by omega
  rw [Scanner.sendNextFrame, if_neg hne, hcurrent]
  dsimp only
  split <;> exact List.mem_append_right _ List.mem_cons_self

theorem mem_requested_response (h : s.Answers c f data dataLength) (hremain : s.mfRemain = 0) :
    c.endPid + 1 + c.pidStep ∈ (s.response c f true data dataLength false next).requested := by
  rw [response_of_answers h, if_pos rfl, Scanner.flowControl, if_neg Bool.false_ne_true]
  dsimp only
  split
  · exact mem_requested_sendNextFrame rfl
  · next hne => exact absurd hremain hne

/-- **An event** after which all is well was expected. -/
theorem expected_of_good {e : Event} (hgood : Good c (s.step c e)) : Expected c s e := by
  cases e with
  | frame f flow next =>
      intro haccepts
      have hpidEnd := pidEnd_le c
      refine ⟨fun htype hanswers => ?_, fun htype hanswers => ?_, fun htype => ?_⟩
      · have hincoming : s.incomingPollFrame c f flow next =
            { s with mfRemain := 0 }.response c f false 1 f.singleLength flow next := by
          rw [Scanner.incomingPollFrame, if_neg (not_not_intro haccepts), if_pos htype]
        have houtside : (s.incomingPollFrame c f flow next).outside = false := hgood.outside
        have hlong : c.pidEnd ≤ f.singleLength := by
          have := hanswers.1.1
          omega
        have hrest : Scanner.Answers c { s with mfRemain := 0 } f 1 f.singleLength := hanswers
        rw [hincoming, outside_response hrest, record_outside hlong] at houtside
        omega
      · have hincoming : s.incomingPollFrame c f flow next =
            { s with mfRemain := f.firstLength - min 6 f.firstLength }.response c f true 2
              (min 6 f.firstLength) flow next := by
          rw [Scanner.incomingPollFrame, if_neg (not_not_intro haccepts), if_neg (by omega),
            if_pos htype]
        have hrest : Scanner.Answers c { s with mfRemain := f.firstLength - min 6 f.firstLength }
          f 2 (min 6 f.firstLength) := hanswers
        constructor
        · have houtside : (s.incomingPollFrame c f flow next).outside = false := hgood.outside
          have hlong : c.pidEnd ≤ min 6 f.firstLength := by
            have := hanswers.1.1
            omega
          rw [hincoming, outside_response hrest, record_outside hlong] at houtside
          exact pidEnd_le_two_iff.mp (by omega)
        · rw [or_iff_not_imp_left, Bool.not_eq_true]
          rintro rfl
          by_contra hshort
          have hordered : (s.incomingPollFrame c f false next).requested <+: c.pids :=
            hgood.ordered
          rw [hincoming] at hordered
          have hle := le_endPid_of_mem
            (hordered.subset (mem_requested_response hrest (by dsimp only; omega)))
          omega
      · have hincoming : s.incomingPollFrame c f flow next = s.consecutive c f next := by
          rw [Scanner.incomingPollFrame, if_neg (not_not_intro haccepts), if_neg (by omega),
            if_neg (by omega), if_pos htype]
        have hmissing : (s.incomingPollFrame c f flow next).missing = false := hgood.missing
        have hattributed : Attributed (s.incomingPollFrame c f flow next).found :=
          hgood.attributed
        rw [hincoming] at hmissing hattributed
        cases hr : s.found.getLast? with
        | none =>
            rw [missing_consecutive hr] at hmissing
            cases hmissing
        | some r =>
            refine ⟨r, rfl, fun hpos => ?_⟩
            obtain ⟨r', hr', hpid, b, hb, howner⟩ := exists_consecutive hr hpos
            rw [← howner, ← hpid]
            exact hattributed r' hr' b hb
  | ticker1 next => trivial
  | frameCallback success => trivial

/-! ### Runs -/

/-- **The PID scanner**: in a run nothing is read outside of a frame or appended to a missing
result, all data is attributed correctly, and the PIDs are requested in order and completely,
exactly if every frame is expected. -/
theorem good_along (c : Scan) (ok : Bool) (events : List Event) :
    Along (Scanner.step c) (fun s e => Good c (s.step c e)) (.init c ok) events ↔
      Along (Scanner.step c) (Expected c) (.init c ok) events :=
  along_congr_of_invariant (I := Sound c)
    (fun _ _ h => ⟨expected_of_good, fun he => (h.step he).good⟩)
    (fun _ _ h he => h.step he) (Sound.init c ok)

/-- A scan of two PIDs. -/
def twoPids : Scan where
  rxidLow := 0x708
  rxidHigh := 0x708
  pollType := 0x22
  startPid := 0
  pidStep := 1
  steps := 1
  timeout := 3
  pidStep_pos := by decide
  endPid_le := by decide

/-- The first frame after the first request is a consecutive one. -/
theorem not_good_along : ¬ Along (Scanner.step twoPids) (fun s e => Good twoPids (s.step twoPids e))
    (.init twoPids true) [.frame ⟨0x708, #v[0x21, 1, 2, 3, 4, 5, 6, 7]⟩ true true] :=
  fun h => absurd h.1.missing (by decide)

/-! ### Silence -/

/-- How many ticks a silent ECU leaves, if the `n`-th PID was requested some ticks ago. -/
def Scan.ticksLeft (c : Scan) (n waited : ℕ) : ℕ :=
  (c.steps - n) * (c.timeout.toNat + 1) + (c.timeout.toNat + 1 - waited)

theorem ticker_succ_sub (ticker lastFrame : UInt32) (h : (ticker - lastFrame).toNat ≤ 255) :
    (ticker + 1 - lastFrame).toNat = (ticker - lastFrame).toNat + 1 := by
  have hcomm : ticker + 1 - lastFrame = ticker - lastFrame + 1 := by grind
  rw [hcomm, UInt32.toNat_add, UInt32.toNat_one]
  exact Nat.mod_eq_of_lt (by omega)

theorem timeout_le (c : Scan) : c.timeout.toNat ≤ 255 := Nat.le_of_lt_succ c.timeout.toNat_lt

/-- The scan is at its `n`-th PID, and has not waited for longer than the timeout. -/
def Waiting (c : Scan) (n : ℕ) (s : Scanner) : Prop :=
  n ≤ c.steps ∧ s.currentPid = c.pid n ∧ (s.ticker - s.lastFrame).toNat ≤ c.timeout.toNat

/-- **A tick** brings the scan nearer to its end. -/
theorem Waiting.ticker1 {n : ℕ} (h : Waiting c n s) (ok : Bool) :
    c.endPid < (s.ticker1 c ok).currentPid ∨
      ∃ n', Waiting c n' (s.ticker1 c ok) ∧
        c.ticksLeft n' ((s.ticker1 c ok).ticker - (s.ticker1 c ok).lastFrame).toNat <
          c.ticksLeft n (s.ticker - s.lastFrame).toNat := by
  obtain ⟨hn, hcurrent, hwait⟩ := h
  have htimeout := timeout_le c
  have hsucc := ticker_succ_sub s.ticker s.lastFrame (by omega)
  have hle : s.currentPid ≤ c.endPid := by
    rw [hcurrent]
    exact Int.not_lt.mp fun hlt => Nat.not_lt_of_le hn (pid_lt_pid.mp hlt)
  have hlate_iff : c.timeout.toUInt32 < s.ticker + 1 - s.lastFrame ↔
      c.timeout.toNat < (s.ticker - s.lastFrame).toNat + 1 := by
    rw [UInt32.lt_iff_toNat_lt, UInt8.toNat_toUInt32, hsucc]
  rw [Scanner.ticker1]
  split
  · next hlate =>
      have hlate := hlate_iff.mp hlate.2
      rcases Nat.lt_or_eq_of_le hn with hlt | rfl
      · have hne : s.currentPid ≠ c.endPid := by
          rw [hcurrent]
          exact Int.ne_of_lt (pid_lt_pid.mpr hlt)
        rw [Scanner.sendNextFrame, if_neg hne]
        dsimp only
        split
        · refine .inr ⟨n + 1, ⟨hlt, ?_, ?_⟩, ?_⟩
          · rw [hcurrent, pid_succ]
          · rw [UInt32.sub_self]
            exact Nat.zero_le _
          · dsimp only
            rw [UInt32.sub_self]
            have hnext : c.steps - n = c.steps - (n + 1) + 1 := by omega
            rw [Scan.ticksLeft, Scan.ticksLeft, hnext, Nat.add_mul, Nat.one_mul]
            have hzero : UInt32.toNat 0 = 0 := rfl
            omega
        · exact .inl (Int.lt_succ _)
      · have hend : s.currentPid = c.endPid := hcurrent
        rw [Scanner.sendNextFrame, if_pos hend]
        exact .inl (Int.lt_succ _)
  · next hearly =>
      have hearly := mt hlate_iff.mpr (not_and.mp hearly hle)
      refine .inr ⟨n, ⟨hn, hcurrent, ?_⟩, ?_⟩
      · dsimp only
        omega
      · dsimp only
        rw [Scan.ticksLeft, Scan.ticksLeft, hsucc]
        omega

/-- A scan that has ended does not go on with a tick. -/
theorem lt_ticks (h : c.endPid < s.currentPid) (nexts : List Bool) :
    c.endPid < ((nexts.map Event.ticker1).foldl (Scanner.step c) s).currentPid := by
  induction nexts generalizing s with
  | nil => exact h
  | cons next nexts ih =>
      refine ih ?_
      rw [Scanner.step, Scanner.ticker1, if_neg fun hlate => Int.not_lt.mpr hlate.1 h]
      exact h

/-- **A silent ECU** does not stop the scan: after these ticks it is complete. -/
theorem scan_ends_in_silence {n : ℕ} (h : Waiting c n s) {nexts : List Bool}
    (hlong : c.ticksLeft n (s.ticker - s.lastFrame).toNat ≤ nexts.length) :
    c.endPid < ((nexts.map Event.ticker1).foldl (Scanner.step c) s).currentPid := by
  induction nexts generalizing s n with
  | nil =>
      have hwait := h.2.2
      have hpos : 0 < c.timeout.toNat + 1 - (s.ticker - s.lastFrame).toNat := by omega
      rw [Scan.ticksLeft, List.length_nil] at hlong
      omega
  | cons next nexts ih =>
      rw [List.map_cons, List.foldl_cons]
      rcases h.ticker1 next with hdone | ⟨n', hnext, hless⟩
      · exact lt_ticks hdone nexts
      · refine ih hnext ?_
        rw [List.length_cons] at hlong
        exact Nat.le_of_lt_succ (Nat.lt_of_lt_of_le hless hlong)

theorem scan_ends_in_silence_eight : twoPids.endPid <
    (((List.replicate 8 true).map Event.ticker1).foldl (Scanner.step twoPids)
      (.init twoPids true)).currentPid :=
  scan_ends_in_silence (n := 0) (show Waiting twoPids 0 (.init twoPids true) by
    exact ⟨by decide, by decide, by decide⟩) (by decide)

end Ovms.ReTools
