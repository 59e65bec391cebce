import Ovms.Can.Frame
import Ovms.Lib.Machine
import Mathlib.Data.List.Induction

/-!
# The OCU Heartbeat

Body commands of the e-Golf (lock, unlock, horn, indicators, panic alarm, mirror fold) do
not send anything themselves: each raises a request flag, and the next keep-alive frame
`0x5A7` of the online connection unit carries the flags that are raised
(`vehicle_vwegolf.cpp`). The keep-alive is sent while the module is an active node, from
two places: the one-second ticker and the receive path of the comfort bus. It is held back
while the original unit has been heard lately, and throttled to one frame in 180 ms.

Every entry point is a function on the members it reads and writes and on the tick count
of the scheduler, and answers the frames it hands to the driver. The calls come from three
tasks; they take turns call by call.
-/

open Ovms.Can

namespace Ovms.Ocu

/-! ### Configuration -/

/-- `VWEGOLF_BUS_TIMEOUT_SECS`. -/
def busTimeoutSecs : ℕ := 10

/-- `VWEGOLF_OCU_ACK_GRACE_SECS`. -/
def ocuAckGraceSecs : ℕ := 5

/-- `VWEGOLF_OCU_SESSION_CAP_SECS`. -/
def ocuSessionCapSecs : ℕ := 30

/-- `portTICK_PERIOD_MS` with `CONFIG_FREERTOS_HZ=100`. -/
def portTickPeriodMs : UInt32 := 10

/-- The comfort bus, `m_can3`. -/
def can3 : ℕ := 3

/-- The identifier of the keep-alive of the online connection unit. -/
def ocuId : UInt32 := 0x5A7

/-! ### Requests -/

/-- The one-shot request flags, `m_*_requested`. -/
inductive Request
  | mirrorFoldIn | horn | lock | unlock | indicators | panic
  deriving DecidableEq, Repr

/-- The byte of the heartbeat a request is written to. -/
def Request.byte : Request → ℕ
  | mirrorFoldIn => 5
  | _ => 6

/-- What is written there. -/
def Request.bits : Request → UInt8
  | mirrorFoldIn => (1 : UInt8) <<< 7 &&& 0x80
  | horn => (1 : UInt8) >>> 0 &&& 0x1
  | lock => (1 : UInt8) <<< 1 &&& 0x2
  | unlock => (1 : UInt8) <<< 2 &&& 0x4
  | indicators => (1 : UInt8) <<< 3 &&& 0x8
  | panic => (1 : UInt8) <<< 4 &&& 0x10

theorem Request.bits_and_ne {c d : Request} (h : c ≠ d) : c.bits &&& d.bits = 0 := by
  cases c <;> cases d <;> first | contradiction | rfl

theorem Request.bits_ne_zero (c : Request) : c.bits ≠ 0 := by
  cases c <;> decide

/-- A frame carries the bits of a request. -/
def Request.CarriedBy (c : Request) (f : CanFrame) : Prop :=
  f.u8 c.byte &&& c.bits = c.bits

/-! ### State -/

/-- The members of `OvmsVehicleVWeGolf` the heartbeat works on. -/
structure VWeGolf where
  busIdleTicks : ℕ
  oemOcuIdleTicks : ℕ
  ocuActive : Bool
  lastHeartbeatTick : UInt32
  ocuSessionSecs : ℕ
  ocuGraceSecs : ℕ
  requested : Request → Bool

/-- The members at construction: the bus counts as silent, the original unit as absent. -/
def VWeGolf.boot : VWeGolf where
  busIdleTicks := busTimeoutSecs
  oemOcuIdleTicks := busTimeoutSecs
  ocuActive := false
  lastHeartbeatTick := 0
  ocuSessionSecs := 0
  ocuGraceSecs := 255
  requested := fun _ => false

/-! ### The heartbeat -/

/-- One `if` of `SendOcuHeartbeat`: a raised request writes its byte and is cleared. -/
def serve (d : List UInt8 × (Request → Bool)) (c : Request) : List UInt8 × (Request → Bool) :=
  if d.2 c then (d.1.set c.byte c.bits, Function.update d.2 c false) else d

/-- The order in which the requests are looked at. -/
def serveOrder : List Request := [.mirrorFoldIn, .horn, .lock, .unlock, .indicators, .panic]

/-- The data of a heartbeat and the flags it leaves. -/
def assemble (requested : Request → Bool) : List UInt8 × (Request → Bool) :=
  serveOrder.foldl serve (List.replicate 8 0, requested)

/-- Both gates of `SendOcuHeartbeat` are open: the original unit has been silent long
enough, and the last heartbeat is at least 180 ms old. -/
def HeartbeatDue (s : VWeGolf) (now : UInt32) : Prop :=
  busTimeoutSecs ≤ s.oemOcuIdleTicks ∧ 180 ≤ (now - s.lastHeartbeatTick) * portTickPeriodMs

instance (s : VWeGolf) (now : UInt32) : Decidable (HeartbeatDue s now) :=
  inferInstanceAs (Decidable (_ ∧ _))

/-- `SendOcuHeartbeat`. -/
def sendOcuHeartbeat (s : VWeGolf) (now : UInt32) : VWeGolf × List CanFrame :=
  if s.oemOcuIdleTicks < busTimeoutSecs then (s, [])
  else if (now - s.lastHeartbeatTick) * portTickPeriodMs < 180 then (s, [])
  else
    let d := assemble s.requested
    ({ s with lastHeartbeatTick := now, requested := d.2 }, [writeStandard can3 0x5A7 d.1])

/-- `SendNmAlive`. -/
def sendNmAlive : CanFrame :=
  writeExtended can3 0x1B000067 [0x67, 0x10, 0x41, 0x84, 0x14, 0x00, 0x00, 0x00]

/-! ### The receive path and the ticker -/

/-- A keep-alive of the original unit: any nonzero byte. -/
def OemOcu (msgId : UInt32) (data : List UInt8) : Prop :=
  msgId = ocuId ∧ ∃ b ∈ data, b ≠ 0

instance (msgId : UInt32) (data : List UInt8) : Decidable (OemOcu msgId data) :=
  inferInstanceAs (Decidable (_ ∧ _))

/-- `IncomingFrameCan3`, up to its decoders. -/
def incomingFrameCan3 (s : VWeGolf) (f : CanFrame) (now : UInt32) : VWeGolf × List CanFrame :=
  let s := { s with busIdleTicks := 0 }
  let r := if s.ocuActive then sendOcuHeartbeat s now else (s, [])
  if OemOcu f.msgId f.data then ({ r.1 with oemOcuIdleTicks := 0 }, r.2) else r

/-- The counters and the end of the session in `Ticker1`. A grace count of 255 says that
no acknowledge has been seen. -/
def agePresence (s : VWeGolf) : VWeGolf :=
  let busIdle := if s.busIdleTicks < 254 then s.busIdleTicks + 1 else s.busIdleTicks
  let oemIdle := if s.oemOcuIdleTicks < 254 then s.oemOcuIdleTicks + 1 else s.oemOcuIdleTicks
  let justWentIdle := busIdle == busTimeoutSecs
  let oemOcuPresent := oemIdle < busTimeoutSecs
  let session :=
    if s.ocuActive && s.ocuSessionSecs < 255 then s.ocuSessionSecs + 1 else s.ocuSessionSecs
  let grace := if s.ocuActive && s.ocuGraceSecs < 255 then s.ocuGraceSecs + 1 else s.ocuGraceSecs
  let graceExpired := grace < 255 && grace ≥ ocuAckGraceSecs
  let capExpired := session ≥ ocuSessionCapSecs
  { s with
    busIdleTicks := busIdle
    oemOcuIdleTicks := oemIdle
    ocuSessionSecs := session
    ocuGraceSecs := grace
    ocuActive :=
      s.ocuActive && !(justWentIdle || oemOcuPresent || graceExpired || capExpired) }

/-- `Ticker1`, without the metrics and the battery controller. -/
def ticker1 (s : VWeGolf) (now : UInt32) : VWeGolf × List CanFrame :=
  let s := agePresence s
  if s.ocuActive && s.busIdleTicks < busTimeoutSecs then
    let r := sendOcuHeartbeat s now
    (r.1, sendNmAlive :: r.2)
  else (s, [])

/-! ### Commands -/

/-- `vehicle_command_t`. -/
inductive CommandResult
  | success | fail
  deriving DecidableEq, Repr

/-- Raise a request flag. -/
def raiseRequest (s : VWeGolf) (c : Request) : VWeGolf × CommandResult :=
  ({ s with requested := Function.update s.requested c true }, .success)

/-- A command that needs the PIN raises nothing when the PIN check fails. -/
def pinned (pinCheck : Bool) (s : VWeGolf) (c : Request) : VWeGolf × CommandResult :=
  if pinCheck then raiseRequest s c else (s, .fail)

/-- `CommandLock`. -/
def commandLock (s : VWeGolf) (pinCheck : Bool) : VWeGolf × CommandResult := pinned pinCheck s .lock

/-- `CommandUnlock`. -/
def commandUnlock (s : VWeGolf) (pinCheck : Bool) : VWeGolf × CommandResult :=
  pinned pinCheck s .unlock

/-- `CommandMirrorFoldIn`. -/
def commandMirrorFoldIn (s : VWeGolf) : VWeGolf × CommandResult := raiseRequest s .mirrorFoldIn

/-- `CommandHorn`. -/
def commandHorn (s : VWeGolf) : VWeGolf × CommandResult := raiseRequest s .horn

/-- `CommandIndicators`. -/
def commandIndicators (s : VWeGolf) : VWeGolf × CommandResult := raiseRequest s .indicators

/-- `CommandPanic`. -/
def commandPanic (s : VWeGolf) : VWeGolf × CommandResult := raiseRequest s .panic

/-- `WakeKcanBus`: two frames, and the module is an active node. -/
def wakeKcanBus (s : VWeGolf) : VWeGolf × List CanFrame :=
  ({ s with ocuActive := true, ocuSessionSecs := 0, ocuGraceSecs := 255 },
    [writeExtended can3 0x17330301 [0x40, 0x00, 0x01, 0x1F, 0x00, 0x00, 0x00, 0x00],
      writeExtended can3 0x1B000067 [0x67, 0x10, 0x41, 0x84, 0x14, 0x00, 0x00, 0x00]])

/-- `CommandWakeup`: nothing to do while the bus is alive. -/
def commandWakeup (s : VWeGolf) : VWeGolf × List CanFrame :=
  if s.busIdleTicks < busTimeoutSecs then (s, []) else wakeKcanBus s

/-- The shell command `xvg offline`. -/
def offline (s : VWeGolf) : VWeGolf := { s with ocuActive := false }

/-! ### Events -/

/-- One call from outside. Receiving and ticking read the scheduler's tick count. -/
inductive Event
  | lock (pinCheck : Bool)
  | unlock (pinCheck : Bool)
  | mirrorFoldIn
  | horn
  | indicators
  | panic
  | wakeup
  | offline
  | frame (f : CanFrame) (now : UInt32)
  | ticker1 (now : UInt32)

/-- The new state and the frames handed to the driver. -/
def step (s : VWeGolf) : Event → VWeGolf × List CanFrame
  | .lock pinCheck => ((commandLock s pinCheck).1, [])
  | .unlock pinCheck => ((commandUnlock s pinCheck).1, [])
  | .mirrorFoldIn => ((commandMirrorFoldIn s).1, [])
  | .horn => ((commandHorn s).1, [])
  | .indicators => ((commandIndicators s).1, [])
  | .panic => ((commandPanic s).1, [])
  | .wakeup => commandWakeup s
  | .offline => (Ocu.offline s, [])
  | .frame f now => incomingFrameCan3 s f now
  | .ticker1 now => Ocu.ticker1 s now

/-- The new state alone. -/
def next (s : VWeGolf) (e : Event) : VWeGolf := (step s e).1

/-! ### What a heartbeat carries -/

/-- Serving a list of requests clears them and no other. -/
theorem foldl_serve_snd (L : List Request) (d : List UInt8 × (Request → Bool)) (c : Request) :
    (L.foldl serve d).2 c = (d.2 c && decide (c ∉ L)) := by
  induction L generalizing d with
  | nil => simp
  | cons a L ih =>
      rw [List.foldl_cons, ih]
      by_cases hac : c = a
      · subst hac
        cases h : d.2 c <;> simp [serve, h]
      · cases h : d.2 a <;> simp [serve, h, hac]

/-- Serving keeps the size of the frame. -/
theorem length_foldl_serve (L : List Request) (d : List UInt8 × (Request → Bool)) :
    (L.foldl serve d).1.length = d.1.length := by
  induction L generalizing d with
  | nil => rfl
  | cons a L ih =>
      rw [List.foldl_cons, ih, serve]
      split
      · exact List.length_set
      · rfl

/-- A byte of the frame holds what the last raised request of that byte wrote. -/
theorem foldl_serve_fst {L : List Request} (hL : L.Nodup) (d : List UInt8 × (Request → Bool))
    {i : ℕ} (hi : i < d.1.length) :
    (L.foldl serve d).1[i]? =
      match (L.filter fun c => d.2 c && c.byte == i).getLast? with
      | some c => some c.bits
      | none => d.1[i]? := by
  induction L using List.reverseRecOn with
  | nil => rfl
  | append_singleton L a ih =>
      obtain ⟨hL', -, hdisj⟩ := List.nodup_append.mp hL
      have ha : a ∉ L := fun hmem => hdisj a hmem a (List.mem_singleton_self a) rfl
      have hraised : (L.foldl serve d).2 a = d.2 a := by
        rw [foldl_serve_snd, decide_eq_true ha, Bool.and_true]
      rw [List.foldl_append, List.foldl_cons, List.foldl_nil, serve, hraised, List.filter_append]
      cases h : d.2 a with
      | false =>
          rw [if_neg Bool.false_ne_true, ih hL', List.filter_cons_of_neg (by simp [h])]
          rw [List.filter_nil, List.append_nil]
      | true =>
          rw [if_pos rfl]
          by_cases hbyte : a.byte = i
          · rw [List.filter_cons_of_pos (by simp [h, hbyte]), List.filter_nil,
              List.getLast?_concat, hbyte, List.getElem?_set_self]
            rwa [length_foldl_serve]
          · rw [List.filter_cons_of_neg (by simp [h, hbyte]), List.filter_nil, List.append_nil,
              List.getElem?_set_ne hbyte, ih hL']

/-- The request that wrote byte `i` last. -/
def lastWriter (requested : Request → Bool) (i : ℕ) : Option Request :=
  (serveOrder.filter fun c => requested c && c.byte == i).getLast?

theorem mem_serveOrder (c : Request) : c ∈ serveOrder := by
  cases c <;> decide

theorem assemble_snd (requested : Request → Bool) (c : Request) :
    (assemble requested).2 c = false := by
  rw [assemble, foldl_serve_snd, decide_eq_false (not_not.mpr (mem_serveOrder c)), Bool.and_false]

theorem of_lastWriter {requested : Request → Bool} {i : ℕ} {w : Request}
    (h : lastWriter requested i = some w) : requested w = true ∧ w.byte = i := by
  have hmem := List.mem_of_getLast? h
  simpa using (List.mem_filter.mp hmem).2

theorem exists_lastWriter {requested : Request → Bool} {c : Request} (h : requested c = true) :
    ∃ w, lastWriter requested c.byte = some w := by
  refine Option.isSome_iff_exists.mp (List.getLast?_isSome.mpr ?_)
  exact List.ne_nil_of_mem (List.mem_filter.mpr ⟨mem_serveOrder c, by simp [h]⟩)

/-- The byte holds the bits of its last writer alone. -/
theorem u8_heartbeat {requested : Request → Bool} {w : Request} {i : ℕ}
    (h : lastWriter requested i = some w) :
    (writeStandard can3 0x5A7 (assemble requested).1).u8 i = w.bits := by
  have hlen : (assemble requested).1.length = 8 := length_foldl_serve _ _
  have hi : i < 8 := by
    obtain ⟨-, rfl⟩ := of_lastWriter h
    cases w <;> decide
  have hbyte : (assemble requested).1[i]? = some w.bits := by
    rw [assemble, foldl_serve_fst (by decide) _ (by simpa using hi)]
    rw [lastWriter] at h
    simp only [h]
  rw [u8_writeStandard hlen, List.getD_eq_getElem?_getD, hbyte]
  rfl

/-- A heartbeat carries a raised request exactly when that request wrote its byte last. -/
theorem carriedBy_heartbeat_iff {requested : Request → Bool} {c : Request}
    (h : requested c = true) :
    c.CarriedBy (writeStandard can3 0x5A7 (assemble requested).1)
      ↔ lastWriter requested c.byte = some c := by
  obtain ⟨w, hw⟩ := exists_lastWriter h
  rw [Request.CarriedBy, u8_heartbeat hw, hw, Option.some.injEq]
  constructor
  · intro hbits
    by_contra hne
    rw [Request.bits_and_ne hne] at hbits
    exact c.bits_ne_zero hbits.symm
  · rintro rfl
    exact UInt8.and_self

/-- At most one request of each byte is raised. -/
def OnePerByte (requested : Request → Bool) : Prop :=
  ∀ c d, requested c = true → requested d = true → c.byte = d.byte → c = d

/-- A heartbeat carries every raised request exactly when no two of them share a byte. -/
theorem forall_carriedBy_heartbeat_iff (requested : Request → Bool) :
    (∀ c, requested c = true → c.CarriedBy (writeStandard can3 0x5A7 (assemble requested).1))
      ↔ OnePerByte requested := by
  constructor
  · intro h c d hc hd hbyte
    have hlast := (carriedBy_heartbeat_iff hc).mp (h c hc)
    have hlast' := (carriedBy_heartbeat_iff hd).mp (h d hd)
    rw [hbyte, hlast'] at hlast
    exact (Option.some.inj hlast).symm
  · intro h c hc
    obtain ⟨w, hw⟩ := exists_lastWriter hc
    obtain ⟨hreq, hbyte⟩ := of_lastWriter hw
    obtain rfl := h w c hreq hc hbyte
    exact (carriedBy_heartbeat_iff hc).mpr hw

/-! ### Runs -/

/-- The call sends a heartbeat: both gates are open where it reaches them. -/
def Beats (s : VWeGolf) : Event → Prop
  | .frame _ now => s.ocuActive = true ∧ HeartbeatDue s now
  | .ticker1 now =>
      (agePresence s).ocuActive = true ∧ (agePresence s).busIdleTicks < busTimeoutSecs ∧
        HeartbeatDue (agePresence s) now
  | _ => False

/-- Every request the call clears is carried by a keep-alive the call transmits. -/
def LosesNone (s : VWeGolf) (e : Event) : Prop :=
  ∀ c, s.requested c = true → (next s e).requested c = false →
    ∃ f ∈ (step s e).2, f.format = .std ∧ f.msgId = ocuId ∧ c.CarriedBy f

/-- When the call sends a heartbeat, no two raised requests share a byte of it. -/
def BeatsApart (s : VWeGolf) (e : Event) : Prop :=
  Beats s e → OnePerByte s.requested

theorem sendOcuHeartbeat_of_not_due {s : VWeGolf} {now : UInt32} (h : ¬ HeartbeatDue s now) :
    sendOcuHeartbeat s now = (s, []) := by
  rw [sendOcuHeartbeat]
  by_cases hquiet : s.oemOcuIdleTicks < busTimeoutSecs
  · rw [if_pos hquiet]
  · rw [if_neg hquiet]
    exact if_pos (UInt32.not_le.mp fun hold => h ⟨Nat.not_lt.mp hquiet, hold⟩)

theorem sendOcuHeartbeat_of_due {s : VWeGolf} {now : UInt32} (h : HeartbeatDue s now) :
    sendOcuHeartbeat s now =
      ({ s with lastHeartbeatTick := now, requested := (assemble s.requested).2 },
        [writeStandard can3 0x5A7 (assemble s.requested).1]) := by
  rw [sendOcuHeartbeat, if_neg (Nat.not_lt.mpr h.1), if_neg (UInt32.not_lt.mpr h.2)]

/-- A call that clears every request and transmits one heartbeat loses none exactly when
no two share a byte. -/
theorem losesNone_iff_of_beat {s : VWeGolf} {e : Event} (more : List CanFrame)
    (hnext : (next s e).requested = (assemble s.requested).2)
    (hout : (step s e).2 = more ++ [writeStandard can3 0x5A7 (assemble s.requested).1])
    (hmore : ∀ f ∈ more, f.format = .ext) : LosesNone s e ↔ OnePerByte s.requested := by
  rw [← forall_carriedBy_heartbeat_iff, LosesNone]
  refine forall₂_congr fun c hc => ?_
  rw [hnext, hout]
  constructor
  · intro h
    obtain ⟨f, hf, hstd, -, hcarried⟩ := h (assemble_snd s.requested c)
    rcases List.mem_append.mp hf with hf | hf
    · rw [hmore f hf] at hstd
      cases hstd
    · rwa [List.mem_singleton.mp hf] at hcarried
  · intro h _
    exact ⟨_, List.mem_append_right more (List.mem_singleton_self _), rfl, rfl, h⟩

theorem losesNone_of_kept {s : VWeGolf} {e : Event}
    (h : ∀ c, s.requested c = true → (next s e).requested c = true) : LosesNone s e := by
  intro c hc hcleared
  rw [h c hc] at hcleared
  cases hcleared

theorem requested_raiseRequest {s : VWeGolf} {c : Request} (d : Request)
    (hc : s.requested c = true) : (raiseRequest s d).1.requested c = true := by
  change Function.update s.requested d true c = true
  by_cases hcd : c = d
  · rw [hcd, Function.update_self]
  · rw [Function.update_of_ne hcd, hc]

theorem requested_pinned {s : VWeGolf} {c : Request} (pinCheck : Bool) (d : Request)
    (hc : s.requested c = true) : (pinned pinCheck s d).1.requested c = true := by
  cases pinCheck with
  | false => exact hc
  | true => exact requested_raiseRequest d hc

/-- What a received frame does to the counters. -/
def hear (s : VWeGolf) (f : CanFrame) : VWeGolf :=
  { s with
    busIdleTicks := 0
    oemOcuIdleTicks := if OemOcu f.msgId f.data then 0 else s.oemOcuIdleTicks }

/-- A frame that finds the session active and both gates open sets off a heartbeat. -/
theorem incomingFrameCan3_of_beats {s : VWeGolf} {f : CanFrame} {now : UInt32}
    (h : Beats s (.frame f now)) :
    incomingFrameCan3 s f now =
      ({ hear s f with lastHeartbeatTick := now, requested := (assemble s.requested).2 },
        [writeStandard can3 0x5A7 (assemble s.requested).1]) := by
  have hdue : HeartbeatDue { s with busIdleTicks := 0 } now := h.2
  have hsent : (if s.ocuActive then sendOcuHeartbeat { s with busIdleTicks := 0 } now
      else ({ s with busIdleTicks := 0 }, [])) = _ :=
    (if_pos h.1).trans (sendOcuHeartbeat_of_due hdue)
  rw [incomingFrameCan3]
  simp only [hsent]
  by_cases hoem : OemOcu f.msgId f.data
  · simp only [hear, if_pos hoem]
  · simp only [hear, if_neg hoem]

/-- Any other frame is only heard. -/
theorem incomingFrameCan3_of_not_beats {s : VWeGolf} {f : CanFrame} {now : UInt32}
    (h : ¬ Beats s (.frame f now)) : incomingFrameCan3 s f now = (hear s f, []) := by
  have hsilent : (if s.ocuActive then sendOcuHeartbeat { s with busIdleTicks := 0 } now
      else ({ s with busIdleTicks := 0 }, [])) = ({ s with busIdleTicks := 0 }, []) := by
    by_cases hact : s.ocuActive = true
    · have hdue : ¬ HeartbeatDue { s with busIdleTicks := 0 } now := fun hdue => h ⟨hact, hdue⟩
      rw [if_pos hact, sendOcuHeartbeat_of_not_due hdue]
    · rw [if_neg hact]
  rw [incomingFrameCan3]
  simp only [hsilent]
  by_cases hoem : OemOcu f.msgId f.data
  · simp only [hear, if_pos hoem]
  · simp only [hear, if_neg hoem]

/-- A tick of a session on a live bus with both gates open sends the network management
frame and a heartbeat. -/
theorem ticker1_of_beats {s : VWeGolf} {now : UInt32} (h : Beats s (.ticker1 now)) :
    ticker1 s now =
      ({ agePresence s with
          lastHeartbeatTick := now, requested := (assemble s.requested).2 },
        [sendNmAlive, writeStandard can3 0x5A7 (assemble s.requested).1]) := by
  obtain ⟨hact, halive, hdue⟩ := h
  rw [ticker1]
  simp only [hact, halive, decide_true, Bool.and_self, if_true, sendOcuHeartbeat_of_due hdue]
  rfl

/-- Any other tick only ages the counters; it may send the network management frame. -/
theorem ticker1_of_not_beats {s : VWeGolf} {now : UInt32} (h : ¬ Beats s (.ticker1 now)) :
    (ticker1 s now).1 = agePresence s ∧ ∀ f ∈ (ticker1 s now).2, f.format = .ext := by
  rw [ticker1]
  split
  · rename_i hlive
    rw [Bool.and_eq_true, decide_eq_true_eq] at hlive
    rw [sendOcuHeartbeat_of_not_due fun hdue => h ⟨hlive.1, hlive.2, hdue⟩]
    exact ⟨rfl, fun f hf => by rw [List.mem_singleton.mp hf]; rfl⟩
  · exact ⟨rfl, List.forall_mem_nil _⟩

/-- **One call.** It loses no request exactly when the requests it sends lie apart. -/
theorem losesNone_iff (s : VWeGolf) (e : Event) : LosesNone s e ↔ BeatsApart s e := by
  -- a call that sends no heartbeat keeps every request and meets no condition
  have idle : ¬ Beats s e → (∀ c, s.requested c = true → (next s e).requested c = true) →
      (LosesNone s e ↔ BeatsApart s e) := fun hno hkept =>
    ⟨fun _ hbeat => absurd hbeat hno, fun _ => losesNone_of_kept hkept⟩
  -- a call that sends one clears them all
  have beat : Beats s e → (LosesNone s e ↔ OnePerByte s.requested) →
      (LosesNone s e ↔ BeatsApart s e) := fun hyes hiff =>
    hiff.trans ⟨fun h _ => h, fun h => h hyes⟩
  cases e with
  | lock pinCheck => exact idle id fun c => requested_pinned pinCheck .lock
  | unlock pinCheck => exact idle id fun c => requested_pinned pinCheck .unlock
  | mirrorFoldIn => exact idle id fun c => requested_raiseRequest .mirrorFoldIn
  | horn => exact idle id fun c => requested_raiseRequest .horn
  | indicators => exact idle id fun c => requested_raiseRequest .indicators
  | panic => exact idle id fun c => requested_raiseRequest .panic
  | wakeup =>
      refine idle id fun c hc => ?_
      rw [next, step, commandWakeup]
      split
      · exact hc
      · exact hc
  | offline => exact idle id fun c hc => hc
  | frame f now =>
      by_cases hbeat : Beats s (.frame f now)
      · have heq := incomingFrameCan3_of_beats hbeat
        exact beat hbeat (losesNone_iff_of_beat [] (congrArg (·.1.requested) heq)
          (congrArg Prod.snd heq) (List.forall_mem_nil _))
      · have heq := incomingFrameCan3_of_not_beats hbeat
        exact idle hbeat fun c hc => (congrArg (·.1.requested c) heq).trans hc
  | ticker1 now =>
      by_cases hbeat : Beats s (.ticker1 now)
      · have heq := ticker1_of_beats hbeat
        refine beat hbeat (losesNone_iff_of_beat [sendNmAlive] (congrArg (·.1.requested) heq)
          (congrArg Prod.snd heq) ?_)
        exact fun f hf => by rw [List.mem_singleton.mp hf]; rfl
      · have heq := (ticker1_of_not_beats hbeat).1
        exact idle hbeat fun c hc => (congrArg (·.requested c) heq).trans hc

/-- **Body commands.** Along every run from every state, every call loses no request
exactly when, at every heartbeat, no two raised requests share a byte. Mirror fold has
byte 5 for itself; horn, lock, unlock, indicators and panic alarm share byte 6. -/
theorem body_requests_carried_iff (s : VWeGolf) (es : List Event) :
    Lib.Along next LosesNone s es ↔ Lib.Along next BeatsApart s es :=
  Lib.along_congr losesNone_iff

/-- Horn and indicators requested between two heartbeats of a session: the second one
clears both requests and carries only the indicators. -/
theorem horn_lost_with_indicators :
    ¬ Lib.Along next LosesNone VWeGolf.boot
      [.wakeup, .frame (writeStandard can3 0x3C0 []) 0, .horn, .indicators, .ticker1 18] := by
  rw [Lib.along_congr losesNone_iff]
  rintro ⟨-, -, -, -, hlast, -⟩
  have hone := hlast ⟨rfl, by decide, by decide⟩ .horn .indicators rfl rfl rfl
  cases hone

end Ovms.Ocu
