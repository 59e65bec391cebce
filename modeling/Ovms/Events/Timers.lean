import Mathlib.Data.List.Basic
import Mathlib.Data.List.Nodup
import Mathlib.Data.List.Perm.Basic
import Ovms.Lib.Machine
import Ovms.Events.Deregister

/-!
# Signals and Timers

`OvmsEvents` (`main/ovms_events.cpp`), followed from a `SignalEvent` to the end of the event.
The record of an event is copied: from the caller to the queue, or to a timer of a pool and from
there to the queue, and from the queue to the event task. At each of these places it may be
dropped: the queue is full, there is no memory, no timer can be made or started.

A signalled event has one name, allocated when it is signalled, and whoever has the record last
runs `FreeQueueSignalEvent`. Events are numbered here by their names. The calls made for an
event are logged with its number; what they do comes between two steps.

`ScheduleEvent` and the callback of a timer hold the mutex of the timers, so each is one step. A
timer that expires leaves the active timers of FreeRTOS before its callback runs; its callback
may find other calls between the two. A queue that overflows ends the system, with the message
in the hands of its sender, unless the event is one of the ticker.
-/

open Lib

namespace Ovms.Events.Timers

/-! ### Records -/

/-- What `SignalEvent` is called with beside the name: a done function, a phase function, a
semaphore, or data to copy. -/
inductive Argument
  | callback (data : ℕ) (callback : Option ℕ)
  | phases (data callback : ℕ)
  | semaphore (data semaphore : ℕ)
  | copy (data : Option ℕ)
  deriving DecidableEq

/-- `event_queue_t` of a signal: the number of the event, for the pointer to its name, the name,
and the body. -/
inductive Signal
  | signal (event : ℕ) (name : Text) (data donefn donesemaphore : Option ℕ)
  | phasedsignal (event : ℕ) (name : Text) (data phasefn : ℕ)
  deriving DecidableEq

/-- `body.signal.event`, which is `body.phasedsignal.event` too. -/
def Signal.event : Signal → ℕ
  | signal event .. | phasedsignal event .. => event

/-- What stands at that pointer. -/
def Signal.name : Signal → Text
  | signal _ name .. | phasedsignal _ name .. => name

/-- `EventStdFree`. -/
def eventStdFree : ℕ := 0

/-- The four `SignalEvent`, up to the question of the delay. -/
def record (event : ℕ) (name : Text) : Argument → Signal
  | .callback data callback => .signal event name (some data) callback none
  | .phases data callback => .phasedsignal event name data callback
  | .semaphore data semaphore => .signal event name (some data) none (some semaphore)
  | .copy (some data) => .signal event name (some data) (some eventStdFree) none
  | .copy none => .signal event name none none none

@[simp] theorem event_record (event : ℕ) (name : Text) (argument : Argument) :
    (record event name argument).event = event := by
  rcases argument with _ | _ | _ | (_ | _) <;> rfl

/-- `event_phase_t`. -/
inductive Phase
  | preCallbackLoop
  | postCallbackLoop
  | freeData
  deriving DecidableEq

/-- What is called for an event; `callbacks` are the two loops over the handlers. -/
inductive Call
  | phasefn (phasefn data : ℕ) (phase : Phase)
  | callbacks (data : Option ℕ)
  | eventScript (data : Option ℕ)
  | give (semaphore : ℕ)
  | donefn (donefn : ℕ) (data : Option ℕ)
  | free
  deriving DecidableEq

/-- `FreeQueueSignalEvent`. -/
def freeQueueSignalEvent : Signal → List Call
  | .phasedsignal _ _ data phasefn => [.phasefn phasefn data .freeData, .free]
  | .signal _ _ data donefn donesemaphore =>
    donesemaphore.toList.map .give ++ donefn.toList.map (.donefn · data) ++ [.free]

/-- `HandleQueueSignalEvent`, before the record is freed. -/
def handlers : Signal → List Call
  | .phasedsignal _ _ data phasefn =>
    [.phasefn phasefn data .preCallbackLoop, .callbacks (some data),
      .phasefn phasefn data .postCallbackLoop, .eventScript (some data)]
  | .signal _ _ data _ _ => [.callbacks data, .eventScript data]

/-- `HandleQueueSignalEvent`. -/
def handleQueueSignalEvent (msg : Signal) : List Call :=
  handlers msg ++ freeQueueSignalEvent msg

/-! ### Timers, and the functions -/

/-- A timer of FreeRTOS: it does not run, it runs, or it has expired and its callback is due. -/
inductive TimerState
  | dormant
  | started
  | expired
  deriving DecidableEq

/-- A timer of `m_timers`: the ID of the timer, its entry in `m_timer_active`, and its state. -/
structure Timer where
  timerID : Option Signal
  active : Bool
  state : TimerState
  deriving DecidableEq

/-- A message in the queue: a signal, or one of the others. -/
inductive Msg
  | signal (msg : Signal)
  | other
  deriving DecidableEq

/-- `OvmsEvents`. Of the event task, the record it works on and the calls that it has still to
make. Beside these stand the record that a sender has in hand when the system ends, all records
made so far, and the calls made so far. -/
structure OvmsEvents where
  taskqueue : List Msg
  timers : List Timer
  task : Option (Signal × List Call)
  aborted : Bool
  lost : Option Signal
  made : List Signal
  log : List (ℕ × Call)

/-- What can fail in `ScheduleEvent`: the copy of the message, `xTimerCreate` and
`xTimerChangePeriod`; each says whether it works. -/
structure Works where
  duplicate : Bool
  create : Bool
  changePeriod : Bool

namespace OvmsEvents

/-- At the start. -/
def new : OvmsEvents := ⟨[], [], none, false, none, [], []⟩

/-- `FreeQueueSignalEvent` of a record that is dropped. -/
def drop (s : OvmsEvents) (msg : Signal) : OvmsEvents :=
  { s with log := s.log ++ (freeQueueSignalEvent msg).map (msg.event, ·) }

/-- `xQueueSend`; when the queue is full, `CheckQueueOverflow` and `FreeQueueSignalEvent`. -/
def send (capacity : ℕ) (s : OvmsEvents) (msg : Signal) : OvmsEvents :=
  if s.taskqueue.length < capacity then { s with taskqueue := s.taskqueue ++ [.signal msg] }
  else if tickerPrefix <+: msg.name then s.drop msg
  else { s with aborted := true, lost := some msg }

/-- The end of `ScheduleEvent`: the payload is set and the timer is started. -/
def start (s : OvmsEvents) (msg : Signal) (i : ℕ) (works : Works) : Bool × OvmsEvents :=
  if works.changePeriod then
    (true, { s with timers := s.timers.set i ⟨some msg, true, .started⟩ })
  else (false, { s with timers := s.timers.modify i fun t => { t with timerID := none } })

/-- `ScheduleEvent`. -/
def scheduleEvent (s : OvmsEvents) (msg : Signal) (works : Works) : Bool × OvmsEvents :=
  if !works.duplicate then (false, s)
  else
    match s.timers.findIdx? fun t => !t.active with
    | some i => s.start msg i works
    | none =>
      if !works.create then (false, s)
      else
        start { s with timers := s.timers ++ [⟨none, false, .dormant⟩] } msg s.timers.length works

/-- `SignalEvent`. -/
def signalEvent (capacity : ℕ) (s : OvmsEvents) (name : Text) (argument : Argument)
    (delay : ℕ) (works : Works) : OvmsEvents :=
  let msg := record s.made.length name argument
  let s := { s with made := s.made ++ [msg] }
  if delay = 0 then s.send capacity msg
  else
    match s.scheduleEvent msg works with
    | (true, s) => s
    | (false, s) => s.drop msg

/-- A timer leaves the active timers of FreeRTOS. -/
def expire (s : OvmsEvents) (i : ℕ) : OvmsEvents :=
  { s with timers := s.timers.modify i fun t => { t with state := .expired } }

/-- `SignalScheduledEvent`. -/
def signalScheduledEvent (capacity : ℕ) (s : OvmsEvents) (i : ℕ) : OvmsEvents :=
  match s.timers[i]? with
  | none => s
  | some t =>
    match t.timerID with
    | none => { s with timers := s.timers.set i { t with state := .dormant } }
    | some msg => { s with timers := s.timers.set i ⟨none, false, .dormant⟩ }.send capacity msg

/-- The next message that `EventTask` takes off the queue. -/
def receive (s : OvmsEvents) : OvmsEvents :=
  match s.taskqueue with
  | [] => s
  | .other :: q => { s with taskqueue := q }
  | .signal msg :: q =>
    { s with taskqueue := q, task := some (msg, handleQueueSignalEvent msg) }

/-- The next call that the event task makes. -/
def work (s : OvmsEvents) : OvmsEvents :=
  match s.task with
  | none | some (_, []) => s
  | some (msg, call :: rest) =>
    { s with
      task := if rest.isEmpty then none else some (msg, rest)
      log := s.log ++ [(msg.event, call)] }

/-- A message that is not a signal is sent. -/
def sendOther (capacity : ℕ) (s : OvmsEvents) (name : Text) : OvmsEvents :=
  if s.taskqueue.length < capacity then { s with taskqueue := s.taskqueue ++ [.other] }
  else if tickerPrefix <+: name then s
  else { s with aborted := true }

/-- `EventTask` has waited too long for a message. -/
def queueTimeout (s : OvmsEvents) : OvmsEvents := { s with aborted := true }

end OvmsEvents

/-! ### Runs -/

/-- What the tasks do. -/
inductive Event
  | signalEvent (name : Text) (argument : Argument) (delay : ℕ) (works : Works)
  | sendOther (name : Text)
  | expire (timer : ℕ)
  | signalScheduledEvent (timer : ℕ)
  | receive
  | work
  | queueTimeout

/-- A step. -/
def step (capacity : ℕ) (s : OvmsEvents) : Event → OvmsEvents
  | .signalEvent name argument delay works => s.signalEvent capacity name argument delay works
  | .sendOther name => s.sendOther capacity name
  | .expire i => s.expire i
  | .signalScheduledEvent i => s.signalScheduledEvent capacity i
  | .receive => s.receive
  | .work => s.work
  | .queueTimeout => s.queueTimeout

/-- Nothing happens after the system has ended. A timer that was started expires once, and its
callback runs once then. The event task takes a message when it waits for one. -/
def Admitted (s : OvmsEvents) (e : Event) : Prop :=
  s.aborted = false ∧ match e with
    | .signalEvent .. | .sendOther _ => True
    | .expire i => s.timers[i]?.map Timer.state = some .started
    | .signalScheduledEvent i => s.timers[i]?.map Timer.state = some .expired
    | .receive => s.task = none ∧ s.taskqueue ≠ []
    | .work => s.task ≠ none
    | .queueTimeout => s.task = none ∧ s.taskqueue = []

instance (s : OvmsEvents) (e : Event) : Decidable (Admitted s e) := by
  unfold Admitted
  cases e <;> infer_instance

/-! ### Where the records are -/

/-- The record in a message. -/
def Msg.signal? : Msg → Option Signal
  | signal msg => some msg
  | other => none

namespace OvmsEvents

/-- The records that wait: in the queue, in a timer, or in the hands of a sender. -/
def waiting (s : OvmsEvents) : List Signal :=
  s.taskqueue.filterMap Msg.signal? ++ s.timers.filterMap Timer.timerID ++ s.lost.toList

/-- All records that somebody has. -/
def held (s : OvmsEvents) : List Signal := s.waiting ++ (s.task.map Prod.fst).toList

/-- The calls made for an event. -/
def trace (s : OvmsEvents) (event : ℕ) : List Call :=
  (s.log.filter fun entry => entry.1 = event).map Prod.snd

/-- A record in hand. -/
def inHand (s : OvmsEvents) (msg : Signal) : OvmsEvents := { s with lost := some msg }

end OvmsEvents

/-- A timer is taken for an event, by the map and by FreeRTOS alike, or by neither. -/
def Timer.Sound (t : Timer) : Prop :=
  (t.active = true ↔ t.timerID ≠ none) ∧ (t.active = false ↔ t.state = .dormant)

/-- What holds between two steps. -/
structure Inv (s : OvmsEvents) : Prop where
  nodup : (s.held.map Signal.event).Nodup
  known : ∀ msg : Signal, msg ∈ s.held → s.made[msg.event]? = some msg
  numbered : ∀ (id : ℕ) (msg : Signal), s.made[id]? = some msg → msg.event = id
  timers : ∀ t ∈ s.timers, t.Sound
  quiet : ∀ msg : Signal, msg ∈ s.waiting → s.trace msg.event = []
  working : ∀ msg rest, s.task = some (msg, rest) →
    rest ≠ [] ∧ s.trace msg.event ++ rest = handleQueueSignalEvent msg
  ended : ∀ msg : Signal, msg ∈ s.made → msg ∉ s.held →
    s.trace msg.event = freeQueueSignalEvent msg ∨ s.trace msg.event = handleQueueSignalEvent msg
  logged : ∀ entry ∈ s.log, entry.1 < s.made.length

/-- What holds between two steps, and that nobody has a record in hand while the system runs. -/
structure Sound (s : OvmsEvents) : Prop where
  inv : Inv s
  idle : s.aborted = false → s.lost = none

/-- A timer in the list has its payload among those of all timers; with another timer in its
place, the other payload stands there. -/
theorem payloads_set {timers : List Timer} {i : ℕ} {t : Timer} (h : timers[i]? = some t)
    (t' : Timer) :
    (t.timerID.toList ++ (timers.set i t').filterMap Timer.timerID).Perm
      (t'.timerID.toList ++ timers.filterMap Timer.timerID) := by
  induction timers generalizing i with
  | nil => cases h
  | cons head tail ih =>
    cases i with
    | zero =>
      obtain rfl : head = t := Option.some.inj h
      rcases hh : head.timerID with _ | a <;> rcases ht : t'.timerID with _ | b <;>
        simp [List.set_cons_zero, hh, ht, List.Perm.swap]
    | succ i =>
      have hrest := ih (i := i) h
      rw [List.set_cons_succ, List.filterMap_cons, List.filterMap_cons]
      rcases head.timerID with _ | a
      · exact hrest
      · exact List.perm_middle.trans ((hrest.cons a).trans List.perm_middle.symm)

section Steps

variable {capacity : ℕ} {s : OvmsEvents} {msg : Signal}

/-- **A record that changes its place**, while nothing is called: all that matters is that the
same records wait and that the timers stay sound. -/
theorem Inv.move {s' : OvmsEvents} (h : Inv s) (hwaiting : s'.waiting.Perm s.waiting)
    (htimers : ∀ t ∈ s'.timers, t.Sound) (htask : s'.task = s.task) (hmade : s'.made = s.made)
    (hlog : s'.log = s.log) : Inv s' := by
  have hheld : s'.held.Perm s.held := by
    rw [OvmsEvents.held, OvmsEvents.held, htask]
    exact hwaiting.append_right _
  have htrace : s'.trace = s.trace := by
    funext event
    rw [OvmsEvents.trace, OvmsEvents.trace, hlog]
  refine ⟨?_, ?_, hmade ▸ h.numbered, htimers, ?_, ?_, ?_, ?_⟩
  · exact (hheld.map _).nodup_iff.mpr h.nodup
  · intro msg hmsg
    rw [hmade]
    exact h.known msg (hheld.mem_iff.mp hmsg)
  · intro msg hmsg
    rw [htrace]
    exact h.quiet msg (hwaiting.mem_iff.mp hmsg)
  · rw [htask, htrace]
    exact h.working
  · intro msg hmsg hnot
    rw [htrace]
    exact h.ended msg (hmade ▸ hmsg) fun hin => hnot (hheld.mem_iff.mpr hin)
  · rw [hlog, hmade]
    exact h.logged

/-- Records with one number are one record. -/
theorem Inv.eq_of_event {a b : Signal} (h : Inv s) (ha : a ∈ s.made) (hb : b ∈ s.made)
    (heq : a.event = b.event) : a = b := by
  obtain ⟨i, hi⟩ := List.mem_iff_getElem?.mp ha
  obtain ⟨j, hj⟩ := List.mem_iff_getElem?.mp hb
  have := h.numbered i a hi
  have := h.numbered j b hj
  obtain rfl : i = j := by omega
  exact Option.some.inj (hi.symm.trans hj)

theorem Inv.made_of_held (h : Inv s) (hmsg : msg ∈ s.held) : msg ∈ s.made :=
  List.mem_iff_getElem?.mpr ⟨_, h.known msg hmsg⟩

theorem held_inHand (hlost : s.lost = none) (msg : Signal) :
    (s.inHand msg).held.Perm (msg :: s.held) := by
  simp only [OvmsEvents.held, OvmsEvents.waiting, OvmsEvents.inHand, hlost, Option.toList_some,
    Option.toList_none, List.append_nil, List.append_assoc, List.singleton_append]
  rw [← List.append_assoc, ← List.append_assoc]
  exact List.perm_middle

/-- The calls of a drop are added to the trace of its event only. -/
theorem trace_drop (s : OvmsEvents) (msg : Signal) (event : ℕ) :
    (s.drop msg).trace event =
      s.trace event ++ if msg.event = event then freeQueueSignalEvent msg else [] := by
  unfold OvmsEvents.drop OvmsEvents.trace
  rw [List.filter_append, List.map_append]
  congr 1
  split
  · next h => simp [List.filter_map, h, Function.comp_def]
  · next h => simp [List.filter_map, h, Function.comp_def]

/-- A record in hand is dropped. -/
theorem Inv.drop (h : Inv (s.inHand msg)) (hlost : s.lost = none) : Inv (s.drop msg) := by
  have hperm := held_inHand hlost msg
  have hheld : (s.drop msg).held = s.held := rfl
  have hnodup : msg.event ∉ s.held.map Signal.event ∧ (s.held.map Signal.event).Nodup :=
    List.nodup_cons.mp ((hperm.map Signal.event).nodup_iff.mp h.nodup)
  have hin : ∀ m ∈ s.held, m ∈ (s.inHand msg).held := fun m hm =>
    hperm.mem_iff.mpr (List.mem_cons_of_mem _ hm)
  have hmsg : msg ∈ (s.inHand msg).held := hperm.mem_iff.mpr List.mem_cons_self
  -- the calls made now are made for this event only
  have hother : ∀ m : Signal, m.event ≠ msg.event →
      (s.drop msg).trace m.event = s.trace m.event := by
    intro m hne
    rw [trace_drop, if_neg (Ne.symm hne), List.append_nil]
  have hne : ∀ m ∈ s.held, m.event ≠ msg.event := fun m hm heq =>
    hnodup.1 (heq ▸ List.mem_map_of_mem hm)
  have hwaits : ∀ m ∈ s.waiting, m ∈ s.held := fun m hm => List.mem_append_left _ hm
  refine ⟨hnodup.2, fun m hm => h.known m (hin m hm), h.numbered, h.timers, ?_, ?_, ?_, ?_⟩
  · intro m hm
    rw [hother m (hne m (hwaits m hm))]
    have hm' : m ∈ s.waiting := hm
    rw [OvmsEvents.waiting, hlost, Option.toList_none, List.append_nil] at hm'
    exact h.quiet m (List.mem_append_left _ hm')
  · intro m rest htask
    have hm : m ∈ s.held := List.mem_append_right _ (by rw [show s.task = _ from htask]; simp)
    rw [hother m (hne m hm)]
    exact h.working m rest htask
  · intro m hm hnot
    by_cases heq : m = msg
    · subst heq
      left
      rw [trace_drop, if_pos rfl]
      have : s.trace m.event = [] :=
        h.quiet m (List.mem_append_right _ (by simp [OvmsEvents.inHand]))
      rw [this, List.nil_append]
    · rw [hother m fun hev => heq (h.eq_of_event hm (h.made_of_held hmsg) hev)]
      exact h.ended m hm fun hheld => by
        obtain hm | hm := List.mem_cons.mp (hperm.mem_iff.mp hheld)
        · exact heq hm
        · exact hnot hm
  · intro entry hentry
    obtain hentry | hentry := List.mem_append.mp hentry
    · exact h.logged entry hentry
    · obtain ⟨call, -, rfl⟩ := List.mem_map.mp hentry
      exact (List.getElem?_eq_some_iff.mp (h.known msg hmsg)).1

/-- A record in hand is sent, or dropped, or the system ends. -/
theorem Inv.send (capacity : ℕ) (h : Inv (s.inHand msg)) (hlost : s.lost = none) :
    Sound (s.send capacity msg) := by
  unfold OvmsEvents.send
  split
  · refine ⟨h.move ?_ h.timers rfl rfl rfl, fun _ => hlost⟩
    simp only [OvmsEvents.waiting, OvmsEvents.inHand, hlost, List.filterMap_append,
      List.filterMap_cons, List.filterMap_nil, Msg.signal?, Option.toList_none, Option.toList_some,
      List.append_nil, List.append_assoc]
    exact List.perm_append_comm.append_left _
  · split
    · exact ⟨h.drop hlost, fun _ => hlost⟩
    · exact ⟨h.move (List.Perm.refl _) h.timers rfl rfl rfl, fun hrun => by cases hrun⟩

/-- A timer is started for a record in hand, or not. -/
theorem Inv.start {i : ℕ} {t : Timer} (h : Inv (s.inHand msg)) (hlost : s.lost = none)
    (ht : s.timers[i]? = some t) (hfree : t.active = false) (works : Works) :
    (s.start msg i works).2.lost = none ∧
      if (s.start msg i works).1 then Inv (s.start msg i works).2
      else Inv ((s.start msg i works).2.inHand msg) := by
  have hsound := h.timers t (List.mem_of_getElem? ht)
  have hnone : t.timerID = none := by
    by_contra hsome
    rw [hsound.1.mpr hsome] at hfree
    cases hfree
  unfold OvmsEvents.start
  split
  · refine ⟨hlost, h.move ?_ ?_ rfl rfl rfl⟩
    · have := payloads_set ht ⟨some msg, true, .started⟩
      simp only [hnone, Option.toList_none, Option.toList_some, List.nil_append] at this
      simp only [OvmsEvents.waiting, OvmsEvents.inHand, hlost, Option.toList_none,
        Option.toList_some, List.append_nil, List.append_assoc]
      exact (this.trans (@List.perm_append_comm _ [msg] _)).append_left _
    · intro t' ht'
      obtain ht' | rfl := List.mem_or_eq_of_mem_set ht'
      · exact h.timers t' ht'
      · exact ⟨by simp, by simp⟩
  · have hsame : (s.timers.modify i fun t => { t with timerID := none }) = s.timers := by
      refine List.ext_getElem? fun j => ?_
      rw [List.getElem?_modify]
      split
      · next hij =>
        subst hij
        rw [ht]
        simp [← hnone]
      · exact id_map _
    refine ⟨hlost, ?_⟩
    rw [hsame]
    exact h

/-- `ScheduleEvent`, with a record in hand. -/
theorem Inv.scheduleEvent (h : Inv (s.inHand msg)) (hlost : s.lost = none) (works : Works) :
    (s.scheduleEvent msg works).2.lost = none ∧
      if (s.scheduleEvent msg works).1 then Inv (s.scheduleEvent msg works).2
      else Inv ((s.scheduleEvent msg works).2.inHand msg) := by
  unfold OvmsEvents.scheduleEvent
  split
  · exact ⟨hlost, h⟩
  · split
    · next i hfind =>
      obtain ⟨hi, hfree, -⟩ := List.findIdx?_eq_some_iff_getElem.mp hfind
      exact h.start hlost (List.getElem?_eq_getElem hi) (by simpa using hfree) works
    · split
      · exact ⟨hlost, h⟩
      · have hnew : Inv (OvmsEvents.inHand
            { s with timers := s.timers ++ [⟨none, false, .dormant⟩] } msg) := by
          refine h.move ?_ ?_ rfl rfl rfl
          · simp [OvmsEvents.waiting, OvmsEvents.inHand, List.filterMap_append]
          · intro t ht
            obtain ht | ht := List.mem_append.mp ht
            · exact h.timers t ht
            · obtain rfl := List.mem_singleton.mp ht
              exact ⟨by simp, by simp⟩
        exact hnew.start hlost List.getElem?_concat_length rfl works

/-- A record that is made is in hand. -/
theorem Inv.make (h : Inv s) (hlost : s.lost = none) (name : Text) (argument : Argument) :
    Inv (OvmsEvents.inHand { s with made := s.made ++ [record s.made.length name argument] }
      (record s.made.length name argument)) := by
  set msg := record s.made.length name argument with hmsg
  have hevent : msg.event = s.made.length := event_record _ _ _
  have hperm : (OvmsEvents.inHand { s with made := s.made ++ [msg] } msg).held.Perm
      (msg :: s.held) := held_inHand (s := { s with made := s.made ++ [msg] }) hlost msg
  have hbelow : ∀ m ∈ s.held, m.event < s.made.length := fun m hm =>
    (List.getElem?_eq_some_iff.mp (h.known m hm)).1
  have hfresh : s.trace msg.event = [] := by
    rw [OvmsEvents.trace, List.filter_eq_nil_iff.mpr, List.map_nil]
    intro entry hentry heq
    have := h.logged entry hentry
    have := of_decide_eq_true heq
    omega
  refine ⟨?_, ?_, ?_, h.timers, ?_, h.working, ?_, ?_⟩
  · refine (hperm.map Signal.event).nodup_iff.mpr (List.nodup_cons.mpr ⟨fun hin => ?_, h.nodup⟩)
    obtain ⟨m, hm, heq⟩ := List.mem_map.mp hin
    have := hbelow m hm
    omega
  · intro m hm
    change (s.made ++ [msg])[m.event]? = some m
    obtain rfl | hm := List.mem_cons.mp (hperm.mem_iff.mp hm)
    · rw [hevent]
      simp
    · rw [List.getElem?_append_left (hbelow m hm)]
      exact h.known m hm
  · intro id m hm
    obtain hm | ⟨hid, hm⟩ : s.made[id]? = some m ∨ id = s.made.length ∧ msg = m := by
      have hm' : (s.made ++ [msg])[id]? = some m := hm
      rw [List.getElem?_append] at hm'
      split at hm'
      · exact .inl hm'
      · next hge =>
        obtain ⟨hlt, heq⟩ := List.getElem?_eq_some_iff.mp hm'
        simp only [List.length_singleton, Nat.lt_one_iff] at hlt
        exact .inr ⟨by omega, by simpa using heq⟩
    · exact h.numbered id m hm
    · rw [← hm, hevent, hid]
  · intro m hm
    obtain hm | hm := List.mem_append.mp hm
    · exact h.quiet m (List.mem_append_left _ hm)
    · obtain rfl : m = msg := by simpa [OvmsEvents.inHand] using hm
      exact hfresh
  · intro m hm hnot
    obtain hm | hm := List.mem_append.mp hm
    · exact h.ended m hm fun hin => hnot (hperm.mem_iff.mpr (List.mem_cons_of_mem _ hin))
    · exact absurd (hperm.mem_iff.mpr (by rw [List.mem_singleton.mp hm]; exact List.mem_cons_self))
        hnot
  · intro entry hentry
    have := h.logged entry hentry
    change entry.1 < (s.made ++ [msg]).length
    rw [List.length_append]
    omega

/-- `SignalEvent`. -/
theorem Inv.signalEvent (capacity : ℕ) (h : Inv s) (hlost : s.lost = none) (name : Text)
    (argument : Argument) (delay : ℕ) (works : Works) :
    Sound (s.signalEvent capacity name argument delay works) := by
  have hmake := h.make hlost name argument
  unfold OvmsEvents.signalEvent
  simp only []
  split
  · exact hmake.send capacity hlost
  · obtain ⟨hlost', hinv⟩ := hmake.scheduleEvent hlost works
    split
    · next s' heq =>
      rw [heq] at hlost' hinv
      exact ⟨hinv, fun _ => hlost'⟩
    · next s' heq =>
      rw [heq] at hlost' hinv
      exact ⟨hinv.drop hlost', fun _ => hlost'⟩

/-- A timer that runs expires. -/
theorem Inv.expire {i : ℕ} {t : Timer} (ht : s.timers[i]? = some t) (hstate : t.state = .started)
    (h : Inv s) : Inv (s.expire i) := by
  have hsound := h.timers t (List.mem_of_getElem? ht)
  have hset : s.expire i = { s with timers := s.timers.set i { t with state := .expired } } := by
    unfold OvmsEvents.expire
    rw [List.modify_eq_set_getElem?, ht]
    rfl
  rw [hset]
  refine h.move ?_ ?_ rfl rfl rfl
  · have hsame := (List.perm_append_left_iff _).mp (payloads_set ht { t with state := .expired })
    exact (hsame.append_left _).append_right _
  · intro t' ht'
    obtain ht' | rfl := List.mem_or_eq_of_mem_set ht'
    · exact h.timers t' ht'
    · refine ⟨hsound.1, ?_⟩
      rw [hsound.2, hstate]
      simp

/-- The callback of a timer. -/
theorem Inv.signalScheduledEvent (capacity : ℕ) {i : ℕ} {t : Timer} (ht : s.timers[i]? = some t)
    (hstate : t.state = .expired) (h : Inv s) (hlost : s.lost = none) :
    Sound (s.signalScheduledEvent capacity i) := by
  have hsound := h.timers t (List.mem_of_getElem? ht)
  have hactive : t.active = true := by
    rw [← Bool.not_eq_false, hsound.2, hstate]
    simp
  obtain ⟨msg, hmsg⟩ := Option.ne_none_iff_exists'.mp (hsound.1.mp hactive)
  have hsend : s.signalScheduledEvent capacity i =
      { s with timers := s.timers.set i ⟨none, false, .dormant⟩ }.send capacity msg := by
    unfold OvmsEvents.signalScheduledEvent
    rw [ht]
    simp only [hmsg]
  rw [hsend]
  refine Inv.send capacity ?_ hlost
  refine h.move ?_ ?_ rfl rfl rfl
  · have := payloads_set ht ⟨none, false, .dormant⟩
    simp only [hmsg, Option.toList_none, Option.toList_some, List.nil_append] at this
    simp only [OvmsEvents.waiting, OvmsEvents.inHand, hlost, Option.toList_none,
      Option.toList_some, List.append_nil, List.append_assoc]
    exact ((@List.perm_append_comm _ _ [msg]).trans this).append_left _
  · intro t' ht'
    obtain ht' | rfl := List.mem_or_eq_of_mem_set ht'
    · exact h.timers t' ht'
    · exact ⟨by simp, by simp⟩

/-- The event task takes a message. -/
theorem Inv.receive (htask : s.task = none) (h : Inv s) : Inv s.receive := by
  unfold OvmsEvents.receive
  split
  · exact h
  · next q hq =>
    refine h.move ?_ h.timers rfl rfl rfl
    rw [OvmsEvents.waiting, OvmsEvents.waiting, hq]
    rfl
  · next msg q hq =>
    set s' : OvmsEvents := { s with taskqueue := q, task := some (msg, handleQueueSignalEvent msg) }
    have hwaiting : s.waiting = msg :: s'.waiting := by
      rw [OvmsEvents.waiting, hq]
      rfl
    have hheld : s'.held.Perm s.held := by
      have hs : s.held = msg :: s'.waiting := by
        rw [OvmsEvents.held, htask, hwaiting]
        exact List.append_nil _
      rw [hs]
      exact @List.perm_append_comm _ _ [msg]
    have hquiet : s.trace msg.event = [] := h.quiet msg (by rw [hwaiting]; exact List.mem_cons_self)
    refine ⟨(hheld.map _).nodup_iff.mpr h.nodup, fun m hm => h.known m (hheld.mem_iff.mp hm),
      h.numbered, h.timers,
      fun m hm => h.quiet m (by rw [hwaiting]; exact List.mem_cons_of_mem _ hm),
      ?_, fun m hm hnot => h.ended m hm fun hin => hnot (hheld.mem_iff.mpr hin), h.logged⟩
    intro m rest hm
    obtain ⟨rfl, rfl⟩ := Prod.mk.inj (Option.some.inj hm)
    refine ⟨by cases msg <;> simp [handleQueueSignalEvent, handlers], ?_⟩
    have : s'.trace msg.event = [] := hquiet
    rw [this, List.nil_append]

/-- A call of the event task is added to the trace of its event only. -/
theorem trace_work {call : Call} {rest : List Call} (htask : s.task = some (msg, call :: rest))
    (event : ℕ) :
    s.work.trace event = s.trace event ++ if msg.event = event then [call] else [] := by
  unfold OvmsEvents.work OvmsEvents.trace
  rw [htask]
  simp only [List.filter_append, List.map_append]
  congr 1
  split
  · next h => simp [h]
  · next h => simp [h]

/-- The event task makes its next call. -/
theorem Inv.work (h : Inv s) (htask : s.task ≠ none) : Inv s.work := by
  obtain ⟨⟨msg, calls⟩, hsome⟩ := Option.ne_none_iff_exists'.mp htask
  obtain ⟨hne, htrace⟩ := h.working msg calls hsome
  obtain ⟨call, rest, rfl⟩ := List.exists_cons_of_ne_nil hne
  have hwaiting : s.work.waiting = s.waiting := by
    unfold OvmsEvents.work
    rw [hsome]
    rfl
  have htask' : s.work.task = if rest.isEmpty then none else some (msg, rest) := by
    unfold OvmsEvents.work
    rw [hsome]
  have hlog : s.work.log = s.log ++ [(msg.event, call)] := by
    unfold OvmsEvents.work
    rw [hsome]
  have hmade : s.work.made = s.made := by
    unfold OvmsEvents.work
    rw [hsome]
  have htimers : s.work.timers = s.timers := by
    unfold OvmsEvents.work
    rw [hsome]
  have hheld : s.held = s.waiting ++ [msg] := by
    rw [OvmsEvents.held, hsome]
    rfl
  have hsub : s.work.held.Sublist s.held := by
    rw [hheld, OvmsEvents.held, hwaiting, htask']
    split
    · exact (List.nil_sublist _).append_left _
    · exact List.Sublist.refl _
  have hmsg : msg ∈ s.held := by
    rw [hheld]
    exact List.mem_append_right _ List.mem_cons_self
  have hself : s.work.trace msg.event ++ rest = handleQueueSignalEvent msg := by
    rw [trace_work hsome, if_pos rfl, List.append_assoc]
    exact htrace
  -- no other record has the number of the one that the task works on
  have hother : ∀ m ∈ s.made, m ≠ msg → s.work.trace m.event = s.trace m.event := by
    intro m hm hne
    rw [trace_work hsome, if_neg, List.append_nil]
    exact fun heq => hne (h.eq_of_event hm (h.made_of_held hmsg) heq.symm)
  refine ⟨h.nodup.sublist (hsub.map _), ?_, ?_, ?_, ?_, ?_, ?_, ?_⟩
  · intro m hm
    rw [hmade]
    exact h.known m (hsub.subset hm)
  · rw [hmade]
    exact h.numbered
  · rw [htimers]
    exact h.timers
  · intro m hm
    rw [hwaiting] at hm
    have hnodup := h.nodup
    rw [hheld, List.map_append, List.nodup_append] at hnodup
    have hne : m ≠ msg := fun heq =>
      hnodup.2.2 _ (List.mem_map_of_mem hm) _ List.mem_cons_self (by rw [heq])
    rw [hother m (h.made_of_held (List.mem_append_left _ hm)) hne]
    exact h.quiet m hm
  · intro m rest' hm
    rw [htask'] at hm
    split at hm
    · cases hm
    · next hrest =>
      obtain ⟨rfl, rfl⟩ := Prod.mk.inj (Option.some.inj hm)
      exact ⟨fun hnil => hrest (List.isEmpty_iff.mpr hnil), hself⟩
  · intro m hm hnot
    rw [hmade] at hm
    by_cases hne : m = msg
    · subst hne
      right
      have hempty : rest = [] := by
        by_contra hrest
        refine hnot (List.mem_append_right _ ?_)
        rw [htask', if_neg fun he => hrest (List.isEmpty_iff.mp he)]
        exact List.mem_cons_self
      rw [← hself, hempty, List.append_nil]
    · rw [hother m hm hne]
      refine h.ended m hm fun hin => hnot ?_
      rw [hheld] at hin
      obtain hin | hin := List.mem_append.mp hin
      · exact List.mem_append_left _ (hwaiting ▸ hin)
      · exact absurd (List.mem_singleton.mp hin) hne
  · intro entry hentry
    rw [hlog] at hentry
    rw [hmade]
    obtain hentry | hentry := List.mem_append.mp hentry
    · exact h.logged entry hentry
    · rw [List.mem_singleton.mp hentry]
      exact (List.getElem?_eq_some_iff.mp (h.known msg hmsg)).1

/-- **The step lemma.** -/
theorem Sound.step {e : Event} (h : Sound s) (he : Admitted s e) :
    Sound (Timers.step capacity s e) := by
  obtain ⟨hrun, he⟩ := he
  have hlost := h.idle hrun
  cases e with
  | signalEvent name argument delay works =>
    exact h.inv.signalEvent capacity hlost name argument _ _
  | sendOther name =>
    change Sound (s.sendOther capacity name)
    unfold OvmsEvents.sendOther
    split
    · refine ⟨h.inv.move ?_ h.inv.timers rfl rfl rfl, fun _ => hlost⟩
      simp [OvmsEvents.waiting, List.filterMap_append, List.filterMap_cons, Msg.signal?]
    · split
      · exact h
      · exact ⟨h.inv.move (List.Perm.refl _) h.inv.timers rfl rfl rfl, fun hrun => by cases hrun⟩
  | expire i =>
    obtain ⟨t, ht, hstate⟩ := Option.map_eq_some_iff.mp he
    exact ⟨h.inv.expire ht hstate, fun _ => hlost⟩
  | signalScheduledEvent i =>
    obtain ⟨t, ht, hstate⟩ := Option.map_eq_some_iff.mp he
    exact h.inv.signalScheduledEvent capacity ht hstate hlost
  | receive =>
    refine ⟨h.inv.receive he.1, fun _ => ?_⟩
    change s.receive.lost = none
    unfold OvmsEvents.receive
    split <;> exact hlost
  | work =>
    refine ⟨h.inv.work he, fun _ => ?_⟩
    change s.work.lost = none
    unfold OvmsEvents.work
    split <;> exact hlost
  | queueTimeout =>
    exact ⟨h.inv.move (List.Perm.refl _) h.inv.timers rfl rfl rfl, fun hrun => by cases hrun⟩

/-- At the start nobody has a record. -/
theorem sound_new : Sound OvmsEvents.new where
  inv :=
    { nodup := List.nodup_nil
      known := fun _ hmsg => by cases hmsg
      numbered := fun _ _ h => by cases h
      timers := fun _ ht => by cases ht
      quiet := fun _ hmsg => by cases hmsg
      working := fun _ _ h => by cases h
      ended := fun _ hmsg => by cases hmsg
      logged := fun _ hentry => by cases hentry }
  idle := fun _ => rfl

end Steps

/-! ### Results -/

/-- How far an event has come: its record waits and nothing was called; the event task works on
it and has calls left; it was dropped; it was handled. `FreeQueueSignalEvent` has run once in the
last two cases, and its last call has not been made in the first two. -/
inductive Life (s : OvmsEvents) (msg : Signal) : Prop
  | waits (hwaits : msg ∈ s.waiting) (htrace : s.trace msg.event = [])
  | worked (rest : List Call) (htask : s.task = some (msg, rest)) (hrest : rest ≠ [])
    (htrace : s.trace msg.event ++ rest = handleQueueSignalEvent msg)
  | dropped (hnot : msg ∉ s.held) (htrace : s.trace msg.event = freeQueueSignalEvent msg)
  | handled (hnot : msg ∉ s.held) (htrace : s.trace msg.event = handleQueueSignalEvent msg)

/-- The event that waits in a timer. -/
def OvmsEvents.payload (s : OvmsEvents) (i : ℕ) : Option Signal :=
  s.timers[i]?.bind Timer.timerID

section Payload

variable {s : OvmsEvents} {msg other : Signal} {i : ℕ}

end Payload

end Ovms.Events.Timers
