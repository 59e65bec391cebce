import Mathlib.Data.List.Infix
import Std.Data.TreeMap
import Ovms.Lib.Machine

/-!
# Event Handlers

`OvmsEvents` (`main/ovms_events.cpp`): handlers are registered, deregistered and called through
one queue. The event task takes the messages off the queue; while it works on a signal it runs
callbacks, and these, like all other tasks, may register, deregister and signal.

`DeregisterEvent` in the event task does two things: it invalidates the handlers of its caller
that stand in the map, and it sends a message that removes them. Handlers that are still in
the queue are not invalidated: those in front of a signal are added, and invoked by it, before
the removal comes (`deregistration_late`). All others are not invoked any more
(`deregistration_effective`). A handler that is registered while an event is processed is
never invoked for that event.

The event task calls callbacks, phase functions, scripts and completion functions; what these
do comes between two steps of the loops. What the messages carry beside names is not
modelled, and neither are timers: an event that is delayed is signalled by another task. A
queue that overflows ends the system, but drops what has a name that starts with `ticker.`.
-/

open Lib Std

namespace Ovms.Events

/-- A name: its bytes, without the terminator. -/
abbrev Text := List UInt8

/-- The name of all events. -/
def anyEvent : Text := [0x2A]

/-- `ticker.`. -/
def tickerPrefix : Text := [0x74, 0x69, 0x63, 0x6B, 0x65, 0x72, 0x2E]

/-- `EventCallbackEntry`; of the callback, whether there is one. Handlers are numbered in the
order in which they are made. -/
structure EventCallbackEntry where
  object : ℕ
  caller : Text
  callback : Bool
  deriving DecidableEq

/-- `event_queue_t`. -/
inductive Msg
  | addhandler (event : Text) (handler : EventCallbackEntry)
  | removehandlers (caller : Text)
  | signal (event : Text)
  deriving DecidableEq

/-- What the event task does: it waits for a message, or it is in one of the two loops of
`HandleQueueSignalEvent` at a handler, or behind them. -/
inductive Task
  | waiting
  | specific (event : Text) (i : ℕ)
  | any (event : Text) (i : ℕ)
  | scripts (event : Text)
  deriving DecidableEq

/-- The event that is processed. -/
def Task.event : Task → Option Text
  | waiting => none
  | specific event _ | any event _ | scripts event => some event

/-- `OvmsEvents`, with a `DeregisterEvent` of the event task on its way. Beside it stand the
callers of the handlers made so far, how many there were when the current event was received,
and the handlers that were registered before their caller was deregistered in the event task. -/
structure OvmsEvents where
  taskqueue : List Msg
  map : TreeMap Text (List EventCallbackEntry)
  task : Task
  deregistering : Option Text
  aborted : Bool
  made : List Text
  since : ℕ
  gone : List ℕ

namespace OvmsEvents

/-- At the start. -/
def new : OvmsEvents := ⟨[], ∅, .waiting, none, false, [], 0, []⟩

/-- The handlers of an event. -/
def handlers (s : OvmsEvents) (event : Text) : List EventCallbackEntry := s.map[event]?.getD []

/-- `xQueueSend`, and `CheckQueueOverflow` with the name that it is told. -/
def send (capacity : ℕ) (s : OvmsEvents) (msg : Msg) (event : Text) : OvmsEvents :=
  if s.taskqueue.length < capacity then { s with taskqueue := s.taskqueue ++ [msg] }
  else if tickerPrefix <+: event then s
  else { s with aborted := true }

/-- `RegisterEvent`. -/
def registerEvent (capacity : ℕ) (s : OvmsEvents) (caller event : Text) : OvmsEvents :=
  { s with made := s.made ++ [caller] }.send capacity
    (.addhandler event ⟨s.made.length, caller, true⟩) event

/-- `SignalEvent`. -/
def signalEvent (capacity : ℕ) (s : OvmsEvents) (event : Text) : OvmsEvents :=
  s.send capacity (.signal event) event

/-- The first pass of `DeregisterEvent`, in the event task. -/
def invalidate (s : OvmsEvents) (caller : Text) : OvmsEvents :=
  { s with
    map := s.map.map fun _ el =>
      el.map fun ec => if ec.caller = caller then { ec with callback := false } else ec
    deregistering := some caller }

/-- The rest of `DeregisterEvent`. -/
def scheduleDeletion (capacity : ℕ) (s : OvmsEvents) (caller : Text) : OvmsEvents :=
  s.send capacity (.removehandlers caller) caller

/-- The end of a `DeregisterEvent` of the event task. -/
def finishDeregister (capacity : ℕ) (s : OvmsEvents) : OvmsEvents :=
  match s.deregistering with
  | none => s
  | some caller =>
      { s.scheduleDeletion capacity caller with
        deregistering := none
        gone := s.gone ++ (List.range s.made.length).filter fun o => s.made[o]? = some caller }

/-- `HandleQueueAddHandler`. -/
def handleQueueAddHandler (s : OvmsEvents) (event : Text) (handler : EventCallbackEntry) :
    OvmsEvents :=
  { s with map := s.map.insert event (s.handlers event ++ [handler]) }

/-- `HandleQueueRemoveHandlers`. -/
def handleQueueRemoveHandlers (s : OvmsEvents) (caller : Text) : OvmsEvents :=
  { s with
    map := s.map.filterMap fun _ el =>
      let el := el.filter fun ec => ec.caller ≠ caller
      if el.isEmpty then none else some el }

/-- The next message that `EventTask` takes off the queue. -/
def receive (s : OvmsEvents) : OvmsEvents :=
  match s.taskqueue with
  | [] => s
  | .addhandler event handler :: q =>
      { s with taskqueue := q }.handleQueueAddHandler event handler
  | .removehandlers caller :: q => { s with taskqueue := q }.handleQueueRemoveHandlers caller
  | .signal event :: q =>
      { s with taskqueue := q, task := .specific event 0, since := s.made.length }

/-- The next step of `HandleQueueSignalEvent`. -/
def visit (s : OvmsEvents) : OvmsEvents :=
  match s.task with
  | .waiting => s
  | .specific event i =>
      match (s.handlers event)[i]? with
      | some _ => { s with task := .specific event (i + 1) }
      | none => { s with task := .any event 0 }
  | .any event i =>
      match (s.handlers anyEvent)[i]? with
      | some _ => { s with task := .any event (i + 1) }
      | none => { s with task := .scripts event }
  | .scripts _ => { s with task := .waiting }

/-- The handler that the event task has come to. -/
def current (s : OvmsEvents) : Option EventCallbackEntry :=
  match s.task with
  | .specific event i => (s.handlers event)[i]?
  | .any _ i => (s.handlers anyEvent)[i]?
  | _ => none

end OvmsEvents

/-! ### Runs -/

/-- What the tasks do. -/
inductive Event
  | registerEvent (caller event : Text)
  | signalEvent (event : Text)
  | deregisterEvent (caller : Text)
  | invalidate (caller : Text)
  | finishDeregister
  | receive
  | visit
  deriving DecidableEq

variable (capacity : ℕ)

/-- A step. -/
def step (s : OvmsEvents) : Event → OvmsEvents
  | .registerEvent caller event => s.registerEvent capacity caller event
  | .signalEvent event => s.signalEvent capacity event
  | .deregisterEvent caller => s.scheduleDeletion capacity caller
  | .invalidate caller => s.invalidate caller
  | .finishDeregister => s.finishDeregister capacity
  | .receive => s.receive
  | .visit => s.visit

/-- Nothing happens after an overflow. The event task takes a message when it waits for one, and
goes on with a signal when no `DeregisterEvent` is on its way; it calls `DeregisterEvent` while
it works on a signal. Other tasks do what they do at any time. -/
def Admitted (s : OvmsEvents) (e : Event) : Prop :=
  s.aborted = false ∧ match e with
    | .registerEvent .. | .signalEvent _ | .deregisterEvent _ => True
    | .invalidate _ | .visit => s.task ≠ .waiting ∧ s.deregistering = none
    | .finishDeregister => s.deregistering ≠ none
    | .receive => s.task = .waiting ∧ s.taskqueue ≠ []

instance (s : OvmsEvents) (e : Event) : Decidable (Admitted s e) := by
  unfold Admitted
  cases e <;> infer_instance

/-- The handler that a step invokes. -/
def invokes (s : OvmsEvents) : Event → Option ℕ
  | .visit => s.current.bind fun ec => if ec.callback then some ec.object else none
  | _ => none

/-! ### Handlers that wait in the queue -/

/-- A handler registered for an event, or for all, is called for an event. -/
def Matches (registered event : Text) : Prop := registered = event ∨ registered = anyEvent

instance (registered event : Text) : Decidable (Matches registered event) :=
  inferInstanceAs (Decidable (_ ∨ _))

/-- A removal of the handlers of a caller comes before every signal that one of them is called
for. -/
def guarded (caller event : Text) : List Msg → Bool
  | [] => false
  | .addhandler _ _ :: q => guarded caller event q
  | .removehandlers c :: q => c = caller || guarded caller event q
  | .signal e :: q => !decide (Matches event e) && guarded caller event q

/-- All handlers of a caller that wait in the queue are guarded. -/
def covered (caller : Text) : List Msg → Bool
  | [] => true
  | .addhandler event ec :: q =>
      (decide (ec.caller ≠ caller) || guarded caller event q) && covered caller q
  | _ :: q => covered caller q

/-- When a `DeregisterEvent` of the event task returns, the handlers of its caller that wait in
the queue are guarded, unless the system ends. -/
def SafeAt (s : OvmsEvents) : Event → Prop
  | .finishDeregister => s.deregistering.all fun caller =>
      (s.scheduleDeletion capacity caller).aborted ||
        covered caller (s.scheduleDeletion capacity caller).taskqueue
  | _ => True

instance (s : OvmsEvents) (e : Event) : Decidable (SafeAt capacity s e) := by
  unfold SafeAt
  cases e <;> infer_instance

/-- **Deregistration is effective**: a handler that was registered before its caller was
deregistered in the event task is not invoked. -/
def Effective (s : OvmsEvents) (e : Event) : Prop := ∀ o, invokes s e = some o → o ∉ s.gone

/-- A handler that was registered since the event was received is not invoked for it. -/
def Settled (s : OvmsEvents) (e : Event) : Prop := ∀ o, invokes s e = some o → o < s.since

variable {capacity} {s : OvmsEvents}

/-! ### The map -/

theorem handlers_handleQueueAddHandler (event event' : Text) (ec : EventCallbackEntry) :
    (s.handleQueueAddHandler event ec).handlers event' =
      if event = event' then s.handlers event ++ [ec] else s.handlers event' := by
  rw [OvmsEvents.handleQueueAddHandler, OvmsEvents.handlers, TreeMap.getElem?_insert]
  simp only [Std.LawfulEqCmp.compare_eq_iff_eq]
  split <;> rfl

theorem handlers_handleQueueRemoveHandlers (caller event : Text) :
    (s.handleQueueRemoveHandlers caller).handlers event =
      (s.handlers event).filter fun ec => ec.caller ≠ caller := by
  rw [OvmsEvents.handleQueueRemoveHandlers, OvmsEvents.handlers, OvmsEvents.handlers,
    TreeMap.getElem?_filterMap']
  cases s.map[event]? with
  | none => rfl
  | some el =>
      simp only [Option.bind_some, Option.getD_some]
      split
      · next hempty => exact (List.isEmpty_iff.mp hempty).symm
      · rfl

theorem handlers_invalidate (caller event : Text) :
    (s.invalidate caller).handlers event = (s.handlers event).map fun ec =>
      if ec.caller = caller then { ec with callback := false } else ec := by
  rw [OvmsEvents.invalidate, OvmsEvents.handlers, OvmsEvents.handlers, TreeMap.getElem?_map]
  cases s.map[event]? <;> rfl

/-- A handler that stands in the map after an invalidation. -/
theorem mem_handlers_invalidate {caller event : Text} {ec : EventCallbackEntry}
    (h : ec ∈ (s.invalidate caller).handlers event) :
    (ec.caller = caller → ec.callback = false) ∧ ∃ ec' ∈ s.handlers event,
      ec'.object = ec.object ∧ ec'.caller = ec.caller ∧
        (ec.callback = true → ec'.callback = true) := by
  rw [handlers_invalidate] at h
  obtain ⟨ec', hmem, rfl⟩ := List.mem_map.mp h
  by_cases hcaller : ec'.caller = caller
  · rw [if_pos hcaller]
    exact ⟨fun _ => rfl, ec', hmem, rfl, rfl, fun h => by cases h⟩
  · rw [if_neg hcaller]
    exact ⟨fun heq => absurd heq hcaller, ec', hmem, rfl, rfl, id⟩

/-- What sending a message can do: the message is queued, or it is dropped, or the system
ends. -/
theorem send_cases (capacity : ℕ) (s : OvmsEvents) (msg : Msg) (event : Text) :
    s.send capacity msg event = { s with taskqueue := s.taskqueue ++ [msg] } ∨
      s.send capacity msg event = s ∨ s.send capacity msg event = { s with aborted := true } := by
  rw [OvmsEvents.send]
  split
  · exact .inl rfl
  · split
    · exact .inr (.inl rfl)
    · exact .inr (.inr rfl)

/-- What a step of the loops can do: the event task goes on with the event, or has done. -/
theorem visit_cases (s : OvmsEvents) : ∃ task, s.visit = { s with task := task } ∧
    ∀ e, task.event = some e → s.task.event = some e := by
  rw [OvmsEvents.visit.eq_def]
  rcases hs : s.task with _ | ⟨event, i⟩ | ⟨event, i⟩ | event
  · refine ⟨s.task, rfl, fun e he => ?_⟩
    rw [hs] at he
    cases he
  · simp only []
    split
    · exact ⟨_, rfl, fun _ => id⟩
    · exact ⟨_, rfl, fun _ => id⟩
  · simp only []
    split
    · exact ⟨_, rfl, fun _ => id⟩
    · exact ⟨_, rfl, fun _ => id⟩
  · exact ⟨.waiting, rfl, by rintro _ ⟨⟩⟩

/-! ### What holds in every run -/

/-- Handlers are numbered by their callers; those of a caller that is being deregistered in the
event task are not valid; and none in the map was registered since the event was received. -/
structure Sound (s : OvmsEvents) : Prop where
  map : ∀ event, ∀ ec ∈ s.handlers event, s.made[ec.object]? = some ec.caller
  queue : ∀ event ec, .addhandler event ec ∈ s.taskqueue → s.made[ec.object]? = some ec.caller
  gone : ∀ o ∈ s.gone, o < s.made.length
  invalid : ∀ caller, s.deregistering = some caller → s.task ≠ .waiting ∧
    ∀ event, ∀ ec ∈ s.handlers event, ec.caller = caller → ec.callback = false
  since : s.task ≠ .waiting → ∀ event, ∀ ec ∈ s.handlers event, ec.object < s.since

theorem scheduleDeletion_frame (capacity : ℕ) (s : OvmsEvents) (caller : Text) :
    (s.scheduleDeletion capacity caller).made = s.made ∧
      (s.scheduleDeletion capacity caller).gone = s.gone ∧
      (s.scheduleDeletion capacity caller).map = s.map := by
  obtain heq | heq | heq := send_cases capacity s (.removehandlers caller) caller <;>
    rw [OvmsEvents.scheduleDeletion, heq] <;> exact ⟨rfl, rfl, rfl⟩

/-- **Sending a message** with a handler that was made, if with one. -/
theorem Sound.send (h : Sound s) {msg : Msg} (hmsg : ∀ event ec, msg = .addhandler event ec →
    s.made[ec.object]? = some ec.caller) (event : Text) : Sound (s.send capacity msg event) := by
  obtain heq | heq | heq := send_cases capacity s msg event <;> rw [heq]
  · refine { h with queue := fun event ec hmem => ?_ }
    obtain hmem | hmem := List.mem_append.mp hmem
    · exact h.queue event ec hmem
    · exact hmsg event ec (List.mem_singleton.mp hmem).symm
  · exact h
  · exact { h with }

/-- A handler that is made. -/
theorem Sound.make (h : Sound s) (caller : Text) : Sound { s with made := s.made ++ [caller] } := by
  have hmade : ∀ {o : ℕ} {c : Text}, s.made[o]? = some c →
      (s.made ++ [caller])[o]? = some c := fun ho => by
    rw [List.getElem?_append_left (List.getElem?_eq_some_iff.mp ho).1, ho]
  refine { h with map := ?_, queue := ?_, gone := ?_ }
  · exact fun event ec hmem => hmade (h.map event ec hmem)
  · exact fun event ec hmem => hmade (h.queue event ec hmem)
  · intro o ho
    rw [List.length_append]
    exact Nat.lt_add_right _ (h.gone o ho)

/-- A message is taken from the queue. -/
theorem Sound.receive (h : Sound s) (hwaiting : s.task = .waiting) : Sound s.receive := by
  have hidle : s.deregistering = none := by
    by_contra hne
    obtain ⟨c, hc⟩ := Option.ne_none_iff_exists'.mp hne
    exact (h.invalid c hc).1 hwaiting
  rw [OvmsEvents.receive]
  split
  · exact h
  · next event ec q hq =>
      have hec := h.queue event ec (hq ▸ List.mem_cons_self)
      refine { h with map := ?_, queue := ?_, invalid := ?_, since := absurd hwaiting }
      · intro event' ec' hmem
        rw [handlers_handleQueueAddHandler] at hmem
        split at hmem
        · obtain hmem | hmem := List.mem_append.mp hmem
          · exact h.map _ _ hmem
          · exact List.mem_singleton.mp hmem ▸ hec
        · exact h.map _ _ hmem
      · exact fun event' ec' hmem => h.queue event' ec' (hq ▸ List.mem_cons_of_mem _ hmem)
      · intro c hc
        cases hidle.symm.trans hc
  · next caller q hq =>
      refine { h with map := ?_, queue := ?_, invalid := ?_, since := absurd hwaiting }
      · intro event' ec' hmem
        rw [handlers_handleQueueRemoveHandlers] at hmem
        exact h.map _ _ (List.mem_filter.mp hmem).1
      · exact fun event' ec' hmem => h.queue event' ec' (hq ▸ List.mem_cons_of_mem _ hmem)
      · intro c hc
        cases hidle.symm.trans hc
  · next event q hq =>
      refine { h with queue := ?_, invalid := ?_, since := ?_ }
      · exact fun event' ec' hmem => h.queue event' ec' (hq ▸ List.mem_cons_of_mem _ hmem)
      · intro c hc
        cases hidle.symm.trans hc
      · exact fun _ event' ec' hmem => (List.getElem?_eq_some_iff.mp (h.map event' ec' hmem)).1

/-- **The step lemma.** -/
theorem Sound.step (h : Sound s) {e : Event} (he : Admitted s e) :
    Sound (step capacity s e) := by
  cases e with
  | registerEvent caller event =>
      refine (h.make caller).send (fun event ec heq => ?_) event
      obtain ⟨rfl, rfl⟩ := Msg.addhandler.inj heq
      exact List.getElem?_concat_length
  | signalEvent event => exact h.send (by rintro _ _ ⟨⟩) event
  | deregisterEvent caller => exact h.send (by rintro _ _ ⟨⟩) caller
  | invalidate caller =>
      refine { h with map := ?_, invalid := ?_, since := ?_ }
      · intro event ec hmem
        obtain ⟨-, ec', hmem', hobject, hcaller, -⟩ := mem_handlers_invalidate hmem
        rw [← hobject, ← hcaller]
        exact h.map event ec' hmem'
      · rintro c hc
        obtain rfl := Option.some.inj hc
        exact ⟨he.2.1, fun event ec hmem => (mem_handlers_invalidate hmem).1⟩
      · intro htask event ec hmem
        obtain ⟨-, ec', hmem', hobject, -⟩ := mem_handlers_invalidate hmem
        exact hobject ▸ h.since htask event ec' hmem'
  | finishDeregister =>
      rw [Events.step, OvmsEvents.finishDeregister]
      split
      · exact h
      · next caller hc =>
          have hsend : Sound (s.scheduleDeletion capacity caller) :=
            h.send (by rintro _ _ ⟨⟩) caller
          refine { hsend with gone := ?_, invalid := by rintro _ ⟨⟩ }
          intro o ho
          change o < (s.scheduleDeletion capacity caller).made.length
          rw [(scheduleDeletion_frame capacity s caller).1]
          obtain ho | ho := List.mem_append.mp ho
          · exact h.gone o ho
          · exact List.mem_range.mp (List.mem_filter.mp ho).1
  | receive =>
      obtain ⟨-, hwaiting, -⟩ := he
      exact h.receive hwaiting
  | visit =>
      obtain ⟨-, hworking, hidle⟩ := he
      obtain ⟨task, heq, -⟩ := visit_cases s
      rw [Events.step, heq]
      refine { h with invalid := ?_, since := fun _ => h.since hworking }
      intro c hc
      cases hidle.symm.trans hc

/-- The handler that a step invokes stands in the map, for the event that is processed or for
all. -/
theorem invokes_eq_some {e : Event} {o : ℕ} (h : invokes s e = some o) :
    ∃ event ec, ec ∈ s.handlers event ∧ ec.callback = true ∧ ec.object = o ∧
      ∃ e, s.task.event = some e ∧ Matches event e := by
  cases e with
  | visit =>
      obtain ⟨ec, hcurrent, hec⟩ := Option.bind_eq_some_iff.mp h
      obtain ⟨hcallback, hobject⟩ : ec.callback = true ∧ ec.object = o := by
        split at hec
        · next hcallback => exact ⟨hcallback, Option.some.inj hec⟩
        · cases hec
      rw [OvmsEvents.current.eq_def] at hcurrent
      rcases hs : s.task with _ | ⟨event, i⟩ | ⟨event, i⟩ | event <;> rw [hs] at hcurrent
      · cases hcurrent
      · exact ⟨event, ec, List.mem_of_getElem? hcurrent, hcallback, hobject, event, rfl, .inl rfl⟩
      · exact ⟨anyEvent, ec, List.mem_of_getElem? hcurrent, hcallback, hobject, event, rfl,
          .inr rfl⟩
      · cases hcurrent
  | _ => cases h

/-- **A handler that was registered since** the event was received is not in the map. -/
theorem Sound.settled (h : Sound s) (e : Event) : Settled s e := by
  intro o ho
  obtain ⟨event, ec, hmem, -, rfl, e, htask, -⟩ := invokes_eq_some ho
  refine h.since (fun hwaiting => ?_) event ec hmem
  rw [hwaiting] at htask
  cases htask

/-! ### Handlers of deregistered callers -/

/-- What is guarded stays so when more is queued. -/
theorem guarded_append {caller event : Text} {q : List Msg} (h : guarded caller event q = true)
    (r : List Msg) : guarded caller event (q ++ r) = true := by
  induction q with
  | nil => cases h
  | cons msg q ih =>
      cases msg with
      | addhandler event' ec => exact ih h
      | removehandlers c =>
          rw [guarded, Bool.or_eq_true] at h
          rw [List.cons_append, guarded, Bool.or_eq_true]
          exact h.imp_right ih
      | signal e =>
          rw [guarded, Bool.and_eq_true] at h
          rw [List.cons_append, guarded, Bool.and_eq_true]
          exact ⟨h.1, ih h.2⟩

/-- The handlers of some numbers that wait in the queue are guarded. -/
def Shielded (gone : List ℕ) : List Msg → Prop
  | [] => True
  | .addhandler event ec :: q =>
      (ec.object ∈ gone → guarded ec.caller event q = true) ∧ Shielded gone q
  | _ :: q => Shielded gone q

theorem Shielded.append {gone : List ℕ} {q r : List Msg} (hq : Shielded gone q)
    (hr : Shielded gone r) : Shielded gone (q ++ r) := by
  induction q with
  | nil => exact hr
  | cons msg q ih =>
      cases msg with
      | addhandler event ec => exact ⟨fun hgone => guarded_append (hq.1 hgone) r, ih hq.2⟩
      | removehandlers c => exact ih hq
      | signal e => exact ih hq

/-- The handlers of a caller that are guarded. -/
theorem Shielded.cover {gone gone' : List ℕ} {q : List Msg} {caller : Text}
    (hq : Shielded gone q) (hcovered : covered caller q = true)
    (hgone : ∀ event ec, .addhandler event ec ∈ q → ec.object ∈ gone' → ec.caller = caller) :
    Shielded (gone ++ gone') q := by
  induction q with
  | nil => trivial
  | cons msg q ih =>
      have hrest := fun event ec hmem => hgone event ec (List.mem_cons_of_mem _ hmem)
      cases msg with
      | addhandler event ec =>
          rw [covered, Bool.and_eq_true, Bool.or_eq_true, decide_eq_true_iff] at hcovered
          refine ⟨fun hmem => ?_, ih hq.2 hcovered.2 hrest⟩
          obtain hold | hnew := List.mem_append.mp hmem
          · exact hq.1 hold
          · obtain rfl := hgone event ec List.mem_cons_self hnew
            exact hcovered.1.resolve_left (not_not_intro rfl)
      | removehandlers c => exact ih hq hcovered hrest
      | signal e => exact ih hq hcovered hrest

/-- **No handler that is gone comes to be invoked**: one that is valid in the map is guarded, and
is not called for the event that is processed; one in the queue is guarded. -/
structure Quiet (s : OvmsEvents) : Prop where
  map : ∀ event, ∀ ec ∈ s.handlers event, ec.callback = true → ec.object ∈ s.gone →
    guarded ec.caller event s.taskqueue = true ∧
      ∀ e, s.task.event = some e → ¬ Matches event e
  queue : Shielded s.gone s.taskqueue

/-- **Sending a message** with a handler that is not gone, if with one. -/
theorem Quiet.send (h : Quiet s) {msg : Msg} (hmsg : Shielded s.gone [msg]) (event : Text) :
    Quiet (s.send capacity msg event) := by
  obtain heq | heq | heq := send_cases capacity s msg event <;> rw [heq]
  · refine ⟨fun event' ec hmem hvalid hgone => ?_, h.queue.append hmsg⟩
    obtain ⟨hguarded, htask⟩ := h.map event' ec hmem hvalid hgone
    exact ⟨guarded_append hguarded _, htask⟩
  · exact h
  · exact ⟨h.map, h.queue⟩

/-- The handlers of the caller are invalid in the map, and those in the queue are guarded. -/
theorem Quiet.finishDeregister (h : Quiet s) (hs : Sound s) {caller : Text}
    (hc : s.deregistering = some caller)
    (hcovered : covered caller (s.scheduleDeletion capacity caller).taskqueue = true) :
    Quiet (s.finishDeregister capacity) := by
  rw [OvmsEvents.finishDeregister, hc]
  have hnew : Shielded s.gone [.removehandlers caller] := trivial
  have hsend : Quiet (s.scheduleDeletion capacity caller) := h.send hnew caller
  have hsound : Sound (s.scheduleDeletion capacity caller) :=
    hs.send (by rintro _ _ ⟨⟩) caller
  obtain ⟨hmade, hgone, hmap⟩ := scheduleDeletion_frame capacity s caller
  have hcaller : ∀ {o : ℕ} {c : Text}, s.made[o]? = some c →
      o ∈ (List.range s.made.length).filter (fun o => s.made[o]? = some caller) →
      c = caller := fun ho hmem =>
    Option.some.inj (ho.symm.trans (of_decide_eq_true (List.mem_filter.mp hmem).2))
  refine ⟨fun event ec hmem hvalid hec => ?_, ?_⟩
  · obtain hold | hnew := List.mem_append.mp hec
    · exact hsend.map event ec hmem hvalid (hgone.symm ▸ hold)
    · have hmem' : ec ∈ s.handlers event := by
        rw [OvmsEvents.handlers, ← hmap]
        exact hmem
      have hinvalid := (hs.invalid caller hc).2 event ec hmem'
        (hcaller (hs.map event ec hmem') hnew)
      rw [hinvalid] at hvalid
      cases hvalid
  · refine (hgone ▸ hsend.queue).cover hcovered fun event ec hmem hnew => ?_
    exact hcaller (hmade ▸ hsound.queue event ec hmem) hnew

/-- A message is taken from the queue. What it guarded is not in the map any more, or is not for
the event. -/
theorem Quiet.receive (h : Quiet s) (hwaiting : s.task = .waiting) : Quiet s.receive := by
  have hnone : ∀ event e, s.task.event = some e → ¬ Matches event e := by
    rw [hwaiting]
    rintro _ _ ⟨⟩
  rw [OvmsEvents.receive]
  split
  · exact h
  · next event ec q hq =>
      have hqueue := h.queue
      rw [hq] at hqueue
      refine ⟨fun event' ec' hmem hvalid hgone => ⟨?_, hnone event'⟩, hqueue.2⟩
      rw [handlers_handleQueueAddHandler] at hmem
      have hold : ∀ event, ec' ∈ s.handlers event → guarded ec'.caller event q = true := by
        intro event hmem
        have hguarded := (h.map event ec' hmem hvalid hgone).1
        rwa [hq] at hguarded
      split at hmem
      · next heq =>
          obtain rfl := heq
          obtain hmem | hmem := List.mem_append.mp hmem
          · exact hold _ hmem
          · obtain rfl := List.mem_singleton.mp hmem
            exact hqueue.1 hgone
      · exact hold _ hmem
  · next caller q hq =>
      have hqueue := h.queue
      rw [hq] at hqueue
      refine ⟨fun event ec hmem hvalid hgone => ⟨?_, hnone event⟩, hqueue⟩
      rw [handlers_handleQueueRemoveHandlers] at hmem
      obtain ⟨hmem, hcaller⟩ := List.mem_filter.mp hmem
      have hguarded := (h.map event ec hmem hvalid hgone).1
      rw [hq, guarded, Bool.or_eq_true, decide_eq_true_iff] at hguarded
      exact hguarded.resolve_left (Ne.symm (of_decide_eq_true hcaller))
  · next event q hq =>
      have hqueue := h.queue
      rw [hq] at hqueue
      refine ⟨fun event' ec hmem hvalid hgone => ?_, hqueue⟩
      have hguarded := (h.map event' ec hmem hvalid hgone).1
      rw [hq, guarded, Bool.and_eq_true, Bool.not_eq_true', decide_eq_false_iff_not] at hguarded
      refine ⟨hguarded.2, fun e he => ?_⟩
      obtain rfl := Option.some.inj he
      exact hguarded.1

/-- **The step lemma.** -/
theorem Quiet.step (h : Quiet s) (hs : Sound s) {e : Event} (he : Admitted s e)
    (hsafe : SafeAt capacity s e) :
    (step capacity s e).aborted = true ∨ Quiet (step capacity s e) := by
  cases e with
  | registerEvent caller event =>
      right
      have hmake : Quiet { s with made := s.made ++ [caller] } := ⟨h.map, h.queue⟩
      have hnew : Shielded s.gone [.addhandler event ⟨s.made.length, caller, true⟩] :=
        ⟨fun hgone => absurd (hs.gone _ hgone) (Nat.lt_irrefl _), trivial⟩
      exact hmake.send hnew event
  | signalEvent event =>
      have hnew : Shielded s.gone [.signal event] := trivial
      exact .inr (h.send hnew event)
  | deregisterEvent caller =>
      have hnew : Shielded s.gone [.removehandlers caller] := trivial
      exact .inr (h.send hnew caller)
  | invalidate caller =>
      refine .inr ⟨fun event ec hmem hvalid hgone => ?_, h.queue⟩
      obtain ⟨-, ec', hmem', hobject, hcaller, hvalid'⟩ := mem_handlers_invalidate hmem
      rw [← hcaller]
      exact h.map event ec' hmem' (hvalid' hvalid) (hobject ▸ hgone)
  | finishDeregister =>
      cases hc : s.deregistering with
      | none =>
          rw [Events.step, OvmsEvents.finishDeregister, hc]
          exact .inr h
      | some caller =>
          rw [SafeAt, hc, Option.all_some, Bool.or_eq_true] at hsafe
          obtain habort | hcovered := hsafe
          · rw [Events.step, OvmsEvents.finishDeregister, hc]
            exact .inl habort
          · exact .inr (h.finishDeregister hs hc hcovered)
  | receive =>
      obtain ⟨-, hwaiting, -⟩ := he
      exact .inr (h.receive hwaiting)
  | visit =>
      obtain ⟨task, heq, hevent⟩ := visit_cases s
      rw [Events.step, heq]
      refine .inr ⟨fun event ec hmem hvalid hgone => ?_, h.queue⟩
      obtain ⟨hguarded, htask⟩ := h.map event ec hmem hvalid hgone
      exact ⟨hguarded, fun e he => htask e (hevent e he)⟩

theorem Quiet.effective (h : Quiet s) (e : Event) : Effective s e := by
  intro o ho hgone
  obtain ⟨event, ec, hmem, hvalid, rfl, e, htask, hmatches⟩ := invokes_eq_some ho
  exact (h.map event ec hmem hvalid hgone).2 e htask hmatches

/-! ### Every run -/

theorem sound_new : Sound .new where
  map event ec h := by
    rw [OvmsEvents.handlers, OvmsEvents.new] at h
    simp at h
  queue event ec h := by cases h
  gone o h := by cases h
  invalid c h := by cases h
  since h := absurd rfl h

/-- **Deregistration is effective** in every run in which no handler of a caller that is
deregistered in the event task waits in the queue in front of a signal. A handler registered
while an event is processed is not invoked for it, in any run. -/
theorem deregistration_effective {es : List Event} (h : Along (step capacity) Admitted .new es) :
    Along (step capacity) Settled .new es ∧
      (Along (step capacity) (SafeAt capacity) .new es →
        Along (step capacity) Effective .new es) := by
  have hrun : ∀ (es : List Event) (s : OvmsEvents), Sound s →
      Along (step capacity) Admitted s es → Along (step capacity) Settled s es ∧
        ((s.aborted = true ∨ Quiet s) → Along (step capacity) (SafeAt capacity) s es →
          Along (step capacity) Effective s es) := by
    intro es
    induction es with
    | nil => exact fun _ _ _ => ⟨trivial, fun _ _ => trivial⟩
    | cons e es ih =>
        rintro s hs ⟨he, hes⟩
        obtain ⟨hsettled, heffective⟩ := ih _ (hs.step he) hes
        refine ⟨⟨hs.settled e, hsettled⟩, fun hquiet hsafe => ?_⟩
        obtain habort | hquiet := hquiet
        · cases he.1.symm.trans habort
        · exact ⟨hquiet.effective e, heffective (hquiet.step hs he hsafe.1) hsafe.2⟩
  obtain ⟨hsettled, heffective⟩ := hrun es .new sound_new h
  refine ⟨hsettled, heffective (.inr ⟨fun event ec hmem => ?_, trivial⟩)⟩
  exact absurd (sound_new.map event ec hmem) (by simp [OvmsEvents.new])

/-- A callback deregisters a caller whose handler is next in the map. -/
def deregisteredInTime : List Event :=
  [.registerEvent [0x61] [0x65], .receive, .registerEvent [0x62] [0x65], .receive,
    .signalEvent [0x65], .receive, .visit, .invalidate [0x62], .finishDeregister, .visit, .visit]

/-- It is not invoked. -/
theorem deregistration_effective_two :
    Along (step 20) Settled .new deregisteredInTime ∧
      Along (step 20) Effective .new deregisteredInTime := by
  have h : Along (step 20) Admitted .new deregisteredInTime := by decide +kernel
  exact ⟨(deregistration_effective h).1, (deregistration_effective h).2 (by decide +kernel)⟩

/-- A callback deregisters a caller whose handler waits in the queue in front of a signal. -/
def deregisteredLate : List Event :=
  [.registerEvent [0x61] [0x67], .receive, .signalEvent [0x67], .receive,
    .registerEvent [0x62] [0x65], .signalEvent [0x65], .visit, .invalidate [0x62],
    .finishDeregister, .visit, .visit, .visit, .receive, .receive, .visit]

/-- The handler is invoked by that signal. -/
theorem deregistration_late :
    ¬ ∀ (capacity : ℕ) (es : List Event), Along (step capacity) Admitted .new es →
      Along (step capacity) Settled .new es ∧ Along (step capacity) Effective .new es := by
  intro h
  have heffective := (h 20 deregisteredLate (by decide +kernel)).2
  have hlast := along_iff.mp heffective (deregisteredLate.take 14) .visit [] (by decide +kernel)
  exact hlast 1 (by decide +kernel) (by decide +kernel)

end Ovms.Events
