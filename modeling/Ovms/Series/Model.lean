import Ovms.Lib.Links
import Ovms.Lib.Loop

/-!
# The Series List of the Poller

`OvmsPoller::PollSeriesList` (`components/poller/src/vehicle_poller.cpp`): the named series of
polls, in a list that is linked in both directions, with an iterator and a count of the
blocking series. The nodes lie in a store under their addresses; a new node gets an address
that no node had before.

A series is what it answers, to `NextPollEntry` and `FinishRun`, from a state it shares with
the others (`Behaviour`); it does not alter the list. What the list calls on its series is
recorded in `calls`. The status and the time kept for display are not modelled, and neither
is the locking.

A loop over the nodes visits no more of them than there ever were; a link to no node ends
it. On lists that are linked as they should be neither makes a difference.
-/

open Lib Lib.Links

namespace Ovms.Series

/-! ### Series -/

/-- `PollEntryStyle`. -/
inductive PollEntryStyle
  | standard | onceOff | blocking
  deriving DecidableEq, Repr

/-- `OvmsNextPollResult`. -/
inductive OvmsNextPollResult
  | notReady | stillAtEnd | foundEntry | limitReached | reachedEnd | ignore
  deriving DecidableEq, Repr

/-- `SeriesStatus`. -/
inductive SeriesStatus
  | next | removeNext | removeRestart
  deriving DecidableEq, Repr

/-- `ResetMode`. -/
inductive ResetMode
  | pollReset | loopReset
  deriving DecidableEq, Repr

/-- A `PollSeriesEntry`: the object it is, and its style. -/
structure PollSeriesEntry where
  object : ℕ
  style : PollEntryStyle
  deriving DecidableEq, Repr

/-- What the series answer, with `ω` their common state and `ε` the entries polled. -/
structure Behaviour (ω ε : Type*) where
  nextPollEntry : PollSeriesEntry → ε → ω → OvmsNextPollResult × ε × ω
  finishRun : PollSeriesEntry → ω → SeriesStatus × ω
  removing : PollSeriesEntry → ω → ω

/-- `OvmsPollLimiter`. -/
structure OvmsPollLimiter where
  max : PollEntryStyle → UInt8
  cnt : PollEntryStyle → UInt8

/-- `OvmsPollLimiter::CanPoll`. -/
def OvmsPollLimiter.canPoll (limiter : OvmsPollLimiter) (style : PollEntryStyle) : Bool :=
  limiter.max style == 0 || limiter.cnt style < limiter.max style

/-! ### The list -/

/-- `poll_series_t`, without the links. -/
structure PollSeries where
  name : String
  series : Option PollSeriesEntry
  style : PollEntryStyle
  deriving DecidableEq, Repr

/-- `is_blocking`. -/
def PollSeries.isBlocking (e : PollSeries) : Bool := e.style == .blocking

/-- The series is a blocking one. -/
def PollSeries.seriesBlocking (e : PollSeries) : Bool :=
  e.series.any fun series => series.style == .blocking

/-- A call of the list on the series of a node. -/
inductive Call
  | nextPollEntry (node : ℕ) (result : OvmsNextPollResult)
  | finishRun (node : ℕ) (status : SeriesStatus)
  | removing (node : ℕ) (series : PollSeriesEntry)
  | resetList (node : ℕ) (mode : ResetMode)
  deriving DecidableEq, Repr

/-- The members of `PollSeriesList`, the nodes, and what was called. -/
structure PollSeriesList where
  store : Store ℕ PollSeries
  fresh : ℕ
  first : Option ℕ
  last : Option ℕ
  iter : Option ℕ
  iterChanged : Bool
  blockingCount : UInt16
  calls : List Call

namespace PollSeriesList

/-- A new list. -/
def new : PollSeriesList := ⟨fun _ => none, 0, none, none, none, true, 0, []⟩

/-- The nodes that a loop from the first one visits. -/
def nodes (s : PollSeriesList) : List (ℕ × PollSeries) := cells s.store s.fresh s.first

/-- The series of a node is told that it is removed. -/
def callRemoving (p : ℕ) (e : PollSeries) : List Call := e.series.toList.map (.removing p)

/-- `Remove`. -/
def remove (s : PollSeriesList) (p : ℕ) : PollSeriesList :=
  match s.store p with
  | none => s
  | some c =>
      let unlinked := setPrev (setNext s.store (some p) none) (some p) none
      { s with
        blockingCount := if c.item.seriesBlocking then s.blockingCount - 1 else s.blockingCount
        iter := if s.iter = some p then c.next else s.iter
        iterChanged := if s.iter = some p then true else s.iterChanged
        first := if s.first = some p then c.next else s.first
        last := if s.last = some p then c.prev else s.last
        store := delete (setPrev (setNext unlinked c.prev c.next) c.next c.prev) p
        calls := s.calls ++ callRemoving p c.item }

/-- `InsertBefore`, of a node with these fields. In front of a node that is not the first,
the link of the node before that one is not set. -/
def insertBefore (s : PollSeriesList) (p : ℕ) (e : PollSeries) (before : Option ℕ) :
    PollSeriesList :=
  if before = none ∨ s.first = none then
    { s with
      store := setNext (put s.store p ⟨e, s.last, none⟩) s.last (some p)
      first := if s.last = none then some p else s.first
      last := some p }
  else
    let prev := (before.bind s.store).bind Cell.prev
    { s with
      store := setPrev (put s.store p ⟨e, prev, before⟩) before (some p)
      first := if before = s.first then some p else s.first }

/-- The node of a name. -/
def findName (s : PollSeriesList) (name : String) : Option (ℕ × PollSeries) :=
  s.nodes.find? fun node => node.2.name == name

/-- The series of a node replaced by another. The style recorded stays. -/
def replace (s : PollSeriesList) (p : ℕ) (e : PollSeries) (series : PollSeriesEntry) :
    PollSeriesList :=
  let dec := if e.seriesBlocking then s.blockingCount - 1 else s.blockingCount
  { s with
    store := setItem s.store p { e with series := some series }
    blockingCount := if series.style = .blocking then dec + 1 else dec
    calls := s.calls ++ callRemoving p e }

/-- A new node: in front of the first one that is not blocking, or at the end. -/
def add (s : PollSeriesList) (name : String) (series : PollSeriesEntry) : PollSeriesList :=
  let before :=
    if series.style = .blocking then
      (s.nodes.find? fun node => !node.2.isBlocking).map Prod.fst
    else none
  let s' := insertBefore { s with fresh := s.fresh + 1 } s.fresh ⟨name, some series, series.style⟩
    before
  if series.style = .blocking then { s' with blockingCount := s'.blockingCount + 1 } else s'

/-- `SetEntry`. -/
def setEntry (s : PollSeriesList) (name : String) (series : PollSeriesEntry) : PollSeriesList :=
  match s.findName name with
  | some (p, e) => if e.series = some series then s else s.replace p e series
  | none => s.add name series

/-- The loop of `RemoveEntry`, over up to `n` nodes from `it` on. -/
def removeLoop (found : PollSeries → Bool) (startsWith : Bool) :
    ℕ → Option ℕ → PollSeriesList → PollSeriesList
  | 0, _, s => s
  | _ + 1, none, s => s
  | n + 1, some p, s =>
      match s.store p with
      | none => s
      | some c =>
          if found c.item then
            if startsWith then removeLoop found startsWith n c.next (s.remove p) else s.remove p
          else removeLoop found startsWith n c.next s

/-- `RemoveEntry`. -/
def removeEntry (s : PollSeriesList) (name : String) (startsWith : Bool) : PollSeriesList :=
  removeLoop (fun e => if startsWith then name.isPrefixOf e.name else e.name == name) startsWith
    s.fresh s.first s

/-- The loop of `Clear`. -/
def clearLoop : ℕ → PollSeriesList → PollSeriesList
  | 0, s => s
  | n + 1, s =>
      match s.first with
      | none => s
      | some p => clearLoop n (s.remove p)

/-- `Clear`. -/
def clear (s : PollSeriesList) : PollSeriesList := clearLoop s.fresh s

/-- `RestartPoll`. -/
def restartPoll (s : PollSeriesList) (mode : ResetMode) : PollSeriesList :=
  { s with
    iter := s.first
    iterChanged := true
    calls := s.calls ++ s.nodes.flatMap fun node =>
      node.2.series.toList.map fun _ => .resetList node.1 mode }

/-- The series that packets and errors go to, if any. -/
def receiver (s : PollSeriesList) : Option PollSeriesEntry :=
  if s.iterChanged then none else (s.iter.bind s.store).bind fun c => c.item.series

end PollSeriesList

/-! ### Polling -/

/-- What `NextPollEntry` works on: the list, the state of the series, and the two arguments
it answers in. -/
structure Polling (ω ε : Type*) where
  list : PollSeriesList
  world : ω
  entry : ε
  foundStyle : PollEntryStyle

namespace Polling

variable {ω ε : Type*}

/-- Another position, and what was called. -/
def moveTo (t : Polling ω ε) (iter : Option ℕ) (calls : List Call) : Polling ω ε :=
  { t with list := { t.list with iter := iter, calls := t.list.calls ++ calls } }

/-- A blocking series ends the poll; behind any other comes the next. -/
def leave (t : Polling ω ε) (c : Cell ℕ PollSeries) (result : OvmsNextPollResult)
    (calls : List Call) : Polling ω ε ⊕ (OvmsNextPollResult × Polling ω ε) :=
  if c.item.isBlocking then .inr (result, t.moveTo none calls) else .inl (t.moveTo c.next calls)

/-- What follows on the answer of a series that is at the end of its run. -/
def finish (B : Behaviour ω ε) (t : Polling ω ε) (p : ℕ) (c : Cell ℕ PollSeries)
    (series : PollSeriesEntry) : Polling ω ε ⊕ (OvmsNextPollResult × Polling ω ε) :=
  let (status, w) := B.finishRun series t.world
  let t := { t with world := w }
  let calls := [.nextPollEntry p .reachedEnd, .finishRun p status]
  match status with
  | .next => t.leave c .reachedEnd calls
  | .removeNext =>
      let t := t.moveTo t.list.iter calls
      .inl { t with list := t.list.remove p, world := B.removing series w }
  | .removeRestart =>
      let list := (t.moveTo none calls).list.remove p
      .inl { t with list := { list with iter := list.first }, world := B.removing series w }

/-- The series of a node is asked. -/
def ask (B : Behaviour ω ε) (t : Polling ω ε) (p : ℕ) (c : Cell ℕ PollSeries)
    (series : PollSeriesEntry) : Polling ω ε ⊕ (OvmsNextPollResult × Polling ω ε) :=
  let (result, entry, w) := B.nextPollEntry series t.entry t.world
  let t : Polling ω ε :=
    { list := { t.list with iterChanged := false }
      world := w
      entry := entry
      foundStyle := if result = .foundEntry then c.item.style else t.foundStyle }
  match result with
  | .notReady => .inl (t.moveTo c.next [.nextPollEntry p result])
  | .stillAtEnd => t.leave c .stillAtEnd [.nextPollEntry p result]
  | .reachedEnd => t.finish B p c series
  | .foundEntry | .limitReached | .ignore =>
      .inr (result, t.moveTo t.list.iter [.nextPollEntry p result])

/-- A repeat of the loop of `NextPollEntry`. A node without a series is passed over. -/
def turn (B : Behaviour ω ε) (limiter : OvmsPollLimiter) (t : Polling ω ε) :
    Polling ω ε ⊕ (OvmsNextPollResult × Polling ω ε) :=
  match t.list.iter with
  | none => .inr (.reachedEnd, t)
  | some p =>
      match t.list.store p with
      | none => .inr (.reachedEnd, t)
      | some c =>
          match c.item.series with
          | none => .inl (t.moveTo c.next [])
          | some series =>
              if limiter.canPoll c.item.style then t.ask B p c series
              else .inr (.limitReached, { t with foundStyle := c.item.style })

/-- The position from which the loop starts: a blocking series comes before others. -/
def startIter (s : PollSeriesList) : Option ℕ :=
  if ((s.iter.bind s.store).any fun c => c.item.isBlocking) then s.iter
  else
    match s.nodes.find? fun node => node.2.series.isSome with
    | none => s.iter
    | some (p, e) => if e.isBlocking then some p else s.iter

end Polling

/-- `NextPollEntry` has an end, and leaves this. -/
def NextPollEntry {ω ε : Type*} (B : Behaviour ω ε) (limiter : OvmsPollLimiter)
    (t : Polling ω ε) (out : OvmsNextPollResult × Polling ω ε) : Prop :=
  let start := t.moveTo (Polling.startIter t.list) []
  if t.list.first = none then out = (.stillAtEnd, t)
  else if start.list.iter = none then out = (.stillAtEnd, start)
  else Loop.Returns (Polling.turn B limiter) start out

end Ovms.Series
