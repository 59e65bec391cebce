import Mathlib.Algebra.Ring.Int.Defs
import Mathlib.Algebra.Ring.Nat
import Ovms.Notify.Model

/-!
# Command Notifications

`OvmsNotify::NotifyCommand` (`main/ovms_notify.cpp`): the output of a command is produced for the
limits of the readers that accept it, from the highest one on, and what was produced for a higher
limit is used again where it fits. In a second pass the readers are put down at the entry for
their limit, in a third the entries are queued, from the lowest limit on, each one once.

A limit is an `int` and a length is a `size_t`, so a limit below zero is compared as a number above
all lengths. The bits of the readers are looked at with a check: a number beyond them ends the
program.

The output of a command is a text for each limit; the command registers and clears no readers while
it runs. An entry is made without a number, and gets one when it is queued. A message that is made
for the log only is deleted again, and not an entry here.
-/

open Lib Std

namespace Ovms.Notify

/-! ### The code -/

/-- A number of type `int` as a `size_t`. -/
def limit (verbosity : ℤ) : ℕ := (verbosity % 2 ^ 32).toNat

/-- `OvmsNotifyEntryCommand`, with the verbosity it was made for. -/
structure OvmsNotifyEntryCommand extends OvmsNotifyEntry where
  verbosity : ℤ

/-- `m_readers`: each reader stands under its number, and its limit is an `int`. -/
structure RegisteredReaders where
  map : CallbackMap
  own : ∀ (reader : ℕ) (mc : OvmsNotifyCallbackEntry), map[reader]? = some mc → mc.reader = reader
  int : ∀ (reader : ℕ) (mc : OvmsNotifyCallbackEntry), map[reader]? = some mc →
    -2 ^ 31 ≤ mc.verbosity ∧ mc.verbosity < 2 ^ 31

/-- No readers. -/
def RegisteredReaders.none : RegisteredReaders := ⟨∅, by simp, by simp⟩

/-- `RegisterReader`, under the number of the reader. -/
def RegisteredReaders.register (R : RegisteredReaders) (mc : OvmsNotifyCallbackEntry)
    (hmc : -2 ^ 31 ≤ mc.verbosity ∧ mc.verbosity < 2 ^ 31) : RegisteredReaders where
  map := R.map.insert mc.reader mc
  own reader mc' h := by
    rw [TreeMap.getElem?_insert] at h
    split at h
    · rename_i hreader
      obtain rfl := Option.some.inj h
      exact Std.compare_eq_iff_eq.mp hreader
    · exact R.own reader mc' h
  int reader mc' h := by
    rw [TreeMap.getElem?_insert] at h
    split at h
    · obtain rfl := Option.some.inj h
      exact hmc
    · exact R.int reader mc' h

/-- What a command puts out at each limit: a string, which the memory holds. -/
abbrev Output := ℤ → {text : Text // text.length < 2 ^ 31}

/-- `verbosity_msgs`: a message is its place among those that were made. -/
abbrev VerbosityMsgs := TreeMap ℤ (Option ℕ)

/-- `bitset::set`, with its check. -/
def bitsetSet (bits : Readers) (reader : ℕ) : Option Readers :=
  if reader < notifyMaxReaders then some (bits ||| readerBit reader) else none

/-- `bitset::test`, with its check. -/
def bitsetTest (bits : Readers) (reader : ℕ) : Option Bool :=
  if reader < notifyMaxReaders then some (bits.getLsbD reader) else none

/-- The first pass, at a reader: its limit is needed, and its acceptance is kept. -/
def levelOf (env : Environment) (subtype : Text) (needed : VerbosityMsgs × Readers)
    (p : ℕ × OvmsNotifyCallbackEntry) : Option (VerbosityMsgs × Readers) :=
  if p.2.accepts env subtype 0 then
    (bitsetSet needed.2 p.2.reader).map fun bits => (needed.1.insert p.2.verbosity none, bits)
  else some needed

/-- The first pass. -/
def levels (env : Environment) (subtype : Text) (readers : CallbackMap) :
    Option (VerbosityMsgs × Readers) :=
  readers.toList.foldlM (levelOf env subtype) (∅, 0#_)

/-- The second pass: the messages so far, and the last of them. -/
structure Fetch where
  msgs : VerbosityMsgs
  msg : Option ℕ
  msglen : ℕ
  made : List OvmsNotifyEntryCommand

/-- The second pass, at a limit. -/
def fetchLevel (output : Output) (subtype : Text) (f : Fetch) (verbosity : ℤ) : Fetch :=
  if f.msg.isSome ∧ f.msglen ≤ limit verbosity then
    { f with msgs := f.msgs.insert verbosity f.msg }
  else
    match (f.msgs[verbosity]?).join with
    | some msg => { f with msg := some msg }
    | none =>
        let value := (output verbosity).1
        { msgs := f.msgs.insert verbosity (some f.made.length)
          msg := some f.made.length
          msglen := value.length
          made := f.made ++ [⟨⟨0, 0, 0#_, subtype, value⟩, verbosity⟩] }

/-- The second pass: from the highest limit on. -/
def fetch (output : Output) (subtype : Text) (msgs : VerbosityMsgs) : Fetch :=
  msgs.keys.reverse.foldl (fetchLevel output subtype) ⟨msgs, none, 0, []⟩

/-- A reader is put down at an entry. -/
def OvmsNotifyEntryCommand.add (e : OvmsNotifyEntryCommand) (reader : ℕ) :
    OvmsNotifyEntryCommand :=
  { e with pendingreaders := e.pendingreaders ||| readerBit reader }

/-- The third pass, at a reader. -/
def addReader (bits : Readers) (msgs : VerbosityMsgs) (made : List OvmsNotifyEntryCommand)
    (p : ℕ × OvmsNotifyCallbackEntry) : Option (List OvmsNotifyEntryCommand) :=
  (bitsetTest bits p.2.reader).bind fun accepted =>
    if accepted then
      (msgs[p.2.verbosity]?).join.map fun msg => made.modify msg fun e => e.add p.2.reader
    else some made

/-- The third pass. -/
def addReaders (readers : CallbackMap) (bits : Readers) (msgs : VerbosityMsgs)
    (made : List OvmsNotifyEntryCommand) : Option (List OvmsNotifyEntryCommand) :=
  readers.toList.foldlM (addReader bits msgs) made

/-- The last pass: the entries queued, by their places, with the numbers they got. -/
structure Queueing where
  type : OvmsNotifyType
  queued : List ℕ
  ids : List ℕ
  freed : List ℕ
  msg : Option ℕ
  queueId : ℕ

/-- The last pass, at a limit. Readers may answer differently to each entry. -/
def queueMsg (readers : CallbackMap) (dispatched : ℕ → Environment) (objects : ℕ)
    (made : List OvmsNotifyEntryCommand) (q : Queueing) (entry : ℤ × Option ℕ) :
    Option Queueing :=
  if entry.2 = q.msg then some q -- already queued
  else
    entry.2.bind fun msg => made[msg]?.map fun e =>
      let r := q.type.queueEntry readers (dispatched q.queued.length)
        { e.toOvmsNotifyEntry with object := objects + q.queued.length }
      { type := r.1
        queued := q.queued ++ [msg]
        ids := q.ids ++ [q.type.nextid]
        freed := q.freed ++ r.2
        msg := entry.2
        queueId := q.type.nextid }

/-- What `NotifyCommand` leaves: the entries, with the readers that are put down, and what was
queued. -/
structure Notified where
  made : List OvmsNotifyEntryCommand
  queueing : Queueing

/-- `NotifyCommand`, of a type; `objects` entries were queued before. -/
def OvmsNotifyType.notifyCommand (t : OvmsNotifyType) (readers : CallbackMap)
    (raised : Environment) (dispatched : ℕ → Environment) (objects : ℕ) (subtype : Text)
    (output : Output) : Option Notified :=
  (levels raised subtype readers).bind fun needed =>
    if needed.1.size = 0 then some ⟨[], ⟨t, [], [], [], none, 0⟩⟩
    else
      let f := fetch output subtype needed.1
      (addReaders readers needed.2 f.msgs f.made).bind fun made =>
        (f.msgs.toList.foldlM (queueMsg readers dispatched objects made)
          ⟨t, [], [], [], none, 0⟩).map (Notified.mk made)

/-- `NotifyCommand`, with what it returns. -/
def OvmsNotify.notifyCommand (s : OvmsNotify) (type subtype : Text) (output : Output)
    (raised : Environment) (dispatched : ℕ → Environment) : Option (OvmsNotify × ℕ) :=
  match s.getType type with
  | none => some (s, 0)
  | some t =>
      (t.notifyCommand s.readers raised dispatched s.posted.length subtype output).map fun r =>
        ({ s.settle type (r.queueing.type, r.queueing.freed) with
          posted := s.posted ++ r.queueing.ids.map fun id => (type, id) }, r.queueing.queueId)

end Ovms.Notify
