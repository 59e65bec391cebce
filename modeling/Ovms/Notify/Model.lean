import Mathlib.Data.BitVec
import Mathlib.Data.List.Infix
import Std.Data.TreeMap
import Ovms.Lib.Machine

/-!
# Notifications

`OvmsNotify` (`main/ovms_notify.cpp`): readers are registered under numbers; a notification is
queued in its type with one bit for each reader that accepts it, and leaves the queue when all
bits are cleared.

Configuration, filters and callbacks answer as they will, and they may answer differently when
the readers are determined and when the entry is dispatched (`Environment`). All of
`NotifyString` and `RegisterReader` happens under the lock of the readers. `ClearReader` holds
it, too, but takes the lock of each type for itself, so that another task can mark entries as
read in between; it is a step for each type.

Entries are numbered in the order in which they were made (`object`), beside the number they
get in their type. The events signalled, the log messages, the time of creation and the other
kinds of entries are not modelled.
-/

open Lib Std

namespace Ovms.Notify

/-- A text: its bytes, without the terminator. -/
abbrev Text := List UInt8

/-- `NOTIFY_MAX_READERS`. -/
abbrev notifyMaxReaders : ℕ := 32

/-- A bit for each reader: `std::bitset`, `unsigned long`. -/
abbrev Readers := BitVec notifyMaxReaders

/-- The bit of a reader. -/
def readerBit (reader : ℕ) : Readers := BitVec.ofNat notifyMaxReaders 1 <<< reader

/-! ### Entries -/

/-- `OvmsNotifyEntryString`, with what it has from `OvmsNotifyEntry`. -/
structure OvmsNotifyEntry where
  object : ℕ
  id : ℕ
  pendingreaders : Readers
  subtype : Text
  value : Text
  deriving DecidableEq

namespace OvmsNotifyEntry

/-- `IsRead`. -/
def isRead (e : OvmsNotifyEntry) (reader : ℕ) : Bool := e.pendingreaders &&& readerBit reader == 0#_

/-- `IsAllRead`. -/
def isAllRead (e : OvmsNotifyEntry) : Bool := e.pendingreaders == 0#_

/-- `GetValueSize`. -/
def getValueSize (e : OvmsNotifyEntry) : ℕ := e.value.length

/-- The bit of a reader cleared. -/
def clear (e : OvmsNotifyEntry) (reader : ℕ) : OvmsNotifyEntry :=
  { e with pendingreaders := e.pendingreaders &&& ~~~ readerBit reader }

end OvmsNotifyEntry

/-! ### Readers -/

/-- What is outside: the configured filters (`GetParamValue("notify", subtype)`), the filter
callbacks of readers, and whether their callbacks have processed an entry. -/
structure Environment where
  config : Text → Text
  filter : ℕ → Bool
  processed : ℕ → Bool

/-- `OvmsNotifyCallbackEntry`; of the filter callback, whether there is one. -/
structure OvmsNotifyCallbackEntry where
  caller : Text
  configfiltered : Bool
  reader : ℕ
  verbosity : ℤ
  filtercallback : Bool
  deriving DecidableEq

/-- What a configured filter says to a caller: a list with `*` excludes callers, any other
includes them, and no list says nothing. -/
def configAllows (filter caller : Text) : Bool :=
  match filter with
  | [] => true
  | c :: _ =>
      if c = 0x2A then !decide ((0x2D :: caller) <:+: filter) else decide (caller <:+: filter)

/-- `Accepts`. The verbosity is compared as the unsigned number it is converted to. -/
def OvmsNotifyCallbackEntry.accepts (mc : OvmsNotifyCallbackEntry) (env : Environment)
    (subtype : Text) (size : ℕ) : Bool :=
  if (mc.verbosity % 2 ^ 32).toNat < size then false
  else if mc.configfiltered && !configAllows (env.config subtype) mc.caller then false
  else if mc.filtercallback then env.filter mc.reader
  else true

/-- `m_readers`. -/
abbrev CallbackMap := TreeMap ℕ OvmsNotifyCallbackEntry

/-- `NotifyReaders`, with what becomes of the entry. -/
def notifyReaders (readers : CallbackMap) (env : Environment) (e : OvmsNotifyEntry) :
    OvmsNotifyEntry :=
  readers.toList.foldl
    (fun e p =>
      if p.2.accepts env e.subtype e.getValueSize then
        if env.processed p.2.reader then e.clear p.2.reader else e
      else e.clear p.2.reader)
    e

/-- The readers that accept a message. -/
def acceptingReaders (readers : CallbackMap) (env : Environment) (subtype : Text) (size : ℕ) :
    Readers :=
  readers.toList.foldl
    (fun bits p => if p.2.accepts env subtype size then bits ||| readerBit p.2.reader else bits)
    0#_

/-! ### Types -/

/-- `OvmsNotifyType`. -/
structure OvmsNotifyType where
  name : Text
  nextid : ℕ
  entries : TreeMap ℕ OvmsNotifyEntry

namespace OvmsNotifyType

/-- A new type. -/
def new (name : Text) : OvmsNotifyType := ⟨name, 1, ∅⟩

/-- An entry in the queue, altered. -/
def store (t : OvmsNotifyType) (e : OvmsNotifyEntry) : OvmsNotifyType :=
  { t with entries := t.entries.insert e.id e }

/-- `Cleanup`, with the entries that it frees. -/
def cleanup (t : OvmsNotifyType) (e : OvmsNotifyEntry) : OvmsNotifyType × List ℕ :=
  if e.isAllRead then ({ t with entries := t.entries.erase e.id }, [e.object]) else (t, [])

/-- `MarkRead`. -/
def markRead (t : OvmsNotifyType) (reader : ℕ) (e : OvmsNotifyEntry) : OvmsNotifyType × List ℕ :=
  (t.store (e.clear reader)).cleanup (e.clear reader)

/-- `ClearReader`: the loop clears the bit of each entry, and cleans up behind itself. -/
def clearReader (t : OvmsNotifyType) (reader : ℕ) : OvmsNotifyType × List ℕ :=
  t.entries.toList.foldl
    (fun r p => ((r.1.markRead reader p.2).1, r.2 ++ (r.1.markRead reader p.2).2)) (t, [])

/-- `QueueEntry`, of an entry without its number. -/
def queueEntry (t : OvmsNotifyType) (readers : CallbackMap) (env : Environment)
    (e : OvmsNotifyEntry) : OvmsNotifyType × List ℕ :=
  let e := { e with id := t.nextid }
  let t := { t with nextid := (t.nextid + 1) % 2 ^ 32 }.store e
  let e := notifyReaders readers env e
  (t.store e).cleanup e

/-- `FirstUnreadEntry`. -/
def firstUnreadEntry (t : OvmsNotifyType) (reader floor : ℕ) : Option OvmsNotifyEntry :=
  (t.entries.toList.find? fun p => !p.2.isRead reader && decide (floor < p.2.id)).map Prod.snd

/-- `FindEntry`. -/
def findEntry (t : OvmsNotifyType) (id : ℕ) : Option OvmsNotifyEntry := t.entries[id]?

end OvmsNotifyType

/-! ### The whole -/

/-- `OvmsNotify`, with the types and numbers of the entries made so far, the entries freed so
far, and a `ClearReader` on its way, with the types it has still to clear. -/
structure OvmsNotify where
  readers : CallbackMap
  nextreader : ℕ
  types : TreeMap Text OvmsNotifyType
  posted : List (Text × ℕ)
  freed : List ℕ
  clearing : Option (ℕ × List Text)

namespace OvmsNotify

/-- `GetType`. -/
def getType (s : OvmsNotify) (type : Text) : Option OvmsNotifyType := s.types[type]?

/-- `RegisterType`. -/
def registerType (s : OvmsNotify) (type : Text) : OvmsNotify :=
  match s.getType type with
  | some _ => s
  | none => { s with types := s.types.insert type (.new type) }

/-- The constructor, with types registered. -/
def new (names : List Text) : OvmsNotify := names.foldl registerType ⟨∅, 1, ∅, [], [], none⟩

/-- A type altered, and entries of it freed. -/
def settle (s : OvmsNotify) (type : Text) (r : OvmsNotifyType × List ℕ) : OvmsNotify :=
  { s with types := s.types.insert type r.1, freed := s.freed ++ r.2 }

/-- The registration of a reader under a number: the second `RegisterReader`. -/
def registerReaderAs (s : OvmsNotify) (mc : OvmsNotifyCallbackEntry) : OvmsNotify :=
  { s with readers := s.readers.insert mc.reader mc }

/-- `RegisterReader`, of a reader without its number. -/
def registerReader (s : OvmsNotify) (mc : OvmsNotifyCallbackEntry) : OvmsNotify :=
  { s.registerReaderAs { mc with reader := s.nextreader } with nextreader := s.nextreader + 1 }

/-- `ClearReader`, up to the loop over the types. -/
def clearReader (s : OvmsNotify) (reader : ℕ) : OvmsNotify :=
  match s.readers[reader]? with
  | none => s
  | some mc => { s with clearing := some (mc.reader, s.types.keys) }

/-- The next type that `ClearReader` clears, or else its end. -/
def clearNext (s : OvmsNotify) : OvmsNotify :=
  match s.clearing with
  | none => s
  -- a reader stands under its own number
  | some (reader, []) => { s with readers := s.readers.erase reader, clearing := none }
  | some (reader, type :: types) =>
      match s.getType type with
      | none => { s with clearing := some (reader, types) }
      | some t => { s.settle type (t.clearReader reader) with clearing := some (reader, types) }

/-- `NotifyString`, from when the readers are determined to when the entry is dispatched. -/
def notifyString (s : OvmsNotify) (type subtype value : Text) (raised dispatched : Environment) :
    OvmsNotify :=
  match s.getType type with
  | none => s
  | some t =>
      let readers := acceptingReaders s.readers raised subtype value.length
      if readers = 0#_ then s
      else
        { s.settle type
            (t.queueEntry s.readers dispatched ⟨s.posted.length, 0, readers, subtype, value⟩) with
          posted := s.posted ++ [(type, t.nextid)] }

/-- `MarkRead`, of the entry with a number. -/
def markRead (s : OvmsNotify) (type : Text) (id reader : ℕ) : OvmsNotify :=
  match s.getType type with
  | none => s
  | some t =>
      match t.findEntry id with
      | none => s
      | some e => s.settle type (t.markRead reader e)

end OvmsNotify

/-! ### Runs -/

/-- What the tasks do. -/
inductive Event
  | registerReader (mc : OvmsNotifyCallbackEntry)
  | registerReaderAs (mc : OvmsNotifyCallbackEntry)
  | clearReader (reader : ℕ)
  | clearNext
  | notifyString (type subtype value : Text) (raised dispatched : Environment)
  | markRead (type : Text) (id reader : ℕ)

/-- A step. -/
def step (s : OvmsNotify) : Event → OvmsNotify
  | .registerReader mc => s.registerReader mc
  | .registerReaderAs mc => s.registerReaderAs mc
  | .clearReader reader => s.clearReader reader
  | .clearNext => s.clearNext
  | .notifyString type subtype value raised dispatched =>
      s.notifyString type subtype value raised dispatched
  | .markRead type id reader => s.markRead type id reader

/-- Reader numbers are below the maximum; the lock of the readers is free where it is taken,
and held where `ClearReader` goes on; an entry that is marked is in its queue. -/
def Admitted (s : OvmsNotify) : Event → Prop
  | .registerReader _ => s.clearing = none ∧ s.nextreader < notifyMaxReaders
  | .registerReaderAs mc => s.clearing = none ∧ mc.reader < notifyMaxReaders
  | .clearReader _ => s.clearing = none
  | .clearNext => s.clearing ≠ none
  | .notifyString .. => s.clearing = none
  | .markRead type id reader =>
      reader < notifyMaxReaders ∧ ((s.getType type).bind fun t => t.findEntry id).isSome

instance (s : OvmsNotify) : (e : Event) → Decidable (Admitted s e)
  | .registerReader _ =>
      inferInstanceAs (Decidable (s.clearing = none ∧ s.nextreader < notifyMaxReaders))
  | .registerReaderAs mc =>
      inferInstanceAs (Decidable (s.clearing = none ∧ mc.reader < notifyMaxReaders))
  | .clearReader _ => inferInstanceAs (Decidable (s.clearing = none))
  | .clearNext => inferInstanceAs (Decidable (s.clearing ≠ none))
  | .notifyString .. => inferInstanceAs (Decidable (s.clearing = none))
  | .markRead type id reader =>
      inferInstanceAs (Decidable (reader < notifyMaxReaders ∧
        ((s.getType type).bind fun t => t.findEntry id).isSome))

end Ovms.Notify
