import Ovms.Dbc.Multiplex

/-!
# Editing DBC Files

The commands that load a DBC file and edit it (`components/dbc/src/dbc_app.cpp`), and what the
parser does while it reads one (`dbc_parser.y`). Here a signal has an address, and its source is
one: signals are made and freed, an address that is free may be given to another signal, and a
message lists the addresses of its signals. A step that touches a signal that is freed has no
result, nor has one that makes a signal where there is one.

What a text says is a list of sections, in the order in which their actions are done. The parser
keeps the signal that it is at: the first receiver of a `SG_` line makes one only when it is at
none.
-/

open Ovms.Metrics.Bitset (getlines)
open Ovms.Location (scanDigits toUlong)

namespace Ovms.Dbc

namespace DbcMultiplexor

/-- A signal tagged by its `SG_` line: without a tag, with `M`, or with `m`, a number and maybe
an `M` behind it. -/
def retag (mux : DbcMultiplexor) (tag : Option (List UInt8)) : DbcMultiplexor :=
  match tag with
  | none => mux.clearMultiplexed
  | some (0x4D :: _) => mux.setMultiplexSource
  | some (0x6D :: rest) =>
      let mux :=
        if 2 < rest.length + 1 ∧ rest.getLast? = some 0x4D then mux.setMultiplexSource else mux
      mux.setMultiplexed
        (match scanDigits rest with
          | some r => .ofNat (toUlong r.1 r.2.1)
          | none => 0)
  | some _ => mux

end DbcMultiplexor

namespace Editing

/-- A name. -/
abbrev Name := List UInt8

/-- The address of a signal. -/
abbrev Address := ℕ

/-- A `dbcSignal`; a source is an address here. -/
structure Signal where
  name : Name
  mux : DbcMultiplexor
  deriving DecidableEq

/-- The signals that there are. -/
abbrev Heap := Address → Option Signal

/-- `dbcMessageTable`: messages under their ids, with the addresses of their signals. -/
abbrev MessageTable := UInt32 → Option (List Address)

/-- A `dbcfile`. -/
structure DbcFile where
  messages : MessageTable
  /-- `m_locks` -/
  locks : ℤ

/-- The `dbc` object, and the signals. -/
structure State where
  heap : Heap
  /-- `m_dbclist` -/
  files : Name → Option DbcFile
  /-- `m_selected` -/
  selected : Option Name

/-- No file is loaded. -/
def init : State := ⟨fun _ => none, fun _ => none, none⟩

/-! ### Signals -/

namespace Heap

/-- A signal made at an address. -/
def new (heap : Heap) (p : Address) (name : Name) : Option Heap :=
  if heap p = none then some (Function.update heap p (some ⟨name, .new⟩)) else none

/-- A signal freed. -/
def delete (heap : Heap) (p : Address) : Option Heap :=
  (heap p).map fun _ => Function.update heap p none

/-- The multiplexor of a signal changed. -/
def modify (heap : Heap) (p : Address) (f : DbcMultiplexor → DbcMultiplexor) : Option Heap :=
  (heap p).map fun s => Function.update heap p (some { s with mux := f s.mux })

/-- The first of some signals with a property. -/
def find (heap : Heap) (c : Signal → Bool) : List Address → Option (Option Address)
  | [] => some none
  | p :: ps => (heap p).bind fun s => if c s then some (some p) else find heap c ps

/-- `FindSignal`. -/
def findSignal (heap : Heap) (signals : List Address) (name : Name) : Option (Option Address) :=
  heap.find (·.name == name) signals

/-- `GetMultiplexorSignal`. -/
def getMultiplexorSignal (heap : Heap) (signals : List Address) : Option (Option Address) :=
  heap.find (fun s => s.mux.isMainMultiplexSource && s.mux.source.isNone) signals

/-- A signal is looked up, and changed if it is there. -/
def modifyFound (heap : Heap) (signals : List Address) (name : Name)
    (f : DbcMultiplexor → DbcMultiplexor) : Option Heap :=
  (heap.findSignal signals name).bind fun found => found.elim (some heap) (heap.modify · f)

end Heap

/-! ### Commands on a message -/

/-- `SetMultiplexorSignal`. -/
def setMultiplexorSignal (heap : Heap) (signals : List Address) : Option Address → Option Heap
  | some p => heap.modify p .setMultiplexSource
  | none =>
      (heap.getMultiplexorSignal signals).bind fun found =>
        found.elim (some heap) (heap.modify · .clearMultiplexed)

/-- `dbc_signal_clear`. -/
def clearSignals (heap : Heap) (signals : List Address) : Option (Heap × List Address) :=
  (signals.foldlM Heap.delete heap).bind fun heap =>
    (setMultiplexorSignal heap [] none).map (·, [])

/-- `dbc_signal_add`. -/
def addSignal (heap : Heap) (signals : List Address) (name : Name) (p : Address) :
    Option (Heap × List Address) :=
  (heap.findSignal signals name).bind fun found =>
    match found with
    | some _ => some (heap, signals)
    | none => (heap.new p name).map (·, signals ++ [p])

/-- `dbc_signal_remove`, with `RemoveSignal`. -/
def removeSignal (heap : Heap) (signals : List Address) (name : Name) :
    Option (Heap × List Address) :=
  (heap.findSignal signals name).bind fun found =>
    match found with
    | none => some (heap, signals)
    | some p => (heap.delete p).map (·, signals.filter (· ≠ p))

/-- `dbc_message_set_mux`. -/
def messageSetMux (heap : Heap) (signals : List Address) : Option Name → Option Heap
  | none => setMultiplexorSignal heap signals none
  | some name =>
      (heap.findSignal signals name).bind fun found =>
        match found with
        | none => some heap
        | some p => setMultiplexorSignal heap signals (some p)

/-- `dbc_signal_set_mux`. -/
def signalSetMux (heap : Heap) (signals : List Address) (name : Name)
    (value : Option (List UInt8)) : Option Heap :=
  heap.modifyFound signals name fun mux =>
    match value with
    | some value => mux.setMultiplexed (.ofInt (Canlog.strtol 10 value).value)
    | none => mux.clearMultiplexed

/-- `dbc_signal_set_mux_ext`. -/
def signalSetMuxExt (heap : Heap) (signals : List Address) (name : Name) :
    Option (Name × List UInt8) → Option Heap
  | none => heap.modifyFound signals name .clearMultiplexed
  | some (source, ranges) =>
      (heap.findSignal signals name).bind fun found =>
        match found with
        | none => some heap
        | some p =>
            (heap.findSignal signals source).bind fun found =>
              match found with
              | none => some heap
              | some q =>
                  (heap.modify q .setMultiplexSource).bind fun heap =>
                    heap.modify p
                      (·.setRanges q ((getlines ranges).filterMap DbcMessage.readRange))

/-! ### The parser -/

/-- The sections of a text that have to do with messages; the values and the texts that the
links do not depend on are left out. -/
inductive Section
  /-- `BO_` -/
  | message (id : ℤ)
  /-- `SG_`, and the address at which a signal is made -/
  | signal (name : Name) (tag : Option (List UInt8)) (p : Address)
  /-- `VAL_` and a first value, or only further ones -/
  | value (head : Option (ℤ × Name)) (more : Bool)
  /-- `SG_MUL_VAL_` -/
  | mulVal (id : ℤ) (name source : Name) (ranges : List (ℤ × ℤ))
  /-- `CM_ BO_` and `CM_ SG_` -/
  | comment (id : ℤ) (name : Option Name)
  /-- any other, which may end the parser -/
  | other (ok : Bool)
  /-- what is not in the grammar, behind the receivers of a `SG_` line or not -/
  | error (receiver : Option Address)

/-- The file under the parser, and where it is. -/
structure Parser where
  heap : Heap
  messages : MessageTable
  /-- `current_message` -/
  currentMessage : Option UInt32
  /-- `current_signal` -/
  currentSignal : Option Address

namespace Parser

/-- `receiver`: the signal that the parser is at, or a new one. -/
def receiver (π : Parser) (p : Address) : Option (Heap × Address) :=
  match π.currentSignal with
  | some q => some (π.heap, q)
  | none => (π.heap.new p []).map (·, p)

/-- `signal_section`. -/
def signal (π : Parser) (name : Name) (tag : Option (List UInt8)) (p : Address) :
    Option (Parser × Bool) :=
  (π.receiver p).bind fun r =>
    (r.1 r.2).bind fun s =>
      match π.currentMessage with
      | none =>
          some ({ π with
            heap := Function.update r.1 r.2 (some { s with name }), currentSignal := none }, false)
      | some id =>
          (π.messages id).map fun signals =>
            ({ π with
              heap := Function.update r.1 r.2 (some ⟨name, s.mux.retag tag⟩)
              messages := Function.update π.messages id (some (signals ++ [r.2]))
              currentSignal := none }, true)

/-- The head of a `value_list`, and whether it has further values. -/
def value (π : Parser) (head : Option (ℤ × Name)) (more : Bool) : Option (Parser × Bool) :=
  match head with
  | none => if more && π.currentSignal.isNone then none else some (π, true)
  | some (id, name) =>
      match π.messages (.ofInt id) with
      | none => some (π, false)
      | some signals =>
          (π.heap.findSignal signals name).map fun found =>
            ({ π with currentSignal := found }, found.isSome)

/-- `multiplexed_signal_section`. -/
def mulVal (π : Parser) (id : ℤ) (name source : Name) (ranges : List (ℤ × ℤ)) :
    Option (Parser × Bool) :=
  match π.messages (.ofInt id) with
  | none => some (π, false)
  | some signals =>
      (π.heap.findSignal signals name).bind fun found =>
        match found with
        | none => some ({ π with currentSignal := none }, false)
        | some p =>
            (π.heap.findSignal signals source).bind fun found =>
              match found with
              | none => some ({ π with currentSignal := some p }, false)
              | some q =>
                  (π.heap p).bind fun s =>
                    if s.mux.isMultiplexSwitch then
                      (π.heap.modify p fun mux =>
                        (ranges.map fun r => ⟨.ofInt r.1, .ofInt (-r.2)⟩).foldl
                          DbcMultiplexor.addMultiplexRange (mux.setSource q)).map fun heap =>
                        ({ π with heap, currentSignal := some p }, true)
                    else some ({ π with currentSignal := some p }, false)

/-- A comment, on a message or on a signal of it. -/
def comment (π : Parser) (id : ℤ) (name : Option Name) : Option (Parser × Bool) :=
  match π.messages (.ofInt id), name with
  | none, _ => some (π, false)
  | some _, none => some (π, true)
  | some signals, some name =>
      (π.heap.findSignal signals name).map fun found => (π, found.isSome)

/-- The action of a section, and whether the parser goes on. -/
def step (π : Parser) : Section → Option (Parser × Bool)
  | .message id =>
      some ({ π with
        messages := Function.update π.messages (.ofInt id) (some [])
        currentMessage := some (.ofInt id) }, true)
  | .signal name tag p => π.signal name tag p
  | .value head more => π.value head more
  | .mulVal id name source ranges => π.mulVal id name source ranges
  | .comment id name => π.comment id name
  | .other ok => some (π, ok)
  | .error none => some (π, false)
  | .error (some p) => (π.receiver p).map fun r => ({ π with heap := r.1 }, false)

/-- `yyparse`, and whether it accepts. -/
def run (π : Parser) : List Section → Option (Parser × Bool)
  | [] => some (π, true)
  | s :: rest =>
      (π.step s).bind fun r => if r.2 then r.1.run rest else some (r.1, false)

end Parser

/-! ### The commands -/

/-- A command, and a load by a script. -/
inductive Command
  | load (name : Name) (sections : List Section)
  | unload (name : Name)
  | select (name : Name)
  | deselect
  | addMessage (id : UInt32)
  | removeMessage (id : UInt32)
  | clearMessages
  | addSignal (id : UInt32) (name : Name) (p : Address)
  | removeSignal (id : UInt32) (name : Name)
  | clearSignals (id : UInt32)
  | messageMux (id : UInt32) (name : Option Name)
  | signalMux (id : UInt32) (name : Name) (value : Option (List UInt8))
  | signalMuxExt (id : UInt32) (name : Name) (link : Option (Name × List UInt8))

namespace DbcFile

/-- `IsLocked`. -/
def isLocked (file : DbcFile) : Bool := 0 < file.locks

/-- The file with another list of signals for a message. -/
def setSignals (file : DbcFile) (id : UInt32) (signals : Option (List Address)) : DbcFile :=
  { file with messages := Function.update file.messages id signals }

end DbcFile

namespace State

/-- A file put in its place. -/
def setFile (σ : State) (name : Name) (file : Option DbcFile) : State :=
  { σ with files := Function.update σ.files name file }

/-- `LoadFile`. -/
def load (σ : State) (name : Name) (sections : List Section) : Option State :=
  (Parser.run ⟨σ.heap, fun _ => none, none, none⟩ sections).map fun r =>
    let σ' := { σ with heap := r.1.heap }
    if r.2 && !(σ.files name).any (·.isLocked) then σ'.setFile name (some ⟨r.1.messages, 0⟩)
    else σ'

/-- `Unload`. -/
def unload (σ : State) (name : Name) : State :=
  if (σ.files name).any (·.isLocked) then σ else σ.setFile name none

/-- `DeselectFile`. -/
def deselect (σ : State) : Option State :=
  match σ.selected with
  | none => some σ
  | some name =>
      (σ.files name).map fun file =>
        { σ.setFile name (some { file with locks := file.locks - 1 }) with selected := none }

/-- `SelectFile`. -/
def select (σ : State) (name : Name) : Option State :=
  match σ.files name with
  | none => some σ
  | some _ =>
      σ.deselect.bind fun σ =>
        (σ.files name).map fun file =>
          { σ.setFile name (some { file with locks := file.locks + 1 }) with
            selected := some name }

/-- A command on the selected file. -/
def onSelected (σ : State) (f : DbcFile → DbcFile) : Option State :=
  match σ.selected with
  | none => some σ
  | some name => (σ.files name).map fun file => σ.setFile name (some (f file))

/-- A command on a message of it. -/
def onMessage (σ : State) (id : UInt32)
    (f : Heap → List Address → Option (Heap × List Address)) : Option State :=
  match σ.selected with
  | none => some σ
  | some name =>
      (σ.files name).bind fun file =>
        match file.messages id with
        | none => some σ
        | some signals =>
            (f σ.heap signals).map fun r =>
              { σ.setFile name (some (file.setSignals id (some r.2))) with heap := r.1 }

/-- A command that changes its signals only. -/
def onSignals (σ : State) (id : UInt32) (f : Heap → List Address → Option Heap) : Option State :=
  σ.onMessage id fun heap signals => (f heap signals).map (·, signals)

end State

/-- A command done. -/
def step (σ : State) : Command → Option State
  | .load name sections => σ.load name sections
  | .unload name => some (σ.unload name)
  | .select name => σ.select name
  | .deselect => σ.deselect
  | .addMessage id =>
      σ.onSelected fun file =>
        if (file.messages id).isSome then file else file.setSignals id (some [])
  | .removeMessage id => σ.onSelected fun file => file.setSignals id none
  | .clearMessages => σ.onSelected fun file => { file with messages := fun _ => none }
  | .addSignal id name p => σ.onMessage id (addSignal · · name p)
  | .removeSignal id name => σ.onMessage id (removeSignal · · name)
  | .clearSignals id => σ.onMessage id clearSignals
  | .messageMux id name => σ.onSignals id (messageSetMux · · name)
  | .signalMux id name value => σ.onSignals id (signalSetMux · · name value)
  | .signalMuxExt id name link => σ.onSignals id (signalSetMuxExt · · name link)

end Editing

end Ovms.Dbc
