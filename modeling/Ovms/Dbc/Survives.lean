import Ovms.Dbc.Reload

/-!
# Saving and Loading a DBC

A file is loaded, and what it is written as is loaded again. That gives an equal database exactly
when there is nothing in the file that the writers and the grammar do not agree about: no comment
and no source of a switch, whose lines lack the semicolon; no symbol with another name than its
keyword; no number with more digits than are written; and no values of a signal that another one
of its name stands in front of.
-/

open Lib
open Std
open Ovms.Location (printInt scanDigits signed_printInt stops_cons toUlong)
open Ovms.ServerV2 (ascii)

namespace Ovms.Dbc.File

/-! ### Marks -/

/-- A signal whose line says all of it: what is written of its numbers is the number, and it has
no ranges, and a switch value only if it is a switch. -/
structure Signal.Exact (s : Signal) : Prop where
  comments : s.comments = []
  factor : toDouble (sixDigits s.factor) = s.factor
  offset : toDouble (sixDigits s.offset) = s.offset
  minimum : toDouble (sixDigits s.minimum) = s.minimum
  maximum : toDouble (sixDigits s.maximum) = s.maximum
  switchvalue : s.mux.isMultiplexSwitch = false → s.mux.switchvalue = 0
  switchvalues : s.mux.switchvalues = []

/-- Only the first signal of a name has values. -/
def Firsts (signals : List Shown) : Prop :=
  signals.Pairwise fun s t => s.signal.name = t.signal.name → t.signal.values = ∅

/-- A message that is read back as it is. -/
structure Message.Exact (m : Message Shown) : Prop where
  comments : m.comments = []
  source : ∀ s ∈ m.signals, s.source = none
  signals : ∀ s ∈ m.signals, s.signal.Exact
  firsts : Firsts m.signals

namespace DbcFile

variable {file : DbcFile}

/-- The tokens of the sources of switches. -/
def extendedTokens (file : DbcFile) : List Token :=
  file.messageList.flatMap fun entry => entry.2.signals.flatMap fun s => s.extendedTokens entry.1

end DbcFile

end Ovms.Dbc.File
