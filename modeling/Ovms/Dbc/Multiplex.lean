import Ovms.Dbc.Signal
import Ovms.Metrics.Bitset
import Ovms.Units.Target

/-!
# Multiplexed Messages

The signals of a `dbcMessage` and how they are multiplexed (`components/dbc/src/dbc.cpp`). A
signal may be a switch: it is in the message only while another signal, its source, has one of
certain values. The source is named by a `SG_MUL_VAL_` line of the file (`dbc_parser.y`) or by a
command (`dbc_app.cpp`); a switch without one has the main multiplexor of the message. Pointers
to signals are their places in the message, and a source is always one of its signals.
-/

open Ovms.Units (MetricUnit)
open Ovms.Metrics.Bitset (getlines)
open Ovms.Location (scanDigits toUlong scanUnsigned)

namespace Ovms.Dbc

/-- `dbcMultiplex_t`. -/
inductive Multiplex
  | none | multiplexSrc | multiplexed | multiplexedMultiplexSrc
  deriving DecidableEq, Repr

/-- `dbcSwitchRange_t`. -/
structure SwitchRange where
  minVal : UInt32
  maxVal : UInt32
  deriving DecidableEq, Repr

/-- `dbcMultiplexor_t`. -/
structure DbcMultiplexor where
  multiplexed : Multiplex
  switchvalue : UInt32
  switchvalues : List SwitchRange
  /-- the place of the signal in the message -/
  source : Option ℕ
  deriving DecidableEq, Repr

namespace DbcMultiplexor

/-- A signal that is not multiplexed. -/
def new : DbcMultiplexor := ⟨.none, 0, [], none⟩

/-- `IsMainMultiplexSource`. -/
def isMainMultiplexSource (mux : DbcMultiplexor) : Bool := mux.multiplexed == .multiplexSrc

/-- `IsMultiplexSwitch`. -/
def isMultiplexSwitch (mux : DbcMultiplexor) : Bool :=
  mux.multiplexed == .multiplexedMultiplexSrc || mux.multiplexed == .multiplexed

/-- `IsMultiplexSwitchvalue`. -/
def isMultiplexSwitchvalue (mux : DbcMultiplexor) (value : UInt32) : Bool :=
  mux.switchvalue == value ||
    mux.switchvalues.any fun range => range.minVal ≤ value && value ≤ range.maxVal

/-- `SetMultiplexSource` without a signal: it is a source itself. -/
def setMultiplexSource (mux : DbcMultiplexor) : DbcMultiplexor :=
  match mux.multiplexed with
  | .multiplexedMultiplexSrc | .multiplexSrc => mux
  | .multiplexed => { mux with multiplexed := .multiplexedMultiplexSrc }
  | .none => { mux with multiplexed := .multiplexSrc }

/-- `SetMultiplexed`. -/
def setMultiplexed (mux : DbcMultiplexor) (switchvalue : UInt32) : DbcMultiplexor :=
  match mux.multiplexed with
  | .multiplexedMultiplexSrc => mux
  | .multiplexSrc =>
      { mux with multiplexed := .multiplexedMultiplexSrc, switchvalue, source := none }
  | .multiplexed | .none => { mux with multiplexed := .multiplexed, switchvalue, source := none }

/-- `SetMultiplexSource`. -/
def setSource (mux : DbcMultiplexor) (source : ℕ) : DbcMultiplexor :=
  { mux with source := some source }

/-- `AddMultiplexRange`. -/
def addMultiplexRange (mux : DbcMultiplexor) (range : SwitchRange) : DbcMultiplexor :=
  { mux with switchvalues := mux.switchvalues ++ [range] }

/-- `ClearMultiplexed`. -/
def clearMultiplexed (mux : DbcMultiplexor) : DbcMultiplexor :=
  match mux.multiplexed with
  | .multiplexedMultiplexSrc => { mux with multiplexed := .multiplexSrc }
  | .multiplexed => { mux with multiplexed := .none, switchvalue := 0 }
  | .multiplexSrc | .none => mux

/-- The loop of `dbc_signal_set_mux_ext` over the ranges. -/
def setRanges (mux : DbcMultiplexor) (source : ℕ) : List SwitchRange → DbcMultiplexor
  | [] => mux
  | range :: ranges =>
      (range :: ranges).foldl addMultiplexRange
        ((mux.setMultiplexed range.minVal).setSource source)

@[simp] theorem source_setMultiplexSource (mux : DbcMultiplexor) :
    mux.setMultiplexSource.source = mux.source := by
  rw [setMultiplexSource]
  split <;> rfl

theorem source_setMultiplexed (mux : DbcMultiplexor) (switchvalue : UInt32) :
    (mux.setMultiplexed switchvalue).source = mux.source ∨
      (mux.setMultiplexed switchvalue).source = none := by
  rw [setMultiplexed]
  split
  · exact .inl rfl
  all_goals exact .inr rfl

@[simp] theorem source_clearMultiplexed (mux : DbcMultiplexor) :
    mux.clearMultiplexed.source = mux.source := by
  rw [clearMultiplexed]
  split <;> rfl

@[simp] theorem source_foldl_addMultiplexRange (ranges : List SwitchRange)
    (mux : DbcMultiplexor) : (ranges.foldl addMultiplexRange mux).source = mux.source := by
  induction ranges generalizing mux with
  | nil => rfl
  | cons range ranges ih => rw [List.foldl_cons, ih, addMultiplexRange]

end DbcMultiplexor

/-- A `dbcSignal` of a message. -/
structure MessageSignal extends DbcSignal where
  name : List UInt8
  /-- there is a metric for it -/
  metric : Bool
  metricUnit : MetricUnit
  /-- `m_values`, in the order of their keys -/
  values : List (UInt32 × List UInt8)
  mux : DbcMultiplexor

/-- A `dbcMessage`: its signals. -/
structure DbcMessage where
  signals : List MessageSignal
  /-- a source is a signal of the message -/
  sources : ∀ s ∈ signals, ∀ k, s.mux.source = some k → k < signals.length

namespace DbcMessage

/-- A signal of the message. -/
abbrev Index (m : DbcMessage) : Type := Fin m.signals.length

/-- A signal. -/
abbrev signal (m : DbcMessage) (i : m.Index) : MessageSignal := m.signals[i]

/-- `FindSignal`. -/
def findSignal (m : DbcMessage) (name : List UInt8) : Option m.Index :=
  m.signals.findFinIdx? (·.name == name)

/-- `GetMultiplexorSignal`. -/
def getMultiplexorSignal (m : DbcMessage) : Option m.Index :=
  m.signals.findFinIdx? fun s => s.mux.isMainMultiplexSource && s.mux.source.isNone

/-- The signal that a switch depends on: its source, or the main multiplexor. -/
def muxsrc (m : DbcMessage) (i : m.Index) : Option m.Index :=
  match h : (m.signal i).mux.source with
  | some k => some ⟨k, m.sources _ (List.getElem_mem i.isLt) k h⟩
  | none => m.getMultiplexorSignal

/-! ### Edits -/

/-- A message without signals. -/
def empty : DbcMessage := ⟨[], fun _ h => nomatch h⟩

/-- `AddSignal`, of a signal without a source. -/
def addSignal (m : DbcMessage) (s : MessageSignal) (hs : s.mux.source = none) : DbcMessage where
  signals := m.signals ++ [s]
  sources := by
    intro t ht k hk
    rw [List.length_append]
    rcases List.mem_append.mp ht with hmem | hmem
    · exact Nat.lt_add_right 1 (m.sources t hmem k hk)
    · rw [List.mem_singleton.mp hmem, hs] at hk
      cases hk

/-- A signal with another multiplexor. -/
def setMux (m : DbcMessage) (i : m.Index) (mux : DbcMultiplexor)
    (hmux : ∀ k, mux.source = some k → k < m.signals.length) : DbcMessage where
  signals := m.signals.set i { m.signal i with mux }
  sources := by
    intro t ht k hk
    rw [List.length_set]
    rcases List.mem_or_eq_of_mem_set ht with hmem | rfl
    · exact m.sources t hmem k hk
    · exact hmux k hk

theorem source_lt (m : DbcMessage) (i : m.Index) {k : ℕ} (h : (m.signal i).mux.source = some k) :
    k < m.signals.length :=
  m.sources _ (List.getElem_mem i.isLt) k h

/-- The multiplexor of a signal after the tag of its `SG_` line. -/
def tagged (tag : Option (List UInt8)) : DbcMultiplexor :=
  match tag with
  | none => DbcMultiplexor.new.clearMultiplexed
  | some (0x4D :: _) => DbcMultiplexor.new.setMultiplexSource
  | some (0x6D :: rest) =>
      let mux :=
        if 2 < rest.length + 1 ∧ rest.getLast? = some 0x4D then
          DbcMultiplexor.new.setMultiplexSource
        else .new
      mux.setMultiplexed
        (match scanDigits rest with
          | some r => .ofNat (toUlong r.1 r.2.1)
          | none => 0)
  | some _ => .new

/-- A tag names no source. -/
theorem source_tagged (tag : Option (List UInt8)) : (tagged tag).source = none := by
  unfold tagged
  split
  · rfl
  · rfl
  · dsimp only
    split <;> rfl
  · rfl

/-- `sscanf` of a range in the command: a number, or two with a dash between them. -/
def readRange (item : List UInt8) : Option SwitchRange :=
  match scanUnsigned item with
  | none => none
  | some (minVal, 0x2D :: rest) =>
      match scanUnsigned rest with
      | some (maxVal, _) => some ⟨.ofInt minVal, .ofInt maxVal⟩
      | none => some ⟨.ofInt minVal, .ofInt minVal⟩
  | some (minVal, _) => some ⟨.ofInt minVal, .ofInt minVal⟩

/-- What is done to a message: a line `SG_` or the command that adds a signal, a line
`SG_MUL_VAL_`, and the commands `messagemux`, `signalmux` and `signalmuxext`. -/
inductive Edit
  | signal (s : MessageSignal) (tag : Option (List UInt8))
  | mulVal (name source : List UInt8) (ranges : List (ℤ × ℤ))
  | messageMux (name : Option (List UInt8))
  | signalMux (name : List UInt8) (value : Option (List UInt8))
  | signalMuxExt (name : List UInt8) (link : Option (List UInt8 × List UInt8))

/-- `SetMultiplexSource` of a signal. -/
def setMultiplexSource (m : DbcMessage) (i : m.Index) : DbcMessage :=
  m.setMux i (m.signal i).mux.setMultiplexSource fun _ hk =>
    m.source_lt i ((DbcMultiplexor.source_setMultiplexSource _).symm.trans hk)

/-- `SetMultiplexed` of a signal. -/
def setMultiplexed (m : DbcMessage) (i : m.Index) (switchvalue : UInt32) : DbcMessage :=
  m.setMux i ((m.signal i).mux.setMultiplexed switchvalue) fun _ hk => by
    rcases DbcMultiplexor.source_setMultiplexed (m.signal i).mux switchvalue with h | h
    · exact m.source_lt i (h.symm.trans hk)
    · rw [h] at hk
      cases hk

/-- `ClearMultiplexed` of a signal. -/
def clearMultiplexed (m : DbcMessage) (i : m.Index) : DbcMessage :=
  m.setMux i (m.signal i).mux.clearMultiplexed fun _ hk =>
    m.source_lt i ((DbcMultiplexor.source_clearMultiplexed _).symm.trans hk)

/-- `SetMultiplexSource` of a switch, and the ranges of a `SG_MUL_VAL_` line. -/
def setSource (m : DbcMessage) (i source : m.Index) (ranges : List SwitchRange) : DbcMessage :=
  m.setMux i (ranges.foldl DbcMultiplexor.addMultiplexRange ((m.signal i).mux.setSource source))
    fun _ hk => by
      rw [DbcMultiplexor.source_foldl_addMultiplexRange] at hk
      obtain rfl := Option.some.inj hk
      exact source.isLt

/-- The loop over the ranges, of a signal. -/
def setRanges (m : DbcMessage) (i source : m.Index) (ranges : List SwitchRange) : DbcMessage :=
  m.setMux i ((m.signal i).mux.setRanges source ranges) fun k hk => by
    cases ranges with
    | nil => exact m.source_lt i hk
    | cons range ranges =>
      rw [DbcMultiplexor.setRanges, DbcMultiplexor.source_foldl_addMultiplexRange] at hk
      obtain rfl := Option.some.inj hk
      exact source.isLt

/-- `dbc_signal_set_mux_ext` with a source. -/
def setMuxExt (m : DbcMessage) (i source : m.Index) (ranges : List SwitchRange) : DbcMessage :=
  let m' := m.setMultiplexSource source
  have hlength : m.signals.length = m'.signals.length := List.length_set.symm
  m'.setRanges (i.cast hlength) (source.cast hlength) ranges

/-- One edit. Nothing is done where a signal is not found, or is no switch to have a source. -/
def edit (m : DbcMessage) : Edit → DbcMessage
  | .signal s tag => m.addSignal { s with mux := tagged tag } (source_tagged tag)
  | .mulVal name source ranges =>
      match m.findSignal name, m.findSignal source with
      | some i, some src =>
          if (m.signal i).mux.isMultiplexSwitch then
            m.setSource i src (ranges.map fun r => ⟨.ofInt r.1, .ofInt (-r.2)⟩)
          else m
      | _, _ => m
  | .messageMux (some name) => (m.findSignal name).elim m m.setMultiplexSource
  | .messageMux none => m.getMultiplexorSignal.elim m m.clearMultiplexed
  | .signalMux name (some value) =>
      (m.findSignal name).elim m fun i =>
        m.setMultiplexed i (.ofInt (Canlog.strtol 10 value).value)
  | .signalMux name none => (m.findSignal name).elim m m.clearMultiplexed
  | .signalMuxExt name (some (source, text)) =>
      match m.findSignal name, m.findSignal source with
      | some i, some src => m.setMuxExt i src ((getlines text).filterMap readRange)
      | _, _ => m
  | .signalMuxExt name none => (m.findSignal name).elim m m.clearMultiplexed

/-- The message that some edits make. -/
def build (edits : List Edit) : DbcMessage := edits.foldl edit empty

end DbcMessage

end Ovms.Dbc
