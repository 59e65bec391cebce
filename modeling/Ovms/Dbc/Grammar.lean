import Ovms.Dbc.Decimals
import Ovms.Dbc.Editing
import Std.Data.ExtTreeMap

/-!
# Reading a DBC

The grammar of DBC files (`components/dbc/src/dbc_parser.y`) and the file that its actions build
(`dbc.h`, `dbc.cpp`). A section is read where its first token says so; where a token may go on with
a list or start the next section, it goes on with the list. An action that gives the parser up, or
that follows a null pointer, has no result.

The parser makes signals and never frees one, so the address of a signal is its place in the order
in which they are made. It keeps the signal that it is at: the receivers of a `SG_` line are given
to that signal if there is one.
-/

open Std
open Ovms.ServerV2 (ascii)

namespace Ovms.Dbc.File

/-! ### What a file holds -/

/-- `dbcValueTable`, without its name. -/
abbrev ValueTable := ExtTreeMap UInt32 Text

/-- `AddValue`, of some values. -/
def addValues (values : ValueTable) (entries : List (ℤ × Text)) : ValueTable :=
  entries.foldl (fun values entry => values.insert (.ofInt entry.1) entry.2) values

/-- `dbcSignal`. -/
structure Signal where
  receivers : List Text
  comments : List Text
  values : ValueTable
  name : Text
  mux : DbcMultiplexor
  startBit : Int32
  signalSize : Int32
  byteOrder : ByteOrder
  valueType : ValueType
  factor : ℚ
  offset : ℚ
  minimum : ℚ
  maximum : ℚ
  unit : Text

/-- `dbcSignal::dbcSignal`. -/
def Signal.new : Signal :=
  ⟨[], [], ∅, [], .new, 0, 0, .bigEndian, .unsigned, 0, 0, 0, 0, []⟩

/-- `dbcMessage`, with its signals, or with where they are. -/
structure Message (σ : Type) where
  name : Text
  size : Int32
  transmitterNode : Text
  comments : List Text
  signals : List σ

/-- `dbcfile`, and its signals at their addresses. A node is its comments. -/
structure DbcFile where
  version : Text
  newsymbols : List Text
  bittiming : UInt32 × UInt32 × UInt32
  nodes : ExtTreeMap Text (List Text)
  values : ExtTreeMap Text ValueTable
  messages : ExtTreeMap UInt32 (Message ℕ)
  comments : List Text
  heap : List Signal

/-- A file without content. -/
def DbcFile.empty : DbcFile := ⟨[], [], (0, 0, 0), ∅, ∅, ∅, [], []⟩

namespace DbcFile

/-- The signal at an address. -/
def signal (file : DbcFile) (p : ℕ) : Signal := file.heap.getD p .new

/-- `FindSignal`. -/
def findSignal (file : DbcFile) (m : Message ℕ) (name : Text) : Option ℕ :=
  m.signals.find? fun p => (file.signal p).name = name

/-- A signal changed. -/
def modifySignal (file : DbcFile) (p : ℕ) (f : Signal → Signal) : DbcFile :=
  { file with heap := file.heap.modify p f }

end DbcFile

/-! ### Lists of the grammar -/

/-- `symbol`: what it adds. -/
def symbol : Keyword → Option Text
  | .nsDesc => ascii "NS_DESC_"
  | .cm => ascii "CM_"
  | .baDef => ascii "BA_DEF_"
  | .ba => ascii "BA_"
  | .val => ascii "VAL_"
  | .catDef => ascii "CAT_DEF_"
  | .cat => ascii "CAT_"
  | .filter => ascii "FILTER"
  | .baDefDef => ascii "BA_DEF_DEF_"
  | .evData => ascii "EV_DATA_"
  | .envvarData => ascii "ENVVAR_DATA_"
  | .sgtype => ascii "SG_TYPE_"
  | .sgtypeVal => ascii "SG_TYPE_VAL_"
  | .baDefSgtype => ascii "BA_DEF_SGTYPE_"
  | .baSgtype => ascii "BA_SGTYPE_"
  | .sigTypeRef => ascii "SIG_TYPE_REF_"
  | .valTable => ascii "VAL_TABLE_"
  | .sigGroup => ascii "SIG_GROUP_"
  | .sigValtype => ascii "SIG_VALTYPE_"
  | .sigtypeValtype => ascii "SIGTYPE_VALTYPE_"
  | .boTxBu => ascii "BO_TX_BU_"
  | .baDefRel => ascii "BA_DEF_REL_"
  | .baRel => ascii "BA_REL_"
  | .baDefDefRel => ascii "BA_DEF_DEF_REL_"
  | .buSgRel => ascii "BU_SG_REL_"
  | .buEvRel => ascii "BU_EV_REL_"
  | .buBoRel => ascii "BU_BO_REL_"
  | .sgMulVal => ascii "SG_MUL_VAL_"
  | _ => none

/-- `symbol_list`. -/
def symbolList : List Token → List Text × List Token
  | .keyword k :: ts =>
      match symbol k with
      | some s => (s :: (symbolList ts).1, (symbolList ts).2)
      | none => ([], .keyword k :: ts)
  | ts => ([], ts)

/-- `node_list`. -/
def nodeList : List Token → List Text × List Token
  | .id name :: ts => (name :: (nodeList ts).1, (nodeList ts).2)
  | ts => ([], ts)

/-- The rest of a `value_table_list` or a `value_list`. -/
def valueList : List Token → List (ℤ × Text) × List Token
  | .intVal v :: .stringVal s :: ts => ((v, s) :: (valueList ts).1, (valueList ts).2)
  | ts => ([], ts)

/-- The rest of a `receiver_list`. -/
def receiverList : List Token → List Text × List Token
  | .comma :: .id receiver :: ts => (receiver :: (receiverList ts).1, (receiverList ts).2)
  | ts => ([], ts)

/-- `mux_value_range_list`. A range may be left out. -/
def muxValueRangeList : List Token → List SwitchRange × List Token
  | .intVal a :: .intVal b :: .comma :: ts =>
      (⟨.ofInt a, .ofInt (-b)⟩ :: (muxValueRangeList ts).1, (muxValueRangeList ts).2)
  | .intVal a :: .intVal b :: ts => ([⟨.ofInt a, .ofInt (-b)⟩], ts)
  | .comma :: ts => muxValueRangeList ts
  | ts => ([], ts)

/-! ### A signal line -/

/-- `signal_mux`. -/
def signalMux : List Token → Option Text × List Token
  | .id tag :: ts => (some tag, ts)
  | ts => (none, ts)

/-- `signal_sign`. -/
def signalSign : Token → Option ValueType
  | .plus => some .unsigned
  | .minus => some .signed
  | _ => none

/-- What a `SG_` line says behind the name. -/
structure SignalLine where
  tag : Option Text
  startBit : ℤ
  signalSize : ℤ
  endian : ℤ
  valueType : ValueType
  factor : ℚ
  offset : ℚ
  minimum : ℚ
  maximum : ℚ
  unit : Text
  receivers : List Text

/-- `signal_section`, behind the name. -/
def signalLine (ts : List Token) : Option (SignalLine × List Token) :=
  let mux := signalMux ts
  match mux.2 with
  | .colon :: .intVal start :: .sep :: .intVal length :: .atSign :: .intVal endian :: sign ::
      .parOpen :: scale :: .comma :: offset :: .parClose ::
      .boxOpen :: minimum :: .sep :: maximum :: .boxClose ::
      .stringVal unit :: .id receiver :: ts => do
    let valueType ← signalSign sign
    let factor ← doubleVal scale
    let offset ← doubleVal offset
    let minimum ← doubleVal minimum
    let maximum ← doubleVal maximum
    let receivers := receiverList ts
    return (⟨mux.1, start, length, endian, valueType, factor, offset, minimum, maximum, unit,
      receiver :: receivers.1⟩, receivers.2)
  | _ => none

/-- The action of `signal_section` on its signal. -/
def Signal.setLine (s : Signal) (name : Text) (line : SignalLine) : Signal :=
  { s with
    receivers := s.receivers ++ line.receivers
    name
    mux := s.mux.retag line.tag
    startBit := .ofInt line.startBit
    signalSize := .ofInt line.signalSize
    byteOrder := if UInt32.ofInt line.endian = 0 then .bigEndian else .littleEndian
    valueType := line.valueType
    factor := line.factor
    offset := line.offset
    minimum := line.minimum
    maximum := line.maximum
    unit := line.unit }

/-! ### The sections -/

/-- The file under the parser, and where it is. -/
structure Parser where
  file : DbcFile
  /-- the identifier of `current_message` -/
  currentMessage : Option UInt32
  /-- `current_signal` -/
  currentSignal : Option ℕ

namespace Parser

/-- `version_section`. -/
def versionSection (π : Parser) : List Token → Option (Parser × List Token)
  | .stringVal s :: ts => some ({ π with file.version := s }, ts)
  | _ => none

/-- `symbol_section`. -/
def symbolSection (π : Parser) : List Token → Option (Parser × List Token)
  | .colon :: ts =>
      some ({ π with file.newsymbols := π.file.newsymbols ++ (symbolList ts).1 }, (symbolList ts).2)
  | _ => none

/-- `bit_timing_section`. -/
def bitTimingSection (π : Parser) : List Token → Option (Parser × List Token)
  | .colon :: .intVal baud :: .colon :: .intVal btr1 :: .comma :: .intVal btr2 :: ts =>
      some ({ π with file.bittiming := (.ofInt baud, .ofInt btr1, .ofInt btr2) }, ts)
  | .colon :: .intVal _ :: _ => none
  | .colon :: ts => some (π, ts)
  | _ => none

/-- `node_list_section`. -/
def nodeListSection (π : Parser) : List Token → Option (Parser × List Token)
  | .colon :: ts =>
      let nodes := (nodeList ts).1.foldl (fun nodes name => nodes.insert name []) π.file.nodes
      some ({ π with file.nodes := nodes }, (nodeList ts).2)
  | _ => none

/-- `value_table_section`. -/
def valueTableSection (π : Parser) : List Token → Option (Parser × List Token)
  | .id name :: .intVal v :: .stringVal s :: ts =>
      match valueList ts with
      | (entries, .semicolon :: ts) =>
          let table := addValues ∅ ((v, s) :: entries)
          some ({ π with file.values := π.file.values.insert name table }, ts)
      | _ => none
  | _ => none

/-- `message_section`. -/
def messageSection (π : Parser) : List Token → Option (Parser × List Token)
  | .intVal id :: .id name :: .colon :: .intVal size :: .id node :: ts =>
      let messages := π.file.messages.insert (.ofInt id) ⟨name, .ofInt size, node, [], []⟩
      some ({ π with file.messages := messages, currentMessage := some (.ofInt id) }, ts)
  | _ => none

/-- The actions of a `SG_` line: its signal is the one that the parser is at, or a new one. -/
def addSignal (π : Parser) (name : Text) (line : SignalLine) : Option Parser := do
  let id ← π.currentMessage
  let m ← π.file.messages[id]?
  let p := π.currentSignal.getD π.file.heap.length
  let heap := if π.currentSignal.isSome then π.file.heap else π.file.heap ++ [.new]
  return { π with
    file.heap := heap.modify p (·.setLine name line)
    file.messages := π.file.messages.insert id { m with signals := m.signals ++ [p] }
    currentSignal := none }

/-- `signal_section`. -/
def signalSection (π : Parser) : List Token → Option (Parser × List Token)
  | .id name :: ts => do
      let (line, ts) ← signalLine ts
      let π ← π.addSignal name line
      return (π, ts)
  | _ => none

/-- A signal of a message, and the values of a `VAL_` line for it. -/
def addSignalValues (π : Parser) (id : ℤ) (name : Text) (entries : List (ℤ × Text)) :
    Option Parser := do
  let m ← π.file.messages[UInt32.ofInt id]?
  let p ← π.file.findSignal m name
  return { π with
    file := π.file.modifySignal p fun s => { s with values := addValues s.values entries }
    currentSignal := some p }

/-- `value_section` with `VAL_`. -/
def valueSection (π : Parser) : List Token → Option (Parser × List Token)
  | .intVal id :: .id name :: .intVal v :: .stringVal s :: ts =>
      match valueList ts with
      | (entries, .semicolon :: ts) =>
          (π.addSignalValues id name ((v, s) :: entries)).map (·, ts)
      | _ => none
  | _ => none

/-- `value_section` without `VAL_`: more values for the signal that the parser is at. -/
def moreValues (π : Parser) (ts : List Token) : Option (Parser × List Token) :=
  match valueList ts, π.currentSignal with
  | ([], .semicolon :: ts), _ => some (π, ts)
  | (entries, .semicolon :: ts), some p =>
      let file := π.file.modifySignal p fun s => { s with values := addValues s.values entries }
      some ({ π with file }, ts)
  | _, _ => none

/-- The action of `multiplexed_signal_section`. -/
def setSource (π : Parser) (id : ℤ) (name source : Text) (ranges : List SwitchRange) :
    Option Parser := do
  let m ← π.file.messages[UInt32.ofInt id]?
  let p ← π.file.findSignal m name
  let src ← π.file.findSignal m source
  if (π.file.signal p).mux.isMultiplexSwitch then
    return { π with
      file := π.file.modifySignal p fun s =>
        { s with mux := ranges.foldl DbcMultiplexor.addMultiplexRange (s.mux.setSource src) }
      currentSignal := some p }
  else none

/-- `multiplexed_signal_section`. -/
def multiplexedSignalSection (π : Parser) : List Token → Option (Parser × List Token)
  | .intVal id :: .id name :: .id source :: ts =>
      match muxValueRangeList ts with
      | (ranges, .semicolon :: ts) => (π.setSource id name source ranges).map (·, ts)
      | _ => none
  | _ => none

/-- `attribute_section`. -/
def attributeSection (π : Parser) : List Token → Option (Parser × List Token)
  | .keyword object :: .stringVal _ :: .keyword .string :: .semicolon :: ts =>
      if object ∈ [Keyword.bu, .bo, .sg, .ev] then some (π, ts) else none
  | .keyword object :: .stringVal _ :: .keyword .int :: .intVal _ :: .intVal _ :: .semicolon ::
      ts =>
      if object ∈ [Keyword.bu, .bo, .sg, .ev] then some (π, ts) else none
  | _ => none

/-- `attribute_default_section`. -/
def attributeDefaultSection (π : Parser) : List Token → Option (Parser × List Token)
  | .stringVal _ :: .stringVal _ :: .semicolon :: ts => some (π, ts)
  | .stringVal _ :: .intVal _ :: .semicolon :: ts => some (π, ts)
  | _ => none

/-- `CM_ BU_`. -/
def addNodeComment (π : Parser) (name comment : Text) : Option Parser := do
  let comments ← π.file.nodes[name]?
  return { π with file.nodes := π.file.nodes.insert name (comments ++ [comment]) }

/-- `CM_ BO_`. -/
def addMessageComment (π : Parser) (id : ℤ) (comment : Text) : Option Parser := do
  let m ← π.file.messages[UInt32.ofInt id]?
  return { π with
    file.messages :=
      π.file.messages.insert (.ofInt id) { m with comments := m.comments ++ [comment] } }

/-- `CM_ SG_`. -/
def addSignalComment (π : Parser) (id : ℤ) (name comment : Text) : Option Parser := do
  let m ← π.file.messages[UInt32.ofInt id]?
  let p ← π.file.findSignal m name
  return { π with
    file := π.file.modifySignal p fun s => { s with comments := s.comments ++ [comment] } }

/-- `comment_section`. `CM_ EV_` is not supported. -/
def commentSection (π : Parser) : List Token → Option (Parser × List Token)
  | .stringVal s :: .semicolon :: ts =>
      some ({ π with file.comments := π.file.comments ++ [s] }, ts)
  | .keyword .bu :: .id name :: .stringVal s :: .semicolon :: ts =>
      (π.addNodeComment name s).map (·, ts)
  | .keyword .bo :: .intVal id :: .stringVal s :: .semicolon :: ts =>
      (π.addMessageComment id s).map (·, ts)
  | .keyword .sg :: .intVal id :: .id name :: .stringVal s :: .semicolon :: ts =>
      (π.addSignalComment id name s).map (·, ts)
  | _ => none

/-- `dbc_section`. -/
def dbcSection (π : Parser) : List Token → Option (Parser × List Token)
  | .keyword .version :: ts => π.versionSection ts
  | .keyword .ns :: ts => π.symbolSection ts
  | .keyword .bs :: ts => π.bitTimingSection ts
  | .keyword .bu :: ts => π.nodeListSection ts
  | .keyword .valTable :: ts => π.valueTableSection ts
  | .keyword .bo :: ts => π.messageSection ts
  | .keyword .sg :: ts => π.signalSection ts
  | .keyword .val :: ts => π.valueSection ts
  | .keyword .sgMulVal :: ts => π.multiplexedSignalSection ts
  | .keyword .baDef :: ts => π.attributeSection ts
  | .keyword .baDefDef :: ts => π.attributeDefaultSection ts
  | .keyword .cm :: ts => π.commentSection ts
  | ts => π.moreValues ts

/-- `dbc_sections`. There are no more sections than tokens. -/
def dbcSections : ℕ → Parser → List Token → Option Parser
  | _, π, [] => some π
  | 0, _, _ :: _ => none
  | n + 1, π, t :: ts => (π.dbcSection (t :: ts)).bind fun r => dbcSections n r.1 r.2

/-- The parser before the first section. -/
def init : Parser := ⟨.empty, none, none⟩

end Parser

/-- `LoadString`: the file, if the text is accepted. -/
def load (text : Text) : Option DbcFile :=
  let tokens := yylex text
  (Parser.dbcSections tokens.length .init tokens).map (·.file)

end Ovms.Dbc.File
