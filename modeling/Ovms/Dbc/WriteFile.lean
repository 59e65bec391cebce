import Ovms.Dbc.Loaded

/-!
# Writing a DBC

`WriteFile` of a DBC file and of what it holds (`components/dbc/src/dbc.cpp`), and the tokens that
are read of what it writes. A signal is shown as its writer sees it, with the name of its source in
place of the pointer.

Comments and the sources of switches are written without the semicolon that ends their sections.
-/

open Lib
open Std
open Ovms.Location (printInt)
open Ovms.ServerV2 (ascii)

namespace Ovms.Dbc.File

/-! ### The writers -/

/-- A signal, with the name of its source in place of the pointer. -/
structure Shown where
  signal : Signal
  source : Option Text

/-- A signal of a file. -/
def DbcFile.show (file : DbcFile) (p : ℕ) : Shown :=
  let s := file.signal p
  ⟨{ s with mux := { s.mux with source := none } }, s.mux.source.map fun q => (file.signal q).name⟩

/-- A message of a file, with its signals. -/
def DbcFile.message (file : DbcFile) (m : Message ℕ) : Message Shown :=
  ⟨m.name, m.size, m.transmitterNode, m.comments, m.signals.map file.show⟩

/-- `dbcCommentTable::WriteFile`. -/
def writeComments (lead : Text) (comments : List Text) : Text :=
  comments.flatMap fun comment => lead ++ comment ++ ascii "\"\n"

/-- `dbcNewSymbolTable::WriteFile`. -/
def writeNewSymbols (symbols : List Text) : Text :=
  ascii "NS_ :" ++ symbols.flatMap (fun symbol => ascii " " ++ symbol) ++ ascii "\n\n"

/-- `dbcBitTiming::WriteFile`. -/
def writeBitTiming (timing : UInt32 × UInt32 × UInt32) : Text :=
  ascii "BS_ : " ++
    (if timing.1 = 0 then []
      else printInt timing.1.toNat ++ ascii ":" ++ printInt timing.2.1.toNat ++ ascii "," ++
        printInt timing.2.2.toNat) ++
    ascii "\n\n"

/-- `dbcNodeTable::WriteFile`. -/
def writeNodes (names : List Text) : Text :=
  ascii "BU_ :" ++ names.flatMap (fun name => ascii " " ++ name) ++ ascii "\n\n"

/-- `dbcNodeTable::WriteFileComments`. -/
def writeNodeComments (nodes : List (Text × List Text)) : Text :=
  nodes.flatMap fun node => writeComments (ascii "CM_ BU_ " ++ node.1 ++ ascii " \"") node.2

/-- `dbcValueTable::WriteFile`. -/
def writeValueTable (lead : Text) (entries : List (UInt32 × Text)) : Text :=
  lead ++
    entries.flatMap (fun entry =>
      ascii " " ++ printInt entry.1.toInt32.toInt ++ ascii " \"" ++ entry.2 ++ ascii "\"") ++
    ascii ";\n"

/-- `dbcValueTableTable::WriteFile`. -/
def writeValueTables (tables : List (Text × ValueTable)) : Text :=
  if tables = [] then []
  else
    tables.flatMap (fun table => writeValueTable (ascii "VAL_TABLE_ " ++ table.1) table.2.toList) ++
      ascii "\n"

namespace Signal

/-- The mark of a multiplexor, or of a switch. -/
def writeMux (mux : DbcMultiplexor) : Text :=
  match mux.multiplexed with
  | .multiplexSrc => ascii " M"
  | .multiplexed => ascii " m" ++ printInt mux.switchvalue.toNat
  | .multiplexedMultiplexSrc => ascii " m" ++ printInt mux.switchvalue.toNat ++ ascii "M"
  | .none => []

/-- The receivers, with commas between them. -/
def writeReceivers : List Text → Text
  | [] => []
  | [receiver] => receiver
  | receiver :: receivers => receiver ++ ascii "," ++ writeReceivers receivers

/-- `dbcSignal::WriteFile`. -/
def writeFile (s : Signal) : Text :=
  ascii "  SG_ " ++ s.name ++ writeMux s.mux ++ ascii " : " ++ printInt s.startBit.toInt ++
    ascii "|" ++ printInt s.signalSize.toInt ++ ascii "@" ++
    ascii (if s.byteOrder = .bigEndian then "0" else "1") ++
    ascii (if s.valueType = .signed then "- " else "+ ") ++
    ascii "(" ++ printDouble s.factor ++ ascii "," ++ printDouble s.offset ++
    ascii ") [" ++ printDouble s.minimum ++ ascii "|" ++ printDouble s.maximum ++
    ascii "] \"" ++ s.unit ++ ascii "\" " ++ writeReceivers s.receivers ++ ascii "\n"

/-- `dbcSignal::WriteFileComments`. -/
def writeFileComments (s : Signal) (messageid : Text) : Text :=
  writeComments (ascii "CM_ SG_ " ++ messageid ++ ascii " " ++ s.name ++ ascii " \"") s.comments

/-- `dbcSignal::WriteFileValues`. -/
def writeFileValues (s : Signal) (messageid : Text) : Text :=
  if s.values.isEmpty then []
  else writeValueTable (ascii "VAL_ " ++ messageid ++ ascii " " ++ s.name) s.values.toList

end Signal

/-- A range of switch values. -/
def writeRange (range : SwitchRange) : Text :=
  printInt range.minVal.toNat ++ ascii "-" ++ printInt range.maxVal.toNat

/-- The ranges, with commas between them. -/
def writeRanges : List SwitchRange → Text
  | [] => []
  | [range] => writeRange range
  | range :: ranges => writeRange range ++ ascii ", " ++ writeRanges ranges

/-- The ranges of a switch, or its value. -/
def Signal.ranges (s : Signal) : List SwitchRange :=
  if s.mux.switchvalues = [] then [⟨s.mux.switchvalue, s.mux.switchvalue⟩] else s.mux.switchvalues

/-- `dbcSignal::WriteFileExtended`. -/
def Shown.writeFileExtended (s : Shown) (messageid : Text) : Text :=
  match s.source with
  | some source =>
      if s.signal.mux.isMultiplexSwitch then
        ascii "SG_MUL_VAL_ " ++ messageid ++ ascii " " ++ s.signal.name ++ ascii " " ++ source ++
          ascii " " ++ writeRanges s.signal.ranges ++ ascii "\n"
      else []
  | none => []

namespace Message

/-- `dbcMessage::WriteFile`. -/
def writeFile (id : UInt32) (m : Message Shown) : Text :=
  ascii "BO_ " ++ printInt id.toNat ++ ascii " " ++ m.name ++ ascii ": " ++ printInt m.size.toInt ++
    ascii " " ++ m.transmitterNode ++ ascii "\n" ++
    m.signals.flatMap (fun s => s.signal.writeFile) ++ ascii "\n"

/-- `dbcMessage::WriteFileComments`. -/
def writeFileComments (id : UInt32) (m : Message Shown) : Text :=
  writeComments (ascii "CM_ BO_ " ++ printInt id.toNat ++ ascii " \"") m.comments ++
    m.signals.flatMap fun s => s.signal.writeFileComments (printInt id.toNat)

/-- `dbcMessage::WriteFileValues`. -/
def writeFileValues (id : UInt32) (m : Message Shown) : Text :=
  m.signals.flatMap fun s => s.signal.writeFileValues (printInt id.toNat)

/-- `dbcMessage::WriteFileExtended`. -/
def writeFileExtended (id : UInt32) (m : Message Shown) : Text :=
  m.signals.flatMap fun s => s.writeFileExtended (printInt id.toNat)

end Message

namespace DbcFile

/-- The messages, in the order of their identifiers. -/
def messageList (file : DbcFile) : List (UInt32 × Message Shown) :=
  file.messages.toList.map fun entry => (entry.1, file.message entry.2)

/-- `dbcfile::WriteFile`. -/
def writeFile (file : DbcFile) : Text :=
  ascii "VERSION \"" ++ file.version ++ ascii "\"\n\n" ++
    writeNewSymbols file.newsymbols ++
    writeBitTiming file.bittiming ++
    writeNodes file.nodes.keys ++
    writeValueTables file.values.toList ++
    file.messageList.flatMap (fun entry => entry.2.writeFile entry.1) ++
    writeComments (ascii "CM_ \"") file.comments ++
    writeNodeComments file.nodes.toList ++
    (file.messageList.flatMap (fun entry => entry.2.writeFileComments entry.1) ++
      file.messageList.flatMap (fun entry => entry.2.writeFileValues entry.1) ++
      file.messageList.flatMap (fun entry => entry.2.writeFileExtended entry.1))

end DbcFile

/-! ### What is read of numbers and literals -/

/-- The token of a number. -/
def numberToken (v : ℚ) : Token := (yylex (printDouble v)).headD .colon

variable {a b lit string : Text} {x y toks : List Token}

/-- The tokens of a literal that ends with a quote. -/
def opening (lit : Text) : Option (List Token) :=
  if lit.getLast? = some 0x22 then literal lit.dropLast.length lit.dropLast else none

/-- The tokens of a literal that starts with a quote. -/
def closing (lit : Text) : Option (List Token) :=
  match lit with
  | 0x22 :: lit => literal lit.length lit
  | _ => none

/-- Lines with a comment, without the semicolon behind it. -/
def commentTokens (lead : List Token) (comments : List Text) : List Token :=
  comments.flatMap fun comment => lead ++ [.stringVal comment]

/-- The tokens of a bit timing. -/
def bitTimingTokens (timing : UInt32 × UInt32 × UInt32) : List Token :=
  if timing.1 = 0 then []
  else
    [.intVal timing.1.toNat, .colon, .intVal timing.2.1.toNat, .comma, .intVal timing.2.2.toNat]

/-- The tokens of the entries of a table. -/
def valueTokens (entries : List (UInt32 × Text)) : List Token :=
  entries.flatMap fun entry => [.intVal entry.1.toInt32.toInt, .stringVal entry.2]

theorem ValueTable.Valid.entries {values : ValueTable} (h : values.Valid) :
    ∀ entry ∈ values.toList, Quotable entry.2 := fun entry hentry =>
  h entry.1 entry.2 (Std.ExtTreeMap.mem_toList_iff_getElem?_eq_some.mp hentry)

/-- The word of a multiplexor, or of a switch. -/
def tagOf (mux : DbcMultiplexor) : Option Text :=
  match mux.multiplexed with
  | .multiplexSrc => some (ascii "M")
  | .multiplexed => some (ascii "m" ++ printInt mux.switchvalue.toNat)
  | .multiplexedMultiplexSrc => some (ascii "m" ++ printInt mux.switchvalue.toNat ++ ascii "M")
  | .none => none

/-- The receivers, with commas between them. -/
def receiverTokens : List Text → List Token
  | [] => []
  | [receiver] => [.id receiver]
  | receiver :: receivers => .id receiver :: .comma :: receiverTokens receivers

/-- The tokens of a signal. -/
def Signal.tokens (s : Signal) : List Token :=
  .keyword .sg :: .id s.name :: ((tagOf s.mux).toList.map .id ++
    (.colon :: .intVal s.startBit.toInt :: .sep :: .intVal s.signalSize.toInt :: .atSign ::
      .intVal (if s.byteOrder = .bigEndian then 0 else 1) ::
      (if s.valueType = .signed then .minus else .plus) ::
      .parOpen :: numberToken s.factor :: .comma :: numberToken s.offset :: .parClose ::
      .boxOpen :: numberToken s.minimum :: .sep :: numberToken s.maximum :: .boxClose ::
      .stringVal s.unit :: receiverTokens s.receivers))

/-- The tokens of a message. -/
def Message.tokens (id : UInt32) (m : Message Shown) : List Token :=
  .keyword .bo :: .intVal id.toNat :: .id m.name :: .colon :: .intVal m.size.toInt ::
    .id m.transmitterNode :: m.signals.flatMap (fun s => s.signal.tokens)

/-- The tokens of the comments of a message and of its signals. -/
def Message.commentTokens (id : UInt32) (m : Message Shown) : List Token :=
  File.commentTokens [.keyword .cm, .keyword .bo, .intVal id.toNat] m.comments ++
    m.signals.flatMap fun s => File.commentTokens
      [.keyword .cm, .keyword .sg, .intVal id.toNat, .id s.signal.name] s.signal.comments

/-- The tokens of the values of a signal. -/
def Signal.valueTokens (id : UInt32) (s : Signal) : List Token :=
  if s.values.isEmpty then []
  else
    .keyword .val :: .intVal id.toNat :: .id s.name ::
      (File.valueTokens s.values.toList ++ [.semicolon])

/-- The tokens of some ranges. -/
def rangeTokens : List SwitchRange → List Token
  | [] => []
  | [range] => [.intVal range.minVal.toNat, .intVal (-range.maxVal.toNat)]
  | range :: ranges =>
      .intVal range.minVal.toNat :: .intVal (-range.maxVal.toNat) :: .comma :: rangeTokens ranges

/-- The tokens of the source of a switch, without the semicolon behind them. -/
def Shown.extendedTokens (id : UInt32) (s : Shown) : List Token :=
  match s.source with
  | some source =>
      if s.signal.mux.isMultiplexSwitch then
        .keyword .sgMulVal :: .intVal id.toNat :: .id s.signal.name :: .id source ::
          rangeTokens s.signal.ranges
      else []
  | none => []

/-- A signal that is shown, of a valid file. -/
structure Shown.Valid (s : Shown) : Prop where
  signal : s.signal.Valid
  source : ∀ w, s.source = some w → IsId w

/-- A message that is shown, of a valid file. -/
structure Message.Shows (m : Message Shown) : Prop where
  name : IsId m.name
  transmitterNode : IsId m.transmitterNode
  comments : ∀ comment ∈ m.comments, Quotable comment
  signals : ∀ s ∈ m.signals, s.Valid

namespace DbcFile

/-- The tokens of a file in front of its comments. -/
def headTokens (file : DbcFile) : List Token :=
  .keyword .version :: .stringVal file.version ::
    (.keyword .ns :: .colon :: file.newsymbols.map word ++
      (.keyword .bs :: .colon :: bitTimingTokens file.bittiming ++
        (.keyword .bu :: .colon :: file.nodes.keys.map .id ++
          (file.values.toList.flatMap (fun table => .keyword .valTable :: .id table.1 ::
              (valueTokens table.2.toList ++ [.semicolon])) ++
            file.messageList.flatMap fun entry => entry.2.tokens entry.1))))

/-- The tokens of the comments. -/
def remarkTokens (file : DbcFile) : List Token :=
  commentTokens [.keyword .cm] file.comments ++
    (file.nodes.toList.flatMap (fun node =>
        commentTokens [.keyword .cm, .keyword .bu, .id node.1] node.2) ++
      file.messageList.flatMap fun entry => entry.2.commentTokens entry.1)

/-- The tokens of a file. -/
def tokens (file : DbcFile) : List Token :=
  file.headTokens ++ (file.remarkTokens ++
    (file.messageList.flatMap (fun entry =>
        entry.2.signals.flatMap fun s => s.signal.valueTokens entry.1) ++
      file.messageList.flatMap fun entry =>
        entry.2.signals.flatMap fun s => s.extendedTokens entry.1))

variable {file : DbcFile}

/-- Signals of a valid file are shown as such. -/
theorem Valid.show (h : file.Valid) {p : ℕ} (hp : p < file.heap.length) :
    (file.show p).Valid := by
  have hmem : ∀ {p : ℕ}, p < file.heap.length → file.signal p ∈ file.heap := by
    intro p hp
    rw [signal, List.getD_eq_getElem _ _ hp]
    exact List.getElem_mem hp
  refine ⟨{ h.signals _ (hmem hp) with }, fun w hw => ?_⟩
  obtain ⟨q, hq, rfl⟩ := Option.map_eq_some_iff.mp hw
  exact (h.signals _ (hmem (h.sources _ (hmem hp) q hq))).name

theorem Valid.message (h : file.Valid) {entry : UInt32 × Message Shown}
    (hentry : entry ∈ file.messageList) : entry.2.Shows := by
  obtain ⟨⟨id, m⟩, hm, rfl⟩ := List.mem_map.mp hentry
  have hvalid := h.messages id m (Std.ExtTreeMap.mem_toList_iff_getElem?_eq_some.mp hm)
  refine ⟨hvalid.name, hvalid.transmitterNode, hvalid.comments, fun s hs => ?_⟩
  obtain ⟨p, hp, rfl⟩ := List.mem_map.mp hs
  exact h.show (hvalid.signals p hp)

end DbcFile

end Ovms.Dbc.File
