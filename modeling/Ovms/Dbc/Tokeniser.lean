import Mathlib.Tactic.FinCases
import Ovms.Config.Values
import Ovms.Lib.Lexing
import Ovms.Location.Scan

/-!
# The Words of a DBC

The tokeniser of DBC files (`components/dbc/src/dbc_tokeniser.l`). At each place it takes the
longest piece of text that one of its rules describes. All keywords are described by the rule for
identifiers as well, so a word is taken whole, and then is a keyword or not; a number is taken as
an integer where its text as a floating point number is no longer.

A text has no terminator in it. A `long` has 32 bits, a `long long` has 64. A `double` is a
rational number with 53 bits; its range and its zero with a sign are left out.
-/

open Lib
open Ovms.Canlog (isDigitOf readSign)
open Ovms.Config (roundEven)
open Ovms.Location (digitsValue scanExponent)
open Ovms.ServerV2 (ascii)

namespace Ovms.Dbc.File

abbrev Text := List UInt8

/-! ### Tokens -/

/-- The keywords, under the names of their tokens. -/
inductive Keyword
  | version | bo | bs | bu | sg | ev | sigValtype | ns | int | float | nan | string | enum | hex
  | nsDesc | cm | baDef | ba | val | catDef | cat | filter | baDefDef | evData | envvarData
  | sgtype | sgtypeVal | baDefSgtype | baSgtype | sigTypeRef | valTable | sigGroup
  | sigtypeValtype | boTxBu | baDefRel | baRel | baDefDefRel | buSgRel | buEvRel | buBoRel
  | sgMulVal
  deriving DecidableEq, Repr

/-- A token, with its value. -/
inductive Token
  | keyword (k : Keyword)
  | dummyNodeVector (number : ℤ)
  | id (string : Text)
  | stringVal (string : Text)
  | intVal (number : ℤ)
  | doubleVal (value : ℚ)
  | colon | semicolon | sep | comma | atSign | plus | minus
  | boxOpen | boxClose | parOpen | parClose
  /-- any other character -/
  | char (c : UInt8)
  deriving DecidableEq, Repr

/-- The words that are no identifiers. -/
def keywords : List (Text × Token) :=
  [(ascii "VERSION", .keyword .version), (ascii "BO_", .keyword .bo), (ascii "BS_", .keyword .bs),
    (ascii "BU_", .keyword .bu), (ascii "SG_", .keyword .sg), (ascii "EV_", .keyword .ev),
    (ascii "SIG_VALTYPE_", .keyword .sigValtype), (ascii "NS_", .keyword .ns),
    (ascii "INT", .keyword .int), (ascii "FLOAT", .keyword .float), (ascii "NAN", .keyword .nan),
    (ascii "STRING", .keyword .string), (ascii "ENUM", .keyword .enum),
    (ascii "HEX", .keyword .hex), (ascii "NS_DESC_", .keyword .nsDesc),
    (ascii "CM_", .keyword .cm), (ascii "BA_DEF_", .keyword .baDef), (ascii "BA_", .keyword .ba),
    (ascii "VAL_", .keyword .val), (ascii "CAT_DEF_", .keyword .catDef),
    (ascii "CAT_", .keyword .cat), (ascii "FILTER", .keyword .filter),
    (ascii "BA_DEF_DEF_", .keyword .baDefDef), (ascii "EV_DATA_", .keyword .evData),
    (ascii "ENVVAR_DATA_", .keyword .envvarData), (ascii "SGTYPE_", .keyword .sgtype),
    (ascii "SGTYPE_VAL_", .keyword .sgtypeVal), (ascii "BA_DEF_SGTYPE_", .keyword .baDefSgtype),
    (ascii "BA_SGTYPE_", .keyword .baSgtype), (ascii "SIG_TYPE_REF_", .keyword .sigTypeRef),
    (ascii "VAL_TABLE_", .keyword .valTable), (ascii "SIG_GROUP_", .keyword .sigGroup),
    (ascii "SIGTYPE_VALTYPE_", .keyword .sigtypeValtype), (ascii "BO_TX_BU_", .keyword .boTxBu),
    (ascii "BA_DEF_REL_", .keyword .baDefRel), (ascii "BA_REL_", .keyword .baRel),
    (ascii "BA_DEF_DEF_REL_", .keyword .baDefDefRel), (ascii "BU_SG_REL_", .keyword .buSgRel),
    (ascii "BU_EV_REL_", .keyword .buEvRel), (ascii "BU_BO_REL_", .keyword .buBoRel),
    (ascii "SG_MUL_VAL_", .keyword .sgMulVal),
    (ascii "DUMMY_NODE_VECTOR0", .dummyNodeVector 0),
    (ascii "DUMMY_NODE_VECTOR1", .dummyNodeVector 1),
    (ascii "DUMMY_NODE_VECTOR2", .dummyNodeVector 2),
    (ascii "DUMMY_NODE_VECTOR3", .dummyNodeVector 3)]

/-- The token of a word. -/
def word (w : Text) : Token := (keywords.lookup w).getD (.id w)

/-- The token of a character. -/
def mark (c : UInt8) : Token :=
  match c with
  | 0x3A => .colon
  | 0x3B => .semicolon
  | 0x7C => .sep
  | 0x2C => .comma
  | 0x40 => .atSign
  | 0x2B => .plus
  | 0x2D => .minus
  | 0x5B => .boxOpen
  | 0x5D => .boxClose
  | 0x28 => .parOpen
  | 0x29 => .parClose
  | c => .char c

/-! ### Rules -/

/-- `whitespace` and `newline`. -/
def isBlank (c : UInt8) : Bool := c == 0x20 || c == 0x09 || c == 0x0A || c == 0x0D

/-- The first character of an identifier. -/
def isIdStart (c : UInt8) : Bool :=
  Nat.ble 65 c.toNat && Nat.ble c.toNat 90 || Nat.ble 97 c.toNat && Nat.ble c.toNat 122 ||
    c == 0x5F

/-- Any other of them. -/
def isIdChar (c : UInt8) : Bool := isIdStart c || isDigitOf 10 c || c == 0x2E

/-- `string`, behind its first quote: what is in it, and the text behind it. -/
def scanString : Text → Option (Text × Text)
  | [] => none
  | 0x22 :: text => some ([], text)
  | 0x5C :: c :: text =>
      if c = 0x0A then none else (scanString text).map fun r => (0x5C :: c :: r.1, r.2)
  | 0x5C :: [] => none
  | c :: text => (scanString text).map fun r => (c :: r.1, r.2)

/-- A number as a `long long`. -/
def toLongLong (negative : Bool) (n : ℕ) : ℤ :=
  if negative then -(min n 9223372036854775808 : ℕ) else (min n 9223372036854775807 : ℕ)

/-- The `double` next to a number. -/
def toDouble (x : ℚ) : ℚ :=
  if x = 0 then 0
  else
    let ulp : ℚ := 2 ^ (Int.log 2 |x| - 52)
    roundEven (x / ulp) * ulp

/-- `hexadecimal`: a `long`. -/
def scanHexadecimal : Text → Option (Token × Text)
  | 0x30 :: 0x78 :: text =>
      let digits := text.takeWhile (isDigitOf 16)
      if digits = [] then none
      else
        some (.intVal (min (value 16 (digits.map fun c => (Canlog.digitOf c).getD 0)) 2147483647),
          text.dropWhile (isDigitOf 16))
  | _ => none

/-- A point and the digits behind it, if there are any. -/
def scanFraction : Text → Text × Text
  | [] => ([], [])
  | c :: text =>
      let digits := text.takeWhile (isDigitOf 10)
      if c = 0x2E ∧ digits ≠ [] then (digits, text.dropWhile (isDigitOf 10)) else ([], c :: text)

/-- `decimal` and `floatingpoint`. -/
def scanDecimal (text : Text) : Option (Token × Text) :=
  let signed := readSign text
  let digits := signed.2.takeWhile (isDigitOf 10)
  let behind := signed.2.dropWhile (isDigitOf 10)
  let fraction := scanFraction behind
  let exponent := scanExponent fraction.2
  if digits = [] then none
  else if exponent.2 = behind then
    some (.intVal (toLongLong signed.1 (digitsValue digits)), behind)
  else
    let size : ℚ :=
      digitsValue (digits ++ fraction.1) * 10 ^ (exponent.1 - fraction.1.length)
    some (.doubleVal (toDouble (if signed.1 then -size else size)), exponent.2)

/-- A rule applied: its token, if it has one, and the text behind it. -/
def next (c : UInt8) (text : Text) : Option Token × Text :=
  if c = 0x2F ∧ text.head? = some 0x2F then (none, text.dropWhile (· ≠ 0x0A))
  else if isBlank c then (none, text)
  else if isIdStart c then
    (some (word (c :: text.takeWhile isIdChar)), text.dropWhile isIdChar)
  else
    match if c = 0x22 then scanString text else none with
    | some (string, behind) => (some (.stringVal string), behind)
    | none =>
        match (scanHexadecimal (c :: text)).or (scanDecimal (c :: text)) with
        | some (token, behind) => (some token, behind)
        | none => (some (mark c), text)

/-- The tokens of a text. No rule takes less than a character. -/
def scan : ℕ → Text → List Token
  | 0, _ => []
  | _, [] => []
  | n + 1, c :: text => (next c text).1.toList ++ scan n (next c text).2

/-- `yylex`, until the end. -/
def yylex (text : Text) : List Token := scan text.length text

/-! ### The rest of a text -/

variable {c : UInt8} {text rest string : Text} {token : Token}

/-- A text that starts with no character of a word or a number. -/
def Apart (rest : Text) : Prop := ∀ c ∈ rest.head?, isIdChar c = false

theorem Apart.head (h : Apart rest) (hc : c ∈ rest.head?) :
    isIdStart c = false ∧ isDigitOf 10 c = false ∧ c ≠ 0x2E := by
  have hchar := h c hc
  rw [isIdChar, Bool.or_eq_false_iff, Bool.or_eq_false_iff, beq_eq_false_iff_ne] at hchar
  exact ⟨hchar.1.1, hchar.1.2, hchar.2⟩

theorem Apart.stops (h : Apart rest) : Location.Stops rest := fun _ hc => (h.head hc).2.1

/-! ### What is read as a token -/

/-- The marks that no number starts with. -/
def marks : Text := [0x3A, 0x3B, 0x7C, 0x2C, 0x40, 0x5B, 0x5D, 0x28, 0x29]

/-- A word: an identifier, or a keyword. -/
def isWord : Text → Bool
  | [] => false
  | c :: cs => isIdStart c && cs.all isIdChar

/-- The tokens of a text of words, marks and blanks, if it does not end within a word. -/
def literal : ℕ → Text → Option (List Token)
  | _, [] => some []
  | 0, _ :: _ => none
  | n + 1, c :: text =>
      if isBlank c then literal n text
      else if c ∈ marks then (literal n text).map (mark c :: ·)
      else if isIdStart c ∧ text.dropWhile isIdChar ≠ [] then
        (literal n (text.dropWhile isIdChar)).map (word (c :: text.takeWhile isIdChar) :: ·)
      else none

/-- A string that a quote ends, wherever it stands. -/
def Quotable (string : Text) : Prop :=
  ∀ rest, scanString (string ++ 0x22 :: rest) = some (string, rest)

/-- An identifier. -/
def IsId (w : Text) : Prop := isWord w = true ∧ word w = .id w

/-- The text of a token is as its rule says. -/
def Token.Valid : Token → Prop
  | .id w => IsId w
  | .stringVal string => Quotable string
  | _ => True

section Numbers

variable {negative : Bool} {sign digits behind : Text}

theorem readSign_append (hsign : Location.IsSign negative sign) (hc : isDigitOf 10 c = true)
    (body : Text) : readSign (sign ++ c :: body) = (negative, c :: body) := by
  rcases hsign with ⟨rfl, rfl | rfl⟩ | ⟨rfl, rfl⟩
  · exact Canlog.readSign_of_isDigitOf hc body
  · rfl
  · rfl

theorem Apart.scanFraction (h : Apart rest) : scanFraction rest = ([], rest) := by
  cases rest with
  | nil => rfl
  | cons c rest => exact if_neg (not_and_of_not_left _ (h.head rfl).2.2)

theorem Apart.scanExponent (h : Apart rest) : scanExponent rest = (0, rest) := by
  cases rest with
  | nil => rfl
  | cons c rest =>
      have hid := (h.head rfl).1
      refine if_neg (not_and_of_not_left _ ?_)
      rintro (rfl | rfl) <;> exact absurd hid (by decide)

theorem Apart.notMem_head (h : Apart rest) : 0x78 ∉ rest.head? := fun hc =>
  absurd (h.head hc).1 (by decide)

end Numbers

end Ovms.Dbc.File
