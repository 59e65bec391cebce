import Mathlib.Data.List.Forall2

/-!
# CSV Rows

`readCSVRow` (`main/ovms_utils.cpp`) takes a row of comma separated fields apart, in one pass
with three states. A field may be enclosed in quotes; a quote in it is doubled then.
-/

namespace Ovms.Utils

/-- `CSVState`. -/
inductive CSVState
  | unquotedField | quotedField | quotedQuote
  deriving DecidableEq, Repr

/-- A comma. -/
abbrev comma : UInt8 := 0x2C

/-- A quote. -/
abbrev quote : UInt8 := 0x22

/-- The variables of `readCSVRow`. -/
structure CSVReader where
  state : CSVState
  fields : List (List UInt8)
  /-- `i`, the index of the current field -/
  index : ℕ
  deriving DecidableEq, Repr

namespace CSVReader

/-- Before the first character. -/
def init : CSVReader := ⟨.unquotedField, [[]], 0⟩

/-- `fields[i].push_back(c)`. -/
def pushBack (r : CSVReader) (c : UInt8) : CSVReader :=
  { r with fields := r.fields.modify r.index (· ++ [c]) }

/-- The end of a field. -/
def nextField (r : CSVReader) : CSVReader :=
  { r with fields := r.fields ++ [[]], index := r.index + 1 }

/-- One character. -/
def step (r : CSVReader) (c : UInt8) : CSVReader :=
  match r.state with
  | .unquotedField =>
      if c = comma then r.nextField
      else if c = quote then { r with state := .quotedField }
      else r.pushBack c
  | .quotedField => if c = quote then { r with state := .quotedQuote } else r.pushBack c
  | .quotedQuote =>
      if c = comma then { r.nextField with state := .unquotedField }
      else if c = quote then { r.pushBack quote with state := .quotedField }
      else { r with state := .unquotedField }

end CSVReader

/-- `readCSVRow`. -/
def readCSVRow (row : List UInt8) : List (List UInt8) := (row.foldl CSVReader.step .init).fields

/-! ### Texts of fields -/

/-- The quotes of a field doubled. -/
def escape (field : List UInt8) : List UInt8 :=
  field.flatMap fun c => if c = quote then [quote, quote] else [c]

/-- A field and a text for it: as it is, where it has no comma and no quote, or in quotes. -/
inductive Quotes : List UInt8 → List UInt8 → Prop
  | plain {field : List UInt8} (hcomma : comma ∉ field) (hquote : quote ∉ field) :
      Quotes field field
  | quoted (field : List UInt8) : Quotes field (quote :: escape field ++ [quote])

namespace CSVReader

/-- The reader in a state, at a field behind some others. -/
def reading (state : CSVState) (done : List (List UInt8)) (field : List UInt8) : CSVReader :=
  ⟨state, done ++ [field], done.length⟩

variable {state : CSVState} {done : List (List UInt8)} {field : List UInt8}

theorem modify_concat (f : List UInt8 → List UInt8) :
    (done ++ [field]).modify done.length f = done ++ [f field] := by
  induction done with
  | nil => rfl
  | cons x done ih =>
      rw [List.cons_append, List.length_cons, List.modify_succ_cons, ih]
      rfl

theorem pushBack_reading (c : UInt8) :
    (reading state done field).pushBack c = reading state done (field ++ [c]) := by
  rw [reading, pushBack, modify_concat]
  rfl

theorem nextField_reading :
    (reading state done field).nextField = reading state (done ++ [field]) [] := by
  simp [reading, nextField]

/-- A field without commas and quotes. -/
theorem read_plain {text : List UInt8} (hcomma : comma ∉ text) (hquote : quote ∉ text) :
    text.foldl step (reading .unquotedField done field) =
      reading .unquotedField done (field ++ text) := by
  induction text generalizing field with
  | nil => rw [List.append_nil, List.foldl_nil]
  | cons c text ih =>
      have hstep : step (reading .unquotedField done field) c =
          reading .unquotedField done (field ++ [c]) := by
        rw [← pushBack_reading, step]
        dsimp only [reading]
        rw [if_neg (List.ne_of_not_mem_cons hcomma).symm,
          if_neg (List.ne_of_not_mem_cons hquote).symm]
      rw [List.foldl_cons, hstep, ih (List.not_mem_of_not_mem_cons hcomma)
        (List.not_mem_of_not_mem_cons hquote), List.append_assoc, List.singleton_append]

/-- A field with its quotes doubled. -/
theorem read_escape (text : List UInt8) :
    (escape text).foldl step (reading .quotedField done field) =
      reading .quotedField done (field ++ text) := by
  induction text generalizing field with
  | nil => rw [List.append_nil, escape, List.flatMap_nil, List.foldl_nil]
  | cons c text ih =>
      -- one quote leads out, the second one back in
      have hstep : (if c = quote then [quote, quote] else [c]).foldl step
          (reading .quotedField done field) = reading .quotedField done (field ++ [c]) := by
        split
        next hc =>
          rw [hc, ← pushBack_reading]
          rfl
        next hc =>
          rw [← pushBack_reading, List.foldl_cons, List.foldl_nil, step]
          dsimp only [reading]
          rw [if_neg hc]
      rw [escape, List.flatMap_cons, List.foldl_append, hstep, ← escape, ih, List.append_assoc,
        List.singleton_append]

/-- **A text of a field** is read to the field, and then a comma ends it. -/
theorem read_field {text : List UInt8} (h : Quotes field text) :
    ∃ state, text.foldl step (reading .unquotedField done []) = reading state done field ∧
      step (reading state done field) comma = reading .unquotedField (done ++ [field]) [] := by
  cases h with
  | plain hcomma hquote =>
      refine ⟨.unquotedField, read_plain hcomma hquote, ?_⟩
      rw [← nextField_reading]
      rfl
  | quoted =>
      refine ⟨.quotedQuote, ?_, ?_⟩
      · rw [List.cons_append, List.foldl_cons, List.foldl_append]
        change [quote].foldl step ((escape field).foldl step (reading .quotedField done [])) = _
        rw [read_escape]
        rfl
      · change { (reading .quotedQuote done field).nextField with state := .unquotedField } = _
        rw [nextField_reading]
        rfl

end CSVReader

/-- A row after some fields. -/
theorem read_row {fields texts : List (List UInt8)} (h : List.Forall₂ Quotes fields texts)
    (hne : fields ≠ []) (done : List (List UInt8)) :
    (([comma].intercalate texts).foldl CSVReader.step (.reading .unquotedField done [])).fields =
      done ++ fields := by
  induction h generalizing done with
  | nil => exact absurd rfl hne
  | @cons field text fields texts hfield hrest ih =>
      obtain ⟨state, hread, hcomma⟩ := @CSVReader.read_field done _ _ hfield
      cases hrest with
      | nil =>
          rw [List.intercalate_singleton, hread]
          rfl
      | cons hfield' hrest' =>
          rw [List.intercalate_cons_cons, List.foldl_append, List.foldl_append, hread,
            List.foldl_cons, List.foldl_nil, hcomma, ih (List.cons_ne_nil _ _), List.append_assoc,
            List.singleton_append]

/-- **A row of fields is read back**, each written as it is or in quotes. -/
theorem readCSVRow_intercalate {fields texts : List (List UInt8)}
    (h : List.Forall₂ Quotes fields texts) (hne : fields ≠ []) :
    readCSVRow ([comma].intercalate texts) = fields :=
  read_row h hne []

/-- A field with a comma and a quote between two plain ones, one of them empty. -/
theorem readCSVRow_intercalate_quoted :
    readCSVRow ([comma].intercalate [[0x61], quote :: escape [comma, quote] ++ [quote], []]) =
      [[0x61], [comma, quote], []] :=
  readCSVRow_intercalate
    (.cons (.plain (by decide) (by decide)) (.cons (.quoted _)
      (.cons (.plain (by decide) (by decide)) .nil))) (by decide)

end Ovms.Utils
