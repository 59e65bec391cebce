import Ovms.Dbc.WriteFile
import Ovms.Lib.Bytes
import Ovms.Lib.Maps
import Ovms.Lib.Sections

/-!
# What Is Read Back

The sections that a file is written as, read by the parser. Each is read as one section of the
grammar whatever sections follow it, and changes the database that the file stands for; comments
and the sources of switches are not read at all.
-/

open Lib
open Std
open Ovms.ServerV2 (ascii)

namespace Ovms.Dbc.File

/-! ### Databases -/

/-- What a file stands for. -/
structure Database where
  version : Text
  nodes : ExtTreeMap Text (List Text)
  values : ExtTreeMap Text ValueTable
  messages : ExtTreeMap UInt32 (Message Shown)
  comments : List Text

/-- A database without content. -/
def Database.empty : Database := ⟨[], ∅, ∅, ∅, []⟩

/-- The database of a file. -/
def DbcFile.database (file : DbcFile) : Database :=
  ⟨file.version, file.nodes, file.values, file.messages.map fun _ m => file.message m,
    file.comments⟩

/-- Each message has signals of its own, and no signal has a source. -/
structure DbcFile.Owned (file : DbcFile) : Prop where
  lt : ∀ (id : UInt32) (m : Message ℕ), file.messages[id]? = some m →
    ∀ p ∈ m.signals, p < file.heap.length
  nodup : ∀ (id : UInt32) (m : Message ℕ), file.messages[id]? = some m → m.signals.Nodup
  apart : ∀ (id id' : UInt32) (m m' : Message ℕ) (p : ℕ), file.messages[id]? = some m →
    file.messages[id']? = some m' → p ∈ m.signals → p ∈ m'.signals → id = id'
  source : ∀ s ∈ file.heap, s.mux.source = none

/-- A parser whose file stands for a database. -/
structure Holds (db : Database) (π : Parser) : Prop where
  owned : π.file.Owned
  database : π.file.database = db

/-- The same, and the parser is at no signal. -/
def Idle (db : Database) (π : Parser) : Prop := Holds db π ∧ π.currentSignal = none

/-- A section starts with a keyword. -/
def Opens (t : Token) : Prop := ∃ k, t = .keyword k

variable {π π' : Parser} {a rest : List Token} {db : Database}

/-- The entries of a table, as they are read. -/
def readEntries (values : ValueTable) : List (ℤ × Text) :=
  values.toList.map fun entry => (entry.1.toInt32.toInt, entry.2)

/-- What a `SG_` line says of a signal. -/
def Signal.line (s : Signal) : SignalLine :=
  ⟨tagOf s.mux, s.startBit.toInt, s.signalSize.toInt, if s.byteOrder = .bigEndian then 0 else 1,
    s.valueType, toDouble (sixDigits s.factor), toDouble (sixDigits s.offset),
    toDouble (sixDigits s.minimum), toDouble (sixDigits s.maximum), s.unit, s.receivers⟩

/-- A file without sources shows its signals as they are. -/
theorem DbcFile.Owned.show {file : DbcFile} (h : file.Owned) (p : ℕ) :
    file.show p = ⟨file.signal p, none⟩ := by
  have hsource : (file.signal p).mux.source = none := by
    rw [DbcFile.signal]
    cases hp : file.heap[p]? with
    | none => rw [List.getD_eq_getElem?_getD, hp]; rfl
    | some s =>
        rw [List.getD_eq_getElem?_getD, hp]
        exact h.source s (List.mem_of_getElem? hp)
  rw [DbcFile.show, hsource]
  refine congrArg (Shown.mk · none) ?_
  rw [← hsource]

theorem DbcFile.Owned.message {file : DbcFile} (h : file.Owned) (m : Message ℕ) :
    file.message m = ⟨m.name, m.size, m.transmitterNode, m.comments,
      m.signals.map fun p => ⟨file.signal p, none⟩⟩ := by
  rw [DbcFile.message, funext h.show]

/-- A file with one more signal, behind those of a message. -/
def DbcFile.concat (file : DbcFile) (id : UInt32) (m : Message ℕ) (s : Signal) : DbcFile :=
  { file with
    heap := file.heap ++ [s]
    messages := file.messages.insert id { m with signals := m.signals ++ [file.heap.length] } }

theorem getElem?_insert_cases {messages : ExtTreeMap UInt32 (Message ℕ)} {id k : UInt32}
    {m m' : Message ℕ} (h : (messages.insert id m)[k]? = some m') :
    k = id ∧ m' = m ∨ k ≠ id ∧ messages[k]? = some m' := by
  rw [ExtTreeMap.getElem?_insert] at h
  split at h
  next heq => exact .inl ⟨(LawfulEqCmp.compare_eq_iff_eq.mp heq).symm, (Option.some.inj h).symm⟩
  next hne => exact .inr ⟨fun heq => hne (heq ▸ ReflCmp.compare_self), h⟩

section Concat

variable {file : DbcFile} {id : UInt32} {m : Message ℕ} {s : Signal}

theorem DbcFile.Owned.concat (h : file.Owned) (hm : file.messages[id]? = some m)
    (hs : s.mux.source = none) : (file.concat id m s).Owned := by
  have hlength : (file.concat id m s).heap.length = file.heap.length + 1 := List.length_append
  refine ⟨fun k m' hm' p hp => ?_, fun k m' hm' => ?_, fun k k' m₁ m₂ p h₁ h₂ hp₁ hp₂ => ?_,
    fun t ht => ?_⟩
  · rw [hlength]
    rcases getElem?_insert_cases hm' with ⟨rfl, rfl⟩ | ⟨-, hm'⟩
    · rcases List.mem_append.mp hp with hp | hp
      · exact Nat.lt_succ_of_lt (h.lt k m hm p hp)
      · exact List.mem_singleton.mp hp ▸ Nat.lt_succ_self _
    · exact Nat.lt_succ_of_lt (h.lt k m' hm' p hp)
  · rcases getElem?_insert_cases hm' with ⟨rfl, rfl⟩ | ⟨-, hm'⟩
    · refine List.nodup_append.mpr ⟨h.nodup k m hm, List.nodup_singleton _, fun p hp q hq => ?_⟩
      rw [List.mem_singleton.mp hq]
      exact Nat.ne_of_lt (h.lt k m hm p hp)
    · exact h.nodup k m' hm'
  · -- the new address is in the message only
    have hold : ∀ (k : UInt32) (m' : Message ℕ), k ≠ id → file.messages[k]? = some m' →
        ∀ p ∈ m'.signals, p ∉ m.signals ++ [file.heap.length] := by
      intro k m' hk hm' p hp hmem
      rcases List.mem_append.mp hmem with hmem | hmem
      · exact hk (h.apart k id m' m p hm' hm hp hmem)
      · exact Nat.ne_of_lt (h.lt k m' hm' p hp) (List.mem_singleton.mp hmem)
    rcases getElem?_insert_cases h₁ with ⟨hk, hm₁⟩ | ⟨hk, hm₁⟩
    · rcases getElem?_insert_cases h₂ with ⟨hk', -⟩ | ⟨hk', hm₂⟩
      · exact hk.trans hk'.symm
      · rw [hm₁] at hp₁
        exact absurd hp₁ (hold k' m₂ hk' hm₂ p hp₂)
    · rcases getElem?_insert_cases h₂ with ⟨-, hm₂⟩ | ⟨-, hm₂⟩
      · rw [hm₂] at hp₂
        exact absurd hp₂ (hold k m₁ hk hm₁ p hp₁)
      · exact h.apart k k' m₁ m₂ p hm₁ hm₂ hp₁ hp₂
  · rcases List.mem_append.mp ht with ht | ht
    · exact h.source t ht
    · exact List.mem_singleton.mp ht ▸ hs

end Concat

/-! ### Messages -/

/-- The parser is at a message. -/
def At (id : UInt32) (db : Database) (π : Parser) : Prop :=
  Idle db π ∧ π.currentMessage = some id

/-- A message with one more signal. -/
def Message.concat (m : Message Shown) (s : Signal) : Message Shown :=
  { m with signals := m.signals ++ [⟨s, none⟩] }

/-- A file with a message that has no signals yet. -/
theorem DbcFile.Owned.insert {file : DbcFile} (h : file.Owned) (id : UInt32) {m : Message ℕ}
    (hm : m.signals = []) : DbcFile.Owned { file with messages := file.messages.insert id m } := by
  have hnone : ∀ p, p ∉ m.signals := fun p => hm ▸ List.not_mem_nil
  refine ⟨fun k m' hm' p hp => ?_, fun k m' hm' => ?_, fun k k' m₁ m₂ p h₁ h₂ hp₁ hp₂ => ?_,
    h.source⟩
  · rcases getElem?_insert_cases hm' with ⟨-, rfl⟩ | ⟨-, hm'⟩
    · exact absurd hp (hnone p)
    · exact h.lt k m' hm' p hp
  · rcases getElem?_insert_cases hm' with ⟨-, rfl⟩ | ⟨-, hm'⟩
    · exact hm ▸ List.nodup_nil
    · exact h.nodup k m' hm'
  · rcases getElem?_insert_cases h₁ with ⟨-, rfl⟩ | ⟨-, h₁⟩
    · exact absurd hp₁ (hnone p)
    · rcases getElem?_insert_cases h₂ with ⟨-, rfl⟩ | ⟨-, h₂⟩
      · exact absurd hp₂ (hnone p)
      · exact h.apart k k' m₁ m₂ p h₁ h₂ hp₁ hp₂

section Modify

variable {file : DbcFile} {id : UInt32} {m : Message ℕ} {p : ℕ} {f : Signal → Signal}

theorem DbcFile.Owned.modifySignal (h : file.Owned) (hf : ∀ s, (f s).mux = s.mux) :
    (file.modifySignal p f).Owned := by
  have hlength : (file.heap.modify p f).length = file.heap.length := List.length_modify ..
  have hheap : ∀ s ∈ file.heap.modify p f, s.mux.source = none := by
    intro s hs
    obtain ⟨i, hi, rfl⟩ := List.mem_iff_getElem.mp hs
    rw [List.getElem_modify]
    split
    · rw [hf]
      exact h.source _ (List.getElem_mem _)
    · exact h.source _ (List.getElem_mem _)
  exact ⟨fun k m hm q hq => hlength.symm ▸ h.lt k m hm q hq, h.nodup, h.apart, hheap⟩

end Modify

/-- The names of the signals of a message. -/
def Message.names (m : Message Shown) : List Text := m.signals.map fun s => s.signal.name

end Ovms.Dbc.File
