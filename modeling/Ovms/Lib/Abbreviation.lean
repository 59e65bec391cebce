import Mathlib.Data.List.Infix

/-!
# Abbreviations

Entries in the order of their keys, where a key is a list of letters. A word stands for the entry
of that key, and for an entry whose key starts with it, if no other one does. The search goes
through the entries once: the key itself ends it, and so does a second candidate. It relies on
the order, for a key comes before the longer ones that start with it.
-/

namespace Lib

/-- A key does not come behind one that starts with it. -/
theorem compare_ne_lt_of_isPrefix {α : Type*} [Ord α] [Std.ReflOrd α] :
    ∀ {word key : List α}, word <+: key → compare key word ≠ .lt
  | [], [], _ => by simp
  | [], _ :: _, _ => by simp [List.compare_cons_nil]
  | a :: word, [], h => by simp at h
  | a :: word, b :: key, h => by
      obtain ⟨rfl, hrest⟩ := List.cons_prefix_cons.mp h
      rw [List.compare_cons_cons, Std.ReflOrd.compare_self]
      simpa using compare_ne_lt_of_isPrefix hrest

variable {α β : Type*} [BEq α]

/-- The search, with the candidate so far. -/
def findAbbreviated (word : List α) : List (List α × β) → Option β → Option β
  | [], found => found
  | entry :: rest, found =>
      if word.isPrefixOf entry.1 then
        if word.length = entry.1.length then some entry.2
        else if found.isSome then none
        else findAbbreviated word rest (some entry.2)
      else findAbbreviated word rest found

/-- A word stands for an entry: it is its key, or the start of its key and of no other one. -/
def Abbreviates {α β : Type*} (word : List α) (entries : List (List α × β))
    (entry : List α × β) : Prop :=
  entry ∈ entries ∧ word <+: entry.1 ∧
    (entry.1 = word ∨ ∀ other ∈ entries, word <+: other.1 → other = entry)

/-- An entry whose key does not start with the word changes nothing. -/
theorem abbreviates_cons {α β : Type*} {word : List α} {first : List α × β}
    (hfirst : ¬ word <+: first.1) (rest : List (List α × β)) (entry : List α × β) :
    Abbreviates word (first :: rest) entry ↔ Abbreviates word rest entry := by
  constructor
  · rintro ⟨hmem, hstart, honly⟩
    refine ⟨(List.mem_cons.mp hmem).resolve_left ?_, hstart, honly.imp_right ?_⟩
    · rintro rfl
      exact hfirst hstart
    · exact fun h other hother => h other (List.mem_cons_of_mem _ hother)
  · rintro ⟨hmem, hstart, honly⟩
    refine ⟨List.mem_cons_of_mem _ hmem, hstart, honly.imp_right fun h other hother hother' => ?_⟩
    rcases List.mem_cons.mp hother with rfl | hother
    · exact absurd hother' hfirst
    · exact h other hother hother'

variable [LawfulBEq α] {word : List α} {entries : List (List α × β)}

/-- Behind a candidate the search fails at the next one, if the word itself does not come. -/
theorem findAbbreviated_some (h : ∀ entry ∈ entries, entry.1 ≠ word) {value found : β} :
    findAbbreviated word entries (some value) = some found ↔
      value = found ∧ ∀ entry ∈ entries, ¬ word <+: entry.1 := by
  induction entries with
  | nil => simp [findAbbreviated]
  | cons entry rest ih =>
      have hrest := ih fun other hother => h other (List.mem_cons_of_mem _ hother)
      by_cases hentry : word <+: entry.1
      · have hlength : word.length ≠ entry.1.length := fun hlength =>
          h entry List.mem_cons_self (hentry.eq_of_length hlength).symm
        rw [findAbbreviated, if_pos (List.isPrefixOf_iff_prefix.mpr hentry), if_neg hlength]
        simp [hentry]
      · rw [findAbbreviated, if_neg (mt List.isPrefixOf_iff_prefix.mp hentry), hrest]
        simp [hentry]

variable [Ord α] [Std.ReflOrd α]

/-- **The search** finds what the word stands for, and nothing else. -/
theorem findAbbreviated_eq_some {value : β}
    (hordered : entries.Pairwise fun a b => compare a.1 b.1 = .lt) :
    findAbbreviated word entries none = some value ↔
      ∃ key, Abbreviates word entries (key, value) := by
  induction entries with
  | nil => simp [findAbbreviated, Abbreviates]
  | cons first rest ih =>
      obtain ⟨hfirst, hrest⟩ := List.pairwise_cons.mp hordered
      have hdistinct : ∀ other ∈ rest, other.1 ≠ first.1 := by
        intro other hother hkey
        have hlt := hfirst other hother
        rw [hkey, Std.ReflOrd.compare_self] at hlt
        cases hlt
      by_cases hstart : word <+: first.1
      swap
      · simp only [abbreviates_cons hstart]
        rw [findAbbreviated, if_neg (mt List.isPrefixOf_iff_prefix.mp hstart), ih hrest]
      rw [findAbbreviated, if_pos (List.isPrefixOf_iff_prefix.mpr hstart)]
      by_cases hkey : first.1 = word
      · -- the word itself
        rw [if_pos (by rw [hkey]), Option.some_inj]
        constructor
        · rintro rfl
          exact ⟨first.1, List.mem_cons_self, hstart, .inl hkey⟩
        · rintro ⟨key, hmem, -, hword | honly⟩
          · rcases List.mem_cons.mp hmem with rfl | hmem
            · rfl
            · exact absurd (hword.trans hkey.symm) (hdistinct _ hmem)
          · rw [honly first List.mem_cons_self hstart]
      · -- a candidate, and the word does not come behind it
        have hlater : ∀ other ∈ rest, other.1 ≠ word := by
          rintro other hother rfl
          exact compare_ne_lt_of_isPrefix hstart (hfirst other hother)
        rw [if_neg fun hlength => hkey (hstart.eq_of_length hlength).symm, if_neg (by simp),
          findAbbreviated_some hlater]
        constructor
        · rintro ⟨rfl, hnone⟩
          refine ⟨first.1, List.mem_cons_self, hstart, .inr fun other hother hother' => ?_⟩
          rcases List.mem_cons.mp hother with rfl | hother
          · rfl
          · exact absurd hother' (hnone other hother)
        · rintro ⟨key, hmem, -, hword | honly⟩
          · rcases List.mem_cons.mp hmem with rfl | hmem
            · exact absurd hword hkey
            · exact absurd hword (hlater _ hmem)
          · obtain rfl := honly first List.mem_cons_self hstart
            refine ⟨rfl, fun other hother hother' => hdistinct other hother ?_⟩
            rw [honly other (List.mem_cons_of_mem _ hother) hother']

end Lib
