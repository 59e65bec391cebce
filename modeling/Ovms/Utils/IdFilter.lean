import Ovms.Lib.Glob
import Ovms.Metrics.Bitset

/-!
# Filters of Names

`IdFilter` (`components/id_filter/src/id_filter.cpp`) takes a comma separated list of items, each
with a wildcard at its start or its end, and tells of a name whether it matches one of them. The
items are kept without their wildcards, sorted by the way they are compared; a list is not loaded
if its hash is the one of the list in force.

An item with a wildcard at both ends is taken for one with a wildcard at its start, and keeps the
other as a character. `std::hash` is a parameter.
-/

open Lib Ovms.Canlog

namespace Ovms.Utils

open Metrics.Bitset (getlines)

/-- A text. -/
abbrev Text := List UInt8

/-- The wildcard. -/
def star : UInt8 := 0x2A

/-- What stands between items. -/
def separator : UInt8 := 0x2C

/-! ### The code -/

/-- `trim`: blanks are removed from the end, then from the start. -/
def trim (s : Text) : Text := (s.rdropWhile isSpace).dropWhile isSpace

/-- `startsWith`. -/
def startsWith (haystack needle : Text) : Bool :=
  needle.length ≤ haystack.length && needle == haystack.take needle.length

/-- `endsWith`. -/
def endsWith (haystack needle : Text) : Bool :=
  needle.length ≤ haystack.length && needle == haystack.drop (haystack.length - needle.length)

/-- The ways to compare. -/
inductive Operator
  | startsWith
  | endsWith
  | equals
  deriving DecidableEq

/-- A name is compared with an entry. -/
def Operator.compare (value entry : Text) : Operator → Bool
  | .startsWith => Utils.startsWith value entry
  | .endsWith => Utils.endsWith value entry
  | .equals => value == entry

/-- `IdFilter`. -/
structure IdFilter where
  entries : Operator → List Text
  entryCount : ℕ
  entryHash : UInt32

namespace IdFilter

/-- A new filter. -/
def new : IdFilter := ⟨fun _ => [], 0, 0⟩

/-- `item.find('*', 1)`. -/
def wildcardPosition (item : Text) : Option ℕ := ((item.drop 1).idxOf? star).map (· + 1)

/-- How an item that has been trimmed is compared, and what is left of it. -/
def classify (item : Text) : Option (Operator × Text) :=
  if item = [] then none
  else if (wildcardPosition item).any (· ≠ item.length - 1) then none
  else if item.head? = some star then some (.endsWith, item.drop 1)
  else if item.getLast? = some star then some (.startsWith, item.dropLast)
  else some (.equals, item)

/-- One item of a list. -/
def loadItem (f : IdFilter) (item : Text) : IdFilter :=
  match classify (trim item) with
  | none => f
  | some (op, entry) =>
      { f with
        entries := Function.update f.entries op (f.entries op ++ [entry])
        entryCount := f.entryCount + 1 }

/-- `LoadFilters`, with whether the filter has changed. -/
def loadFilters (hash : Text → UInt32) (f : IdFilter) (value : Text) : IdFilter × Bool :=
  if hash value = f.entryHash then (f, false)
  else ((getlines value).foldl loadItem ⟨fun _ => [], 0, hash value⟩, true)

/-- `CheckFilter`. -/
def checkFilter (f : IdFilter) (value : Text) : Bool :=
  if f.entryCount = 0 then false
  else [Operator.startsWith, .endsWith, .equals].any fun op =>
    (f.entries op).any (op.compare value)

end IdFilter

/-! ### What a list says -/

/-- The items of a list: trimmed, without the empty ones. -/
def items (text : Text) : List Text := ((text.splitOn separator).map trim).filter (· ≠ [])

/-- The list has an item that matches the name, with no wildcard but in first and last place. -/
def Means (text value : Text) : Prop :=
  ∃ item ∈ items text, Outer star item ∧ Glob star item value

/-- An item has wildcards in first and in last place, which are two. -/
def Enclosed (item : Text) : Prop := ∃ x, star ∉ x ∧ item = star :: (x ++ [star])

/-- The list has no item with two wildcards, or has the wildcard as an item. -/
def Plain (text : Text) : Prop := (∃ item ∈ items text, Enclosed item) → [star] ∈ items text

/-- The list that has been loaded, with its hash: a list with that hash is not. -/
def loaded (hash : Text → UInt32) (texts : List Text) : Text × UInt32 :=
  texts.foldl (fun u text => if hash text = u.2 then u else (text, hash text)) ([], 0)

/-- The list in force after several have been loaded. -/
def inForce (hash : Text → UInt32) (texts : List Text) : Text := (loaded hash texts).1

/-- After the lists have been loaded, a name is let through exactly when it matches the last. -/
def MeansWhatItSays (hash : Text → UInt32) (texts : List Text) : Prop :=
  ∀ value, (texts.foldl (fun f text => (f.loadFilters hash text).1) IdFilter.new).checkFilter value
    = true ↔ Means (texts.getLastD []) value

/-! ### Items -/

theorem startsWith_iff {haystack needle : Text} :
    startsWith haystack needle = true ↔ needle <+: haystack := by
  rw [startsWith, Bool.and_eq_true, decide_eq_true_iff, beq_iff_eq, List.prefix_iff_eq_take]
  exact ⟨And.right, fun h => ⟨(List.prefix_iff_eq_take.mpr h).length_le, h⟩⟩

theorem endsWith_iff {haystack needle : Text} :
    endsWith haystack needle = true ↔ needle <:+ haystack := by
  rw [endsWith, Bool.and_eq_true, decide_eq_true_iff, beq_iff_eq, List.suffix_iff_eq_drop]
  exact ⟨And.right, fun h => ⟨(List.suffix_iff_eq_drop.mpr h).length_le, h⟩⟩

theorem mem_of_mem_trim {s : Text} {c : UInt8} (h : c ∈ trim s) : c ∈ s :=
  (List.rdropWhile_prefix isSpace s).subset (List.dropWhile_sublist isSpace |>.subset h)

/-- No part of a text that is split has what it was split at. -/
theorem not_mem_of_mem_splitOn {a : UInt8} {text part : Text} (h : part ∈ text.splitOn a) :
    a ∉ part := by
  rw [List.splitOn_eq_splitOnP] at h
  induction text generalizing part with
  | nil =>
      obtain rfl := List.mem_singleton.mp h
      exact List.not_mem_nil
  | cons b text ih =>
      rw [List.splitOnP_cons_eq_if_modifyHead] at h
      split at h
      · rcases List.mem_cons.mp h with rfl | h
        · exact List.not_mem_nil
        · exact ih h
      · next hb =>
        obtain ⟨first, rest, hparts⟩ :=
          List.exists_cons_of_ne_nil (List.splitOnP_ne_nil (· == a) text)
        rw [hparts, List.modifyHead_cons] at h
        rw [hparts] at ih
        rcases List.mem_cons.mp h with rfl | h
        · rw [List.mem_cons, not_or]
          refine ⟨fun heq => hb ?_, ih List.mem_cons_self⟩
          rw [heq, beq_self_eq_true]
        · exact ih (List.mem_cons_of_mem first h)

theorem separator_not_mem {text item : Text} (h : item ∈ items text) : separator ∉ item := by
  obtain ⟨part, hpart, rfl⟩ := List.mem_map.mp (List.mem_filter.mp h).1
  exact fun hmem => not_mem_of_mem_splitOn hpart (mem_of_mem_trim hmem)

theorem ne_nil_of_mem_items {text item : Text} (h : item ∈ items text) : item ≠ [] :=
  of_decide_eq_true (List.mem_filter.mp h).2

section Classify

open IdFilter

variable {c : UInt8} {rest front back : Text}

/-- Where the first wildcard behind the first place is. -/
theorem wildcardPosition_cons (hfront : star ∉ front) :
    wildcardPosition (c :: (front ++ star :: back)) = some (front.length + 1) := by
  have hidx : (front ++ star :: back).idxOf? star = some front.length := by
    rw [List.idxOf?_eq_some_iff]
    refine ⟨?_, ?_, fun j hj => ?_⟩
    · rw [List.length_append, List.length_cons]
      omega
    · rw [List.getElem_append_right (Nat.le_refl _)]
      simp
    · rw [List.getElem_append_left hj]
      exact fun heq => hfront (heq ▸ List.getElem_mem hj)
  rw [wildcardPosition, List.drop_one, List.tail_cons, hidx, Option.map_some]

/-- A wildcard that is neither first nor last. -/
theorem classify_inside (hfront : star ∉ front) (hback : back ≠ []) :
    classify (c :: (front ++ star :: back)) = none := by
  have hany : (wildcardPosition (c :: (front ++ star :: back))).any
      (· ≠ (c :: (front ++ star :: back)).length - 1) = true := by
    have := List.length_pos_of_ne_nil hback
    rw [wildcardPosition_cons hfront, Option.any_some, decide_eq_true_iff, List.length_cons,
      List.length_append, List.length_cons]
    omega
  rw [classify, if_neg (List.cons_ne_nil _ _), if_pos hany]

/-- A wildcard in last place, and perhaps one in first. -/
theorem classify_concat (hfront : star ∉ front) :
    classify (c :: (front ++ [star])) =
      if c = star then some (.endsWith, front ++ [star]) else some (.startsWith, c :: front) := by
  have hany : ¬ (wildcardPosition (c :: (front ++ [star]))).any
      (· ≠ (c :: (front ++ [star])).length - 1) = true := by
    rw [wildcardPosition_cons hfront, Option.any_some, decide_eq_true_iff, List.length_cons,
      List.length_append, List.length_singleton]
    omega
  have hlast : (c :: (front ++ [star])).getLast? = some star := by
    rw [← List.cons_append, List.getLast?_concat]
  have hdrop : (c :: (front ++ [star])).dropLast = c :: front := by
    rw [← List.cons_append, List.dropLast_concat]
  rw [classify, if_neg (List.cons_ne_nil _ _), if_neg hany, if_pos hlast, hdrop, List.head?_cons]
  by_cases hc : c = star
  · rw [if_pos hc, if_pos (congrArg some hc)]
    rfl
  · rw [if_neg hc, if_neg (mt Option.some.inj hc)]

/-- No wildcard behind the first place. -/
theorem classify_of_not_mem (hrest : star ∉ rest) :
    classify (c :: rest) =
      if c = star then some (.endsWith, rest) else some (.equals, c :: rest) := by
  have hany : ¬ (wildcardPosition (c :: rest)).any (· ≠ (c :: rest).length - 1) = true := by
    rw [wildcardPosition, List.drop_one, List.tail_cons, List.idxOf?_eq_none_iff.mpr hrest]
    exact Bool.false_ne_true
  rw [classify, if_neg (List.cons_ne_nil _ _), if_neg hany, List.head?_cons]
  by_cases hc : c = star
  · rw [if_pos hc, if_pos (congrArg some hc)]
    rfl
  · have hlast : (c :: rest).getLast? ≠ some star := by
      intro hlast
      rcases List.mem_cons.mp (List.mem_of_getLast? hlast) with heq | hmem
      · exact hc heq.symm
      · exact hrest hmem
    rw [if_neg hc, if_neg (mt Option.some.inj hc), if_neg hlast]

end Classify

open IdFilter in
/-- **How an item is taken**: not at all where a wildcard stands inside, as it is where there is
none, and else without one wildcard, although it may have two. -/
theorem classify_cases {item : Text} (h : item ≠ []) :
    (¬ Outer star item ∧ classify item = none) ∨
      (star ∉ item ∧ classify item = some (.equals, item)) ∨
      ∃ x, star ∉ x ∧
        (item = star :: x ∧ classify item = some (.endsWith, x) ∨
          x ≠ [] ∧ item = x ++ [star] ∧ classify item = some (.startsWith, x) ∨
          item = star :: (x ++ [star]) ∧ classify item = some (.endsWith, x ++ [star])) := by
  obtain ⟨c, rest, rfl⟩ := List.exists_cons_of_ne_nil h
  by_cases hmem : star ∈ rest
  · obtain ⟨front, back, rfl, hfront⟩ := List.eq_append_cons_of_mem hmem
    rcases eq_or_ne back [] with rfl | hback
    · rw [classify_concat hfront]
      refine .inr (.inr ?_)
      by_cases hc : c = star
      · rw [if_pos hc]
        exact ⟨front, hfront, .inr (.inr ⟨hc ▸ rfl, rfl⟩)⟩
      · rw [if_neg hc]
        refine ⟨c :: front, ?_, .inr (.inl ⟨List.cons_ne_nil _ _, rfl, rfl⟩)⟩
        simp [Ne.symm hc, hfront]
    · refine .inl ⟨fun houter => hback ?_, classify_inside hfront hback⟩
      exact outer_cons_iff.mp houter front back rfl
  · rw [classify_of_not_mem hmem]
    by_cases hc : c = star
    · rw [if_pos hc]
      exact .inr (.inr ⟨rest, hmem, .inl ⟨hc ▸ rfl, rfl⟩⟩)
    · rw [if_neg hc]
      refine .inr (.inl ⟨?_, rfl⟩)
      simp [Ne.symm hc, hmem]

/-! ### Lists -/

open IdFilter

/-- The filter after a list has been loaded. -/
def filterOf (u : Text × UInt32) : IdFilter :=
  (getlines u.1).foldl loadItem ⟨fun _ => [], 0, u.2⟩

/-- A list lets a name through. -/
def Accepts (text value : Text) : Prop :=
  ∃ item ∈ items text, ∃ op entry, classify item = some (op, entry) ∧ op.compare value entry = true

/-- What one item adds to the entries. -/
theorem mem_entries_foldl {list : List Text} {f : IdFilter} {op : Operator} {entry : Text} :
    entry ∈ (list.foldl loadItem f).entries op ↔
      entry ∈ f.entries op ∨ ∃ item ∈ list, classify (trim item) = some (op, entry) := by
  induction list generalizing f with
  | nil => simp
  | cons item list ih =>
      rw [List.foldl_cons, ih, List.exists_mem_cons_iff, ← or_assoc]
      refine or_congr_left ?_
      rw [loadItem]
      cases hitem : classify (trim item) with
      | none => simp
      | some p =>
          obtain ⟨op', entry'⟩ := p
          dsimp only
          rcases eq_or_ne op op' with rfl | hne
          · rw [Function.update_self, List.mem_append, List.mem_singleton, Option.some_inj,
              Prod.mk.injEq, eq_comm (a := entry)]
            simp
          · rw [Function.update_of_ne hne, Option.some_inj, Prod.mk.injEq]
            simp [Ne.symm hne]

/-- A filter that counts no entries has none. -/
theorem entries_of_count {list : List Text} {f : IdFilter}
    (h : f.entryCount = 0 → ∀ op, f.entries op = [])
    (hcount : (list.foldl loadItem f).entryCount = 0) (op : Operator) :
    (list.foldl loadItem f).entries op = [] := by
  induction list generalizing f with
  | nil => exact h hcount op
  | cons item list ih =>
      refine ih (fun hzero => ?_) hcount
      rw [loadItem] at hzero ⊢
      cases hitem : classify (trim item) with
      | none =>
          rw [hitem] at hzero
          exact h hzero
      | some p =>
          rw [hitem] at hzero
          exact absurd hzero (Nat.succ_ne_zero _)

/-- `getline` and the split give the same items. -/
theorem exists_getlines_iff {text : Text} {P : Text → Prop} (hP : ¬ P []) :
    (∃ part ∈ getlines text, P (trim part)) ↔ ∃ item ∈ items text, P item := by
  have hsplit : ∀ part, part ≠ [] → (part ∈ getlines text ↔ part ∈ text.splitOn separator) := by
    intro part hpart
    rw [Metrics.Bitset.getlines]
    change part ∈ (if (text.splitOn separator).getLast? = some [] then
      (text.splitOn separator).dropLast else text.splitOn separator) ↔ _
    split
    · next hlast =>
      conv_rhs => rw [← List.dropLast_append_getLast? [] hlast]
      rw [List.mem_append, List.mem_singleton, or_iff_left hpart]
    · rfl
  have hne : ∀ part, P (trim part) → part ≠ [] := by
    rintro part h rfl
    exact hP h
  constructor
  · rintro ⟨part, hpart, h⟩
    refine ⟨trim part, List.mem_filter.mpr ⟨List.mem_map.mpr ⟨part, ?_, rfl⟩, ?_⟩, h⟩
    · exact (hsplit part (hne part h)).mp hpart
    · exact decide_eq_true fun hnil => hP (hnil ▸ h)
  · rintro ⟨item, hitem, h⟩
    obtain ⟨part, hpart, rfl⟩ := List.mem_map.mp (List.mem_filter.mp hitem).1
    exact ⟨part, (hsplit part (hne part h)).mpr hpart, h⟩

/-- **Which names are let through after a list has been loaded.** -/
theorem checkFilter_filterOf (u : Text × UInt32) (value : Text) :
    (filterOf u).checkFilter value = true ↔ Accepts u.1 value := by
  set f := filterOf u with hf
  have hentries : ∀ op entry, entry ∈ f.entries op ↔
      ∃ item ∈ items u.1, classify item = some (op, entry) := by
    intro op entry
    rw [hf, filterOf, mem_entries_foldl,
      ← exists_getlines_iff (fun h => Option.some_ne_none _ h.symm)]
    exact or_iff_right List.not_mem_nil
  have hcheck : f.checkFilter value = true ↔
      ∃ op, ∃ entry ∈ f.entries op, op.compare value entry = true := by
    rw [checkFilter]
    split
    · next hcount =>
      have hnone := entries_of_count (fun _ _ => rfl) hcount
      have hnil : ∀ op, f.entries op = [] := hnone
      simp [hnil]
    · simp only [List.any_cons, List.any_nil, Bool.or_eq_true, List.any_eq_true, Bool.or_false]
      constructor
      · rintro (h | h | h)
        · exact ⟨.startsWith, h⟩
        · exact ⟨.endsWith, h⟩
        · exact ⟨.equals, h⟩
      · rintro ⟨op, h⟩
        cases op with
        | startsWith => exact .inl h
        | endsWith => exact .inr (.inl h)
        | equals => exact .inr (.inr h)
  rw [hcheck]
  constructor
  · rintro ⟨op, entry, hentry, hcompare⟩
    obtain ⟨item, hitem, hclassify⟩ := (hentries op entry).mp hentry
    exact ⟨item, hitem, op, entry, hclassify, hcompare⟩
  · rintro ⟨item, hitem, op, entry, hclassify, hcompare⟩
    exact ⟨op, entry, (hentries op entry).mpr ⟨item, hitem, hclassify⟩, hcompare⟩

/-! ### What an item matches -/

/-- The names that an item lets through. -/
theorem compare_iff {item value : Text} (h : item ≠ []) :
    (∃ op entry, classify item = some (op, entry) ∧ op.compare value entry = true) ↔
      (star ∉ item ∧ value = item) ∨ ∃ x, star ∉ x ∧
        (item = star :: x ∧ x <:+ value ∨ (x ≠ [] ∧ item = x ++ [star]) ∧ x <+: value ∨
          item = star :: (x ++ [star]) ∧ x ++ [star] <:+ value) := by
  constructor
  · rintro ⟨op, entry, hclassify, hcompare⟩
    rcases classify_cases h with ⟨-, hcase⟩ | ⟨hmem, hcase⟩ |
      ⟨x, hx, ⟨rfl, hcase⟩ | ⟨hne, rfl, hcase⟩ | ⟨rfl, hcase⟩⟩
    · exact absurd (hcase.symm.trans hclassify).symm (Option.some_ne_none _)
    · obtain ⟨rfl, rfl⟩ := Prod.mk.inj (Option.some.inj (hcase.symm.trans hclassify))
      exact .inl ⟨hmem, eq_of_beq hcompare⟩
    · obtain ⟨rfl, rfl⟩ := Prod.mk.inj (Option.some.inj (hcase.symm.trans hclassify))
      exact .inr ⟨x, hx, .inl ⟨rfl, endsWith_iff.mp hcompare⟩⟩
    · obtain ⟨rfl, rfl⟩ := Prod.mk.inj (Option.some.inj (hcase.symm.trans hclassify))
      exact .inr ⟨x, hx, .inr (.inl ⟨⟨hne, rfl⟩, startsWith_iff.mp hcompare⟩)⟩
    · obtain ⟨rfl, rfl⟩ := Prod.mk.inj (Option.some.inj (hcase.symm.trans hclassify))
      exact .inr ⟨x, hx, .inr (.inr ⟨rfl, endsWith_iff.mp hcompare⟩)⟩
  · rintro (⟨hmem, rfl⟩ | ⟨x, hx, ⟨rfl, hvalue⟩ | ⟨⟨hne, rfl⟩, hvalue⟩ | ⟨rfl, hvalue⟩⟩)
    · obtain ⟨c, rest, rfl⟩ := List.exists_cons_of_ne_nil h
      rw [List.mem_cons, not_or] at hmem
      refine ⟨.equals, _, ?_, beq_self_eq_true _⟩
      rw [classify_of_not_mem hmem.2, if_neg (Ne.symm hmem.1)]
    · refine ⟨.endsWith, x, ?_, endsWith_iff.mpr hvalue⟩
      rw [classify_of_not_mem hx, if_pos rfl]
    · obtain ⟨c, rest, rfl⟩ := List.exists_cons_of_ne_nil hne
      rw [List.mem_cons, not_or] at hx
      refine ⟨.startsWith, c :: rest, ?_, startsWith_iff.mpr hvalue⟩
      rw [List.cons_append, classify_concat hx.2, if_neg (Ne.symm hx.1)]
    · refine ⟨.endsWith, x ++ [star], ?_, endsWith_iff.mpr hvalue⟩
      rw [classify_concat hx, if_pos rfl]

/-- The names that an item matches. -/
theorem outer_and_glob_iff {item value : Text} (h : item ≠ []) :
    Outer star item ∧ Glob star item value ↔
      (star ∉ item ∧ value = item) ∨ ∃ x, star ∉ x ∧
        (item = star :: x ∧ x <:+ value ∨ (x ≠ [] ∧ item = x ++ [star]) ∧ x <+: value ∨
          item = star :: (x ++ [star]) ∧ x <:+: value) := by
  constructor
  · rintro ⟨houter, hglob⟩
    rcases classify_cases h with ⟨hnot, -⟩ | ⟨hmem, -⟩ |
      ⟨x, hx, ⟨rfl, -⟩ | ⟨hne, rfl, -⟩ | ⟨rfl, -⟩⟩
    · exact absurd houter hnot
    · exact .inl ⟨hmem, (glob_iff_eq hmem).mp hglob⟩
    · exact .inr ⟨x, hx, .inl ⟨rfl, (glob_cons_iff_ends hx).mp hglob⟩⟩
    · exact .inr ⟨x, hx, .inr (.inl ⟨⟨hne, rfl⟩, (glob_concat_iff_starts hx).mp hglob⟩)⟩
    · exact .inr ⟨x, hx, .inr (.inr ⟨rfl, (glob_enclosed_iff_within hx).mp hglob⟩)⟩
  · rintro (⟨hmem, rfl⟩ | ⟨x, hx, ⟨rfl, hvalue⟩ | ⟨⟨hne, rfl⟩, hvalue⟩ | ⟨rfl, hvalue⟩⟩)
    · obtain ⟨c, rest, rfl⟩ := List.exists_cons_of_ne_nil h
      rw [List.mem_cons, not_or] at hmem
      exact ⟨outer_cons_of_not_mem hmem.2,
        (glob_iff_eq (by rw [List.mem_cons, not_or]; exact hmem)).mpr rfl⟩
    · exact ⟨outer_cons_of_not_mem hx, (glob_cons_iff_ends hx).mpr hvalue⟩
    · refine ⟨?_, (glob_concat_iff_starts hx).mpr hvalue⟩
      obtain ⟨c, rest, rfl⟩ := List.exists_cons_of_ne_nil hne
      rw [List.mem_cons, not_or] at hx
      exact outer_cons_concat hx.2
    · exact ⟨outer_cons_concat hx, (glob_enclosed_iff_within hx).mpr hvalue⟩

/-- A list lets no other names through than it matches. -/
theorem Accepts.means {text value : Text} (h : Accepts text value) : Means text value := by
  obtain ⟨item, hitem, hcompare⟩ := h
  have hne := ne_nil_of_mem_items hitem
  refine ⟨item, hitem, (outer_and_glob_iff hne).mpr ?_⟩
  rcases (compare_iff hne).mp hcompare with hequal | ⟨x, hx, hsuffix | hprefix | ⟨rfl, hend⟩⟩
  · exact .inl hequal
  · exact .inr ⟨x, hx, .inl hsuffix⟩
  · exact .inr ⟨x, hx, .inr (.inl hprefix)⟩
  · exact .inr ⟨x, hx, .inr (.inr ⟨rfl, (List.prefix_append x [star]).isInfix.trans hend.isInfix⟩)⟩

theorem accepts_of_star {text : Text} (h : [star] ∈ items text) (value : Text) :
    Accepts text value :=
  ⟨_, h, (compare_iff (List.cons_ne_nil _ _)).mpr
    (.inr ⟨[], List.not_mem_nil, .inl ⟨rfl, List.nil_suffix⟩⟩)⟩

/-- A plain list lets all names through that it matches. -/
theorem Plain.accepts {text value : Text} (hplain : Plain text) (h : Means text value) :
    Accepts text value := by
  obtain ⟨item, hitem, hmatch⟩ := h
  have hne := ne_nil_of_mem_items hitem
  rcases (outer_and_glob_iff hne).mp hmatch with hequal | ⟨x, hx, hsuffix | hprefix | ⟨rfl, -⟩⟩
  · exact ⟨item, hitem, (compare_iff hne).mpr (.inl hequal)⟩
  · exact ⟨item, hitem, (compare_iff hne).mpr (.inr ⟨x, hx, .inl hsuffix⟩)⟩
  · exact ⟨item, hitem, (compare_iff hne).mpr (.inr ⟨x, hx, .inr (.inl hprefix)⟩)⟩
  · exact accepts_of_star (hplain ⟨_, hitem, x, hx, rfl⟩) value

/-! ### Names between separators -/

theorem mem_of_prefix_cons {x l : Text} {c : UInt8} (hne : x ≠ []) (h : x <+: c :: l) : c ∈ x := by
  rcases List.prefix_cons_iff.mp h with rfl | ⟨t, rfl, -⟩
  · exact absurd rfl hne
  · exact List.mem_cons_self

theorem mem_of_suffix_concat {x l : Text} {c : UInt8} (hne : x ≠ []) (h : x <:+ l ++ [c]) :
    c ∈ x := by
  rcases List.suffix_concat_iff.mp h with rfl | ⟨t, rfl, -⟩
  · exact absurd rfl hne
  · exact List.mem_append_right t List.mem_cons_self

/-- What begins and ends with a separator is let through by the wildcard alone. -/
theorem not_accepts_between {text : Text} (h : [star] ∉ items text) (z : Text) :
    ¬ Accepts text (separator :: (z ++ [separator])) := by
  rintro ⟨item, hitem, hcompare⟩
  have hseparator := separator_not_mem hitem
  rcases (compare_iff (ne_nil_of_mem_items hitem)).mp hcompare with ⟨-, rfl⟩ |
    ⟨x, hx, ⟨rfl, hend⟩ | ⟨⟨hne, rfl⟩, hstart⟩ | ⟨rfl, hend⟩⟩
  · exact hseparator List.mem_cons_self
  · rcases eq_or_ne x [] with rfl | hne
    · exact h hitem
    · rw [← List.cons_append] at hend
      exact hseparator (List.mem_cons_of_mem star (mem_of_suffix_concat hne hend))
  · exact hseparator (List.mem_append_left [star] (mem_of_prefix_cons hne hstart))
  · rw [← List.cons_append] at hend
    have hne : x ++ [star] ≠ [] := List.append_ne_nil_of_right_ne_nil _ (List.cons_ne_nil _ _)
    exact hseparator (List.mem_cons_of_mem star (mem_of_suffix_concat hne hend))

/-- A list with two wildcards in an item, and none alone, lets through what no list matches without
more: a separator, what stands between the wildcards, and the second one. -/
theorem plain_of_accepts_iff {text last : Text}
    (h : ∀ value, Accepts text value ↔ Means last value) : Plain text := by
  rintro ⟨item, hitem, x, hx, rfl⟩
  by_contra hstar
  have hnot : ∀ z, ¬ Means last (separator :: (z ++ [separator])) := fun z hmeans =>
    not_accepts_between hstar z ((h _).mpr hmeans)
  have haccepts : Accepts text (separator :: (x ++ [star])) :=
    ⟨_, hitem, (compare_iff (List.cons_ne_nil _ _)).mpr
      (.inr ⟨x, hx, .inr (.inr ⟨rfl, List.suffix_cons separator (x ++ [star])⟩)⟩)⟩
  obtain ⟨item', hitem', hmatch⟩ := (h _).mp haccepts
  have hseparator := separator_not_mem hitem'
  rcases (outer_and_glob_iff (ne_nil_of_mem_items hitem')).mp hmatch with ⟨-, rfl⟩ |
    ⟨y, hy, ⟨rfl, hend⟩ | ⟨⟨hne, rfl⟩, hstart⟩ | ⟨rfl, -⟩⟩
  · exact hseparator List.mem_cons_self
  · rcases eq_or_ne y [] with rfl | hne
    · exact hnot [] ⟨_, hitem', (outer_and_glob_iff (List.cons_ne_nil _ _)).mpr
        (.inr ⟨[], List.not_mem_nil, .inl ⟨rfl, List.nil_suffix⟩⟩)⟩
    · rw [← List.cons_append] at hend
      exact hy (mem_of_suffix_concat hne hend)
  · exact hseparator (List.mem_append_left [star] (mem_of_prefix_cons hne hstart))
  · exact hnot y ⟨_, hitem', (outer_and_glob_iff (List.cons_ne_nil _ _)).mpr
      (.inr ⟨y, hy, .inr (.inr ⟨rfl, [separator], [separator], rfl⟩)⟩)⟩

/-! ### Several lists -/

theorem entryHash_foldl (list : List Text) (f : IdFilter) :
    (list.foldl loadItem f).entryHash = f.entryHash := by
  induction list generalizing f with
  | nil => rfl
  | cons item list ih =>
      rw [List.foldl_cons, ih, loadItem]
      cases classify (trim item) <;> rfl

/-- The filter after several lists have been loaded is the one of the list in force. -/
theorem foldl_loadFilters (hash : Text → UInt32) (texts : List Text) :
    texts.foldl (fun f text => (f.loadFilters hash text).1) IdFilter.new =
      filterOf (loaded hash texts) := by
  refine @List.foldl_hom _ _ _ filterOf
    (fun u text => if hash text = u.2 then u else (text, hash text)) _ texts ([], 0) ?_
  intro u text
  rw [loadFilters, filterOf, entryHash_foldl]
  by_cases hhash : hash text = u.2
  · rw [if_pos hhash, if_pos hhash]
    rfl
  · rw [if_neg hhash, if_neg hhash]
    rfl

theorem meansWhatItSays_iff {hash : Text → UInt32} {texts : List Text} :
    MeansWhatItSays hash texts ↔
      ∀ value, Accepts (inForce hash texts) value ↔ Means (texts.getLastD []) value := by
  rw [MeansWhatItSays, foldl_loadFilters]
  exact forall_congr' fun value => by rw [checkFilter_filterOf]; rfl

/-- **When filters mean what they say**: exactly when the list in force has no item with two
wildcards, or one that is the wildcard alone, and matches the same as the list that has been loaded
last. -/
theorem checkFilter_means_iff (hash : Text → UInt32) (texts : List Text) :
    MeansWhatItSays hash texts ↔
      Plain (inForce hash texts) ∧
        ∀ value, Means (inForce hash texts) value ↔ Means (texts.getLastD []) value := by
  rw [meansWhatItSays_iff]
  constructor
  · intro h
    have hplain := plain_of_accepts_iff h
    exact ⟨hplain, fun value => ⟨fun hmeans => (h value).mp (hplain.accepts hmeans),
      fun hmeans => ((h value).mpr hmeans).means⟩⟩
  · rintro ⟨hplain, hsame⟩ value
    rw [← hsame value]
    exact ⟨Accepts.means, hplain.accepts⟩

/-- `*a*` does not let `xax` through; and of two lists with one hash the second is not loaded. -/
theorem not_means :
    ¬ MeansWhatItSays (fun _ => 1) [[0x2A, 0x61, 0x2A]] ∧
      ¬ MeansWhatItSays (fun _ => 1) [[0x61], [0x62]] := by
  constructor
  · intro h
    have hplain := plain_of_accepts_iff (meansWhatItSays_iff.mp h)
    have hstar := hplain ⟨[0x2A, 0x61, 0x2A], by decide, [0x61], by decide, rfl⟩
    exact absurd hstar (by decide)
  · intro h
    have haccepts : Accepts (inForce (fun _ => 1) [[0x61], [0x62]]) [0x61] :=
      ⟨[0x61], by decide, .equals, [0x61], by decide, by decide⟩
    obtain ⟨item, hitem, -, hglob⟩ := (meansWhatItSays_iff.mp h [0x61]).mp haccepts
    have hitems : items [0x62] = [[0x62]] := by decide
    obtain rfl := List.mem_singleton.mp (hitems ▸ hitem)
    exact absurd ((glob_iff_eq (by decide)).mp hglob) (by decide)

end Ovms.Utils
