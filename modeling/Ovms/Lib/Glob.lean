import Mathlib.Data.List.Infix

/-!
# Patterns with a Wildcard

A pattern is a text in which one symbol stands for any text and every other for itself.

## Main results

* `glob_append`: what is matched in front of the first wildcard.
* `glob_iff_eq`, `glob_cons_iff_ends`, `glob_concat_iff_starts`, `glob_enclosed_iff_within`:
  matching with a wildcard in no place, in the first, the last, or both.
* `outer_cons_iff`: what such a pattern is, behind its first symbol.
-/

namespace Lib

variable {α : Type*} {star : α}

/-- The pattern matches the whole text, with each wildcard standing for any text. -/
def Glob (star : α) : (pattern text : List α) → Prop
  | [], text => text = []
  | a :: pattern, text =>
      (a = star ∧ ∃ any rest, text = any ++ rest ∧ Glob star pattern rest) ∨
        (a ≠ star ∧ ∃ rest, text = a :: rest ∧ Glob star pattern rest)

/-- The wildcard stands in first or last place only. -/
def Outer (star : α) (pattern : List α) : Prop :=
  ∀ front back, pattern = front ++ star :: back → front = [] ∨ back = []

/-! ### Matching -/

theorem glob_star_cons {pattern text : List α} :
    Glob star (star :: pattern) text ↔ ∃ any rest, text = any ++ rest ∧ Glob star pattern rest := by
  rw [Glob]
  exact ⟨fun h => h.elim And.right fun hne => absurd rfl hne.1, fun h => .inl ⟨rfl, h⟩⟩

theorem glob_cons_of_ne {a : α} (ha : a ≠ star) {pattern text : List α} :
    Glob star (a :: pattern) text ↔ ∃ rest, text = a :: rest ∧ Glob star pattern rest := by
  rw [Glob]
  exact ⟨fun h => h.elim (fun heq => absurd heq.1 ha) And.right, fun h => .inr ⟨ha, h⟩⟩

/-- **What has no wildcard is matched by itself**, in front of the rest. -/
theorem glob_append {front : List α} (hfront : star ∉ front) {pattern text : List α} :
    Glob star (front ++ pattern) text ↔ ∃ rest, text = front ++ rest ∧ Glob star pattern rest := by
  induction front generalizing text with
  | nil => exact ⟨fun h => ⟨text, rfl, h⟩, by rintro ⟨rest, rfl, h⟩; exact h⟩
  | cons a front ih =>
      obtain ⟨ha, hrest⟩ : star ≠ a ∧ star ∉ front := by simpa using hfront
      rw [List.cons_append, glob_cons_of_ne (Ne.symm ha)]
      constructor
      · rintro ⟨rest, rfl, h⟩
        obtain ⟨rest', rfl, h'⟩ := (ih hrest).mp h
        exact ⟨rest', rfl, h'⟩
      · rintro ⟨rest, rfl, h⟩
        exact ⟨front ++ rest, rfl, (ih hrest).mpr ⟨rest, rfl, h⟩⟩

/-- A pattern without a wildcard. -/
theorem glob_iff_eq {pattern : List α} (h : star ∉ pattern) {text : List α} :
    Glob star pattern text ↔ text = pattern := by
  have hglob : Glob star (pattern ++ []) text ↔
      ∃ rest, text = pattern ++ rest ∧ Glob star [] rest := glob_append h
  rw [List.append_nil] at hglob
  rw [hglob]
  constructor
  · rintro ⟨rest, rfl, rfl⟩
    exact List.append_nil pattern
  · rintro rfl
    exact ⟨[], (List.append_nil text).symm, rfl⟩

/-- A wildcard in first place. -/
theorem glob_cons_iff_ends {pattern : List α} (h : star ∉ pattern) {text : List α} :
    Glob star (star :: pattern) text ↔ pattern <:+ text := by
  rw [glob_star_cons]
  constructor
  · rintro ⟨any, rest, rfl, hrest⟩
    obtain rfl := (glob_iff_eq h).mp hrest
    exact List.suffix_append any rest
  · rintro ⟨any, rfl⟩
    exact ⟨any, pattern, rfl, (glob_iff_eq h).mpr rfl⟩

/-- A wildcard in last place. -/
theorem glob_concat_iff_starts {pattern : List α} (h : star ∉ pattern) {text : List α} :
    Glob star (pattern ++ [star]) text ↔ pattern <+: text := by
  rw [glob_append h]
  constructor
  · rintro ⟨rest, rfl, -⟩
    exact List.prefix_append pattern rest
  · rintro ⟨rest, rfl⟩
    exact ⟨rest, rfl, glob_star_cons.mpr ⟨rest, [], (List.append_nil rest).symm, rfl⟩⟩

/-- Wildcards in both. -/
theorem glob_enclosed_iff_within {pattern : List α} (h : star ∉ pattern) {text : List α} :
    Glob star (star :: (pattern ++ [star])) text ↔ pattern <:+: text := by
  rw [glob_star_cons]
  constructor
  · rintro ⟨any, rest, rfl, hrest⟩
    exact ((glob_concat_iff_starts h).mp hrest).isInfix.trans (List.suffix_append any rest).isInfix
  · rintro ⟨any, rest, rfl⟩
    exact ⟨any, pattern ++ rest, List.append_assoc any pattern rest,
      (glob_concat_iff_starts h).mpr (List.prefix_append pattern rest)⟩

/-! ### Outer wildcards -/

/-- Behind the first place a wildcard can only be the last. -/
theorem outer_cons_iff {a : α} {rest : List α} :
    Outer star (a :: rest) ↔ ∀ front back, rest = front ++ star :: back → back = [] := by
  constructor
  · rintro h front back rfl
    exact (h (a :: front) back rfl).resolve_left (List.cons_ne_nil a front)
  · intro h front back heq
    rcases front with _ | ⟨b, front⟩
    · exact .inl rfl
    · obtain ⟨rfl, hrest⟩ := List.cons.inj heq
      exact .inr (h front back hrest)

theorem outer_cons_of_not_mem {a : α} {rest : List α} (h : star ∉ rest) :
    Outer star (a :: rest) := by
  rw [outer_cons_iff]
  rintro front back rfl
  exact absurd (List.mem_append_right front List.mem_cons_self) h

theorem outer_cons_concat {a : α} {rest : List α} (h : star ∉ rest) :
    Outer star (a :: (rest ++ [star])) := by
  rw [outer_cons_iff]
  intro front back heq
  rcases List.eq_nil_or_concat back with rfl | ⟨back, b, rfl⟩
  · rfl
  · rw [List.concat_eq_append, ← List.cons_append, ← List.append_assoc] at heq
    obtain ⟨rfl, -⟩ := List.append_inj' heq rfl
    exact absurd (List.mem_append_right front List.mem_cons_self) h

end Lib
