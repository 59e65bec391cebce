import Mathlib.Data.List.Induction
import Mathlib.Order.Lattice

/-!
# The First of the Least

A loop over a list that keeps an element until it meets one with a smaller key, and passes over
what is not admitted. It ends with the first of the elements whose key is least.
-/

namespace Lib

section Split

variable {α : Type*} {x y : α} {before after before' after' : List α}

/-- Two places of a list are the same, or one is ahead of the other. -/
theorem split_cases (h : before ++ x :: after = before' ++ y :: after') :
    (before = before' ∧ x = y) ∨ (y ∈ after ∧ x ∈ before') ∨ (y ∈ before ∧ x ∈ after') := by
  rcases List.append_eq_append_iff.mp h with ⟨between, rfl, heq⟩ | ⟨between, rfl, heq⟩
  · cases between with
    | nil =>
        obtain ⟨rfl, -⟩ := List.cons.inj heq
        exact .inl ⟨(List.append_nil before).symm, rfl⟩
    | cons z between =>
        obtain ⟨rfl, rfl⟩ := List.cons.inj heq
        exact .inr (.inl ⟨by simp, by simp⟩)
  · cases between with
    | nil =>
        obtain ⟨rfl, -⟩ := List.cons.inj heq
        exact .inl ⟨List.append_nil before', rfl⟩
    | cons z between =>
        obtain ⟨rfl, rfl⟩ := List.cons.inj heq
        exact .inr (.inr ⟨by simp, by simp⟩)

end Split

section Least

variable {α κ : Type*} [LinearOrder κ] {A : α → Prop} {key : α → κ} {l : List α} {x y : α}

/-- An element is admitted, those ahead of it have greater keys and those behind it have no
smaller ones, as far as they are admitted. -/
def FirstLeast (A : α → Prop) (key : α → κ) (l : List α) (x : α) : Prop :=
  ∃ before after, l = before ++ x :: after ∧ A x ∧ (∀ y ∈ before, A y → key x < key y) ∧
    ∀ y ∈ after, A y → key x ≤ key y

theorem FirstLeast.unique (hx : FirstLeast A key l x) (hy : FirstLeast A key l y) : x = y := by
  obtain ⟨before, after, rfl, hAx, hbefore, hafter⟩ := hx
  obtain ⟨before', after', heq, hAy, hbefore', hafter'⟩ := hy
  rcases split_cases heq with ⟨-, hxy⟩ | ⟨hbehind, hahead⟩ | ⟨hahead, hbehind⟩
  · exact hxy
  · exact absurd (hbefore' x hahead hAx) (not_lt.mpr (hafter y hbehind hAy))
  · exact absurd (hbefore y hahead hAy) (not_lt.mpr (hafter' x hbehind hAx))

variable [DecidablePred A]

/-- An element in the loop. -/
def keepLeast (A : α → Prop) [DecidablePred A] (key : α → κ) (best : Option α) (x : α) :
    Option α :=
  match best with
  | none => if A x then some x else none
  | some b => if A x ∧ key x < key b then some x else some b

/-- What the loop holds behind some elements. -/
def HoldsLeast (A : α → Prop) (key : α → κ) (l : List α) : Option α → Prop
  | none => ∀ y ∈ l, ¬ A y
  | some x => FirstLeast A key l x

/-- One element. -/
theorem HoldsLeast.keepLeast {best : Option α} (h : HoldsLeast A key l best) (x : α) :
    HoldsLeast A key (l ++ [x]) (keepLeast A key best x) := by
  cases best with
  | none =>
      rw [Lib.keepLeast]
      split
      · next hA =>
        exact ⟨l, [], rfl, hA, fun y hy hAy => absurd hAy (h y hy),
          fun y hy => absurd hy List.not_mem_nil⟩
      · next hA => exact List.forall_mem_append.mpr ⟨h, List.forall_mem_singleton.mpr hA⟩
  | some b =>
      rw [Lib.keepLeast]
      split
      · next hlt =>
        obtain ⟨before, after, rfl, hAb, hbefore, hafter⟩ := h
        refine ⟨before ++ b :: after, [], rfl, hlt.1, fun y hy hAy => ?_,
          fun y hy => absurd hy List.not_mem_nil⟩
        rcases List.mem_append.mp hy with hy | hy
        · exact hlt.2.trans (hbefore y hy hAy)
        · rcases List.mem_cons.mp hy with rfl | hy
          · exact hlt.2
          · exact hlt.2.trans_le (hafter y hy hAy)
      · next hnot =>
        obtain ⟨before, after, rfl, hAb, hbefore, hafter⟩ := h
        refine ⟨before, after ++ [x], by simp, hAb, hbefore, fun y hy hAy => ?_⟩
        rcases List.mem_append.mp hy with hy | hy
        · exact hafter y hy hAy
        · obtain rfl := List.mem_singleton.mp hy
          exact not_lt.mp fun hlt => hnot ⟨hAy, hlt⟩

theorem holdsLeast_foldl (A : α → Prop) [DecidablePred A] (key : α → κ) (l : List α) :
    HoldsLeast A key l (l.foldl (Lib.keepLeast A key) none) := by
  induction l using List.reverseRecOn with
  | nil => exact fun y hy => absurd hy List.not_mem_nil
  | append_singleton l x ih =>
      rw [List.foldl_append]
      exact ih.keepLeast x

/-- **The loop rule**: the loop ends with the first of the least elements. -/
theorem foldl_keepLeast_eq_some_iff :
    l.foldl (Lib.keepLeast A key) none = some x ↔ FirstLeast A key l x := by
  have h := holdsLeast_foldl A key l
  constructor
  · intro heq
    rwa [heq] at h
  · intro hx
    cases hbest : l.foldl (Lib.keepLeast A key) none with
    | none =>
        rw [hbest] at h
        obtain ⟨before, after, rfl, hA, -⟩ := hx
        exact absurd hA (h x (List.mem_append_right before List.mem_cons_self))
    | some b =>
        rw [hbest] at h
        rw [FirstLeast.unique h hx]

end Least

end Lib
