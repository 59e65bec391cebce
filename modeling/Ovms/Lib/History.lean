import Mathlib.Data.List.Basic
import Mathlib.Data.List.Induction

/-!
# Histories

A system that logs what it does answers for each entry by the entries before it. A log
only grows at its end, so a property of this kind is checked entry by entry as the log is
written.

## Main results

* `sinceLast_append`, `sinceLast_append_cons`: how the last section of a log grows.
* `eq_flatMap_of_sorted`: a sorted log, rank after rank.
* `Justified.append`: a justified log stays justified when its new entries are.
-/

namespace Lib

variable {α : Type*} {p : α → Bool} {E F : List α → α → Prop}

/-! ### The last section of a log -/

/-- The entries from the last one that satisfies `p` on; all entries when none does. -/
def sinceLast (p : α → Bool) (l : List α) : List α :=
  l.foldl (fun latest a => if p a then [a] else latest ++ [a]) []

@[simp] theorem sinceLast_nil : sinceLast p [] = [] := rfl

/-- Entries that open no section extend the last one. -/
theorem sinceLast_append {L : List α} (l : List α) (h : ∀ a ∈ L, p a = false) :
    sinceLast p (l ++ L) = sinceLast p l ++ L := by
  induction L generalizing l with
  | nil => simp
  | cons a L ih =>
      obtain ⟨ha, hL⟩ := List.forall_mem_cons.mp h
      have hsnoc : sinceLast p (l ++ [a]) = sinceLast p l ++ [a] := by
        simp [sinceLast, List.foldl_append, ha]
      rw [List.append_cons, ih (l ++ [a]) hL, hsnoc, List.append_assoc]
      rfl

theorem sinceLast_append_cons {a : α} {L : List α} (l : List α) (ha : p a = true)
    (h : ∀ b ∈ L, p b = false) : sinceLast p (l ++ a :: L) = a :: L := by
  have hsnoc : sinceLast p (l ++ [a]) = [a] := by
    simp [sinceLast, List.foldl_append, ha]
  rw [List.append_cons, sinceLast_append (l ++ [a]) h, hsnoc]
  rfl

/-- The last section ends the log. -/
theorem sinceLast_suffix (l : List α) : sinceLast p l <:+ l := by
  induction l using List.reverseRecOn with
  | nil => exact List.suffix_rfl
  | append_singleton l a ih =>
      cases ha : p a with
      | true =>
          rw [sinceLast_append_cons l ha (by simp)]
          exact List.suffix_append _ _
      | false =>
          rw [sinceLast_append l (by simpa using ha)]
          obtain ⟨pre, hpre⟩ := ih
          exact ⟨pre, by rw [← List.append_assoc, hpre]⟩

/-- What stands before an entry of the last section in that section is the last section
of what stands before it in the log. -/
theorem sinceLast_split {a : α} {pre post : List α} (l : List α) (ha : p a = false)
    (h : sinceLast p l = pre ++ a :: post) :
    ∃ before, l = before ++ a :: post ∧ sinceLast p before = pre := by
  induction l using List.reverseRecOn generalizing post with
  | nil => simp at h
  | append_singleton l b ih =>
      cases hb : p b with
      | true =>
          rw [sinceLast_append_cons l hb (by simp)] at h
          obtain ⟨-, rfl⟩ : pre = [] ∧ b = a := by
            cases pre with
            | nil => exact ⟨rfl, (List.cons.inj h).1⟩
            | cons c pre => simp at h
          rw [hb] at ha
          cases ha
      | false =>
          rw [sinceLast_append l (by simpa using hb)] at h
          cases post using List.reverseRecOn with
          | nil =>
              obtain ⟨hpre, hba⟩ := List.append_inj' h rfl
              obtain ⟨rfl, -⟩ := List.cons.inj hba
              exact ⟨l, rfl, hpre⟩
          | append_singleton post c =>
              rw [← List.cons_append, ← List.append_assoc] at h
              obtain ⟨hpre, hbc⟩ := List.append_inj' h rfl
              obtain ⟨rfl, -⟩ := List.cons.inj hbc
              obtain ⟨before, rfl, hbefore⟩ := ih hpre
              exact ⟨before, by simp, hbefore⟩

/-! ### Sorted histories -/

/-- A list sorted by a rank is what lies below a bound, then the rest. -/
theorem filter_append_of_sorted {f : α → ℕ} {l : List α} (n : ℕ)
    (h : l.Pairwise fun a b => f a ≤ f b) :
    l.filter (fun a => f a < n) ++ l.filter (fun a => n ≤ f a) = l := by
  induction l with
  | nil => rfl
  | cons a l ih =>
      obtain ⟨hle, hsort⟩ := List.pairwise_cons.mp h
      by_cases ha : f a < n
      · have hge : ¬ n ≤ f a := Nat.not_le_of_lt ha
        simp only [List.filter_cons, ha, hge, decide_true, decide_false, if_true,
          Bool.false_eq_true, if_false, List.cons_append, ih hsort]
      · -- from the first entry at the bound on, nothing is below it
        have hnone : (a :: l).filter (fun b => f b < n) = [] := by
          refine List.filter_eq_nil_iff.mpr fun b hb => ?_
          rcases List.mem_cons.mp hb with rfl | hb
          · simpa using ha
          · have := hle b hb
            simp only [decide_eq_true_eq]
            omega
        have hall : (a :: l).filter (fun b => n ≤ f b) = a :: l := by
          refine List.filter_eq_self.mpr fun b hb => ?_
          rcases List.mem_cons.mp hb with rfl | hb
          · simpa using ha
          · have := hle b hb
            simp only [decide_eq_true_eq]
            omega
        rw [hnone, hall, List.nil_append]

/-- A list sorted by a bounded rank is the entries of each rank, one rank after another. -/
theorem eq_flatMap_of_sorted {f : α → ℕ} (n : ℕ) :
    ∀ {l : List α}, l.Pairwise (fun a b => f a ≤ f b) → (∀ a ∈ l, f a < n) →
      l = (List.range n).flatMap fun k => l.filter fun a => f a = k := by
  induction n with
  | zero =>
      intro l _ hlt
      rw [List.eq_nil_iff_forall_not_mem.mpr fun a ha => Nat.not_lt_zero _ (hlt a ha)]
      rfl
  | succ n ih =>
      intro l hsort hlt
      have hlow := ih (l := l.filter fun a => f a < n) (hsort.filter _) fun a ha => by
        simpa using (List.mem_filter.mp ha).2
      have hrank : ∀ k ∈ List.range n,
          (l.filter fun a => f a < n).filter (fun a => f a = k) = l.filter fun a => f a = k := by
        intro k hk
        rw [List.mem_range] at hk
        rw [List.filter_filter]
        refine List.filter_congr fun a _ => ?_
        rw [← Bool.decide_and]
        exact decide_eq_decide.mpr ⟨And.left, fun h => ⟨h, by omega⟩⟩
      have htop : l.filter (fun a => n ≤ f a) = l.filter fun a => f a = n := by
        refine List.filter_congr fun a ha => decide_eq_decide.mpr ?_
        have := hlt a ha
        omega
      rw [List.range_succ, List.flatMap_append, List.flatMap_singleton, ← htop,
        ← List.flatMap_congr hrank, ← hlow, filter_append_of_sorted n hsort]

/-! ### Justified logs -/

/-- Every entry is justified by what stands before it. -/
def Justified (E : List α → α → Prop) (l : List α) : Prop :=
  ∀ pre a post, l = pre ++ a :: post → E pre a

theorem justified_nil : Justified E ([] : List α) := by
  intro pre a post h
  simp at h

/-- A log with one more entry at its front. -/
theorem justified_cons {a : α} {l : List α} (ha : E [] a)
    (hl : Justified (fun pre => E (a :: pre)) l) : Justified E (a :: l) := by
  intro pre b post h
  cases pre with
  | nil =>
      obtain ⟨rfl, -⟩ := List.cons.inj h
      exact ha
  | cons c pre =>
      obtain ⟨rfl, hrest⟩ := List.cons.inj h
      exact hl pre b post hrest

theorem justified_singleton {a : α} (ha : E [] a) : Justified E [a] :=
  justified_cons ha justified_nil

/-- New entries are justified by the old log and by each other. -/
theorem Justified.append {l L : List α} (hl : Justified E l)
    (hL : Justified (fun pre => E (l ++ pre)) L) : Justified E (l ++ L) := by
  intro pre a post h
  rcases List.append_eq_append_iff.mp h with ⟨mid, hpre, hmid⟩ | ⟨mid, hl', hmid⟩
  · subst hpre
    exact hL mid a post hmid
  · cases mid with
    | nil =>
        simp only [List.append_nil] at hl'
        simp only [List.nil_append] at hmid
        subst hl'
        simpa using hL [] a post hmid.symm
    | cons b mid =>
        obtain ⟨rfl, -⟩ := List.cons.inj hmid
        exact hl pre a mid hl'

/-- What holds between each entry and those before it holds pairwise. -/
theorem Justified.pairwise {R : α → α → Prop} {l : List α}
    (h : Justified (fun pre a => ∀ b ∈ pre, R b a) l) : l.Pairwise R := by
  induction l using List.reverseRecOn with
  | nil => exact .nil
  | append_singleton l a ih =>
      refine List.pairwise_append.mpr ⟨ih fun pre b post hl => ?_, List.pairwise_singleton _ _, ?_⟩
      · exact h pre b (post ++ [a]) (by rw [hl]; simp)
      · intro b hb a' ha'
        rw [List.mem_singleton.mp ha']
        exact h l a [] rfl b hb

theorem Justified.mono {l : List α} (h : Justified E l)
    (himp : ∀ pre a, a ∈ l → E pre a → F pre a) : Justified F l := by
  intro pre a post hl
  exact himp pre a (by rw [hl]; simp) (h pre a post hl)

end Lib
