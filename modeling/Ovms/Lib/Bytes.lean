import Mathlib.Data.List.Basic
import Mathlib.Data.Nat.Bitwise

/-!
# Fixed-Width Words, Checked Blocks, and Slot Tables

Three small toolkits for programs that work on byte buffers.

The first reads the bit operations of fixed-width words as arithmetic: a mask of the
low bits is a remainder, a right shift is a quotient, and a disjoint `|||` is a sum.

The second is memory access with a bound. `readBlock` and `copyBlock` answer `none`
exactly when the access would leave the buffer, so a program written over them has an
out-of-bounds access if and only if it returns `none`.

The third is the search of a table from its end, `lastIdx?`.

## Main results

* `shiftLeft_or_eq`: assembling two bit fields is `high * 2 ^ k + low`.
* `readBlock_eq_some`, `copyBlock_eq_some`: the accesses that stay inside.
* `take_copyBlock`: what a buffer holds after appending a block at its fill level.
* `lastIdx?_eq_some_iff`: the backward search finds the last match.
-/

namespace Lib

/-! ### Bit fields as arithmetic -/

theorem shiftLeft_or_eq {low k : ℕ} (high : ℕ) (h : low < 2 ^ k) :
    high <<< k ||| low = high * 2 ^ k + low := by
  rw [← Nat.shiftLeft_add_eq_or_of_lt h, Nat.shiftLeft_eq]

theorem UInt8.toNat_and_mask {m : UInt8} {k : ℕ} (x : UInt8) (h : m.toNat = 2 ^ k - 1) :
    (x &&& m).toNat = x.toNat % 2 ^ k := by
  rw [UInt8.toNat_and, h, Nat.and_two_pow_sub_one_eq_mod]

theorem UInt16.toNat_and_mask {m : UInt16} {k : ℕ} (x : UInt16) (h : m.toNat = 2 ^ k - 1) :
    (x &&& m).toNat = x.toNat % 2 ^ k := by
  rw [UInt16.toNat_and, h, Nat.and_two_pow_sub_one_eq_mod]

theorem UInt16.toNat_ofInt (z : ℤ) : (UInt16.ofInt z).toNat = (z % 65536).toNat := by
  rw [UInt16.ofInt, UInt16.toNat_ofNat']
  omega

theorem UInt32.toNat_ofInt (z : ℤ) : (UInt32.ofInt z).toNat = (z % 4294967296).toNat := by
  rw [UInt32.ofInt, UInt32.toNat_ofNat']
  omega

theorem UInt32.ofInt_toNat (x : UInt32) : UInt32.ofInt x.toNat = x := by
  have hlt := x.toNat_lt
  apply UInt32.toNat_inj.mp
  rw [UInt32.toNat_ofInt]
  omega

theorem UInt16.ofInt_sub_of_le {a b : ℕ} (h : b ≤ a) :
    UInt16.ofInt (a - b) = UInt16.ofNat (a - b) := by
  apply UInt16.toNat_inj.mp
  rw [UInt16.toNat_ofInt, UInt16.toNat_ofNat']
  omega

/-- A difference of 16-bit words goes below zero exactly when it ends up above the word it
is taken from. -/
theorem UInt16.sub_le_self_iff (a b : UInt16) : a - b ≤ a ↔ b ≤ a := by
  have ha := a.toNat_lt
  have hb := b.toNat_lt
  rw [UInt16.le_iff_toNat_le, UInt16.le_iff_toNat_le, UInt16.toNat_sub]
  omega

/-! ### Checked block access -/

section Block

variable {α : Type*}

/-- Read `n` cells at `off`, or `none` when the block is not inside the buffer. -/
def readBlock (src : List α) (off n : ℕ) : Option (List α) :=
  if off + n ≤ src.length then some ((src.drop off).take n) else none

/-- Overwrite the cells at `off` with `src`, or `none` when they are not inside the
buffer. -/
def copyBlock (dst : List α) (off : ℕ) (src : List α) : Option (List α) :=
  if off + src.length ≤ dst.length then
    some (dst.take off ++ src ++ dst.drop (off + src.length))
  else none

theorem readBlock_eq_some {src : List α} {off n : ℕ} (h : off + n ≤ src.length) :
    readBlock src off n = some ((src.drop off).take n) :=
  if_pos h

/-- A read succeeds exactly inside the buffer. -/
theorem readBlock_isSome {src : List α} {off n : ℕ} :
    (readBlock src off n).isSome ↔ off + n ≤ src.length := by
  rw [readBlock]
  split
  · rename_i h
    exact iff_of_true rfl h
  · rename_i h
    exact iff_of_false nofun h

theorem copyBlock_eq_some (dst : List α) (off : ℕ) (src : List α)
    (h : off + src.length ≤ dst.length) :
    copyBlock dst off src = some (dst.take off ++ src ++ dst.drop (off + src.length)) :=
  if_pos h

/-- A copy never changes the size of the buffer. -/
theorem length_of_copyBlock {dst src dst' : List α} {off : ℕ}
    (h : copyBlock dst off src = some dst') : dst'.length = dst.length := by
  rw [copyBlock] at h
  split at h
  · obtain rfl := Option.some.inj h
    simp only [List.length_append, List.length_take, List.length_drop]
    omega
  · cases h

/-- Appending a block at the fill level `off` extends the filled prefix by that block. -/
theorem take_copyBlock {dst src dst' : List α} {off : ℕ}
    (h : copyBlock dst off src = some dst') :
    dst'.take (off + src.length) = dst.take off ++ src := by
  rw [copyBlock] at h
  split at h
  · rename_i hle
    obtain rfl := Option.some.inj h
    have hlen : (dst.take off ++ src).length = off + src.length := by
      rw [List.length_append, List.length_take]
      omega
    exact List.take_left' hlen
  · cases h

end Block

/-! ### Searching a table from its end -/

section Search

variable {α : Type*} {p : α → Bool}

/-- The highest index whose entry satisfies `p`: what a loop from the last entry down to
the first returns at its first hit. -/
def lastIdx? (p : α → Bool) : List α → Option ℕ
  | [] => none
  | x :: xs =>
      match lastIdx? p xs with
      | some i => some (i + 1)
      | none => if p x then some 0 else none

/-- The backward search fails exactly when no entry matches. -/
theorem lastIdx?_eq_none_iff {xs : List α} : lastIdx? p xs = none ↔ ∀ x ∈ xs, p x = false := by
  induction xs with
  | nil => simp [lastIdx?]
  | cons x xs ih =>
      rw [lastIdx?, List.forall_mem_cons, ← ih]
      cases lastIdx? p xs with
      | none => cases p x <;> simp
      | some i => simp

/-- The backward search finds the last matching entry. -/
theorem lastIdx?_eq_some_iff {xs : List α} {i : ℕ} :
    lastIdx? p xs = some i ↔
      (∃ x, xs[i]? = some x ∧ p x = true) ∧ ∀ j y, i < j → xs[j]? = some y → p y = false := by
  induction xs generalizing i with
  | nil => simp [lastIdx?]
  | cons x xs ih =>
      rw [lastIdx?]
      cases hxs : lastIdx? p xs with
      | some k =>
          simp only [Option.some.injEq]
          obtain ⟨⟨y, hy, hpy⟩, hlast⟩ := ih.mp hxs
          constructor
          · rintro rfl
            refine ⟨⟨y, hy, hpy⟩, fun j z hj hz => ?_⟩
            obtain ⟨j, rfl⟩ : ∃ j', j = j' + 1 := ⟨j - 1, by omega⟩
            exact hlast j z (by omega) hz
          · rintro ⟨⟨z, hz, hpz⟩, hafter⟩
            -- neither of the two hits may lie after the other
            rcases Nat.lt_trichotomy i (k + 1) with hlt | heq | hgt
            · have := hafter (k + 1) y hlt hy
              rw [hpy] at this
              cases this
            · exact heq.symm
            · obtain ⟨i, rfl⟩ : ∃ i', i = i' + 1 := ⟨i - 1, by omega⟩
              have := hlast i z (by omega) hz
              rw [hpz] at this
              cases this
      | none =>
          have hnone := lastIdx?_eq_none_iff.mp hxs
          constructor
          · intro h
            by_cases hpx : p x = true
            · rw [if_pos hpx] at h
              obtain rfl := Option.some.inj h
              refine ⟨⟨x, rfl, hpx⟩, fun j z hj hz => ?_⟩
              obtain ⟨j, rfl⟩ : ∃ j', j = j' + 1 := ⟨j - 1, by omega⟩
              exact hnone z (List.mem_of_getElem? hz)
            · rw [if_neg hpx] at h
              cases h
          · rintro ⟨⟨z, hz, hpz⟩, -⟩
            cases i with
            | zero =>
                obtain rfl := Option.some.inj hz
                rw [if_pos hpz]
            | succ i =>
                have := hnone z (List.mem_of_getElem? hz)
                rw [hpz] at this
                cases this

end Search

end Lib
