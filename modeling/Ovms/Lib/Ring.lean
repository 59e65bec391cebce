import Mathlib.Data.List.Basic

/-!
# Bounded Queues and Rings

A bounded queue, and the array that a program keeps one in. The array is a ring: an index
that runs over its end starts again at the beginning. The queue is what a walk over the
ring finds from the index of its oldest element on, a *window* of as many cells as the
queue has elements. The cells outside the window keep what was last stored in them.

## Main results

* `Fifo.Moves.trans`: **the queue law** — what was put in is what came out, in the same
  order, and then what is still there.
* `window_set_slot`: a write behind the window appends to it.
* `window_add`: a window is cut anywhere.
-/

namespace Lib

/-! ### Bounded queues -/

/-- A queue of bounded capacity: its elements, oldest first. -/
structure Fifo (α : Type*) (capacity : ℕ) where
  items : List α
  bound : items.length ≤ capacity

namespace Fifo

variable {α : Type*} {capacity : ℕ}

/-- Queues with the same elements are the same. -/
@[ext] theorem ext {q r : Fifo α capacity} (h : q.items = r.items) : q = r := by
  obtain ⟨items, bound⟩ := q
  obtain ⟨_, _⟩ := r
  obtain rfl : items = _ := h
  rfl

/-- The queue with nothing in it. -/
def empty : Fifo α capacity := ⟨[], Nat.zero_le _⟩

/-- How many elements still fit. -/
def free (q : Fifo α capacity) : ℕ := capacity - q.items.length

/-- Put elements in, all of them or, when they do not fit, none. -/
def push (q : Fifo α capacity) (xs : List α) : Fifo α capacity :=
  if h : (q.items ++ xs).length ≤ capacity then ⟨q.items ++ xs, h⟩ else q

/-- Take the `n` oldest elements out. -/
def drop (q : Fifo α capacity) (n : ℕ) : Fifo α capacity :=
  ⟨q.items.drop n, List.length_drop ▸ Nat.le_trans (Nat.sub_le _ _) q.bound⟩

/-- What fits is appended. -/
theorem items_push {q : Fifo α capacity} {xs : List α} (h : xs.length ≤ q.free) :
    (q.push xs).items = q.items ++ xs := by
  have hle : (q.items ++ xs).length ≤ capacity := by
    have := q.bound
    rw [free] at h
    rw [List.length_append]
    omega
  rw [push, dif_pos hle]

@[simp] theorem push_nil (q : Fifo α capacity) : q.push [] = q :=
  ext ((items_push (Nat.zero_le _)).trans (List.append_nil _))

@[simp] theorem items_drop (q : Fifo α capacity) (n : ℕ) : (q.drop n).items = q.items.drop n :=
  rfl

@[simp] theorem drop_zero (q : Fifo α capacity) : q.drop 0 = q := rfl

theorem drop_drop (q : Fifo α capacity) (m n : ℕ) : (q.drop m).drop n = q.drop (m + n) :=
  ext (List.drop_drop ..)

/-- A step that puts elements in and takes elements out: what went in, behind what was
there, is what came out and what is there then. -/
def Moves (q r : Fifo α capacity) (received sent : List α) : Prop :=
  q.items ++ received = sent ++ r.items

theorem Moves.refl (q : Fifo α capacity) : Moves q q [] [] := List.append_nil _

/-- **The queue law**, for two steps: what went in is what came out, in the same order, and
then what is still there. -/
theorem Moves.trans {q r s : Fifo α capacity} {i₁ o₁ i₂ o₂ : List α} (h₁ : Moves q r i₁ o₁)
    (h₂ : Moves r s i₂ o₂) : Moves q s (i₁ ++ i₂) (o₁ ++ o₂) := by
  rw [Moves] at h₁ h₂ ⊢
  rw [← List.append_assoc, h₁, List.append_assoc, h₂, List.append_assoc]

theorem moves_push {q : Fifo α capacity} {xs : List α} (h : xs.length ≤ q.free) :
    Moves q (q.push xs) xs [] :=
  (items_push h).symm

theorem moves_drop (q : Fifo α capacity) (n : ℕ) : Moves q (q.drop n) [] (q.items.take n) := by
  rw [Moves, List.append_nil]
  exact (List.take_append_drop n q.items).symm

end Fifo

/-! ### Indices on a ring -/

/-- The index a ring goes on with: over the end is the beginning. -/
def wrap (size i : ℕ) : ℕ := if i ≥ size then 0 else i

/-- The index `n` cells after `i`. -/
def slot (size : ℕ) : ℕ → ℕ → ℕ
  | i, 0 => i
  | i, n + 1 => slot size (wrap size (i + 1)) n

theorem wrap_lt {size i : ℕ} (h : 0 < size) : wrap size i < size := by
  rw [wrap]
  split <;> omega

/-- Up to one round, the ring is left at most once. -/
theorem slot_eq {size : ℕ} : ∀ {n i : ℕ}, i < size → n ≤ size →
    slot size i n = if i + n < size then i + n else i + n - size := by
  intro n
  induction n with
  | zero =>
      intro i hi _
      rw [if_pos (show i + 0 < size from hi)]
      rfl
  | succ n ih =>
      intro i hi hn
      rw [slot, ih (wrap_lt (by omega)) (by omega), wrap]
      split <;> split <;> split <;> omega

theorem slot_lt {size n i : ℕ} (hi : i < size) (hn : n ≤ size) : slot size i n < size := by
  rw [slot_eq hi hn]
  split <;> omega

theorem slot_ne {size m n i : ℕ} (hi : i < size) (hm : m < n) (hn : n < size) :
    slot size i m ≠ slot size i n := by
  rw [slot_eq hi (by omega), slot_eq hi (by omega)]
  split <;> split <;> omega

/-- A way is made in two parts. -/
theorem slot_add {size : ℕ} : ∀ {m n i : ℕ}, slot size i (m + n) = slot size (slot size i m) n := by
  intro m n
  induction m with
  | zero =>
      intro i
      rw [Nat.zero_add]
      rfl
  | succ m ih =>
      intro i
      rw [Nat.succ_add, slot, ih, slot]

theorem wrap_slot {size n i : ℕ} : wrap size (slot size i n + 1) = slot size i (n + 1) := by
  rw [slot_add]
  rfl

/-! ### Windows -/

section Window

variable {α : Type*} [Inhabited α]

/-- The `n` cells of a ring from index `i` on. -/
def window (cells : List α) : ℕ → ℕ → List α
  | _, 0 => []
  | i, n + 1 => cells.getD i default :: window cells (wrap cells.length (i + 1)) n

@[simp] theorem length_window (cells : List α) (i n : ℕ) : (window cells i n).length = n := by
  induction n generalizing i with
  | zero => rfl
  | succ n ih => rw [window, List.length_cons, ih]

/-- **A window is cut anywhere.** -/
theorem window_add (cells : List α) (i m n : ℕ) :
    window cells i (m + n) = window cells i m ++ window cells (slot cells.length i m) n := by
  induction m generalizing i with
  | zero =>
      rw [Nat.zero_add]
      rfl
  | succ m ih => rw [Nat.succ_add, window, ih, window, slot, List.cons_append]

theorem take_window (cells : List α) {i m n : ℕ} (h : m ≤ n) :
    (window cells i n).take m = window cells i m := by
  obtain ⟨k, rfl⟩ := Nat.exists_eq_add_of_le h
  rw [window_add, List.take_left' (length_window ..)]

/-- A write outside a window does not show in it. -/
theorem window_set_of_ne {cells : List α} {j : ℕ} (x : α) : ∀ {n i : ℕ},
    (∀ k < n, slot cells.length i k ≠ j) → window (cells.set j x) i n = window cells i n := by
  intro n
  induction n with
  | zero =>
      intro i _
      rfl
  | succ n ih =>
      intro i h
      have hfirst : i ≠ j := h 0 (Nat.succ_pos n)
      rw [window, window, List.length_set, ih fun k hk => h (k + 1) (Nat.succ_lt_succ hk),
        List.getD_eq_getElem?_getD, List.getElem?_set_ne hfirst.symm, ← List.getD_eq_getElem?_getD]

/-- **A write behind the window appends to it**, as long as the ring is not full. -/
theorem window_set_slot {cells : List α} {i n : ℕ} (x : α) (hi : i < cells.length)
    (hn : n < cells.length) :
    window (cells.set (slot cells.length i n) x) i (n + 1) = window cells i n ++ [x] := by
  have hlast : (cells.set (slot cells.length i n) x).getD (slot cells.length i n) default = x := by
    rw [List.getD_eq_getElem?_getD, List.getElem?_set_self (slot_lt hi (Nat.le_of_lt hn))]
    rfl
  rw [window_add, List.length_set,
    window_set_of_ne x fun k hk => slot_ne hi hk hn, window, hlast]
  rfl

end Window

end Lib
