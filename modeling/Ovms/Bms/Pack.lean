import Mathlib.Data.List.Induction
import Mathlib.Order.Bounds.Basic
import Mathlib.Order.OrderDual
import Ovms.Bms.Model

/-!
# The Extremes of a Pack

The loop of a complete series (`components/vehicle/vehicle_bms.cpp`) that finds the least and the
greatest reading of a pack. Both begin at zero, and zero is taken for no reading yet: a reading
that is zero is forgotten when the next one comes.
-/

open Lib

namespace Ovms.Bms

/-! ### The loop -/

/-- One reading, for an extreme that begins at `zero`. -/
def pick {α : Type} [DecidableEq α] (zero : α) (before : α → α → Prop) [DecidableRel before]
    (extreme value : α) : α :=
  if extreme = zero ∨ before value extreme then value else extreme

section Loop

variable {F D X : Type} [Arith F] [Arith D] [Floats F D] [DecidableEq F]

/-- The minimum and the maximum of a pack. -/
def packExtremes (values : List F) : F × F :=
  values.foldl (fun r value => (pick (0 : ℤ) (· < ·) r.1 value, pick (0 : ℤ) (· > ·) r.2 value))
    ((0 : ℤ), (0 : ℤ))

/-- `ms_v_bat_pack_vmin` and `ms_v_bat_pack_vmax`, or those of the temperatures, as a reading
publishes them that completes its series. -/
def Series.packPublished (s : Series F X) (index : ℤ) (value : F) : Option (F × F) :=
  if s.Accepts index value then do
    let s ← s.store index.toNat value
    if s.bitsetC = s.readings then do
      let values ← readBlock s.values 0 s.readings
      some (packExtremes values)
    else none
  else none

end Loop

/-- The readings of the cells, behind one of them. -/
def Series.current {F X : Type} (s : Series F X) (index : ℤ) (value : F) : List F :=
  (s.values.set index.toNat value).take s.readings

/-! ### The least reading -/

section Order

variable {α : Type} [LinearOrder α] {zero : α} {l : List α}

/-- The elements of a list. -/
def elements (l : List α) : Set α := {x | x ∈ l}

theorem isLeast_singleton_iff {a v : α} : IsLeast (elements [v]) a ↔ a = v := by
  constructor
  · exact fun h => List.mem_singleton.mp h.1
  · rintro rfl
    exact ⟨List.mem_singleton_self a, fun x hx => (List.mem_singleton.mp hx).ge⟩

/-- One element more. -/
theorem isLeast_elements_concat {a v : α} (h : IsLeast (elements l) a) :
    IsLeast (elements (l ++ [v])) (min a v) := by
  constructor
  · rcases min_choice a v with heq | heq
    · rw [heq]
      exact List.mem_append_left [v] h.1
    · rw [heq]
      exact List.mem_append_right l (List.mem_singleton_self v)
  · intro x hx
    rcases List.mem_append.mp hx with hx | hx
    · exact (min_le_left a v).trans (h.2 hx)
    · obtain rfl := List.mem_singleton.mp hx
      exact min_le_right a x

/-- What the loop holds: zero as long as zero is the least reading and the last, or there is none;
else the least reading, or one above zero if that is the least. -/
structure Holds (zero : α) (l : List α) (m : α) : Prop where
  eq_zero_iff : m = zero ↔ l = [] ∨ IsLeast (elements l) zero ∧ l.getLast? = some zero
  least : l ≠ [] → ¬ IsLeast (elements l) zero → IsLeast (elements l) m
  zero_le : IsLeast (elements l) zero → zero ≤ m

theorem Holds.nil : Holds zero [] zero :=
  ⟨iff_of_true rfl (.inl rfl), fun h => absurd rfl h, fun _ => le_rfl⟩

/-- The first reading. -/
theorem Holds.singleton (zero v : α) : Holds zero [v] v := by
  refine ⟨?_, fun _ _ => isLeast_singleton_iff.mpr rfl, fun h => (isLeast_singleton_iff.mp h).le⟩
  rw [isLeast_singleton_iff, List.getLast?_singleton, Option.some_inj]
  constructor
  · rintro rfl
    exact .inr ⟨rfl, rfl⟩
  · rintro (h | ⟨-, h⟩)
    · exact absurd h (List.cons_ne_nil _ _)
    · exact h

/-- Where the loop holds the least reading, and it is not zero. -/
theorem Holds.of_isLeast {v m : α} (h : IsLeast (elements (l ++ [v])) m)
    (hlast : m = zero → v = zero) : Holds zero (l ++ [v]) m := by
  refine ⟨?_, fun _ _ => h, fun hzero => hzero.unique h ▸ le_rfl⟩
  rw [List.getLast?_concat, Option.some_inj]
  constructor
  · intro hm
    exact .inr ⟨hm ▸ h, hlast hm⟩
  · rintro (hnil | ⟨hzero, -⟩)
    · exact absurd hnil (List.append_ne_nil_of_right_ne_nil _ (List.cons_ne_nil _ _))
    · exact h.unique hzero

variable [dec : DecidableEq α] [decLt : DecidableRel fun a b : α => a < b]

omit dec decLt in
/-- Behind readings of which zero is the least, a reading is the least one unless zero still is. -/
theorem lt_of_not_isLeast {v : α} (hleast : IsLeast (elements l) zero)
    (h : ¬ IsLeast (elements (l ++ [v])) zero) : v < zero ∧ IsLeast (elements (l ++ [v])) v := by
  have hmin := isLeast_elements_concat (v := v) hleast
  have hlt : v < zero := by
    by_contra hge
    rw [min_eq_left (not_lt.mp hge)] at hmin
    exact h hmin
  rw [min_eq_right hlt.le] at hmin
  exact ⟨hlt, hmin⟩

theorem pick_of_ne {m : α} (hm : m ≠ zero) (v : α) : pick zero (· < ·) m v = min m v := by
  rw [pick]
  by_cases hlt : v < m
  · rw [if_pos (.inr hlt), min_eq_right hlt.le]
  · rw [if_neg (not_or.mpr ⟨hm, hlt⟩), min_eq_left (not_lt.mp hlt)]

/-- **One reading** in the loop. -/
theorem Holds.pick {m : α} (h : Holds zero l m) (v : α) :
    Holds zero (l ++ [v]) (pick zero (· < ·) m v) := by
  by_cases hm : m = zero
  · have hpick : Bms.pick zero (· < ·) m v = v := if_pos (.inl hm)
    rw [hpick]
    rcases h.eq_zero_iff.mp hm with rfl | ⟨hleast, -⟩
    · exact .singleton zero v
    · -- zero is forgotten
      by_cases hstill : IsLeast (elements (l ++ [v])) zero
      · refine ⟨?_, fun _ hnot => absurd hstill hnot, fun _ => ?_⟩
        · rw [List.getLast?_concat, Option.some_inj]
          exact ⟨fun heq => .inr ⟨hstill, heq⟩, fun hor => (hor.resolve_left
            (List.append_ne_nil_of_right_ne_nil _ (List.cons_ne_nil _ _))).2⟩
        · exact hstill.2 (List.mem_append_right l (List.mem_singleton_self v))
      · exact .of_isLeast (lt_of_not_isLeast hleast hstill).2 id
  · rw [pick_of_ne hm]
    have hmin : min m v = zero → v = zero := by
      intro heq
      rcases min_choice m v with hchoice | hchoice
      · exact absurd (hchoice.symm.trans heq) hm
      · exact hchoice.symm.trans heq
    have hne : l ≠ [] := fun hnil => hm (h.eq_zero_iff.mpr (.inl hnil))
    by_cases hleast : IsLeast (elements l) zero
    · by_cases hstill : IsLeast (elements (l ++ [v])) zero
      · have hv : zero ≤ v := hstill.2 (List.mem_append_right l (List.mem_singleton_self v))
        have hzero : zero ≤ m := h.zero_le hleast
        refine ⟨?_, fun _ hnot => absurd hstill hnot, fun _ => le_min hzero hv⟩
        rw [List.getLast?_concat, Option.some_inj]
        constructor
        · exact fun heq => .inr ⟨hstill, hmin heq⟩
        · rintro (hnil | ⟨-, rfl⟩)
          · exact absurd hnil (List.append_ne_nil_of_right_ne_nil _ (List.cons_ne_nil _ _))
          · exact min_eq_right hzero
      · obtain ⟨hlt, hv⟩ := lt_of_not_isLeast hleast hstill
        have hle : v ≤ m := hlt.le.trans (h.zero_le hleast)
        rw [min_eq_right hle]
        exact .of_isLeast hv id
    · exact .of_isLeast (isLeast_elements_concat (h.least hne hleast)) hmin

theorem holds_foldl (zero : α) (l : List α) :
    Holds zero l (l.foldl (Bms.pick zero (· < ·)) zero) := by
  induction l using List.reverseRecOn with
  | nil => exact .nil
  | append_singleton l v ih =>
      rw [List.foldl_append]
      exact ih.pick v

/-- **When the loop finds the least reading**: if that is zero, it is the last. -/
theorem isLeast_foldl_pick_iff (hne : l ≠ []) :
    IsLeast (elements l) (l.foldl (Bms.pick zero (· < ·)) zero) ↔
      (IsLeast (elements l) zero → l.getLast? = some zero) := by
  have h := holds_foldl zero l
  constructor
  · intro hleast hzero
    exact ((h.eq_zero_iff.mp (hleast.unique hzero)).resolve_left hne).2
  · intro hlast
    by_cases hzero : IsLeast (elements l) zero
    · rw [h.eq_zero_iff.mpr (.inr ⟨hzero, hlast hzero⟩)]
      exact hzero
    · exact h.least hne hzero

omit decLt in
theorem isGreatest_foldl_pick_iff [decGt : DecidableRel fun a b : α => a > b] (hne : l ≠ []) :
    IsGreatest (elements l) (l.foldl (Bms.pick zero (· > ·)) zero) ↔
      (IsGreatest (elements l) zero → l.getLast? = some zero) :=
  @isLeast_foldl_pick_iff αᵒᵈ _ zero l dec decGt hne

end Order

/-! ### What is published -/

/-- Both loops are separate. -/
theorem packExtremes_eq {F : Type} [Arith F] [DecidableEq F] (values : List F) :
    packExtremes values =
      (values.foldl (pick ((0 : ℤ) : F) (· < ·)) ((0 : ℤ) : F),
        values.foldl (pick ((0 : ℤ) : F) (· > ·)) ((0 : ℤ) : F)) := by
  have hpair : ∀ (f g : F → F → F) (lo hi : F),
      values.foldl (fun r value => (f r.1 value, g r.2 value)) (lo, hi) =
        (values.foldl f lo, values.foldl g hi) := by
    intro f g
    induction values with
    | nil => exact fun _ _ => rfl
    | cons value values ih => exact fun lo hi => ih (f lo value) (g hi value)
  exact hpair _ _ _ _

/-- **When the extremes of a pack are right**: if one of them is zero, it is the last reading. -/
theorem packExtremes_iff {values : List ℚ} (hne : values ≠ []) :
    IsLeast (elements values) (packExtremes values).1 ∧
        IsGreatest (elements values) (packExtremes values).2 ↔
      (IsLeast (elements values) 0 ∨ IsGreatest (elements values) 0 →
        values.getLast? = some 0) := by
  rw [packExtremes_eq, or_imp]
  exact and_congr (isLeast_foldl_pick_iff hne) (isGreatest_foldl_pick_iff hne)

section Published

variable {F D X : Type} [Arith F] {s s₁ : Series F X} {i : ℕ} {value : F}

omit [Arith F] in
theorem write_eq_some_iff {α : Type} {l l' : List α} {i : ℕ} {a : α} :
    write l i a = some l' ↔ i < l.length ∧ l.set i a = l' := by
  rw [write]
  split <;> simp [*]

/-- The extremes of a cell are all that changes with them. -/
theorem eq_of_extremes (h : s.extremes i value = some s₁) :
    s₁ = { s with mins := s₁.mins, maxs := s₁.maxs } := by
  rw [Series.extremes] at h
  split at h
  · obtain ⟨mins, -, h⟩ := Option.bind_eq_some_iff.mp h
    obtain ⟨maxs, -, h⟩ := Option.bind_eq_some_iff.mp h
    exact Option.some.inj h ▸ rfl
  · obtain ⟨lowest, -, h⟩ := Option.bind_eq_some_iff.mp h
    split at h
    · obtain ⟨mins, -, h⟩ := Option.bind_eq_some_iff.mp h
      exact Option.some.inj h ▸ rfl
    · obtain ⟨highest, -, h⟩ := Option.bind_eq_some_iff.mp h
      split at h
      · obtain ⟨maxs, -, h⟩ := Option.bind_eq_some_iff.mp h
        exact Option.some.inj h ▸ rfl
      · exact Option.some.inj h ▸ rfl

/-- A reading is stored, with the extremes of its cell. -/
theorem eq_of_store (h : s.store i value = some s₁) :
    i < s.values.length ∧
      Series.extremes { s with values := s.values.set i value } i value =
        some { s with values := s.values.set i value, mins := s₁.mins, maxs := s₁.maxs } ∧
      s₁ = { s with
        values := s.values.set i value, mins := s₁.mins, maxs := s₁.maxs
        bitsetC := s₁.bitsetC } := by
  obtain ⟨values, hvalues, h⟩ := Option.bind_eq_some_iff.mp h
  obtain ⟨hi, rfl⟩ := write_eq_some_iff.mp hvalues
  obtain ⟨s₂, hextremes, h⟩ := Option.bind_eq_some_iff.mp h
  obtain ⟨seen, -, h⟩ := Option.bind_eq_some_iff.mp h
  have hs₂ := eq_of_extremes hextremes
  obtain rfl := Option.some.inj h
  exact ⟨hi, hextremes.trans (congrArg some hs₂), by rw [hs₂]⟩

/-- **A reading that completes its series** publishes the extremes of all current readings. -/
theorem packPublished_eq_some [DecidableEq F] {index : ℤ} {p : F × F}
    (h : s.packPublished index value = some p) :
    p = packExtremes (s.current index value) ∧ s.current index value ≠ [] ∧
      ∃ s₁ : Series F X, readBlock s₁.values 0 s₁.readings = some (s.current index value) ∧
        ∀ check, s.setCell check index value = s₁.complete check := by
  rw [Series.packPublished] at h
  split at h
  · next haccepts =>
    obtain ⟨s₁, hstore, h⟩ := Option.bind_eq_some_iff.mp h
    obtain ⟨hlength, -, hs₁⟩ := eq_of_store hstore
    split at h
    · next hfull =>
      obtain ⟨values, hvalues, h⟩ := Option.bind_eq_some_iff.mp h
      have hcurrent : values = s.current index value := by
        have hblock := hvalues
        rw [hs₁, readBlock] at hblock
        split at hblock
        · exact (Option.some.inj hblock).symm
        · exact absurd hblock.symm (Option.some_ne_none _)
      have hne : s.current index value ≠ [] := by
        have hindex := haccepts.1
        rw [Series.current, ← List.length_pos_iff, List.length_take, List.length_set]
        omega
      refine ⟨hcurrent ▸ (Option.some.inj h).symm, hne, s₁, hcurrent ▸ hvalues, fun check => ?_⟩
      rw [Series.setCell, if_pos haccepts, hstore, Option.bind_eq_bind, Option.bind_some,
        if_pos hfull]
    · exact absurd h.symm (Option.some_ne_none _)
  · exact absurd h.symm (Option.some_ne_none _)

end Published

/-- **When the published extremes of a pack are right**: for every series of readings that a reading
completes, exactly if, where zero is an extreme, it is the reading of the last cell. -/
theorem packPublished_iff {X : Type} {s : Series ℚ X} {index : ℤ} {value lo hi : ℚ}
    (h : s.packPublished index value = some (lo, hi)) :
    IsLeast (elements (s.current index value)) lo ∧
        IsGreatest (elements (s.current index value)) hi ↔
      (IsLeast (elements (s.current index value)) 0 ∨
          IsGreatest (elements (s.current index value)) 0 →
        (s.current index value).getLast? = some 0) := by
  obtain ⟨hp, hne, -⟩ := packPublished_eq_some h
  obtain ⟨rfl, rfl⟩ := Prod.mk.inj hp
  exact packExtremes_iff hne

/-- Two cells, of which the first has been read. -/
def firstRead (value : ℚ) : Series ℚ Unit :=
  { OvmsVehicle.newSeries (-100) 100 with
    readings := 2
    values := [value, 0]
    mins := [0, 0]
    maxs := [0, 0]
    bitset := [true, false]
    bitsetC := 1 }

theorem packPublished_firstRead :
    IsLeast (elements ((firstRead 5).current 1 3)) 3 ∧
        IsGreatest (elements ((firstRead 5).current 1 3)) 5 ↔
      (IsLeast (elements ((firstRead 5).current 1 3)) 0 ∨
          IsGreatest (elements ((firstRead 5).current 1 3)) 0 →
        ((firstRead 5).current 1 3).getLast? = some 0) :=
  packPublished_iff (by decide)

/-- A reading of zero degrees is no minimum when one of three degrees follows. -/
theorem not_packPublished :
    (firstRead 0).packPublished 1 3 = some (3, 3) ∧
      ¬ IsLeast (elements ((firstRead 0).current 1 3)) 3 := by
  refine ⟨by decide, fun h => ?_⟩
  have hzero : (0 : ℚ) ∈ elements ((firstRead 0).current 1 3) := List.mem_cons_self
  exact absurd (h.2 hzero) (by decide)

end Ovms.Bms
