import Ovms.Bms.Pack
import Ovms.Bms.Tracking

/-!
# The Extremes of the Cells

The least and the greatest reading of each cell (`components/vehicle/vehicle_bms.cpp`). As long as
no series has been completed since the reset, a reading takes the place of both; then it only moves
them. So if a cell is read again before the first series is complete, its earlier reading is
forgotten.

A ledger beside the run holds all readings of a cell since the reset, and those that its extremes
are made of.
-/

open Lib

namespace Ovms.Bms

/-! ### The ledger -/

/-- The readings since a reset: whether a series has been completed, which cells of the current one
have been read, the readings of each cell, and those of them that count. -/
structure Ledger (F : Type) where
  complete : Bool
  read : ℕ → Bool
  given : ℕ → List F
  kept : ℕ → List F

namespace Ledger

variable {F : Type}

/-- Behind a reset. -/
def new : Ledger F := ⟨false, fun _ => false, fun _ => [], fun _ => []⟩

/-- A reading of one of `n` cells. It takes the place of the earlier ones before a series has been
completed, and joins them afterwards. -/
def note (g : Ledger F) (n i : ℕ) (value : F) : Ledger F :=
  let read := Function.update g.read i true
  let full : Bool := decide (∀ j < n, read j = true)
  { complete := g.complete || full
    read := if full then fun _ => false else read
    given := Function.update g.given i (g.given i ++ [value])
    kept := Function.update g.kept i (if g.complete then g.kept i ++ [value] else [value]) }

/-- What is called for a series with the limits and the cells of `s`. -/
def perform {X : Type} [Arith F] (s : Series F X) (g : Ledger F) : SeriesOp F → Ledger F
  | .setCell index value =>
      if s.Accepts index value then g.note s.readings index.toNat value else g
  | .restart => { g with read := fun _ => false }
  | .setCellArrangement _ _ | .checkChangeCellArrangement _ _ | .reset => g

section Note

variable {g : Ledger F} {n i j : ℕ} {value : F}

theorem kept_note_self : (g.note n i value).kept i =
    if g.complete then g.kept i ++ [value] else [value] :=
  Function.update_self i _ g.kept

theorem kept_note_of_ne (h : j ≠ i) : (g.note n i value).kept j = g.kept j :=
  Function.update_of_ne h _ g.kept

theorem given_note_self : (g.note n i value).given i = g.given i ++ [value] :=
  Function.update_self i _ g.given

theorem given_note_of_ne (h : j ≠ i) : (g.note n i value).given j = g.given j :=
  Function.update_of_ne h _ g.given

theorem complete_note_of_full (h : ∀ j < n, Function.update g.read i true j = true) :
    (g.note n i value).complete = true := by
  rw [note, decide_eq_true h, Bool.or_true]

theorem read_note_of_full (h : ∀ j < n, Function.update g.read i true j = true) :
    (g.note n i value).read = fun _ => false := by
  rw [note, decide_eq_true h, if_pos rfl]

theorem complete_note_of_not_full (h : ¬ ∀ j < n, Function.update g.read i true j = true) :
    (g.note n i value).complete = g.complete := by
  rw [note, decide_eq_false h, Bool.or_false]

theorem read_note_of_not_full (h : ¬ ∀ j < n, Function.update g.read i true j = true) :
    (g.note n i value).read = Function.update g.read i true := by
  rw [note, decide_eq_false h, if_neg Bool.false_ne_true]

end Note

end Ledger

/-- A reading, or the next series; no reset and no other number of cells. -/
def Records {F : Type} : SeriesOp F → Prop
  | .setCell _ _ | .restart => True
  | .setCellArrangement _ _ | .checkChangeCellArrangement _ _ | .reset => False

/-- The extremes of the cells are the least and the greatest of all that they were given. -/
def RightExtremes {X : Type} (s : Series ℚ X) (given : ℕ → List ℚ) : Prop :=
  ∀ j < s.readings, ∃ lo hi, s.mins[j]? = some lo ∧ s.maxs[j]? = some hi ∧
    IsLeast (elements (given j)) lo ∧ IsGreatest (elements (given j)) hi

/-! ### The extremes of one cell -/

section Cell

variable {X : Type} {s s₁ : Series ℚ X} {i : ℕ} {value lo hi : ℚ}

/-- Before a series has been completed. -/
theorem extremes_of_not_has (h : s.extremes i value = some s₁) (hhas : s.has = false) :
    i < s.mins.length ∧ i < s.maxs.length ∧ s₁.mins = s.mins.set i value ∧
      s₁.maxs = s.maxs.set i value := by
  rw [Series.extremes, if_pos hhas] at h
  obtain ⟨mins, hmins, h⟩ := Option.bind_eq_some_iff.mp h
  obtain ⟨maxs, hmaxs, h⟩ := Option.bind_eq_some_iff.mp h
  obtain ⟨hmin, rfl⟩ := write_eq_some_iff.mp hmins
  obtain ⟨hmax, rfl⟩ := write_eq_some_iff.mp hmaxs
  obtain rfl := Option.some.inj h
  exact ⟨hmin, hmax, rfl, rfl⟩

theorem set_of_getElem? {α : Type} {l : List α} {a : α} (h : l[i]? = some a) : l.set i a = l := by
  obtain ⟨hi, rfl⟩ := List.getElem?_eq_some_iff.mp h
  exact List.set_getElem_self hi

/-- Afterwards. -/
theorem extremes_of_has (h : s.extremes i value = some s₁) (hhas : s.has = true)
    (hlo : s.mins[i]? = some lo) (hhi : s.maxs[i]? = some hi) (hle : lo ≤ hi) :
    s₁.mins = s.mins.set i (min lo value) ∧ s₁.maxs = s.maxs.set i (max hi value) := by
  rw [Series.extremes, if_neg (by simp [hhas]), hlo, Option.bind_eq_bind,
    Option.bind_some] at h
  have hmax : s.maxs.set i hi = s.maxs := set_of_getElem? hhi
  have hmin : s.mins.set i lo = s.mins := set_of_getElem? hlo
  by_cases hlt : value < lo
  · rw [if_pos hlt] at h
    obtain ⟨mins, hmins, h⟩ := Option.bind_eq_some_iff.mp h
    obtain ⟨-, rfl⟩ := write_eq_some_iff.mp hmins
    obtain rfl := Option.some.inj h
    rw [min_eq_right hlt.le, max_eq_left (hlt.le.trans hle), hmax]
    exact ⟨rfl, rfl⟩
  · rw [if_neg hlt, hhi, Option.bind_some] at h
    rw [min_eq_left (not_lt.mp hlt), hmin]
    by_cases hgt : hi < value
    · rw [if_pos hgt] at h
      obtain ⟨maxs, hmaxs, h⟩ := Option.bind_eq_some_iff.mp h
      obtain ⟨-, rfl⟩ := write_eq_some_iff.mp hmaxs
      obtain rfl := Option.some.inj h
      rw [max_eq_right hgt.le]
      exact ⟨rfl, rfl⟩
    · rw [if_neg hgt] at h
      obtain rfl := Option.some.inj h
      rw [max_eq_left (not_lt.mp hgt), hmax]
      exact ⟨rfl, rfl⟩

end Cell

theorem isGreatest_elements_concat {l : List ℚ} {a v : ℚ} (h : IsGreatest (elements l) a) :
    IsGreatest (elements (l ++ [v])) (max a v) :=
  @isLeast_elements_concat ℚᵒᵈ _ l a v h

/-! ### A series and its ledger -/

/-- **The series agrees with its ledger**: the extremes of a cell are those of the readings that
count. -/
structure Keeps {X : Type} (first : Series ℚ X) (g : Ledger ℚ) (s : Series ℚ X) : Prop where
  tracked : ∃ k, Tracked k s
  readings : s.readings = first.readings
  limitmin : s.limitmin = first.limitmin
  limitmax : s.limitmax = first.limitmax
  has : 0 < s.readings → s.has = g.complete
  read : ∀ j < s.readings, s.bitset[j]? = some (g.read j)
  counts : ∀ j < s.readings, g.complete = true ∨ g.read j = true → g.kept j ≠ []
  kept : ∀ j, ∀ value ∈ g.kept j, value ∈ g.given j
  extremes : ∀ j < s.readings, g.kept j ≠ [] → ∃ lo hi, s.mins[j]? = some lo ∧
    s.maxs[j]? = some hi ∧ IsLeast (elements (g.kept j)) lo ∧ IsGreatest (elements (g.kept j)) hi

section Run

variable {X : Type} {first s s' s₁ : Series ℚ X} {g : Ledger ℚ}
  {check : Series ℚ X → Option (Series ℚ X)} {inside : Series ℚ X → Prop}

theorem Keeps.accepts_iff (h : Keeps first g s) (index : ℤ) (value : ℚ) :
    first.Accepts index value ↔ s.Accepts index value := by
  rw [Series.Accepts, Series.Accepts, h.readings, h.limitmin, h.limitmax]

/-- The extremes of the cell that is read. -/
theorem Keeps.extremes_read (h : Keeps first g s) {i : ℕ} {value : ℚ} (hi : i < s.readings)
    (hstore : s.store i value = some s₁) :
    let kept := if g.complete then g.kept i ++ [value] else [value]
    ∃ lo hi, s₁.mins = s.mins.set i lo ∧ s₁.maxs = s.maxs.set i hi ∧
      IsLeast (elements kept) lo ∧ IsGreatest (elements kept) hi := by
  intro kept
  obtain ⟨-, hextremes, -⟩ := eq_of_store hstore
  have hhas := h.has (Nat.zero_lt_of_lt hi)
  cases hcomplete : g.complete with
  | false =>
      have hkept : kept = [value] := if_neg (by simp [hcomplete])
      obtain ⟨-, -, hmins, hmaxs⟩ := extremes_of_not_has hextremes (hhas.trans hcomplete)
      rw [hkept]
      exact ⟨value, value, hmins, hmaxs, isLeast_singleton_iff.mpr rfl,
        @isLeast_singleton_iff ℚᵒᵈ _ value value |>.mpr rfl⟩
  | true =>
      have hkept : kept = g.kept i ++ [value] := if_pos hcomplete
      obtain ⟨lo, hi, hlo, hhi, hleast, hgreatest⟩ :=
        h.extremes i hi (h.counts i hi (.inl hcomplete))
      obtain ⟨hmins, hmaxs⟩ := extremes_of_has hextremes (hhas.trans hcomplete) hlo hhi
        (hleast.2 hgreatest.1)
      rw [hkept]
      exact ⟨min lo value, max hi value, hmins, hmaxs, isLeast_elements_concat hleast,
        isGreatest_elements_concat hgreatest⟩

/-- **The extremes behind a reading.** -/
theorem Keeps.extremes_stored (h : Keeps first g s) {i : ℕ} {value : ℚ} (hi : i < s.readings)
    (hstore : s.store i value = some s₁) :
    ∀ j < s.readings, (g.note s.readings i value).kept j ≠ [] →
      ∃ lo hi, s₁.mins[j]? = some lo ∧ s₁.maxs[j]? = some hi ∧
        IsLeast (elements ((g.note s.readings i value).kept j)) lo ∧
          IsGreatest (elements ((g.note s.readings i value).kept j)) hi := by
  intro j hj hkept
  obtain ⟨lo, hi', hmins, hmaxs, hleast, hgreatest⟩ := h.extremes_read hi hstore
  obtain ⟨k, hk⟩ := h.tracked
  rw [hmins, hmaxs]
  rcases eq_or_ne j i with rfl | hne
  · refine ⟨lo, hi', ?_, ?_, ?_, ?_⟩
    · rw [List.getElem?_set_self (hk.mins ▸ hi)]
    · rw [List.getElem?_set_self (hk.maxs ▸ hi)]
    · rw [Ledger.kept_note_self]
      exact hleast
    · rw [Ledger.kept_note_self]
      exact hgreatest
  · rw [Ledger.kept_note_of_ne hne] at hkept ⊢
    rw [List.getElem?_set_ne (Ne.symm hne), List.getElem?_set_ne (Ne.symm hne)]
    exact h.extremes j hj hkept

theorem Keeps.read_stored (h : Keeps first g s) {i : ℕ} (hi : i < s.readings) :
    ∀ j < s.readings, (s.bitset.set i true)[j]? = some (Function.update g.read i true j) := by
  intro j hj
  obtain ⟨k, hk⟩ := h.tracked
  rcases eq_or_ne j i with rfl | hne
  · rw [List.getElem?_set_self (hk.bitset ▸ hi), Function.update_self]
  · rw [List.getElem?_set_ne (Ne.symm hne), h.read j hj, Function.update_of_ne hne]

/-- The series is complete when all cells are read. -/
theorem Keeps.full_iff (h : Keeps first g s) {i : ℕ} (hi : i < s.readings) :
    (s.bitset.set i true).count true = s.readings ↔
      ∀ j < s.readings, Function.update g.read i true j = true := by
  obtain ⟨k, hk⟩ := h.tracked
  have hlength : (s.bitset.set i true).length = s.readings := by rw [List.length_set, hk.bitset]
  have hmarks : ∀ j < s.readings, (s.bitset.set i true)[j]? =
      some (if Function.update g.read i true j then some () else none).isSome := by
    intro j hj
    rw [h.read_stored hi j hj]
    cases Function.update g.read i true j <;> rfl
  refine (count_eq_iff hlength hmarks).trans (forall₂_congr fun j _ => ?_)
  cases Function.update g.read i true j <;> simp

/-- A cell that has been read has a reading that counts. -/
theorem Keeps.counts_note (h : Keeps first g s) {i : ℕ} (value : ℚ) : ∀ j < s.readings,
    g.complete = true ∨ Function.update g.read i true j = true →
      (g.note s.readings i value).kept j ≠ [] := by
  intro j hj hread
  rcases eq_or_ne j i with rfl | hne
  · rw [Ledger.kept_note_self]
    split
    · exact List.append_ne_nil_of_right_ne_nil _ (List.cons_ne_nil _ _)
    · exact List.cons_ne_nil _ _
  · rw [Ledger.kept_note_of_ne hne]
    rw [Function.update_of_ne hne] at hread
    exact h.counts j hj hread

/-- A reading that counts has been given. -/
theorem Keeps.kept_note (h : Keeps first g s) (n i : ℕ) (value : ℚ) :
    ∀ j, ∀ v ∈ (g.note n i value).kept j, v ∈ (g.note n i value).given j := by
  intro j v hv
  rcases eq_or_ne j i with rfl | hne
  · rw [Ledger.kept_note_self] at hv
    rw [Ledger.given_note_self, List.mem_append]
    split at hv
    · exact (List.mem_append.mp hv).imp_left (h.kept j v)
    · exact .inr hv
  · rw [Ledger.kept_note_of_ne hne] at hv
    rw [Ledger.given_note_of_ne hne]
    exact h.kept j v hv

/-- **What a reading does**: the series agrees with the ledger as before, and publishes if all its
cells have been read. -/
theorem Keeps.setCell (hcheck : Checks check inside) (h : Keeps first g s) {index : ℤ} {value : ℚ}
    (haccepts : s.Accepts index value) (hs' : s.setCell check index value = some s') :
    Keeps first (g.note s.readings index.toNat value) s' ∧
      (s'.published ≠ s.published → ∀ j < s.readings,
        (g.note s.readings index.toNat value).kept j ≠ []) := by
  obtain ⟨k, hk⟩ := h.tracked
  have hi : index.toNat < s.readings := by
    have := haccepts.1
    omega
  obtain ⟨s₁, hstore, hstored⟩ := hk.exists_stored hi value
  obtain ⟨-, -, heq⟩ := eq_of_store hstore
  have hextremes := h.extremes_stored hi hstore
  have hcounts := h.counts_note (i := index.toNat) value
  have htracked := hk.setCell hcheck hs'
  rw [Series.setCell, if_pos haccepts, hstore, Option.bind_eq_bind, Option.bind_some,
    hstored.bitsetC, hstored.readings] at hs'
  by_cases hfull : (s.bitset.set index.toNat true).count true = s.readings
  · -- the series is complete
    rw [if_pos hfull] at hs'
    have hread := (h.full_iff hi).mp hfull
    have hkept : ∀ j < s.readings, (g.note s.readings index.toNat value).kept j ≠ [] :=
      fun j hj => hcounts j hj (.inr (hread j hj))
    obtain ⟨s₂, -, ⟨⟨devmaxs, alerts, alertsNew, smooth, counted, rfl⟩, -, -⟩, rfl⟩ :=
      (complete_eq hcheck hstored.toShaped).2 s' hs'
    refine ⟨⟨⟨_, htracked⟩, hstored.readings.trans h.readings, hstored.limitmin.trans h.limitmin,
      hstored.limitmax.trans h.limitmax, ?_, ?_, ?_, h.kept_note _ _ _, ?_⟩, fun _ => hkept⟩
    · intro _
      rw [Ledger.complete_note_of_full hread]
    · intro j hj
      rw [Ledger.read_note_of_full hread]
      exact List.getElem?_replicate_of_lt hj
    · intro j hj _
      exact hkept j (hstored.readings ▸ hj)
    · intro j hj
      exact hextremes j (hstored.readings ▸ hj)
  · -- the cell is marked
    rw [if_neg hfull] at hs'
    have hread : ¬ ∀ j < s.readings, Function.update g.read index.toNat true j = true :=
      fun hread => hfull ((h.full_iff hi).mpr hread)
    obtain ⟨bitset, hbitset, hs'⟩ := Option.bind_eq_some_iff.mp hs'
    obtain ⟨-, rfl⟩ := write_eq_some_iff.mp hbitset
    obtain rfl := Option.some.inj hs'
    refine ⟨⟨⟨_, htracked⟩, hstored.readings.trans h.readings, hstored.limitmin.trans h.limitmin,
      hstored.limitmax.trans h.limitmax, ?_, ?_, ?_, h.kept_note _ _ _, ?_⟩, ?_⟩
    · intro hpos
      rw [Ledger.complete_note_of_not_full hread, ← h.has (hstored.readings ▸ hpos), heq]
    · intro j hj
      rw [Ledger.read_note_of_not_full hread, hstored.bitset_eq]
      exact h.read_stored hi j (hstored.readings ▸ hj)
    · intro j hj
      rw [Ledger.complete_note_of_not_full hread, Ledger.read_note_of_not_full hread]
      exact hcounts j (hstored.readings ▸ hj)
    · intro j hj
      exact hextremes j (hstored.readings ▸ hj)
    · intro hpublished
      exact absurd hstored.published hpublished

/-- The next series. -/
theorem Keeps.restart (h : Keeps first g s) :
    Keeps first { g with read := fun _ => false } s.restart where
  tracked := by
    obtain ⟨k, hk⟩ := h.tracked
    have hshaped : Shaped s.restart :=
      ⟨hk.values, hk.mins, hk.maxs, hk.devmaxs, hk.alerts, List.length_replicate⟩
    exact ⟨k.restart, tracked_of_none hshaped hk.readings hk.limitmin hk.limitmax hk.published
      (fun _ => rfl) rfl rfl⟩
  readings := h.readings
  limitmin := h.limitmin
  limitmax := h.limitmax
  has := h.has
  read := fun _ hj => List.getElem?_replicate_of_lt hj
  counts := fun j hj hor => h.counts j hj (.inl (hor.resolve_right Bool.false_ne_true))
  kept := h.kept
  extremes := h.extremes

/-- Behind a reset, nothing has been read. -/
theorem keeps_reset [Inhabited X] {s₀ : Series ℚ X} (hshaped : Shaped s₀)
    (h : s₀.reset = some first) : Keeps first .new first := by
  have hnew : ∀ k : Tracker ℚ, Tracked k first → (0 < first.readings → first.has = false) →
      (∀ j < first.readings, first.bitset[j]? = some false) → Keeps first .new first :=
    fun k hk hhas hbits => ⟨⟨k, hk⟩, rfl, rfl, rfl, hhas, hbits,
      fun _ _ hor => by simp [Ledger.new] at hor, fun _ _ hv => absurd hv List.not_mem_nil,
      fun _ _ hne => absurd rfl hne⟩
  rw [Series.reset] at h
  split at h
  · rw [fill_eq hshaped.mins, fill_eq hshaped.maxs, fill_eq hshaped.devmaxs,
      fill_eq hshaped.alerts] at h
    obtain rfl := Option.some.inj h
    refine hnew ⟨s₀.limitmin, s₀.limitmax, s₀.readings, fun _ => none, s₀.published⟩
      (tracked_of_none ⟨hshaped.values, List.length_replicate, List.length_replicate,
        List.length_replicate, List.length_replicate, List.length_replicate⟩ rfl rfl rfl rfl
        (fun _ => rfl) rfl rfl) (fun _ => rfl) fun j hj => List.getElem?_replicate_of_lt hj
  · next hpos =>
    obtain rfl := Option.some.inj h
    exact hnew ⟨s₀.limitmin, s₀.limitmax, s₀.readings, fun _ => none, s₀.published⟩
      ⟨hshaped, rfl, rfl, rfl, rfl, fun hpos' => absurd hpos' hpos,
        fun j hj => absurd (Nat.zero_lt_of_lt hj) hpos, fun _ _ hgot => by cases hgot⟩
      (fun hpos' => absurd hpos' hpos) fun j hj => absurd (Nat.zero_lt_of_lt hj) hpos

/-- **What a call does**, of those that record. -/
theorem Keeps.perform [Inhabited X] (hcheck : Checks check inside) (h : Keeps first g s)
    {op : SeriesOp ℚ} (hop : Records op) (hs' : s.perform check op = some s') :
    Keeps first (g.perform first op) s' := by
  cases op with
  | setCell index value =>
      rw [Ledger.perform, ← h.readings]
      by_cases haccepts : s.Accepts index value
      · rw [if_pos ((h.accepts_iff index value).mpr haccepts)]
        exact (h.setCell hcheck haccepts hs').1
      · rw [if_neg fun hfirst => haccepts ((h.accepts_iff index value).mp hfirst)]
        rw [Series.perform, Series.setCell, if_neg haccepts] at hs'
        exact Option.some.inj hs' ▸ h
  | restart =>
      obtain rfl := Option.some.inj hs'
      exact h.restart
  | setCellArrangement => exact hop.elim
  | checkChangeCellArrangement => exact hop.elim
  | reset => exact hop.elim

/-- What is called, and what completes a series then. -/
abbrev Call (X : Type) := (Series ℚ X → Option (Series ℚ X)) × SeriesOp ℚ

/-- What is called one after the other. -/
def calls [Inhabited X] (s : Series ℚ X) (ops : List (Call X)) : Option (Series ℚ X) :=
  ops.foldlM (fun s op => s.perform op.1 op.2) s

/-- The ledger of what is called for a series. -/
def ledger (s : Series ℚ X) (ops : List (Call X)) : Ledger ℚ :=
  ops.foldl (fun g op => g.perform s op.2) .new

/-- **A run** of calls that record. -/
theorem Keeps.calls [Inhabited X] {ops : List (Call X)}
    (hops : ∀ op ∈ ops, Records op.2 ∧ ∃ inside, Checks op.1 inside) (h : Keeps first g s)
    (hs' : Bms.calls s ops = some s') :
    Keeps first (ops.foldl (fun g op => g.perform first op.2) g) s' := by
  induction ops generalizing g s with
  | nil =>
      obtain rfl := Option.some.inj hs'
      exact h
  | cons op ops ih =>
      obtain ⟨⟨hop, inside, hcheck⟩, hops⟩ := List.forall_mem_cons.mp hops
      rw [Bms.calls, List.foldlM_cons, Option.bind_eq_bind, Option.bind_eq_some_iff] at hs'
      obtain ⟨s₁, hs₁, hs'⟩ := hs'
      exact ih hops (h.perform hcheck hop hs₁) hs'

end Run

/-! ### The extremes that are published -/

theorem isLeast_iff_of_subset {α : Type} [Preorder α] {A B : Set α} {a : α} (hsub : A ⊆ B)
    (h : IsLeast A a) : IsLeast B a ↔ ∀ v ∈ B, ∃ u ∈ A, u ≤ v := by
  constructor
  · exact fun hB v hv => ⟨a, h.1, hB.2 hv⟩
  · refine fun hB => ⟨hsub h.1, fun v hv => ?_⟩
    obtain ⟨u, hu, huv⟩ := hB v hv
    exact (h.2 hu).trans huv

theorem isGreatest_iff_of_subset {α : Type} [Preorder α] {A B : Set α} {a : α} (hsub : A ⊆ B)
    (h : IsGreatest A a) : IsGreatest B a ↔ ∀ v ∈ B, ∃ u ∈ A, v ≤ u :=
  @isLeast_iff_of_subset αᵒᵈ _ A B a hsub h

/-- The extremes of a cell are those of all its readings if the readings that count reach as far. -/
theorem Keeps.right_iff {X : Type} {first s : Series ℚ X} {g : Ledger ℚ}
    (h : Keeps first g s) (hkept : ∀ j < s.readings, g.kept j ≠ []) :
    RightExtremes s g.given ↔ ∀ j < s.readings, ∀ v ∈ g.given j,
      (∃ a ∈ g.kept j, a ≤ v) ∧ ∃ b ∈ g.kept j, v ≤ b := by
  refine forall₂_congr fun j hj => ?_
  obtain ⟨lo, hi, hlo, hhi, hleast, hgreatest⟩ := h.extremes j hj (hkept j hj)
  have hsub : elements (g.kept j) ⊆ elements (g.given j) := h.kept j
  have hright : (∃ lo hi, s.mins[j]? = some lo ∧ s.maxs[j]? = some hi ∧
      IsLeast (elements (g.given j)) lo ∧ IsGreatest (elements (g.given j)) hi) ↔
      IsLeast (elements (g.given j)) lo ∧ IsGreatest (elements (g.given j)) hi := by
    constructor
    · rintro ⟨lo', hi', hlo', hhi', hboth⟩
      obtain rfl := Option.some.inj (hlo.symm.trans hlo')
      obtain rfl := Option.some.inj (hhi.symm.trans hhi')
      exact hboth
    · exact fun hboth => ⟨lo, hi, hlo, hhi, hboth⟩
  rw [hright, isLeast_iff_of_subset hsub hleast, isGreatest_iff_of_subset hsub hgreatest]
  exact forall₂_and.symm

/-- **When the published extremes of the cells are right**: for every run of readings since a reset
and every reading that completes a series, exactly if no reading that was forgotten is outside of
those that count. -/
theorem rightExtremes_iff {X : Type} [Inhabited X] {s₀ s s₁ s' : Series ℚ X} {ops : List (Call X)}
    {check : Series ℚ X → Option (Series ℚ X)} {inside : Series ℚ X → Prop} {index : ℤ} {value : ℚ}
    (hshaped : Shaped s₀) (hreset : s₀.reset = some s)
    (hops : ∀ op ∈ ops, Records op.2 ∧ ∃ inside, Checks op.1 inside)
    (hcalls : calls s ops = some s₁) (hcheck : Checks check inside)
    (hs' : s₁.setCell check index value = some s') (hpublished : s'.published ≠ s₁.published) :
    RightExtremes s' (ledger s (ops ++ [(check, .setCell index value)])).given ↔
      ∀ j < s.readings, ∀ v ∈ (ledger s (ops ++ [(check, .setCell index value)])).given j,
        (∃ a ∈ (ledger s (ops ++ [(check, .setCell index value)])).kept j, a ≤ v) ∧
          ∃ b ∈ (ledger s (ops ++ [(check, .setCell index value)])).kept j, v ≤ b := by
  have h := (keeps_reset hshaped hreset).calls hops hcalls
  have haccepts : s₁.Accepts index value := by
    by_contra hnot
    rw [Series.setCell, if_neg hnot] at hs'
    exact hpublished (congrArg Series.published (Option.some.inj hs').symm)
  obtain ⟨hkeeps, hkept⟩ := h.setCell hcheck haccepts hs'
  have hledger : ledger s (ops ++ [(check, .setCell index value)]) =
      (ledger s ops).note s₁.readings index.toNat value := by
    rw [ledger, List.foldl_append, h.readings]
    exact if_pos ((h.accepts_iff index value).mpr haccepts)
  rw [hledger, ← hkeeps.readings]
  exact hkeeps.right_iff fun j hj => hkept hpublished j
    (hj.trans_eq (hkeeps.readings.trans h.readings.symm))

/-- Two cells, behind a reset. -/
def twoCells : Series ℚ Unit :=
  { OvmsVehicle.newSeries (-100) 100 with
    readings := 2
    values := [0, 0]
    mins := [0, 0]
    maxs := [0, 0]
    devmaxs := [0, 0]
    alerts := [.ok, .ok]
    bitset := [false, false] }

/-- A reading of each. -/
theorem rightExtremes_twoCells : ∃ s₁ s', calls twoCells [(some, .setCell 0 3)] = some s₁ ∧
    s₁.setCell some 1 4 = some s' ∧
    (RightExtremes s' (ledger twoCells [(some, .setCell 0 3), (some, .setCell 1 4)]).given ↔
      ∀ j < 2, ∀ v ∈ (ledger twoCells [(some, .setCell 0 3), (some, .setCell 1 4)]).given j,
        (∃ a ∈ (ledger twoCells [(some, .setCell 0 3), (some, .setCell 1 4)]).kept j, a ≤ v) ∧
          ∃ b ∈ (ledger twoCells [(some, .setCell 0 3), (some, .setCell 1 4)]).kept j, v ≤ b) := by
  have hshaped : Shaped twoCells := ⟨rfl, rfl, rfl, rfl, rfl, rfl⟩
  have hreset : twoCells.reset = some twoCells := rfl
  obtain ⟨s₁, hs₁⟩ : ∃ s₁, calls twoCells [(some, .setCell 0 3)] = some s₁ := ⟨_, rfl⟩
  obtain ⟨s', hs', hpublished⟩ : ∃ s', s₁.setCell some 1 4 = some s' ∧
      s'.published ≠ s₁.published := by
    obtain rfl := Option.some.inj hs₁
    exact ⟨_, rfl, by decide⟩
  have hops : ∀ op ∈ [(some, .setCell 0 3)], Records op.2 ∧ ∃ inside,
      Checks (op : Call Unit).1 inside :=
    List.forall_mem_singleton.mpr ⟨trivial, _, checks_some⟩
  exact ⟨s₁, s', hs₁, hs', rightExtremes_iff hshaped hreset hops hs₁ checks_some hs' hpublished⟩

/-- A cell is read twice before the other one is: its first reading is forgotten. -/
theorem not_rightExtremes : ∃ s',
    calls twoCells [(checkTemperature [] ⟨2, 3⟩, .setCell 0 5),
      (checkTemperature [] ⟨2, 3⟩, .setCell 0 3), (checkTemperature [] ⟨2, 3⟩, .setCell 1 4)]
        = some s' ∧ s'.published = [[3, 4]] ∧ ¬ RightExtremes s' (ledger twoCells
      [(checkTemperature [] ⟨2, 3⟩, .setCell 0 5), (checkTemperature [] ⟨2, 3⟩, .setCell 0 3),
        (checkTemperature [] ⟨2, 3⟩, .setCell 1 4)]).given := by
  have hrun : (calls twoCells [(checkTemperature [] ⟨2, 3⟩, .setCell 0 5),
      (checkTemperature [] ⟨2, 3⟩, .setCell 0 3), (checkTemperature [] ⟨2, 3⟩, .setCell 1 4)]).map
        (fun s => (s.readings, s.published, s.maxs)) = some (2, [[3, 4]], [3, 4]) := by
    decide +kernel
  obtain ⟨s', hs', heq⟩ := Option.map_eq_some_iff.mp hrun
  obtain ⟨hreadings, heq⟩ := Prod.mk.inj heq
  obtain ⟨hpublished, hmaxs⟩ := Prod.mk.inj heq
  refine ⟨s', hs', hpublished, fun h => ?_⟩
  obtain ⟨lo, hi, -, hhi, -, hgreatest⟩ := h 0 (by rw [hreadings]; decide)
  rw [hmaxs] at hhi
  obtain rfl : 3 = hi := Option.some.inj hhi
  have hfirst := hgreatest.2 (show (5 : ℚ) ∈ elements [5, 3] from List.mem_cons_self)
  exact absurd hfirst (by decide)

end Ovms.Bms
