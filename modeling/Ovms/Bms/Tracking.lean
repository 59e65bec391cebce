import Ovms.Bms.Look
import Ovms.Bms.Tracker

/-!
# Tracking a Series

Which cells of a series have been read (`components/vehicle/vehicle_bms.cpp`), against a tracker
that keeps the accepted readings of the cells themselves.

Two things go wrong. When a series of temperatures is complete, a cell that is to be warned of is
looked up among the voltage alerts, which may have fewer cells. When the number of cells becomes 0,
the counter stays.
-/

open Lib

namespace Ovms.Bms

/-! ### What is tracked -/

section Tracked

variable {F X : Type} [Arith F]

/-- The members agree with a tracker: if there are cells, the counter is the number of those that
are marked, and below their number; marked are those that have had a reading, and the array holds
it. -/
structure Tracked (k : Tracker F) (s : Series F X) : Prop extends Shaped s where
  readings : s.readings = k.cells
  limitmin : s.limitmin = k.limitmin
  limitmax : s.limitmax = k.limitmax
  published : s.published = k.published
  count : 0 < s.readings → s.bitsetC = s.bitset.count true ∧ s.bitsetC < s.readings
  marks : ∀ j < k.cells, s.bitset[j]? = some (k.got j).isSome
  kept : ∀ j value, k.got j = some value → j < k.cells ∧ k.Within value ∧
    s.values[j]? = some value

/-! ### Marks -/

/-- Marking a cell. -/
theorem count_set_true {bits : List Bool} {i : ℕ} (h : i < bits.length) :
    (bits.set i true).count true = if bits[i] then bits.count true else bits.count true + 1 := by
  rw [List.count_set h]
  cases hi : bits[i]
  · simp
  · have hpos : 0 < bits.count true := List.count_pos_iff.mpr (hi ▸ List.getElem_mem h)
    simp
    omega

theorem filterMap_range_getElem? {α : Type} (l : List α) :
    (List.range l.length).filterMap (fun j => l[j]?) = l := by
  induction l with
  | nil => rfl
  | cons a l ih =>
      rw [List.length_cons, List.range_succ_eq_map, List.filterMap_cons, List.filterMap_map]
      simpa using ih

/-! ### A reading -/

variable {k : Tracker F} {s s' : Series F X} {check : Series F X → Option (Series F X)}
  {inside : Series F X → Prop}

/-- The extremes of a cell are inside. -/
theorem extremes_eq (h : Shaped s) {i : ℕ} (hi : i < s.readings) (value : F) :
    ∃ mins maxs, Shaped { s with mins := mins, maxs := maxs } ∧
      s.extremes i value = some { s with mins := mins, maxs := maxs } := by
  have hmins : i < s.mins.length := h.mins ▸ hi
  have hmaxs : i < s.maxs.length := h.maxs ▸ hi
  have hshaped : ∀ mins maxs, mins.length = s.readings → maxs.length = s.readings →
      Shaped { s with mins := mins, maxs := maxs } := fun mins maxs hmins hmaxs =>
    ⟨h.values, hmins, hmaxs, h.devmaxs, h.alerts, h.bitset⟩
  rw [Series.extremes, write_of_lt hmins, write_of_lt hmaxs, List.getElem?_eq_getElem hmins,
    List.getElem?_eq_getElem hmaxs]
  simp only [Option.bind_eq_bind, Option.bind_some]
  split
  · exact ⟨_, _, hshaped _ _ (by simpa using h.mins) (by simpa using h.maxs), rfl⟩
  split
  · exact ⟨_, _, hshaped _ _ (by simpa using h.mins) h.maxs, rfl⟩
  split
  · exact ⟨_, _, hshaped _ _ h.mins (by simpa using h.maxs), rfl⟩
  · exact ⟨_, _, hshaped _ _ h.mins h.maxs, rfl⟩

/-- A series behind a reading that was stored. -/
structure Stored (s : Series F X) (i : ℕ) (value : F) (s₁ : Series F X) : Prop
    extends Shaped s₁ where
  readings : s₁.readings = s.readings
  limitmin : s₁.limitmin = s.limitmin
  limitmax : s₁.limitmax = s.limitmax
  published : s₁.published = s.published
  values_eq : s₁.values = s.values.set i value
  alerts_eq : s₁.alerts = s.alerts
  alertsNew : s₁.alertsNew = s.alertsNew
  counted : s₁.counted = s.counted
  bitset_eq : s₁.bitset = s.bitset
  bitsetC : s₁.bitsetC = (s.bitset.set i true).count true

/-- A reading is stored inside. -/
theorem Tracked.exists_stored (h : Tracked k s) {i : ℕ} (hi : i < s.readings) (value : F) :
    ∃ s₁, s.store i value = some s₁ ∧ Stored s i value s₁ := by
  have hcount := (h.count (Nat.zero_lt_of_lt hi)).1
  have hvalues : i < s.values.length := h.values ▸ hi
  have hbitset : i < s.bitset.length := h.bitset ▸ hi
  have hshaped : Shaped { s with values := s.values.set i value } :=
    ⟨by simpa using h.values, h.mins, h.maxs, h.devmaxs, h.alerts, h.bitset⟩
  obtain ⟨mins, maxs, hextremes, heq⟩ := extremes_eq hshaped hi value
  refine ⟨{ s with
    values := s.values.set i value, mins := mins, maxs := maxs
    bitsetC := (s.bitset.set i true).count true }, ?_, ⟨hextremes.values, hextremes.mins,
    hextremes.maxs, h.devmaxs, h.alerts, h.bitset⟩, rfl, rfl, rfl, rfl, rfl, rfl, rfl, rfl, rfl,
    rfl⟩
  rw [Series.store, write_of_lt hvalues, Option.bind_eq_bind, Option.bind_some, heq,
    Option.bind_eq_bind, Option.bind_some, List.getElem?_eq_getElem hbitset, Option.bind_eq_bind,
    Option.bind_some, count_set_true hbitset, ← hcount]

omit [Arith F] in
/-- A complete series, behind the look at it. -/
theorem complete_eq (hcheck : Checks check inside) (h : Shaped s) :
    ((s.complete check).isSome ↔ inside s) ∧
      ∀ s', s.complete check = some s' → ∃ s₁, check s = some s₁ ∧ Looks s s₁ ∧
        s' = { s₁.restart with has := true, published := s.published ++ [s.values] } := by
  have hvalues := readBlock_eq_some (show 0 + s.readings ≤ s.values.length by rw [h.values]; omega)
  have hmins := readBlock_eq_some (show 0 + s.readings ≤ s.mins.length by rw [h.mins]; omega)
  have hmaxs := readBlock_eq_some (show 0 + s.readings ≤ s.maxs.length by rw [h.maxs]; omega)
  rw [List.drop_zero, List.take_of_length_le h.values.le] at hvalues
  rw [Series.complete, hvalues, hmins, hmaxs, ← hcheck.isSome s h]
  simp only [Option.bind_eq_bind, Option.bind_some]
  cases hs₁ : check s with
  | none => simp
  | some s₁ =>
      obtain ⟨⟨devmaxs, alerts, alertsNew, smooth, counted, rfl⟩, hdevmaxs, halerts⟩ :=
        hcheck.looks s s₁ h hs₁
      refine ⟨iff_of_true rfl rfl, fun s' hs' =>
        ⟨_, rfl, ⟨⟨_, _, _, _, _, rfl⟩, hdevmaxs, halerts⟩, ?_⟩⟩
      exact (Option.some.inj hs').symm

theorem Tracked.accepts (h : Tracked k s) (index : ℤ) (value : F) :
    s.Accepts index value ↔ ¬ (index < 0 ∨ k.cells ≤ index) ∧ k.Within value := by
  rw [Series.Accepts, Tracker.Within, h.readings, h.limitmin, h.limitmax]

omit [Arith F] in
/-- All cells are marked when all have had a reading. -/
theorem count_eq_iff {bits : List Bool} {got : ℕ → Option F} {n : ℕ} (hlength : bits.length = n)
    (hmarks : ∀ j < n, bits[j]? = some (got j).isSome) :
    bits.count true = n ↔ ∀ j < n, (got j).isSome := by
  rw [← hlength, List.count_eq_length]
  constructor
  · intro hall j hj
    have hmark := hmarks j (hlength ▸ hj)
    rw [List.getElem?_eq_getElem hj, Option.some.injEq] at hmark
    rw [← hmark]
    exact (hall _ (List.getElem_mem hj)).symm
  · intro hgot b hb
    obtain ⟨j, hj, rfl⟩ := List.getElem_of_mem hb
    have hmark := hmarks j (hlength ▸ hj)
    rw [List.getElem?_eq_getElem hj, Option.some.injEq, hgot j hj] at hmark
    exact hmark.symm

/-- A tracker that has had a reading, and what was stored. -/
theorem Tracked.stored (h : Tracked k s) {i : ℕ} (hi : i < k.cells) {value : F}
    (hvalue : k.Within value) {s₁ : Series F X} (hstored : Stored s i value s₁) :
    (∀ j < k.cells, (s.bitset.set i true)[j]? =
      some (Function.update k.got i (some value) j).isSome) ∧
    ∀ j v, Function.update k.got i (some value) j = some v →
      j < k.cells ∧ k.Within v ∧ s₁.values[j]? = some v := by
  have hbitset : i < s.bitset.length := by rw [h.bitset, h.readings]; exact hi
  have hvalues : i < s.values.length := by rw [h.values, h.readings]; exact hi
  constructor
  · intro j hj
    by_cases hij : j = i
    · subst hij
      rw [List.getElem?_set_self hbitset, Function.update_self]
      rfl
    · rw [List.getElem?_set_ne (Ne.symm hij), Function.update_of_ne hij]
      exact h.marks j hj
  · intro j v hj
    rw [hstored.values_eq]
    by_cases hij : j = i
    · subst hij
      rw [Function.update_self, Option.some.injEq] at hj
      subst hj
      exact ⟨hi, hvalue, List.getElem?_set_self hvalues⟩
    · rw [Function.update_of_ne hij] at hj
      rw [List.getElem?_set_ne (Ne.symm hij)]
      exact h.kept j v hj

/-- A series that starts. -/
theorem tracked_of_none (h : Shaped s) (hreadings : s.readings = k.cells)
    (hmin : s.limitmin = k.limitmin) (hmax : s.limitmax = k.limitmax)
    (hpublished : s.published = k.published) (hgot : ∀ j, k.got j = none)
    (hbitset : s.bitset = List.replicate s.readings false) (hc : s.bitsetC = 0) : Tracked k s where
  toShaped := h
  readings := hreadings
  limitmin := hmin
  limitmax := hmax
  published := hpublished
  count := fun hpos => ⟨by simp [hbitset, hc, List.count_replicate], hc ▸ hpos⟩
  marks := fun j hj => by simp [hbitset, hreadings, hj, hgot]
  kept := fun j value hj => by simp [hgot] at hj

/-- All other cells of the series are marked. -/
def Completes (s : Series F X) (i : ℕ) : Prop := ∀ j < s.readings, j ≠ i → s.bitset[j]? = some true

/-- A reading that completes the series finds it inside. -/
def ReadingInside (inside : Series F X → Prop) (s : Series F X) (index : ℤ) (value : F) : Prop :=
  s.Accepts index value → Completes s index.toNat →
    inside { s with values := s.values.set index.toNat value }

/-- A reading completes the series when all other cells have had one. -/
theorem Tracked.completes_iff (h : Tracked k s) (i : ℕ) (value : F) : Completes s i ↔
    ∀ j < k.cells, (Function.update k.got i (some value) j).isSome := by
  rw [Completes, h.readings]
  refine forall₂_congr fun j hj => ?_
  rw [h.marks j hj, Option.some.injEq]
  by_cases hij : j = i
  · subst hij
    simp
  · rw [Function.update_of_ne hij]
    exact ⟨fun hsome => hsome hij, fun hsome _ => hsome⟩

/-- An accepted reading is stored; the series is complete then, or the cell is marked. -/
theorem Tracked.setCell_eq (h : Tracked k s) {index : ℤ} {value : F}
    (hacc : s.Accepts index value) : ∃ s₁, Stored s index.toNat value s₁ ∧
      (Completes s index.toNat → ∀ check, s.setCell check index value = s₁.complete check) ∧
      (¬ Completes s index.toNat → s₁.bitsetC < s₁.readings ∧ ∀ check,
        s.setCell check index value =
          some { s₁ with bitset := s.bitset.set index.toNat true }) := by
  have hread := (h.accepts index value).mp hacc
  have hindex : index.toNat < k.cells := by
    have := hread.1
    omega
  obtain ⟨s₁, hs₁, hstored⟩ := h.exists_stored (h.readings ▸ hindex) value
  have hreadings : s₁.readings = k.cells := hstored.readings.trans h.readings
  have hfull : s₁.bitsetC = s₁.readings ↔ Completes s index.toNat := by
    rw [hstored.bitsetC, hreadings, h.completes_iff _ value]
    exact count_eq_iff (by rw [List.length_set, h.bitset, h.readings])
      (h.stored hindex hread.2 hstored).1
  have hset : ∀ check, s.setCell check index value = if s₁.bitsetC = s₁.readings then
      s₁.complete check else s₁.mark index.toNat := fun check => by
    rw [Series.setCell, if_pos hacc, hs₁, Option.bind_eq_bind, Option.bind_some]
  refine ⟨s₁, hstored, fun hcomplete check => ?_, fun hopen => ⟨?_, fun check => ?_⟩⟩
  · rw [hset, if_pos (hfull.mpr hcomplete)]
  · have hle := List.count_le_length (a := true) (l := s.bitset.set index.toNat true)
    rw [List.length_set, h.bitset, ← hstored.readings, ← hstored.bitsetC] at hle
    exact Nat.lt_of_le_of_ne hle fun heq => hopen (hfull.mp heq)
  · have hbitset : index.toNat < s₁.bitset.length := by
      rw [hstored.bitset, hreadings]
      exact hindex
    rw [hset, if_neg fun heq => hopen (hfull.mp heq), Series.mark, write_of_lt hbitset,
      hstored.bitset_eq]
    rfl

/-- **A reading** stays inside unless it completes a series that does not. -/
theorem Tracked.setCell_isSome (hcheck : Checks check inside) (h : Tracked k s) (index : ℤ)
    (value : F) : (s.setCell check index value).isSome ↔ ReadingInside inside s index value := by
  rw [ReadingInside]
  by_cases hacc : s.Accepts index value
  swap
  · rw [Series.setCell, if_neg hacc]
    exact iff_of_true rfl fun hacc' => absurd hacc' hacc
  obtain ⟨s₁, hstored, hcomplete, hopen⟩ := h.setCell_eq hacc
  by_cases hfull : Completes s index.toNat
  · rw [hcomplete hfull, (complete_eq hcheck hstored.toShaped).1, hcheck.isLocal
      { s with values := s.values.set index.toNat value } s₁ hstored.readings hstored.values_eq
      hstored.alerts_eq]
    exact ⟨fun hin _ _ => hin, fun hin => hin hacc hfull⟩
  · rw [(hopen hfull).2]
    exact iff_of_true rfl fun _ hfull' => absurd hfull' hfull

/-- **A reading** does to the members what it does to the tracker. -/
theorem Tracked.setCell (hcheck : Checks check inside) (h : Tracked k s) {index : ℤ} {value : F}
    (hs' : s.setCell check index value = some s') : Tracked (k.read index value) s' := by
  by_cases hacc : s.Accepts index value
  swap
  · rw [Series.setCell, if_neg hacc] at hs'
    obtain rfl := Option.some.inj hs'
    rwa [Tracker.read, if_neg (by rwa [← h.accepts])]
  have hread := (h.accepts index value).mp hacc
  have hindex : index.toNat < k.cells := by
    have := hread.1
    omega
  obtain ⟨s₁, hstored, hcomplete, hopen⟩ := h.setCell_eq hacc
  obtain ⟨hmarks, hkept⟩ := h.stored hindex hread.2 hstored
  have hreadings : s₁.readings = k.cells := hstored.readings.trans h.readings
  have hfull := h.completes_iff index.toNat value
  rw [Tracker.read, if_pos hread, Tracker.settle]
  by_cases hcompletes : Completes s index.toNat
  · have hgot := hfull.mp hcompletes
    rw [hcomplete hcompletes] at hs'
    rw [if_pos ⟨Nat.zero_lt_of_lt hindex, hgot⟩]
    obtain ⟨s₂, -, ⟨⟨devmaxs, alerts, alertsNew, smooth, counted, rfl⟩, hdevmaxs, halerts⟩, rfl⟩ :=
      (complete_eq hcheck hstored.toShaped).2 s' hs'
    -- the array holds the readings of all cells
    have hvalues : s₁.values = (List.range k.cells).filterMap
        (Function.update k.got index.toNat (some value)) := by
      rw [← filterMap_range_getElem? s₁.values, hstored.values, hreadings]
      refine List.filterMap_congr fun j hj => ?_
      obtain ⟨v, hv⟩ := Option.isSome_iff_exists.mp (hgot j (List.mem_range.mp hj))
      rw [hv]
      exact (hkept j v hv).2.2
    have hpublished : s₁.published = k.published := hstored.published.trans h.published
    exact tracked_of_none ⟨hstored.values, hstored.mins, hstored.maxs,
      hdevmaxs.trans hstored.devmaxs, halerts.trans hstored.alerts, List.length_replicate⟩ hreadings
      (hstored.limitmin.trans h.limitmin) (hstored.limitmax.trans h.limitmax)
      (by rw [hvalues, hpublished]) (fun _ => rfl) rfl rfl
  · obtain ⟨hlt, hmark⟩ := hopen hcompletes
    rw [hmark] at hs'
    obtain rfl := Option.some.inj hs'
    rw [if_neg fun hfull' => hcompletes (hfull.mpr hfull'.2)]
    exact ⟨⟨hstored.values, hstored.mins, hstored.maxs, hstored.devmaxs, hstored.alerts,
      by rw [List.length_set, h.bitset, hstored.readings]⟩, hreadings,
      hstored.limitmin.trans h.limitmin, hstored.limitmax.trans h.limitmax,
      hstored.published.trans h.published, fun _ => ⟨hstored.bitsetC, hlt⟩, hmarks, hkept⟩

/-! ### Resets and arrangements -/

theorem fill_eq {α : Type} {l : List α} {n : ℕ} (h : l.length = n) (a : α) :
    fill l n a = some (List.replicate n a) := by
  rw [fill, if_pos h.ge, ← h, List.drop_length, List.append_nil]

/-- No cell is raised, and none was counted. -/
structure Fresh (s : Series F X) : Prop where
  alerts : s.alerts = List.replicate s.readings .ok
  alertsNew : s.alertsNew = 0
  counted : s.counted = []

section Reset

variable [Inhabited X]

/-- A reset is inside; no cell is marked behind it, if there are cells. -/
theorem reset_eq (hmins : s.mins.length = s.readings) (hmaxs : s.maxs.length = s.readings)
    (hdevmaxs : s.devmaxs.length = s.readings) (halerts : s.alerts.length = s.readings) :
    ∃ s', s.reset = some s' ∧ (s.readings = 0 → s' = s) ∧
      (0 < s.readings → s'.readings = s.readings ∧ Fresh s') ∧
      (0 < s.readings → s.values.length = s.readings → s.readings = k.cells →
        s.limitmin = k.limitmin → s.limitmax = k.limitmax → s.published = k.published →
        (∀ j, k.got j = none) → Tracked k s') := by
  by_cases hpos : 0 < s.readings
  · rw [Series.reset, if_pos hpos, fill_eq hmins, fill_eq hmaxs, fill_eq hdevmaxs,
      fill_eq halerts]
    refine ⟨_, rfl, fun hzero => by omega, fun _ => ⟨rfl, rfl, rfl, rfl⟩,
      fun _ hvalues hreadings hmin hmax hpublished hgot => ?_⟩
    exact tracked_of_none ⟨hvalues, List.length_replicate, List.length_replicate,
      List.length_replicate, List.length_replicate, List.length_replicate⟩ hreadings hmin hmax
      hpublished hgot rfl rfl
  · rw [Series.reset, if_neg hpos]
    exact ⟨s, rfl, fun _ => rfl, fun hpos' => absurd hpos' hpos, fun hpos' => absurd hpos' hpos⟩

/-- **A reset** does to the members what it does to the tracker. -/
theorem Tracked.reset (h : Tracked k s) : ∃ s', s.reset = some s' ∧ Tracked k.restart s' := by
  obtain ⟨s', hs', hzero, -, htracked⟩ := reset_eq (k := k.restart) h.mins h.maxs h.devmaxs h.alerts
  refine ⟨s', hs', ?_⟩
  by_cases hpos : 0 < s.readings
  · exact htracked hpos h.values h.readings h.limitmin h.limitmax h.published fun _ => rfl
  · have hreadings := h.readings
    have hcells : ¬ 0 < k.cells := by omega
    rw [hzero (by omega)]
    exact ⟨h.toShaped, h.readings, h.limitmin, h.limitmax, h.published, h.count,
      fun j hj => absurd (Nat.zero_lt_of_lt hj) hcells, fun j value hj => by cases hj⟩

/-- **An arrangement** does to the members what it does to the tracker. The counter stays when
there are no cells. -/
theorem Tracked.arrange (h : Tracked k s) (readings : ℕ) (readingspermodule : ℤ) :
    ∃ s', s.setCellArrangement readings readingspermodule = some s' ∧
      Tracked (k.arrange readings) s' ∧ Fresh s' ∧
      (readings = 0 → s'.bitset = [] ∧ s'.bitsetC = s.bitsetC) := by
  obtain ⟨s', hs', hzero, hfresh, htracked⟩ := reset_eq (k := k.arrange readings)
    (s := { s with
      values := List.replicate readings (0 : ℤ)
      mins := List.replicate readings (0 : ℤ)
      maxs := List.replicate readings (0 : ℤ)
      devmaxs := List.replicate readings (0 : ℤ)
      alerts := List.replicate readings .ok
      alertsNew := 0
      bitset := []
      readings := readings
      readingspermodule := readingspermodule
      counted := [] })
    List.length_replicate List.length_replicate List.length_replicate List.length_replicate
  refine ⟨s', hs', ?_⟩
  by_cases hpos : 0 < readings
  · exact ⟨htracked hpos List.length_replicate rfl h.limitmin h.limitmax h.published fun _ => rfl,
      (hfresh hpos).2, fun hzero => by omega⟩
  · obtain rfl : readings = 0 := by omega
    rw [hzero rfl]
    exact ⟨⟨⟨rfl, rfl, rfl, rfl, rfl, rfl⟩, rfl, h.limitmin, h.limitmax, h.published,
      fun hpos => absurd hpos (Nat.lt_irrefl 0), fun j hj => absurd hj (Nat.not_lt_zero j),
      fun j value hj => by cases hj⟩, ⟨rfl, rfl, rfl⟩, fun _ => ⟨rfl, rfl⟩⟩

end Reset

/-! ### Another number of cells -/

/-- The marked cells are those that have had a reading. -/
theorem Tracked.marked (h : Tracked k s) {n : ℕ} (hn : n ≤ k.cells) :
    s.marked n = some (k.readings n) := by
  rw [Series.marked]
  induction n with
  | zero => rfl
  | succ n ih =>
      rw [List.range_succ, List.foldlM_append, ih (by omega), Tracker.readings_succ,
        Option.bind_eq_bind, Option.bind_some, List.foldlM_cons, h.marks n (by omega)]
      cases hgot : k.got n with
      | none => simp
      | some value => simp [(h.kept n value hgot).2.2]

/-- Readings that are replayed do to the members what they do to the tracker. -/
theorem Tracked.replay (hcheck : Checks check inside) (h : Tracked k s) {cells : List (ℕ × F)}
    (hs' : cells.foldlM (Series.replay check) s = some s') :
    Tracked (cells.foldl (fun k c => k.read c.1 c.2) k) s' := by
  induction cells generalizing k s with
  | nil =>
      obtain rfl := Option.some.inj hs'
      exact h
  | cons c cells ih =>
      rw [List.foldlM_cons, Option.bind_eq_bind, Option.bind_eq_some_iff] at hs'
      obtain ⟨s₁, hs₁, hs'⟩ := hs'
      exact ih (h.setCell hcheck hs₁) hs'

theorem Tracked.accepts_below {fresh : Series F X} {cells n m : ℕ} {value : F}
    (hfresh : Tracked (k.below cells n) fresh) (hm : m < cells) (hwithin : k.Within value) :
    fresh.Accepts m value := by
  refine (hfresh.accepts _ _).mpr ⟨?_, hwithin⟩
  change ¬ ((m : ℤ) < 0 ∨ (cells : ℤ) ≤ m)
  omega

theorem replay_one (s : Series F X) (i : ℕ) (value : F) :
    ((some value).map fun value => (i, value)).toList.foldlM (Series.replay check) s
      = s.setCell check i value := by
  change ((Series.replay check s (i, value)).bind some) = _
  cases hs' : s.setCell check i value with
  | none => rw [Series.replay, hs', Option.bind_none]
  | some s' => rw [Series.replay, hs', Option.bind_some]

theorem replay_readings_succ {fresh s₁ : Series F X} {n : ℕ}
    (h : (k.readings n).foldlM (Series.replay check) fresh = some s₁) :
    (k.readings (n + 1)).foldlM (Series.replay check) fresh =
      ((k.got n).map fun value => (n, value)).toList.foldlM (Series.replay check) s₁ := by
  rw [Tracker.readings_succ, List.foldlM_append, h, Option.bind_eq_bind, Option.bind_some]

/-- Until the last cell is replayed, no series is complete. -/
theorem Tracked.replay_below (hwithin : ∀ j value, k.got j = some value → k.Within value)
    {fresh : Series F X} {cells : ℕ} (hfresh : Tracked (k.arrange cells) fresh) {n : ℕ}
    (hn : n < cells) :
    ∃ s₁, (∀ check, (k.readings n).foldlM (Series.replay check) fresh = some s₁) ∧
      Tracked (k.below cells n) s₁ ∧ s₁.alerts = fresh.alerts := by
  induction n with
  | zero => exact ⟨fresh, fun _ => rfl, hfresh, rfl⟩
  | succ n ih =>
      obtain ⟨s₁, hs₁, htracked, halerts⟩ := ih (by omega)
      cases hgot : k.got n with
      | none =>
          refine ⟨s₁, fun check => by rw [replay_readings_succ (hs₁ check), hgot]; rfl, ?_, halerts⟩
          rwa [Tracker.below_succ_of_none hgot]
      | some value =>
          have hacc := htracked.accepts_below (m := n) (by omega) (hwithin n value hgot)
          obtain ⟨s₂, hstored, -, hopen⟩ := htracked.setCell_eq hacc
          have hlacks : ¬ Completes s₁ (n : ℤ).toNat := by
            intro hcompletes
            have hmark := hcompletes (n + 1) (by rw [htracked.readings]; exact hn) (by simp)
            rw [htracked.marks (n + 1) hn] at hmark
            simp [Tracker.below] at hmark
          obtain ⟨-, hset⟩ := hopen hlacks
          have hread := htracked.setCell checks_some (hset some)
          rw [Tracker.read_below (by omega) (hwithin n value hgot) hgot,
            Tracker.settle_below k hn] at hread
          exact ⟨_, fun check => by
            rw [replay_readings_succ (hs₁ check), hgot, replay_one, hset], hread,
            hstored.alerts_eq.trans halerts⟩

/-- A complete series that another number of cells leaves: the readings of the cells that are
still there, none of which is raised. -/
def remaining (s : Series F X) (readings : ℕ) : Series F X :=
  { s with
    readings := readings
    values := s.values.take readings
    alerts := List.replicate readings .ok }

/-- The last cell that is still there completes the series if all of them are marked. -/
theorem Tracked.completes_last (h : Tracked k s) {s₁ : Series F X} {n : ℕ} {value : F}
    (htracked : Tracked (k.below (n + 1) n) s₁) (hn : n + 1 ≤ k.cells)
    (hgot : k.got n = some value) :
    Completes s₁ n ↔ ∀ j < n + 1, s.bitset[j]? = some true := by
  rw [Completes, htracked.readings]
  refine forall₂_congr fun j hj => ?_
  have hj' : j < n + 1 := hj
  rw [htracked.marks j hj, h.marks j (by omega)]
  by_cases hjn : j = n
  · simp [hjn, hgot]
  · have hlt : j < n := by omega
    simp [hjn, Tracker.below, hlt]

/-- The array then holds the readings of the cells that are still there. -/
theorem Tracked.values_last (h : Tracked k s) {s₁ : Series F X} {n : ℕ} {value : F}
    (htracked : Tracked (k.below (n + 1) n) s₁) (hn : n + 1 ≤ k.cells)
    (hgot : k.got n = some value) (hmarked : ∀ j < n + 1, s.bitset[j]? = some true) :
    s₁.values.set n value = s.values.take (n + 1) := by
  have hlength : n < s₁.values.length := by
    rw [htracked.values, htracked.readings]
    exact n.lt_succ_self
  refine List.ext_getElem? fun j => ?_
  rw [List.getElem?_take]
  split
  · rename_i hj
    by_cases hjn : j = n
    · rw [hjn, List.getElem?_set_self hlength, (h.kept n value hgot).2.2]
    · have hmark := hmarked j hj
      rw [h.marks j (by omega), Option.some.injEq, Option.isSome_iff_exists] at hmark
      obtain ⟨v, hv⟩ := hmark
      have hbelow : (k.below (n + 1) n).got j = some v := by
        have hlt : j < n := by omega
        simp [Tracker.below, hlt, hv]
      rw [List.getElem?_set_ne (Ne.symm hjn), (htracked.kept j v hbelow).2.2,
        (h.kept j v hv).2.2]
  · refine List.getElem?_eq_none ?_
    rw [List.length_set, htracked.values, htracked.readings]
    change n + 1 ≤ j
    omega

/-- Replaying completes no series, unless all cells that are still there are marked; then the last
one does. -/
theorem Tracked.replay_cases (h : Tracked k s) {fresh : Series F X} {cells : ℕ}
    (hfresh : Tracked (k.arrange cells) fresh)
    (hnone : Fresh fresh) :
    (∃ s₁, (∀ check, (k.readings (min cells k.cells)).foldlM (Series.replay check) fresh
        = some s₁) ∧ ¬ (0 < cells ∧ ∀ j < cells, s.bitset[j]? = some true)) ∨
    0 < cells ∧ ∃ k' s₁, Tracked k' s₁ ∧ ∃ (index : ℤ) (value : F),
      (∀ check, (k.readings (min cells k.cells)).foldlM (Series.replay check) fresh
        = s₁.setCell check index value) ∧
      ∀ inside : Series F X → Prop, Local inside → (ReadingInside inside s₁ index value ↔
        ((∀ j < cells, s.bitset[j]? = some true) → inside (remaining s cells))) := by
  have hwithin : ∀ j value, k.got j = some value → k.Within value :=
    fun j value hj => (h.kept j value hj).2.1
  by_cases hmore : k.cells < cells
  · -- a new cell is not marked
    obtain ⟨s₁, hs₁, -⟩ := replay_below hwithin hfresh hmore
    rw [Nat.min_eq_right hmore.le]
    refine .inl ⟨s₁, hs₁, fun hmarked => ?_⟩
    have hmark := hmarked.2 k.cells hmore
    rw [List.getElem?_eq_none (by rw [h.bitset, h.readings])] at hmark
    cases hmark
  have halerts : fresh.alerts = List.replicate cells .ok := by
    rw [hnone.alerts, hfresh.readings]
    rfl
  rw [Nat.min_eq_left (Nat.not_lt.mp hmore)]
  cases cells with
  | zero => exact .inl ⟨fresh, fun _ => rfl, fun hmarked => absurd hmarked.1 (Nat.lt_irrefl 0)⟩
  | succ n =>
      obtain ⟨s₁, hs₁, htracked, halerts₁⟩ := replay_below hwithin hfresh n.lt_succ_self
      have hlast := h.marks n (by omega)
      cases hgot : k.got n with
      | none =>
          refine .inl ⟨s₁, fun check => by rw [replay_readings_succ (hs₁ check), hgot]; rfl,
            fun hmarked => ?_⟩
          rw [hmarked.2 n n.lt_succ_self, hgot] at hlast
          cases hlast
      | some value =>
          have hacc := htracked.accepts_below (m := n) n.lt_succ_self (hwithin n value hgot)
          have hcompletes := h.completes_last htracked (Nat.not_lt.mp hmore) hgot
          have hvalues := h.values_last htracked (Nat.not_lt.mp hmore) hgot
          refine .inr ⟨n.succ_pos, _, s₁, htracked, n, value,
            fun check => by rw [replay_readings_succ (hs₁ check), hgot, replay_one],
            fun inside hlocal => ?_⟩
          rw [ReadingInside, Int.toNat_natCast, hcompletes]
          have hsame : (∀ j < n + 1, s.bitset[j]? = some true) →
              (inside { s₁ with values := s₁.values.set n value } ↔
                inside (remaining s (n + 1))) := fun hmarked =>
            hlocal _ _ htracked.readings (hvalues hmarked) (halerts₁.trans halerts)
          exact ⟨fun hin hmarked => (hsame hmarked).mp (hin hacc hmarked),
            fun hin _ hmarked => (hsame hmarked).mpr (hin hmarked)⟩

/-- **Replaying** stays inside unless all cells that are still there are marked, and are not inside
when they are looked at. -/
theorem Tracked.replay_isSome (hcheck : Checks check inside) (h : Tracked k s)
    {fresh : Series F X} {cells : ℕ} (hfresh : Tracked (k.arrange cells) fresh)
    (hnone : Fresh fresh) :
    ((k.readings (min cells k.cells)).foldlM (Series.replay check) fresh).isSome ↔
      (0 < cells → (∀ j < cells, s.bitset[j]? = some true) → inside (remaining s cells)) := by
  obtain ⟨s₁, hs₁, hopen⟩ | ⟨hpos, k', s₁, htracked, index, value, hs₁, hlast⟩ :=
    h.replay_cases hfresh hnone
  · rw [hs₁]
    exact iff_of_true rfl fun hpos hmarked => absurd ⟨hpos, hmarked⟩ hopen
  · rw [hs₁, htracked.setCell_isSome hcheck, hlast inside hcheck.isLocal]
    exact ⟨fun hin _ => hin, fun hin => hin hpos⟩

/-! ### What is called -/

/-- No cell is marked when the counter is 0. -/
theorem Tracked.bitset_ne_true (h : Tracked k s) (hc : s.bitsetC = 0) (j : ℕ) :
    s.bitset[j]? ≠ some true := by
  intro hmark
  have hlt := (List.getElem?_eq_some_iff.mp hmark).1
  rw [h.bitset] at hlt
  have hmem : true ∈ s.bitset := List.mem_of_getElem? hmark
  rw [← List.count_pos_iff, ← (h.count (Nat.zero_lt_of_lt hlt)).1] at hmem
  omega

/-- The counter is the number of the cells that are marked. -/
def Counts (s : Series F X) : Prop := s.bitsetC = s.bitset.count true

theorem Tracked.counts (h : Tracked k s) (hzero : s.readings = 0 → s.bitsetC = 0) : Counts s := by
  by_cases hpos : 0 < s.readings
  · exact (h.count hpos).1
  · have hnil : s.bitset = [] := List.eq_nil_of_length_eq_zero (by rw [h.bitset]; omega)
    rw [Counts, hnil, hzero (by omega), List.count_nil]

theorem Tracked.bitsetC_of_counts (h : Tracked k s) (hcounts : Counts s) (hzero : s.readings = 0) :
    s.bitsetC = 0 := by
  have hnil : s.bitset = [] := List.eq_nil_of_length_eq_zero (h.bitset.trans hzero)
  rw [hcounts, hnil, List.count_nil]

section Perform

variable [Inhabited X]

/-- A reading that completes a series must find it inside; so must another number of cells, when
all that are left are marked. -/
def InsideOp (inside : Series F X → Prop) (s : Series F X) : SeriesOp F → Prop
  | .setCellArrangement _ _ => True
  | .checkChangeCellArrangement readings _ => readings ≠ s.readings → 0 < readings →
      (∀ j < readings, s.bitset[j]? = some true) → inside (remaining s readings)
  | .setCell index value => ReadingInside inside s index value
  | .restart => True
  | .reset => True

/-- The number of cells must not become 0 while some are marked. -/
def KeepsCount (s : Series F X) : SeriesOp F → Prop
  | .setCellArrangement readings _ => readings = 0 → s.bitsetC = 0
  | .checkChangeCellArrangement readings _ => readings = 0 → s.bitsetC = 0
  | .setCell _ _ => True
  | .restart => True
  | .reset => True

omit [Inhabited X] in
theorem insideOp_true (s : Series F X) (op : SeriesOp F) : InsideOp (fun _ => True) s op := by
  cases op with
  | setCellArrangement => trivial
  | checkChangeCellArrangement => exact fun _ _ _ => trivial
  | setCell => exact fun _ _ => trivial
  | restart => trivial
  | reset => trivial

/-- **Another number of cells** does to the members what it does to the tracker, if it stays
inside. The counter stays when there are no cells. -/
theorem Tracked.checkChange (hcheck : Checks check inside) (h : Tracked k s) (readings : ℕ)
    (readingspermodule : ℤ) :
    ((s.checkChangeCellArrangement check readings readingspermodule).isSome ↔
      InsideOp inside s (.checkChangeCellArrangement readings readingspermodule)) ∧
    ∀ p, s.checkChangeCellArrangement check readings readingspermodule = some p →
      Tracked (k.rearrange readings) p.1 ∧
        (readings = 0 → p.1.bitset = [] ∧ p.1.bitsetC = s.bitsetC) := by
  rw [InsideOp, Series.checkChangeCellArrangement]
  by_cases hne : readings ≠ s.readings
  swap
  · -- only the readings per module change, at most
    obtain rfl : readings = s.readings := not_not.mp hne
    have hnil : s.readings = 0 → s.bitset = [] := fun hzero =>
      List.eq_nil_of_length_eq_zero (h.bitset.trans hzero)
    rw [if_neg hne, Tracker.rearrange, if_pos h.readings]
    by_cases hmodule : s.perModule readingspermodule ≠ s.readingspermodule
    · rw [if_pos hmodule]
      refine ⟨iff_of_true rfl fun hne' => absurd rfl hne', fun p hp => ?_⟩
      obtain rfl := Option.some.inj hp
      exact ⟨⟨⟨h.values, h.mins, h.maxs, h.devmaxs, h.alerts, h.bitset⟩, h.readings, h.limitmin,
        h.limitmax, h.published, h.count, h.marks, h.kept⟩, fun hzero => ⟨hnil hzero, rfl⟩⟩
    · rw [if_neg hmodule]
      refine ⟨iff_of_true rfl fun hne' => absurd rfl hne', fun p hp => ?_⟩
      obtain rfl := Option.some.inj hp
      exact ⟨h, fun hzero => ⟨hnil hzero, rfl⟩⟩
  rw [if_pos hne]
  have hnek : readings ≠ k.cells := h.readings ▸ hne
  obtain ⟨fresh, hfresh, harranged, hnone, hzero⟩ :=
    h.arrange readings (s.perModule readingspermodule)
  have hmarked := h.marked (Nat.min_le_right readings k.cells)
  have hrearrange := Tracker.rearrange_eq (fun j value hj =>
    ⟨(h.kept j value hj).1, (h.kept j value hj).2.1⟩) hnek
  by_cases hc : s.bitsetC = 0
  · -- no cell is marked, so there is nothing to replay
    have hnil : k.readings (min readings k.cells) = [] := by
      refine List.filterMap_eq_nil_iff.mpr fun j hj => ?_
      rw [List.mem_range] at hj
      cases hgot : k.got j with
      | none => rfl
      | some value =>
          have hmark := h.marks j (by omega)
          rw [hgot] at hmark
          exact absurd hmark (h.bitset_ne_true hc j)
    rw [if_pos hc, hfresh]
    rw [hnil] at hrearrange
    refine ⟨iff_of_true rfl fun _ hpos hall => absurd (hall 0 hpos) (h.bitset_ne_true hc 0),
      fun p hp => ?_⟩
    obtain rfl := Option.some.inj hp
    rw [← hrearrange]
    exact ⟨harranged, hzero⟩
  · rw [if_neg hc, h.readings, hmarked, hfresh]
    simp only [Option.bind_eq_bind, Option.bind_some]
    have hreplay := h.replay_isSome hcheck harranged hnone
    cases hs' : (k.readings (min readings k.cells)).foldlM (Series.replay check) fresh with
    | none =>
        rw [hs'] at hreplay
        refine ⟨iff_of_false (by simp) fun hinside => ?_, fun p hp => by cases hp⟩
        exact absurd (hreplay.mpr (hinside hnek)) (by simp)
    | some s' =>
        rw [hs'] at hreplay
        refine ⟨iff_of_true rfl fun _ => hreplay.mp rfl, fun p hp => ?_⟩
        obtain rfl := Option.some.inj hp
        refine ⟨hrearrange ▸ harranged.replay hcheck hs', fun hr => ?_⟩
        have hnil : k.readings (min readings k.cells) = [] := by rw [hr, Nat.zero_min]; rfl
        rw [hnil] at hs'
        obtain rfl := Option.some.inj hs'
        exact hzero hr

/-- **A call** does to the members what it does to the tracker, exactly when it stays inside. -/
theorem Tracked.perform (hcheck : Checks check inside) (h : Tracked k s) (op : SeriesOp F) :
    ((s.perform check op).isSome ↔ InsideOp inside s op) ∧
      ∀ s', s.perform check op = some s' → Tracked (k.perform op) s' := by
  cases op with
  | setCellArrangement readings readingspermodule =>
      obtain ⟨s', hs', harranged, -⟩ := h.arrange readings readingspermodule
      rw [Series.perform, hs']
      refine ⟨iff_of_true rfl trivial, fun s₁ hs₁ => ?_⟩
      obtain rfl := Option.some.inj hs₁
      exact harranged
  | checkChangeCellArrangement readings readingspermodule =>
      obtain ⟨hsome, htracked⟩ := h.checkChange hcheck readings readingspermodule
      rw [Series.perform, Option.isSome_map, hsome]
      refine ⟨Iff.rfl, fun s₁ hs₁ => ?_⟩
      obtain ⟨p, hp, rfl⟩ := Option.map_eq_some_iff.mp hs₁
      exact (htracked p hp).1
  | setCell index value =>
      exact ⟨h.setCell_isSome hcheck index value, fun s' hs' => h.setCell hcheck hs'⟩
  | restart =>
      refine ⟨iff_of_true rfl trivial, fun s' hs' => ?_⟩
      obtain rfl := Option.some.inj hs'
      exact tracked_of_none ⟨h.values, h.mins, h.maxs, h.devmaxs, h.alerts,
        List.length_replicate⟩ h.readings h.limitmin h.limitmax h.published (fun _ => rfl) rfl rfl
  | reset =>
      obtain ⟨s', hs', htracked⟩ := h.reset
      rw [Series.perform, hs']
      refine ⟨iff_of_true rfl trivial, fun s₁ hs₁ => ?_⟩
      obtain rfl := Option.some.inj hs₁
      exact htracked

/-- **The counter** stays the number of marked cells unless the number of cells becomes 0 while some
are marked. -/
theorem Tracked.perform_counts (hcheck : Checks check inside) (h : Tracked k s) (hcounts : Counts s)
    {op : SeriesOp F} (hs' : s.perform check op = some s') : Counts s' ↔ KeepsCount s op := by
  have htracked := (h.perform hcheck op).2 s' hs'
  have hpositive : 0 < s'.readings → Counts s' := fun hpos => (htracked.count hpos).1
  have hcells := htracked.readings
  cases op with
  | setCellArrangement readings readingspermodule =>
      obtain ⟨s₁, hs₁, -, -, hzero⟩ := h.arrange readings readingspermodule
      obtain rfl := Option.some.inj (hs₁.symm.trans hs')
      by_cases hr : readings = 0
      · obtain ⟨hnil, hc⟩ := hzero hr
        rw [Counts, hnil, hc, List.count_nil]
        exact ⟨fun hc' _ => hc', fun hc' => hc' hr⟩
      · exact iff_of_true (hpositive (by rw [hcells]; exact Nat.pos_of_ne_zero hr))
          fun hr' => absurd hr' hr
  | checkChangeCellArrangement readings readingspermodule =>
      obtain ⟨p, hp, rfl⟩ := Option.map_eq_some_iff.mp hs'
      by_cases hr : readings = 0
      · obtain ⟨hnil, hc⟩ := ((h.checkChange hcheck readings readingspermodule).2 p hp).2 hr
        rw [Counts, hnil, hc, List.count_nil]
        exact ⟨fun hc' _ => hc', fun hc' => hc' hr⟩
      · refine iff_of_true (hpositive ?_) fun hr' => absurd hr' hr
        rw [hcells]
        change 0 < (k.rearrange readings).cells
        rw [Tracker.cells_rearrange]
        exact Nat.pos_of_ne_zero hr
  | setCell index value =>
      refine iff_of_true (htracked.counts fun hzero => ?_) trivial
      have hnone : s.readings = 0 := by
        rw [h.readings, ← Tracker.cells_read k index value]
        exact hcells.symm.trans hzero
      rw [Series.perform, Series.setCell, if_neg] at hs'
      · obtain rfl := Option.some.inj hs'
        exact h.bitsetC_of_counts hcounts hnone
      · intro hacc
        have := hacc.1
        omega
  | restart =>
      obtain rfl := Option.some.inj hs'
      exact iff_of_true (htracked.counts fun _ => rfl) trivial
  | reset =>
      refine iff_of_true (htracked.counts fun hzero => ?_) trivial
      have hnone : s.readings = 0 := h.readings.trans (hcells.symm.trans hzero)
      rw [Series.perform, Series.reset, if_neg (by omega)] at hs'
      obtain rfl := Option.some.inj hs'
      exact h.bitsetC_of_counts hcounts hnone

end Perform

end Tracked

/-! ### Both families -/

/-- A tracker for each family. -/
structure Trackers (F : Type) where
  v : Tracker F
  t : Tracker F

section Vehicle

variable {F D : Type} [Arith F] [Arith D] [Floats F D]

namespace Trackers

/-- What is called. -/
def step (k : Trackers F) : Op F → Trackers F
  | .voltages op => { k with v := k.v.perform op }
  | .temperatures op => { k with t := k.t.perform op }
  | .resetCellStats => ⟨k.v.restart, k.t.restart⟩
  | .configVoltage _ => k
  | .configTemperature _ => k

/-- No cells. -/
def new (vmin vmax tmin tmax : F) : Trackers F :=
  ⟨⟨vmin, vmax, 0, fun _ => none, []⟩, ⟨tmin, tmax, 0, fun _ => none, []⟩⟩

end Trackers

/-- The members for each family agree with its tracker, and the counters with the marks. -/
structure TracksBoth (k : Trackers F) (m : OvmsVehicle F) : Prop where
  v : Tracked k.v m.v
  t : Tracked k.t m.t
  countsV : Counts m.v
  countsT : Counts m.t

/-- What a step must not do. Voltages are always looked at inside. -/
def Allowed (m : OvmsVehicle F) : Op F → Prop
  | .voltages op => KeepsCount m.v op
  | .temperatures op => InsideOp (Inside m.v.alerts m.tthr) m.t op ∧ KeepsCount m.t op
  | .resetCellStats => True
  | .configVoltage _ => True
  | .configTemperature _ => True

/-- The tracking is exact in a run: no step leaves an array, and the members agree with the
trackers behind every one. -/
def Exact (vmin vmax tmin tmax : F) (vthr : VoltageThresholds F) (tthr : Thresholds F)
    (ops : List (Op F)) : Prop :=
  ∀ pre, pre <+: ops → ∃ m,
    pre.foldlM OvmsVehicle.step (OvmsVehicle.new vmin vmax tmin tmax vthr tthr) = some m ∧
      TracksBoth (pre.foldl Trackers.step (.new vmin vmax tmin tmax)) m

/-- **A step** does to the members what it does to the trackers, exactly when it is allowed. -/
theorem TracksBoth.step {k : Trackers F} {m : OvmsVehicle F} (h : TracksBoth k m) (op : Op F) :
    Allowed m op ↔ ∃ m', m.step op = some m' ∧ TracksBoth (k.step op) m' := by
  cases op with
  | voltages op =>
      have hcheck := checks_checkVoltage m.vthr
      obtain ⟨hsome, htracked⟩ := h.v.perform hcheck op
      obtain ⟨v, hv⟩ := Option.isSome_iff_exists.mp (hsome.mpr (insideOp_true m.v op))
      rw [Allowed, ← h.v.perform_counts hcheck h.countsV hv, OvmsVehicle.step,
        OvmsVehicle.voltages, hv]
      constructor
      · exact fun hcounts => ⟨{ m with v := v }, rfl, htracked v hv, h.t, hcounts, h.countsT⟩
      · rintro ⟨m', hm', htracks⟩
        obtain rfl := Option.some.inj hm'
        exact htracks.countsV
  | temperatures op =>
      have hcheck := checks_checkTemperature m.v.alerts m.tthr
      obtain ⟨hsome, htracked⟩ := h.t.perform hcheck op
      rw [Allowed, ← hsome, OvmsVehicle.step, OvmsVehicle.temperatures]
      cases ht : m.t.perform (checkTemperature m.v.alerts m.tthr) op with
      | none => simp
      | some t =>
          rw [← h.t.perform_counts hcheck h.countsT ht]
          constructor
          · exact fun hcounts => ⟨{ m with t := t }, rfl, h.v, htracked t ht, h.countsV, hcounts.2⟩
          · rintro ⟨m', hm', htracks⟩
            obtain rfl := Option.some.inj hm'
            exact ⟨rfl, htracks.countsT⟩
  | resetCellStats =>
      obtain ⟨v, hv, hv'⟩ := h.v.reset
      obtain ⟨t, ht, ht'⟩ := h.t.reset
      have hresetV : m.v.perform (checkVoltage m.vthr) .reset = some v := hv
      have hresetT : m.t.perform (checkTemperature m.v.alerts m.tthr) .reset = some t := ht
      have hcountsV := (h.v.perform_counts (checks_checkVoltage m.vthr) h.countsV hresetV).mpr
        trivial
      have hcountsT := (h.t.perform_counts (checks_checkTemperature m.v.alerts m.tthr) h.countsT
        hresetT).mpr trivial
      exact iff_of_true trivial ⟨{ m with v := v, t := t },
        by rw [OvmsVehicle.step, OvmsVehicle.resetCellStats, hv, ht]; rfl,
        hv', ht', hcountsV, hcountsT⟩
  | configVoltage thr => exact iff_of_true trivial ⟨_, rfl, h.v, h.t, h.countsV, h.countsT⟩
  | configTemperature thr => exact iff_of_true trivial ⟨_, rfl, h.v, h.t, h.countsV, h.countsT⟩

theorem tracksBoth_new (vmin vmax tmin tmax : F) (vthr : VoltageThresholds F)
    (tthr : Thresholds F) : TracksBoth (.new vmin vmax tmin tmax)
      (OvmsVehicle.new vmin vmax tmin tmax vthr tthr) :=
  ⟨tracked_of_none ⟨rfl, rfl, rfl, rfl, rfl, rfl⟩ rfl rfl rfl rfl (fun _ => rfl) rfl rfl,
    tracked_of_none ⟨rfl, rfl, rfl, rfl, rfl, rfl⟩ rfl rfl rfl rfl (fun _ => rfl) rfl rfl, rfl, rfl⟩

/-- **Tracking**: it is exact in a run exactly when every step is allowed. -/
theorem exact_iff_allowed (vmin vmax tmin tmax : F) (vthr : VoltageThresholds F)
    (tthr : Thresholds F) (ops : List (Op F)) : Exact vmin vmax tmin tmax vthr tthr ops ↔
      AlongSteps (fun m op m' => m.step op = some m') Allowed
        (OvmsVehicle.new vmin vmax tmin tmax vthr tthr) ops :=
  forall_prefix_refines_iff (fun _ _ op h => h.step op)
    (tracksBoth_new vmin vmax tmin tmax vthr tthr) ops

end Vehicle

/-- A series of five temperatures, one of which is to be warned of, is not tracked before there are
voltages. -/
theorem not_exact : ¬ ∀ (F D : Type) [Arith F] [Arith D] [Floats F D] (vmin vmax tmin tmax : F)
    (vthr : VoltageThresholds F) (tthr : Thresholds F) (ops : List (Op F)),
    Exact vmin vmax tmin tmax vthr tthr ops := by
  intro h
  obtain ⟨m, hm, -⟩ := h ℚ ℚ (-1000) 1000 (-1000) 1000 ⟨⟨1 / 50, 3 / 100⟩, 1 / 100, 1 / 100⟩ ⟨2, 3⟩
    [.temperatures (.setCellArrangement 5 1), .temperatures (.setCell 0 0),
      .temperatures (.setCell 1 0), .temperatures (.setCell 2 0), .temperatures (.setCell 3 0),
      .temperatures (.setCell 4 5)] _ List.prefix_rfl
  have hnone := Option.isSome_of_eq_some hm
  revert hnone
  decide +kernel

end Ovms.Bms
