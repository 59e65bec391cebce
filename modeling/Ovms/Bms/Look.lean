import Ovms.Bms.Model

/-!
# Looking at a Complete Series

What completes a series (`components/vehicle/vehicle_bms.cpp`): each cell is looked at, one after
the other, which changes its largest deviation and its alert level, and nothing else. Voltages are
always looked at inside their arrays. A temperature that is to be warned of is looked up among the
voltage alerts, which may have fewer cells.
-/

open Lib

namespace Ovms.Bms

@[simp] theorem write_of_lt {α : Type} {l : List α} {i : ℕ} (h : i < l.length) (a : α) :
    write l i a = some (l.set i a) :=
  if_pos h

/-! ### What a look may change -/

section Shape

variable {F X : Type}

/-- The arrays have an element for each cell. -/
structure Shaped (s : Series F X) : Prop where
  values : s.values.length = s.readings
  mins : s.mins.length = s.readings
  maxs : s.maxs.length = s.readings
  devmaxs : s.devmaxs.length = s.readings
  alerts : s.alerts.length = s.readings
  bitset : s.bitset.length = s.readings

/-- A function that looks at a complete series changes no more than deviations and alerts. -/
structure Looks (s s' : Series F X) : Prop where
  eq : ∃ devmaxs alerts alertsNew smooth counted, s' = { s with
    devmaxs := devmaxs, alerts := alerts, alertsNew := alertsNew, smooth := smooth
    counted := counted }
  devmaxs : s'.devmaxs.length = s.devmaxs.length
  alerts : s'.alerts.length = s.alerts.length

/-- A condition on a complete series is about its readings and alerts. -/
def Local (inside : Series F X → Prop) : Prop :=
  ∀ s s', s'.readings = s.readings → s'.values = s.values → s'.alerts = s.alerts →
    (inside s' ↔ inside s)

/-- What completes a series stays inside when it should, and looks at the series. -/
structure Checks (check : Series F X → Option (Series F X)) (inside : Series F X → Prop) :
    Prop where
  isSome : ∀ s, Shaped s → ((check s).isSome ↔ inside s)
  looks : ∀ s s', Shaped s → check s = some s' → Looks s s'
  isLocal : Local inside

theorem Looks.refl (s : Series F X) : Looks s s := ⟨⟨_, _, _, _, _, rfl⟩, rfl, rfl⟩

theorem checks_some : Checks (some : Series F X → Option (Series F X)) fun _ => True where
  isSome := fun _ _ => iff_of_true rfl trivial
  looks := fun s s' _ hs' => by
    obtain rfl := Option.some.inj hs'
    exact .refl s
  isLocal := fun _ _ _ _ _ => Iff.rfl

end Shape

/-! ### A look at a cell -/

section Look

variable {F D X : Type} [Arith F] [Arith D] [Floats F D] {s s' : Series F X} {i : ℕ}
  {W : OvmsStatus → Prop}

/-- A cell is looked at: its largest deviation may change; it may become an alert, and is counted
then; or it is warned of, if its level admits that. -/
inductive Raises (W : OvmsStatus → Prop) (s : Series F X) (i : ℕ) : Series F X → Prop
  | keep (devmaxs : List F) (hdevmaxs : devmaxs.length = s.devmaxs.length) :
      Raises W s i { s with devmaxs := devmaxs }
  | warn (devmaxs : List F) (hdevmaxs : devmaxs.length = s.devmaxs.length) (a : OvmsStatus)
      (ha : s.alerts[i]? = some a) (hW : W a) :
      Raises W s i { s with devmaxs := devmaxs, alerts := s.alerts.set i .warn }
  | alert (devmaxs : List F) (hdevmaxs : devmaxs.length = s.devmaxs.length) (a : OvmsStatus)
      (ha : s.alerts[i]? = some a) (hlevel : a.level < OvmsStatus.alert.level) :
      Raises W s i { s with
        devmaxs := devmaxs, alerts := s.alerts.set i .alert, alertsNew := s.alertsNew + 1
        counted := s.counted ++ [i] }

omit [Arith F] in
theorem Raises.looks (h : Raises W s i s') : Looks s s' := by
  cases h with
  | keep devmaxs hdevmaxs => exact ⟨⟨_, _, _, _, _, rfl⟩, hdevmaxs, rfl⟩
  | warn devmaxs hdevmaxs => exact ⟨⟨_, _, _, _, _, rfl⟩, hdevmaxs, by simp⟩
  | alert devmaxs hdevmaxs => exact ⟨⟨_, _, _, _, _, rfl⟩, hdevmaxs, by simp⟩

omit [Arith F] in
theorem Raises.alerts_of_ne (h : Raises W s i s') {j : ℕ} (hj : j ≠ i) :
    s'.alerts[j]? = s.alerts[j]? := by
  cases h with
  | keep => rfl
  | warn => exact List.getElem?_set_ne (Ne.symm hj)
  | alert => exact List.getElem?_set_ne (Ne.symm hj)

omit [Arith F] in
theorem Looks.shaped (h : Looks s s') (hs : Shaped s) : Shaped s' := by
  obtain ⟨⟨devmaxs, alerts, alertsNew, smooth, counted, rfl⟩, hdevmaxs, halerts⟩ := h
  exact ⟨hs.values, hs.mins, hs.maxs, hdevmaxs.trans hs.devmaxs, halerts.trans hs.alerts,
    hs.bitset⟩

omit [Arith F] in
theorem Looks.trans {s₁ s₂ s₃ : Series F X} (h : Looks s₁ s₂) (h' : Looks s₂ s₃) :
    Looks s₁ s₃ := by
  obtain ⟨⟨_, _, _, _, _, rfl⟩, hdevmaxs, halerts⟩ := h
  obtain ⟨⟨_, _, _, _, _, rfl⟩, hdevmaxs', halerts'⟩ := h'
  exact ⟨⟨_, _, _, _, _, rfl⟩, hdevmaxs'.trans hdevmaxs, halerts'.trans halerts⟩

/-- The largest deviation of a cell is inside. -/
theorem deviate_eq (h : Shaped s) (hi : i < s.readings) (dev : F) :
    ∃ devmaxs, devmaxs.length = s.devmaxs.length ∧
      s.deviate i dev = some { s with devmaxs := devmaxs } := by
  have hdevmaxs : i < s.devmaxs.length := h.devmaxs ▸ hi
  rw [Series.deviate, write_of_lt hdevmaxs, List.getElem?_eq_getElem hdevmaxs]
  simp only [Option.bind_eq_bind, Option.bind_some]
  split
  · exact ⟨_, by simp, rfl⟩
  · exact ⟨_, rfl, rfl⟩

/-! ### A complete series -/

/-- **A cell of a complete series of voltages** is looked at. -/
theorem checkCellVoltage_raises {s : Series F (Smoothing F)} (h : Shaped s) (hi : i < s.readings)
    (thr : VoltageThresholds F) (avg stddev : D) :
    ∃ s', checkCellVoltage thr avg stddev s i = some s' ∧
      Raises (fun a => a.level < OvmsStatus.warn.level) s i s' := by
  have hvalues : i < s.values.length := h.values ▸ hi
  have halerts : i < s.alerts.length := h.alerts ▸ hi
  rw [checkCellVoltage, List.getElem?_eq_getElem hvalues, Option.bind_eq_bind, Option.bind_some]
  obtain ⟨devmaxs, hdevmaxs, hdeviate⟩ := deviate_eq h hi
    (Floats.narrow (Floats.roundPrec F (Floats.widen s.values[i] - avg) 5))
  have hat := List.getElem?_eq_getElem halerts
  simp only [hdeviate, hat, Option.bind_eq_bind, Option.bind_some, Series.raiseAlert,
    Series.raiseWarn, write_of_lt halerts]
  split
  · rename_i hreach
    exact ⟨_, rfl, .alert devmaxs hdevmaxs _ hat (Nat.lt_succ_of_le hreach.2)⟩
  split
  · rename_i hreach
    exact ⟨_, rfl, .warn devmaxs hdevmaxs _ hat hreach.2⟩
  · exact ⟨_, rfl, .keep devmaxs hdevmaxs⟩

/-- A cell of a complete series of temperatures is looked up among the voltage alerts. -/
def LooksUp (thr : Thresholds F) (avg stddev : D) (s : Series F Unit) (i : ℕ)
    (talert : OvmsStatus) : Prop :=
  ∃ value, s.values[i]? = some value ∧ s.alerts[i]? = some talert ∧
    ¬ (Series.Reaches (temperatureDev value avg) stddev thr.alert ∧
      talert.level < OvmsStatus.alert.level) ∧
    Series.Reaches (temperatureDev value avg) stddev thr.warn

/-- **A cell of a complete series of temperatures** is looked at, if it is found among the voltage
alerts when it is looked up there. -/
theorem checkCellTemperature_raises {s : Series F Unit} (h : Shaped s) (hi : i < s.readings)
    {valerts : List OvmsStatus} {thr : Thresholds F} {avg stddev : D} {W : OvmsStatus → Prop}
    (hW : ∀ talert valert, LooksUp thr avg stddev s i talert → valerts[i]? = some valert →
      valert.level < OvmsStatus.warn.level → W talert) :
    ((checkCellTemperature valerts thr avg stddev s i).isSome ↔
      ∀ talert, LooksUp thr avg stddev s i talert → i < valerts.length) ∧
    ∀ s', checkCellTemperature valerts thr avg stddev s i = some s' → Raises W s i s' := by
  have hvalues : i < s.values.length := h.values ▸ hi
  have halerts : i < s.alerts.length := h.alerts ▸ hi
  have hvalue := List.getElem?_eq_getElem hvalues
  have hat := List.getElem?_eq_getElem halerts
  have hlooks : ∀ talert, LooksUp thr avg stddev s i talert →
      ¬ (Series.Reaches (temperatureDev s.values[i] avg) stddev thr.alert ∧
        s.alerts[i].level < OvmsStatus.alert.level) ∧
      Series.Reaches (temperatureDev s.values[i] avg) stddev thr.warn := by
    rintro talert ⟨value, hval, htal, hnot, hreach⟩
    obtain rfl := Option.some.inj (hvalue.symm.trans hval)
    obtain rfl := Option.some.inj (hat.symm.trans htal)
    exact ⟨hnot, hreach⟩
  rw [checkCellTemperature, hvalue, Option.bind_eq_bind, Option.bind_some]
  obtain ⟨devmaxs, hdevmaxs, hdeviate⟩ := deviate_eq h hi (temperatureDev s.values[i] avg)
  simp only [hdeviate, hat, Option.bind_eq_bind, Option.bind_some, Series.raiseAlert,
    Series.raiseWarn, write_of_lt halerts]
  split
  · rename_i hreach
    refine ⟨iff_of_true rfl fun talert hlook => absurd hreach (hlooks talert hlook).1,
      fun s' hs' => ?_⟩
    obtain rfl := Option.some.inj hs'
    exact .alert devmaxs hdevmaxs _ hat hreach.2
  rename_i hnot
  split
  · rename_i hreach
    have hlook : LooksUp thr avg stddev s i s.alerts[i] := ⟨_, hvalue, hat, hnot, hreach⟩
    cases hvalert : valerts[i]? with
    | none =>
        rw [List.getElem?_eq_none_iff] at hvalert
        refine ⟨iff_of_false (by simp) fun hin => ?_, fun s' hs' => by cases hs'⟩
        exact absurd (hin _ hlook) (Nat.not_lt.mpr hvalert)
    | some valert =>
        have hin := (List.getElem?_eq_some_iff.mp hvalert).1
        rw [Option.bind_some]
        split
        · rename_i hlow
          refine ⟨iff_of_true rfl fun _ _ => hin, fun s' hs' => ?_⟩
          obtain rfl := Option.some.inj hs'
          exact .warn devmaxs hdevmaxs _ hat (hW _ valert hlook hvalert hlow)
        · refine ⟨iff_of_true rfl fun _ _ => hin, fun s' hs' => ?_⟩
          obtain rfl := Option.some.inj hs'
          exact .keep devmaxs hdevmaxs
  · rename_i hfar
    refine ⟨iff_of_true rfl fun talert hlook => absurd (hlooks talert hlook).2 hfar,
      fun s' hs' => ?_⟩
    obtain rfl := Option.some.inj hs'
    exact .keep devmaxs hdevmaxs

omit [Arith F] in
/-- Cells are looked at one after the other. A condition on a cell is met by the series as it was
before the look at others. -/
theorem looks_foldlM (cell : Series F X → ℕ → Option (Series F X)) {A : Series F X → ℕ → Prop}
    (hcell : ∀ s i, Shaped s → i < s.readings → ((cell s i).isSome ↔ A s i) ∧
      ∀ s', cell s i = some s' → Raises W s i s')
    (hA : ∀ (s s' : Series F X) (i : ℕ), s'.values = s.values → s'.alerts[i]? = s.alerts[i]? →
      (A s' i ↔ A s i)) (h : Shaped s) {cells : List ℕ} (hnodup : cells.Nodup)
    (hcells : ∀ i ∈ cells, i < s.readings) :
    ((cells.foldlM cell s).isSome ↔ ∀ i ∈ cells, A s i) ∧
      ∀ s', cells.foldlM cell s = some s' → Looks s s' := by
  induction cells generalizing s with
  | nil =>
      refine ⟨iff_of_true rfl (by simp), fun s' hs' => ?_⟩
      obtain rfl := Option.some.inj hs'
      exact .refl s
  | cons i cells ih =>
      obtain ⟨hi, hothers⟩ := List.forall_mem_cons.mp hcells
      obtain ⟨hnotin, hrest⟩ := List.nodup_cons.mp hnodup
      obtain ⟨hsome, hraises⟩ := hcell s i h hi
      rw [List.foldlM_cons, List.forall_mem_cons, ← hsome, Option.bind_eq_bind]
      cases hs₁ : cell s i with
      | none => simp
      | some s₁ =>
          have hraise := hraises s₁ hs₁
          have hlooks := hraise.looks
          have hshaped := hlooks.shaped h
          obtain ⟨⟨_, _, _, _, _, heq⟩, -, -⟩ := id hlooks
          have hreadings : s₁.readings = s.readings := by rw [heq]
          have hvalues : s₁.values = s.values := by rw [heq]
          obtain ⟨hsome', hlooks'⟩ := ih hshaped hrest fun j hj => hreadings ▸ hothers j hj
          rw [Option.bind_some, hsome']
          refine ⟨?_, fun s' hs' => hlooks.trans (hlooks' s' hs')⟩
          have hsame : ∀ j ∈ cells, (A s₁ j ↔ A s j) := fun j hj =>
            hA s s₁ j hvalues (hraise.alerts_of_ne fun hji => hnotin (hji ▸ hj))
          rw [Option.isSome_some, eq_self, true_and]
          exact forall₂_congr hsame

/-- The cells of a complete series of voltages are looked at. -/
theorem checkCellsVoltage_looks {s : Series F (Smoothing F)} (h : Shaped s)
    (thr : VoltageThresholds F) (avg stddev : D) :
    ∃ s', (List.range s.readings).foldlM (checkCellVoltage thr avg stddev) s = some s' ∧
      Looks s s' := by
  have hcell : ∀ (s : Series F (Smoothing F)) (i : ℕ), Shaped s → i < s.readings →
      ((checkCellVoltage thr avg stddev s i).isSome ↔ True) ∧
        ∀ s', checkCellVoltage thr avg stddev s i = some s' →
          Raises (fun a => a.level < OvmsStatus.warn.level) s i s' := by
    intro s i h hi
    obtain ⟨s', hs', hraises⟩ := checkCellVoltage_raises h hi thr avg stddev
    refine ⟨iff_of_true (Option.isSome_iff_exists.mpr ⟨s', hs'⟩) trivial, fun s₁ hs₁ => ?_⟩
    obtain rfl := Option.some.inj (hs'.symm.trans hs₁)
    exact hraises
  obtain ⟨hsome, hlooks⟩ := looks_foldlM _ hcell (fun _ _ _ _ _ => Iff.rfl) h List.nodup_range
    fun i hi => List.mem_range.mp hi
  obtain ⟨s', hs'⟩ := Option.isSome_iff_exists.mp (hsome.mpr fun _ _ => trivial)
  exact ⟨s', hs', hlooks s' hs'⟩

/-- **A complete series of voltages** is looked at. -/
theorem checkVoltage_looks {s : Series F (Smoothing F)} (h : Shaped s)
    (thr : VoltageThresholds F) : ∃ s', checkVoltage thr s = some s' ∧ Looks s s' := by
  have hvalues := readBlock_eq_some
    (show 0 + s.readings ≤ s.values.length by rw [h.values]; omega)
  rw [checkVoltage, hvalues, Option.bind_eq_bind, Option.bind_some]
  obtain ⟨valid, smooth⟩ := seriesValid thr _ _ _
  have hlooks : Looks s { s with smooth := smooth } := ⟨⟨_, _, _, _, _, rfl⟩, rfl, rfl⟩
  cases valid with
  | false => exact ⟨_, rfl, hlooks⟩
  | true =>
      obtain ⟨s', hs', hlooks'⟩ := checkCellsVoltage_looks (hlooks.shaped h) thr _ _
      exact ⟨s', hs', hlooks.trans hlooks'⟩

/-- It never leaves its arrays. -/
theorem checks_checkVoltage (thr : VoltageThresholds F) :
    Checks (checkVoltage thr) fun _ => True where
  isSome := fun s h => by
    obtain ⟨s', hs', -⟩ := checkVoltage_looks h thr
    exact iff_of_true (Option.isSome_iff_exists.mpr ⟨s', hs'⟩) trivial
  looks := fun s s' h hs' => by
    obtain ⟨s₁, hs₁, hlooks⟩ := checkVoltage_looks h thr
    obtain rfl := Option.some.inj (hs₁.symm.trans hs')
    exact hlooks
  isLocal := fun _ _ _ _ _ => Iff.rfl

/-- The cells of a complete series of temperatures that are looked up among the voltage alerts
are found there. -/
def Inside (valerts : List OvmsStatus) (thr : Thresholds F) (s : Series F Unit) : Prop :=
  ∀ i < s.readings, ∀ talert,
    LooksUp thr (Series.average s.values) (Series.stddev s.values) s i talert → i < valerts.length

/-- **A complete series of temperatures** is looked at, if its cells are found among the voltage
alerts when they are looked up there. -/
theorem checks_checkTemperature (valerts : List OvmsStatus) (thr : Thresholds F) :
    Checks (checkTemperature valerts thr) (Inside valerts thr) := by
  have hlook : ∀ s : Series F Unit, Shaped s →
      ((checkTemperature valerts thr s).isSome ↔ Inside valerts thr s) ∧
        ∀ s', checkTemperature valerts thr s = some s' → Looks s s' := by
    intro s h
    have hvalues := readBlock_eq_some
      (show 0 + s.readings ≤ s.values.length by rw [h.values]; omega)
    rw [List.drop_zero, List.take_of_length_le h.values.le] at hvalues
    rw [checkTemperature, hvalues, Option.bind_eq_bind, Option.bind_some]
    obtain ⟨hsome, hlooks⟩ := looks_foldlM (W := fun _ => True)
      (checkCellTemperature valerts thr (Series.average s.values) (Series.stddev s.values))
      (fun s' i h hi => checkCellTemperature_raises h hi fun _ _ _ _ _ => trivial)
      (fun s₁ s₂ i hvalues halerts => by simp only [LooksUp, hvalues, halerts]) h List.nodup_range
      (fun i hi => List.mem_range.mp hi)
    rw [hsome]
    exact ⟨forall_congr' fun i => by rw [List.mem_range], hlooks⟩
  exact ⟨fun s h => (hlook s h).1, fun s s' h hs' => (hlook s h).2 s' hs',
    fun s s' hreadings hvalues halerts => by
      simp only [Inside, LooksUp, hreadings, hvalues, halerts]⟩

end Look

end Ovms.Bms
