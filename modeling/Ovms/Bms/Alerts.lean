import Ovms.Bms.Tracking

/-!
# Alerts

The alert levels of battery cells (`components/vehicle/vehicle_bms.cpp`). They should rise until
the next reset, a cell should be counted once as a new alert, and neither family should depend on
the readings of the other.

The look at a complete series of temperatures asks whether the *voltage* alert of a cell is below
a warning, where it should ask that of the temperature alert. So a temperature alert is taken back
to a warning, and counted again, while the voltage of the cell is all right; and a cell that is to
be warned of is not, while there is a warning of its voltage.

## Main results

* `checkTemperature_eq_own`: the two looks agree when the alerts do.
* `latches_checkVoltage`, `latches_checkOwn`: a look takes no level back, and counts a cell once.
* `latching_of_agreeing`: alerts do what they should along runs in which they agree.
-/

open Lib

namespace Ovms.Bms

/-! ### What alerts should do -/

section Latch

variable {F X : Type}

/-- No level is taken back. -/
def Rises (alerts alerts' : List OvmsStatus) : Prop :=
  ∀ (i : ℕ) (a : OvmsStatus), alerts[i]? = some a → ∃ a', alerts'[i]? = some a' ∧ a.level ≤ a'.level

/-- The cells that were counted as new alerts since the last reset were counted once, and are
alerts. -/
structure Once (s : Series F X) : Prop where
  new : s.alertsNew = s.counted.length
  nodup : s.counted.Nodup
  alert : ∀ i ∈ s.counted, s.alerts[i]? = some .alert

/-- Nothing is taken back, and no cell is counted twice. -/
structure Latches (s s' : Series F X) : Prop where
  rises : Rises s.alerts s'.alerts
  once : Once s → Once s'

theorem Rises.refl (alerts : List OvmsStatus) : Rises alerts alerts := fun _ a ha => ⟨a, ha, le_rfl⟩

theorem Rises.trans {a b c : List OvmsStatus} (h : Rises a b) (h' : Rises b c) : Rises a c := by
  intro i x hx
  obtain ⟨y, hy, hle⟩ := h i x hx
  obtain ⟨z, hz, hle'⟩ := h' i y hy
  exact ⟨z, hz, hle.trans hle'⟩

theorem Latches.refl (s : Series F X) : Latches s s := ⟨.refl _, id⟩

theorem Latches.trans {s t u : Series F X} (h : Latches s t) (h' : Latches t u) : Latches s u :=
  ⟨h.rises.trans h'.rises, fun honce => h'.once (h.once honce)⟩

/-- A cell is raised to a level that is no lower. -/
theorem rises_set {alerts : List OvmsStatus} {i : ℕ} {a b : OvmsStatus} (ha : alerts[i]? = some a)
    (hab : a.level ≤ b.level) : Rises alerts (alerts.set i b) := by
  intro j x hx
  by_cases hij : i = j
  · subst hij
    obtain rfl := Option.some.inj (ha.symm.trans hx)
    exact ⟨b, List.getElem?_set_self (List.getElem?_eq_some_iff.mp ha).1, hab⟩
  · exact ⟨x, by rw [List.getElem?_set_ne hij, hx], le_rfl⟩

theorem OvmsStatus.level_le (a : OvmsStatus) : a.level ≤ OvmsStatus.alert.level := by
  cases a <;> simp [OvmsStatus.level]

/-- **A look at a cell** takes nothing back, if it warns of cells below a warning only. -/
theorem Raises.latches {s s' : Series F X} {i : ℕ}
    (h : Raises (fun a => a.level < OvmsStatus.warn.level) s i s') : Latches s s' := by
  cases h with
  | keep devmaxs hdevmaxs => exact ⟨.refl _, fun honce => ⟨honce.new, honce.nodup, honce.alert⟩⟩
  | warn devmaxs hdevmaxs a ha hW =>
      refine ⟨rises_set ha (le_of_lt hW), fun honce => ⟨honce.new, honce.nodup, fun j hj => ?_⟩⟩
      have hne : i ≠ j := by
        rintro rfl
        have hat := honce.alert i hj
        rw [ha, Option.some.injEq] at hat
        subst hat
        exact absurd hW (by decide)
      change (s.alerts.set i .warn)[j]? = some .alert
      rw [List.getElem?_set_ne hne]
      exact honce.alert j hj
  | alert devmaxs hdevmaxs a ha hlevel =>
      refine ⟨rises_set ha a.level_le, fun honce => ?_⟩
      -- it was no alert, so it was not counted
      have hnew : i ∉ s.counted := fun hi => by
        have hat := honce.alert i hi
        rw [ha, Option.some.injEq] at hat
        subst hat
        exact absurd hlevel (Nat.lt_irrefl _)
      refine ⟨?_, ?_, fun j hj => ?_⟩
      · change s.alertsNew + 1 = (s.counted ++ [i]).length
        rw [honce.new, List.length_append, List.length_singleton]
      · refine List.nodup_append.mpr ⟨honce.nodup, by simp, fun x hx y hy => ?_⟩
        rw [List.mem_singleton] at hy
        rintro rfl
        exact hnew (hy ▸ hx)
      · change (s.alerts.set i .alert)[j]? = some .alert
        by_cases hij : i = j
        · subst hij
          exact List.getElem?_set_self (List.getElem?_eq_some_iff.mp ha).1
        · rw [List.getElem?_set_ne hij]
          refine honce.alert j ((List.mem_append.mp hj).resolve_right fun hj' => ?_)
          exact hij (List.mem_singleton.mp hj').symm

/-- **Looks at cells**, one after the other, take nothing back. A condition on a cell is met by the
series as it was before the look at others. -/
theorem latches_foldlM {cell : Series F X → ℕ → Option (Series F X)} {A : Series F X → ℕ → Prop}
    (hcell : ∀ s i, Shaped s → i < s.readings → A s i → ∀ s', cell s i = some s' →
      Raises (fun a => a.level < OvmsStatus.warn.level) s i s')
    (hA : ∀ (s s' : Series F X) (i : ℕ), s'.values = s.values → s'.alerts[i]? = s.alerts[i]? →
      A s i → A s' i) {s s' : Series F X} (h : Shaped s) {cells : List ℕ}
    (hnodup : cells.Nodup) (hcells : ∀ i ∈ cells, i < s.readings) (hall : ∀ i ∈ cells, A s i)
    (hs' : cells.foldlM cell s = some s') : Latches s s' := by
  induction cells generalizing s with
  | nil =>
      obtain rfl := Option.some.inj hs'
      exact .refl s
  | cons i cells ih =>
      obtain ⟨hi, hothers⟩ := List.forall_mem_cons.mp hcells
      obtain ⟨hAi, hAothers⟩ := List.forall_mem_cons.mp hall
      obtain ⟨hnotin, hrest⟩ := List.nodup_cons.mp hnodup
      rw [List.foldlM_cons, Option.bind_eq_bind, Option.bind_eq_some_iff] at hs'
      obtain ⟨s₁, hs₁, hs'⟩ := hs'
      have hraise := hcell s i h hi hAi s₁ hs₁
      obtain ⟨⟨_, _, _, _, _, heq⟩, -, -⟩ := hraise.looks
      have hreadings : s₁.readings = s.readings := by rw [heq]
      have hvalues : s₁.values = s.values := by rw [heq]
      refine hraise.latches.trans (ih (hraise.looks.shaped h) hrest
        (fun j hj => hreadings ▸ hothers j hj) (fun j hj => ?_) hs')
      exact hA s s₁ j hvalues (hraise.alerts_of_ne fun hji => hnotin (hji ▸ hj)) (hAothers j hj)

end Latch

/-! ### Looks that take nothing back -/

section Looks

variable {F D : Type} [Arith F] [Arith D] [Floats F D]

/-- **A complete series of voltages** takes nothing back. -/
theorem latches_checkVoltage {thr : VoltageThresholds F} {s s' : Series F (Smoothing F)}
    (h : Shaped s) (hs' : checkVoltage thr s = some s') : Latches s s' := by
  have hvalues := readBlock_eq_some
    (show 0 + s.readings ≤ s.values.length by rw [h.values]; omega)
  rw [checkVoltage, hvalues, Option.bind_eq_bind, Option.bind_some] at hs'
  revert hs'
  obtain ⟨valid, smooth⟩ := seriesValid thr _ _ _
  intro hs'
  have hsmooth : Latches s { s with smooth := smooth } :=
    ⟨.refl _, fun honce => ⟨honce.new, honce.nodup, honce.alert⟩⟩
  cases valid with
  | false =>
      obtain rfl := Option.some.inj hs'
      exact hsmooth
  | true =>
      refine hsmooth.trans (latches_foldlM (A := fun _ _ => True) ?_ (fun _ _ _ _ _ => id)
        ⟨h.values, h.mins, h.maxs, h.devmaxs, h.alerts, h.bitset⟩ List.nodup_range
        (fun i hi => List.mem_range.mp hi) (fun _ _ => trivial) hs')
      intro s i h hi _ s' hs'
      obtain ⟨s₁, hs₁, hraises⟩ := checkCellVoltage_raises h hi thr _ _
      obtain rfl := Option.some.inj (hs₁.symm.trans hs')
      exact hraises

/-- The look at a complete series of temperatures, if it were at the temperature alerts. -/
def checkOwn (thr : Thresholds F) (s : Series F Unit) : Option (Series F Unit) :=
  checkTemperature s.alerts thr s

/-- It never leaves its arrays. -/
theorem checks_checkOwn (thr : Thresholds F) : Checks (checkOwn thr) fun _ => True where
  isSome := fun s h => by
    refine iff_of_true (((checks_checkTemperature s.alerts thr).isSome s h).mpr ?_) trivial
    rintro i hi talert -
    rw [h.alerts]
    exact hi
  looks := fun s s' h hs' => (checks_checkTemperature s.alerts thr).looks s s' h hs'
  isLocal := fun _ _ _ _ _ => Iff.rfl

/-- **It takes nothing back.** -/
theorem latches_checkOwn {thr : Thresholds F} {s s' : Series F Unit} (h : Shaped s)
    (hs' : checkOwn thr s = some s') : Latches s s' := by
  have hvalues := readBlock_eq_some
    (show 0 + s.readings ≤ s.values.length by rw [h.values]; omega)
  rw [checkOwn, checkTemperature, hvalues, Option.bind_eq_bind, Option.bind_some] at hs'
  refine latches_foldlM (A := fun s' i => s'.alerts[i]? = s.alerts[i]?) ?_
    (fun s₁ s₂ i _ halerts hA => halerts.trans hA) h List.nodup_range
    (fun i hi => List.mem_range.mp hi) (fun _ _ => rfl) hs'
  intro s₁ i h₁ hi hA s₂ hs₂
  refine (checkCellTemperature_raises h₁ hi fun talert valert hlook hvalert hlow => ?_).2 s₂ hs₂
  obtain ⟨_, _, htalert, _⟩ := hlook
  rw [hA] at htalert
  obtain rfl := Option.some.inj (htalert.symm.trans hvalert)
  exact hlow

/-! ### Looks that agree -/

/-- The voltage alerts of the cells that are looked up there are there, and raise a cell to a
warning when its temperature alert is below. -/
def Agrees (valerts : List OvmsStatus) (thr : Thresholds F) (s : Series F Unit) : Prop :=
  ∀ i < s.readings, ∀ talert,
    LooksUp thr (Series.average s.values) (Series.stddev s.values) s i talert →
      ∃ valert, valerts[i]? = some valert ∧
        (talert = .ok → valert.level < OvmsStatus.warn.level) ∧
        (talert = .alert → OvmsStatus.warn.level ≤ valert.level)

theorem isLocal_agrees (valerts : List OvmsStatus) (thr : Thresholds F) :
    Local (Agrees valerts thr) := by
  intro s s' hreadings hvalues halerts
  simp only [Agrees, LooksUp, hreadings, hvalues, halerts]

/-- **A look at a cell** agrees with one at the temperature alerts. -/
theorem checkCellTemperature_congr {valerts talerts : List OvmsStatus} {thr : Thresholds F}
    {avg stddev : D} {s : Series F Unit} {i : ℕ} (h : Shaped s) (hi : i < s.readings)
    (htalerts : s.alerts[i]? = talerts[i]?)
    (hagrees : ∀ talert, LooksUp thr avg stddev s i talert → ∃ valert, valerts[i]? = some valert ∧
      (talert = .ok → valert.level < OvmsStatus.warn.level) ∧
      (talert = .alert → OvmsStatus.warn.level ≤ valert.level)) :
    checkCellTemperature valerts thr avg stddev s i
      = checkCellTemperature talerts thr avg stddev s i := by
  have hvalues : i < s.values.length := h.values ▸ hi
  have halerts : i < s.alerts.length := h.alerts ▸ hi
  have hvalue := List.getElem?_eq_getElem hvalues
  have hat := List.getElem?_eq_getElem halerts
  obtain ⟨devmaxs, hdevmaxs, hdeviate⟩ := deviate_eq h hi (temperatureDev s.values[i] avg)
  simp only [checkCellTemperature, hvalue, hdeviate, hat, Option.bind_eq_bind, Option.bind_some]
  by_cases hreach : Series.Reaches (temperatureDev s.values[i] avg) stddev thr.alert ∧
      s.alerts[i].level < OvmsStatus.alert.level
  · rw [if_pos hreach, if_pos hreach]
  rw [if_neg hreach, if_neg hreach]
  by_cases hwarn : Series.Reaches (temperatureDev s.values[i] avg) stddev thr.warn
  swap
  · rw [if_neg hwarn, if_neg hwarn]
  obtain ⟨valert, hvalert, hok, halert⟩ := hagrees _ ⟨_, hvalue, hat, hreach, hwarn⟩
  rw [if_pos hwarn, if_pos hwarn, hvalert, ← htalerts, hat, Option.bind_some, Option.bind_some]
  cases hlevel : s.alerts[i] with
  | ok => rw [if_pos (hok hlevel), if_pos (by decide)]
  | alert => rw [if_neg (Nat.not_lt.mpr (halert hlevel)), if_neg (by decide)]
  | warn =>
      -- to warn of it again changes nothing
      have hsame : s.alerts.set i .warn = s.alerts := by
        rw [← hlevel, List.set_getElem_self]
      rw [if_neg (Nat.lt_irrefl _), Series.raiseWarn, write_of_lt halerts, hsame]
      exact ite_self _

/-- **A complete series of temperatures** agrees with a look at the temperature alerts. -/
theorem checkTemperature_eq_own {valerts : List OvmsStatus} {thr : Thresholds F}
    {s : Series F Unit} (h : Shaped s) (hagrees : Agrees valerts thr s) :
    checkTemperature valerts thr s = checkOwn thr s := by
  have hvalues := readBlock_eq_some
    (show 0 + s.readings ≤ s.values.length by rw [h.values]; omega)
  rw [List.drop_zero, List.take_of_length_le h.values.le] at hvalues
  rw [checkOwn, checkTemperature, checkTemperature, hvalues, Option.bind_eq_bind,
    Option.bind_some, Option.bind_some]
  -- the loop over any cells, from any series that is the same at those
  have hloop : ∀ (cells : List ℕ) (s₁ : Series F Unit), Shaped s₁ → s₁.readings = s.readings →
      s₁.values = s.values → cells.Nodup → (∀ i ∈ cells, i < s.readings) →
      (∀ i ∈ cells, s₁.alerts[i]? = s.alerts[i]?) →
      cells.foldlM (checkCellTemperature valerts thr (Series.average s.values)
        (Series.stddev s.values)) s₁ =
      cells.foldlM (checkCellTemperature s.alerts thr (Series.average s.values)
        (Series.stddev s.values)) s₁ := by
    intro cells
    induction cells with
    | nil => exact fun _ _ _ _ _ _ _ => rfl
    | cons i cells ih =>
        intro s₁ h₁ hreadings hval hnodup hcells hsame
        obtain ⟨hi, hothers⟩ := List.forall_mem_cons.mp hcells
        obtain ⟨hsamei, hsameothers⟩ := List.forall_mem_cons.mp hsame
        obtain ⟨hnotin, hrest⟩ := List.nodup_cons.mp hnodup
        have hlook : ∀ talert, LooksUp thr (Series.average s.values) (Series.stddev s.values) s₁ i
            talert → LooksUp thr (Series.average s.values) (Series.stddev s.values) s i talert :=
          fun talert hlook => by simpa only [LooksUp, hval, hsamei] using hlook
        rw [List.foldlM_cons, List.foldlM_cons, checkCellTemperature_congr h₁ (hreadings ▸ hi)
          hsamei fun talert htalert => hagrees i hi talert (hlook talert htalert)]
        cases hs₂ : checkCellTemperature s.alerts thr (Series.average s.values)
            (Series.stddev s.values) s₁ i with
        | none => rfl
        | some s₂ =>
            have hraise := (checkCellTemperature_raises (W := fun _ => True) h₁ (hreadings ▸ hi)
              fun _ _ _ _ _ => trivial).2 s₂ hs₂
            obtain ⟨⟨_, _, _, _, _, heq⟩, -, -⟩ := hraise.looks
            refine ih s₂ (hraise.looks.shaped h₁) (by rw [heq, hreadings]) (by rw [heq, hval]) hrest
              hothers fun j hj => ?_
            rw [hraise.alerts_of_ne fun hji => hnotin (hji ▸ hj)]
            exact hsameothers j hj
  exact hloop _ s h rfl rfl List.nodup_range (fun i hi => List.mem_range.mp hi) fun _ _ => rfl

end Looks

/-! ### What is called -/

section Perform

variable {F X : Type} [Arith F] {k : Tracker F} {s s' : Series F X}
  {check check' : Series F X → Option (Series F X)} {inside agree : Series F X → Prop}

/-- A reading, when two looks agree on the series that it completes. -/
theorem Tracked.setCell_congr (heq : ∀ s, Shaped s → agree s → check s = check' s)
    (hlocal : Local agree) (h : Tracked k s) {index : ℤ} {value : F}
    (hagree : ReadingInside agree s index value) :
    s.setCell check index value = s.setCell check' index value := by
  by_cases hacc : s.Accepts index value
  swap
  · rw [Series.setCell, Series.setCell, if_neg hacc, if_neg hacc]
  obtain ⟨s₁, hstored, hcomplete, hopen⟩ := h.setCell_eq hacc
  by_cases hcompletes : Completes s index.toNat
  · have hagree₁ : agree s₁ := (hlocal { s with values := s.values.set index.toNat value } s₁
      hstored.readings hstored.values_eq hstored.alerts_eq).mpr (hagree hacc hcompletes)
    rw [hcomplete hcompletes, hcomplete hcompletes, Series.complete, Series.complete,
      heq s₁ hstored.toShaped hagree₁]
  · rw [(hopen hcompletes).2, (hopen hcompletes).2]

/-- A reading takes nothing back, if no look does. -/
theorem Tracked.setCell_latches (hcheck : Checks check inside)
    (hlatches : ∀ s s', Shaped s → check s = some s' → Latches s s') (h : Tracked k s)
    {index : ℤ} {value : F} (hs' : s.setCell check index value = some s') : Latches s s' := by
  by_cases hacc : s.Accepts index value
  swap
  · rw [Series.setCell, if_neg hacc] at hs'
    obtain rfl := Option.some.inj hs'
    exact .refl s
  obtain ⟨s₁, hstored, hcomplete, hopen⟩ := h.setCell_eq hacc
  have hstore : Latches s s₁ := ⟨hstored.alerts_eq ▸ .refl _, fun honce =>
    ⟨hstored.alertsNew.trans (honce.new.trans (by rw [hstored.counted])),
      hstored.counted ▸ honce.nodup, by rw [hstored.counted, hstored.alerts_eq]; exact honce.alert⟩⟩
  by_cases hcompletes : Completes s index.toNat
  · rw [hcomplete hcompletes] at hs'
    obtain ⟨s₂, hs₂, -, rfl⟩ := (complete_eq hcheck hstored.toShaped).2 s' hs'
    have hlook := hstore.trans (hlatches s₁ s₂ hstored.toShaped hs₂)
    exact ⟨hlook.rises, fun honce => ⟨(hlook.once honce).new, (hlook.once honce).nodup,
      (hlook.once honce).alert⟩⟩
  · rw [(hopen hcompletes).2] at hs'
    obtain rfl := Option.some.inj hs'
    exact ⟨hstore.rises, fun honce => ⟨(hstore.once honce).new, (hstore.once honce).nodup,
      (hstore.once honce).alert⟩⟩

/-- Readings that are replayed count no cell twice, if no look does. -/
theorem Tracked.replay_once (hcheck : Checks check inside)
    (hlatches : ∀ s s', Shaped s → check s = some s' → Latches s s') (h : Tracked k s)
    {cells : List (ℕ × F)} (hs' : cells.foldlM (Series.replay check) s = some s')
    (honce : Once s) : Once s' := by
  induction cells generalizing k s with
  | nil =>
      obtain rfl := Option.some.inj hs'
      exact honce
  | cons c cells ih =>
      rw [List.foldlM_cons, Option.bind_eq_bind, Option.bind_eq_some_iff] at hs'
      obtain ⟨s₁, hs₁, hs'⟩ := hs'
      exact ih (h.setCell hcheck hs₁) hs' ((h.setCell_latches hcheck hlatches hs₁).once honce)

omit [Arith F] in
theorem Fresh.once (h : Fresh s) : Once s :=
  ⟨by rw [h.alertsNew, h.counted]; rfl, h.counted ▸ List.nodup_nil,
    fun i hi => by rw [h.counted] at hi; cases hi⟩

variable [Inhabited X]

/-- A call, when two looks agree on the series that it completes. -/
theorem Tracked.perform_congr (heq : ∀ s, Shaped s → agree s → check s = check' s)
    (hlocal : Local agree) (h : Tracked k s) {op : SeriesOp F} (hagree : InsideOp agree s op) :
    s.perform check op = s.perform check' op := by
  cases op with
  | setCellArrangement => rfl
  | restart => rfl
  | reset => rfl
  | setCell index value => exact h.setCell_congr heq hlocal hagree
  | checkChangeCellArrangement readings readingspermodule =>
      rw [Series.perform, Series.perform, Series.checkChangeCellArrangement,
        Series.checkChangeCellArrangement]
      by_cases hne : readings ≠ s.readings
      swap
      · rw [if_neg hne, if_neg hne]
      by_cases hc : s.bitsetC = 0
      · rw [if_pos hne, if_pos hne, if_pos hc, if_pos hc]
      rw [if_pos hne, if_pos hne, if_neg hc, if_neg hc, h.readings,
        h.marked (Nat.min_le_right readings k.cells)]
      obtain ⟨fresh, hfresh, harranged, hnone, -⟩ :=
        h.arrange readings (s.perModule readingspermodule)
      rw [hfresh]
      simp only [Option.bind_eq_bind, Option.bind_some]
      obtain ⟨s₁, hs₁, -⟩ | ⟨hpos, k', s₁, htracked, index, value, hs₁, hlast⟩ :=
        h.replay_cases harranged hnone
      · rw [hs₁, hs₁]
      · rw [hs₁, hs₁, htracked.setCell_congr heq hlocal
          ((hlast agree hlocal).mpr (hagree hne hpos))]

/-- A call resets the alerts: it is a reset, or makes new arrays. -/
def Resets (s : Series F X) : SeriesOp F → Prop
  | .setCellArrangement _ _ => True
  | .checkChangeCellArrangement readings _ => readings ≠ s.readings
  | .setCell _ _ => False
  | .restart => False
  | .reset => True

/-- **A call** takes nothing back unless it resets, and counts no cell twice, if no look does. -/
theorem Tracked.perform_latches (hcheck : Checks check inside)
    (hlatches : ∀ s s', Shaped s → check s = some s' → Latches s s') (h : Tracked k s)
    {op : SeriesOp F} (hs' : s.perform check op = some s') :
    (¬ Resets s op → Rises s.alerts s'.alerts) ∧ (Once s → Once s') := by
  cases op with
  | setCellArrangement readings readingspermodule =>
      obtain ⟨s₁, hs₁, -, hfresh, -⟩ := h.arrange readings readingspermodule
      obtain rfl := Option.some.inj (hs₁.symm.trans hs')
      exact ⟨fun hreset => absurd trivial hreset, fun _ => hfresh.once⟩
  | checkChangeCellArrangement readings readingspermodule =>
      obtain ⟨p, hp, rfl⟩ := Option.map_eq_some_iff.mp hs'
      rw [Series.checkChangeCellArrangement] at hp
      by_cases hne : readings ≠ s.readings
      swap
      · -- only the readings per module change, at most
        rw [if_neg hne] at hp
        have hkeeps : p.1.alerts = s.alerts ∧ p.1.alertsNew = s.alertsNew ∧
            p.1.counted = s.counted := by
          split at hp <;> obtain rfl := Option.some.inj hp <;> exact ⟨rfl, rfl, rfl⟩
        obtain ⟨halerts, halertsNew, hcounted⟩ := hkeeps
        exact ⟨fun _ => halerts ▸ .refl _, fun honce => ⟨by rw [halertsNew, hcounted, honce.new],
          hcounted ▸ honce.nodup, by rw [hcounted, halerts]; exact honce.alert⟩⟩
      refine ⟨fun hreset => absurd hne hreset, fun _ => ?_⟩
      obtain ⟨fresh, hfresh, harranged, hnone, -⟩ :=
        h.arrange readings (s.perModule readingspermodule)
      rw [if_pos hne, hfresh] at hp
      split at hp
      · obtain rfl := Option.some.inj hp
        exact hnone.once
      · simp only [Option.bind_eq_bind, Option.bind_eq_some_iff] at hp
        obtain ⟨cells, -, fresh', hfresh', s₁, hs₁, hp⟩ := hp
        obtain rfl := Option.some.inj hfresh'
        obtain rfl := Option.some.inj hp
        exact harranged.replay_once hcheck hlatches hs₁ hnone.once
  | setCell index value =>
      have hlatch := h.setCell_latches hcheck hlatches hs'
      exact ⟨fun _ => hlatch.rises, hlatch.once⟩
  | restart =>
      obtain rfl := Option.some.inj hs'
      exact ⟨fun _ => .refl _, fun honce => ⟨honce.new, honce.nodup, honce.alert⟩⟩
  | reset =>
      refine ⟨fun hreset => absurd trivial hreset, fun honce => ?_⟩
      obtain ⟨s₁, hs₁, hzero, hfresh, -⟩ := reset_eq (k := k) h.mins h.maxs h.devmaxs h.alerts
      obtain rfl := Option.some.inj (hs₁.symm.trans hs')
      by_cases hpos : 0 < s.readings
      · exact (hfresh hpos).2.once
      · rw [hzero (by omega)]
        exact honce

end Perform

/-- **A call** with a look that never leaves its arrays and takes nothing back. -/
theorem Tracked.perform_own {F X : Type} [Arith F] [Inhabited X] {k : Tracker F} {s : Series F X}
    {check : Series F X → Option (Series F X)} (hcheck : Checks check fun _ => True)
    (hlatches : ∀ s s', Shaped s → check s = some s' → Latches s s') (h : Tracked k s)
    (honce : Once s) (op : SeriesOp F) : ∃ s', s.perform check op = some s' ∧
      (∃ k, Tracked k s') ∧ Once s' ∧ (¬ Resets s op → Rises s.alerts s'.alerts) := by
  obtain ⟨hsome, htracked⟩ := h.perform hcheck op
  obtain ⟨s', hs'⟩ := Option.isSome_iff_exists.mp (hsome.mpr (insideOp_true s op))
  obtain ⟨hrises, hkeeps⟩ := h.perform_latches hcheck hlatches hs'
  exact ⟨s', hs', ⟨_, htracked s' hs'⟩, hkeeps honce, hrises⟩

/-! ### Both families -/

section Vehicle

variable {F D : Type} [Arith F] [Arith D] [Floats F D]

/-- What is called for voltages: a function, or the configuration of their thresholds. -/
def Op.forVoltages : Op F → Option (SeriesOp F ⊕ VoltageThresholds F)
  | .voltages op => some (.inl op)
  | .temperatures _ => none
  | .resetCellStats => some (.inl .reset)
  | .configVoltage thr => some (.inr thr)
  | .configTemperature _ => none

/-- What is called for temperatures. -/
def Op.forTemperatures : Op F → Option (SeriesOp F ⊕ Thresholds F)
  | .voltages _ => none
  | .temperatures op => some (.inl op)
  | .resetCellStats => some (.inl .reset)
  | .configVoltage _ => none
  | .configTemperature thr => some (.inr thr)

/-- A step of one family, on its own. -/
def ownStep {X T : Type} [Inhabited X] (check : T → Series F X → Option (Series F X))
    (p : Series F X × T) : SeriesOp F ⊕ T → Option (Series F X × T)
  | .inl op => (p.1.perform (check p.2) op).map fun s => (s, p.2)
  | .inr thr => some (p.1, thr)

/-- The alerts of a family are reset. -/
def ResetsBy {X T : Type} (s : Series F X) (op : Option (SeriesOp F ⊕ T)) : Prop :=
  ∃ call, op = some (.inl call) ∧ Resets s call

/-- A step, of which the voltage alerts must serve as the temperature alerts. -/
def Agreeing (m : OvmsVehicle F) : Op F → Prop
  | .voltages _ => True
  | .temperatures op => InsideOp (Agrees m.v.alerts m.tthr) m.t op
  | .resetCellStats => True
  | .configVoltage _ => True
  | .configTemperature _ => True

/-- What every step keeps: both families are tracked, and no cell was counted twice. -/
structure Sound (m : OvmsVehicle F) : Prop where
  v : ∃ k, Tracked k m.v
  t : ∃ k, Tracked k m.t
  onceV : Once m.v
  onceT : Once m.t

/-- What a step that agrees does: to each family what it does on its own, and nothing is taken back
unless it is reset. -/
structure Steps (m m' : OvmsVehicle F) (op : Op F) : Prop where
  temperatures : op.forTemperatures.elim (some (m.t, m.tthr)) (ownStep checkOwn (m.t, m.tthr))
    = some (m'.t, m'.tthr)
  voltages : op.forVoltages.elim (some (m.v, m.vthr)) (ownStep checkVoltage (m.v, m.vthr))
    = some (m'.v, m'.vthr)
  risesT : ¬ ResetsBy m.t op.forTemperatures → Rises m.t.alerts m'.t.alerts
  risesV : ¬ ResetsBy m.v op.forVoltages → Rises m.v.alerts m'.v.alerts

/-- **A step** that agrees. -/
theorem Sound.step {m : OvmsVehicle F} (h : Sound m) {op : Op F} (hagree : Agreeing m op) :
    ∃ m', m.step op = some m' ∧ Sound m' ∧ Steps m m' op := by
  obtain ⟨⟨kv, hv⟩, ⟨kt, ht⟩, honceV, honceT⟩ := id h
  have performV := hv.perform_own (checks_checkVoltage m.vthr)
    (fun _ _ => latches_checkVoltage) honceV
  have performT := ht.perform_own (checks_checkOwn m.tthr) (fun _ _ => latches_checkOwn) honceT
  cases op with
  | voltages op =>
      obtain ⟨v, hv', htracked, honce, hrises⟩ := performV op
      refine ⟨{ m with v := v }, by rw [OvmsVehicle.step, OvmsVehicle.voltages, hv']; rfl,
        ⟨htracked, h.t, honce, honceT⟩, rfl, ?_, fun _ => .refl _, fun hreset => ?_⟩
      · change (m.v.perform (checkVoltage m.vthr) op).map _ = _
        rw [hv']
        rfl
      · exact hrises fun hresets => hreset ⟨op, rfl, hresets⟩
  | temperatures op =>
      obtain ⟨t, ht', htracked, honce, hrises⟩ := performT op
      have hsame := ht.perform_congr (fun _ => checkTemperature_eq_own)
        (isLocal_agrees m.v.alerts m.tthr) hagree
      refine ⟨{ m with t := t }, by
        rw [OvmsVehicle.step, OvmsVehicle.temperatures, hsame, ht']
        rfl, ⟨h.v, htracked, honceV, honce⟩, ?_, rfl, fun hreset => ?_, fun _ => .refl _⟩
      · change (m.t.perform (checkOwn m.tthr) op).map _ = _
        rw [ht']
        rfl
      · exact hrises fun hresets => hreset ⟨op, rfl, hresets⟩
  | resetCellStats =>
      obtain ⟨v, hv', htrackedV, honceV', -⟩ := performV .reset
      obtain ⟨t, ht', htrackedT, honceT', -⟩ := performT .reset
      refine ⟨{ m with v := v, t := t }, ?_, ⟨htrackedV, htrackedT, honceV', honceT'⟩, ?_, ?_,
        fun hreset => absurd ⟨.reset, rfl, trivial⟩ hreset,
        fun hreset => absurd ⟨.reset, rfl, trivial⟩ hreset⟩
      · rw [Series.perform] at hv' ht'
        rw [OvmsVehicle.step, OvmsVehicle.resetCellStats, hv', ht']
        rfl
      · change (m.t.perform (checkOwn m.tthr) .reset).map _ = _
        rw [ht']
        rfl
      · change (m.v.perform (checkVoltage m.vthr) .reset).map _ = _
        rw [hv']
        rfl
  | configVoltage thr =>
      exact ⟨_, rfl, ⟨h.v, h.t, h.onceV, h.onceT⟩, rfl, rfl, fun _ => .refl _, fun _ => .refl _⟩
  | configTemperature thr =>
      exact ⟨_, rfl, ⟨h.v, h.t, h.onceV, h.onceT⟩, rfl, rfl, fun _ => .refl _, fun _ => .refl _⟩

theorem sound_new (vmin vmax tmin tmax : F) (vthr : VoltageThresholds F) (tthr : Thresholds F) :
    Sound (OvmsVehicle.new vmin vmax tmin tmax vthr tthr) := by
  have htracks := tracksBoth_new vmin vmax tmin tmax vthr tthr
  have honce : ∀ {X : Type} [Inhabited X] (lo hi : F),
      Once (OvmsVehicle.newSeries lo hi : Series F X) := fun lo hi =>
    ⟨rfl, List.nodup_nil, fun i hi => by cases hi⟩
  exact ⟨⟨_, htracks.v⟩, ⟨_, htracks.t⟩, honce _ _, honce _ _⟩

end Vehicle

end Ovms.Bms
