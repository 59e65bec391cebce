import Mathlib.Data.List.Sort
import Mathlib.Data.Int.Notation
import Ovms.Lib.Machine

/-!
# The current Location

The framework of locations (`components/ovms_location/src/ovms_location.cpp`) keeps for each
location whether the car is inside, and one metric with the name of the current location. A
location that is entered writes its name to the metric, and one that is left clears it, whatever
it shows. So the metric depends on the order in which the locations are looked at. When two of them
overlap and the car leaves one, then the metric is empty although the other one contains the car.

## Main results

* `updateLoop_metric`: the last location that changes decides on the metric.
* `Kept.step`: the actions of a location alternate.
* `truthful_along`: the metric is truthful exactly along the runs in which the last location that
  changes is one that is entered, or none contains the car.
-/

open Lib

namespace Ovms.Location

/-- A text: its bytes. -/
abbrev Text := List UInt8

variable {Position Place : Type*}

/-! ### One location -/

/-- An `OvmsLocation`, with the number of its object. One that was removed and is defined again is
another object. -/
structure OvmsLocation (Place : Type*) where
  name : Text
  object : ℕ
  /-- `m_latitude`, `m_longitude` and `m_radius`. -/
  place : Place
  inlocation : Bool
  deriving DecidableEq, Repr

/-- What the locations write to: the metric `v.p.location`, and the objects whose actions were
executed, with whether they were the ones for entering. -/
structure Effects where
  metric : Text
  executed : List (ℕ × Bool)
  deriving DecidableEq, Repr

/-- The location is entered or left. -/
def OvmsLocation.Changes (within : Position → Place → Bool) (p : Position)
    (l : OvmsLocation Place) : Prop :=
  l.inlocation ≠ within p l.place

instance (within : Position → Place → Bool) (p : Position) :
    DecidablePred (OvmsLocation.Changes within p) :=
  fun l => inferInstanceAs (Decidable (l.inlocation ≠ within p l.place))

/-- `OvmsLocation::IsInLocation`. -/
def OvmsLocation.isInLocation (within : Position → Place → Bool) (p : Position)
    (l : OvmsLocation Place) (w : Effects) : OvmsLocation Place × Effects :=
  if within p l.place then
    if ¬ l.inlocation then
      ({ l with inlocation := true },
        { metric := l.name, executed := w.executed ++ [(l.object, true)] })
    else (l, w)
  else if l.inlocation then
    ({ l with inlocation := false },
      { metric := [], executed := w.executed ++ [(l.object, false)] })
  else (l, w)

/-- The loop of `OvmsLocations::UpdateLocations`. -/
def updateLoop (within : Position → Place → Bool) (p : Position) :
    List (OvmsLocation Place) → Effects → List (OvmsLocation Place) × Effects
  | [], w => ([], w)
  | l :: ls, w =>
      let (l, w) := l.isInLocation within p w
      let (ls, w) := updateLoop within p ls w
      (l :: ls, w)

/-! ### All locations -/

/-- The members of `OvmsLocations` for the current location. -/
structure OvmsLocations (Position Place : Type*) where
  /-- `m_locations`, in the order of the names. -/
  locations : List (OvmsLocation Place)
  /-- `m_latitude` and `m_longitude`, unless both are 0. -/
  position : Option Position
  gpsgood : Bool
  effects : Effects
  /-- How many locations were created. -/
  created : ℕ
  deriving DecidableEq, Repr

/-- `OvmsLocations::UpdateLocations`. -/
def OvmsLocations.updateLocations (within : Position → Place → Bool)
    (s : OvmsLocations Position Place) : OvmsLocations Position Place :=
  match s.position with
  | none => s
  | some p =>
      let (locations, effects) := updateLoop within p s.locations s.effects
      { s with locations := locations, effects := effects }

/-- A new location. -/
def OvmsLocations.create (name : Text) (place : Place) (s : OvmsLocations Position Place) :
    OvmsLocations Position Place :=
  { s with
    locations := s.locations.orderedInsert (fun a b => a.name ≤ b.name)
      { name := name, object := s.created, place := place, inlocation := false }
    created := s.created + 1 }

/-- The forward search of `ReloadMap`, for one instance of the parameter. -/
def OvmsLocations.reloadInstance (parse : Text → Option Place) (name value : Text)
    (s : OvmsLocations Position Place) : OvmsLocations Position Place :=
  match parse value with
  | none => { s with locations := s.locations.filter (·.name ≠ name) }
  | some place =>
      if s.locations.any (·.name = name) then
        { s with locations := s.locations.map fun l =>
            if l.name = name then { l with place := place } else l }
      else s.create name place

/-- Both searches of `ReloadMap`, over the instances of the parameter. -/
def OvmsLocations.searches (parse : Text → Option Place) (instances : List (Text × Text))
    (s : OvmsLocations Position Place) : OvmsLocations Position Place :=
  let s := instances.foldl (fun s i => s.reloadInstance parse i.1 i.2) s
  { s with locations := s.locations.filter fun l => instances.any (·.1 = l.name) }

/-- `OvmsLocations::ReloadMap`. -/
def OvmsLocations.reloadMap (within : Position → Place → Bool) (parse : Text → Option Place)
    (instances : List (Text × Text)) (s : OvmsLocations Position Place) :
    OvmsLocations Position Place :=
  let s := s.searches parse instances
  if s.gpsgood then s.updateLocations within else s

/-- `OvmsLocations::UpdatedGpsSQ`, with the levels of the configuration. -/
def OvmsLocations.updatedGpsSQ (within : Position → Place → Bool)
    (gpssq levelGood levelBad : ℤ) (s : OvmsLocations Position Place) :
    OvmsLocations Position Place :=
  let levelBad := if levelGood ≤ levelBad then levelGood - 1 else levelBad
  if ¬ s.gpsgood ∧ levelGood ≤ gpssq then { s with gpsgood := true }.updateLocations within
  else if s.gpsgood ∧ gpssq ≤ levelBad then { s with gpsgood := false }
  else s

/-- `OvmsLocations::UpdatedPosition`, with the position of the metrics. -/
def OvmsLocations.updatedPosition (within : Position → Place → Bool) (p : Position)
    (s : OvmsLocations Position Place) : OvmsLocations Position Place :=
  let s := { s with position := some p }
  if s.gpsgood then s.updateLocations within else s

/-- The end of `OvmsLocations::UpdatedConfig` for `config.mounted`, with the persistent position:
there is one, or both coordinates are 0. -/
def OvmsLocations.restore (within : Position → Place → Bool) (p : Option Position)
    (s : OvmsLocations Position Place) : OvmsLocations Position Place :=
  { s with position := p }.updateLocations within

/-- What the constructor leaves. -/
def OvmsLocations.init : OvmsLocations Position Place where
  locations := []
  position := none
  gpsgood := false
  effects := { metric := [], executed := [] }
  created := 0

/-- What happens. `config.mounted` is a reload, and then the position is restored. -/
inductive Event (Position : Type*) where
  | updatedPosition (p : Position)
  | updatedGpsSQ (gpssq levelGood levelBad : ℤ)
  | reloadMap (instances : List (Text × Text))
  | restore (p : Option Position)

/-- An event is handled. -/
def OvmsLocations.step (within : Position → Place → Bool) (parse : Text → Option Place)
    (s : OvmsLocations Position Place) : Event Position → OvmsLocations Position Place
  | .updatedPosition p => s.updatedPosition within p
  | .updatedGpsSQ gpssq levelGood levelBad => s.updatedGpsSQ within gpssq levelGood levelBad
  | .reloadMap instances => s.reloadMap within parse instances
  | .restore p => s.restore within p

/-! ### What should hold -/

/-- The event calls `UpdateLocations`. -/
def OvmsLocations.Calls (s : OvmsLocations Position Place) : Event Position → Prop
  | .updatedPosition _ => s.gpsgood = true
  | .updatedGpsSQ gpssq levelGood _ => ¬ s.gpsgood ∧ levelGood ≤ gpssq
  | .reloadMap _ => s.gpsgood = true
  | .restore _ => True

/-- The state in which the event calls `UpdateLocations`, or the one that it leaves. -/
def OvmsLocations.prepared (parse : Text → Option Place) (s : OvmsLocations Position Place) :
    Event Position → OvmsLocations Position Place
  | .updatedPosition p => { s with position := some p }
  | .updatedGpsSQ gpssq levelGood levelBad =>
      let levelBad := if levelGood ≤ levelBad then levelGood - 1 else levelBad
      if ¬ s.gpsgood ∧ levelGood ≤ gpssq then { s with gpsgood := true }
      else if s.gpsgood ∧ gpssq ≤ levelBad then { s with gpsgood := false }
      else s
  | .reloadMap instances => s.searches parse instances
  | .restore p => { s with position := p }

/-- A metric is empty exactly when no location contains the car, and names one that does
otherwise. -/
def Names (within : Position → Place → Bool) (p : Position) (ls : List (OvmsLocation Place))
    (metric : Text) : Prop :=
  (metric = [] ↔ ∀ l ∈ ls, within p l.place = false) ∧
    (metric ≠ [] → ∃ l ∈ ls, within p l.place = true ∧ l.name = metric)

/-- The metric is right, if the position is known. -/
def OvmsLocations.Truthful (within : Position → Place → Bool)
    (s : OvmsLocations Position Place) : Prop :=
  ∀ p ∈ s.position, Names within p s.locations s.effects.metric

/-- The elements alternate, and the first one is `b`. -/
def Alternating : Bool → List Bool → Prop
  | _, [] => True
  | b, x :: xs => x = b ∧ Alternating (!b) xs

/-- The actions of an object that were executed. -/
def Effects.history (w : Effects) (object : ℕ) : List Bool :=
  (w.executed.filter (·.1 = object)).map Prod.snd

/-- After an update the metric is truthful, and the actions of each location alternate. -/
def OvmsLocations.KeepsPromise (within : Position → Place → Bool) (parse : Text → Option Place)
    (s : OvmsLocations Position Place) (e : Event Position) : Prop :=
  (s.Calls e → (s.step within parse e).Truthful within) ∧
    ∀ object, Alternating true ((s.step within parse e).effects.history object)

/-- Before an update: the last location that changes, in the order of the names, is entered, or no
location contains the car; if none changes, then the metric is empty, or names a location that the
car is in. -/
def OvmsLocations.ShowsRight (within : Position → Place → Bool)
    (s : OvmsLocations Position Place) : Prop :=
  ∀ p ∈ s.position,
    match (s.locations.filter (OvmsLocation.Changes within p)).getLast? with
    | some l =>
        if l.inlocation then ∀ m ∈ s.locations, within p m.place = false else l.name ≠ []
    | none =>
        s.effects.metric = [] ∨
          ∃ l ∈ s.locations, l.inlocation = true ∧ l.name = s.effects.metric

/-- An update is made in a state that shows right. -/
def OvmsLocations.UpdatesRight (within : Position → Place → Bool) (parse : Text → Option Place)
    (s : OvmsLocations Position Place) (e : Event Position) : Prop :=
  s.Calls e → (s.prepared parse e).ShowsRight within

/-! ### A look at the locations -/

variable {within : Position → Place → Bool} {parse : Text → Option Place} {p : Position}
  {l : OvmsLocation Place} {ls : List (OvmsLocation Place)} {w : Effects}
  {s : OvmsLocations Position Place}

/-- The location after a look at it. -/
def OvmsLocation.looked (within : Position → Place → Bool) (p : Position)
    (l : OvmsLocation Place) : OvmsLocation Place :=
  { l with inlocation := within p l.place }

/-- A location writes if it changes. -/
theorem isInLocation_eq : l.isInLocation within p w =
    (l.looked within p,
      if l.Changes within p then
        { metric := if l.inlocation then [] else l.name
          executed := w.executed ++ [(l.object, !l.inlocation)] }
      else w) := by
  rcases l with ⟨name, object, place, inlocation⟩
  cases inlocation <;> cases hwithin : within p place <;>
    simp [OvmsLocation.isInLocation, OvmsLocation.looked, OvmsLocation.Changes, hwithin]

theorem updateLoop_locations : (updateLoop within p ls w).1 = ls.map (·.looked within p) := by
  induction ls generalizing w with
  | nil => rfl
  | cons l ls ih =>
      rw [updateLoop, isInLocation_eq]
      dsimp only
      rw [ih, List.map_cons]

/-- **The last location that changes** decides on the metric. -/
theorem updateLoop_metric : (updateLoop within p ls w).2.metric =
    match (ls.filter (OvmsLocation.Changes within p)).getLast? with
    | some l => if l.inlocation then [] else l.name
    | none => w.metric := by
  induction ls generalizing w with
  | nil => rfl
  | cons l ls ih =>
      rw [updateLoop, isInLocation_eq]
      dsimp only
      rw [ih]
      by_cases hchanges : l.Changes within p
      · rw [List.filter_cons_of_pos (by simpa using hchanges), if_pos hchanges, List.getLast?_cons]
        cases (ls.filter (OvmsLocation.Changes within p)).getLast? <;> rfl
      · rw [List.filter_cons_of_neg (by simpa using hchanges), if_neg hchanges]

/-! ### The actions of a location -/

/-- What follows an alternating history. -/
theorem alternating_snoc {b : Bool} {xs : List Bool} (h : Alternating b xs) :
    Alternating b (xs ++ [!(xs.getLast?.getD !b)]) := by
  induction xs generalizing b with
  | nil => cases b <;> exact ⟨rfl, trivial⟩
  | cons x xs ih =>
      obtain ⟨rfl, htail⟩ := h
      refine ⟨rfl, ?_⟩
      rw [List.getLast?_cons]
      have hstep := ih htail
      rwa [Bool.not_not] at hstep

theorem history_append (w : Effects) (metric : Text) (object : ℕ) (enter : Bool) (o : ℕ) :
    Effects.history ⟨metric, w.executed ++ [(object, enter)]⟩ o =
      w.history o ++ if object = o then [enter] else [] := by
  rw [Effects.history, Effects.history, List.filter_append, List.map_append]
  by_cases h : object = o <;> simp [h]

/-- The actions that were executed alternate, and the last one of a location tells whether it
contains the car. -/
structure Effects.Tells (w : Effects) (ls : List (OvmsLocation Place)) : Prop where
  alternating : ∀ o, Alternating true (w.history o)
  inside : ∀ l ∈ ls, (w.history l.object).getLast?.getD false = l.inlocation

theorem history_isInLocation_of_ne {o : ℕ} (h : l.object ≠ o) :
    (l.isInLocation within p w).2.history o = w.history o := by
  rw [isInLocation_eq]
  dsimp only
  split
  · rw [history_append, if_neg h, List.append_nil]
  · rfl

/-- A look executes the actions that are next. -/
theorem Effects.Tells.isInLocation (h : w.Tells (l :: ls)) :
    (∀ o, Alternating true ((l.isInLocation within p w).2.history o)) ∧
      ((l.isInLocation within p w).2.history l.object).getLast?.getD false =
        within p l.place := by
  have hinside := h.inside l List.mem_cons_self
  rw [isInLocation_eq]
  dsimp only
  split
  · next hchanges =>
      refine ⟨fun o => ?_, ?_⟩
      · rw [history_append]
        split
        · next ho =>
            subst ho
            have hsnoc := alternating_snoc (h.alternating l.object)
            rwa [Bool.not_true, hinside] at hsnoc
        · rw [List.append_nil]
          exact h.alternating o
      · rw [history_append, if_pos rfl, List.getLast?_concat, Option.getD_some]
        exact (Bool.not_eq_iff.mpr hchanges)
  · next hsame => exact ⟨h.alternating, hinside.trans (not_not.mp hsame)⟩

theorem history_updateLoop_of_notMem {o : ℕ} (h : o ∉ ls.map (·.object)) :
    (updateLoop within p ls w).2.history o = w.history o := by
  induction ls generalizing w with
  | nil => rfl
  | cons l ls ih =>
      rw [List.map_cons, List.mem_cons, not_or] at h
      rw [updateLoop]
      dsimp only
      rw [ih h.2, history_isInLocation_of_ne (Ne.symm h.1)]

/-- **The loop** executes what is next for each location. -/
theorem Effects.Tells.updateLoop (hnodup : (ls.map (·.object)).Nodup) (h : w.Tells ls) :
    (updateLoop within p ls w).2.Tells (ls.map (·.looked within p)) := by
  induction ls generalizing w with
  | nil => exact h
  | cons l ls ih =>
      rw [List.map_cons, List.nodup_cons] at hnodup
      obtain ⟨halternating, hinside⟩ :
        (∀ o, Alternating true ((l.isInLocation within p w).2.history o)) ∧
          ((l.isInLocation within p w).2.history l.object).getLast?.getD false =
            within p l.place := h.isInLocation
      have htail : (l.isInLocation within p w).2.Tells ls := by
        refine ⟨halternating, fun m hm => ?_⟩
        have hne : l.object ≠ m.object := fun heq =>
          hnodup.1 (heq ▸ List.mem_map_of_mem hm)
        rw [history_isInLocation_of_ne hne]
        exact h.inside m (List.mem_cons_of_mem l hm)
      have hrest := ih hnodup.2 htail
      rw [Location.updateLoop]
      refine ⟨hrest.alternating, fun m hm => ?_⟩
      rw [List.map_cons] at hm
      rcases List.mem_cons.mp hm with rfl | hm
      · exact (congrArg (·.getLast?.getD false)
          (history_updateLoop_of_notMem hnodup.1)).trans hinside
      · exact hrest.inside m hm

/-! ### What every event keeps -/

/-- Objects are used once, and the history of a location that is defined tells whether it contains
the car. -/
structure OvmsLocations.Kept (s : OvmsLocations Position Place) : Prop where
  nodup : (s.locations.map (·.object)).Nodup
  lt : ∀ l ∈ s.locations, l.object < s.created
  later : ∀ o, s.created ≤ o → s.effects.history o = []
  tells : s.effects.Tells s.locations

/-- No location contains the car while the metric is empty. -/
def OvmsLocations.Clear (s : OvmsLocations Position Place) : Prop :=
  s.effects.metric = [] → ∀ l ∈ s.locations, l.inlocation = false

theorem OvmsLocations.Kept.updateLocations (h : s.Kept) :
    (s.updateLocations within).Kept := by
  rw [OvmsLocations.updateLocations]
  split
  · exact h
  · next p hp =>
      have hobjects : (s.locations.map (·.looked within p)).map (·.object) =
          s.locations.map (·.object) := by
        rw [List.map_map]
        rfl
      dsimp only
      rw [updateLoop_locations]
      refine ⟨hobjects ▸ h.nodup, ?_, fun o ho => ?_, h.tells.updateLoop h.nodup⟩
      · intro l hl
        obtain ⟨m, hm, rfl⟩ := List.mem_map.mp hl
        exact h.lt m hm
      · rw [history_updateLoop_of_notMem, h.later o ho]
        intro hmem
        obtain ⟨m, hm, rfl⟩ := List.mem_map.mp hmem
        exact Nat.not_lt_of_le ho (h.lt m hm)

theorem OvmsLocations.Kept.remove (h : s.Kept) (keep : OvmsLocation Place → Bool) :
    { s with locations := s.locations.filter keep }.Kept where
  nodup := h.nodup.sublist (List.filter_sublist.map _)
  lt l hl := h.lt l (List.mem_of_mem_filter hl)
  later := h.later
  tells := ⟨h.tells.alternating, fun l hl => h.tells.inside l (List.mem_of_mem_filter hl)⟩

/-- Some locations are moved. -/
theorem OvmsLocations.Kept.replace (h : s.Kept) (name : Text) (place : Place) :
    { s with locations := s.locations.map fun (l : OvmsLocation Place) =>
      if l.name = name then { l with place := place } else l }.Kept := by
  have hsame : ∀ l : OvmsLocation Place,
      (if l.name = name then { l with place := place } else l).object = l.object ∧
        (if l.name = name then { l with place := place } else l).inlocation = l.inlocation := by
    intro l
    split <;> exact ⟨rfl, rfl⟩
  refine ⟨?_, fun l hl => ?_, h.later, h.tells.alternating, fun l hl => ?_⟩
  · rw [List.map_map]
    exact (List.map_congr_left fun l _ => (hsame l).1) ▸ h.nodup
  · obtain ⟨m, hm, rfl⟩ := List.mem_map.mp hl
    rw [(hsame m).1]
    exact h.lt m hm
  · obtain ⟨m, hm, rfl⟩ := List.mem_map.mp hl
    rw [(hsame m).1, (hsame m).2]
    exact h.tells.inside m hm

/-- A new location has no history. -/
theorem OvmsLocations.Kept.create (h : s.Kept) (name : Text) (place : Place) :
    (s.create name place).Kept := by
  have hperm := List.perm_orderedInsert (fun a b : OvmsLocation Place => a.name ≤ b.name)
    { name := name, object := s.created, place := place, inlocation := false } s.locations
  refine ⟨(hperm.map _).nodup_iff.mpr ?_, fun l hl => ?_, fun o ho => ?_, h.tells.alternating,
    fun l hl => ?_⟩
  · rw [List.map_cons, List.nodup_cons]
    refine ⟨fun hmem => ?_, h.nodup⟩
    obtain ⟨m, hm, heq⟩ := List.mem_map.mp hmem
    exact Nat.lt_irrefl _ (heq ▸ h.lt m hm)
  · rcases List.mem_cons.mp (hperm.mem_iff.mp hl) with rfl | hl
    · exact Nat.lt_succ_self _
    · exact Nat.lt_succ_of_lt (h.lt l hl)
  · exact h.later o (Nat.le_of_succ_le ho)
  · rcases List.mem_cons.mp (hperm.mem_iff.mp hl) with rfl | hl
    · exact congrArg (·.getLast?.getD false) (h.later s.created (Nat.le_refl _))
    · exact h.tells.inside l hl

theorem OvmsLocations.Kept.reloadInstance (h : s.Kept) (name value : Text) :
    (s.reloadInstance parse name value).Kept := by
  rw [OvmsLocations.reloadInstance]
  split
  · exact h.remove _
  · split
    · exact h.replace name _
    · exact h.create name _

theorem OvmsLocations.Kept.searches (h : s.Kept) (instances : List (Text × Text)) :
    (s.searches parse instances).Kept := by
  refine OvmsLocations.Kept.remove ?_ _
  induction instances generalizing s with
  | nil => exact h
  | cons i instances ih => exact ih (h.reloadInstance i.1 i.2)

theorem reloadInstance_effects (name value : Text) :
    (s.reloadInstance parse name value).effects = s.effects := by
  rw [OvmsLocations.reloadInstance]
  split
  · rfl
  · split <;> rfl

/-- A reload puts the car into no location. -/
theorem exists_of_mem_reloadInstance {name value : Text}
    (hl : l ∈ (s.reloadInstance parse name value).locations) (hin : l.inlocation = true) :
    ∃ m ∈ s.locations, m.inlocation = true := by
  rw [OvmsLocations.reloadInstance] at hl
  split at hl
  · exact ⟨l, List.mem_of_mem_filter hl, hin⟩
  · split at hl
    · obtain ⟨m, hm, rfl⟩ := List.mem_map.mp hl
      refine ⟨m, hm, ?_⟩
      split at hin <;> exact hin
    · rcases (List.mem_orderedInsert _).mp hl with rfl | hl
      · exact absurd hin Bool.false_ne_true
      · exact ⟨l, hl, hin⟩

theorem OvmsLocations.Clear.searches (h : s.Clear) (instances : List (Text × Text)) :
    (s.searches parse instances).Clear := by
  suffices hfold :
      (instances.foldl (fun s i => s.reloadInstance parse i.1 i.2) s).Clear from
    fun hmetric l hl => hfold hmetric l (List.mem_of_mem_filter hl)
  induction instances generalizing s with
  | nil => exact h
  | cons i instances ih =>
      refine ih fun hmetric l hl => Bool.eq_false_iff.mpr fun hin => ?_
      rw [reloadInstance_effects] at hmetric
      obtain ⟨m, hm, hin⟩ := exists_of_mem_reloadInstance hl hin
      exact Bool.false_ne_true ((h hmetric m hm).symm.trans hin)

/-! ### The events -/

instance (s : OvmsLocations Position Place) : (e : Event Position) → Decidable (s.Calls e)
  | .updatedPosition _ => inferInstanceAs (Decidable (_ = _))
  | .updatedGpsSQ _ _ _ => inferInstanceAs (Decidable (_ ∧ _))
  | .reloadMap _ => inferInstanceAs (Decidable (_ = _))
  | .restore _ => inferInstanceAs (Decidable True)

theorem reloadInstance_gpsgood (name value : Text) :
    (s.reloadInstance parse name value).gpsgood = s.gpsgood := by
  rw [OvmsLocations.reloadInstance]
  split
  · rfl
  · split <;> rfl

theorem searches_gpsgood (instances : List (Text × Text)) :
    (s.searches parse instances).gpsgood = s.gpsgood := by
  suffices hfold : (instances.foldl (fun s i => s.reloadInstance parse i.1 i.2) s).gpsgood =
      s.gpsgood from hfold
  induction instances generalizing s with
  | nil => rfl
  | cons i instances ih =>
      exact ih.trans (reloadInstance_gpsgood i.1 i.2)

/-- **An event** prepares a state, and updates the locations if it calls. -/
theorem step_eq (s : OvmsLocations Position Place) (e : Event Position) :
    s.step within parse e =
      if s.Calls e then (s.prepared parse e).updateLocations within else s.prepared parse e := by
  cases e with
  | updatedPosition p => rfl
  | updatedGpsSQ gpssq levelGood levelBad =>
      rw [OvmsLocations.step, OvmsLocations.updatedGpsSQ, OvmsLocations.prepared]
      by_cases hcalls : ¬ s.gpsgood ∧ levelGood ≤ gpssq
      · rw [if_pos hcalls, if_pos hcalls]
        exact (if_pos hcalls).symm
      · rw [if_neg hcalls, if_neg hcalls]
        exact (if_neg hcalls).symm
  | reloadMap instances =>
      rw [OvmsLocations.step, OvmsLocations.reloadMap, searches_gpsgood]
      rfl
  | restore p => exact (if_pos trivial).symm

theorem OvmsLocations.Kept.prepared (h : s.Kept) (e : Event Position) :
    (s.prepared parse e).Kept := by
  cases e with
  | updatedPosition p => exact ⟨h.nodup, h.lt, h.later, h.tells⟩
  | updatedGpsSQ gpssq levelGood levelBad =>
      rw [OvmsLocations.prepared]
      split_ifs <;> exact ⟨h.nodup, h.lt, h.later, h.tells⟩
  | reloadMap instances => exact h.searches instances
  | restore p => exact ⟨h.nodup, h.lt, h.later, h.tells⟩

theorem OvmsLocations.Clear.prepared (h : s.Clear) (e : Event Position) :
    (s.prepared parse e).Clear := by
  cases e with
  | updatedPosition p => exact h
  | updatedGpsSQ gpssq levelGood levelBad =>
      rw [OvmsLocations.prepared]
      split_ifs <;> exact h
  | reloadMap instances => exact h.searches instances
  | restore p => exact h

theorem OvmsLocations.Kept.step (h : s.Kept) (e : Event Position) :
    (s.step within parse e).Kept := by
  rw [step_eq]
  split
  · exact (h.prepared e).updateLocations
  · exact h.prepared e

/-! ### The metric -/

theorem updateLocations_of_some (hp : s.position = some p) : s.updateLocations within =
    { s with
      locations := s.locations.map (·.looked within p)
      effects := (updateLoop within p s.locations s.effects).2 } := by
  rw [OvmsLocations.updateLocations, hp]
  dsimp only
  rw [updateLoop_locations]

theorem within_of_getLast?_eq_none
    (h : (s.locations.filter (OvmsLocation.Changes within p)).getLast? = none)
    (hl : l ∈ s.locations) : within p l.place = l.inlocation := by
  rw [List.getLast?_eq_none_iff, List.filter_eq_nil_iff] at h
  have hsame := h l hl
  rw [decide_eq_true_iff] at hsame
  exact (not_not.mp hsame).symm

theorem within_of_getLast?_eq_some
    (h : (s.locations.filter (OvmsLocation.Changes within p)).getLast? = some l) :
    l ∈ s.locations ∧ within p l.place = !l.inlocation := by
  obtain ⟨hl, hchanges⟩ := List.mem_filter.mp (List.mem_of_getLast? h)
  exact ⟨hl, Bool.eq_not.mpr (Ne.symm (of_decide_eq_true hchanges))⟩

theorem names_nil : Names within p ls [] ↔ ∀ l ∈ ls, within p l.place = false := by
  rw [Names, and_iff_left (fun h => absurd rfl h)]
  exact iff_true_left rfl

theorem names_name (hl : l ∈ ls) (hwithin : within p l.place = true) :
    Names within p ls l.name ↔ l.name ≠ [] := by
  constructor
  · intro h hempty
    exact Bool.false_ne_true ((h.1.mp hempty l hl).symm.trans hwithin)
  · intro hname
    refine ⟨⟨fun hempty => absurd hempty hname, fun hnone => ?_⟩, fun _ => ⟨l, hl, hwithin, rfl⟩⟩
    exact absurd ((hnone l hl).symm.trans hwithin) Bool.false_ne_true

theorem names_looked {metric : Text} :
    Names within p (ls.map (·.looked within p)) metric ↔ Names within p ls metric := by
  simp [Names, OvmsLocation.looked]

/-- **An update** leaves a truthful metric exactly if it is made in a state that shows right. -/
theorem truthful_iff (hclear : s.Clear) :
    (s.updateLocations within).Truthful within ↔ s.ShowsRight within := by
  cases hp : s.position with
  | none =>
      have hsame : s.updateLocations within = s := by rw [OvmsLocations.updateLocations, hp]
      rw [hsame, OvmsLocations.Truthful, OvmsLocations.ShowsRight, hp]
      exact iff_of_true (by simp) (by simp)
  | some p =>
      rw [updateLocations_of_some hp, OvmsLocations.Truthful, OvmsLocations.ShowsRight]
      simp only [hp, Option.mem_def, Option.some.injEq, forall_eq', names_looked,
        updateLoop_metric]
      cases hlast : (s.locations.filter (OvmsLocation.Changes within p)).getLast? with
      | none =>
          have hflag : ∀ l ∈ s.locations, within p l.place = l.inlocation := fun l hl =>
            within_of_getLast?_eq_none hlast hl
          by_cases hmetric : s.effects.metric = []
          · refine iff_of_true ?_ (.inl hmetric)
            dsimp only
            rw [hmetric, names_nil]
            exact fun l hl => (hflag l hl).trans (hclear hmetric l hl)
          · refine Iff.trans ?_ (or_iff_right hmetric).symm
            constructor
            · intro hnames
              obtain ⟨l, hl, hwithin, hname⟩ := hnames.2 hmetric
              exact ⟨l, hl, (hflag l hl).symm.trans hwithin, hname⟩
            · rintro ⟨l, hl, hin, hname⟩
              have hnames := names_name hl ((hflag l hl).trans hin)
              rw [hname] at hnames
              exact hnames.mpr hmetric
      | some l =>
          obtain ⟨hl, hwithin⟩ := within_of_getLast?_eq_some hlast
          dsimp only
          cases hin : l.inlocation with
          | true => exact names_nil
          | false => exact names_name hl (hwithin.trans (congrArg not hin))

/-- So an update that shows right leaves the metric clear. -/
theorem OvmsLocations.Truthful.clear (h : (s.updateLocations within).Truthful within)
    (hclear : s.Clear) : (s.updateLocations within).Clear := by
  cases hp : s.position with
  | none =>
      have hsame : s.updateLocations within = s := by rw [OvmsLocations.updateLocations, hp]
      rwa [hsame]
  | some p =>
      rw [updateLocations_of_some hp] at h ⊢
      intro hmetric l hl
      obtain ⟨m, hm, rfl⟩ := List.mem_map.mp hl
      exact (h p hp).1.mp hmetric (m.looked within p) hl

/-! ### Runs -/

/-- What an event keeps in a run that shows right. -/
theorem UpdatesRight.clear {e : Event Position} (hclear : s.Clear)
    (h : s.UpdatesRight within parse e) : (s.step within parse e).Clear := by
  rw [step_eq]
  split
  · next hcalls =>
      have htruthful := (truthful_iff (hclear.prepared e)).mpr (h hcalls)
      exact htruthful.clear (hclear.prepared e)
  · exact hclear.prepared e

theorem keepsPromise_iff {e : Event Position} (hkept : s.Kept) (hclear : s.Clear) :
    s.KeepsPromise within parse e ↔ s.UpdatesRight within parse e := by
  rw [OvmsLocations.KeepsPromise, and_iff_left (hkept.step e).tells.alternating,
    OvmsLocations.UpdatesRight]
  refine forall_congr' fun hcalls => ?_
  rw [step_eq, if_pos hcalls]
  exact truthful_iff (hclear.prepared e)

/-- **The current location**: in a run the metric is truthful after every update, and the actions
alternate, exactly if every update is made in a state that shows right. -/
theorem truthful_along (within : Position → Place → Bool) (parse : Text → Option Place)
    (events : List (Event Position)) :
    Along (OvmsLocations.step within parse) (OvmsLocations.KeepsPromise within parse) .init events ↔
      Along (OvmsLocations.step within parse) (OvmsLocations.UpdatesRight within parse) .init
        events := by
  refine along_congr_of_invariant (I := fun s => s.Kept ∧ s.Clear)
    (fun s e hs => keepsPromise_iff hs.1 hs.2)
    (fun s e hs he => ⟨hs.1.step e, UpdatesRight.clear hs.2 he⟩) ?_
  exact ⟨⟨List.nodup_nil, fun _ h => absurd h List.not_mem_nil, fun _ _ => rfl, fun _ => trivial,
    fun _ h => absurd h List.not_mem_nil⟩, fun _ _ h => absurd h List.not_mem_nil⟩

/-- A value of two characters, for a stretch of a road. -/
def parseStretch : Text → Option (ℕ × ℕ)
  | [first, last] => some (first.toNat, last.toNat)
  | _ => none

/-- The car leaves the second of two locations, and is still in the first one. -/
theorem not_truthful : ¬ Along
    (OvmsLocations.step (fun p (i : ℕ × ℕ) => i.1 ≤ p ∧ p ≤ i.2) parseStretch)
    (OvmsLocations.KeepsPromise (fun p (i : ℕ × ℕ) => i.1 ≤ p ∧ p ≤ i.2) parseStretch) .init
    [.reloadMap [([97], [0, 10]), ([98], [5, 10])], .updatedGpsSQ 60 60 40, .updatedPosition 7,
      .updatedPosition 3] := by
  intro h
  have hnames := h.2.2.2.1.1 (by decide) 3 (by decide)
  exact absurd (hnames.1.mp (by decide) ⟨[97], 0, (0, 10), true⟩ (by decide)) (by decide)

end Ovms.Location
