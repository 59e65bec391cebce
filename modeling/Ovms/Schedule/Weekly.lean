import Ovms.Schedule.Model
import Mathlib.Data.Int.Order.Basic

/-!
# Week after Week

The scheduler of the climate control (`components/vehicle/vehicle.cpp`) is called at least once in
every minute, and remembers when it has triggered last, so as not to trigger twice in a minute. It
remembers the day of the week, the hour and the minute. A week later these are the same: if there
was nothing else to trigger in between, the entry is passed over, then and in all weeks to come.

## Main results

* `checks_succ`: what the checks of a minute come to.
* `repeats_iff`: the climate control is switched on once in every minute with an entry, and in no
  other, exactly when the run does not meet an entry twice in a row.
-/

namespace Ovms.Schedule

open Config (Text)

/-! ### Minutes -/

/-- The minutes of a week. -/
def week : ℕ := 7 * 24 * 60

/-- The local time of a minute, counted from the beginning of a week. -/
def stamp (m : ℕ) : Stamp where
  wday := (m / 1440 % 7 : ℕ)
  hour := (m / 60 % 24 : ℕ)
  min := (m % 60 : ℕ)

/-- The weekday of a minute has an entry for that time. -/
def Scheduled (config : Instances) (m : ℕ) : Prop :=
  ∃ e ∈ entriesOf config (dayName (stamp m).wday), e.hour = (stamp m).hour ∧ e.min = (stamp m).min

theorem stamp_eq_iff {m n : ℕ} : stamp m = stamp n ↔ m % week = n % week := by
  rw [stamp, stamp, Stamp.mk.injEq, Int.natCast_inj, Int.natCast_inj, Int.natCast_inj, week]
  omega

theorem stamp_ne_init (m : ℕ) : Scheduler.init.lastTriggered ≠ stamp m := by
  intro h
  have hday : (-1 : ℤ) = (m / 1440 % 7 : ℕ) := congrArg Stamp.wday h
  omega

theorem scheduled_congr {config : Instances} {m n : ℕ} (h : stamp m = stamp n) :
    Scheduled config m ↔ Scheduled config n := by
  rw [Scheduled, Scheduled, h]

theorem due_eq_none_iff {config : Instances} {m : ℕ} :
    due config (stamp m) = none ↔ ¬ Scheduled config m := by
  rw [due, List.find?_eq_none, Scheduled, not_exists]
  refine forall_congr' fun e => ?_
  rw [not_and, decide_eq_true_eq]

instance (config : Instances) (m : ℕ) : Decidable (Scheduled config m) :=
  decidable_of_iff (due config (stamp m) ≠ none)
    (by rw [Ne, due_eq_none_iff, not_not])

/-! ### The checks of a minute -/

/-- Checks of the schedule at a time, with the feature enabled, the climate control off and the
command succeeding; and how often the climate control is switched on. -/
def Scheduler.checks (config : Instances) (now : Stamp) : ℕ → Scheduler → Scheduler × ℕ
  | 0, s => (s, 0)
  | k + 1, s =>
      let check := s.checkPreconditionSchedule config true now false .success
      let rest := Scheduler.checks config now k check.1
      (rest.1, check.2.count (.climateControl true) + rest.2)

variable {config : Instances} {s : Scheduler} {now : Stamp} {start m : ℕ}

theorem check_triggered (h : s.lastTriggered = now) :
    s.checkPreconditionSchedule config true now false .success = (s, []) := by
  rw [Scheduler.checkPreconditionSchedule, if_neg (by decide), if_pos h]

theorem check_due (h : s.lastTriggered ≠ now) {e : Entry} (he : due config now = some e) :
    s.checkPreconditionSchedule config true now false .success =
      (⟨now, true, e.duration - 1⟩, [.climateControl true,
        .notify "info" "climatecontrol.schedule" "Scheduled precondition started"]) := by
  rw [Scheduler.checkPreconditionSchedule, if_neg (by decide), if_neg h, he]
  rfl

theorem check_not_due (he : due config now = none) :
    s.checkPreconditionSchedule config true now false .success = (s, []) := by
  rw [Scheduler.checkPreconditionSchedule, if_neg (by decide), he]
  exact ite_self _

/-- Checks that do nothing. -/
theorem checks_of_idle (h : s.checkPreconditionSchedule config true now false .success = (s, []))
    (k : ℕ) : s.checks config now k = (s, 0) := by
  induction k with
  | zero => rfl
  | succ k ih =>
      rw [Scheduler.checks, h]
      dsimp only
      rw [ih]
      rfl

/-- **The checks of a minute**: the first one triggers, if there is an entry and it is not the one
that has triggered last. -/
theorem checks_succ (k : ℕ) (h : s.lastTriggered ≠ now) {e : Entry}
    (he : due config now = some e) :
    s.checks config now (k + 1) = (⟨now, true, e.duration - 1⟩, 1) := by
  have hidle : Scheduler.checkPreconditionSchedule ⟨now, true, e.duration - 1⟩ config true now
      false .success = (⟨now, true, e.duration - 1⟩, []) := check_triggered rfl
  rw [Scheduler.checks, check_due h he]
  dsimp only
  rw [checks_of_idle hidle]
  rfl

/-! ### Runs -/

/-- The scheduler from a minute on, with the checks of every minute, at least one each; and how
often the climate control is switched on in each of them. -/
def Scheduler.run (config : Instances) : ℕ → List ℕ → Scheduler → Scheduler × List ℕ
  | _, [], s => (s, [])
  | m, more :: rest, s =>
      let minute := s.checks config (stamp m) (more + 1)
      let behind := Scheduler.run config (m + 1) rest minute.1
      (behind.1, minute.2 :: behind.2)

/-- What is remembered of the minutes since a start: the last one with an entry, whether it has
triggered or not. -/
def Remembers (config : Instances) (start m : ℕ) (s : Scheduler) : Prop :=
  (s.lastTriggered = Scheduler.init.lastTriggered ∧
    ∀ j, start ≤ j → j < m → ¬ Scheduled config j) ∨
  ∃ j, start ≤ j ∧ j < m ∧ Scheduled config j ∧ s.lastTriggered = stamp j ∧
    ∀ i, j < i → i < m → ¬ Scheduled config i

/-- The last entry before a minute is the one of the same minute of an earlier week. -/
def Suppressed (config : Instances) (start m : ℕ) : Prop :=
  ∃ j, start ≤ j ∧ j < m ∧ Scheduled config j ∧ stamp j = stamp m ∧
    ∀ i, j < i → i < m → ¬ Scheduled config i

/-- The entry that is remembered is that of the minute. -/
theorem Remembers.suppressed_iff (h : Remembers config start m s) :
    s.lastTriggered = stamp m ↔ Suppressed config start m := by
  constructor
  · intro hlast
    rcases h with ⟨hinit, -⟩ | ⟨j, hstart, hj, hscheduled, hstamp, hbetween⟩
    · exact absurd (hinit.symm.trans hlast) (stamp_ne_init m)
    · exact ⟨j, hstart, hj, hscheduled, hstamp.symm.trans hlast, hbetween⟩
  · rintro ⟨j, hstart, hj, hscheduled, hstamp, hbetween⟩
    rcases h with ⟨-, hnone⟩ | ⟨j', hstart', hj', hscheduled', hlast, hbetween'⟩
    · exact absurd hscheduled (hnone j hstart hj)
    · have heq : j' = j := by
        rcases Nat.lt_trichotomy j' j with hlt | heq | hgt
        · exact absurd hscheduled (hbetween' j hlt hj)
        · exact heq
        · exact absurd hscheduled' (hbetween j' hgt hj')
      rw [hlast, heq, hstamp]

theorem Remembers.of_last (hstart : start ≤ m) (hscheduled : Scheduled config m)
    (hlast : s.lastTriggered = stamp m) : Remembers config start (m + 1) s :=
  .inr ⟨m, hstart, Nat.lt_succ_self m, hscheduled, hlast,
    fun _ hlt hle => absurd (Nat.lt_succ_iff.mp hle) (Nat.not_le.mpr hlt)⟩

/-- A minute without one changes nothing. -/
theorem Remembers.succ (h : Remembers config start m s) (hscheduled : ¬ Scheduled config m) :
    Remembers config start (m + 1) s := by
  have hnone : ∀ j, j < m + 1 → (j < m → ¬ Scheduled config j) → ¬ Scheduled config j := by
    intro j hj hbefore
    rcases Nat.lt_succ_iff_lt_or_eq.mp hj with hlt | rfl
    · exact hbefore hlt
    · exact hscheduled
  rcases h with ⟨hinit, hbefore⟩ | ⟨j, hstart, hj, hj', hlast, hbetween⟩
  · exact .inl ⟨hinit, fun j hstart hj => hnone j hj (hbefore j hstart)⟩
  · exact .inr ⟨j, hstart, Nat.lt_succ_of_lt hj, hj', hlast,
      fun i hi hi' => hnone i hi' (hbetween i hi)⟩

/-- **A minute**: the climate control is switched on once if there is an entry that is not
suppressed, and what is remembered is kept. -/
theorem Remembers.minute (h : Remembers config start m s) (hstart : start ≤ m) (more : ℕ) :
    Remembers config start (m + 1) (s.checks config (stamp m) (more + 1)).1 ∧
      ((s.checks config (stamp m) (more + 1)).2 = (if Scheduled config m then 1 else 0) ↔
        (Scheduled config m → ¬ Suppressed config start m)) := by
  cases hdue : due config (stamp m) with
  | none =>
      have hscheduled := due_eq_none_iff.mp hdue
      rw [checks_of_idle (check_not_due hdue), if_neg hscheduled]
      exact ⟨h.succ hscheduled, iff_of_true rfl fun hyes => absurd hyes hscheduled⟩
  | some e =>
      have hscheduled : Scheduled config m :=
        not_not.mp fun hnot => Option.some_ne_none e (hdue.symm.trans (due_eq_none_iff.mpr hnot))
      rw [if_pos hscheduled, ← h.suppressed_iff]
      by_cases hlast : s.lastTriggered = stamp m
      · rw [checks_of_idle (check_triggered hlast)]
        exact ⟨.of_last hstart hscheduled hlast,
          iff_of_false Nat.zero_ne_one fun hne => hne hscheduled hlast⟩
      · rw [checks_succ more hlast hdue]
        exact ⟨.of_last hstart hscheduled rfl, iff_of_true rfl fun _ => hlast⟩

/-- The minutes of a run are right exactly when no entry in it is suppressed. -/
theorem Remembers.run (hstart : start ≤ m) (h : Remembers config start m s) (more : List ℕ) :
    (s.run config m more).2 =
        (List.range' m more.length).map (fun i => if Scheduled config i then 1 else 0) ↔
      ∀ i, m ≤ i → i < m + more.length → Scheduled config i → ¬ Suppressed config start i := by
  induction more generalizing m s with
  | nil => exact iff_of_true rfl fun i hi hi' => absurd hi (Nat.not_le.mpr hi')
  | cons k more ih =>
      obtain ⟨hnext, hone⟩ := h.minute hstart k
      rw [Scheduler.run, List.length_cons, List.range'_succ, List.map_cons, List.cons.injEq, hone,
        ih (Nat.le_succ_of_le hstart) hnext]
      constructor
      · rintro ⟨hhead, hrest⟩ i hi hi'
        rcases Nat.eq_or_lt_of_le hi with rfl | hlt
        · exact hhead
        · exact hrest i hlt (by omega)
      · exact fun hall => ⟨hall m (Nat.le_refl m) (by omega),
          fun i hi hi' => hall i (Nat.le_of_succ_le hi) (by omega)⟩

/-- An entry is suppressed when it is the only one of the week, and the same minute a week ago is in
the run. -/
theorem suppressed_iff (hscheduled : Scheduled config m) : Suppressed config start m ↔
    ∃ j, start ≤ j ∧ j + week = m ∧ Scheduled config j ∧
      ∀ i, j < i → i < m → ¬ Scheduled config i := by
  constructor
  · rintro ⟨j, hstart, hj, hj', hstamp, hbetween⟩
    refine ⟨j, hstart, ?_, hj', hbetween⟩
    have hmod := stamp_eq_iff.mp hstamp
    have hle : j + week ≤ m := by rw [week] at hmod ⊢; omega
    rcases Nat.eq_or_lt_of_le hle with heq | hlt
    · exact heq
    · have hagain : Scheduled config (j + week) :=
        (scheduled_congr (stamp_eq_iff.mpr (Nat.add_mod_right j week))).mpr hj'
      exact absurd hagain (hbetween _ (by rw [week]; omega) hlt)
  · rintro ⟨j, hstart, rfl, hj', hbetween⟩
    exact ⟨j, hstart, by rw [week]; omega, hj',
      stamp_eq_iff.mpr (Nat.add_mod_right j week).symm, hbetween⟩

/-- **Week after week** the climate control is switched on once in every minute with an entry, and
in no other, exactly when the run meets no entry twice with none in between. -/
theorem repeats_iff (config : Instances) (start : ℕ) (more : List ℕ) :
    (Scheduler.init.run config start more).2 =
        (List.range' start more.length).map (fun m => if Scheduled config m then 1 else 0) ↔
      ¬ ∃ m, start ≤ m ∧ m + week < start + more.length ∧ Scheduled config m ∧
        ∀ i, m < i → i < m + week → ¬ Scheduled config i := by
  have hinit : Remembers config start start .init :=
    .inl ⟨rfl, fun j hj hj' => absurd hj (Nat.not_le.mpr hj')⟩
  rw [hinit.run (Nat.le_refl start)]
  constructor
  · rintro h ⟨m, hstart, hend, hscheduled, hbetween⟩
    have hagain : Scheduled config (m + week) :=
      (scheduled_congr (stamp_eq_iff.mpr (Nat.add_mod_right m week))).mpr hscheduled
    exact h (m + week) (by omega) hend hagain
      ((suppressed_iff hagain).mpr ⟨m, hstart, rfl, hscheduled, hbetween⟩)
  · intro h i hi hi' hscheduled hsuppressed
    obtain ⟨j, hstart, rfl, hj, hbetween⟩ := (suppressed_iff hscheduled).mp hsuppressed
    exact h ⟨j, hstart, hi', hj, hbetween⟩

/-! ### A weekly entry -/

/-- Every Monday at 7:30, and at no other time. -/
def mondays : Instances := fun key =>
  if key = configKey (ascii "mon") then ascii "07:30" else []

theorem entriesOf_mondays : ∀ wday : Fin 7, entriesOf mondays (dayName (wday.val : ℤ)) =
    if wday.val = 1 then [⟨7, 30, 5⟩] else [] := by
  decide

/-- The minutes of the week that have an entry. -/
theorem scheduled_mondays {m : ℕ} : Scheduled mondays m ↔ m % week = 1890 := by
  have hentries : entriesOf mondays (dayName (stamp m).wday) =
      if m / 1440 % 7 = 1 then [⟨7, 30, 5⟩] else [] :=
    entriesOf_mondays ⟨m / 1440 % 7, Nat.mod_lt _ (by decide)⟩
  rw [Scheduled, hentries, week]
  by_cases hday : m / 1440 % 7 = 1
  · rw [if_pos hday]
    constructor
    · rintro ⟨e, he, hhour, hmin⟩
      obtain rfl := List.mem_singleton.mp he
      have hhour : (7 : ℤ) = (m / 60 % 24 : ℕ) := hhour
      have hmin : (30 : ℤ) = (m % 60 : ℕ) := hmin
      omega
    · intro hm
      refine ⟨_, List.mem_singleton_self _, ?_, ?_⟩
      · show (7 : ℤ) = (m / 60 % 24 : ℕ)
        omega
      · show (30 : ℤ) = (m % 60 : ℕ)
        omega
  · rw [if_neg hday]
    refine iff_of_false ?_ (by omega)
    rintro ⟨e, he, -⟩
    exact absurd he List.not_mem_nil

/-- On the second Monday nothing happens. -/
theorem not_repeats : ¬ ∀ (config : Instances) (start : ℕ) (more : List ℕ),
    (Scheduler.init.run config start more).2 =
      (List.range' start more.length).map (fun m => if Scheduled config m then 1 else 0) := by
  intro h
  have hmore := h mondays 0 (List.replicate (2 * week) 0)
  rw [repeats_iff, List.length_replicate] at hmore
  refine hmore ⟨1890, Nat.zero_le _, by decide, scheduled_mondays.mpr (by decide), ?_⟩
  intro i hi hi' hscheduled
  rw [scheduled_mondays] at hscheduled
  rw [week] at hscheduled hi'
  omega

end Ovms.Schedule
