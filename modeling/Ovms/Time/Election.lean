import Std.Data.ExtTreeMap
import Mathlib.Data.Int.Notation
import Ovms.Lib.Machine

/-!
# The Time Master

The election of a time provider (`main/ovms_time.cpp`). Providers report the time; the one of the
lowest stratum that has reported within the last 120 seconds should be the master, and its reports
set the clock.

An election is held when a provider reports for the first time, and every minute. When a known
provider reports, it should be held if the master is stale, but the test is the wrong way round:
it is held if the master is *not* stale. So a stale master, or none, is kept until the next minute.
-/

open Lib Std

namespace Ovms.Time

/-! ### Providers -/

/-- `STALETIMEOUT`, in seconds. -/
def staletimeout : UInt32 := 120

/-- `OvmsTimeProvider`, without its name. -/
structure OvmsTimeProvider where
  time : ℤ
  lastreport : UInt32
  stratum : ℤ
  deriving DecidableEq, Repr

/-- The provider is not stale at a time. -/
def OvmsTimeProvider.Fresh (monotonictime : UInt32) (p : OvmsTimeProvider) : Prop :=
  monotonictime < p.lastreport + staletimeout

instance (monotonictime : UInt32) (p : OvmsTimeProvider) : Decidable (p.Fresh monotonictime) :=
  inferInstanceAs (Decidable (_ < _))

/-- `OvmsTime`: the providers by their names, and the name of the current one. -/
structure OvmsTime where
  providers : ExtTreeMap String OvmsTimeProvider
  current : Option String

/-- The provider `m_current` points to. -/
def OvmsTime.master (m : OvmsTime) : Option OvmsTimeProvider :=
  m.current.bind (m.providers[·]?)

/-- The loop of an election, with the best stratum so far and the provider of it. -/
def electLoop (monotonictime : UInt32) :
    ℤ × Option String → List (String × OvmsTimeProvider) → ℤ × Option String
  | found, [] => found
  | (best, c), (name, p) :: rest =>
      if p.stratum < best ∧ p.Fresh monotonictime then
        electLoop monotonictime (p.stratum, some name) rest
      else electLoop monotonictime (best, c) rest

/-- `OvmsTime::Elect`. -/
def OvmsTime.elect (monotonictime : UInt32) (m : OvmsTime) : OvmsTime :=
  { m with current := (electLoop monotonictime (255, none) m.providers.toList).2 }

/-- A report of a provider. -/
structure Report where
  provider : String
  stratum : ℤ
  trusted : Bool
  tim : ℤ
  timu : ℤ
  below : stratum < 255

/-- The stratum that a report counts for. -/
def Report.effective (r : Report) : ℤ := if r.trusted then r.stratum else 16

/-- The provider as a report leaves it. -/
def Report.taken (monotonictime : UInt32) (r : Report) : OvmsTimeProvider where
  time := r.tim
  lastreport := monotonictime
  stratum := r.effective

/-- A provider that reports for the first time is created, and an election is held. -/
def OvmsTime.create (monotonictime : UInt32) (r : Report) (m : OvmsTime) : OvmsTime :=
  if m.providers[r.provider]? = none then
    { m with providers := m.providers.insert r.provider (r.taken monotonictime) }.elect
      monotonictime
  else m

/-- The test for a stale master, as it stands. -/
def OvmsTime.check (monotonictime : UInt32) (m : OvmsTime) : OvmsTime :=
  match m.master with
  | some p => if p.Fresh monotonictime then m.elect monotonictime else m
  | none => m

/-- The time that `settimeofday` is called with: seconds and microseconds. -/
abbrev Clock := ℤ × ℤ

/-- `OvmsTime::Set`; `rawtime` is what the clock shows. -/
def OvmsTime.set (monotonictime : UInt32) (rawtime : ℤ) (r : Report) (m : OvmsTime) :
    OvmsTime × Option Clock :=
  let m := m.create monotonictime r
  let m := { m with providers := m.providers.insert r.provider (r.taken monotonictime) }
  let m := m.check monotonictime
  (m, if m.current = some r.provider ∧ r.tim ≠ rawtime then some (r.tim, r.timu) else none)

/-- The name of the provider that SNTP reports for. -/
def ntp : String := "ntp"

/-- `OvmsTime::EventTicker60`; SNTP is refreshed if it is enabled, with a network. -/
def OvmsTime.ticker60 (monotonictime : UInt32) (rawtime : ℤ) (sntp : Bool) (m : OvmsTime) :
    OvmsTime :=
  let refreshed := match sntp, m.providers[ntp]? with
    | true, some p =>
        { m with
          providers := m.providers.insert ntp
            { p with time := rawtime, lastreport := monotonictime } }
    | _, _ => m
  refreshed.elect monotonictime

/-- A report, or a minute tick. -/
inductive Event where
  | set (monotonictime : UInt32) (rawtime : ℤ) (r : Report)
  | ticker60 (monotonictime : UInt32) (rawtime : ℤ) (sntp : Bool)

/-- When an event happens. -/
def Event.monotonictime : Event → UInt32
  | .set monotonictime _ _ => monotonictime
  | .ticker60 monotonictime _ _ => monotonictime

/-- The answer to an event: the state, and the clock if it is set. -/
def OvmsTime.answer (m : OvmsTime) : Event → OvmsTime × Option Clock
  | .set monotonictime rawtime r => m.set monotonictime rawtime r
  | .ticker60 monotonictime rawtime sntp => (m.ticker60 monotonictime rawtime sntp, none)

/-- The state behind an event. -/
def OvmsTime.step (m : OvmsTime) (e : Event) : OvmsTime := (m.answer e).1

/-- The constructor has run. -/
def OvmsTime.init : OvmsTime := ⟨∅, none⟩

/-! ### What should hold -/

/-- The current provider is one that is not stale, of the lowest stratum of those; there is none
exactly when all are stale. -/
def Elected (monotonictime : UInt32) (m : OvmsTime) : Prop :=
  match m.current with
  | none => ∀ (name : String) (p : OvmsTimeProvider), m.providers[name]? = some p →
      ¬ p.Fresh monotonictime
  | some name => ∃ p, m.providers[name]? = some p ∧ p.Fresh monotonictime ∧
      ∀ (name' : String) (p' : OvmsTimeProvider), m.providers[name']? = some p' →
        p'.Fresh monotonictime → p.stratum ≤ p'.stratum

/-- Who reports, if anyone. -/
def Event.provider : Event → Option String
  | .set _ _ r => some r.provider
  | .ticker60 _ _ _ => none

/-- Behind an event the right provider is the current one, and if the clock was set, it is the one
who has reported. -/
structure Keeps (m : OvmsTime) (e : Event) : Prop where
  elected : Elected e.monotonictime (m.step e)
  clock : (m.answer e).2 ≠ none → (m.step e).current ≠ none ∧ (m.step e).current = e.provider

/-- What has just reported is not stale. So it is, but for the last seconds of the 32 bit clock. -/
def ReportFresh (monotonictime : UInt32) : Prop := monotonictime < monotonictime + staletimeout

/-- The event leads to an election, or needs none: a report is the first one of its provider; or
the current provider is not stale, as it reports itself or has reported; or there is none, and
nothing that has reported counts as fresh. -/
def Elects (m : OvmsTime) : Event → Prop
  | .set monotonictime _ r =>
      m.providers[r.provider]? = none ∨
      m.current = some r.provider ∧ ReportFresh monotonictime ∨
      (m.current ≠ some r.provider ∧ ∃ p, m.master = some p ∧ p.Fresh monotonictime) ∨
      (m.current = none ∧ ¬ ReportFresh monotonictime ∧
        ∀ (name : String) (p : OvmsTimeProvider), name ≠ r.provider →
          m.providers[name]? = some p → ¬ p.Fresh monotonictime)
  | .ticker60 _ _ _ => True

/-- All strata are below 255. -/
def Below (m : OvmsTime) : Prop :=
  ∀ (name : String) (p : OvmsTimeProvider), m.providers[name]? = some p → p.stratum < 255

/-- The current provider is a known one, and all strata are below 255. -/
structure Inv (m : OvmsTime) : Prop where
  known : ∀ name, m.current = some name → m.providers[name]? ≠ none
  below : Below m

/-! ### The election -/

variable {m : OvmsTime} {monotonictime : UInt32}

/-- The loop keeps what it has found, or finds the first provider of the lowest stratum. -/
theorem electLoop_spec (monotonictime : UInt32) (l : List (String × OvmsTimeProvider))
    (best : ℤ) (c : Option String) :
    (electLoop monotonictime (best, c) l = (best, c) ∧
      ∀ x ∈ l, x.2.Fresh monotonictime → best ≤ x.2.stratum) ∨
    (∃ x ∈ l, electLoop monotonictime (best, c) l = (x.2.stratum, some x.1) ∧
      x.2.Fresh monotonictime ∧ x.2.stratum < best ∧
      ∀ y ∈ l, y.2.Fresh monotonictime → x.2.stratum ≤ y.2.stratum) := by
  induction l generalizing best c with
  | nil => exact .inl ⟨rfl, fun _ h => absurd h List.not_mem_nil⟩
  | cons head rest ih =>
      obtain ⟨name, p⟩ := head
      rw [electLoop]
      by_cases hbetter : p.stratum < best ∧ p.Fresh monotonictime
      · rw [if_pos hbetter]
        obtain ⟨hlower, hfresh⟩ := hbetter
        refine .inr ?_
        rcases ih p.stratum (some name) with ⟨hkept, hle⟩ | ⟨x, hx, hfound, hxfresh, hlt, hle⟩
        · refine ⟨(name, p), List.mem_cons_self, hkept, hfresh, hlower, fun y hy hyfresh => ?_⟩
          rcases List.mem_cons.mp hy with rfl | hy
          · exact Int.le_refl _
          · exact hle y hy hyfresh
        · refine ⟨x, List.mem_cons_of_mem _ hx, hfound, hxfresh, Int.lt_trans hlt hlower,
            fun y hy hyfresh => ?_⟩
          rcases List.mem_cons.mp hy with rfl | hy
          · exact Int.le_of_lt hlt
          · exact hle y hy hyfresh
      · rw [if_neg hbetter]
        have hhead : p.Fresh monotonictime → best ≤ p.stratum := fun hfresh =>
          Int.not_lt.mp fun hlower => hbetter ⟨hlower, hfresh⟩
        rcases ih best c with ⟨hkept, hle⟩ | ⟨x, hx, hfound, hxfresh, hlt, hle⟩
        · refine .inl ⟨hkept, fun y hy hyfresh => ?_⟩
          rcases List.mem_cons.mp hy with rfl | hy
          · exact hhead hyfresh
          · exact hle y hy hyfresh
        · refine .inr ⟨x, List.mem_cons_of_mem _ hx, hfound, hxfresh, hlt, fun y hy hyfresh => ?_⟩
          rcases List.mem_cons.mp hy with rfl | hy
          · exact Int.le_trans (Int.le_of_lt hlt) (hhead hyfresh)
          · exact hle y hy hyfresh

/-- **An election** elects the provider that should be. -/
theorem elect_elected (monotonictime : UInt32) (h : Below m) :
    Elected monotonictime (m.elect monotonictime) := by
  have hmem : ∀ {name p}, (name, p) ∈ m.providers.toList ↔ m.providers[name]? = some p :=
    ExtTreeMap.mem_toList_iff_getElem?_eq_some
  rw [Elected, OvmsTime.elect]
  rcases electLoop_spec monotonictime m.providers.toList 255 none with
    ⟨hkept, hle⟩ | ⟨x, hx, hfound, hfresh, -, hle⟩
  · rw [hkept]
    intro name p hp hfresh
    exact absurd (hle (name, p) (hmem.mpr hp) hfresh) (Int.not_le.mpr (h name p hp))
  · rw [hfound]
    exact ⟨x.2, hmem.mp hx, hfresh, fun name p hp => hle (name, p) (hmem.mpr hp)⟩

theorem Inv.elect (h : Below m) :
    Inv (m.elect monotonictime) := by
  refine ⟨fun name hname hnone => ?_, h⟩
  have helected := elect_elected monotonictime h
  rw [Elected, hname] at helected
  obtain ⟨p, hp, -⟩ := helected
  exact Option.some_ne_none p (hp.symm.trans hnone)

/-! ### Reports -/

variable {r : Report} {name : String}

theorem Report.effective_lt (r : Report) : r.effective < 255 := by
  rw [Report.effective]
  split
  · exact r.below
  · decide

/-- The providers as a report leaves them. -/
def OvmsTime.taken (monotonictime : UInt32) (r : Report) (m : OvmsTime) : OvmsTime :=
  { m with providers := m.providers.insert r.provider (r.taken monotonictime) }

theorem providers_taken : (m.taken monotonictime r).providers[name]? =
    if name = r.provider then some (r.taken monotonictime) else m.providers[name]? := by
  rw [OvmsTime.taken, ExtTreeMap.getElem?_insert]
  exact if_congr (Std.compare_eq_iff_eq.trans eq_comm) rfl rfl

/-- A report keeps the strata below 255. -/
theorem Below.taken (monotonictime : UInt32) (r : Report) (h : Below m) :
    Below (m.taken monotonictime r) := by
  intro name p hp
  rw [providers_taken] at hp
  split at hp
  · obtain rfl := Option.some.inj hp
    exact r.effective_lt
  · exact h name p hp

theorem Inv.taken (h : Inv m) : Inv (m.taken monotonictime r) := by
  refine ⟨fun name hname => ?_, h.below.taken monotonictime r⟩
  rw [providers_taken]
  split
  · exact Option.some_ne_none _
  · exact h.known name hname

/-- The first report of a provider is taken once more, which changes nothing. -/
theorem taken_create_of_none (hnone : m.providers[r.provider]? = none) :
    (m.create monotonictime r).taken monotonictime r =
      (m.taken monotonictime r).elect monotonictime := by
  have htwice : (m.providers.insert r.provider (r.taken monotonictime)).insert r.provider
      (r.taken monotonictime) = m.providers.insert r.provider (r.taken monotonictime) := by
    refine ExtTreeMap.ext_getElem? fun name => ?_
    rw [ExtTreeMap.getElem?_insert]
    split
    · next heq => rw [ExtTreeMap.getElem?_insert, if_pos heq]
    · rfl
  rw [OvmsTime.create, if_pos hnone, OvmsTime.taken, OvmsTime.elect, OvmsTime.elect]
  dsimp only
  rw [htwice]
  rfl

theorem check_fresh {p : OvmsTimeProvider} (hp : m.master = some p)
    (hfresh : p.Fresh monotonictime) : m.check monotonictime = m.elect monotonictime := by
  rw [OvmsTime.check, hp]
  exact if_pos hfresh

theorem check_stale (h : ∀ p, m.master = some p → ¬ p.Fresh monotonictime) :
    m.check monotonictime = m := by
  rw [OvmsTime.check]
  split
  · next p hp => exact if_neg (h p hp)
  · rfl

theorem check_providers : (m.check monotonictime).providers = m.providers := by
  rw [OvmsTime.check]
  split
  · split <;> rfl
  · rfl

theorem Inv.check (h : Inv m) : Inv (m.check monotonictime) := by
  by_cases hfresh : ∃ p, m.master = some p ∧ p.Fresh monotonictime
  · obtain ⟨p, hp, hfresh⟩ := hfresh
    rw [check_fresh hp hfresh]
    exact Inv.elect h.below
  · rwa [check_stale fun p hp hp' => hfresh ⟨p, hp, hp'⟩]

/-- The test leaves the right provider current exactly when it leads to an election, or all are
stale. -/
theorem check_elected_iff (h : Inv m) : Elected monotonictime (m.check monotonictime) ↔
    (∃ p, m.master = some p ∧ p.Fresh monotonictime) ∨
      (m.current = none ∧ ∀ (name : String) (p : OvmsTimeProvider), m.providers[name]? = some p →
        ¬ p.Fresh monotonictime) := by
  by_cases hfresh : ∃ p, m.master = some p ∧ p.Fresh monotonictime
  · refine iff_of_true ?_ (.inl hfresh)
    obtain ⟨p, hp, hfresh⟩ := hfresh
    rw [check_fresh hp hfresh]
    exact elect_elected monotonictime h.below
  · rw [check_stale fun p hp hp' => hfresh ⟨p, hp, hp'⟩, or_iff_right hfresh, Elected]
    cases hcurrent : m.current with
    | none => exact (and_iff_right rfl).symm
    | some name =>
        refine iff_of_false ?_ fun hnone => Option.some_ne_none name hnone.1
        rintro ⟨p, hp, hpfresh, -⟩
        exact hfresh ⟨p, by rw [OvmsTime.master, hcurrent]; exact hp, hpfresh⟩

/-- The master behind a report: the provider that has reported, or the one it was. -/
theorem master_taken : (m.taken monotonictime r).master =
    if m.current = some r.provider then some (r.taken monotonictime) else m.master := by
  rw [OvmsTime.master, OvmsTime.master, OvmsTime.taken]
  cases hcurrent : m.current with
  | none => rfl
  | some name =>
      rw [Option.bind_some, Option.bind_some]
      refine providers_taken.trans (if_congr ?_ rfl rfl)
      exact ⟨congrArg some, Option.some.inj⟩

theorem set_fst (rawtime : ℤ) : (m.set monotonictime rawtime r).1 =
    ((m.create monotonictime r).taken monotonictime r).check monotonictime :=
  rfl

/-- **A report** leaves the right provider current exactly when it elects. -/
theorem set_elected_iff (h : Inv m) (rawtime : ℤ) :
    Elected monotonictime (m.set monotonictime rawtime r).1 ↔
      Elects m (.set monotonictime rawtime r) := by
  rw [set_fst]
  by_cases hnone : m.providers[r.provider]? = none
  · refine iff_of_true ?_ (.inl hnone)
    rw [taken_create_of_none hnone, check_elected_iff (Inv.elect (h.below.taken monotonictime r))]
    have helected := elect_elected monotonictime (h.below.taken monotonictime r)
    rw [Elected] at helected
    cases hcurrent : ((m.taken monotonictime r).elect monotonictime).current with
    | none => exact .inr ⟨rfl, by rwa [hcurrent] at helected⟩
    | some name =>
        rw [hcurrent] at helected
        obtain ⟨p, hp, hfresh, -⟩ := helected
        exact .inl ⟨p, by rw [OvmsTime.master, hcurrent]; exact hp, hfresh⟩
  · have hcreate : m.create monotonictime r = m := if_neg hnone
    have hfresh : (r.taken monotonictime).Fresh monotonictime ↔ ReportFresh monotonictime := Iff.rfl
    rw [hcreate, check_elected_iff h.taken, master_taken, Elects, or_iff_right hnone]
    by_cases hcurrent : m.current = some r.provider
    · have hsome : m.current ≠ none := by rw [hcurrent]; exact Option.some_ne_none _
      simp [hcurrent, OvmsTime.taken, hfresh]
    · have hstale : (∀ (name : String) (p : OvmsTimeProvider),
          (m.taken monotonictime r).providers[name]? = some p → ¬ p.Fresh monotonictime) ↔
          ¬ ReportFresh monotonictime ∧ ∀ (name : String) (p : OvmsTimeProvider),
            name ≠ r.provider → m.providers[name]? = some p → ¬ p.Fresh monotonictime := by
        constructor
        · refine fun hall => ⟨fun hreport => ?_, fun name p hne hp => ?_⟩
          · exact hall r.provider _ (by rw [providers_taken, if_pos rfl]) (hfresh.mpr hreport)
          · exact hall name p (by rw [providers_taken, if_neg hne, hp])
        · rintro ⟨hreport, hall⟩ name p hp
          rw [providers_taken] at hp
          split at hp
          · obtain rfl := Option.some.inj hp
            exact fun hpfresh => hreport (hfresh.mp hpfresh)
          · next hne => exact hall name p hne hp
      have hnot : ¬ (m.current = some r.provider ∧ ReportFresh monotonictime) :=
        fun hsome => hcurrent hsome.1
      rw [hstale, if_neg hcurrent, or_iff_right hnot, and_iff_right hcurrent]
      rfl

theorem set_clock (rawtime : ℤ) (h : (m.set monotonictime rawtime r).2 ≠ none) :
    (m.set monotonictime rawtime r).1.current = some r.provider := by
  rw [OvmsTime.set] at h ⊢
  dsimp only at h ⊢
  by_contra hcurrent
  exact h (if_neg fun hset => hcurrent hset.1)

theorem Inv.set (h : Inv m) (rawtime : ℤ) : Inv (m.set monotonictime rawtime r).1 := by
  rw [set_fst, OvmsTime.create]
  split
  · exact (Inv.elect (h.below.taken monotonictime r)).taken.check
  · exact h.taken.check

/-! ### Minute ticks -/

/-- SNTP is refreshed, and an election is held. -/
theorem ticker60_eq (monotonictime : UInt32) (h : Below m) (rawtime : ℤ) (sntp : Bool) :
    ∃ m', Below m' ∧ m.ticker60 monotonictime rawtime sntp = m'.elect monotonictime := by
  cases sntp with
  | false => exact ⟨m, h, rfl⟩
  | true =>
      cases hp : m.providers[ntp]? with
      | none => exact ⟨m, h, by simp only [OvmsTime.ticker60, hp]⟩
      | some p =>
          refine ⟨_, fun name q hq => ?_, by simp only [OvmsTime.ticker60, hp]; rfl⟩
          rw [ExtTreeMap.getElem?_insert] at hq
          split at hq
          · obtain rfl := Option.some.inj hq
            exact h ntp p hp
          · exact h name q hq

/-! ### Runs -/

/-- **An event** leaves the right provider current, and the clock to it, exactly when it elects. -/
theorem elects_iff (h : Inv m) (e : Event) : Keeps m e ↔ Elects m e := by
  cases e with
  | set monotonictime rawtime r =>
      rw [← set_elected_iff h]
      refine ⟨fun hkeeps => hkeeps.elected, fun helected => ⟨helected, fun hclock => ?_⟩⟩
      have hcurrent := set_clock rawtime hclock
      exact ⟨fun hnone => Option.some_ne_none _ (hcurrent.symm.trans hnone), hcurrent⟩
  | ticker60 monotonictime rawtime sntp =>
      refine iff_of_true ⟨?_, fun hclock => absurd rfl hclock⟩ trivial
      obtain ⟨m', hbelow, heq⟩ := ticker60_eq monotonictime h.below rawtime sntp
      rw [OvmsTime.step, OvmsTime.answer, heq]
      exact elect_elected monotonictime hbelow

theorem Inv.step (h : Inv m) (e : Event) : Inv (m.step e) := by
  cases e with
  | set monotonictime rawtime r => exact h.set rawtime
  | ticker60 monotonictime rawtime sntp =>
      obtain ⟨m', hbelow, heq⟩ := ticker60_eq monotonictime h.below rawtime sntp
      rw [OvmsTime.step, OvmsTime.answer, heq]
      exact Inv.elect hbelow

theorem inv_init : Inv .init where
  known name hname := absurd hname (Option.some_ne_none name).symm
  below name p hp := by simp [OvmsTime.init] at hp

/-- **The master** is the right one behind every event of a run, and only its reports set the
clock, exactly when every event elects. -/
theorem master_elected (events : List Event) :
    Along OvmsTime.step Keeps .init events ↔ Along OvmsTime.step Elects .init events :=
  along_congr_of_invariant (I := Inv) (fun _ e hs => elects_iff hs e) (fun _ e hs _ => hs.step e)
    inv_init

/-! ### A stale master -/

/-- A report of the receiver of the modem. -/
def gps (tim : ℤ) : Report := ⟨"gsm-nmea", 2, true, tim, 0, by decide⟩

theorem providers_first (rawtime : ℤ) {name : String} :
    (OvmsTime.init.set monotonictime rawtime r).1.providers[name]? =
      if name = r.provider then some (r.taken monotonictime) else none := by
  have hnone : OvmsTime.init.providers[r.provider]? = none := by simp [OvmsTime.init]
  rw [set_fst, taken_create_of_none hnone, check_providers]
  exact providers_taken.trans (if_congr Iff.rfl rfl (by simp [OvmsTime.init]))

/-- The receiver is silent for more than two minutes, so that a minute tick finds it stale. When
it reports again, no provider is current. -/
theorem not_master_elected :
    ¬ ∀ events : List Event, Along OvmsTime.step Keeps .init events := by
  intro h
  set m : OvmsTime := ((OvmsTime.init.step (.set 100 0 (gps 1000))).step (.ticker60 240 1140 false))
  have hproviders : ∀ name : String, m.providers[name]? =
      if name = "gsm-nmea" then some ((gps 1000).taken 100) else none :=
    fun name => providers_first 0
  have hstale : ¬ ((gps 1000).taken 100).Fresh 240 := by decide
  have hcurrent : m.current = none := by
    have helected : Elected 240 m := elect_elected 240 (inv_init.set 0).below
    rw [Elected] at helected
    cases hcurrent : m.current with
    | none => rfl
    | some name =>
        rw [hcurrent] at helected
        obtain ⟨p, hp, hfresh, -⟩ := helected
        rw [hproviders] at hp
        split at hp
        · obtain rfl := Option.some.inj hp
          exact absurd hfresh hstale
        · exact absurd hp (Option.some_ne_none p).symm
  have hkeeps : Keeps m (.set 260 1160 (gps 1161)) :=
    (h [.set 100 0 (gps 1000), .ticker60 240 1140 false, .set 260 1160 (gps 1161)]).2.2.1
  have hinv : Inv m := (inv_init.step _).step _
  rcases (elects_iff hinv _).mp hkeeps with hnone | ⟨hself, -⟩ | ⟨-, p, hp, -⟩ | ⟨-, hreport, -⟩
  · have hknown := (hproviders (gps 1161).provider).trans (if_pos rfl)
    exact absurd (hknown.symm.trans hnone) (Option.some_ne_none _)
  · exact absurd (hcurrent.symm.trans hself) (Option.some_ne_none _).symm
  · rw [OvmsTime.master, hcurrent] at hp
    exact absurd hp (Option.some_ne_none p).symm
  · exact hreport (show (260 : UInt32) < 260 + staletimeout by decide)

end Ovms.Time
