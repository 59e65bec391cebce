import Mathlib.Order.Bounds.Defs
import Ovms.Lib.FirstLeast
import Ovms.Schedule.Weekly

/-!
# The Next Event of the Schedules

The shell command that lists the schedules, and shows which entry comes next
(`components/vehicle/vehicle_shell.cpp`). It goes through the days from the current one on, but
compares the minutes of the week as they are counted from Sunday on. Entries of the current week
that are behind are never shown, though they come again in the next week.
-/

open Lib

namespace Ovms.Schedule

open Config (Text)

/-! ### The command -/

/-- The names of the days in full, from Sunday on. -/
def dayFull (wday : ℤ) : Text :=
  (["Sunday", "Monday", "Tuesday", "Wednesday", "Thursday", "Friday", "Saturday"].map ascii).getD
    wday.toNat []

/-- An entry as the command reads it, with a duration of 0 where none is given. -/
def listEntry (entry : Text) : Option Entry :=
  (readTime (timePart entry)).map fun time =>
    ⟨time.1, time.2, (durationPart entry).elim 0 atoi⟩

/-- The entries of a day as the command reads them. -/
def listedOn (config : Instances) (wday : ℤ) : List Entry :=
  let schedule := config (configKey (dayName wday))
  if schedule = [] then [] else (schedule.splitOn 0x2C).filterMap listEntry

/-- The minutes of the week, from Sunday on; an `int` wraps around. -/
def totalMin (wday hour min : ℤ) : ℤ := (wday * 24 * 60 + hour * 60 + min).bmod (2 ^ 32)

/-- `next_total_min`, and the entry it belongs to. -/
structure Next where
  totalMin : ℤ
  event : Option (ℤ × Entry)

/-- An entry of a day. -/
def Next.check (current : ℤ) (next : Next) (x : ℤ × Entry) : Next :=
  let scheduled := Schedule.totalMin x.1 x.2.hour x.2.min
  if current < scheduled ∧ scheduled < next.totalMin then ⟨scheduled, some x⟩ else next

/-- The search. -/
def nextScheduled (config : Instances) (now : Stamp) : Option (ℤ × Entry) :=
  let current := totalMin now.wday now.hour now.min
  let next : Next := (List.range 7).foldl (fun (next : Next) (offset : ℕ) =>
    let day := (now.wday + offset) % 7
    (listedOn config day).foldl (fun (next : Next) e => next.check current (day, e)) next)
    ⟨current + 10000, none⟩
  next.event

/-- `%-10s`. -/
def padRight (text : Text) : Text := text ++ List.replicate (10 - text.length) 0x20

/-- `%02d`. -/
def twoDigits (z : ℤ) : Text := if z < 0 then 0x2D :: digits 1 (-z) else digits 2 z

/-- The lines for the days that have a schedule. -/
def dayLines (config : Instances) : List Text :=
  (List.range 7).filterMap fun (i : ℕ) =>
    let schedule := config (configKey (dayName i))
    if schedule = [] then none else some (padRight (dayFull i) ++ ascii ": " ++ schedule)

/-- The line for the next event. -/
def nextLine (wday : ℤ) (e : Entry) : Text :=
  ascii "Next scheduled: " ++ dayFull wday ++ ascii " at " ++ twoDigits e.hour ++ ascii ":" ++
    twoDigits e.min ++
    if 0 < e.duration then ascii " (" ++ digits 1 e.duration ++ ascii " min)" else []

/-- `vehicle_climate_schedule_list`: the lines that are written, where `localtime` may fail. -/
def scheduleList (config : Instances) (now : Option Stamp) : List Text :=
  [ascii "Climate control schedules:", ascii "=========================="] ++ dayLines config ++
    (if dayLines config = [] then [ascii "No schedules configured."] else []) ++
    match now with
    | none => []
    | some now =>
        if dayLines config = [] then []
        else
          match nextScheduled config now with
          | none => []
          | some (wday, e) => [[], nextLine wday e]

/-! ### What should be shown -/

/-- The entry of the day that is for this minute, the first one if there are several. -/
def listedAt (config : Instances) (now : Stamp) : Option Entry :=
  (listedOn config now.wday).find? fun e => e.hour = now.hour ∧ e.min = now.min

/-- The event is the entry of the first minute behind `m` that has one, week after week. -/
def ShowsNext (config : Instances) (m : ℕ) : Prop :=
  ∃ n e, IsLeast {n | m < n ∧ Scheduled config n} n ∧ listedAt config (stamp n) = some e ∧
    nextScheduled config (stamp m) = some ((stamp n).wday, e)

/-! ### The search -/

/-- The entries in the order of the search. -/
def scan (config : Instances) (now : Stamp) : List (ℤ × Entry) :=
  (List.range 7).flatMap fun (offset : ℕ) =>
    (listedOn config ((now.wday + offset) % 7)).map fun e => ((now.wday + offset) % 7, e)

/-- The minute of an entry. -/
def minuteOf (x : ℤ × Entry) : ℤ := totalMin x.1 x.2.hour x.2.min

/-- It is one that the search takes. -/
def Ahead (current : ℤ) (x : ℤ × Entry) : Prop :=
  current < minuteOf x ∧ minuteOf x < current + 10000

instance (current : ℤ) : DecidablePred (Ahead current) :=
  fun _ => inferInstanceAs (Decidable (_ ∧ _))

/-- What the search holds. -/
def Next.of (current : ℤ) : Option (ℤ × Entry) → Next
  | none => ⟨current + 10000, none⟩
  | some x => ⟨minuteOf x, some x⟩

/-- An entry in the search. -/
theorem check_of {current : ℤ} {best : Option (ℤ × Entry)} (h : ∀ b ∈ best, Ahead current b)
    (x : ℤ × Entry) : (Next.of current best).check current x =
        Next.of current (keepLeast (Ahead current) minuteOf best x) ∧
      ∀ b ∈ keepLeast (Ahead current) minuteOf best x, Ahead current b := by
  cases best with
  | none =>
      have hiff : (current < totalMin x.1 x.2.hour x.2.min ∧
          totalMin x.1 x.2.hour x.2.min < (Next.of current none).totalMin) ↔ Ahead current x :=
        Iff.rfl
      rw [keepLeast, Next.check]
      by_cases hA : Ahead current x
      · rw [if_pos hA, if_pos (hiff.mpr hA)]
        exact ⟨rfl, fun b hb => Option.some.inj hb ▸ hA⟩
      · rw [if_neg hA, if_neg (mt hiff.mp hA)]
        exact ⟨rfl, h⟩
  | some b =>
      have hb : Ahead current b := h b rfl
      have hiff : (current < totalMin x.1 x.2.hour x.2.min ∧
          totalMin x.1 x.2.hour x.2.min < (Next.of current (some b)).totalMin) ↔
          Ahead current x ∧ minuteOf x < minuteOf b :=
        ⟨fun hlt => ⟨⟨hlt.1, hlt.2.trans hb.2⟩, hlt.2⟩, fun hlt => ⟨hlt.1.1, hlt.2⟩⟩
      rw [keepLeast, Next.check]
      by_cases hlt : Ahead current x ∧ minuteOf x < minuteOf b
      · rw [if_pos hlt, if_pos (hiff.mpr hlt)]
        exact ⟨rfl, fun c hc => Option.some.inj hc ▸ hlt.1⟩
      · rw [if_neg hlt, if_neg (mt hiff.mp hlt)]
        exact ⟨rfl, h⟩

theorem foldl_check (current : ℤ) (l : List (ℤ × Entry)) (best : Option (ℤ × Entry))
    (h : ∀ b ∈ best, Ahead current b) : l.foldl (Next.check current) (Next.of current best) =
      Next.of current (l.foldl (keepLeast (Ahead current) minuteOf) best) := by
  induction l generalizing best with
  | nil => rfl
  | cons x l ih =>
      obtain ⟨heq, hbest⟩ := check_of h x
      rw [List.foldl_cons, List.foldl_cons, heq, ih _ hbest]

/-- **What the search finds**: the first of the least minutes ahead, as they are counted from
Sunday on. -/
theorem nextScheduled_eq_some_iff {config : Instances} {now : Stamp} {x : ℤ × Entry} :
    nextScheduled config now = some x ↔
      FirstLeast (Ahead (totalMin now.wday now.hour now.min)) minuteOf (scan config now) x := by
  have hevent : ∀ current best, (Next.of current best).event = best := by
    intro current best
    cases best <;> rfl
  have hfold := foldl_check (totalMin now.wday now.hour now.min) (scan config now) none
    fun b hb => absurd hb (Option.not_mem_none b)
  rw [← foldl_keepLeast_eq_some_iff, ← hevent (totalMin now.wday now.hour now.min)
    (List.foldl _ none _), ← hfold, scan, List.foldl_flatMap]
  simp only [List.foldl_map]
  rfl

/-! ### Minutes of the week -/

/-- The entry is for a time of the day. -/
def TimeOfDay (e : Entry) : Prop := 0 ≤ e.hour ∧ e.hour ≤ 23 ∧ 0 ≤ e.min ∧ e.min ≤ 59

/-- The entry is for a minute. -/
def IsDue (n : ℕ) (x : ℤ × Entry) : Prop :=
  x.1 = (stamp n).wday ∧ x.2.hour = (stamp n).hour ∧ x.2.min = (stamp n).min

instance (n : ℕ) : DecidablePred (IsDue n) := fun _ => inferInstanceAs (Decidable (_ ∧ _ ∧ _))

theorem totalMin_eq {wday hour min : ℤ} (hday : 0 ≤ wday ∧ wday < 7) (hhour : 0 ≤ hour ∧ hour ≤ 23)
    (hmin : 0 ≤ min ∧ min ≤ 59) : totalMin wday hour min = wday * 1440 + hour * 60 + min := by
  rw [totalMin, Int.bmod_def]
  norm_num
  omega

theorem totalMin_stamp (n : ℕ) :
    totalMin (stamp n).wday (stamp n).hour (stamp n).min = (n % week : ℕ) := by
  rw [stamp, week]
  dsimp only
  rw [totalMin_eq] <;> omega

theorem minuteOf_of_isDue {n : ℕ} {x : ℤ × Entry} (h : IsDue n x) :
    minuteOf x = (n % week : ℕ) := by
  rw [minuteOf, h.1, h.2.1, h.2.2, totalMin_stamp]

theorem isDue_of_timeOfDay {x : ℤ × Entry} (hday : 0 ≤ x.1 ∧ x.1 < 7) (h : TimeOfDay x.2) (k : ℕ) :
    0 ≤ minuteOf x ∧ minuteOf x < week ∧ IsDue (k * week + (minuteOf x).toNat) x := by
  obtain ⟨hhour, hhour', hmin, hmin'⟩ := h
  rw [IsDue, stamp, minuteOf, week, totalMin_eq hday ⟨hhour, hhour'⟩ ⟨hmin, hmin'⟩]
  refine ⟨by omega, by omega, ?_, ?_, ?_⟩ <;> dsimp only <;> omega

theorem timeOfDay_of_isDue {n : ℕ} {x : ℤ × Entry} (h : IsDue n x) : TimeOfDay x.2 := by
  obtain ⟨-, hhour, hmin⟩ := h
  rw [TimeOfDay, hhour, hmin, stamp]
  dsimp only
  omega

/-! ### Entries -/

variable {config : Instances}

/-- The command reads the same times as the scheduler. -/
theorem scheduled_iff {n : ℕ} : Scheduled config n ↔ ∃ e ∈ listedOn config (stamp n).wday,
    e.hour = (stamp n).hour ∧ e.min = (stamp n).min := by
  have hread : ∀ (f : Text → ℤ) (texts : List Text) (hour min : ℤ),
      (∃ e ∈ texts.filterMap (fun entry => (readTime (timePart entry)).map fun time =>
        (⟨time.1, time.2, f entry⟩ : Entry)), e.hour = hour ∧ e.min = min) ↔
      ∃ entry ∈ texts, readTime (timePart entry) = some (hour, min) := by
    intro f texts hour min
    simp only [List.mem_filterMap, Option.map_eq_some_iff]
    constructor
    · rintro ⟨e, ⟨entry, hentry, time, htime, rfl⟩, rfl, rfl⟩
      exact ⟨entry, hentry, htime⟩
    · rintro ⟨entry, hentry, htime⟩
      exact ⟨_, ⟨entry, hentry, _, htime, rfl⟩, rfl, rfl⟩
  rw [Scheduled, entriesOf, readEntries, listedOn]
  split
  · rfl
  · exact (hread _ _ _ _).trans (hread _ _ _ _).symm

theorem listedAt_eq_none_iff {n : ℕ} :
    listedAt config (stamp n) = none ↔ ¬ Scheduled config n := by
  rw [listedAt, List.find?_eq_none, scheduled_iff, not_exists]
  refine forall_congr' fun e => ?_
  rw [not_and, decide_eq_true_eq]

theorem wday_stamp (m : ℕ) : 0 ≤ (stamp m).wday ∧ (stamp m).wday < 7 := by
  rw [stamp]
  dsimp only
  omega

/-- The days of the search, which are all days of the week. -/
theorem mem_scan {now : Stamp} {x : ℤ × Entry} :
    x ∈ scan config now ↔ (0 ≤ x.1 ∧ x.1 < 7) ∧ x.2 ∈ listedOn config x.1 := by
  simp only [scan, List.mem_flatMap, List.mem_range, List.mem_map]
  constructor
  · rintro ⟨offset, hoffset, e, he, rfl⟩
    exact ⟨⟨Int.emod_nonneg _ (by decide), Int.emod_lt_of_pos _ (by decide)⟩, he⟩
  · rintro ⟨⟨hpos, hlt⟩, hx⟩
    have hday : (now.wday + (((x.1 - now.wday) % 7).toNat : ℤ)) % 7 = x.1 := by omega
    refine ⟨((x.1 - now.wday) % 7).toNat, by omega, x.2, ?_, ?_⟩
    · rwa [hday]
    · rw [hday]

/-- Where only one element can be found. -/
theorem findSome?_eq_of_only {α β : Type} {f : α → Option β} {l : List α} {a : α} (ha : a ∈ l)
    (honly : ∀ b ∈ l, b ≠ a → f b = none) : l.findSome? f = f a := by
  cases hfa : f a with
  | none =>
      refine List.findSome?_eq_none_iff.mpr fun b hb => ?_
      by_cases hba : b = a
      · exact hba ▸ hfa
      · exact honly b hb hba
  | some v =>
      obtain ⟨before, after, rfl, hbefore⟩ := List.eq_append_cons_of_mem ha
      exact List.findSome?_eq_some_iff.mpr ⟨before, a, after, rfl, hfa, fun b hb =>
        honly b (List.mem_append_left _ hb) fun hba => hbefore (hba ▸ hb)⟩

/-- The first entry of the search that is for a minute is the first one of its day. -/
theorem find_scan (config : Instances) (now : Stamp) (n : ℕ) :
    (scan config now).find? (IsDue n) =
      (listedAt config (stamp n)).map fun e => ((stamp n).wday, e) := by
  have hday := wday_stamp n
  have hdue : ∀ (day : ℤ) (l : List Entry), (l.map fun e => (day, e)).find? (IsDue n) =
      if day = (stamp n).wday then
        (l.find? fun e => e.hour = (stamp n).hour ∧ e.min = (stamp n).min).map fun e => (day, e)
      else none := by
    intro day l
    rw [List.find?_map]
    split
    · next heq => simp only [Function.comp_def, IsDue, heq, true_and]
    · next hne =>
      have hnone : l.find? ((fun x => decide (IsDue n x)) ∘ fun e => (day, e)) = none :=
        List.find?_eq_none.mpr fun e _ => by simp [IsDue, hne]
      rw [hnone, Option.map_none]
  have hoffset : (now.wday + ((((stamp n).wday - now.wday) % 7).toNat : ℤ)) % 7 =
      (stamp n).wday := by omega
  rw [scan, List.find?_flatMap, findSome?_eq_of_only
    (a := (((stamp n).wday - now.wday) % 7).toNat) (List.mem_range.mpr (by omega)), hdue, hoffset,
    if_pos rfl, listedAt]
  intro offset hlt hne
  rw [hdue, if_neg]
  rw [List.mem_range] at hlt
  omega

/-! ### When the next event is shown -/

/-- An entry that is for no time of the day gets in the way of a minute: it is ahead of it as the
search counts, or taken for the same minute, and listed before all entries that are for it. -/
def Intrudes (config : Instances) (m n : ℕ) : Prop :=
  ∃ before x after, scan config (stamp m) = before ++ x :: after ∧ ¬ TimeOfDay x.2 ∧
    (m % week : ℕ) < minuteOf x ∧ (minuteOf x < (n % week : ℕ) ∨
      minuteOf x = (n % week : ℕ) ∧ ∀ y ∈ before, ¬ IsDue n y)

section Least

variable {m n : ℕ}

theorem isDue_of_listedAt {e : Entry} (h : listedAt config (stamp n) = some e) :
    IsDue n ((stamp n).wday, e) := by
  rw [listedAt] at h
  have htime := List.find?_some h
  exact ⟨rfl, of_decide_eq_true htime⟩

theorem scheduled_of_mem_scan {x : ℤ × Entry} (hx : x ∈ scan config (stamp m))
    (h : TimeOfDay x.2) (k : ℕ) :
    Scheduled config (k * week + (minuteOf x).toNat) := by
  obtain ⟨hday, hlisted⟩ := mem_scan.mp hx
  obtain ⟨-, -, hwday, htime⟩ := isDue_of_timeOfDay hday h k
  exact scheduled_iff.mpr ⟨x.2, hwday ▸ hlisted, htime⟩

/-- The next minute with an entry is in the same week if it is ahead in the count of the week. -/
theorem div_week_eq (h : IsLeast {n | m < n ∧ Scheduled config n} n)
    (hahead : m % week < n % week) : n / week = m / week := by
  have hm := Nat.div_add_mod' m week
  have hstamp : stamp n = stamp (m / week * week + n % week) := by
    rw [stamp_eq_iff, Nat.mul_add_mod_of_lt (Nat.mod_lt n (by decide))]
  have hle : n ≤ m / week * week + n % week :=
    h.2 ⟨by omega, (scheduled_congr hstamp).mp h.1.2⟩
  have hlt := h.1.1
  rw [week] at *
  omega

/-- An entry of the search that is for a time of the day and ahead is no earlier than the next
minute with an entry. -/
theorem le_minuteOf (h : IsLeast {n | m < n ∧ Scheduled config n} n)
    (hsame : n / week = m / week) {x : ℤ × Entry} (hx : x ∈ scan config (stamp m))
    (htime : TimeOfDay x.2) (hahead : (m % week : ℕ) < minuteOf x) :
    (n % week : ℕ) ≤ minuteOf x ∧ (minuteOf x = (n % week : ℕ) → IsDue n x) := by
  obtain ⟨hpos, hlt, hdue⟩ := isDue_of_timeOfDay (mem_scan.mp hx).1 htime (m / week)
  have hle : n ≤ m / week * week + (minuteOf x).toNat :=
    h.2 ⟨by have := Nat.div_add_mod' m week; omega, scheduled_of_mem_scan hx htime _⟩
  have hn := Nat.div_add_mod' n week
  rw [hsame] at hn
  refine ⟨by omega, fun heq => ?_⟩
  have hminute : m / week * week + (minuteOf x).toNat = n := by omega
  rwa [hminute] at hdue

/-- **The next entry is found**: it is the first of the least ahead. -/
theorem firstLeast_of_isLeast (h : IsLeast {n | m < n ∧ Scheduled config n} n)
    (hsame : n / week = m / week) (hnear : n < m + 10000) (hno : ¬ Intrudes config m n)
    {before after : List (ℤ × Entry)} {x : ℤ × Entry}
    (hscan : scan config (stamp m) = before ++ x :: after) (hx : IsDue n x)
    (hfirst : ∀ y ∈ before, ¬ IsDue n y) :
    FirstLeast (Ahead (m % week : ℕ)) minuteOf (scan config (stamp m)) x := by
  have hminute := minuteOf_of_isDue hx
  have hm := Nat.div_add_mod' m week
  have hn := Nat.div_add_mod' n week
  have hlt := h.1.1
  rw [hsame] at hn
  have hmem : ∀ y, y ∈ before ∨ y ∈ after → y ∈ scan config (stamp m) := by
    intro y hy
    rw [hscan, List.mem_append, List.mem_cons]
    exact hy.imp_right .inr
  refine ⟨before, after, hscan, ⟨by omega, by omega⟩, fun y hy hahead => ?_, fun y hy hahead => ?_⟩
  · rw [hminute]
    by_cases htime : TimeOfDay y.2
    · obtain ⟨hle, heq⟩ := le_minuteOf h hsame (hmem y (.inl hy)) htime hahead.1
      exact lt_of_le_of_ne hle fun hsame => hfirst y hy (heq hsame.symm)
    · obtain ⟨front, back, rfl⟩ := List.append_of_mem hy
      by_contra hge
      refine hno ⟨front, y, back ++ x :: after, by simp [hscan], htime, hahead.1, ?_⟩
      refine (lt_or_eq_of_le (not_lt.mp hge)).imp_right fun heq => ⟨heq, fun z hz => ?_⟩
      exact hfirst z (List.mem_append_left _ hz)
  · rw [hminute]
    by_cases htime : TimeOfDay y.2
    · exact (le_minuteOf h hsame (hmem y (.inr hy)) htime hahead.1).1
    · obtain ⟨front, back, rfl⟩ := List.append_of_mem hy
      by_contra hlt'
      exact hno ⟨before ++ x :: front, y, back, by simp [hscan], htime, hahead.1,
        .inl (not_le.mp hlt')⟩

/-- Where the search finds an entry for a minute, nothing gets in the way. -/
theorem not_intrudes_of_firstLeast {x : ℤ × Entry} (hx : IsDue n x)
    (h : FirstLeast (Ahead (m % week : ℕ)) minuteOf (scan config (stamp m)) x) :
    ¬ Intrudes config m n := by
  rintro ⟨before, y, after, hscan, htime, hahead, hintrudes⟩
  obtain ⟨before', after', hscan', hA, hbefore', hafter'⟩ := h
  have hminute := minuteOf_of_isDue hx
  have hle : minuteOf y ≤ minuteOf x := hminute ▸ hintrudes.elim le_of_lt fun heq => heq.1.le
  have hAy : Ahead (m % week : ℕ) y := ⟨hahead, hle.trans_lt hA.2⟩
  rcases split_cases (hscan'.symm.trans hscan) with ⟨-, rfl⟩ | ⟨hbehind, hfront⟩ | ⟨hfront, -⟩
  · exact htime (timeOfDay_of_isDue hx)
  · rcases hintrudes with hlt | ⟨-, hnone⟩
    · exact absurd (hafter' y hbehind hAy) (not_le.mpr (hminute ▸ hlt))
    · exact hnone x hfront hx
  · exact absurd (hbefore' y hfront hAy) (not_lt.mpr hle)

end Least

/-- **When the next event is shown**: exactly if it is in the same week, from Sunday on, by less
than 10000 minutes, and no entry that is for no time of the day gets in the way. -/
theorem showsNext_iff (config : Instances) (m : ℕ) : ShowsNext config m ↔
    ∃ n, IsLeast {n | m < n ∧ Scheduled config n} n ∧ n / week = m / week ∧ n < m + 10000 ∧
      ¬ Intrudes config m n := by
  constructor
  · rintro ⟨n, e, hleast, hat, hnext⟩
    rw [nextScheduled_eq_some_iff, totalMin_stamp] at hnext
    have hdue := isDue_of_listedAt hat
    have hminute := minuteOf_of_isDue hdue
    obtain ⟨-, -, -, hahead, -⟩ := id hnext
    rw [Ahead, hminute] at hahead
    have hsame := div_week_eq hleast (by omega)
    have hm := Nat.div_add_mod' m week
    have hn := Nat.div_add_mod' n week
    rw [hsame] at hn
    exact ⟨n, hleast, hsame, by omega, not_intrudes_of_firstLeast hdue hnext⟩
  · rintro ⟨n, hleast, hsame, hnear, hno⟩
    obtain ⟨e, hat⟩ : ∃ e, listedAt config (stamp n) = some e := by
      rw [← Option.ne_none_iff_exists']
      exact fun hnone => listedAt_eq_none_iff.mp hnone hleast.1.2
    have hfind := find_scan config (stamp m) n
    rw [hat, Option.map_some, List.find?_eq_some_iff_append] at hfind
    obtain ⟨hdue, before, after, hscan, hfirst⟩ := hfind
    refine ⟨n, e, hleast, hat, ?_⟩
    rw [nextScheduled_eq_some_iff, totalMin_stamp]
    exact firstLeast_of_isLeast hleast hsame hnear hno hscan (of_decide_eq_true hdue)
      fun y hy => by simpa using hfirst y hy

/-- The line for the next event is the last one that the command writes. -/
theorem scheduleList_of_showsNext {m : ℕ} (h : ShowsNext config m) : ∃ n e,
    IsLeast {n | m < n ∧ Scheduled config n} n ∧ listedAt config (stamp n) = some e ∧
      [[], nextLine (stamp n).wday e] <:+ scheduleList config (some (stamp m)) := by
  obtain ⟨n, e, hleast, hat, hnext⟩ := h
  refine ⟨n, e, hleast, hat, ?_⟩
  have hschedule : config (configKey (dayName (n / 1440 % 7 : ℕ))) ≠ [] := by
    intro hnone
    have hmem : e ∈ listedOn config (stamp n).wday := List.mem_of_find?_eq_some hat
    rw [listedOn, stamp] at hmem
    dsimp only at hmem
    rw [if_pos hnone] at hmem
    exact absurd hmem List.not_mem_nil
  have hlines : dayLines config ≠ [] := by
    have hday : n / 1440 % 7 ∈ List.range 7 := List.mem_range.mpr (Nat.mod_lt _ (by decide))
    rw [dayLines]
    exact List.ne_nil_of_mem (List.mem_filterMap.mpr ⟨n / 1440 % 7, hday, if_neg hschedule⟩)
  rw [scheduleList, if_neg hlines, if_neg hlines, hnext]
  exact List.suffix_append _ _

/-- On Saturday noon, where there is only an entry on Sunday at seven. -/
theorem not_showsNext : ∃ config : Instances, Scheduled config 420 ∧
    nextScheduled config (stamp (6 * 1440 + 720)) = none ∧
      ¬ ShowsNext config (6 * 1440 + 720) := by
  have hnone : nextScheduled (Instances.set (fun _ => []) (configKey (ascii "sun"))
      (ascii "07:00")) (stamp (6 * 1440 + 720)) = none := by decide +kernel
  refine ⟨_, by decide +kernel, hnone, ?_⟩
  rintro ⟨n, e, -, -, hnext⟩
  rw [hnone] at hnext
  cases hnext

end Ovms.Schedule
