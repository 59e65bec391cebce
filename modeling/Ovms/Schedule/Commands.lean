import Ovms.Schedule.Model

/-!
# The Schedule Commands

The shell commands that set the schedule of a day, and copy it to others
(`components/vehicle/vehicle_shell.cpp`). The times are checked and written in one format; the
scheduler should read what was given, for the day that was given.

The name of the day is checked whatever the case of its letters, but it is used as it was typed to
store the schedule, and to look up the schedule that is to be copied. The scheduler looks for
lower case letters only.
-/

namespace Ovms.Schedule

open Config (Text index)

/-! ### Setting a schedule -/

/-- The name of a day, in letters of any case. -/
def isDay (day : Text) : Bool := days.any (strcasecmp day)

/-- An entry in the format that is stored, in 16 bytes with the terminator. -/
def normalizedEntry (hour min : ℤ) (duration : Option ℤ) : Text :=
  (digits 2 hour ++ 0x3A :: digits 2 min ++
    match duration with
    | some duration => 0x2F :: digits 1 duration
    | none => []).take 15

/-- An entry is checked, and written in the format that is stored. -/
def normalize (entry : Text) : Except Text Text :=
  match readTime (timePart entry) with
  | none =>
      .error (ascii "ERROR: Invalid time format '" ++ entry ++ ascii "'. Use HH:MM or H:MM\n")
  | some (hour, min) =>
      if hour < 0 ∨ 23 < hour ∨ min < 0 ∨ 59 < min then
        .error (ascii "ERROR: Invalid time '" ++ timePart entry ++
          ascii "'. Hour must be 0-23, minute must be 0-59\n")
      else
        match durationPart entry with
        | none => .ok (normalizedEntry hour min none)
        | some text =>
            if atoi text < 5 ∨ 30 < atoi text then
              .error (ascii "ERROR: Invalid duration '" ++ text ++ ascii "'. Use 5 to 30 minutes\n")
            else .ok (normalizedEntry hour min (some (atoi text)))

/-- `vehicle_climate_schedule_set`; `vehicle` tells whether there is a vehicle module. -/
def setSchedule (vehicle : Bool) (day times : Text) (config : Instances) : Except Text Instances :=
  if ¬ vehicle then .error (ascii "Error: No vehicle module loaded")
  else if ¬ isDay day then
    .error (ascii "ERROR: Invalid day. Use: mon, tue, wed, thu, fri, sat, sun")
  else do
    let entries ← (times.splitOn 0x2C).mapM normalize
    pure (config.set (configKey day) ([0x2C].intercalate entries))

/-! ### Copying a schedule -/

/-- The number of a day in a list from Monday on. The loop goes on behind a day that it has found,
but no other is the same. -/
def dayIndex (day : Text) : Option ℕ := days.findIdx? (strcasecmp day)

/-- The range of days around the first dash, if there is something on both sides of it. -/
def range (targets : Text) : Option (Text × Text) :=
  match index 0x2D targets with
  | some (first, last) => if first ≠ [] ∧ last ≠ [] then some (first, last) else none
  | none => none

/-- The days from one to another, over the end of the week if need be. -/
def daysFrom (first last : ℕ) : List Text :=
  if first ≤ last then (days.drop first).take (last + 1 - first)
  else days.drop first ++ days.take (last + 1)

/-- Blanks and tabs around a text are left out, but not if there is nothing else. -/
def trim (text : Text) : Text :=
  let blank : UInt8 → Bool := fun c => c == 0x20 || c == 0x09
  let front := text.dropWhile blank
  if front = [] then text else (front.reverse.dropWhile blank).reverse

/-- One day of a list. -/
def target (day : Text) : Except Text Text :=
  match dayIndex (trim day) with
  | some i => .ok (days.getD i [])
  | none => .error (ascii "ERROR: Invalid target day '" ++ trim day ++ ascii "'\n")

/-- The days that a target specification names. -/
def targetDays (targets : Text) : Except Text (List Text) :=
  match range targets with
  | some (first, last) =>
      match dayIndex first, dayIndex last with
      | some i, some j => .ok (daysFrom i j)
      | _, _ => .error (ascii "ERROR: Invalid day range '" ++ targets ++ ascii "'\n")
  | none => (targets.splitOn 0x2C).mapM target

/-- `vehicle_climate_schedule_copy`. -/
def copySchedule (source targets : Text) (config : Instances) : Except Text Instances :=
  if ¬ isDay source then
    .error (ascii "ERROR: Invalid source day. Use: mon, tue, wed, thu, fri, sat, sun")
  else
    let schedule := config (configKey source)
    if schedule = [] then
      .error (ascii "ERROR: No schedule configured for " ++ source ++ ascii "\n")
    else do
      let targets ← targetDays targets
      if targets = [] then .error (ascii "ERROR: No valid target days specified")
      else
        pure ((targets.filter fun day => !strcasecmp day source).foldl
          (fun config day => config.set (configKey day) schedule) config)

/-! ### What should hold -/

/-- A command. -/
inductive Command where
  | set (vehicle : Bool) (day times : Text)
  | copy (source targets : Text)
  deriving DecidableEq, Repr

/-- A command is accepted, and changes the instances, or it answers an error. -/
def Command.run (config : Instances) : Command → Except Text Instances
  | .set vehicle day times => setSchedule vehicle day times config
  | .copy source targets => copySchedule source targets config

/-- The entry that a text gives: 5 minutes where no duration is given. -/
def givenEntry (entry : Text) : Option Entry :=
  (readTime (timePart entry)).map fun time =>
    ⟨time.1, time.2, (durationPart entry).elim 5 atoi⟩

/-- The entries that are given. -/
def givenEntries (times : Text) : List Entry := (times.splitOn 0x2C).filterMap givenEntry

/-- The name of a day in lower case. -/
def lower (day : Text) : Text := day.map tolower

/-- The scheduler reads for the day that was set the entries given; and for every day that was
copied to, the entries of the day copied from. -/
def Agrees (config config' : Instances) : Command → Prop
  | .set _ day times => entriesOf config' (lower day) = givenEntries times
  | .copy source targets => ∀ ts, targetDays targets = .ok ts →
      ∀ day ∈ ts, entriesOf config' day = entriesOf config (lower source)

/-- The day was typed in lower case, or it makes no difference: the scheduler read the same entries
before; or it reads the same from the schedule that was looked up, or no other day is copied to. -/
def Typed (config : Instances) : Command → Prop
  | .set _ day times => day ∈ days ∨ entriesOf config (lower day) = givenEntries times
  | .copy source targets => source ∈ days ∨
      readEntries (config (configKey source)) = entriesOf config (lower source) ∨
      ∀ ts, targetDays targets = .ok ts → ∀ day ∈ ts, day = lower source

/-! ### The format that is stored -/

theorem index_eq_none {c : UInt8} {text : Text} (h : c ∉ text) : index c text = none := by
  induction text with
  | nil => rfl
  | cons d text ih =>
      rw [List.mem_cons, not_or] at h
      rw [index, if_neg (Ne.symm h.1), ih h.2]
      rfl

theorem atoi_digits {n : ℤ} (hpos : 0 ≤ n) (hle : n ≤ 59) (width : ℕ) :
    atoi (digits width n) = n := by
  rw [atoi, digits, Canlog.strtol_print_self false (by decide) (by decide) width (by omega)]
  exact Int.toNat_of_nonneg hpos

theorem notMem_digits {c : UInt8} (hc : Canlog.isDigitOf 10 c = false) (width : ℕ) (n : ℤ) :
    c ∉ digits width n := by
  intro hmem
  have hdigit := Canlog.isDigitOf_of_mem_print (by decide) (by decide) hmem
  exact Bool.false_ne_true (hc.symm.trans hdigit)

theorem digits_ne_nil (width : ℕ) (n : ℤ) : digits width n ≠ [] :=
  Canlog.print_ne_nil false 10 width n.toNat

theorem length_digits {n : ℤ} (hle : n ≤ 59) : (digits 2 n).length = 2 :=
  Canlog.length_print false (by decide) (by decide)
    (show n.toNat < 10 ^ 2 by rw [Int.toNat_lt' (by decide)]; omega)

/-- The duration behind the time. -/
def durationText : Option ℤ → Text
  | some duration => 0x2F :: digits 1 duration
  | none => []

/-- The time of an entry is written whole. -/
theorem normalizedEntry_eq {hour min : ℤ} (hhour : hour ≤ 23) (hmin : min ≤ 59)
    {duration : Option ℤ} (hduration : ∀ d ∈ duration, 5 ≤ d ∧ d ≤ 30) :
    normalizedEntry hour min duration =
      digits 2 hour ++ 0x3A :: digits 2 min ++ durationText duration := by
  have htext : (durationText duration).length ≤ 3 := by
    cases duration with
    | none => exact Nat.zero_le 3
    | some d =>
        have hd := hduration d rfl
        have hlength : (digits 1 d).length ≤ 2 := by
          rw [digits, Canlog.print, List.length_map, Lib.length_numeral_eq_max]
          have hdigits : (Nat.digits 10 d.toNat).length ≤ 2 :=
            Nat.digits_length_le_iff (by decide) d.toNat |>.mpr (by omega)
          omega
        exact Nat.succ_le_succ hlength
  refine List.take_of_length_le ?_
  simp only [List.length_append, List.length_cons, length_digits (hhour.trans (by decide)),
    length_digits hmin]
  change _ + (durationText duration).length ≤ 15
  omega

/-- **The format that is stored** is read as it was written. -/
theorem readEntry_normalizedEntry {hour min : ℤ} (hhour : 0 ≤ hour ∧ hour ≤ 23)
    (hmin : 0 ≤ min ∧ min ≤ 59) {duration : Option ℤ}
    (hduration : ∀ d ∈ duration, 5 ≤ d ∧ d ≤ 30) :
    readEntry (normalizedEntry hour min duration) = some ⟨hour, min, duration.getD 5⟩ := by
  have hslash : (0x2F : UInt8) ∉ digits 2 hour ++ 0x3A :: digits 2 min := by
    rw [List.mem_append, List.mem_cons, not_or, not_or]
    exact ⟨notMem_digits (by decide) 2 hour, by decide, notMem_digits (by decide) 2 min⟩
  have htime : readTime (digits 2 hour ++ 0x3A :: digits 2 min) = some (hour, min) := by
    rw [readTime, Config.index_append (notMem_digits (by decide) 2 hour)]
    dsimp only
    rw [if_pos (digits_ne_nil 2 hour), atoi_digits hhour.1 (hhour.2.trans (by decide)),
      atoi_digits hmin.1 hmin.2]
  rw [readEntry, timePart, durationPart, normalizedEntry_eq hhour.2 hmin.2 hduration]
  cases duration with
  | none =>
      rw [durationText, List.append_nil, index_eq_none hslash]
      dsimp only
      rw [htime]
      rfl
  | some d =>
      obtain ⟨hlow, hhigh⟩ := hduration d rfl
      rw [durationText, Config.index_append hslash]
      dsimp only
      rw [htime, Option.map_some, Option.map_some, readDuration,
        atoi_digits (by omega) (hhigh.trans (by decide)), if_neg (by omega)]
      rfl

/-- It has no comma in it. -/
theorem comma_notMem_normalizedEntry (hour min : ℤ) (duration : Option ℤ) :
    (0x2C : UInt8) ∉ normalizedEntry hour min duration := by
  intro hmem
  have hmem := List.mem_of_mem_take hmem
  rw [List.mem_append, List.mem_append, List.mem_cons] at hmem
  rcases hmem with (hmem | hmem | hmem) | hmem
  · exact notMem_digits (by decide) 2 hour hmem
  · exact absurd hmem (by decide)
  · exact notMem_digits (by decide) 2 min hmem
  · cases duration with
    | none => exact absurd hmem List.not_mem_nil
    | some d =>
        rcases List.mem_cons.mp hmem with hmem | hmem
        · exact absurd hmem (by decide)
        · exact notMem_digits (by decide) 1 d hmem

/-- **An entry** that is accepted is stored so that the scheduler reads what was given. -/
theorem readEntry_of_normalize {entry text : Text} (h : normalize entry = .ok text) :
    ∃ e, givenEntry entry = some e ∧ readEntry text = some e ∧ (0x2C : UInt8) ∉ text := by
  rw [normalize] at h
  rw [givenEntry]
  cases htime : readTime (timePart entry) with
  | none =>
      rw [htime] at h
      exact absurd h (by simp)
  | some time =>
      obtain ⟨hour, min⟩ := time
      rw [htime] at h
      dsimp only at h
      split at h
      · exact absurd h (by simp)
      next hrange =>
      have hhour : 0 ≤ hour ∧ hour ≤ 23 := by omega
      have hmin : 0 ≤ min ∧ min ≤ 59 := by omega
      cases hduration : durationPart entry with
      | none =>
          rw [hduration] at h
          obtain rfl := Except.ok.inj h
          exact ⟨_, rfl, readEntry_normalizedEntry hhour hmin (fun _ hd => by cases hd),
            comma_notMem_normalizedEntry _ _ _⟩
      | some d =>
          rw [hduration] at h
          dsimp only at h
          split at h
          · exact absurd h (by simp)
          next hd =>
          obtain rfl := Except.ok.inj h
          refine ⟨_, rfl, readEntry_normalizedEntry hhour hmin (fun d' hd' => ?_),
            comma_notMem_normalizedEntry _ _ _⟩
          obtain rfl := Option.some.inj hd'
          omega

/-! ### The command that sets -/

/-- What is accepted entry by entry. -/
theorem forall₂_of_mapM {α β : Type} {f : α → Except Text β} {as : List α} {bs : List β}
    (h : as.mapM f = .ok bs) : List.Forall₂ (fun a b => f a = .ok b) as bs := by
  induction as generalizing bs with
  | nil =>
      rw [List.mapM_nil] at h
      obtain rfl := Except.ok.inj h
      exact .nil
  | cons a as ih =>
      rw [List.mapM_cons] at h
      cases ha : f a with
      | error text =>
          rw [ha] at h
          exact absurd h (by simp [bind, Except.bind])
      | ok b =>
          rw [ha] at h
          cases has : as.mapM f with
          | error text =>
              rw [has] at h
              exact absurd h (by simp [bind, Except.bind])
          | ok bs' =>
              rw [has] at h
              obtain rfl := Except.ok.inj h
              exact .cons ha (ih has)

theorem readEntries_eq (schedule : Text) :
    readEntries schedule = (schedule.splitOn 0x2C).filterMap readEntry := by
  rw [readEntries]
  split
  · next h => rw [h]; rfl
  · rfl

/-- **The text that is stored** is read as the entries given. -/
theorem readEntries_set {times : Text} {entries : List Text}
    (h : (times.splitOn 0x2C).mapM normalize = .ok entries) :
    readEntries ([0x2C].intercalate entries) = givenEntries times := by
  have hentries : ∀ {given stored : List Text},
      List.Forall₂ (fun entry text => normalize entry = .ok text) given stored →
      (∀ text ∈ stored, (0x2C : UInt8) ∉ text) ∧
        stored.filterMap readEntry = given.filterMap givenEntry := by
    intro given stored hall
    induction hall with
    | nil => exact ⟨fun _ h => absurd h List.not_mem_nil, rfl⟩
    | cons hentry _ ih =>
        obtain ⟨e, hgiven, hread, hcomma⟩ := readEntry_of_normalize hentry
        refine ⟨fun text htext => ?_, ?_⟩
        · rcases List.mem_cons.mp htext with rfl | htext
          · exact hcomma
          · exact ih.1 text htext
        · rw [List.filterMap_cons_some hread, List.filterMap_cons_some hgiven, ih.2]
  have hall := forall₂_of_mapM h
  have hne : entries ≠ [] := by
    rintro rfl
    exact List.splitOn_ne_nil _ _ (List.forall₂_nil_right_iff.mp hall)
  rw [readEntries_eq, List.splitOn_intercalate _ (hentries hall).1 hne, (hentries hall).2]
  rfl

theorem lower_mem_days {day : Text} (h : isDay day = true) : lower day ∈ days := by
  obtain ⟨d, hd, hcase⟩ := List.any_eq_true.mp h
  have hlow : ∀ d ∈ days, d.map tolower = d := by decide
  rw [strcasecmp, beq_iff_eq, hlow d hd] at hcase
  rw [lower, hcase]
  exact hd

theorem lower_eq_iff {day : Text} (h : isDay day = true) : lower day = day ↔ day ∈ days := by
  refine ⟨fun heq => heq ▸ lower_mem_days h, fun hd => ?_⟩
  have hlow : ∀ d ∈ days, lower d = d := by decide
  exact hlow day hd

/-- What a day has behind a change of one instance. -/
theorem entriesOf_set (config : Instances) (day other schedule : Text) :
    entriesOf (config.set (configKey other) schedule) day =
      if day = other then readEntries schedule else entriesOf config day := by
  rw [entriesOf, Instances.set]
  have hkey : configKey day = configKey other ↔ day = other :=
    ⟨List.append_cancel_left, congrArg _⟩
  by_cases h : day = other
  · rw [if_pos (hkey.mpr h), if_pos h]
  · rw [if_neg (fun heq => h (hkey.mp heq)), if_neg h]
    rfl

/-- **Setting a schedule**: the scheduler agrees when the day was typed in lower case. -/
theorem set_agrees_iff {vehicle : Bool} {day times : Text} {config config' : Instances}
    (h : setSchedule vehicle day times config = .ok config') :
    Agrees config config' (.set vehicle day times) ↔
      Typed config (.set vehicle day times) := by
  rw [setSchedule] at h
  split at h
  · exact absurd h (by simp)
  split at h
  · exact absurd h (by simp)
  next hday =>
  have hday : isDay day = true := not_not.mp hday
  cases hentries : (times.splitOn 0x2C).mapM normalize with
  | error text =>
      rw [hentries] at h
      exact absurd h (by simp [bind, Except.bind])
  | ok entries =>
      rw [hentries] at h
      obtain rfl := Except.ok.inj h
      rw [Agrees, Typed, entriesOf_set, ← lower_eq_iff hday]
      by_cases hlower : lower day = day
      · rw [if_pos hlower]
        exact iff_of_true (readEntries_set hentries) (.inl hlower)
      · rw [if_neg hlower, or_iff_right hlower]

/-! ### The command that copies -/

theorem getD_dayIndex {day : Text} {i : ℕ} (h : dayIndex day = some i) : days.getD i [] ∈ days := by
  obtain ⟨hi, -⟩ := List.findIdx?_eq_some_iff_getElem.mp h
  rw [List.getD_eq_getElem?_getD, List.getElem?_eq_getElem hi, Option.getD_some]
  exact List.getElem_mem hi

/-- The days that a specification names are among the days. -/
theorem mem_days_of_targetDays {targets : Text} {ts : List Text} (h : targetDays targets = .ok ts) :
    ∀ day ∈ ts, day ∈ days := by
  rw [targetDays] at h
  split at h
  · split at h
    · obtain rfl := Except.ok.inj h
      intro day hday
      rw [daysFrom] at hday
      split at hday
      · exact List.mem_of_mem_drop (List.mem_of_mem_take hday)
      · rcases List.mem_append.mp hday with hday | hday
        · exact List.mem_of_mem_drop hday
        · exact List.mem_of_mem_take hday
    · exact absurd h (by simp)
  · intro day hday
    have hall := forall₂_of_mapM h
    clear h
    generalize targets.splitOn 0x2C = pieces at hall
    induction hall with
    | nil => exact absurd hday List.not_mem_nil
    | cons htarget _ ih =>
        rcases List.mem_cons.mp hday with rfl | hday
        · rw [target] at htarget
          split at htarget
          · next i hi =>
            obtain rfl := Except.ok.inj htarget
            exact getD_dayIndex hi
          · exact absurd htarget (by simp)
        · exact ih hday

/-- A schedule is stored for some days. -/
theorem entriesOf_foldl_set (ts : List Text) (config : Instances) (schedule day : Text) :
    entriesOf (ts.foldl (fun config day => config.set (configKey day) schedule) config) day =
      if day ∈ ts then readEntries schedule else entriesOf config day := by
  induction ts generalizing config with
  | nil => rw [List.foldl_nil, if_neg List.not_mem_nil]
  | cons t ts ih =>
      rw [List.foldl_cons, ih, entriesOf_set]
      by_cases hmem : day ∈ ts
      · rw [if_pos hmem, if_pos (List.mem_cons_of_mem t hmem)]
      · rw [if_neg hmem]
        by_cases heq : day = t
        · rw [if_pos heq, if_pos (List.mem_cons.mpr (.inl heq))]
        · rw [if_neg heq, if_neg (List.not_mem_cons_of_ne_of_not_mem heq hmem)]

theorem strcasecmp_iff {day source : Text} (hday : day ∈ days) :
    strcasecmp day source = true ↔ day = lower source := by
  have hlow : ∀ d ∈ days, d.map tolower = d := by decide
  rw [strcasecmp, beq_iff_eq, hlow day hday]
  exact Iff.rfl

/-- **Copying a schedule**: the scheduler agrees when the day that is copied from was typed in lower
case, or it makes no difference. -/
theorem copy_agrees_iff {source targets : Text} {config config' : Instances}
    (h : copySchedule source targets config = .ok config') :
    Agrees config config' (.copy source targets) ↔ Typed config (.copy source targets) := by
  rw [copySchedule] at h
  split at h
  · exact absurd h (by simp)
  next hsource =>
  have hsource : isDay source = true := not_not.mp hsource
  dsimp only at h
  split at h
  · exact absurd h (by simp)
  cases htargets : targetDays targets with
  | error text =>
      rw [htargets] at h
      exact absurd h (by simp [bind, Except.bind])
  | ok ts =>
      rw [htargets] at h
      simp only [bind, Except.bind] at h
      split at h
      · exact absurd h (by simp)
      obtain rfl := Except.ok.inj h
      have hdays := mem_days_of_targetDays htargets
      have hfilter : ∀ day ∈ ts, (day ∈ ts.filter fun day => !strcasecmp day source) ↔
          day ≠ lower source := by
        intro day hday
        rw [List.mem_filter, and_iff_right hday, Bool.not_eq_true', Bool.eq_false_iff, Ne,
          strcasecmp_iff (hdays day hday)]
      -- each day has the schedule that was looked up, or is the day copied from
      have hagrees : Agrees config ((ts.filter fun day => !strcasecmp day source).foldl
          (fun config' day => config'.set (configKey day) (config (configKey source))) config)
            (.copy source targets) ↔
          readEntries (config (configKey source)) = entriesOf config (lower source) ∨
            ∀ day ∈ ts, day = lower source := by
        constructor
        · intro hagrees
          refine or_iff_not_imp_right.mpr fun hother => ?_
          obtain ⟨day, hday, hne⟩ : ∃ day ∈ ts, day ≠ lower source := by
            by_contra hnone
            exact hother fun day hday => not_not.mp fun hne => hnone ⟨day, hday, hne⟩
          rw [← hagrees ts htargets day hday, entriesOf_foldl_set,
            if_pos ((hfilter day hday).mpr hne)]
        · intro heq ts' hts' day hday
          obtain rfl := Except.ok.inj (htargets.symm.trans hts')
          rw [entriesOf_foldl_set]
          by_cases hsame : day = lower source
          · rw [if_neg (fun hmem => (hfilter day hday).mp hmem hsame), hsame]
          · rw [if_pos ((hfilter day hday).mpr hsame)]
            exact heq.resolve_right fun hall => hsame (hall day hday)
      have hts : (∀ ts', targetDays targets = .ok ts' → ∀ day ∈ ts', day = lower source) ↔
          ∀ day ∈ ts, day = lower source :=
        ⟨fun hall => hall ts htargets, fun hall ts' hts' =>
          Except.ok.inj (htargets.symm.trans hts') ▸ hall⟩
      rw [hagrees, Typed, hts]
      refine (or_iff_right_of_imp fun hlow => .inl ?_).symm
      rw [← lower_eq_iff hsource] at hlow
      rw [entriesOf, hlow]

/-! ### Both commands -/

/-- **The commands and the scheduler** agree exactly when the day was typed in lower case, or it
makes no difference. -/
theorem agrees_iff {config config' : Instances} {c : Command} (h : c.run config = .ok config') :
    Agrees config config' c ↔ Typed config c := by
  cases c with
  | set vehicle day times => exact set_agrees_iff h
  | copy source targets => exact copy_agrees_iff h

/-- No schedules. -/
def unset : Instances := fun _ => []

/-- Days and times as they may be typed. -/
theorem agrees_set : Agrees unset
    (unset.set (configKey (ascii "mon")) (ascii "07:30,17:00/20"))
    (.set true (ascii "mon") (ascii "7:30,17:00/20")) :=
  (agrees_iff (c := .set true (ascii "mon") (ascii "7:30,17:00/20")) rfl).mpr (.inl (by decide))

/-- A day in capital letters. -/
theorem not_agrees : ¬ ∀ (config config' : Instances) (c : Command),
    c.run config = .ok config' → Agrees config config' c := by
  intro h
  have hagrees := h unset (unset.set (configKey (ascii "MON")) (ascii "07:30"))
    (.set true (ascii "MON") (ascii "7:30")) rfl
  exact absurd hagrees (show ¬ entriesOf _ _ = givenEntries _ by decide)

end Ovms.Schedule
