import Ovms.Bms.Model

/-!
# The Report of the Alerts

`FormatBmsAlerts` (`components/vehicle/vehicle_bms.cpp`): the cells whose voltage deviates too far
are listed, then those whose temperature does. A short report lists no more than five of each.

Both loops count up to the number of voltages.
-/

namespace Ovms.Bms

/-! ### What is read and written -/

/-- The metrics that are read: `ms_v_bat_pack_vstddev_max`, `ms_v_bat_cell_valert`,
`ms_v_bat_cell_vdevmax`, and the same for temperatures. -/
structure BmsMetrics (F : Type) where
  packVstddevMax : F
  cellValert : List OvmsStatus
  cellVdevmax : List F
  packTstddevMax : F
  cellTalert : List OvmsStatus
  cellTdevmax : List F

/-- `GetElemValue`: an element, or `val` behind the last one. -/
def getElemValue {α : Type} (value : List α) (val : α) (n : ℕ) : α := value.getD n val

namespace BmsMetrics

variable {F : Type} [Arith F] (metrics : BmsMetrics F)

def valert : ℕ → OvmsStatus := getElemValue metrics.cellValert .ok

def vdevmax : ℕ → F := getElemValue metrics.cellVdevmax ((0 : ℤ) : F)

def talert : ℕ → OvmsStatus := getElemValue metrics.cellTalert .ok

def tdevmax : ℕ → F := getElemValue metrics.cellTdevmax ((0 : ℤ) : F)

end BmsMetrics

/-- What is written for a cell, or for all that are left out. -/
inductive Item (F : Type)
  | cell (sts : OvmsStatus) (number : ℕ) (dev : F)
  | more

/-- What is written, from the first line to the last. -/
structure Report (F : Type) where
  vstddev : F
  voltages : List (Item F)
  voltagesOk : Bool
  tstddev : F
  temperatures : List (Item F)
  temperaturesOk : Bool
  details : Bool

/-- How numbers are written: `(int)(x * 1000)`; the user's unit of temperatures and its label;
`%.1f` and `%+3.1f`. -/
structure Formats (F : Type) where
  millivolts : F → ℤ
  userTemp : F → F
  tempUnit : String
  fixed : F → String
  signedFixed : F → String

/-- The least width of a number. -/
def padLeft (c : Char) (width : ℕ) (s : String) : String :=
  String.ofList (List.replicate (width - s.length) c) ++ s

/-- `%+d`. -/
def signedInt (z : ℤ) : String := if z < 0 then toString z else "+" ++ toString z

section Text

variable {F : Type} (f : Formats F)

/-- The text for a cell, where `dev` is that of its deviation. -/
def Item.text (dev : F → String) : Item F → String
  | .cell sts number value =>
      "\n " ++ (if sts = .warn then "?" else "!") ++ " #" ++ padLeft '0' 2 (toString number) ++
        ": " ++ dev value
  | .more => "\n [...]"

/-- The text for all cells. -/
def itemsText (dev : F → String) (items : List (Item F)) (ok : Bool) : String :=
  String.join (items.map (Item.text dev)) ++ (if ok then ", cells OK" else "") ++ "\n"

/-- The text. -/
def Report.text (r : Report F) : String :=
  "Battery cell deviation:\n" ++
    "Voltage: StdDev " ++ toString (f.millivolts r.vstddev) ++ "mV" ++
    itemsText (fun dev => padLeft ' ' 4 (signedInt (f.millivolts dev)) ++ "mV") r.voltages
      r.voltagesOk ++
    "Temperature: StdDev " ++ f.fixed (f.userTemp r.tstddev) ++ f.tempUnit ++
    itemsText (fun dev => f.signedFixed (f.userTemp dev) ++ f.tempUnit) r.temperatures
      r.temperaturesOk ++
    if r.details then "Details: bms status\n" else ""

end Text

/-! ### The loops -/

/-- `COMMAND_RESULT_SMS`. -/
def commandResultSms : ℕ := 160

/-- The report is verbose. -/
def isVerbose (verbosity : ℕ) : Bool := commandResultSms < verbosity

section Format

variable {F : Type}

/-- The loop over the cells of a family that are left, with the number of those found so far. -/
def listAlerts (verbose showWarnings : Bool) (status : ℕ → OvmsStatus) (dev : ℕ → F) :
    List ℕ → ℕ → List (Item F) × ℕ
  | [], count => ([], count)
  | i :: cells, count =>
      if status i = .ok ∨ status i = .warn ∧ showWarnings = false then
        listAlerts verbose showWarnings status dev cells count
      else if verbose = true ∨ count + 1 ≤ 5 then
        let rest := listAlerts verbose showWarnings status dev cells (count + 1)
        (.cell (status i) (i + 1) (dev i) :: rest.1, rest.2)
      else ([.more], count + 1)

/-- `FormatBmsAlerts`. The cells with a temperature are counted as those with a voltage. -/
def formatBmsAlerts [Arith F] (m : OvmsVehicle F) (metrics : BmsMetrics F) (verbosity : ℕ)
    (showWarnings : Bool) : Report F × Bool :=
  let verbose := isVerbose verbosity
  let valerts :=
    listAlerts verbose showWarnings metrics.valert metrics.vdevmax (List.range m.v.readings) 0
  let talerts :=
    listAlerts verbose showWarnings metrics.talert metrics.tdevmax (List.range m.v.readings) 0
  ({ vstddev := metrics.packVstddevMax
     voltages := valerts.1
     voltagesOk := valerts.2 = 0
     tstddev := metrics.packTstddevMax
     temperatures := talerts.1
     temperaturesOk := talerts.2 = 0
     details := verbose || decide (5 ≤ valerts.2) || decide (5 ≤ talerts.2) },
    decide (0 < valerts.2) || decide (0 < talerts.2))

/-! ### What should be listed -/

/-- A cell qualifies. -/
def Qualifies (showWarnings : Bool) (sts : OvmsStatus) : Prop :=
  sts = .alert ∨ showWarnings = true ∧ sts = .warn

instance (showWarnings : Bool) (sts : OvmsStatus) : Decidable (Qualifies showWarnings sts) :=
  inferInstanceAs (Decidable (_ ∨ _))

/-- The cells of a list that qualify, in order. -/
def qualified (showWarnings : Bool) (status : ℕ → OvmsStatus) (cells : List ℕ) : List ℕ :=
  cells.filter fun i => Qualifies showWarnings (status i)

/-- What is written for a cell. -/
def cellItem {F : Type} (status : ℕ → OvmsStatus) (dev : ℕ → F) (i : ℕ) : Item F :=
  .cell (status i) (i + 1) (dev i)

/-- What is written for some cells: a short report leaves out those behind the fifth. -/
def listing {α : Type} (verbose : Bool) (item : α → Item F) (cells : List α) : List (Item F) :=
  if verbose = true ∨ cells.length ≤ 5 then cells.map item else (cells.take 5).map item ++ [.more]

/-- All cells are listed that should be, and the answer is whether there are any. -/
structure RightReport [Arith F] (m : OvmsVehicle F) (metrics : BmsMetrics F)
    (verbose showWarnings : Bool) (r : Report F × Bool) : Prop where
  voltages : r.1.voltages = listing verbose (cellItem metrics.valert metrics.vdevmax)
    (qualified showWarnings metrics.valert (List.range m.v.readings))
  temperatures : r.1.temperatures = listing verbose (cellItem metrics.talert metrics.tdevmax)
    (qualified showWarnings metrics.talert (List.range m.t.readings))
  answer : r.2 = true ↔ (∃ i < m.v.readings, Qualifies showWarnings (metrics.valert i)) ∨
    ∃ i < m.t.readings, Qualifies showWarnings (metrics.talert i)

/-! ### What a loop lists -/

section Loop

variable {verbose showWarnings : Bool} {status : ℕ → OvmsStatus} {dev : ℕ → F}

theorem qualifies_iff (sts : OvmsStatus) : Qualifies showWarnings sts ↔
    ¬ (sts = .ok ∨ sts = .warn ∧ showWarnings = false) := by
  cases sts <;> cases showWarnings <;> simp [Qualifies]

/-- What the loop lists behind some cells, no more than five in a short report. -/
theorem listAlerts_eq (cells : List ℕ) {count : ℕ} (hcount : verbose = true ∨ count ≤ 5) :
    listAlerts verbose showWarnings status dev cells count =
      if verbose = true ∨ count + (qualified showWarnings status cells).length ≤ 5 then
        ((qualified showWarnings status cells).map (cellItem status dev),
          count + (qualified showWarnings status cells).length)
      else (((qualified showWarnings status cells).take (5 - count)).map (cellItem status dev) ++
        [.more], 6) := by
  induction cells generalizing count with
  | nil => exact (if_pos hcount).symm
  | cons i cells ih =>
      rw [listAlerts]
      by_cases hq : Qualifies showWarnings (status i)
      · have hfound : qualified showWarnings status (i :: cells) =
            i :: qualified showWarnings status cells :=
          List.filter_cons_of_pos (decide_eq_true hq)
        rw [if_neg ((qualifies_iff _).mp hq), hfound, List.length_cons]
        by_cases hroom : verbose = true ∨ count + 1 ≤ 5
        · have hsum : count + 1 + (qualified showWarnings status cells).length =
              count + ((qualified showWarnings status cells).length + 1) := by omega
          rw [if_pos hroom, ih hroom, hsum]
          split
          · rfl
          · next hmany =>
            have hle : count + 1 ≤ 5 := hroom.resolve_left (not_or.mp hmany).1
            have htake : 5 - count = 5 - (count + 1) + 1 := by omega
            rw [htake, List.take_succ_cons]
            rfl
        · -- the sixth cell
          obtain ⟨hshort, hgt⟩ := not_or.mp hroom
          have hle : count ≤ 5 := hcount.resolve_left hshort
          have hfive : count = 5 := by omega
          rw [if_neg hroom, if_neg (not_or.mpr ⟨hshort, by omega⟩), hfive]
          rfl
      · have hfound : qualified showWarnings status (i :: cells) =
            qualified showWarnings status cells :=
          List.filter_cons_of_neg (by simpa using hq)
        rw [if_pos (not_not.mp (mt (qualifies_iff _).mpr hq)), hfound, ih hcount]

/-- **What a loop lists**: the cells that qualify, and how many there are, up to six. -/
theorem listAlerts_zero (verbose showWarnings : Bool) (status : ℕ → OvmsStatus) (dev : ℕ → F)
    (cells : List ℕ) :
    (listAlerts verbose showWarnings status dev cells 0).1 =
        listing verbose (cellItem status dev) (qualified showWarnings status cells) ∧
      (0 < (listAlerts verbose showWarnings status dev cells 0).2 ↔
        ∃ i ∈ cells, Qualifies showWarnings (status i)) := by
  have hfound : (∃ i ∈ cells, Qualifies showWarnings (status i)) ↔
      0 < (qualified showWarnings status cells).length := by
    rw [List.length_pos_iff_exists_mem]
    refine exists_congr fun i => ?_
    rw [qualified, List.mem_filter, decide_eq_true_iff]
  rw [listAlerts_eq cells (.inr (Nat.zero_le 5)), listing, hfound, Nat.zero_add]
  split
  · exact ⟨rfl, Iff.rfl⟩
  · next hmany =>
    have hmany' := (not_or.mp hmany).2
    exact ⟨rfl, iff_of_true (Nat.succ_pos 5) (by omega)⟩

end Loop

/-! ### When it is complete -/

section Listing

variable {α : Type} {verbose : Bool} {item : α → Item F}

theorem length_listing (cells : List α) : (listing verbose item cells).length =
    if verbose = true ∨ cells.length ≤ 5 then cells.length else 6 := by
  rw [listing]
  split
  · rw [List.length_map]
  · next hmany =>
    have hmany' := (not_or.mp hmany).2
    rw [List.length_append, List.length_map, List.length_take, List.length_singleton]
    omega

/-- More cells are listed as fewer are only if there are more than five anyway. -/
theorem listing_append_eq_iff (cells more : List α) :
    listing verbose item (cells ++ more) = listing verbose item cells ↔
      more = [] ∨ verbose = false ∧ 5 < cells.length := by
  constructor
  · intro heq
    have hlength := congrArg List.length heq
    rw [length_listing, length_listing, List.length_append] at hlength
    rw [← List.length_eq_zero_iff]
    cases verbose with
    | true => exact .inl (by simpa using hlength)
    | false =>
        by_cases hmany : 5 < cells.length
        · exact .inr ⟨rfl, hmany⟩
        · left
          simp only [Bool.false_eq_true, false_or] at hlength
          split at hlength <;> split at hlength <;> omega
  · rintro (rfl | ⟨rfl, hmany⟩)
    · rw [List.append_nil]
    · have hlength : (cells ++ more).length = cells.length + more.length := List.length_append
      rw [listing, listing, if_neg (by simp; omega), if_neg (by simp; omega),
        List.take_append_of_le_length (by omega)]

theorem listing_eq_nil_iff (cells : List α) : listing verbose item cells = [] ↔ cells = [] := by
  rw [← List.length_eq_zero_iff, ← List.length_eq_zero_iff, length_listing]
  split
  · exact Iff.rfl
  · next hmany =>
    have hmany' := (not_or.mp hmany).2
    exact iff_of_false (by omega) (by omega)

end Listing

section Cells

variable {verbose showWarnings : Bool} {status : ℕ → OvmsStatus} {item : ℕ → Item F} {n k : ℕ}

theorem qualified_eq_nil_iff (cells : List ℕ) :
    qualified showWarnings status cells = [] ↔
      ∀ i ∈ cells, ¬ Qualifies showWarnings (status i) := by
  simp [qualified, List.filter_eq_nil_iff]

theorem listing_ne_nil_iff (verbose showWarnings : Bool) (status : ℕ → OvmsStatus)
    (item : ℕ → Item F) (n : ℕ) :
    listing verbose item (qualified showWarnings status (List.range n)) ≠ [] ↔
      ∃ i < n, Qualifies showWarnings (status i) := by
  rw [Ne, listing_eq_nil_iff, qualified_eq_nil_iff]
  simp

theorem listing_range_eq_iff_of_le (h : n ≤ k) :
    listing verbose item (qualified showWarnings status (List.range k)) =
        listing verbose item (qualified showWarnings status (List.range n)) ↔
      (∀ i, n ≤ i → i < k → ¬ Qualifies showWarnings (status i)) ∨
        verbose = false ∧ 5 < (qualified showWarnings status (List.range n)).length := by
  obtain ⟨d, rfl⟩ := Nat.exists_eq_add_of_le h
  have hmore : qualified showWarnings status ((List.range d).map (n + ·)) = [] ↔
      ∀ i, n ≤ i → i < n + d → ¬ Qualifies showWarnings (status i) := by
    rw [qualified_eq_nil_iff, List.forall_mem_map]
    constructor
    · intro hnone i hle hlt
      have hi := hnone (i - n) (List.mem_range.mpr (by omega))
      rwa [Nat.add_sub_cancel' hle] at hi
    · exact fun hnone i hi => hnone (n + i) (Nat.le_add_right n i)
        (Nat.add_lt_add_left (List.mem_range.mp hi) n)
  rw [List.range_add, qualified, List.filter_append, ← qualified, ← qualified,
    listing_append_eq_iff, hmore]

/-- The same is listed for two numbers of cells. -/
theorem listing_range_eq_iff (verbose showWarnings : Bool) (status : ℕ → OvmsStatus)
    (item : ℕ → Item F) (n k : ℕ) :
    listing verbose item (qualified showWarnings status (List.range n)) =
        listing verbose item (qualified showWarnings status (List.range k)) ↔
      (∀ i, min n k ≤ i → i < max n k → ¬ Qualifies showWarnings (status i)) ∨
        verbose = false ∧ 5 < (qualified showWarnings status (List.range (min n k))).length := by
  rcases Nat.le_total n k with hle | hle
  · rw [Nat.min_eq_left hle, Nat.max_eq_right hle, eq_comm]
    exact listing_range_eq_iff_of_le hle
  · rw [Nat.min_eq_right hle, Nat.max_eq_left hle]
    exact listing_range_eq_iff_of_le hle

end Cells

/-- **When a report is right**: exactly if no cell that only one of the two numbers of cells counts
qualifies by its temperature, or the report is short and more than five others do. -/
theorem rightReport_iff [Arith F] (m : OvmsVehicle F) (metrics : BmsMetrics F) (verbosity : ℕ)
    (showWarnings : Bool) :
    RightReport m metrics (isVerbose verbosity) showWarnings
        (formatBmsAlerts m metrics verbosity showWarnings) ↔
      (∀ i, min m.v.readings m.t.readings ≤ i → i < max m.v.readings m.t.readings →
        ¬ Qualifies showWarnings (metrics.talert i)) ∨
      isVerbose verbosity = false ∧ 5 < (qualified showWarnings metrics.talert
        (List.range (min m.v.readings m.t.readings))).length := by
  obtain ⟨hv, hvany⟩ := listAlerts_zero (isVerbose verbosity) showWarnings metrics.valert
    metrics.vdevmax (List.range m.v.readings)
  obtain ⟨ht, htany⟩ := listAlerts_zero (isVerbose verbosity) showWarnings metrics.talert
    metrics.tdevmax (List.range m.v.readings)
  rw [← listing_range_eq_iff _ _ _ (cellItem metrics.talert metrics.tdevmax)]
  constructor
  · exact fun h => ht.symm.trans h.temperatures
  · intro heq
    refine ⟨hv, ht.trans heq, ?_⟩
    have hsame := listing_ne_nil_iff (isVerbose verbosity) showWarnings metrics.talert
      (cellItem metrics.talert metrics.tdevmax) m.v.readings
    rw [heq, listing_ne_nil_iff] at hsame
    simp only [List.mem_range] at hvany htany
    rw [hsame, ← hvany, ← htany, formatBmsAlerts, Bool.or_eq_true, decide_eq_true_iff,
      decide_eq_true_iff]

/-- A voltage, and two temperatures of which the second is an alert: it is not reported. -/
theorem not_rightReport : ∃ (m : OvmsVehicle ℚ) (metrics : BmsMetrics ℚ),
    m.v.readings = 1 ∧ m.t.readings = 2 ∧ metrics.talert 1 = .alert ∧
      (formatBmsAlerts m metrics 160 false).1.temperatures = [] ∧
      (formatBmsAlerts m metrics 160 false).2 = false ∧
      ¬ RightReport m metrics (isVerbose 160) false (formatBmsAlerts m metrics 160 false) := by
  refine ⟨{ OvmsVehicle.new (-100) 100 (-100) 100 ⟨⟨1, 1⟩, 1, 1⟩ ⟨1, 1⟩ with
    v := { OvmsVehicle.newSeries (-100) 100 with readings := 1 }
    t := { OvmsVehicle.newSeries (-100) 100 with readings := 2 } },
    ⟨0, [.ok], [0], 0, [.ok, .alert], [0, 5]⟩, rfl, rfl, rfl, rfl, rfl, fun h => ?_⟩
  exact absurd (h.answer.mpr (.inr ⟨1, by decide, .inl rfl⟩)) (by decide)

end Format

end Ovms.Bms
