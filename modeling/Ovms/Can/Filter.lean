import Ovms.Location.Scan

/-!
# CAN Filters

A `canfilter` (`components/can/src/can.cpp`) lists the identifiers that are let through, range by
range, each on one bus or on all of them. It is written as a text, by `Info`, and read from one,
by `AddFilter`: the bus is left out where it is any, the upper end where it is the lower one or
the greatest identifier, and the reader tells from the second character whether there is a bus.
-/

open Lib Ovms.Canlog Ovms.Location

namespace Ovms.Can

/-! ### Scanning -/

/-- `%u` and `%x`, for a base of 10 and of 16: the number, and the text behind it. -/
def scanNumber (base : ℕ) (text : List UInt8) : Option (UInt32 × List UInt8) :=
  let signed := readSign (text.dropWhile isSpace)
  let body := skipMark base signed.2
  let digits := body.takeWhile (isDigitOf base)
  if digits = [] then none
  else
    some (.ofNat (toUlong signed.1 (value base (digits.map fun c => (digitOf c).getD 0))),
      body.dropWhile (isDigitOf base))

/-- What `sscanf` has stored, and how many values: `-1` for a text that ends before the first. -/
structure Scanned where
  level : ℤ
  bus : UInt32
  idFrom : UInt32
  idTo : UInt32
  deriving DecidableEq, Repr

/-- The result of `sscanf`: how many values are stored, if there is anything to read. -/
def level (text : List UInt8) (stored : ℤ) : ℤ := if text.all isSpace then -1 else stored

/-- `%x%c%x`: how many values are stored, and both numbers. What is not stored is never used. -/
def scanRange (text : List UInt8) : ℤ × UInt32 × UInt32 :=
  match scanNumber 16 text with
  | none => (0, 0, 0)
  | some (idFrom, []) => (1, idFrom, 0)
  | some (idFrom, _ :: rest) =>
      match scanNumber 16 rest with
      | none => (2, idFrom, 0)
      | some (idTo, _) => (3, idFrom, idTo)

/-- `sscanf` with `%u:%x%c%x`. -/
def scanBus (text : List UInt8) : Scanned :=
  match scanNumber 10 text with
  | none => ⟨level text 0, 0, 0, 0⟩
  | some (bus, colon :: rest) =>
      if colon = 58 then
        let range := scanRange rest
        ⟨1 + range.1, bus, range.2.1, range.2.2⟩
      else ⟨1, bus, 0, 0⟩
  | some (bus, []) => ⟨1, bus, 0, 0⟩

/-- `sscanf` with `%x%c%x`. -/
def scanIds (text : List UInt8) : Scanned :=
  let range := scanRange text
  ⟨level text range.1, 0, range.2.1, range.2.2⟩

/-! ### Filters -/

/-- `CAN_MAXBUSES`. -/
abbrev maxBuses : UInt8 := 5

/-- `CAN_filter_t`: a range of identifiers, on a bus or on any. -/
structure CanFilterEntry where
  /-- 0 for any -/
  bus : UInt8
  idFrom : UInt32
  idTo : UInt32
  bus_le : bus ≤ maxBuses
  idFrom_le : idFrom ≤ idTo
  deriving DecidableEq, Repr

/-- `canfilter`: its `m_filters`. -/
abbrev CanFilter := List CanFilterEntry

namespace CanFilter

variable (filters : CanFilter)

/-- `AddFilter` with numbers: nothing where it answers false. -/
def addFilter (bus : UInt8) (idFrom idTo : UInt32) : Option CanFilter :=
  if maxBuses < bus then none
  else if hids : idFrom ≤ idTo then
    let number := if 48 ≤ bus then bus - 48 else bus
    if hbus : number ≤ maxBuses then some (filters ++ [⟨number, idFrom, idTo, hbus, hids⟩])
    else none
  else none

/-- The range that a number of values stands for. -/
def addScanned (scanned : Scanned) : Option CanFilter :=
  let bus := scanned.bus.toUInt8
  if scanned.level = 1 then filters.addFilter bus 0 0xFFFFFFFF
  else if scanned.level = 2 then filters.addFilter bus scanned.idFrom scanned.idFrom
  else if scanned.level = 3 then filters.addFilter bus scanned.idFrom 0xFFFFFFFF
  else if scanned.level = 4 then filters.addFilter bus scanned.idFrom scanned.idTo
  else none

/-- `AddFilter` with a text. -/
def addFilterString (text : List UInt8) : Option CanFilter :=
  match text with
  | [] => none
  | c :: rest =>
      if rest = [] ∨ rest.head? = some 58 then filters.addScanned (scanBus (c :: rest))
      else
        let scanned := scanIds (c :: rest)
        if scanned.level = 0 then none
        else filters.addScanned { scanned with level := scanned.level + 1 }

/-- The number of a bus, with 0 for no bus: `m_busnumber + 1`. -/
def busKey (origin : Option ℤ) : UInt8 :=
  match origin with
  | none => 0
  | some busNumber => .ofInt (busNumber + 1)

/-- `IsFiltered` for a frame: the bus it is from, if any, and its identifier. -/
def isFiltered (frame : Option (Option ℤ × UInt32)) : Bool :=
  filters.isEmpty ||
    match frame with
    | none => false
    | some (origin, msgId) =>
        filters.any fun f =>
          !(f.bus ≠ 0 && f.bus ≠ busKey origin) && (f.idFrom ≤ msgId && msgId ≤ f.idTo)

/-- `IsFiltered` for a bus. -/
def isFilteredBus (bus : Option ℤ) : Bool :=
  filters.isEmpty || bus.isNone || filters.any fun f => f.bus ≠ 0 && f.bus = busKey bus

end CanFilter

/-- What `Info` writes for a range. The width of three is for what comes first. -/
def CanFilterEntry.text (f : CanFilterEntry) : List UInt8 :=
  (if 0 < f.bus then [48 + f.bus, 58] else []) ++
    if f.idFrom = f.idTo then print false 16 3 f.idFrom.toNat ++ [32]
    else if f.idTo < 0xFFFFFFFF then
      print false 16 3 f.idFrom.toNat ++ 45 :: (print false 16 1 f.idTo.toNat ++ [32])
    else if 0 < f.idTo then print false 16 3 f.idFrom.toNat ++ [45, 32]
    else [48, 48, 32]

namespace CanFilter

variable (filters : CanFilter)

/-- `Info`. -/
def info : List UInt8 := filters.flatMap CanFilterEntry.text

/-- The tokens of a text: what blanks separate. -/
def tokens (text : List UInt8) : List (List UInt8) := (text.splitOn 32).filter (· ≠ [])

/-- A filter from the tokens of a text: `AddFilter` for each of them, to an empty filter. -/
def readFilters (text : List UInt8) : Option CanFilter := (tokens text).foldlM addFilterString []

/-- The filter that calls of `AddFilter` leave. -/
def built (calls : List (UInt8 × UInt32 × UInt32)) : CanFilter :=
  calls.foldl (fun filters call =>
    (filters.addFilter call.1 call.2.1 call.2.2).getD filters) []

end CanFilter

/-! ### Numbers -/

variable {base : ℕ} {digits rest : List UInt8}

/-- Nothing in a text continues a number, nor is it the mark of a base. -/
def Ends (base : ℕ) (rest : List UInt8) : Prop :=
  ∀ c ∈ rest.head?, isDigitOf base c = false ∧ c ≠ 120 ∧ c ≠ 88

theorem ends_nil (base : ℕ) : Ends base [] := fun _ h => nomatch h

theorem ends_cons {c : UInt8} (h : isDigitOf base c = false ∧ c ≠ 120 ∧ c ≠ 88)
    (rest : List UInt8) : Ends base (c :: rest) := fun d hd => by
  obtain rfl : c = d := Option.some.inj hd
  exact h

/-- The digits of a number, up to what ends them. -/
theorem splitDigits (hdigits : ∀ c ∈ digits, isDigitOf base c = true) (hrest : Ends base rest) :
    (digits ++ rest).takeWhile (isDigitOf base) = digits ∧
      (digits ++ rest).dropWhile (isDigitOf base) = rest := by
  rw [List.takeWhile_append_of_pos hdigits, List.dropWhile_append_of_pos hdigits]
  cases rest with
  | nil => exact ⟨List.append_nil digits, rfl⟩
  | cons c rest =>
      rw [List.takeWhile_cons, List.dropWhile_cons, (hrest c rfl).1]
      exact ⟨List.append_nil digits, rfl⟩

/-- Digits have no mark in front of them. -/
theorem skipMark_digits {c : UInt8} {cs : List UInt8}
    (hdigits : ∀ d ∈ c :: cs, isDigitOf base d = true) (hrest : Ends base rest) :
    skipMark base (c :: cs ++ rest) = c :: cs ++ rest := by
  refine skipMark_eq_self fun hbase d hd => ?_
  subst hbase
  rw [List.cons_append, List.getElem?_cons_succ] at hd
  cases cs with
  | nil =>
      rw [List.nil_append, ← List.head?_eq_getElem?] at hd
      exact (hrest d hd).2
  | cons e cs =>
      obtain rfl : e = d := Option.some.inj hd
      have hdigit := hdigits e (List.mem_cons_of_mem c List.mem_cons_self)
      constructor <;> rintro rfl <;> exact absurd hdigit (by decide)

/-- **A number printed is read back**, up to what ends it. -/
theorem scanNumber_print (hbase : 1 < base) (hmax : base ≤ 36) (width : ℕ) (n : UInt32)
    (hrest : Ends base rest) :
    scanNumber base (print false base width n.toNat ++ rest) = some (n, rest) := by
  have hdigits : ∀ d ∈ print false base width n.toNat, isDigitOf base d = true := fun d =>
    isDigitOf_of_mem_print hbase hmax
  have hvalue : value base ((print false base width n.toNat).map fun c => (digitOf c).getD 0) =
      n.toNat := by
    rw [map_digitOf_print false hbase hmax, value_numeral]
  have hulong : toUlong false n.toNat = n.toNat := by
    have := n.toNat_lt
    rw [toUlong, if_neg (by omega), if_neg Bool.false_ne_true]
  obtain ⟨htake, hdrop⟩ := splitDigits hdigits hrest
  obtain ⟨c, cs, hprint⟩ := List.exists_cons_of_ne_nil (print_ne_nil false base width n.toNat)
  rw [hprint] at hdigits hvalue htake hdrop ⊢
  have hhead : isDigitOf base c = true := hdigits c List.mem_cons_self
  have hspace : (c :: cs ++ rest).dropWhile isSpace = c :: cs ++ rest := by
    rw [List.cons_append, List.dropWhile_cons_of_neg]
    rw [isSpace_of_isDigitOf hhead]
    decide
  have hsign : readSign (c :: cs ++ rest) = (false, c :: cs ++ rest) :=
    readSign_of_isDigitOf hhead _
  rw [scanNumber, hspace, hsign, skipMark_digits hdigits hrest, htake, hdrop,
    if_neg (List.cons_ne_nil c cs), hvalue, hulong, UInt32.ofNat_toNat]

theorem blank_notMem_print (width n : ℕ) : (32 : UInt8) ∉ print false 16 width n := fun h =>
  absurd (isDigitOf_of_mem_print (by decide) (by decide) h) (by decide)

/-- Of three digits or more, there are two. -/
theorem exists_print_three (n : ℕ) : ∃ c d rest, print false 16 3 n = c :: d :: rest ∧
    isDigitOf 16 c = true ∧ isDigitOf 16 d = true := by
  have hlength : 3 ≤ (print false 16 3 n).length := by
    rw [print, List.length_map, length_numeral_eq_max]
    exact le_max_left _ _
  have hdigits : ∀ c ∈ print false 16 3 n, isDigitOf 16 c = true := fun c =>
    isDigitOf_of_mem_print (by decide) (by decide)
  rcases h : print false 16 3 n with _ | ⟨c, _ | ⟨d, rest⟩⟩
  · simp [h] at hlength
  · simp [h] at hlength
  · rw [h] at hdigits
    exact ⟨c, d, rest, rfl, hdigits c List.mem_cons_self,
      hdigits d (List.mem_cons_of_mem c List.mem_cons_self)⟩

theorem digit_eq_print {bus : UInt8} (h : bus ≤ maxBuses) :
    [48 + bus] = print false 10 1 bus.toUInt32.toNat := by
  have hle : bus.toNat ≤ 5 := UInt8.le_iff_toNat_le.mp h
  have htoNat : bus.toUInt32.toNat = bus.toNat := UInt8.toNat_toUInt32 bus
  rw [htoNat, print, numeral_one (by omega), List.map_singleton, digitChar, if_pos (by omega),
    List.singleton_inj, ← UInt8.toNat_inj, UInt8.toNat_add, UInt8.toNat_ofNat']
  rfl

/-! ### Ranges -/

namespace CanFilterEntry

open CanFilter

variable {f : CanFilterEntry} {range : List UInt8}

/-- A text of the identifiers that are let through: it starts with two digits, and the values
that are read are those of the range. -/
structure IsRange (f : CanFilterEntry) (range : List UInt8) : Prop where
  blank_notMem : (32 : UInt8) ∉ range
  digits : ∃ c d rest, range = c :: d :: rest ∧ isDigitOf 16 c = true ∧ isDigitOf 16 d = true
  read : ∃ n idFrom idTo, scanRange range = (n, idFrom, idTo) ∧ n ≠ 0 ∧
    ∀ filters : CanFilter,
      filters.addScanned ⟨1 + n, f.bus.toUInt32, idFrom, idTo⟩ = some (filters ++ [f])

/-- A range that is valid is added. -/
theorem addFilter_eq (filters : CanFilter) {bus : UInt8} {idFrom idTo : UInt32}
    (hbus : bus ≤ maxBuses) (hids : idFrom ≤ idTo) :
    filters.addFilter bus idFrom idTo = some (filters ++ [⟨bus, idFrom, idTo, hbus, hids⟩]) := by
  have hle : bus.toNat ≤ 5 := UInt8.le_iff_toNat_le.mp hbus
  have hsmall : ¬(48 : UInt8) ≤ bus := fun h =>
    absurd (Nat.le_trans (UInt8.le_iff_toNat_le.mp h) hle) (by decide)
  have hmax : ¬maxBuses < bus := UInt8.not_lt.mpr hbus
  rw [addFilter, if_neg hmax, dif_pos hids]
  simp only [if_neg hsmall]
  rw [dif_pos hbus]

theorem addFilter_self (filters : CanFilter) (f : CanFilterEntry) :
    filters.addFilter f.bus.toUInt32.toUInt8 f.idFrom f.idTo = some (filters ++ [f]) := by
  rw [UInt8.toUInt8_toUInt32]
  exact addFilter_eq filters f.bus_le f.idFrom_le

/-- One identifier. -/
theorem isRange_single (h : f.idFrom = f.idTo) : IsRange f (print false 16 3 f.idFrom.toNat) where
  blank_notMem := blank_notMem_print 3 _
  digits := exists_print_three _
  read := by
    have hscan := scanNumber_print (by decide) (by decide) 3 f.idFrom (ends_nil 16)
    rw [List.append_nil] at hscan
    refine ⟨1, f.idFrom, 0, by rw [scanRange, hscan], by decide, fun filters => ?_⟩
    exact (congrArg _ h).trans (addFilter_self filters f)

theorem digits_append (n : ℕ) (text : List UInt8) : ∃ c d rest,
    print false 16 3 n ++ text = c :: d :: rest ∧ isDigitOf 16 c = true ∧
      isDigitOf 16 d = true := by
  obtain ⟨c, d, rest, hprint, hc, hd⟩ := exists_print_three n
  exact ⟨c, d, rest ++ text, by rw [hprint, List.cons_append, List.cons_append], hc, hd⟩

theorem ends_hyphen (text : List UInt8) : Ends 16 (45 :: text) := ends_cons (by decide) text

/-- From one identifier to another. -/
theorem isRange_closed (f : CanFilterEntry) :
    IsRange f (print false 16 3 f.idFrom.toNat ++ 45 :: print false 16 1 f.idTo.toNat) where
  blank_notMem := by
    rw [List.mem_append, List.mem_cons, not_or, not_or]
    exact ⟨blank_notMem_print 3 _, by decide, blank_notMem_print 1 _⟩
  digits := digits_append _ _
  read := by
    have hto := scanNumber_print (by decide) (by decide) 1 f.idTo (ends_nil 16)
    rw [List.append_nil] at hto
    refine ⟨3, f.idFrom, f.idTo, ?_, by decide, fun filters => addFilter_self filters f⟩
    rw [scanRange, scanNumber_print (by decide) (by decide) 3 f.idFrom (ends_hyphen _)]
    simp only [hto]

/-- From one identifier on. -/
theorem isRange_open (h : f.idTo = 0xFFFFFFFF) :
    IsRange f (print false 16 3 f.idFrom.toNat ++ [45]) where
  blank_notMem := by
    rw [List.mem_append, List.mem_singleton, not_or]
    exact ⟨blank_notMem_print 3 _, by decide⟩
  digits := digits_append _ _
  read := by
    have hend : scanNumber 16 [] = none := rfl
    refine ⟨2, f.idFrom, 0, ?_, by decide, fun filters => ?_⟩
    · rw [scanRange, scanNumber_print (by decide) (by decide) 3 f.idFrom (ends_hyphen _)]
      simp only [hend]
    · exact (congrArg _ h.symm).trans (addFilter_self filters f)

/-- What is written is the bus, if there is one, a range, and a blank. -/
theorem exists_range (f : CanFilterEntry) : ∃ range, IsRange f range ∧
    f.text = (if 0 < f.bus then [48 + f.bus, 58] else []) ++ (range ++ [32]) := by
  rw [text]
  by_cases hsingle : f.idFrom = f.idTo
  · rw [if_pos hsingle]
    exact ⟨_, isRange_single hsingle, rfl⟩
  · rw [if_neg hsingle]
    by_cases hclosed : f.idTo < 0xFFFFFFFF
    · rw [if_pos hclosed]
      exact ⟨_, isRange_closed f, by rw [List.append_assoc, List.cons_append]⟩
    · -- the upper end is the greatest identifier, so the last branch is never taken
      have hmax : f.idTo = 0xFFFFFFFF := by
        have hlt := f.idTo.toNat_lt
        rw [UInt32.lt_iff_toNat_lt] at hclosed
        change ¬f.idTo.toNat < 4294967295 at hclosed
        rw [← UInt32.toNat_inj]
        change f.idTo.toNat = 4294967295
        omega
      have hpos : 0 < f.idTo := by
        rw [hmax]
        decide
      rw [if_neg hclosed, if_pos hpos]
      exact ⟨_, isRange_open hmax, by rw [List.append_assoc]; rfl⟩

theorem ne_colon {d : UInt8} (h : isDigitOf 16 d = true) : d ≠ 58 := by
  rintro rfl
  exact absurd h (by decide)

/-- **A range on any bus is read back**: the second character is a digit. -/
theorem addFilterString_range (h : IsRange f range) (hbus : f.bus = 0) (filters : CanFilter) :
    filters.addFilterString range = some (filters ++ [f]) := by
  obtain ⟨n, idFrom, idTo, hscan, hn, hadd⟩ := h.read
  obtain ⟨c, d, rest, rfl, hc, hd⟩ := h.digits
  have hlevel : level (c :: d :: rest) n = n := by
    rw [level, List.all_cons, isSpace_of_isDigitOf hc, Bool.false_and, if_neg Bool.false_ne_true]
  rw [addFilterString, if_neg, scanIds, hscan]
  · dsimp only
    rw [hlevel, if_neg hn, Int.add_comm]
    have hread := hadd filters
    rwa [hbus] at hread
  · rw [not_or]
    exact ⟨List.cons_ne_nil d rest, fun hcolon => ne_colon hd (Option.some.inj hcolon)⟩

/-- **So is a range on one bus**: the second character is a colon. -/
theorem addFilterString_bus (h : IsRange f range) (filters : CanFilter) :
    filters.addFilterString ((48 + f.bus) :: 58 :: range) = some (filters ++ [f]) := by
  obtain ⟨n, idFrom, idTo, hscan, -, hadd⟩ := h.read
  have hbus : scanNumber 10 ((48 + f.bus) :: 58 :: range) =
      some (f.bus.toUInt32, 58 :: range) := by
    have hprint := scanNumber_print (by decide) (by decide) 1 f.bus.toUInt32
      (ends_cons (by decide) range : Ends 10 (58 :: range))
    rwa [← digit_eq_print f.bus_le] at hprint
  rw [addFilterString, if_pos (.inr rfl), scanBus, hbus]
  simp only [if_true]
  rw [hscan]
  exact hadd filters

/-- **What is written of a range is a token and a blank, and the token is read back.** -/
theorem exists_token (f : CanFilterEntry) : ∃ token, f.text = token ++ [32] ∧
    (32 : UInt8) ∉ token ∧ token ≠ [] ∧
      ∀ filters : CanFilter, filters.addFilterString token = some (filters ++ [f]) := by
  obtain ⟨range, hrange, htext⟩ := f.exists_range
  by_cases hbus : 0 < f.bus
  · rw [if_pos hbus] at htext
    refine ⟨(48 + f.bus) :: 58 :: range, htext, ?_, List.cons_ne_nil _ _,
      addFilterString_bus hrange⟩
    have hdigit : (32 : UInt8) ∉ [48 + f.bus] := by
      rw [digit_eq_print f.bus_le]
      intro hmem
      exact absurd (isDigitOf_of_mem_print (by decide) (by decide) hmem) (by decide)
    rw [List.mem_singleton] at hdigit
    rw [List.mem_cons, List.mem_cons, not_or, not_or]
    exact ⟨hdigit, by decide, hrange.blank_notMem⟩
  · have hzero : f.bus = 0 := by
      rw [UInt8.lt_iff_toNat_lt] at hbus
      rw [← UInt8.toNat_inj]
      exact Nat.le_zero.mp (Nat.not_lt.mp hbus)
    rw [if_neg hbus, List.nil_append] at htext
    obtain ⟨c, d, rest, hcons, -⟩ := hrange.digits
    exact ⟨range, htext, hrange.blank_notMem, hcons ▸ List.cons_ne_nil _ _,
      addFilterString_range hrange hzero⟩

end CanFilterEntry

/-! ### Filters -/

namespace CanFilter

open CanFilterEntry

theorem tokens_append {token : List UInt8} (hblank : (32 : UInt8) ∉ token) (hne : token ≠ [])
    (text : List UInt8) : tokens (token ++ 32 :: text) = token :: tokens text := by
  rw [tokens, List.splitOn_append_cons_self_of_not_mem hblank]
  exact List.filter_cons_of_pos (decide_eq_true hne)

/-- **The tokens of a text add what it was written from.** -/
theorem foldlM_tokens_info (filters before : CanFilter) :
    (tokens (info filters)).foldlM addFilterString before = some (before ++ filters) := by
  induction filters generalizing before with
  | nil => exact congrArg some (List.append_nil before).symm
  | cons f filters ih =>
      obtain ⟨token, htext, hblank, hne, hread⟩ := f.exists_token
      have hinfo : info (f :: filters) = token ++ 32 :: info filters := by
        rw [info, List.flatMap_cons, htext, List.append_assoc]
        rfl
      rw [hinfo, tokens_append hblank hne, List.foldlM_cons, hread]
      change (tokens (info filters)).foldlM addFilterString (before ++ [f]) = _
      rw [ih, List.append_assoc, List.singleton_append]

/-- **A filter is read back from its text**: every token of it is accepted, and the filter they
leave lets the same frames through, from whatever bus, and the same buses. -/
theorem readFilters_info (calls : List (UInt8 × UInt32 × UInt32)) : ∃ read : CanFilter,
    readFilters (built calls).info = some read ∧
      (∀ frame, read.isFiltered frame = (built calls).isFiltered frame) ∧
      ∀ bus, read.isFilteredBus bus = (built calls).isFilteredBus bus :=
  ⟨built calls, foldlM_tokens_info (built calls) [], fun _ => rfl, fun _ => rfl⟩

end CanFilter

end Ovms.Can
