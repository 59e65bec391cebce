import Ovms.Location.Scan

/-!
# Bitset Metrics

`OvmsMetricBitset` (`main/ovms_metrics.h`), a metric of `N` bits whose text is the positions of
its bits, counted from `startpos` on, with commas between them. When a text is read, one variable
holds the element of all tokens: a token that is empty leaves it as it is, the start position
already taken off, and a token that is no number makes it zero.

## Main results

* `getLsbD_parse`: a bit is set if a token comes out at it.
* `text_exact_iff`: **the text is read as it is written, and every text as its numbers, exactly if
  the bits are few enough for an `int` and no other token does harm**.
-/

open Lib Ovms.Canlog Ovms.Location

namespace Ovms.Metrics

namespace Bitset

/-! ### Texts -/

/-- `std::getline` in a loop: no token for what is behind a comma at the end. -/
def getlines (text : List UInt8) : List (List UInt8) :=
  let parts := text.splitOn 0x2C
  if parts.getLast? = some [] then parts.dropLast else parts

/-- There is nothing in a token but blanks. -/
def isBlank (token : List UInt8) : Bool := token.dropWhile isSpace = []

/-- `ts >> elem` where there is something to read: zero where it is no number, and the end of the
range for a number beyond it. -/
def readElem (token : List UInt8) : Int32 :=
  match scanDigits token with
  | none => 0
  | some r => .ofInt (toLong r.1 r.2.1).1

end Bitset

open Bitset

/-- `OvmsMetricBitset<N, startpos>`. -/
structure OvmsMetricBitset (N : ℕ) (startpos : Int32) where
  defined : Bool
  value : BitVec N
  deriving DecidableEq

namespace OvmsMetricBitset

variable {N : ℕ} {startpos : Int32}

/-- The number that is printed for a bit. -/
def position (startpos : Int32) (i : ℕ) : ℤ := (startpos + .ofNat i).toInt

/-- `AsString`. -/
def asString (m : OvmsMetricBitset N startpos) (defvalue : List UInt8) : List UInt8 :=
  if m.defined then
    (List.range N).foldl (fun ss i =>
      if m.value.getLsbD i then
        (if ss ≠ [] then ss ++ [0x2C] else ss) ++ printInt (position startpos i)
      else ss) []
  else defvalue

/-- `AsBitset`. -/
def asBitset (m : OvmsMetricBitset N startpos) (defvalue : BitVec N) : BitVec N :=
  if m.defined then m.value else defvalue

/-- `SetValue` of bits, and whether they are others than before. -/
def setBits (m : OvmsMetricBitset N startpos) (value : BitVec N) :
    OvmsMetricBitset N startpos × Bool :=
  (⟨true, value⟩, m.value != value)

/-- A pass of the loop over the tokens. -/
def readToken (startpos : Int32) (s : BitVec N × Int32) (token : List UInt8) :
    BitVec N × Int32 :=
  let elem := (if isBlank token then s.2 else readElem token) - startpos
  (if 0 ≤ elem.toInt ∧ elem.toInt < N then s.1 ||| .twoPow N elem.toInt.toNat else s.1, elem)

/-- The bits that a text is read as. The element has no value of its own before the first
token. -/
def parse (startpos elem : Int32) (text : List UInt8) : BitVec N :=
  ((getlines text).foldl (readToken startpos) (0, elem)).1

/-- `SetValue` of a text. -/
def setString (m : OvmsMetricBitset N startpos) (elem : Int32) (text : List UInt8) :
    OvmsMetricBitset N startpos × Bool :=
  m.setBits (parse startpos elem text)

/-! ### Numbers -/

/-- The number that a token begins with. -/
def number (token : List UInt8) : Option ℤ :=
  (scanDigits token).map fun r => if r.1 then -(r.2.1 : ℤ) else r.2.1

/-- A token is an `int`. -/
def IsInt (token : List UInt8) : Prop :=
  ∃ z, number token = some z ∧ -2147483648 ≤ z ∧ z ≤ 2147483647

/-- A token names a bit. -/
def Names (startpos : Int32) (token : List UInt8) (i : ℕ) : Prop :=
  number token = some (position startpos i)

theorem position_le (startpos : Int32) (i : ℕ) :
    -2147483648 ≤ position startpos i ∧ position startpos i ≤ 2147483647 :=
  ⟨Int32.le_toInt _, Int32.toInt_le _⟩

theorem number_of_isBlank {token : List UInt8} (h : isBlank token = true) :
    number token = none := by
  rw [isBlank, decide_eq_true_eq] at h
  rw [number, scanDigits, h]
  rfl

/-- An `int` is read as it is. -/
theorem readElem_of_number {token : List UInt8} {z : ℤ} (h : number token = some z)
    (hlo : -2147483648 ≤ z) (hhi : z ≤ 2147483647) : readElem token = .ofInt z := by
  rw [number, Option.map_eq_some_iff] at h
  obtain ⟨⟨negative, n, rest⟩, hscan, hz⟩ := h
  have hvalue : (toLong negative n).1 = z := by
    cases negative with
    | false =>
      have hn : (n : ℤ) = z := hz
      rw [toLong, if_neg Bool.false_ne_true, if_pos (by omega)]
      exact hn
    | true =>
      have hn : -(n : ℤ) = z := hz
      rw [toLong, if_pos rfl, if_pos (by omega)]
      exact hn
  simp only [readElem, hscan, hvalue]

/-- Reading a number comes out at the bit that it names. -/
theorem toInt_sub_eq_iff {z : ℤ} (hlo : -2147483648 ≤ z) (hhi : z ≤ 2147483647) {i : ℕ}
    (hi : i < 2147483648) :
    (Int32.ofInt z - startpos).toInt = i ↔ z = position startpos i := by
  have hread : (Int32.ofInt z).toInt = z := Int32.toInt_ofInt_of_le hlo (by omega)
  have hofNat : (Int32.ofNat i).toInt = i := Int32.toInt_ofNat_of_lt hi
  constructor
  · intro h
    have helem : Int32.ofInt z - startpos = .ofNat i := Int32.toInt_inj.mp (h.trans hofNat.symm)
    rw [position, ← helem, Int32.add_comm, Int32.sub_add_cancel, hread]
  · intro h
    have hofInt : Int32.ofInt z = startpos + .ofNat i := Int32.toInt_inj.mp (hread.trans h)
    rw [hofInt, Int32.add_comm, Int32.add_sub_cancel, hofNat]

/-! ### The element -/

/-- The element that some tokens leave behind: the last of them that is not blank, less the start
position for it and for each blank token behind it. -/
def carried (startpos elem : Int32) (tokens : List (List UInt8)) : Int32 :=
  (match (tokens.reverse.dropWhile isBlank).head? with
    | some token => readElem token - startpos
    | none => elem)
    - .ofNat (tokens.reverse.takeWhile isBlank).length * startpos

theorem carried_nil (startpos elem : Int32) : carried startpos elem [] = elem := by
  simp [carried]

/-- One more token. -/
theorem carried_snoc (startpos elem : Int32) (tokens : List (List UInt8)) (token : List UInt8) :
    carried startpos elem (tokens ++ [token]) =
      (if isBlank token then carried startpos elem tokens else readElem token) - startpos := by
  rw [carried, List.reverse_append, List.reverse_singleton, List.singleton_append]
  cases hblank : isBlank token with
  | true =>
    rw [List.dropWhile_cons_of_pos hblank, List.takeWhile_cons_of_pos hblank, List.length_cons,
      if_pos rfl, carried, Int32.ofNat_add]
    grind
  | false =>
    rw [List.dropWhile_cons_of_neg (by rw [hblank]; exact Bool.false_ne_true),
      List.takeWhile_cons_of_neg (by rw [hblank]; exact Bool.false_ne_true),
      if_neg Bool.false_ne_true]
    simp

/-- The element after a run of the loop. -/
theorem foldl_readToken_elem (startpos elem : Int32) (tokens : List (List UInt8)) :
    (tokens.foldl (readToken startpos) ((0 : BitVec N), elem)).2 =
      carried startpos elem tokens := by
  induction tokens using List.reverseRecOn with
  | nil => exact (carried_nil startpos elem).symm
  | append_singleton tokens token ih =>
    rw [List.foldl_append, List.foldl_cons, List.foldl_nil, carried_snoc, ← ih]
    rfl

/-- A token comes out at a bit. -/
def Hits (startpos elem : Int32) (tokens : List (List UInt8)) (i : ℕ) : Prop :=
  ∃ before token after, tokens = before ++ token :: after ∧
    (carried startpos elem (before ++ [token])).toInt = i

/-- One more token may come out at one more bit. -/
theorem hits_snoc {startpos elem : Int32} {tokens : List (List UInt8)} {token : List UInt8}
    {i : ℕ} : Hits startpos elem (tokens ++ [token]) i ↔
      Hits startpos elem tokens i ∨ (carried startpos elem (tokens ++ [token])).toInt = i := by
  constructor
  · rintro ⟨before, t, after, heq, hi⟩
    rcases List.eq_nil_or_concat after with rfl | ⟨after, last, rfl⟩
    · obtain ⟨rfl, ht⟩ := List.append_inj' heq rfl
      cases ht
      exact .inr hi
    · rw [List.concat_eq_append, ← List.cons_append, ← List.append_assoc] at heq
      exact .inl ⟨before, t, after, (List.append_inj' heq rfl).1, hi⟩
  · rintro (⟨before, t, after, rfl, hi⟩ | hi)
    · exact ⟨before, t, after ++ [token], by simp, hi⟩
    · exact ⟨tokens, token, [], rfl, hi⟩

/-- The bits after a run of the loop. -/
theorem getLsbD_foldl_readToken (startpos elem : Int32) (tokens : List (List UInt8)) {i : ℕ}
    (hi : i < N) :
    (tokens.foldl (readToken startpos) ((0 : BitVec N), elem)).1.getLsbD i = true ↔
      Hits startpos elem tokens i := by
  induction tokens using List.reverseRecOn with
  | nil =>
    refine iff_of_false (by simp) ?_
    rintro ⟨before, token, after, heq, -⟩
    simp at heq
  | append_singleton tokens token ih =>
    have helem := foldl_readToken_elem (N := N) startpos elem (tokens ++ [token])
    rw [hits_snoc, ← ih, ← helem, List.foldl_append, List.foldl_cons, List.foldl_nil]
    generalize tokens.foldl (readToken startpos) ((0 : BitVec N), elem) = s
    simp only [readToken]
    generalize (if isBlank token then s.2 else readElem token) - startpos = e
    split
    next hin =>
      rw [BitVec.getLsbD_or, BitVec.getLsbD_twoPow, Bool.or_eq_true, Bool.and_eq_true,
        decide_eq_true_eq, decide_eq_true_eq]
      exact or_congr_right ⟨fun h => by omega, fun h => by omega⟩
    next hout => exact (or_iff_left (by omega)).symm

/-- **A bit is set if a token comes out at it.** -/
theorem getLsbD_parse (startpos elem : Int32) (text : List UInt8) {i : ℕ} (hi : i < N) :
    (parse startpos elem text : BitVec N).getLsbD i = true ↔
      Hits startpos elem (getlines text) i :=
  getLsbD_foldl_readToken startpos elem (getlines text) hi

/-! ### Texts and their numbers -/

/-- Every token that is no `int` comes out at no bit, or at one that another token names. -/
def Harmless (N : ℕ) (startpos elem : Int32) (tokens : List (List UInt8)) : Prop :=
  ∀ before token after, tokens = before ++ token :: after → ¬IsInt token →
    ∀ i < N, (carried startpos elem (before ++ [token])).toInt = i →
      ∃ t ∈ tokens, Names startpos t i

/-- A token that is a number comes out at the bit that it names. -/
theorem toInt_carried_iff {startpos elem : Int32} {before : List (List UInt8)}
    {token : List UInt8} (h : IsInt token) {i : ℕ} (hi : i < 2147483648) :
    (carried startpos elem (before ++ [token])).toInt = i ↔ Names startpos token i := by
  obtain ⟨z, hz, hlo, hhi⟩ := h
  have hblank : isBlank token = false := by
    cases hb : isBlank token with
    | false => rfl
    | true =>
      rw [number_of_isBlank hb] at hz
      cases hz
  rw [carried_snoc, hblank, if_neg Bool.false_ne_true, readElem_of_number hz hlo hhi,
    toInt_sub_eq_iff hlo hhi hi, Names, hz, Option.some_inj]

theorem Names.isInt {token : List UInt8} {i : ℕ} (h : Names startpos token i) : IsInt token :=
  ⟨_, h, (position_le startpos i).1, (position_le startpos i).2⟩

theorem hits_of_names {startpos elem : Int32} {tokens : List (List UInt8)} {i : ℕ}
    (hi : i < 2147483648) (h : ∃ token ∈ tokens, Names startpos token i) :
    Hits startpos elem tokens i := by
  obtain ⟨token, hmem, hnames⟩ := h
  obtain ⟨before, after, rfl⟩ := List.append_of_mem hmem
  exact ⟨before, token, after, rfl, (toInt_carried_iff hnames.isInt hi).mpr hnames⟩

/-- **A text sets the bits that it names, and no other ones, exactly if no other token does
harm.** -/
theorem parse_exact_iff (hN : N ≤ 2147483648) (startpos elem : Int32) (text : List UInt8) :
    (∀ i < N, (parse startpos elem text : BitVec N).getLsbD i = true ↔
        ∃ token ∈ getlines text, Names startpos token i) ↔
      Harmless N startpos elem (getlines text) := by
  constructor
  · intro hexact before token after heq _ i hi hcarried
    rw [← hexact i hi, getLsbD_parse startpos elem text hi]
    exact ⟨before, token, after, heq, hcarried⟩
  · intro hharmless i hi
    rw [getLsbD_parse startpos elem text hi]
    refine ⟨?_, hits_of_names (by omega)⟩
    rintro ⟨before, token, after, heq, hcarried⟩
    by_cases hint : IsInt token
    · refine ⟨token, ?_, (toInt_carried_iff hint (by omega)).mp hcarried⟩
      rw [heq]
      exact List.mem_append_right _ List.mem_cons_self
    · exact hharmless before token after heq hint i hi hcarried

/-! ### The text of a bitset -/

/-- One more part behind a separator. -/
theorem intercalate_snoc {sep part : List UInt8} {parts : List (List UInt8)} (h : parts ≠ []) :
    List.intercalate sep (parts ++ [part]) = List.intercalate sep parts ++ (sep ++ part) := by
  induction parts with
  | nil => exact absurd rfl h
  | cons first parts ih =>
    rcases parts with _ | ⟨second, parts⟩
    · rw [List.intercalate_singleton, List.singleton_append, List.intercalate_cons_cons,
        List.intercalate_singleton, List.append_assoc]
    · have hne : second :: parts ≠ [] := List.cons_ne_nil second parts
      have hsnoc : second :: parts ++ [part] ≠ [] := List.append_ne_nil_of_left_ne_nil hne _
      rw [List.cons_append, List.intercalate_cons_of_ne_nil hsnoc, ih hne,
        List.intercalate_cons_of_ne_nil hne]
      simp only [List.append_assoc]

/-- Writing commas before all parts but the first one. -/
theorem foldl_comma (parts : List (List UInt8)) (hparts : ∀ part ∈ parts, part ≠ []) :
    parts.foldl (fun ss part => (if ss ≠ [] then ss ++ [0x2C] else ss) ++ part) [] =
      List.intercalate [0x2C] parts := by
  induction parts using List.reverseRecOn with
  | nil => rfl
  | append_singleton parts part ih =>
    rw [List.foldl_append, ih fun p hp => hparts p (List.mem_append_left _ hp), List.foldl_cons,
      List.foldl_nil]
    rcases parts with _ | ⟨first, parts⟩
    · rw [List.nil_append, List.intercalate_singleton, List.intercalate_nil,
        if_neg (not_not.mpr rfl), List.nil_append]
    · have hfirst : first ≠ [] := hparts first (by simp)
      have hne : List.intercalate [0x2C] (first :: parts) ≠ [] := by
        cases parts with
        | nil => rwa [List.intercalate_singleton]
        | cons second parts => simp [List.intercalate_cons_cons]
      rw [if_pos hne, intercalate_snoc (List.cons_ne_nil _ _), List.append_assoc]

/-- The tokens of a bitset. -/
def tokens (startpos : Int32) (value : BitVec N) : List (List UInt8) :=
  ((List.range N).filter fun i => value.getLsbD i).map fun i => printInt (position startpos i)

/-- The number of a position that is printed. -/
theorem number_printInt (z : ℤ) : number (printInt z) = some z := by
  have hstops : Stops [] := fun c hc => absurd hc (by simp)
  have hscan := (signed_printInt z).scanDigits hstops
  rw [List.append_nil] at hscan
  rw [number, hscan, Option.map_some, Option.some_inj]
  by_cases hz : z < 0
  · rw [if_pos (decide_eq_true hz)]
    dsimp only
    omega
  · rw [if_neg (by rw [decide_eq_false hz]; exact Bool.false_ne_true)]
    dsimp only
    omega

theorem printInt_ne_nil (z : ℤ) : printInt z ≠ [] := by
  intro h
  have hnumber := number_printInt z
  rw [h] at hnumber
  cases hnumber

theorem asString_eq {m : OvmsMetricBitset N startpos} (h : m.defined = true)
    (defvalue : List UInt8) :
    m.asString defvalue = List.intercalate [0x2C] (tokens startpos m.value) := by
  rw [asString, if_pos h, ← foldl_comma, tokens, List.foldl_map, List.foldl_filter]
  intro part hpart
  obtain ⟨i, -, rfl⟩ := List.mem_map.mp hpart
  exact printInt_ne_nil _

theorem comma_notMem_printInt (z : ℤ) : 0x2C ∉ printInt z := by
  obtain ⟨blanks, sign, digits, heq, hblanks, hsign, -, hdigits, -⟩ := signed_printInt z
  rw [heq, List.mem_append, List.mem_append]
  rintro (hmem | hmem | hmem)
  · exact absurd (hblanks 44 hmem) (by decide)
  · rcases hsign with ⟨-, rfl | rfl⟩ | ⟨-, rfl⟩ <;> simp at hmem
  · exact absurd (hdigits 44 hmem) (by decide)

/-- The tokens are read back. -/
theorem getlines_intercalate_tokens (startpos : Int32) (value : BitVec N) :
    getlines (List.intercalate [0x2C] (tokens startpos value)) = tokens startpos value := by
  by_cases hnil : tokens startpos value = []
  · rw [hnil]
    rfl
  · rw [getlines, List.splitOn_intercalate _ ?_ hnil, if_neg]
    · intro hlast
      obtain ⟨i, -, hi⟩ := List.mem_map.mp (List.mem_of_getLast? hlast)
      exact printInt_ne_nil _ hi
    · intro part hpart
      obtain ⟨i, -, rfl⟩ := List.mem_map.mp hpart
      exact comma_notMem_printInt _

/-- A bit is set if its position is one of the tokens. -/
theorem exists_tokens_names_iff (hN : N ≤ 2147483648) (value : BitVec N) {i : ℕ} (hi : i < N) :
    value.getLsbD i = true ↔ ∃ token ∈ tokens startpos value, Names startpos token i := by
  refine Iff.symm ⟨?_, ?_⟩
  · rintro ⟨token, hmem, hnames⟩
    obtain ⟨j, hj, rfl⟩ := List.mem_map.mp hmem
    rw [List.mem_filter, List.mem_range] at hj
    rw [Names, number_printInt, Option.some_inj] at hnames
    have hbounds := position_le startpos j
    have hi' : (Int32.ofInt (position startpos j) - startpos).toInt = i :=
      (toInt_sub_eq_iff hbounds.1 hbounds.2 (by omega)).mpr hnames
    have hj' : (Int32.ofInt (position startpos j) - startpos).toInt = j :=
      (toInt_sub_eq_iff hbounds.1 hbounds.2 (by omega)).mpr rfl
    obtain rfl : i = j := by omega
    exact hj.2
  · intro hbit
    refine ⟨_, List.mem_map.mpr ⟨i, List.mem_filter.mpr ⟨List.mem_range.mpr hi, hbit⟩, rfl⟩, ?_⟩
    exact number_printInt _

theorem asBitset_setString (m : OvmsMetricBitset N startpos) (elem : Int32)
    (text : List UInt8) (defvalue : BitVec N) :
    (m.setString elem text).1.asBitset defvalue = parse startpos elem text := rfl

/-- **The text of a metric is read back.** -/
theorem asBitset_setString_asString (hN : N ≤ 2147483648) (m : OvmsMetricBitset N startpos)
    (elem : Int32) :
    (m.setString elem (m.asString [])).1.asBitset 0 = m.asBitset 0 := by
  cases hdefined : m.defined with
  | false =>
    rw [asString, hdefined, if_neg Bool.false_ne_true, asBitset, asBitset, hdefined,
      if_neg Bool.false_ne_true]
    rfl
  | true =>
    have hharmless : Harmless N startpos elem (tokens startpos m.value) := by
      intro before token after heq hint
      have hmem : token ∈ tokens startpos m.value := by
        rw [heq]
        exact List.mem_append_right _ List.mem_cons_self
      obtain ⟨i, -, rfl⟩ := List.mem_map.mp hmem
      exact absurd ⟨_, number_printInt _, position_le startpos i⟩ hint
    rw [asString_eq hdefined, asBitset_setString, asBitset, if_pos hdefined]
    rw [← getlines_intercalate_tokens] at hharmless
    have hexact := (parse_exact_iff hN startpos elem _).mpr hharmless
    rw [getlines_intercalate_tokens] at hexact
    refine BitVec.eq_of_getLsbD_eq fun i hi => Bool.eq_iff_iff.mpr ?_
    exact (hexact i hi).trans (exists_tokens_names_iff hN m.value hi).symm

theorem not_getLsbD_parse (startpos elem : Int32) (text : List UInt8) {i : ℕ} (hi : i < N)
    (hlarge : 2147483648 ≤ i) : (parse startpos elem text : BitVec N).getLsbD i = false := by
  rw [← Bool.not_eq_true, getLsbD_parse startpos elem text hi]
  rintro ⟨before, token, after, -, hcarried⟩
  have hle : (carried startpos elem (before ++ [token])).toInt ≤ 2147483647 := Int32.toInt_le _
  omega

/-- **The text of every metric is read back, and a text sets the bits that its numbers name and no
other ones, if and only if an `int` counts the bits, and every token that is no `int` comes out at
no bit or at one that is named.** -/
theorem text_exact_iff (N : ℕ) (startpos elem : Int32) (text : List UInt8) :
    ((∀ m : OvmsMetricBitset N startpos,
        (m.setString elem (m.asString [])).1.asBitset 0 = m.asBitset 0) ∧
      ∀ m : OvmsMetricBitset N startpos, ∀ i < N,
        ((m.setString elem text).1.value.getLsbD i = true ↔
          ∃ token ∈ getlines text, Names startpos token i)) ↔
      N ≤ 2147483648 ∧ Harmless N startpos elem (getlines text) := by
  constructor
  · rintro ⟨hround, hexact⟩
    have hN : N ≤ 2147483648 := by
      by_contra hlarge
      have hlt : 2147483648 < N := by omega
      -- its last bit is lost
      have hbits := congrArg (·.getLsbD 2147483648)
        (hround ⟨true, .twoPow N 2147483648⟩)
      change (parse startpos elem _ : BitVec N).getLsbD 2147483648 =
        (BitVec.twoPow N 2147483648).getLsbD 2147483648 at hbits
      rw [not_getLsbD_parse startpos elem _ hlt le_rfl, BitVec.getLsbD_twoPow,
        decide_eq_true hlt] at hbits
      simp at hbits
    exact ⟨hN, (parse_exact_iff hN startpos elem text).mp (hexact ⟨false, 0⟩)⟩
  · rintro ⟨hN, hharmless⟩
    exact ⟨fun m => asBitset_setString_asString hN m elem,
      fun m => (parse_exact_iff hN startpos elem text).mpr hharmless⟩

/-- **An empty token sets the bit before that of the token before it**: `5,,7` is read as the
positions 4, 5 and 7. -/
theorem not_text_exact :
    ¬ ∀ (N : ℕ) (startpos elem : Int32) (text : List UInt8) (m : OvmsMetricBitset N startpos),
      ∀ i < N, ((m.setString elem text).1.value.getLsbD i = true ↔
        ∃ token ∈ getlines text, Names startpos token i) := by
  intro h
  have hbit := (h 96 1 0 [0x35, 0x2C, 0x2C, 0x37] ⟨false, 0⟩ 3 (by decide)).mp (by decide)
  obtain ⟨token, hmem, hnames⟩ := hbit
  have hall : ∀ token ∈ getlines [0x35, 0x2C, 0x2C, 0x37], ¬Names 1 token 3 := by
    simp only [Names]
    decide
  exact hall token hmem hnames

end OvmsMetricBitset

end Ovms.Metrics
