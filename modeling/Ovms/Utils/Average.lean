import Mathlib.Algebra.Order.Group.Nat
import Mathlib.Algebra.Ring.Nat
import Mathlib.Data.List.Basic
import Mathlib.Tactic.Ring
import Mathlib.Tactic.SplitIfs

/-!
# Smoothed Averages

`average_util_t` and `average_asym_util_t` (`main/ovms_utils.h`) keep an average of values with
shifts in place of quotients. The first values are averaged over fewer, with a count that is at the
same time the number of bits to shift by. The symmetric average counts up to the logarithm of the
period, the asymmetric one up to the smaller of both periods, in a byte: with a smaller period of
256 or more it starts with a quotient, as if zeros had come before; with a smaller one it shifts by
so many bits that sums overflow that fit with either period.

Sums are computed with the type of the values, or with an `int` where it is smaller than that. A
sum that does not fit has no result here.

## Main results

* `smooth_between`, `rampUp_between`: an average of two values lies between them.
* `averages_bounded_iff`: **the asymmetric average is bounded if and only if the greatest value
  that it may be given can be shifted as far as it counts; the other one always is**.
-/

namespace Ovms.Utils

/-! ### Types and periods -/

/-- The unsigned integer types. -/
inductive UnsignedType
  | uint8 | uint16 | uint32 | uint64
  deriving DecidableEq, Repr

namespace UnsignedType

/-- The bits of a value. -/
def bits : UnsignedType → ℕ
  | uint8 => 8
  | uint16 => 16
  | uint32 => 32
  | uint64 => 64

/-- What sums stay below: those of the smaller types are of type `int`. -/
def limit (T : UnsignedType) : ℕ := if T.bits < 32 then 2 ^ 31 else 2 ^ T.bits

/-- The bits that sums have. -/
def sumBits (T : UnsignedType) : ℕ := max 32 T.bits

/-- A sum. -/
def sum (T : UnsignedType) (x : ℕ) : Option ℕ := if x < T.limit then some x else none

/-- A value, shifted to the left. -/
def shiftLeft (T : UnsignedType) (x n : ℕ) : Option ℕ :=
  if n < T.sumBits then T.sum (x * 2 ^ n) else none

/-- A sum, as a value. -/
def cast (T : UnsignedType) (x : ℕ) : ℕ := x % 2 ^ T.bits

end UnsignedType

/-- `floorlog2`. -/
def floorlog2 (x : ℕ) : ℕ := if x ≤ 1 then 0 else 1 + floorlog2 (x / 2)

/-- A period: the `static_assert` of a power of two, of 32 bits. -/
structure Period where
  value : ℕ
  isPow : ∃ n < 32, value = 2 ^ n

namespace Period

/-- `_BITS`. -/
def bits (N : Period) : ℕ := floorlog2 N.value

/-- `_REST`. -/
def rest (N : Period) (T : UnsignedType) : ℕ := T.cast (N.value - 1)

end Period

/-! ### Averages -/

/-- `((_REST * m_avg) + val) >> _BITS`. -/
def smooth (T : UnsignedType) (N : Period) (avg val : ℕ) : Option ℕ := do
  let rest ← T.sum (N.rest T * avg)
  let sum ← T.sum (rest + val)
  return T.cast (sum / 2 ^ N.bits)

/-- `(((m_avg << m_n) - m_avg) + val) >> m_n`. -/
def rampUp (T : UnsignedType) (n avg val : ℕ) : Option ℕ := do
  let shifted ← T.shiftLeft avg n
  let sum ← T.sum (shifted - avg + val)
  return T.cast (sum / 2 ^ n)

/-- `m_avg` and `m_n`. -/
structure AverageState where
  avg : ℕ
  n : ℕ
  deriving DecidableEq, Repr

/-- The ramp-up of both templates, and the count in a byte. -/
def fill (T : UnsignedType) (s : AverageState) (val : ℕ) : Option AverageState :=
  if s.n = 0 then some ⟨val, (s.n + 1) % 256⟩
  else (rampUp T s.n s.avg val).map fun avg => ⟨avg, (s.n + 1) % 256⟩

/-- An average: its state, `add`, `get`, and `reset`, which is the state it starts in. -/
structure Averager where
  State : Type
  reset : State
  add : State → ℕ → Option State
  get : State → ℕ

/-- `add` of `average_util_t<T, N>`. -/
def addOver (T : UnsignedType) (N : Period) (s : AverageState) (val : ℕ) : Option AverageState :=
  if s.n = N.bits then (smooth T N s.avg val).map fun avg => { s with avg }
  else fill T s val

/-- `average_util_t<T, N>`. -/
def averageOver (T : UnsignedType) (N : Period) : Averager where
  State := AverageState
  reset := ⟨0, 0⟩
  add := addOver T N
  get s := s.avg

/-- `_INVALID`. -/
def invalid (T : UnsignedType) : ℕ := 2 ^ T.bits - 1

/-- `add` of `average_util_t<T, 2>`. -/
def addToTwo (T : UnsignedType) (avg val : ℕ) : Option ℕ :=
  if avg = invalid T then some val
  else (T.sum (val + avg)).map fun sum => T.cast (sum / 2)

/-- `get` of `average_util_t<T, 2>`. -/
def getOfTwo (T : UnsignedType) (avg : ℕ) : ℕ := if avg = invalid T then 0 else avg

/-- `average_util_t<T, 2>`. -/
def averageOfTwo (T : UnsignedType) : Averager where
  State := ℕ
  reset := invalid T
  add := addToTwo T
  get := getOfTwo T

/-- `average_util_t`, with its specialization. -/
def average (T : UnsignedType) (N : Period) : Averager :=
  if N.value = 2 then averageOfTwo T else averageOver T N

/-- `_BITS_FILL`, in a byte. -/
def bitsFill (N M : Period) : ℕ := (if M.value < N.value then M.value else N.value) % 256

/-- `add` of `average_asym_util_t`. -/
def addAsym (T : UnsignedType) (N M : Period) (s : AverageState) (val : ℕ) :
    Option AverageState :=
  if s.n = bitsFill N M then
    if s.avg ≤ val then (smooth T N s.avg val).map fun avg => { s with avg }
    else (smooth T M s.avg val).map fun avg => { s with avg }
  else fill T s val

/-- `average_asym_util_t`. -/
def averageAsym (T : UnsignedType) (N M : Period) : Averager where
  State := AverageState
  reset := ⟨0, 0⟩
  add := addAsym T N M
  get s := s.avg

/-! ### What they are for -/

/-- What is done with an average. -/
inductive AverageOp
  | add (val : ℕ)
  | reset
  deriving DecidableEq, Repr

namespace Averager

/-- A step, with the values that were added since the last reset. -/
def step (A : Averager) (s : A.State × List ℕ) : AverageOp → Option (A.State × List ℕ)
  | .add val => (A.add s.1 val).map fun t => (t, val :: s.2)
  | .reset => some (A.reset, [])

/-- A number lies between the smallest and the greatest of some values. -/
def Between (vals : List ℕ) (x : ℕ) : Prop := (∃ v ∈ vals, v ≤ x) ∧ ∃ v ∈ vals, x ≤ v

/-- Whatever is done, with values that are allowed: nothing overflows, and the average lies
between the values added since the last reset. -/
def Bounded (A : Averager) (allowed : ℕ → Prop) : Prop :=
  ∀ ops : List AverageOp, (∀ v, .add v ∈ ops → allowed v) →
    ∃ s vals, ops.foldlM A.step (A.reset, []) = some (s, vals) ∧
      (vals ≠ [] → Between vals (A.get s))

end Averager

/-- The product of a value and a number fits the type. -/
def Fits (T : UnsignedType) (n v : ℕ) : Prop := v * n < 2 ^ T.bits

/-- The greater period. -/
def longest (N M : Period) : ℕ := max N.value M.value

/-- The greatest value whose product with both periods fits. -/
def greatest (T : UnsignedType) (N M : Period) : ℕ := (2 ^ T.bits - 1) / longest N M

/-- The greatest value can be shifted as far as the ramp-up counts; or there is no ramp-up, and no
value but zero. -/
def Shiftable (T : UnsignedType) (N M : Period) : Prop :=
  bitsFill N M = 0 ∧ greatest T N M = 0 ∨
    bitsFill N M ≠ 0 ∧ bitsFill N M - 1 < T.sumBits ∧
      greatest T N M * 2 ^ (bitsFill N M - 1) < T.limit

instance (T : UnsignedType) (N M : Period) : Decidable (Shiftable T N M) :=
  inferInstanceAs (Decidable (_ ∨ _))

variable {T : UnsignedType} {N M : Period} {avg val n v x : ℕ} {vals : List ℕ}

/-! ### Sums -/

theorem two_pow_bits_le_limit (T : UnsignedType) : 2 ^ T.bits ≤ T.limit := by
  cases T <;> decide

theorem sum_eq (h : x < T.limit) : T.sum x = some x := if_pos h

theorem cast_eq (h : x < 2 ^ T.bits) : T.cast x = x := Nat.mod_eq_of_lt h

/-- The logarithm of a power. -/
theorem floorlog2_two_pow (n : ℕ) : floorlog2 (2 ^ n) = n := by
  induction n with
  | zero => rw [floorlog2, if_pos (by decide)]
  | succ n ih =>
      have hbig : ¬2 ^ (n + 1) ≤ 1 := by
        have := Nat.two_pow_pos n
        rw [pow_succ]
        omega
      rw [floorlog2, if_neg hbig, pow_succ, Nat.mul_div_cancel _ Nat.two_pos, ih, Nat.add_comm]

theorem Period.value_eq (N : Period) : N.value = 2 ^ N.bits := by
  obtain ⟨n, -, hn⟩ := N.isPow
  rw [bits, hn, floorlog2_two_pow]

theorem Period.bits_lt (N : Period) : N.bits < 32 := by
  obtain ⟨n, hlt, hn⟩ := N.isPow
  rwa [bits, hn, floorlog2_two_pow]

theorem Period.value_pos (N : Period) : 0 < N.value := by
  rw [N.value_eq]
  exact Nat.two_pow_pos _

/-! ### Averages of two values -/

/-- A number lies between two others. -/
def Amid (a b x : ℕ) : Prop := (a ≤ x ∨ b ≤ x) ∧ (x ≤ a ∨ x ≤ b)

theorem pred_mul_add (hn : 0 < n) (x : ℕ) : (n - 1) * x + x = x * n := by
  rw [← Nat.succ_mul, Nat.succ_eq_add_one, Nat.sub_add_cancel hn, Nat.mul_comm]

/-- A weighted mean. -/
theorem weighted_amid (hn : 0 < n) (avg val : ℕ) : Amid avg val (((n - 1) * avg + val) / n) := by
  have havg := pred_mul_add hn avg
  have hval := pred_mul_add hn val
  rcases Nat.le_total avg val with hle | hle
  · have hmul : (n - 1) * avg ≤ (n - 1) * val := Nat.mul_le_mul_left _ hle
    refine ⟨.inl ((Nat.le_div_iff_mul_le hn).mpr (by omega)), .inr ?_⟩
    exact Nat.div_le_of_le_mul (by rw [Nat.mul_comm n]; omega)
  · have hmul : (n - 1) * val ≤ (n - 1) * avg := Nat.mul_le_mul_left _ hle
    refine ⟨.inr ((Nat.le_div_iff_mul_le hn).mpr (by omega)), .inl ?_⟩
    exact Nat.div_le_of_le_mul (by rw [Nat.mul_comm n]; omega)

/-- A weighted sum is below what both products are below. -/
theorem weighted_lt {b : ℕ} (hn : 0 < n) (havg : avg * n < b) (hval : val * n < b) :
    (n - 1) * avg + val < b := by
  have havg' := pred_mul_add hn avg
  have hval' := pred_mul_add hn val
  rcases Nat.le_total avg val with hle | hle
  · have hmul : (n - 1) * avg ≤ (n - 1) * val := Nat.mul_le_mul_left _ hle
    omega
  · omega

theorem Amid.lt (h : Amid avg val x) (havg : avg < n) (hval : val < n) : x < n := by
  rcases h.2 with hle | hle
  · exact Nat.lt_of_le_of_lt hle havg
  · exact Nat.lt_of_le_of_lt hle hval

theorem Fits.lt (h : Fits T n v) (hn : 0 < n) : v < 2 ^ T.bits :=
  Nat.lt_of_le_of_lt (Nat.le_mul_of_pos_right v hn) h

/-- **A smoothed average lies between the average and the value**, where both products fit. -/
theorem smooth_between (havg : Fits T N.value avg) (hval : Fits T N.value val) :
    ∃ r, smooth T N avg val = some r ∧ Amid avg val r := by
  have hpos := N.value_pos
  have hamid := weighted_amid hpos avg val
  have hlimit := two_pow_bits_le_limit T
  -- the rest of the period fits too, unless there are only zeros
  have hrest : N.rest T * avg = (N.value - 1) * avg := by
    rcases Nat.lt_or_ge (N.value - 1) (2 ^ T.bits) with hlt | hge
    · rw [Period.rest, cast_eq hlt]
    · have hzero : avg = 0 := by
        by_contra hne
        have := Nat.mul_le_mul_right N.value (Nat.pos_of_ne_zero hne)
        rw [Fits] at havg
        omega
      rw [hzero, Nat.mul_zero, Nat.mul_zero]
  have hsum := weighted_lt hpos havg hval
  refine ⟨_, ?_, hamid⟩
  rw [smooth, hrest, sum_eq (by omega), Option.bind_eq_bind, Option.bind_some, sum_eq (by omega),
    Option.bind_some, ← N.value_eq, cast_eq (hamid.lt (havg.lt hpos) (hval.lt hpos))]
  rfl

/-- **So does an average of the ramp-up**, where both can be shifted. -/
theorem rampUp_between (hn : n < T.sumBits) (havg : avg < 2 ^ T.bits) (hval : val < 2 ^ T.bits)
    (havg' : avg * 2 ^ n < T.limit) (hval' : val * 2 ^ n < T.limit) :
    ∃ r, rampUp T n avg val = some r ∧ Amid avg val r := by
  have hpos := Nat.two_pow_pos n
  have hamid := weighted_amid hpos avg val
  have hsum := weighted_lt hpos havg' hval'
  refine ⟨_, ?_, hamid⟩
  rw [rampUp, UnsignedType.shiftLeft, if_pos hn, sum_eq havg', Option.bind_eq_bind,
    Option.bind_some, Nat.mul_comm avg, ← Nat.sub_one_mul, sum_eq hsum, Option.bind_some,
    cast_eq (hamid.lt havg hval)]
  rfl

/-! ### Runs -/

namespace Averager

variable {A : Averager} {allowed : ℕ → Prop}

/-- What lies between an average and a value lies between the values, that one included. -/
theorem Between.amid (h : Between vals avg) (hx : Amid avg val x) : Between (val :: vals) x := by
  obtain ⟨⟨v, hv, hle⟩, w, hw, hge⟩ := h
  constructor
  · rcases hx.1 with hx | hx
    · exact ⟨v, List.mem_cons_of_mem _ hv, hle.trans hx⟩
    · exact ⟨val, List.mem_cons_self, hx⟩
  · rcases hx.2 with hx | hx
    · exact ⟨w, List.mem_cons_of_mem _ hw, hx.trans hge⟩
    · exact ⟨val, List.mem_cons_self, hx⟩

theorem between_self (val : ℕ) (vals : List ℕ) : Between (val :: vals) val :=
  ⟨⟨val, List.mem_cons_self, le_rfl⟩, val, List.mem_cons_self, le_rfl⟩

/-- **An invariant of the averages**, and of the values added since the last reset: what each value
that is allowed keeps holds all the way. -/
theorem bounded_of_invariant (I : A.State → List ℕ → Prop) (hreset : I A.reset [])
    (hadd : ∀ s vals val, I s vals → allowed val →
      ∃ t, A.add s val = some t ∧ I t (val :: vals))
    (hget : ∀ s vals, I s vals → vals ≠ [] → Between vals (A.get s)) : A.Bounded allowed := by
  have hrun : ∀ (ops : List AverageOp) (s : A.State) (vals : List ℕ), I s vals →
      (∀ v, .add v ∈ ops → allowed v) →
        ∃ s' vals', ops.foldlM A.step (s, vals) = some (s', vals') ∧ I s' vals' := by
    intro ops
    induction ops with
    | nil => exact fun s vals hI _ => ⟨s, vals, rfl, hI⟩
    | cons op ops ih =>
        intro s vals hI hallowed
        have hrest : ∀ v, .add v ∈ ops → allowed v := fun v hv =>
          hallowed v (List.mem_cons_of_mem _ hv)
        cases op with
        | reset => exact ih A.reset [] hreset hrest
        | add val =>
            obtain ⟨t, ht, hI'⟩ := hadd s vals val hI (hallowed val List.mem_cons_self)
            obtain ⟨s', vals', hs', hI''⟩ := ih t (val :: vals) hI' hrest
            refine ⟨s', vals', ?_, hI''⟩
            rw [List.foldlM_cons, step, ht, Option.map_some, Option.bind_eq_bind,
              Option.bind_some, hs']
  intro ops hallowed
  obtain ⟨s, vals, hs, hI⟩ := hrun ops A.reset [] hreset hallowed
  exact ⟨s, vals, hs, hget s vals hI⟩

/-- One value, added again and again. -/
def again {σ : Type} (add : σ → ℕ → Option σ) (s : σ) (v : ℕ) : ℕ → Option σ
  | 0 => some s
  | n + 1 => (again add s v n).bind (add · v)

/-- It is the only one of the run. -/
theorem foldlM_replicate (A : Averager) (v n : ℕ) :
    (List.replicate n (AverageOp.add v)).foldlM A.step (A.reset, []) =
      (again A.add A.reset v n).map fun s => (s, List.replicate n v) := by
  induction n with
  | zero => rfl
  | succ n ih =>
      rw [List.replicate_succ', List.foldlM_append, ih, again, Option.bind_eq_bind]
      cases again A.add A.reset v n with
      | none => rfl
      | some s =>
          rw [Option.map_some, Option.bind_some, Option.bind_some]
          change (A.step _ _).bind some = _
          rw [Option.bind_fun_some, step, List.replicate_succ]

/-- So it is the average. -/
theorem Bounded.again (h : A.Bounded allowed) (hv : allowed v) (n : ℕ) :
    ∃ s, again A.add A.reset v n = some s ∧ (n ≠ 0 → A.get s = v) := by
  obtain ⟨s, vals, hs, hbetween⟩ := h (List.replicate n (.add v)) fun w hw => by
    rw [List.mem_replicate, AverageOp.add.injEq] at hw
    rwa [hw.2]
  rw [foldlM_replicate, Option.map_eq_some_iff] at hs
  obtain ⟨s', hs', heq⟩ := hs
  obtain ⟨rfl, rfl⟩ := Prod.mk.inj heq
  refine ⟨s', hs', fun hn => ?_⟩
  obtain ⟨⟨w, hw, hle⟩, u, hu, hge⟩ := hbetween (by rwa [ne_eq, List.replicate_eq_nil_iff])
  rw [List.eq_of_mem_replicate hw] at hle
  rw [List.eq_of_mem_replicate hu] at hge
  exact Nat.le_antisymm hge hle

end Averager

/-! ### The averages -/

open Averager

/-- What holds of an average: how far it has counted, and where it lies. -/
structure Kept (T : UnsignedType) (m last : ℕ) (s : AverageState) (vals : List ℕ) : Prop where
  n_le : s.n ≤ last
  fits : ∀ v ∈ vals, Fits T m v
  empty : vals = [] → s = ⟨0, 0⟩
  between : vals ≠ [] → Between vals s.avg

namespace Kept

variable {m last : ℕ} {s : AverageState}

theorem reset (T : UnsignedType) (m last : ℕ) : Kept T m last ⟨0, 0⟩ [] :=
  ⟨Nat.zero_le _, List.forall_mem_nil _, fun _ => rfl, fun h => absurd rfl h⟩

theorem fits_avg (h : Kept T m last s vals) (hne : vals ≠ []) : Fits T m s.avg := by
  obtain ⟨-, v, hv, hle⟩ := h.between hne
  exact Nat.lt_of_le_of_lt (Nat.mul_le_mul_right m hle) (h.fits v hv)

theorem ne_nil (h : Kept T m last s vals) (hn : s.n ≠ 0) : vals ≠ [] := fun hnil => by
  rw [h.empty hnil] at hn
  exact hn rfl

theorem cons (h : Kept T m last s vals) (hval : Fits T m val) {t : AverageState}
    (ht : t.n ≤ last) (hbetween : Between (val :: vals) t.avg) : Kept T m last t (val :: vals) :=
  ⟨ht, List.forall_mem_cons.mpr ⟨hval, h.fits⟩, fun hnil => (nomatch hnil), fun _ => hbetween⟩

theorem smooth (h : Kept T m last s vals) (hne : vals ≠ []) (hval : Fits T m val)
    (hN : N.value ≤ m) :
    ∃ r, Utils.smooth T N s.avg val = some r ∧ Kept T m last { s with avg := r } (val :: vals) := by
  have hle {v : ℕ} (hv : Fits T m v) : Fits T N.value v :=
    Nat.lt_of_le_of_lt (Nat.mul_le_mul_left v hN) hv
  obtain ⟨r, hr, hamid⟩ := smooth_between (hle (h.fits_avg hne)) (hle hval)
  exact ⟨r, hr, h.cons hval h.n_le ((h.between hne).amid hamid)⟩

/-- An average of the ramp-up, where the values can be shifted as far as it counts. -/
theorem fill (h : Kept T m last s vals) (hval : Fits T m val) (hlt : s.n < last)
    (hlast : last < 256) (hm : 0 < m) (hbits : last - 1 < T.sumBits)
    (hshift : ∀ v, Fits T m v → v * 2 ^ (last - 1) < T.limit) :
    ∃ t, Utils.fill T s val = some t ∧ Kept T m last t (val :: vals) := by
  have hcount : (s.n + 1) % 256 ≤ last := by omega
  rw [Utils.fill]
  by_cases hn : s.n = 0
  · rw [if_pos hn]
    exact ⟨_, rfl, h.cons hval hcount (between_self val vals)⟩
  · have hne := h.ne_nil hn
    have hshifted {v : ℕ} (hv : Fits T m v) : v * 2 ^ s.n < T.limit :=
      Nat.lt_of_le_of_lt (Nat.mul_le_mul_left v (Nat.pow_le_pow_right Nat.two_pos (by omega)))
        (hshift v hv)
    obtain ⟨r, hr, hamid⟩ := rampUp_between (by omega) ((h.fits_avg hne).lt hm) (hval.lt hm)
      (hshifted (h.fits_avg hne)) (hshifted hval)
    rw [if_neg hn, hr]
    exact ⟨_, rfl, h.cons hval hcount ((h.between hne).amid hamid)⟩

end Kept

/-- A period of one is no average. -/
theorem smooth_one (hN : N.bits = 0) (avg : ℕ) (hval : val < 2 ^ T.bits) :
    smooth T N avg val = some val := by
  have hvalue : N.value = 1 := by rw [N.value_eq, hN, pow_zero]
  have hrest : N.rest T = 0 := by rw [Period.rest, hvalue]; exact Nat.zero_mod _
  have hlimit := two_pow_bits_le_limit T
  rw [smooth, hrest, Nat.zero_mul, sum_eq (by omega), Option.bind_eq_bind, Option.bind_some,
    Nat.zero_add, sum_eq (by omega), Option.bind_some, hN, pow_zero, Nat.div_one, cast_eq hval]
  rfl

/-- The symmetric average, in general. -/
theorem averageOver_bounded (T : UnsignedType) (N : Period) :
    (averageOver T N).Bounded (Fits T N.value) := by
  have hpos := N.value_pos
  have hlt := N.bits_lt
  refine bounded_of_invariant (Kept T N.value N.bits) (Kept.reset _ _ _) ?_
    fun s vals h => h.between
  intro (s : AverageState) vals val h hval
  change ∃ t, addOver T N s val = some t ∧ Kept T N.value N.bits t (val :: vals)
  rw [addOver]
  by_cases hn : s.n = N.bits
  · rw [if_pos hn]
    by_cases hne : vals = []
    · have hzero : N.bits = 0 := by rw [← hn, h.empty hne]
      rw [smooth_one hzero s.avg (hval.lt hpos)]
      exact ⟨_, rfl, h.cons hval h.n_le (between_self val vals)⟩
    · obtain ⟨r, hr, hkept⟩ := h.smooth hne hval le_rfl
      rw [hr]
      exact ⟨_, rfl, hkept⟩
  · rw [if_neg hn]
    have hsum : 32 ≤ T.sumBits := le_max_left _ _
    have hlast := h.n_le
    refine h.fill hval (by omega) (by omega) hpos (by omega) fun v hv => ?_
    have hle : v * 2 ^ (N.bits - 1) ≤ v * N.value := by
      rw [N.value_eq]
      exact Nat.mul_le_mul_left v (Nat.pow_le_pow_right Nat.two_pos (Nat.sub_le _ _))
    exact Nat.lt_of_lt_of_le (Nat.lt_of_le_of_lt hle hv) (two_pow_bits_le_limit T)

/-- What holds of the average over two, with its mark for no values. -/
structure KeptTwo (T : UnsignedType) (avg : ℕ) (vals : List ℕ) : Prop where
  fits : ∀ v ∈ vals, Fits T 2 v
  empty : vals = [] → avg = invalid T
  between : vals ≠ [] → avg ≠ invalid T ∧ Between vals avg

namespace KeptTwo

theorem cons (h : KeptTwo T avg vals) (hval : Fits T 2 val) (hx : Between (val :: vals) x) :
    KeptTwo T x (val :: vals) := by
  have hfits : ∀ v ∈ val :: vals, Fits T 2 v := List.forall_mem_cons.mpr ⟨hval, h.fits⟩
  refine ⟨hfits, fun hnil => (nomatch hnil), fun _ => ⟨?_, hx⟩⟩
  -- a value that fits twice is not the mark
  obtain ⟨-, w, hw, hge⟩ := hx
  have hbits : 4 ≤ 2 ^ T.bits := by cases T <;> decide
  have hfit := hfits w hw
  rw [Fits] at hfit
  rw [invalid]
  omega

theorem add (h : KeptTwo T avg vals) (hval : Fits T 2 val) :
    ∃ r, addToTwo T avg val = some r ∧ KeptTwo T r (val :: vals) := by
  rw [addToTwo]
  by_cases hmark : avg = invalid T
  · rw [if_pos hmark]
    exact ⟨val, rfl, h.cons hval (between_self val vals)⟩
  · obtain ⟨-, hold⟩ := h.between fun hnil => hmark (h.empty hnil)
    have havg : avg * 2 < 2 ^ T.bits := by
      obtain ⟨-, w, hw, hge⟩ := hold
      exact Nat.lt_of_le_of_lt (Nat.mul_le_mul_right 2 hge) (h.fits w hw)
    have hval' : val * 2 < 2 ^ T.bits := hval
    have hlimit := two_pow_bits_le_limit T
    have hamid := weighted_amid Nat.two_pos avg val
    rw [Nat.add_one_sub_one, Nat.one_mul, Nat.add_comm] at hamid
    rw [if_neg hmark, sum_eq (by omega), Option.map_some, cast_eq (by omega)]
    exact ⟨_, rfl, h.cons hval (hold.amid hamid)⟩

end KeptTwo

theorem averageOfTwo_bounded (T : UnsignedType) : (averageOfTwo T).Bounded (Fits T 2) := by
  refine bounded_of_invariant (KeptTwo T)
    ⟨List.forall_mem_nil _, fun _ => rfl, fun h => absurd rfl h⟩ (fun _ _ _ h => h.add) ?_
  intro avg vals h hvals
  obtain ⟨hmark, hold⟩ := h.between hvals
  rw [show (averageOfTwo T).get avg = avg from if_neg hmark]
  exact hold

/-- **The symmetric average is bounded.** -/
theorem average_bounded (T : UnsignedType) (N : Period) :
    (average T N).Bounded (Fits T N.value) := by
  rw [average]
  split_ifs with hN
  · rw [hN]
    exact averageOfTwo_bounded T
  · exact averageOver_bounded T N

/-! ### The asymmetric average -/

theorem fits_iff_le_greatest : Fits T (longest N M) v ↔ v ≤ greatest T N M := by
  have hpos : 0 < longest N M := Nat.lt_of_lt_of_le N.value_pos (le_max_left _ _)
  have hbits := Nat.two_pow_pos T.bits
  rw [Fits, greatest, Nat.le_div_iff_mul_le hpos]
  omega

theorem bitsFill_lt (N M : Period) : bitsFill N M < 256 := Nat.mod_lt _ (by decide)

/-- Where the ramp-up does not overflow, the average is bounded. -/
theorem averageAsym_bounded (h : Shiftable T N M) :
    (averageAsym T N M).Bounded (Fits T (longest N M)) := by
  have hN : N.value ≤ longest N M := le_max_left _ _
  have hM : M.value ≤ longest N M := le_max_right _ _
  have hpos : 0 < longest N M := Nat.lt_of_lt_of_le N.value_pos hN
  rcases h with ⟨hfill, hgreatest⟩ | ⟨hfill, hbits, hshift⟩
  · -- only zeros are added
    have hzero {v : ℕ} (hv : Fits T (longest N M) v) : v = 0 :=
      Nat.le_zero.mp (hgreatest ▸ fits_iff_le_greatest.mp hv)
    refine bounded_of_invariant (fun s vals => s = ⟨0, 0⟩ ∧ ∀ v ∈ vals, v = 0)
      ⟨rfl, List.forall_mem_nil _⟩ ?_ ?_
    · rintro s vals val ⟨rfl, hvals⟩ hval
      have hfits : Fits T N.value 0 := by
        rw [Fits, Nat.zero_mul]
        exact Nat.two_pow_pos _
      obtain rfl := hzero hval
      obtain ⟨r, hr, hamid⟩ := smooth_between hfits hfits
      obtain rfl : r = 0 := Nat.le_zero.mp (hamid.2.elim id id)
      change ∃ t, addAsym T N M ⟨0, 0⟩ 0 = some t ∧ t = ⟨0, 0⟩ ∧ ∀ v ∈ 0 :: vals, v = 0
      rw [addAsym, if_pos hfill.symm, if_pos le_rfl, hr]
      exact ⟨_, rfl, rfl, List.forall_mem_cons.mpr ⟨rfl, hvals⟩⟩
    · rintro s vals ⟨rfl, hvals⟩ hne
      obtain ⟨v, hv⟩ := List.exists_mem_of_ne_nil vals hne
      exact ⟨⟨v, hv, (hvals v hv).le⟩, v, hv, (hvals v hv).ge⟩
  · refine bounded_of_invariant (Kept T (longest N M) (bitsFill N M)) (Kept.reset _ _ _) ?_
      fun s vals h => h.between
    intro (s : AverageState) vals val h hval
    change ∃ t, addAsym T N M s val = some t ∧
      Kept T (longest N M) (bitsFill N M) t (val :: vals)
    rw [addAsym]
    by_cases hn : s.n = bitsFill N M
    · have hne := h.ne_nil (by rwa [hn])
      rw [if_pos hn]
      split_ifs
      · obtain ⟨r, hr, hkept⟩ := h.smooth hne hval hN
        rw [hr]
        exact ⟨_, rfl, hkept⟩
      · obtain ⟨r, hr, hkept⟩ := h.smooth hne hval hM
        rw [hr]
        exact ⟨_, rfl, hkept⟩
    · rw [if_neg hn]
      have hlast := h.n_le
      refine h.fill hval (by omega) (bitsFill_lt N M) hpos hbits fun v hv => ?_
      exact Nat.lt_of_le_of_lt (Nat.mul_le_mul_right _ (fits_iff_le_greatest.mp hv)) hshift

theorem smooth_zero (hval : val < 2 ^ T.bits) : smooth T N 0 val = some (val / N.value) := by
  have hlimit := two_pow_bits_le_limit T
  rw [smooth, Nat.mul_zero, sum_eq (Nat.lt_of_lt_of_le (Nat.two_pow_pos _) hlimit),
    Option.bind_eq_bind, Option.bind_some, Nat.zero_add, sum_eq (Nat.lt_of_lt_of_le hval hlimit),
    Option.bind_some, ← N.value_eq, cast_eq (Nat.lt_of_le_of_lt (Nat.div_le_self _ _) hval)]
  rfl

theorem n_of_fill {s t : AverageState} (h : fill T s val = some t) : t.n = (s.n + 1) % 256 := by
  rw [fill] at h
  split_ifs at h
  · exact (congrArg AverageState.n (Option.some.inj h)).symm
  · obtain ⟨avg, -, rfl⟩ := Option.map_eq_some_iff.mp h
    rfl

/-- The states of the ramp-up, with one value again and again. -/
theorem again_addAsym {allowed : ℕ → Prop} (h : (averageAsym T N M).Bounded allowed)
    (hv : allowed v) : ∀ k ≤ bitsFill N M, ∃ s,
      again (addAsym T N M) ⟨0, 0⟩ v k = some s ∧ s.n = k ∧ (k ≠ 0 → s.avg = v) := by
  intro k
  induction k with
  | zero => exact fun _ => ⟨⟨0, 0⟩, rfl, rfl, fun hne => absurd rfl hne⟩
  | succ k ih =>
      intro hk
      have hlt := bitsFill_lt N M
      obtain ⟨s, hs, hn, -⟩ := ih (by omega)
      obtain ⟨t, ht, hget⟩ : ∃ t, again (addAsym T N M) ⟨0, 0⟩ v (k + 1) = some t ∧
          (k + 1 ≠ 0 → t.avg = v) := h.again hv (k + 1)
      have hfill := ht
      rw [again, hs, Option.bind_some, addAsym, if_neg (by omega)] at hfill
      exact ⟨t, ht, by rw [n_of_fill hfill, hn, Nat.mod_eq_of_lt (by omega)], hget⟩

theorem fits_of_rampUp (h : (rampUp T n avg val).isSome) :
    n < T.sumBits ∧ avg * 2 ^ n < T.limit := by
  rw [rampUp, UnsignedType.shiftLeft, UnsignedType.sum] at h
  split_ifs at h with hbits hlimit
  · exact ⟨hbits, hlimit⟩
  · cases h
  · cases h

/-- Where the average is bounded, the ramp-up does not overflow. -/
theorem shiftable_of_bounded (h : (averageAsym T N M).Bounded (Fits T (longest N M))) :
    Shiftable T N M := by
  have hv : Fits T (longest N M) (greatest T N M) := fits_iff_le_greatest.mpr le_rfl
  have hpos : 0 < longest N M := Nat.lt_of_lt_of_le N.value_pos (le_max_left _ _)
  by_cases hfill : bitsFill N M = 0
  · refine .inl ⟨hfill, ?_⟩
    by_contra hne
    -- the first value is divided by the period
    obtain ⟨t, ht, hget⟩ : ∃ t, again (addAsym T N M) ⟨0, 0⟩ (greatest T N M) 1 = some t ∧
        (1 ≠ 0 → t.avg = greatest T N M) := h.again hv 1
    rw [again, again, Option.bind_some, addAsym, if_pos hfill.symm, if_pos (Nat.zero_le _),
      smooth_zero (hv.lt hpos), Option.map_some] at ht
    have havg := hget one_ne_zero
    rw [← Option.some.inj ht] at havg
    have hperiod : 1 < N.value := by
      rw [bitsFill] at hfill
      have := N.value_pos
      have := M.value_pos
      split_ifs at hfill <;> omega
    exact absurd havg (Nat.div_lt_self (Nat.pos_of_ne_zero hne) hperiod).ne
  · refine .inr ⟨hfill, ?_⟩
    by_cases hone : bitsFill N M = 1
    · rw [hone, Nat.sub_self, pow_zero, Nat.mul_one]
      exact ⟨Nat.lt_of_lt_of_le (by decide) (le_max_left _ _),
        Nat.lt_of_lt_of_le (hv.lt hpos) (two_pow_bits_le_limit T)⟩
    · -- the last value of the ramp-up is shifted
      obtain ⟨k, hk⟩ : ∃ k, bitsFill N M = k + 1 := ⟨bitsFill N M - 1, by omega⟩
      obtain ⟨s, hs, hn, havg⟩ := again_addAsym h hv k (by omega)
      obtain ⟨t, ht, -⟩ := again_addAsym h hv (k + 1) (by omega)
      rw [again, hs, Option.bind_some, addAsym, if_neg (by omega), fill, if_neg (by omega), hn,
        havg (by omega)] at ht
      obtain ⟨r, hr, -⟩ := Option.map_eq_some_iff.mp ht
      rw [hk, Nat.add_sub_cancel]
      exact fits_of_rampUp (Option.isSome_iff_exists.mpr ⟨r, hr⟩)

/-! ### Both -/

/-- **Averages lie between their values.** The symmetric one always does, and its sums never
overflow. The asymmetric one does if and only if the greatest value that it may be given can be
shifted as far as the ramp-up counts; or if the count does not fit its byte, and zero is the only
value. -/
theorem averages_bounded_iff (T : UnsignedType) (N M : Period) :
    (average T N).Bounded (Fits T N.value) ∧
      ((averageAsym T N M).Bounded (Fits T (longest N M)) ↔ Shiftable T N M) :=
  ⟨average_bounded T N, shiftable_of_bounded, averageAsym_bounded⟩

/-- The number two, 32 times, with the periods 128 and 32: the last shift is by 31 bits. -/
theorem not_averages_bounded :
    ¬∀ (T : UnsignedType) (N M : Period), (average T N).Bounded (Fits T N.value) ∧
      (averageAsym T N M).Bounded (Fits T (longest N M)) := by
  intro hall
  let N : Period := ⟨128, 7, by decide, rfl⟩
  let M : Period := ⟨32, 5, by decide, rfl⟩
  have hfits : Fits .uint32 (longest N M) 2 := by
    change 2 * max 128 32 < 2 ^ 32
    decide
  have hnone : again (addAsym .uint32 N M) ⟨0, 0⟩ 2 32 = none := by rfl
  obtain ⟨s, hs, -⟩ : ∃ s, again (addAsym .uint32 N M) ⟨0, 0⟩ 2 32 = some s ∧
      (32 ≠ 0 → s.avg = 2) := (hall .uint32 N M).2.again hfits 32
  rw [hnone] at hs
  cases hs

end Ovms.Utils
