import Ovms.Metrics.Persist

/-!
# Persistent Metrics of 64 Bits

`OvmsMetricInt64` (`main/ovms_metrics.cpp`): a value of 64 bits that is kept in two words of
the persistent storage, the low part under the name of the metric, the high part under the
name with `_hi` behind it. The low part is cut out with a mask of 16 bits, so that the bits
from 16 to 31 are lost (`partsValue_getValueParts_iff`).

What `m_value` holds before the constructor reads the words is not specified; it is a
parameter. The conversion of units goes over `float` and is a parameter, too.
-/

namespace Ovms.Metrics

/-! ### The parts of a value -/

/-- `OvmsMetricInt64::GetValueParts`: the low and the high part. -/
def getValueParts (value : Int64) : UInt32 × UInt32 :=
  ((value &&& 0xffff).toUInt64.toUInt32, (value >>> 32).toUInt64.toUInt32)

/-- The value that `OvmsMetricInt64::SetValueParts` puts together; the low part is extended
with its sign. -/
def partsValue (low hi : UInt32) : Int64 :=
  low.toInt32.toInt64 ||| (hi.toUInt64.toInt64 <<< 32)

/-- The bits of a value from 16 to 31. -/
def middleBits (value : Int64) : UInt16 := (value >>> 16).toUInt64.toUInt16

theorem getLsbD_mask (i : ℕ) : (0xffff#64).getLsbD i = decide (i < 16) := by
  have h : (0xffff#64) = BitVec.ofNat 64 (2 ^ 16 - 1) := rfl
  rw [h, BitVec.getLsbD_ofNat, Nat.testBit_two_pow_sub_one]
  by_cases hi : i < 16
  · have h64 : i < 64 := by omega
    rw [decide_eq_true hi, decide_eq_true h64, Bool.and_self]
  · rw [decide_eq_false hi, Bool.and_false]

/-- The low part extended: its sign bit is always clear. -/
theorem getLsbD_low (b : BitVec 64) {i : ℕ} (hi : i < 64) :
    (((b &&& 0xffff#64).setWidth 32).signExtend 64).getLsbD i =
      (b.getLsbD i && decide (i < 16)) := by
  have hsign : ((b &&& 0xffff#64).setWidth 32).msb = false := by
    rw [BitVec.msb_eq_getLsbD_last, BitVec.getLsbD_setWidth, BitVec.getLsbD_and, getLsbD_mask]
    simp
  rw [BitVec.getLsbD_signExtend, BitVec.getLsbD_setWidth, BitVec.getLsbD_and, getLsbD_mask,
    hsign]
  rcases Nat.lt_or_ge i 16 with h | h
  · have h32 : i < 32 := by omega
    simp [h, h32, hi]
  · simp [hi, Nat.not_lt.mpr h]

/-- The high part moved back to its place. -/
theorem getLsbD_high (b : BitVec 64) {i : ℕ} (hi : i < 64) :
    (((b.sshiftRight 32).setWidth 32).setWidth 64 <<< 32).getLsbD i =
      (b.getLsbD i && decide (32 ≤ i)) := by
  rw [BitVec.getLsbD_shiftLeft, BitVec.getLsbD_setWidth, BitVec.getLsbD_setWidth,
    BitVec.getLsbD_sshiftRight]
  rcases Nat.lt_or_ge i 32 with h | h
  · simp [h, Nat.not_le.mpr h]
  · have h32 : i - 32 < 32 := by omega
    have hlt : i - 32 < 64 := by omega
    have hle : ¬ 64 ≤ i - 32 := by omega
    have hback : 32 + (i - 32) = i := by omega
    simp [h, hi, h32, hlt, hle, hback, Nat.not_lt.mpr h]

/-- **What is put together again**: all bits but those from 16 to 31, which are clear. -/
theorem getLsbD_partsValue_getValueParts (value : Int64) {i : ℕ} (hi : i < 64) :
    (partsValue (getValueParts value).1 (getValueParts value).2).toBitVec.getLsbD i =
      (value.toBitVec.getLsbD i && (decide (i < 16) || decide (32 ≤ i))) := by
  have hb : (partsValue (getValueParts value).1 (getValueParts value).2).toBitVec =
      ((value.toBitVec &&& 0xffff#64).setWidth 32).signExtend 64 |||
        ((value.toBitVec.sshiftRight 32).setWidth 32).setWidth 64 <<< 32 := rfl
  rw [hb, BitVec.getLsbD_or, getLsbD_low _ hi, getLsbD_high _ hi, Bool.and_or_distrib_left]

theorem getLsbD_middleBits (value : Int64) {i : ℕ} (hi : i < 16) :
    (middleBits value).toBitVec.getLsbD i = value.toBitVec.getLsbD (16 + i) := by
  have hb : (middleBits value).toBitVec = (value.toBitVec.sshiftRight 16).setWidth 16 := rfl
  have h64 : ¬ 64 ≤ i := by omega
  have h : 16 + i < 64 := by omega
  rw [hb, BitVec.getLsbD_setWidth, BitVec.getLsbD_sshiftRight]
  simp [hi, h64, h]

/-- **A value survives being split** just if its bits from 16 to 31 are clear. -/
theorem partsValue_getValueParts_iff (value : Int64) :
    partsValue (getValueParts value).1 (getValueParts value).2 = value ↔
      middleBits value = 0 := by
  constructor
  · intro h
    apply UInt16.toBitVec_inj.mp
    apply BitVec.eq_of_getLsbD_eq
    intro i hi
    have hbit := getLsbD_partsValue_getValueParts value (show 16 + i < 64 by omega)
    have h16 : ¬ 16 + i < 16 := by omega
    have h32 : ¬ 32 ≤ 16 + i := by omega
    rw [h, decide_eq_false h16, decide_eq_false h32, Bool.or_self, Bool.and_false] at hbit
    rw [getLsbD_middleBits value hi, hbit]
    exact BitVec.getLsbD_zero.symm
  · intro h
    apply Int64.toBitVec_inj.mp
    apply BitVec.eq_of_getLsbD_eq
    intro i hi
    rw [getLsbD_partsValue_getValueParts value hi]
    rcases Nat.lt_or_ge i 16 with h16 | h16
    · rw [decide_eq_true h16, Bool.true_or, Bool.and_true]
    · rcases Nat.lt_or_ge i 32 with h32 | h32
      · have hbit := getLsbD_middleBits value (show i - 16 < 16 by omega)
        rw [h, Nat.add_sub_cancel' h16] at hbit
        rw [← hbit]
        simp
      · rw [decide_eq_true h32, Bool.or_true, Bool.and_true]

/-! ### The metric -/

/-- `OvmsMetricInt64`, with what it has from `OvmsMetric64` and `OvmsMetric`. -/
structure OvmsMetricInt64 where
  name : Name
  units : MetricUnit
  defined : MetricDefined
  persist : Bool
  valuepLo : Option Pointer
  valuepHi : Option Pointer
  value : Int64
  deriving DecidableEq, Repr

/-- The name of the high part: `_hi` behind the name. -/
def hiName (name : Name) : Name := name ++ [0x5F, 0x68, 0x69]

namespace OvmsMetricInt64

/-- `OvmsMetricInt64::SetValueParts`: whether the value changed, and the metric. -/
def setValueParts (m : OvmsMetricInt64) (low hi : UInt32) : Bool × OvmsMetricInt64 :=
  let newval := partsValue low hi
  if newval = m.value then (false, m) else (true, { m with value := newval })

variable (hash : Name → UInt32)

/-- The part of `OvmsMetric64::InitPersist` where both parts have their slots: the pointers
set, and the value taken from the words. -/
def attach (m : OvmsMetricInt64) (s : Persist) (lo hi : Pointer) : OvmsMetricInt64 :=
  let r := { m with valuepHi := some hi, valuepLo := some lo }.setValueParts
    (s.pmetrics.word lo) (s.pmetrics.word hi)
  if r.1 then { r.2 with defined := r.2.defined.setModified } else r.2

/-- `OvmsMetric64::InitPersist`. -/
def initPersist (m : OvmsMetricInt64) (s : Persist) : OvmsMetricInt64 × Persist :=
  if m.persist then
    let hi := pmetricsRegister hash s (hiName m.name)
    let lo := pmetricsRegister hash hi.2 m.name
    match hi.1, lo.1 with
    | some hiVp, some loVp => (m.attach lo.2 loVp hiVp, lo.2)
    | _, _ => ({ m with persist := false }, lo.2)
  else (m, s)

/-- The metric before `InitPersist`, with whatever value it has then. -/
def blank (name : Name) (units : MetricUnit) (persist : Bool) (garbage : Int64) :
    OvmsMetricInt64 where
  name := name
  units := units
  defined := .neverDefined
  persist := persist
  valuepLo := none
  valuepHi := none
  value := garbage

/-- The constructor. -/
def new (s : Persist) (name : Name) (units : MetricUnit) (persist : Bool) (garbage : Int64) :
    OvmsMetricInt64 × Persist :=
  (blank name units persist garbage).initPersist hash s

/-- `OvmsMetric64::CheckPersist`. -/
def checkPersist (m : OvmsMetricInt64) (s : Persist) : Bool :=
  match m.persist, m.valuepLo, m.valuepHi, m.defined.isDefined with
  | true, some lo, some hi, true =>
      decide (getValueParts m.value = (s.pmetrics.word lo, s.pmetrics.word hi)) &&
        decide (pmetricsFind hash s.pmetrics (hiName m.name) = some hi) &&
        decide (pmetricsFind hash s.pmetrics m.name = some lo)
  | _, _, _, _ => true

variable (unitConvert : MetricUnit → MetricUnit → Int64 → Int64)

/-- The value that is set: the one given, in the units of the metric. -/
def nvalue (units : MetricUnit) (call : Int64 × MetricUnit) : Int64 :=
  if call.2 ≠ units then
    if call.2 = .other ∨ call.2 = .dateUTC ∨ call.2 = .dateLocal then call.1
    else unitConvert call.2 units call.1
  else call.1

/-- The parts of the value written to their words, if there are any. -/
def writeParts (s : Persist) (m : OvmsMetricInt64) : Persist :=
  if m.persist then
    match m.valuepHi, m.valuepLo with
    | some hi, some lo =>
        (s.write lo (getValueParts m.value).1).write hi (getValueParts m.value).2
    | _, _ => s
  else s

/-- `OvmsMetricInt64::SetValue`. -/
def setValue (p : OvmsMetricInt64 × Persist) (call : Int64 × MetricUnit) :
    OvmsMetricInt64 × Persist :=
  let m := p.1
  let value := nvalue unitConvert m.units call
  if m.value ≠ value then
    let m := { m with value := value, defined := m.defined.setModified }
    (m, writeParts p.2 m)
  else ({ m with defined := m.defined.setModified }, p.2)

/-- The pointers of a persistent metric: the slots of its two names, in a block in order. -/
structure Attached (m : OvmsMetricInt64) (s : Persist) (lo hi : Pointer) : Prop where
  header : s.pmetrics.headerOk = true
  persist : m.persist = true
  valuepLo : m.valuepLo = some lo
  valuepHi : m.valuepHi = some hi
  low : Registered hash s m.name lo
  high : Registered hash s (hiName m.name) hi

variable {hash unitConvert}

theorem hiName_ne (name : Name) : hiName name ≠ name := by
  intro h
  have := congrArg List.length h
  rw [hiName, List.length_append] at this
  simp at this

theorem Attached.lo_ne_hi {m : OvmsMetricInt64} {s : Persist} {lo hi : Pointer}
    (h : Attached hash m s lo hi) : lo ≠ hi :=
  h.low.slot_ne h.high (hiName_ne m.name).symm

/-- The value of the words of a metric. -/
def stored (s : Persist) (lo hi : Pointer) : Int64 :=
  partsValue (s.pmetrics.word lo) (s.pmetrics.word hi)

/-- What a metric with its slots is. -/
theorem attach_eq (m : OvmsMetricInt64) (s : Persist) (lo hi : Pointer) :
    ∃ d, m.attach s lo hi =
      { m with
        valuepHi := some hi, valuepLo := some lo, defined := d
        value := stored s lo hi } := by
  rw [attach, setValueParts, stored]
  split
  · next h =>
    rw [if_neg Bool.false_ne_true, h]
    exact ⟨_, rfl⟩
  · exact ⟨_, rfl⟩

/-- Making a persistent metric, with the two names it registers. -/
theorem new_eq (hash : Name → UInt32) (s : Persist) (name : Name) (units : MetricUnit)
    (garbage : Int64) :
    new hash s name units true garbage =
      match (pmetricsRegister hash s (hiName name)).1,
        (pmetricsRegister hash (pmetricsRegister hash s (hiName name)).2 name).1 with
      | some hi, some lo =>
          ((blank name units true garbage).attach
            (pmetricsRegister hash (pmetricsRegister hash s (hiName name)).2 name).2 lo hi,
            (pmetricsRegister hash (pmetricsRegister hash s (hiName name)).2 name).2)
      | _, _ => ({ blank name units true garbage with persist := false },
          (pmetricsRegister hash (pmetricsRegister hash s (hiName name)).2 name).2) := rfl

/-- **What making a persistent metric can do**: take the slots of both names, or lose the
persistence. -/
theorem new_cases (hash : Name → UInt32) (s : Persist) (name : Name) (units : MetricUnit)
    (garbage : Int64) :
    (∃ lo hi s₁ s₂, pmetricsRegister hash s (hiName name) = (some hi, s₁) ∧
      pmetricsRegister hash s₁ name = (some lo, s₂) ∧
      new hash s name units true garbage =
        ((blank name units true garbage).attach s₂ lo hi, s₂)) ∨
      (new hash s name units true garbage).1.persist = false := by
  rw [new_eq]
  split
  · next hi lo hhi hlo =>
    exact .inl ⟨lo, hi, _, _, Prod.ext hhi rfl, Prod.ext hlo rfl, rfl⟩
  · exact .inr rfl

/-- **A persistent metric when it is made** has the slots of its names, and the value that its
words stand for. -/
theorem new_persist {s : Persist} {name : Name} {units : MetricUnit} {garbage : Int64}
    (hok : s.pmetrics.headerOk = true)
    (h : (new hash s name units true garbage).1.persist = true) :
    ∃ lo hi, Attached hash (new hash s name units true garbage).1
        (new hash s name units true garbage).2 lo hi ∧
      (new hash s name units true garbage).1.name = name ∧
      (new hash s name units true garbage).1.units = units ∧
      (new hash s name units true garbage).1.value =
        stored (new hash s name units true garbage).2 lo hi := by
  rcases new_cases hash s name units garbage with ⟨lo, hi, s₁, s₂, hhi, hlo, heq⟩ | hlost
  · obtain ⟨d, hm⟩ := attach_eq (blank name units true garbage) s₂ lo hi
    rw [hm] at heq
    have hok₁ := headerOk_pmetricsRegister hhi hok
    have hhigh := Registered.of_register (.of_headerOk hok) hhi
    have hlow := Registered.of_register (.of_headerOk hok₁) hlo
    have hhigh' := (extends_pmetricsRegister hok₁ hlo).registered _ _ hhigh
    rw [heq]
    exact ⟨lo, hi, ⟨headerOk_pmetricsRegister hlo hok₁, rfl, rfl, rfl, hlow, hhigh'⟩, rfl, rfl, rfl⟩
  · rw [hlost] at h
    exact absurd h Bool.false_ne_true

theorem stored_writeParts {m : OvmsMetricInt64} {s : Persist} {lo hi : Pointer}
    (h : Attached hash m s lo hi) (value : Int64) (d : MetricDefined) :
    stored (writeParts s { m with value := value, defined := d }) lo hi =
      partsValue (getValueParts value).1 (getValueParts value).2 := by
  rw [writeParts, if_pos h.persist, h.valuepHi, h.valuepLo, stored]
  simp only [Persist.pmetrics_write, PersistentMetrics.word_write_self]
  rw [PersistentMetrics.word_write_of_ne _ h.lo_ne_hi, PersistentMetrics.word_write_self]

/-- Writing the parts moves no pointer. -/
theorem Attached.writeParts {m : OvmsMetricInt64} {s : Persist} {lo hi : Pointer}
    (h : Attached hash m s lo hi) (value : Int64) (d : MetricDefined) :
    Attached hash { m with value := value, defined := d }
      (writeParts s { m with value := value, defined := d }) lo hi := by
  have hwrite : OvmsMetricInt64.writeParts s { m with value := value, defined := d } =
      (s.write lo (getValueParts value).1).write hi (getValueParts value).2 := by
    rw [OvmsMetricInt64.writeParts, if_pos h.persist, h.valuepHi, h.valuepLo]
  rw [hwrite]
  refine ⟨h.header, h.persist, h.valuepLo, h.valuepHi, ?_, ?_⟩
  · rw [registered_write_iff, registered_write_iff]
    exact h.low
  · rw [registered_write_iff, registered_write_iff]
    exact h.high

/-- **One call**: the metric holds the value set; its words stay as they are if that is the
value it had, and are the parts of the value otherwise. -/
theorem setValue_spec {m : OvmsMetricInt64} {s : Persist} {lo hi : Pointer}
    (h : Attached hash m s lo hi) (call : Int64 × MetricUnit) {m₁ : OvmsMetricInt64}
    {s₁ : Persist} (hset : setValue unitConvert (m, s) call = (m₁, s₁)) :
    Attached hash m₁ s₁ lo hi ∧ m₁.name = m.name ∧ m₁.units = m.units ∧
      m₁.value = nvalue unitConvert m.units call ∧
      ((m.value = m₁.value ∧ s₁ = s) ∨
        (m.value ≠ m₁.value ∧
          stored s₁ lo hi = partsValue (getValueParts m₁.value).1 (getValueParts m₁.value).2)) := by
  rw [setValue] at hset
  split at hset
  · next hne =>
    obtain ⟨rfl, rfl⟩ := Prod.mk.inj hset
    exact ⟨h.writeParts _ _, rfl, rfl, rfl, .inr ⟨hne, stored_writeParts h _ _⟩⟩
  · next heq =>
    obtain ⟨rfl, rfl⟩ := Prod.mk.inj hset
    exact ⟨⟨h.header, h.persist, h.valuepLo, h.valuepHi, h.low, h.high⟩, rfl, rfl, not_not.mp heq,
      .inl ⟨rfl, rfl⟩⟩

/-- A sequence of calls. -/
def run (unitConvert : MetricUnit → MetricUnit → Int64 → Int64) (p : OvmsMetricInt64 × Persist)
    (calls : List (Int64 × MetricUnit)) : OvmsMetricInt64 × Persist :=
  calls.foldl (setValue unitConvert) p

theorem run_append_singleton (p : OvmsMetricInt64 × Persist) (calls : List (Int64 × MetricUnit))
    (call : Int64 × MetricUnit) :
    run unitConvert p (calls ++ [call]) = setValue unitConvert (run unitConvert p calls) call := by
  rw [run, List.foldl_append]
  rfl

/-- **A sequence of calls**: as long as they set the value that was there at first, nothing
is written; after that the words are the parts of the value. -/
theorem run_spec (unitConvert : MetricUnit → MetricUnit → Int64 → Int64)
    {m : OvmsMetricInt64} {s : Persist} {lo hi : Pointer} (h : Attached hash m s lo hi)
    (calls : List (Int64 × MetricUnit)) :
    ∃ m₁ s₁, run unitConvert (m, s) calls = (m₁, s₁) ∧ Attached hash m₁ s₁ lo hi ∧
      m₁.name = m.name ∧ m₁.units = m.units ∧
      (((∀ call ∈ calls, nvalue unitConvert m.units call = m.value) ∧
          m₁.value = m.value ∧ s₁ = s) ∨
        ((¬ ∀ call ∈ calls, nvalue unitConvert m.units call = m.value) ∧
          stored s₁ lo hi = partsValue (getValueParts m₁.value).1 (getValueParts m₁.value).2)) := by
  induction calls using List.reverseRecOn with
  | nil => exact ⟨m, s, rfl, h, rfl, rfl, .inl ⟨List.forall_mem_nil _, rfl, rfl⟩⟩
  | append_singleton calls call ih =>
      obtain ⟨m₁, s₁, hrun, hatt, hname, hunits, hcases⟩ := ih
      rcases hset : setValue unitConvert (m₁, s₁) call with ⟨m₂, s₂⟩
      obtain ⟨hatt₂, hname₂, hunits₂, hvalue, hstep⟩ := setValue_spec hatt call hset
      rw [hunits] at hvalue
      refine ⟨m₂, s₂, by rw [run_append_singleton, hrun, hset], hatt₂, hname₂.trans hname,
        hunits₂.trans hunits, ?_⟩
      rw [List.forall_mem_append, List.forall_mem_singleton, ← hvalue]
      rcases hcases with ⟨hall, hval, rfl⟩ | ⟨hnot, hstored⟩
      · rcases hstep with ⟨hsame, rfl⟩ | ⟨hne, hparts⟩
        · exact .inl ⟨⟨hall, hsame.symm.trans hval⟩, hsame.symm.trans hval, rfl⟩
        · exact .inr ⟨fun hboth => hne (hval.trans hboth.2.symm), hparts⟩
      · refine .inr ⟨fun hboth => hnot hboth.1, ?_⟩
        rcases hstep with ⟨hsame, rfl⟩ | ⟨-, hparts⟩
        · rw [← hsame, hstored]
        · exact hparts

theorem value_run_append_singleton (unitConvert : MetricUnit → MetricUnit → Int64 → Int64)
    {m : OvmsMetricInt64} {s : Persist} {lo hi : Pointer} (h : Attached hash m s lo hi)
    (calls : List (Int64 × MetricUnit)) (call : Int64 × MetricUnit) :
    (run unitConvert (m, s) (calls ++ [call])).1.value = nvalue unitConvert m.units call := by
  obtain ⟨m₁, s₁, hrun, hatt, -, hunits, -⟩ := run_spec unitConvert h calls
  rw [run_append_singleton, hrun, ← hunits]
  exact (setValue_spec hatt call rfl).2.2.2.1

/-- **A metric made after a restart** has the value that the words stand for. -/
theorem new_of_kept {s t : Persist} {name : Name} {lo hi : Pointer}
    (hlo : Registered hash s name lo) (hhi : Registered hash s (hiName name) hi) (ht : Kept s t)
    (units : MetricUnit) (garbage : Int64) :
    ∃ m t', new hash t name units true garbage = (m, t') ∧ m.persist = true ∧
      m.value = stored s lo hi ∧ Kept s t' := by
  obtain ⟨t₁, hreg₁, ht₁, -⟩ := ht.register_registered hhi
  obtain ⟨t₂, hreg₂, ht₂, hword₂⟩ := ht₁.register_registered hlo
  obtain ⟨d, hm⟩ := attach_eq (blank name units true garbage) t₂ lo hi
  have hnew : new hash t name units true garbage =
      ((blank name units true garbage).attach t₂ lo hi, t₂) := by
    rw [new_eq, hreg₁, hreg₂]
  refine ⟨_, t₂, hnew, ?_, ?_, ht₂⟩
  · rw [hm]
    rfl
  · rw [hm, stored, hword₂, (ht₂.slots _ hi hhi.find).2, stored]

end OvmsMetricInt64

open OvmsMetricInt64

/-- **Which values of 64 bits survive a restart**: of a value that is split and put together
again, those whose bits from 16 to 31 are clear; of a sequence of calls on a persistent metric,
the last value if it is one of these, or if no call set another value than the one the metric
was made with. -/
theorem int64_survives_iff (value : Int64) {hash : Name → UInt32}
    (unitConvert : MetricUnit → MetricUnit → Int64 → Int64) {s : Persist} (hs : Running hash s)
    (name : Name) (units : MetricUnit) (garbage : Int64)
    (hp : (new hash s name units true garbage).1.persist = true)
    (calls : List (Int64 × MetricUnit)) (last : Int64 × MetricUnit) {t : Persist}
    (ht : Rebooted hash
      (run unitConvert (new hash s name units true garbage) (calls ++ [last])).2 t)
    (units' : MetricUnit) (garbage' : Int64) :
    (partsValue (getValueParts value).1 (getValueParts value).2 = value ↔
        middleBits value = 0) ∧
      (new hash t name units' true garbage').1.persist = true ∧
      ((new hash t name units' true garbage').1.value = nvalue unitConvert units last ↔
        middleBits (nvalue unitConvert units last) = 0 ∨
          ∀ call ∈ calls ++ [last],
            nvalue unitConvert units call = (new hash s name units true garbage).1.value) := by
  refine ⟨partsValue_getValueParts_iff value, ?_⟩
  obtain ⟨lo, hi, hatt, hname, hunits, hvalue⟩ := new_persist hs.headerOk hp
  rcases hnew : new hash s name units true garbage with ⟨m, s₁⟩
  rw [hnew] at hatt hname hunits hvalue ht
  have hlast := value_run_append_singleton unitConvert hatt calls last
  obtain ⟨m₂, s₂, hrun, hatt₂, hname₂, -, hcases⟩ :=
    run_spec unitConvert hatt (calls ++ [last])
  rw [hrun] at ht hlast
  rw [hunits] at hlast hcases
  obtain ⟨m₃, t', hnew₃, hpersist, hrestored, -⟩ :=
    new_of_kept hatt₂.low hatt₂.high (ht.kept hatt₂.header) units' garbage'
  rw [hname₂, hname] at hnew₃
  rw [hnew₃]
  refine ⟨hpersist, ?_⟩
  rw [hrestored]
  rcases hcases with ⟨hall, hval, rfl⟩ | ⟨hnot, hstored⟩
  · have hsame : stored s₂ lo hi = nvalue unitConvert units last := by
      rw [← hvalue, ← hval]
      exact hlast
    exact iff_of_true hsame (.inr hall)
  · rw [hstored, ← hlast, partsValue_getValueParts_iff]
    exact (or_iff_left hnot).symm

/-- A metric of the name `t`, with the length of a name for its hash: five survives. -/
theorem int64_survives_five :
    middleBits 5 = 0 ∧
      (new (fun name => .ofNat name.length) (boot true pmetricsClear) [0x74] 0 true 0).1.persist =
        true ∧
      (new (fun name => .ofNat name.length)
        (boot false (run (fun _ _ v => v)
          (new (fun name => .ofNat name.length) (boot true pmetricsClear) [0x74] 0 true 0)
          [(5, 0)]).2.pmetrics) [0x74] 0 true 7).1.value = 5 := by
  have hbits : middleBits 5 = 0 := by decide
  have hp : (new (fun name => .ofNat name.length) (boot true pmetricsClear) [0x74] 0 true
      0).1.persist = true := by decide +kernel
  have hvalue : nvalue (fun _ _ v => v) 0 (5, 0) = 5 := by decide
  have h := (int64_survives_iff 5 (fun _ _ v => v) (Running.boot true pmetricsClear) [0x74] 0 0
    hp [] (5, 0) Rebooted.boot 0 7).2.2
  rw [hvalue, List.nil_append] at h
  exact ⟨hbits, hp, h.mpr (.inl hbits)⟩

/-- Two to the power of 16 does not survive: it comes back as zero, from its two parts and
after a restart. -/
theorem int64_lost_middle :
    partsValue (getValueParts 65536).1 (getValueParts 65536).2 ≠ 65536 ∧
      (run (fun _ _ v => v)
        (new (fun name => .ofNat name.length) (boot true pmetricsClear) [0x74] 0 true 0)
        [(65536, 0)]).1.persist = true ∧
      (new (fun name => .ofNat name.length)
        (boot false (run (fun _ _ v => v)
          (new (fun name => .ofNat name.length) (boot true pmetricsClear) [0x74] 0 true 0)
          [(65536, 0)]).2.pmetrics) [0x74] 0 true 7).1.value ≠ 65536 := by
  refine ⟨by decide, by decide +kernel, by decide +kernel⟩

end Ovms.Metrics
