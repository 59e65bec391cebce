import Mathlib.Data.Fin.Tuple.Basic
import Mathlib.Data.Fintype.Basic
import Mathlib.Logic.Function.Basic

/-!
# Persistent Storage of Metrics

`pmetrics` (`main/ovms_metrics.cpp`): a block of memory that keeps its contents over a restart,
with a header and a hundred slots, each a word under the hash of a name. A metric registers
its names when it is made and keeps pointers to the words; beside the block, in memory that a
restart clears, stands the name that each hash was registered for (`pmetrics_keymap`).

`std::hash` is a parameter. Words beyond the slots are not modelled: a search with a count
above the number of slots ends with the last slot. The text of log messages is not modelled
either.
-/

namespace Ovms.Metrics

/-- A name: the bytes of a text, without the terminator. -/
abbrev Name := List UInt8

/-- `metric_unit_t`. -/
abbrev MetricUnit := UInt8

/-- `Other`: no unit, which is also `Native`. -/
def MetricUnit.other : MetricUnit := 0

/-- `DateUTC`. -/
def MetricUnit.dateUTC : MetricUnit := 86

/-- `DateLocal`. -/
def MetricUnit.dateLocal : MetricUnit := 87

/-- `metric_defined_t`. -/
inductive MetricDefined
  | neverDefined | firstDefined | defined
  deriving DecidableEq, Repr

/-- `OvmsMetric::SetModified`, which every attempt to set a value ends with: what it does to
`m_defined`. -/
def MetricDefined.setModified : MetricDefined → MetricDefined
  | .neverDefined => .firstDefined
  | _ => .defined

/-- `OvmsMetric::IsDefined`. -/
def MetricDefined.isDefined (d : MetricDefined) : Bool := d != .neverDefined

/-! ### The block -/

/-- `NUM_PERSISTENT_VALUES`. -/
abbrev numPersistentValues : ℕ := 100

/-- A pointer to the word of a slot. -/
abbrev Pointer := Fin numPersistentValues

/-- `struct persistent_values`. -/
structure PersistentValues where
  namehash : UInt32
  value : UInt32
  deriving DecidableEq, Repr

/-- `struct persistent_metrics`. -/
structure PersistentMetrics where
  magic : UInt32
  version : ℤ
  serial : UInt32
  size : UInt32
  used : ℤ
  values : Pointer → PersistentValues

/-- `PERSISTENT_METRICS_MAGIC`: the letters OVM3. -/
def persistentMetricsMagic : UInt32 := 0x4F564D33

/-- `PERSISTENT_VERSION`. -/
def persistentVersion : ℤ := 3

/-- `sizeof(pmetrics)`: five words of header, and two for each slot. -/
def sizeofPersistentMetrics : UInt32 := 820

/-- The checks of `pmetrics_check` on magic, version and size. -/
def PersistentMetrics.identityOk (p : PersistentMetrics) : Bool :=
  p.magic == persistentMetricsMagic && p.version == persistentVersion &&
    p.size == sizeofPersistentMetrics

/-- The part of `pmetrics_check` that looks at the header. -/
def PersistentMetrics.headerOk (p : PersistentMetrics) : Bool :=
  p.identityOk && decide (0 ≤ p.used ∧ p.used ≤ numPersistentValues)

/-- `pmetrics_init` up to the refresh: the block cleared, with its header. -/
def pmetricsClear : PersistentMetrics where
  magic := persistentMetricsMagic
  version := persistentVersion
  serial := 0
  size := sizeofPersistentMetrics
  used := 0
  values _ := ⟨0, 0⟩

/-- Whether a slot in use has a hash. -/
def PersistentMetrics.holds (p : PersistentMetrics) (namehash : UInt32)
    (i : Pointer) : Bool :=
  decide ((i : ℤ) < p.used) && (p.values i).namehash == namehash

/-- `pmetrics_find_hash`: the first slot in use with the hash. -/
def PersistentMetrics.findHash (p : PersistentMetrics) (namehash : UInt32) :
    Option (Pointer) :=
  Fin.find? (p.holds namehash)

/-- The word at a pointer, which is a slot. -/
def PersistentMetrics.word (p : PersistentMetrics) (i : Pointer) : UInt32 :=
  (p.values i).value

/-- The word at a pointer written. -/
def PersistentMetrics.write (p : PersistentMetrics) (i : Pointer)
    (w : UInt32) : PersistentMetrics :=
  { p with values := Function.update p.values i { p.values i with value := w } }

/-- The next slot taken for a hash, its word cleared. -/
def PersistentMetrics.assign (p : PersistentMetrics) (i : Pointer)
    (namehash : UInt32) : PersistentMetrics :=
  { p with used := p.used + 1, values := Function.update p.values i ⟨namehash, 0⟩ }

/-- `pmetrics` with `pmetrics_keymap`. -/
structure Persist where
  pmetrics : PersistentMetrics
  keymap : UInt32 → Option Name

/-- A word of the block written. -/
def Persist.write (s : Persist) (i : Pointer) (w : UInt32) : Persist :=
  { s with pmetrics := s.pmetrics.write i w }

variable (hash : Name → UInt32)

/-- `pmetrics_find`. -/
def pmetricsFind (p : PersistentMetrics) (name : Name) : Option (Pointer) :=
  p.findHash (hash name)

/-- `pmetrics_register`: the slot of a name, a new one if it has none. It fails where the hash
belongs to another name, and where no slot is free. -/
def pmetricsRegister (s : Persist) (name : Name) :
    Option (Pointer) × Persist :=
  let namehash := hash name
  if (s.keymap namehash).any (· != name) then (none, s)
  else
    let keymap := Function.update s.keymap namehash (some name)
    match s.pmetrics.findHash namehash with
    | some i => (some i, { s with keymap := keymap })
    | none =>
        if h : s.pmetrics.used.toNat < numPersistentValues then
          (some ⟨s.pmetrics.used.toNat, h⟩,
            { pmetrics := s.pmetrics.assign ⟨s.pmetrics.used.toNat, h⟩ namehash, keymap := keymap })
        else (none, s)

/-! ### Searching -/

theorem PersistentMetrics.findHash_eq_some_iff {p : PersistentMetrics} {namehash : UInt32}
    {i : Pointer} :
    p.findHash namehash = some i ↔
      p.holds namehash i = true ∧ ∀ j < i, p.holds namehash j = false :=
  Fin.find?_eq_some_iff

theorem PersistentMetrics.findHash_eq_none_iff {p : PersistentMetrics} {namehash : UInt32} :
    p.findHash namehash = none ↔ ∀ i, p.holds namehash i = false :=
  Fin.find?_eq_none_iff

theorem PersistentMetrics.namehash_of_findHash {p : PersistentMetrics} {namehash : UInt32}
    {i : Pointer} (h : p.findHash namehash = some i) :
    (p.values i).namehash = namehash := by
  have := (findHash_eq_some_iff.mp h).1
  rw [holds, Bool.and_eq_true] at this
  exact eq_of_beq this.2

@[simp] theorem PersistentMetrics.used_write (p : PersistentMetrics)
    (i : Pointer) (w : UInt32) : (p.write i w).used = p.used := rfl

theorem PersistentMetrics.values_write (p : PersistentMetrics) (i : Pointer)
    (w : UInt32) :
    (p.write i w).values = Function.update p.values i ⟨(p.values i).namehash, w⟩ := rfl

@[simp] theorem PersistentMetrics.word_write_self (p : PersistentMetrics)
    (i : Pointer) (w : UInt32) : (p.write i w).word i = w := by
  rw [word, values_write, Function.update_self]

theorem PersistentMetrics.word_write_of_ne (p : PersistentMetrics)
    {i j : Pointer} (h : j ≠ i) (w : UInt32) :
    (p.write i w).word j = p.word j := by
  rw [word, values_write, Function.update_of_ne h, word]

theorem PersistentMetrics.namehash_write (p : PersistentMetrics) (i j : Pointer)
    (w : UInt32) : ((p.write i w).values j).namehash = (p.values j).namehash := by
  rcases eq_or_ne j i with rfl | hne
  · rw [values_write, Function.update_self]
  · rw [values_write, Function.update_of_ne hne]

@[simp] theorem PersistentMetrics.findHash_write (p : PersistentMetrics)
    (i : Pointer) (w : UInt32) (namehash : UInt32) :
    (p.write i w).findHash namehash = p.findHash namehash := by
  have : (p.write i w).holds namehash = p.holds namehash := by
    funext j
    rw [holds, holds, namehash_write, used_write]
  rw [findHash, findHash, this]

@[simp] theorem Persist.pmetrics_write (s : Persist) (i : Pointer)
    (w : UInt32) : (s.write i w).pmetrics = s.pmetrics.write i w := rfl

/-! ### Registering -/

/-- A name is the one its hash was registered for, and is found in a slot. -/
structure Registered (s : Persist) (name : Name) (i : Pointer) : Prop where
  keymap : s.keymap (hash name) = some name
  find : pmetricsFind hash s.pmetrics name = some i

variable {hash}

/-- **What registering a name can do**: fail and change nothing, answer the slot that has the
hash, or take the first slot that is not in use. -/
theorem pmetricsRegister_cases (hash : Name → UInt32) (s : Persist) (name : Name) :
    pmetricsRegister hash s name = (none, s) ∨
      ∃ i s', pmetricsRegister hash s name = (some i, s') ∧
        s'.keymap = Function.update s.keymap (hash name) (some name) ∧
        (∀ other, s.keymap (hash name) = some other → other = name) ∧
        ((s.pmetrics.findHash (hash name) = some i ∧ s'.pmetrics = s.pmetrics) ∨
          (s.pmetrics.findHash (hash name) = none ∧ i.val = s.pmetrics.used.toNat ∧
            s'.pmetrics = s.pmetrics.assign i (hash name))) := by
  rw [pmetricsRegister]
  split
  · exact .inl rfl
  · next hkey =>
    have hsame : ∀ other, s.keymap (hash name) = some other → other = name := by
      intro other hother
      rw [hother, Option.any_some, bne_iff_ne] at hkey
      exact not_not.mp hkey
    split
    · next i hfind => exact .inr ⟨i, _, rfl, rfl, hsame, .inl ⟨hfind, rfl⟩⟩
    · next hfind =>
      split
      · exact .inr ⟨_, _, rfl, rfl, hsame, .inr ⟨hfind, rfl, rfl⟩⟩
      · exact .inl rfl

/-- A name that has its slot, and whose hash belongs to no other, is registered there. -/
theorem pmetricsRegister_of_find {s : Persist} {name : Name} {i : Pointer}
    (hkey : ∀ other, s.keymap (hash name) = some other → other = name)
    (hfind : pmetricsFind hash s.pmetrics name = some i) :
    pmetricsRegister hash s name =
      (some i, { s with keymap := Function.update s.keymap (hash name) (some name) }) := by
  have hany : (s.keymap (hash name)).any (· != name) = false := by
    rw [Option.any_eq_false]
    intro other hother
    rw [hkey other hother, bne_self_eq_false]
  rw [pmetricsFind] at hfind
  rw [pmetricsRegister, hany, hfind]
  rfl

theorem PersistentMetrics.used_assign (p : PersistentMetrics) (i : Pointer)
    (namehash : UInt32) : (p.assign i namehash).used = p.used + 1 := rfl

theorem PersistentMetrics.values_assign (p : PersistentMetrics) (i : Pointer)
    (namehash : UInt32) :
    (p.assign i namehash).values = Function.update p.values i ⟨namehash, 0⟩ := rfl

theorem PersistentMetrics.word_assign_self (p : PersistentMetrics)
    (i : Pointer) (namehash : UInt32) : (p.assign i namehash).word i = 0 := by
  rw [word, values_assign, Function.update_self]

theorem PersistentMetrics.word_assign_of_ne (p : PersistentMetrics)
    {i j : Pointer} (h : j ≠ i) (namehash : UInt32) :
    (p.assign i namehash).word j = p.word j := by
  rw [word, values_assign, Function.update_of_ne h, word]

/-- **A new slot is found under its hash**, and every other hash where it was. -/
theorem PersistentMetrics.findHash_assign {p : PersistentMetrics} {i : Pointer}
    {namehash : UInt32} (hused : 0 ≤ p.used) (hi : i.val = p.used.toNat)
    (hnone : p.findHash namehash = none) (other : UInt32) :
    (p.assign i namehash).findHash other =
      if other = namehash then some i else p.findHash other := by
  have hself : ¬ (i : ℤ) < p.used := by omega
  have hother : ∀ j ≠ i, (p.assign i namehash).holds other j = p.holds other j := by
    intro j hne
    have hlt : (j : ℤ) < p.used + 1 ↔ (j : ℤ) < p.used := by
      rw [ne_eq, Fin.ext_iff] at hne
      omega
    rw [holds, holds, values_assign, used_assign, Function.update_of_ne hne,
      decide_eq_decide.mpr hlt]
  have hnew : (p.assign i namehash).holds other i = (namehash == other) := by
    have hlt : (i : ℤ) < p.used + 1 := by omega
    rw [holds, values_assign, used_assign, Function.update_self, decide_eq_true hlt,
      Bool.true_and]
  split
  · next heq =>
    subst heq
    rw [findHash_eq_some_iff, hnew]
    refine ⟨beq_self_eq_true _, fun j hj => ?_⟩
    rw [hother j (Fin.ne_of_lt hj)]
    exact findHash_eq_none_iff.mp hnone j
  · next hne =>
    have hsame : (p.assign i namehash).holds other = p.holds other := by
      funext j
      rcases eq_or_ne j i with rfl | hj
      · rw [hnew, beq_eq_false_iff_ne.mpr (Ne.symm hne), holds, decide_eq_false hself,
          Bool.false_and]
      · exact hother j hj
    rw [findHash, hsame, findHash]

/-- The count of slots in use lies in the block. -/
def PersistentMetrics.InRange (p : PersistentMetrics) : Prop :=
  0 ≤ p.used ∧ p.used ≤ numPersistentValues

theorem PersistentMetrics.InRange.of_headerOk {p : PersistentMetrics}
    (h : p.headerOk = true) : p.InRange := by
  rw [headerOk, Bool.and_eq_true, decide_eq_true_eq] at h
  exact h.2

/-- The slot that a registered name is answered. -/
theorem Registered.of_register {s s' : Persist} {name : Name} {i : Pointer}
    (hrange : s.pmetrics.InRange) (h : pmetricsRegister hash s name = (some i, s')) :
    Registered hash s' name i := by
  rcases pmetricsRegister_cases hash s name with h' | ⟨j, t, h', hkey, -, hcases⟩
  · rw [h'] at h
    exact absurd (congrArg Prod.fst h) (Option.some_ne_none i).symm
  · rw [h'] at h
    obtain ⟨hj, rfl⟩ := Prod.mk.inj h
    obtain rfl := Option.some.inj hj
    refine ⟨by rw [hkey, Function.update_self], ?_⟩
    rcases hcases with ⟨hfind, hp⟩ | ⟨hnone, hval, hp⟩
    · rw [pmetricsFind, hp, hfind]
    · rw [pmetricsFind, hp, PersistentMetrics.findHash_assign hrange.1 hval hnone, if_pos rfl]

/-- **Registering a name leaves the other names where they are**, with their values; also the
name itself, if it has a slot. -/
theorem pmetricsRegister_frame {s s' : Persist} {name : Name}
    {r : Option (Pointer)} (hrange : s.pmetrics.InRange)
    (h : pmetricsRegister hash s name = (r, s')) {namehash : UInt32}
    {j : Pointer} (hj : s.pmetrics.findHash namehash = some j) :
    s'.pmetrics.findHash namehash = some j ∧ s'.pmetrics.word j = s.pmetrics.word j := by
  rcases pmetricsRegister_cases hash s name with h' | ⟨i, t, h', -, -, hcases⟩
  · obtain ⟨-, rfl⟩ := Prod.mk.inj (h'.symm.trans h)
    exact ⟨hj, rfl⟩
  · obtain ⟨-, rfl⟩ := Prod.mk.inj (h'.symm.trans h)
    rcases hcases with ⟨-, hp⟩ | ⟨hnone, hval, hp⟩
    · rw [hp]
      exact ⟨hj, rfl⟩
    · have hne : namehash ≠ hash name := by
        rintro rfl
        exact Option.some_ne_none j (hj.symm.trans hnone)
      have hji : j ≠ i := by
        have := (PersistentMetrics.findHash_eq_some_iff.mp hj).1
        rw [PersistentMetrics.holds, Bool.and_eq_true, decide_eq_true_eq] at this
        rintro rfl
        omega
      rw [hp, PersistentMetrics.findHash_assign hrange.1 hval hnone, if_neg hne]
      exact ⟨hj, PersistentMetrics.word_assign_of_ne _ hji _⟩

/-- The word of a slot that was new is zero, of one that was not it stays. -/
theorem word_of_pmetricsRegister {s s' : Persist} {name : Name} {i : Pointer}
    (h : pmetricsRegister hash s name = (some i, s')) :
    (pmetricsFind hash s.pmetrics name = some i ∧ s'.pmetrics = s.pmetrics) ∨
      (pmetricsFind hash s.pmetrics name = none ∧ s'.pmetrics.word i = 0) := by
  rcases pmetricsRegister_cases hash s name with h' | ⟨j, t, h', -, -, hcases⟩
  · exact absurd (congrArg Prod.fst (h'.symm.trans h)) (Option.some_ne_none i).symm
  · obtain ⟨hj, rfl⟩ := Prod.mk.inj (h'.symm.trans h)
    obtain rfl := Option.some.inj hj
    rcases hcases with hfound | ⟨hnone, -, hp⟩
    · exact .inl hfound
    · refine .inr ⟨hnone, ?_⟩
      rw [hp, PersistentMetrics.word_assign_self]

/-- A slot found after registering a name was found before, with its value, or is new. -/
theorem findHash_of_pmetricsRegister {s s' : Persist} {name : Name} {r : Option Pointer}
    (hrange : s.pmetrics.InRange) (h : pmetricsRegister hash s name = (r, s'))
    {namehash : UInt32} {j : Pointer} (hj : s'.pmetrics.findHash namehash = some j) :
    (s.pmetrics.findHash namehash = some j ∧ s'.pmetrics.word j = s.pmetrics.word j) ∨
      s'.pmetrics.word j = 0 := by
  rcases pmetricsRegister_cases hash s name with h' | ⟨i, t, h', -, -, hcases⟩
  · obtain ⟨-, rfl⟩ := Prod.mk.inj (h'.symm.trans h)
    exact .inl ⟨hj, rfl⟩
  · obtain ⟨-, rfl⟩ := Prod.mk.inj (h'.symm.trans h)
    rcases hcases with ⟨-, hp⟩ | ⟨hnone, hval, hp⟩
    · rw [hp] at hj ⊢
      exact .inl ⟨hj, rfl⟩
    · rw [hp, PersistentMetrics.findHash_assign hrange.1 hval hnone] at hj
      split at hj
      · obtain rfl := Option.some.inj hj
        rw [hp, PersistentMetrics.word_assign_self]
        exact .inr rfl
      · next hne =>
        have hframe := pmetricsRegister_frame hrange h hj
        exact .inl ⟨hj, hframe.2⟩

/-- The header of the block is left as it was, but for the count, which stays in range. -/
theorem headerOk_pmetricsRegister {s s' : Persist} {name : Name}
    {r : Option (Pointer)} (h : pmetricsRegister hash s name = (r, s'))
    (hok : s.pmetrics.headerOk = true) : s'.pmetrics.headerOk = true := by
  have hrange := PersistentMetrics.InRange.of_headerOk hok
  rcases pmetricsRegister_cases hash s name with h' | ⟨i, t, h', -, -, hcases⟩
  · obtain ⟨-, rfl⟩ := Prod.mk.inj (h'.symm.trans h)
    exact hok
  · obtain ⟨-, rfl⟩ := Prod.mk.inj (h'.symm.trans h)
    rcases hcases with ⟨-, hp⟩ | ⟨-, hval, hp⟩
    · rw [hp, hok]
    · have hlow := hrange.1
      have hi := i.isLt
      rw [PersistentMetrics.headerOk, Bool.and_eq_true] at hok
      rw [hp, PersistentMetrics.headerOk, Bool.and_eq_true, decide_eq_true_eq,
        PersistentMetrics.used_assign]
      exact ⟨hok.1, by omega, by omega⟩

variable (hash) in
/-- **What further registrations keep**: every slot in use with its value, and every registered
name. -/
structure Extends (s s' : Persist) : Prop where
  header : s'.pmetrics.headerOk = true
  slots : ∀ namehash p, s.pmetrics.findHash namehash = some p →
    s'.pmetrics.findHash namehash = some p ∧ s'.pmetrics.word p = s.pmetrics.word p
  registered : ∀ name p, Registered hash s name p → Registered hash s' name p

theorem Extends.refl {s : Persist} (hok : s.pmetrics.headerOk = true) : Extends hash s s :=
  ⟨hok, fun _ _ h => ⟨h, rfl⟩, fun _ _ h => h⟩

theorem Extends.trans {s s₁ s' : Persist} (h : Extends hash s s₁) (h' : Extends hash s₁ s') :
    Extends hash s s' := by
  refine ⟨h'.header, fun namehash p hp => ?_, fun name p hp =>
    h'.registered name p (h.registered name p hp)⟩
  obtain ⟨hfind, hword⟩ := h.slots namehash p hp
  obtain ⟨hfind', hword'⟩ := h'.slots namehash p hfind
  exact ⟨hfind', hword'.trans hword⟩

theorem Extends.word {s s' : Persist} {name : Name} {p : Pointer} (h : Extends hash s s')
    (hp : Registered hash s name p) : s'.pmetrics.word p = s.pmetrics.word p :=
  (h.slots _ p hp.find).2

/-- **Registering a name keeps all others.** -/
theorem extends_pmetricsRegister {s s' : Persist} {name : Name} {r : Option Pointer}
    (hok : s.pmetrics.headerOk = true) (h : pmetricsRegister hash s name = (r, s')) :
    Extends hash s s' := by
  refine ⟨headerOk_pmetricsRegister h hok,
    fun namehash p hp => pmetricsRegister_frame (.of_headerOk hok) h hp,
    fun other p hreg => ⟨?_, (pmetricsRegister_frame (.of_headerOk hok) h hreg.find).1⟩⟩
  rcases pmetricsRegister_cases hash s name with h' | ⟨i, t, h', hkey, hsame, -⟩
  · obtain ⟨-, rfl⟩ := Prod.mk.inj (h'.symm.trans h)
    exact hreg.keymap
  · obtain ⟨-, rfl⟩ := Prod.mk.inj (h'.symm.trans h)
    rcases eq_or_ne (hash other) (hash name) with heq | hne
    · obtain rfl := hsame other (heq ▸ hreg.keymap)
      rw [hkey, Function.update_self]
    · rw [hkey, Function.update_of_ne hne, hreg.keymap]

/-- A name registered under a value that is written. -/
@[simp] theorem registered_write_iff {s : Persist} {name : Name} {i j : Pointer}
    {w : UInt32} : Registered hash (s.write j w) name i ↔ Registered hash s name i := by
  constructor
  · rintro ⟨hkey, hfind⟩
    rw [pmetricsFind, Persist.pmetrics_write, PersistentMetrics.findHash_write] at hfind
    exact ⟨hkey, hfind⟩
  · rintro ⟨hkey, hfind⟩
    refine ⟨hkey, ?_⟩
    rw [pmetricsFind, Persist.pmetrics_write, PersistentMetrics.findHash_write]
    exact hfind

/-- **Two registered names have two slots.** -/
theorem Registered.slot_ne {s : Persist} {a b : Name} {i j : Pointer}
    (ha : Registered hash s a i) (hb : Registered hash s b j) (hne : a ≠ b) : i ≠ j := by
  rintro rfl
  have heq : hash a = hash b :=
    (PersistentMetrics.namehash_of_findHash ha.find).symm.trans
      (PersistentMetrics.namehash_of_findHash hb.find)
  have := ha.keymap
  rw [heq, hb.keymap] at this
  exact hne (Option.some.inj this).symm

variable (hash) in
/-- What any use of the storage keeps: the header in order, and every registered name. -/
structure Grows (s s' : Persist) : Prop where
  header : s'.pmetrics.headerOk = true
  registered : ∀ name p, Registered hash s name p → Registered hash s' name p

theorem Grows.refl {s : Persist} (hok : s.pmetrics.headerOk = true) : Grows hash s s :=
  ⟨hok, fun _ _ h => h⟩

theorem Grows.trans {s s₁ s' : Persist} (h : Grows hash s s₁) (h' : Grows hash s₁ s') :
    Grows hash s s' :=
  ⟨h'.header, fun name p hp => h'.registered name p (h.registered name p hp)⟩

theorem Extends.grows {s s' : Persist} (h : Extends hash s s') : Grows hash s s' :=
  ⟨h.header, h.registered⟩

theorem grows_write {s : Persist} (hok : s.pmetrics.headerOk = true) (p : Pointer) (w : UInt32) :
    Grows hash s (s.write p w) :=
  ⟨hok, fun _ _ h => registered_write_iff.mpr h⟩

/-! ### Running and restarting -/

/-- The constructor of `OvmsMetrics`, with what a restart does: the block is cleared after a
power on and when the check fails, at a time without metrics; the names are gone. -/
def boot (powerOn : Bool) (p : PersistentMetrics) : Persist where
  pmetrics :=
    let q := if powerOn || !p.headerOk then pmetricsClear else p
    { q with serial := q.serial + 1 }
  keymap _ := none

variable (hash)

/-- What the storage can be after a start, from any contents of the block, when names were
registered and values written. -/
inductive Running : Persist → Prop
  | boot (powerOn : Bool) (p : PersistentMetrics) : Running (boot powerOn p)
  | register {s : Persist} (h : Running s) (name : Name) :
      Running (pmetricsRegister hash s name).2
  | write {s : Persist} (h : Running s) (i : Pointer) (w : UInt32) :
      Running (s.write i w)

/-- What the storage can be after a restart, when some of the names that were registered
before it are registered again. -/
inductive Rebooted (s : Persist) : Persist → Prop
  | boot : Rebooted s (boot false s.pmetrics)
  | register {t : Persist} (h : Rebooted s t) (name : Name)
      (hname : s.keymap (hash name) = some name) :
      Rebooted s (pmetricsRegister hash t name).2

variable {hash}

theorem headerOk_pmetricsClear : pmetricsClear.headerOk = true := by
  simp [PersistentMetrics.headerOk, PersistentMetrics.identityOk, pmetricsClear]

/-- A start leaves a block that passes the check. -/
theorem headerOk_boot (powerOn : Bool) (p : PersistentMetrics) :
    (boot powerOn p).pmetrics.headerOk = true := by
  have hserial : ∀ q : PersistentMetrics,
      PersistentMetrics.headerOk { q with serial := q.serial + 1 } = q.headerOk := fun q => rfl
  rw [boot, hserial]
  split
  · exact headerOk_pmetricsClear
  · next h =>
    rw [Bool.not_eq_true, Bool.or_eq_false_iff, Bool.not_eq_false'] at h
    exact h.2

theorem boot_false {p : PersistentMetrics} (h : p.headerOk = true) :
    (boot false p).pmetrics = { p with serial := p.serial + 1 } := by
  rw [boot, h]
  rfl

/-- **The header stays in order** while the system runs. -/
theorem Running.headerOk {s : Persist} (h : Running hash s) : s.pmetrics.headerOk = true := by
  induction h with
  | boot powerOn p => exact headerOk_boot powerOn p
  | register _ name ih => exact headerOk_pmetricsRegister Prod.mk.eta.symm ih
  | write _ i w ih => exact ih

/-- What a restart keeps: every slot in use with its value; and the names registered since are
among those registered before. -/
structure Kept (s t : Persist) : Prop where
  header : t.pmetrics.headerOk = true
  keymap : ∀ namehash name, t.keymap namehash = some name → s.keymap namehash = some name
  slots : ∀ namehash p, s.pmetrics.findHash namehash = some p →
    t.pmetrics.findHash namehash = some p ∧ t.pmetrics.word p = s.pmetrics.word p

/-- Registering a name of before keeps it. -/
theorem Kept.register {s t t' : Persist} {name : Name} {r : Option Pointer} (h : Kept s t)
    (hname : s.keymap (hash name) = some name)
    (hreg : pmetricsRegister hash t name = (r, t')) : Kept s t' := by
  have hextends := extends_pmetricsRegister h.header hreg
  refine ⟨hextends.header, fun namehash other hother => ?_, fun namehash p hp => ?_⟩
  · rcases pmetricsRegister_cases hash t name with h' | ⟨i, t₁, h', hkey, -, -⟩
    · obtain ⟨-, rfl⟩ := Prod.mk.inj (h'.symm.trans hreg)
      exact h.keymap namehash other hother
    · obtain ⟨-, rfl⟩ := Prod.mk.inj (h'.symm.trans hreg)
      rw [hkey] at hother
      rcases eq_or_ne namehash (hash name) with rfl | hne
      · rw [Function.update_self] at hother
        rw [hname, hother]
      · rw [Function.update_of_ne hne] at hother
        exact h.keymap namehash other hother
  · obtain ⟨hfind, hword⟩ := h.slots namehash p hp
    obtain ⟨hfind', hword'⟩ := hextends.slots namehash p hfind
    exact ⟨hfind', hword'.trans hword⟩

/-- Writing a value over by what it was keeps it. -/
theorem Kept.write {s t : Persist} (h : Kept s t) {p : Pointer} {w : UInt32}
    (hw : w = s.pmetrics.word p) : Kept s (t.write p w) := by
  refine ⟨h.header, h.keymap, fun namehash q hq => ?_⟩
  obtain ⟨hfind, hword⟩ := h.slots namehash q hq
  rw [Persist.pmetrics_write, PersistentMetrics.findHash_write]
  refine ⟨hfind, ?_⟩
  rcases eq_or_ne q p with rfl | hne
  · rw [PersistentMetrics.word_write_self, hw]
  · rw [PersistentMetrics.word_write_of_ne _ hne, hword]

/-- **After a restart a name is registered where it was.** -/
theorem Kept.register_registered {s t : Persist} (h : Kept s t) {name : Name} {p : Pointer}
    (hreg : Registered hash s name p) :
    ∃ t', pmetricsRegister hash t name = (some p, t') ∧ Kept s t' ∧
      t'.pmetrics.word p = s.pmetrics.word p := by
  have hsame : ∀ other, t.keymap (hash name) = some other → other = name := by
    intro other hother
    have := h.keymap _ _ hother
    rw [hreg.keymap] at this
    exact (Option.some.inj this).symm
  obtain ⟨hfind, hword⟩ := h.slots _ p hreg.find
  have hreg' := pmetricsRegister_of_find hsame hfind
  exact ⟨_, hreg', h.register hreg.keymap hreg', hword⟩

theorem kept_boot {s : Persist} (hok : s.pmetrics.headerOk = true) :
    Kept s (boot false s.pmetrics) := by
  refine ⟨headerOk_boot false _, fun namehash name hname => ?_, fun namehash p hp => ?_⟩
  · exact absurd hname (Option.some_ne_none name).symm
  · rw [boot_false hok]
    exact ⟨hp, rfl⟩

/-- **A restart keeps every slot in use**, and its value. -/
theorem Rebooted.kept {s t : Persist} (h : Rebooted hash s t)
    (hok : s.pmetrics.headerOk = true) : Kept s t := by
  induction h with
  | boot => exact kept_boot hok
  | register _ name hname ih => exact ih.register hname Prod.mk.eta.symm

/-! ### Values in a word -/

/-- A type of values of which one is kept in a word: how the word is read through a pointer to
the type, and written, and the comparison of its values. -/
class ElemType (α : Type) where
  /-- `sizeof`. -/
  size : ℕ
  /-- The value a vector is extended with. -/
  zero : α
  read : UInt32 → α
  write : α → UInt32 → UInt32
  /-- The operator `==`, which for numbers with a point is not reflexive. -/
  same : α → α → Bool
  read_write : size ≤ 4 → ∀ a w, read (write a w) = a
  read_zero : size ≤ 4 → read 0 = zero
  same_zero : same zero zero = true
  same_symm : ∀ a b, same a b = true → same b a = true
  same_trans : ∀ a b c, same a b = true → same b c = true → same a c = true

/-- `int` and `long`, of 32 bits. -/
instance : ElemType Int32 where
  size := 4
  zero := 0
  read w := w.toInt32
  write a _ := a.toUInt32
  same a b := a == b
  read_write _ _ _ := rfl
  read_zero _ := rfl
  same_zero := rfl
  same_symm _ _ h := beq_iff_eq.mpr (beq_iff_eq.mp h).symm
  same_trans _ _ _ h h' := beq_iff_eq.mpr ((beq_iff_eq.mp h).trans (beq_iff_eq.mp h'))

theorem read_write_short (a : Int16) (w : UInt32) :
    ((w &&& 0xFFFF0000) ||| a.toUInt16.toUInt32).toUInt16.toInt16 = a := by
  have h : (0xFFFF0000 : UInt32).toUInt16 = 0 := by decide
  rw [UInt32.toUInt16_or, UInt32.toUInt16_and, h]
  simp

/-- `short`, in the low half of the word. -/
instance : ElemType Int16 where
  size := 2
  zero := 0
  read w := w.toUInt16.toInt16
  write a w := (w &&& 0xFFFF0000) ||| a.toUInt16.toUInt32
  same a b := a == b
  read_write _ a w := read_write_short a w
  read_zero _ := rfl
  same_zero := rfl
  same_symm _ _ h := beq_iff_eq.mpr (beq_iff_eq.mp h).symm
  same_trans _ _ _ h h' := beq_iff_eq.mpr ((beq_iff_eq.mp h).trans (beq_iff_eq.mp h'))

theorem read_write_bool (a : Bool) (w : UInt32) :
    (((w &&& 0xFFFFFF00) ||| (if a then 1 else 0)).toUInt8 != 0) = a := by
  have h : (0xFFFFFF00 : UInt32).toUInt8 = 0 := by decide
  rw [UInt32.toUInt8_or, UInt32.toUInt8_and, h]
  cases a <;> simp

/-- `bool`, in the low byte of the word. -/
instance : ElemType Bool where
  size := 1
  zero := false
  read w := w.toUInt8 != 0
  write a w := (w &&& 0xFFFFFF00) ||| (if a then 1 else 0)
  same a b := a == b
  read_write _ a w := read_write_bool a w
  read_zero _ := rfl
  same_zero := rfl
  same_symm _ _ h := beq_iff_eq.mpr (beq_iff_eq.mp h).symm
  same_trans _ _ _ h h' := beq_iff_eq.mpr ((beq_iff_eq.mp h).trans (beq_iff_eq.mp h'))

/-- A `float`, by its bits. -/
structure FloatBits where
  bits : UInt32
  deriving DecidableEq, Repr

/-- Not a number: the exponent full, and the fraction not zero. -/
def FloatBits.isNaN (a : FloatBits) : Bool := (a.bits &&& 0x7FFFFFFF) > 0x7F800000

/-- Zero, of either sign. -/
def FloatBits.isZero (a : FloatBits) : Bool := a.bits &&& 0x7FFFFFFF == 0

/-- The operator `==`: no NaN is equal to anything, and the two zeros are equal. -/
def FloatBits.same (a b : FloatBits) : Bool :=
  !a.isNaN && !b.isNaN && (a == b || (a.isZero && b.isZero))

theorem FloatBits.same_iff {a b : FloatBits} :
    a.same b = true ↔
      (a.isNaN = false ∧ b.isNaN = false) ∧ (a = b ∨ a.isZero = true ∧ b.isZero = true) := by
  rw [same, Bool.and_eq_true, Bool.and_eq_true, Bool.or_eq_true, Bool.and_eq_true, beq_iff_eq,
    Bool.not_eq_true', Bool.not_eq_true']

/-- `float`. -/
instance : ElemType FloatBits where
  size := 4
  zero := ⟨0⟩
  read w := ⟨w⟩
  write a _ := a.bits
  same := FloatBits.same
  read_write _ _ _ := rfl
  read_zero _ := rfl
  same_zero := rfl
  same_symm a b h := by
    obtain ⟨⟨ha, hb⟩, hab⟩ := FloatBits.same_iff.mp h
    exact FloatBits.same_iff.mpr ⟨⟨hb, ha⟩, hab.imp Eq.symm And.symm⟩
  same_trans a b c h h' := by
    obtain ⟨⟨ha, hb⟩, hab⟩ := FloatBits.same_iff.mp h
    obtain ⟨⟨-, hc⟩, hbc⟩ := FloatBits.same_iff.mp h'
    refine FloatBits.same_iff.mpr ⟨⟨ha, hc⟩, ?_⟩
    rcases hab with rfl | ⟨ha0, hb0⟩
    · exact hbc
    · rcases hbc with rfl | ⟨-, hc0⟩
      · exact .inr ⟨ha0, hb0⟩
      · exact .inr ⟨ha0, hc0⟩

end Ovms.Metrics
