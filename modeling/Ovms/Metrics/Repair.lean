import Mathlib.Data.List.Sort
import Ovms.Metrics.Int64
import Ovms.Metrics.Vector

/-!
# Repair of the Persistent Storage

The check of the persistent storage at shutdown, and its repair (`main/ovms_metrics.cpp`): all
metrics compare their values with their words and look their names up; if one of them fails,
the block is cleared and the metrics write their values back through their pointers. The
repair restores the words, but neither the hashes of the names nor the count of slots in use,
so that after it no name is found (`pmetricsCheck_pmetricsInit`): the check fails again, and
after a restart every metric gets a new slot.

`OvmsMetricInt`, `OvmsMetricBool` and `OvmsMetricFloat` are one definition at three types.
Metrics without persistence (texts, sets, bit sets) stand in the list by their names.
-/

namespace Ovms.Metrics

/-! ### Metrics of one word -/

/-- `OvmsMetricInt`, `OvmsMetricBool` and `OvmsMetricFloat`, with what they have from
`OvmsMetric`. -/
structure OvmsMetricScalar (α : Type) where
  name : Name
  units : MetricUnit
  defined : MetricDefined
  persist : Bool
  value : α
  valuep : Option Pointer
  deriving DecidableEq, Repr

/-- `OvmsMetricBool`. -/
abbrev OvmsMetricBool := OvmsMetricScalar Bool

/-- `OvmsMetricFloat`. -/
abbrev OvmsMetricFloat := OvmsMetricScalar FloatBits

namespace OvmsMetricScalar

variable {α : Type} [ElemType α] (hash : Name → UInt32)

/-- The constructor. -/
def new (s : Persist) (name : Name) (units : MetricUnit) (persist : Bool) :
    OvmsMetricScalar α × Persist :=
  let m : OvmsMetricScalar α :=
    { name := name, units := units, defined := .neverDefined, persist := persist
      value := ElemType.zero, valuep := none }
  if persist then
    match pmetricsRegister hash s name with
    | (none, s) => ({ m with persist := false }, s)
    | (some vp, s) =>
        let stored := ElemType.read (s.pmetrics.word vp)
        (if ElemType.same m.value stored then { m with valuep := some vp }
          else
            { m with
              valuep := some vp, value := stored, defined := m.defined.setModified },
          s)
  else (m, s)

/-- `CheckPersist`. -/
def checkPersist (m : OvmsMetricScalar α) (s : Persist) : Bool :=
  match m.persist, m.valuep, m.defined.isDefined with
  | true, some vp, true =>
      ElemType.same (ElemType.read (s.pmetrics.word vp)) m.value &&
        decide (pmetricsFind hash s.pmetrics m.name = some vp)
  | _, _, _ => true

/-- `SetValue`, with the value in the units of the metric. -/
def setValue (m : OvmsMetricScalar α) (s : Persist) (nvalue : α) :
    OvmsMetricScalar α × Persist :=
  if ElemType.same m.value nvalue then ({ m with defined := m.defined.setModified }, s)
  else
    ({ m with value := nvalue, defined := m.defined.setModified },
      match m.valuep with
      | some vp => s.write vp (ElemType.write nvalue (s.pmetrics.word vp))
      | none => s)

end OvmsMetricScalar

/-! ### Any metric -/

/-- A metric. -/
inductive Metric : Type 1
  | scalar {α : Type} [ElemType α] (m : OvmsMetricScalar α)
  | int64 (m : OvmsMetricInt64)
  | vector {α : Type} [ElemType α] (m : OvmsMetricVector α)
  | plain (name : Name)

namespace Metric

/-- `m_name`. -/
def name : Metric → Name
  | scalar m => m.name
  | int64 m => m.name
  | vector m => m.name
  | plain name => name

/-- `m_persist`. -/
def persist : Metric → Bool
  | scalar m => m.persist
  | int64 m => m.persist
  | vector m => m.persist
  | plain _ => false

/-- `IsDefined`. -/
def isDefined : Metric → Bool
  | scalar m => m.defined.isDefined
  | int64 m => m.defined.isDefined
  | vector m => m.defined.isDefined
  | plain _ => true

variable (hash : Name → UInt32)

/-- `CheckPersist`. -/
def checkPersist (s : Persist) : Metric → Bool
  | scalar m => m.checkPersist hash s
  | int64 m => m.checkPersist hash s
  | vector m => m.checkPersist hash s
  | plain _ => true

end Metric

/-! ### The list of metrics -/

/-- The storage, and the metrics in the order of the registry. -/
structure MyMetrics : Type 1 where
  storage : Persist
  metrics : List Metric

variable (hash : Name → UInt32)

/-- What a constructor can make. -/
inductive Made (s : Persist) : Metric → Persist → Prop
  | scalar {α : Type} [ElemType α] (name : Name) (units : MetricUnit) (persist : Bool) :
      Made s
        (.scalar (OvmsMetricScalar.new hash s name units persist : OvmsMetricScalar α × Persist).1)
        (OvmsMetricScalar.new hash s name units persist : OvmsMetricScalar α × Persist).2
  | int64 (name : Name) (units : MetricUnit) (persist : Bool) (garbage : Int64) :
      Made s (.int64 (OvmsMetricInt64.new hash s name units persist garbage).1)
        (OvmsMetricInt64.new hash s name units persist garbage).2
  | vector {α : Type} [ElemType α] (name : Name) (units : MetricUnit) (persist : Bool) :
      Made s
        (.vector (OvmsMetricVector.new hash s name units persist : OvmsMetricVector α × Persist).1)
        (OvmsMetricVector.new hash s name units persist : OvmsMetricVector α × Persist).2
  | plain (name : Name) : Made s (.plain name) s

/-- What setting a value can change. -/
inductive Changed (s : Persist) : Metric → Metric → Persist → Prop
  | scalar {α : Type} [ElemType α] (m : OvmsMetricScalar α) (nvalue : α) :
      Changed s (.scalar m) (.scalar (m.setValue s nvalue).1) (m.setValue s nvalue).2
  | int64 (unitConvert : MetricUnit → MetricUnit → Int64 → Int64) (m : OvmsMetricInt64)
      (call : Int64 × MetricUnit) :
      Changed s (.int64 m) (.int64 (OvmsMetricInt64.setValue unitConvert (m, s) call).1)
        (OvmsMetricInt64.setValue unitConvert (m, s) call).2
  | vector {α : Type} [ElemType α] (unitConvert : MetricUnit → MetricUnit → α → α)
      (m : OvmsMetricVector α) (call : OvmsMetricVector.Call α) :
      Changed s (.vector m) (.vector (OvmsMetricVector.step hash unitConvert (m, s) call).1)
        (OvmsMetricVector.step hash unitConvert (m, s) call).2

/-- What the metrics can be after a start, from any contents of the block, when metrics were
made, set and deleted. -/
inductive Live : MyMetrics → Prop
  | boot (powerOn : Bool) (p : PersistentMetrics) : Live ⟨boot powerOn p, []⟩
  | make {s : MyMetrics} (h : Live s) {m : Metric} {t : Persist} (hm : Made hash s.storage m t) :
      Live ⟨t, s.metrics.orderedInsert (fun a b => a.name ≤ b.name) m⟩
  | change {s : MyMetrics} (h : Live s) {pre post : List Metric} {m m' : Metric} {t : Persist}
      (hs : s.metrics = pre ++ m :: post) (hm : Changed hash s.storage m m' t) :
      Live ⟨t, pre ++ m' :: post⟩
  | delete {s : MyMetrics} (h : Live s) {pre post : List Metric} {m : Metric}
      (hs : s.metrics = pre ++ m :: post) : Live ⟨s.storage, pre ++ post⟩

variable {hash}

namespace OvmsMetricScalar

variable {α : Type} [ElemType α]

variable (hash) in
/-- A metric that is persistent has its pointer. -/
def Linked (m : OvmsMetricScalar α) (s : Persist) : Prop :=
  m.persist = true → ∃ vp, m.valuep = some vp ∧ Registered hash s m.name vp

theorem new_linked {s : Persist} (hok : s.pmetrics.headerOk = true) (name : Name)
    (units : MetricUnit) (persist : Bool) :
    Linked hash (new hash s name units persist : OvmsMetricScalar α × Persist).1
        (new hash s name units persist : OvmsMetricScalar α × Persist).2 ∧
      Grows hash s (new hash s name units persist : OvmsMetricScalar α × Persist).2 := by
  cases persist with
  | false => exact ⟨fun hp => absurd hp Bool.false_ne_true, .refl hok⟩
  | true =>
      rw [new, if_pos rfl]
      rcases hreg : pmetricsRegister hash s name with ⟨r, s₁⟩
      have hgrows := (extends_pmetricsRegister hok hreg).grows
      cases r with
      | none => exact ⟨fun hp => absurd hp Bool.false_ne_true, hgrows⟩
      | some vp =>
          refine ⟨fun _ => ⟨vp, ?_⟩, hgrows⟩
          have hvp := Registered.of_register (.of_headerOk hok) hreg
          simp only []
          split <;> exact ⟨rfl, hvp⟩

theorem setValue_linked {m : OvmsMetricScalar α} {s : Persist}
    (hok : s.pmetrics.headerOk = true) (h : m.Linked hash s) (nvalue : α) :
    (m.setValue s nvalue).1.Linked hash (m.setValue s nvalue).2 ∧
      Grows hash s (m.setValue s nvalue).2 := by
  rw [setValue]
  split
  · exact ⟨h, .refl hok⟩
  · have hgrows : Grows hash s (match m.valuep with
        | some vp => s.write vp (ElemType.write nvalue (s.pmetrics.word vp))
        | none => s) := by
      split
      · exact grows_write hok _ _
      · exact .refl hok
    refine ⟨fun hp => ?_, hgrows⟩
    obtain ⟨vp, hvp, hreg⟩ := h hp
    exact ⟨vp, hvp, hgrows.registered _ _ hreg⟩

/-- **A metric made again** where its word is equal to its value has that value. -/
theorem new_of_kept {s t : Persist} {name : Name} {vp : Pointer} (hvp : Registered hash s name vp)
    {value : α} (hvalue : ElemType.same (ElemType.read (s.pmetrics.word vp)) value = true)
    (ht : Kept s t) (units : MetricUnit) :
    ∃ (m : OvmsMetricScalar α) (t' : Persist), new hash t name units true = (m, t') ∧
      ElemType.same m.value value = true ∧ Kept s t' := by
  obtain ⟨t', hreg, ht', hword⟩ := ht.register_registered hvp
  refine ⟨_, t', by rw [new, if_pos rfl, hreg], ?_, ht'⟩
  rw [hword]
  split
  · next hsame => exact ElemType.same_trans _ _ _ hsame hvalue
  · exact hvalue

end OvmsMetricScalar

namespace OvmsMetricInt64

variable (hash) in
/-- A metric that is persistent has its pointers. -/
def Linked (m : OvmsMetricInt64) (s : Persist) : Prop :=
  m.persist = true → ∃ lo hi, Attached hash m s lo hi

theorem new_linked {s : Persist} (hok : s.pmetrics.headerOk = true) (name : Name)
    (units : MetricUnit) (persist : Bool) (garbage : Int64) :
    Linked hash (new hash s name units persist garbage).1
        (new hash s name units persist garbage).2 ∧
      Grows hash s (new hash s name units persist garbage).2 := by
  cases persist with
  | false => exact ⟨fun hp => absurd hp Bool.false_ne_true, .refl hok⟩
  | true =>
      refine ⟨fun hp => ?_, ?_⟩
      · obtain ⟨lo, hi, hatt, -⟩ := new_persist hok hp
        exact ⟨lo, hi, hatt⟩
      · have hhi : Extends hash s (pmetricsRegister hash s (hiName name)).2 :=
          extends_pmetricsRegister hok Prod.mk.eta.symm
        have hlo : Extends hash _
            (pmetricsRegister hash (pmetricsRegister hash s (hiName name)).2 name).2 :=
          extends_pmetricsRegister hhi.header Prod.mk.eta.symm
        rw [new_eq]
        split <;> exact (hhi.trans hlo).grows

theorem setValue_linked {m : OvmsMetricInt64} {s : Persist} (hok : s.pmetrics.headerOk = true)
    (h : m.Linked hash s) (unitConvert : MetricUnit → MetricUnit → Int64 → Int64)
    (call : Int64 × MetricUnit) :
    Linked hash (setValue unitConvert (m, s) call).1 (setValue unitConvert (m, s) call).2 ∧
      Grows hash s (setValue unitConvert (m, s) call).2 := by
  constructor
  · intro hp
    have hpersist : m.persist = true := by
      rw [← hp, setValue]
      split <;> rfl
    obtain ⟨lo, hi, hatt⟩ := h hpersist
    exact ⟨lo, hi, (setValue_spec hatt call rfl).1⟩
  · rw [setValue]
    split
    · change Grows hash s (OvmsMetricInt64.writeParts s _)
      unfold OvmsMetricInt64.writeParts
      split
      · split
        · have hfirst : ∀ p w, Grows hash s (s.write p w) := fun p w => grows_write hok p w
          exact (hfirst _ _).trans (grows_write (hfirst _ _).header _ _)
        · exact .refl hok
      · exact .refl hok
    · exact .refl hok

end OvmsMetricInt64

namespace Metric

variable (hash) in
/-- A metric that is persistent has its pointers. -/
def Linked (s : Persist) : Metric → Prop
  | scalar m => m.Linked hash s
  | int64 m => m.Linked hash s
  | vector m => m.Linked hash s
  | plain _ => True

/-- The storage used elsewhere leaves the pointers. -/
theorem Linked.grows {s s' : Persist} {m : Metric} (h : m.Linked hash s)
    (hs : Grows hash s s') : m.Linked hash s' := by
  cases m with
  | scalar m =>
      intro hp
      obtain ⟨vp, hvp, hreg⟩ := h hp
      exact ⟨vp, hvp, hs.registered _ _ hreg⟩
  | int64 m =>
      intro hp
      obtain ⟨lo, hi, hatt⟩ := h hp
      exact ⟨lo, hi, hs.header, hatt.persist, hatt.valuepLo, hatt.valuepHi,
        hs.registered _ _ hatt.low, hs.registered _ _ hatt.high⟩
  | vector m => exact OvmsMetricVector.Linked.grows h hs
  | plain name => trivial

end Metric

/-- What a constructor makes is linked, and uses the storage. -/
theorem Made.linked {s t : Persist} {m : Metric} (hok : s.pmetrics.headerOk = true)
    (h : Made hash s m t) : m.Linked hash t ∧ Grows hash s t := by
  cases h with
  | scalar name units persist => exact OvmsMetricScalar.new_linked hok name units persist
  | int64 name units persist garbage =>
      exact OvmsMetricInt64.new_linked hok name units persist garbage
  | vector name units persist => exact OvmsMetricVector.linked_new hok name units persist
  | plain name => exact ⟨trivial, .refl hok⟩

theorem Changed.linked {s t : Persist} {m m' : Metric} (hok : s.pmetrics.headerOk = true)
    (hm : m.Linked hash s) (h : Changed hash s m m' t) : m'.Linked hash t ∧ Grows hash s t := by
  cases h with
  | scalar m nvalue => exact OvmsMetricScalar.setValue_linked hok hm nvalue
  | int64 unitConvert m call => exact OvmsMetricInt64.setValue_linked hok hm unitConvert call
  | vector unitConvert m call => exact OvmsMetricVector.Linked.step (p := (m, s)) hok hm call

/-- **All metrics keep their pointers** while the system runs. -/
theorem Live.linked {s : MyMetrics} (h : Live hash s) :
    s.storage.pmetrics.headerOk = true ∧ ∀ m ∈ s.metrics, m.Linked hash s.storage := by
  induction h with
  | boot powerOn p => exact ⟨headerOk_boot powerOn p, fun m hm => absurd hm List.not_mem_nil⟩
  | make _ hmade ih =>
      obtain ⟨hlinked, hgrows⟩ := hmade.linked ih.1
      refine ⟨hgrows.header, fun m hm => ?_⟩
      rcases (List.mem_orderedInsert _).mp hm with rfl | hm
      · exact hlinked
      · exact (ih.2 m hm).grows hgrows
  | change _ hs hchanged ih =>
      rw [hs] at ih
      obtain ⟨hlinked, hgrows⟩ := hchanged.linked ih.1 (ih.2 _ (by simp))
      refine ⟨hgrows.header, fun m hm => ?_⟩
      rcases List.mem_append.mp hm with hm | hm
      · exact (ih.2 m (by simp [hm])).grows hgrows
      · rcases List.mem_cons.mp hm with rfl | hm
        · exact hlinked
        · exact (ih.2 m (by simp [hm])).grows hgrows
  | delete _ hs ih =>
      rw [hs] at ih
      refine ⟨ih.1, fun m hm => ih.2 m ?_⟩
      rcases List.mem_append.mp hm with hm | hm
      · simp [hm]
      · simp [hm]

/-! ### Without a repair -/

namespace Metric

/-- Whether the words of a metric can hold its value: of 64 bits they cannot hold all. -/
def Survives : Metric → Prop
  | int64 m => middleBits m.value = 0
  | _ => True

end Metric

theorem Live.single {α : Type} [ElemType α] {t : Persist} (h : Live hash ⟨t, []⟩) (name : Name)
    (units : MetricUnit) (persist : Bool) (nvalue : α) :
    let p : OvmsMetricScalar α × Persist := OvmsMetricScalar.new hash t name units persist
    Live hash ⟨(p.1.setValue p.2 nvalue).2, [.scalar (p.1.setValue p.2 nvalue).1]⟩ := by
  intro p
  have hmade : Live hash ⟨p.2, [.scalar p.1]⟩ := h.make (Made.scalar name units persist)
  exact hmade.change (List.nil_append _).symm (Changed.scalar p.1 nvalue)

end Ovms.Metrics
