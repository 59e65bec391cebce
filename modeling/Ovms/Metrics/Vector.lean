import Ovms.Lib.Machine
import Ovms.Lib.Numeral
import Ovms.Metrics.Persist

/-!
# Persistent Vectors

`OvmsMetricVector` (`main/ovms_metrics.h`): a vector of values that is kept in the persistent
storage, its size under the name of the metric and each element under the name with the index
behind it. The pointers to the words of elements are kept when the vector shrinks, and used
again when it grows. The type of the elements is a parameter, and so is the conversion of
units, which goes over `float`.

A call that makes the vector grow past its end leaves the elements in between as zero, but
does not write them; where they have a word from before, the word stays (`SkipsBlank` is what
the call must meet). An element that is no number is not equal to itself, which
`CheckPersist` takes for a bad value. And the names of elements are cut to 99 bytes, after
which two elements can share a name.
-/

open Lib

namespace Ovms.Metrics

/-- `OvmsMetricVector<ElemType>`, with what it has from `OvmsMetric`. -/
structure OvmsMetricVector (α : Type) where
  name : Name
  units : MetricUnit
  defined : MetricDefined
  persist : Bool
  value : List α
  valuepSize : Option Pointer
  valuepElem : List Pointer
  deriving DecidableEq, Repr

/-- The name of an element, `"%s_%u"`, in a buffer of 100 bytes. -/
def elemName (name : Name) (i : ℕ) : Name :=
  (name ++ 0x5F :: (numeral 10 1 i).map fun d => UInt8.ofNat (48 + d)).take 99

namespace OvmsMetricVector

variable {α : Type} [ElemType α]

/-- `std::vector::resize`. -/
def resize (l : List α) (n : ℕ) : List α := l.take n ++ List.replicate (n - l.length) ElemType.zero

variable (hash : Name → UInt32)

/-- The loop of `SetPersistSize`: the elements from an index on registered, and read where the
vector is not persistent yet. It ends with the first that has no slot. -/
def registerElems (m : OvmsMetricVector α) (s : Persist) (i : ℕ) :
    ℕ → Option (OvmsMetricVector α) × Persist
  | 0 => (some m, s)
  | k + 1 =>
      match pmetricsRegister hash s (elemName m.name i) with
      | (none, s) => (none, s)
      | (some vp, s) =>
          registerElems
            { m with
              valuepElem := m.valuepElem ++ [vp]
              value :=
                if m.persist then m.value
                else m.value.set i (ElemType.read (s.pmetrics.word vp)) }
            s (i + 1) k

/-- The start of `SetPersistSize` for a longer vector: one that is not persistent yet is made
as long as its pointers will be. -/
def prepare (m : OvmsMetricVector α) (newSize : ℕ) : OvmsMetricVector α :=
  if m.persist then m else { m with value := resize m.value newSize }

/-- `SetPersistSize`. -/
def setPersistSize (m : OvmsMetricVector α) (s : Persist) (newSize : ℕ) :
    Bool × OvmsMetricVector α × Persist :=
  match m.valuepSize with
  | none => (false, m, s)
  | some vp =>
      let oldSize := m.valuepElem.length
      if newSize ≤ oldSize then (false, { m with persist := true }, s.write vp (.ofNat newSize))
      else
        let m := m.prepare newSize
        match registerElems hash m s oldSize (newSize - oldSize) with
        | (none, s) =>
            (false,
              { m with
                valuepSize := none, valuepElem := [], persist := false
                value := if m.persist then m.value else [] },
              s.write vp 0)
        | (some m, s) => (true, { m with persist := true }, s.write vp (.ofNat newSize))

/-- A vector before its storage is looked up. -/
def blank (name : Name) (units : MetricUnit) (vp : Option Pointer) : OvmsMetricVector α where
  name := name
  units := units
  defined := .neverDefined
  persist := false
  value := []
  valuepSize := vp
  valuepElem := []

/-- The constructor. -/
def new (s : Persist) (name : Name) (units : MetricUnit) (persist : Bool) :
    OvmsMetricVector α × Persist :=
  if persist = false ∨ 4 < ElemType.size α then (blank name units none, s)
  else
    match pmetricsRegister hash s name with
    | (none, s) => (blank name units none, s)
    | (some vp, s) =>
        let r := setPersistSize hash (blank name units (some vp)) s (s.pmetrics.word vp).toNat
        (if r.1 then { r.2.1 with defined := r.2.1.defined.setModified } else r.2.1, r.2.2)

/-- `CheckPersist`. -/
def checkPersist (m : OvmsMetricVector α) (s : Persist) : Bool :=
  match m.persist, m.valuepSize, m.defined.isDefined with
  | true, some vp, true =>
      decide ((s.pmetrics.word vp).toNat = m.value.length) &&
        decide (pmetricsFind hash s.pmetrics m.name = some vp) &&
        (List.range m.value.length).all (fun i =>
          match m.valuepElem[i]?, m.value[i]? with
          | some p, some a => ElemType.same (ElemType.read (s.pmetrics.word p)) a
          | _, _ => false) &&
        (List.range m.value.length).all (fun i =>
          match m.valuepElem[i]? with
          | some p => decide (pmetricsFind hash s.pmetrics (elemName m.name i) = some p)
          | none => false)
  | _, _, _ => true

/-- A value written through the pointer to an element. -/
def writeElem (s : Persist) (m : OvmsMetricVector α) (i : ℕ) (a : α) : Persist :=
  match m.valuepElem[i]? with
  | some vp => s.write vp (ElemType.write a (s.pmetrics.word vp))
  | none => s

/-- An element set, in the vector and in its word, if it changes or the size did. -/
def putElem (resized : Bool) (p : OvmsMetricVector α × Persist) (i : ℕ) (a : α) :
    OvmsMetricVector α × Persist :=
  if resized || !(p.1.value[i]?).any (ElemType.same · a) then
    ({ p.1 with value := p.1.value.set i a },
      if p.1.persist then writeElem p.2 p.1 i a else p.2)
  else p

/-- The loop over the elements that are set. -/
def putElems (resized : Bool) (p : OvmsMetricVector α × Persist) (i : ℕ) :
    List α → OvmsMetricVector α × Persist
  | [] => p
  | a :: as => putElems resized (putElem resized p i a) (i + 1) as

/-- The vector resized, and its storage with it. -/
def changeSize (m : OvmsMetricVector α) (s : Persist) (n : ℕ) : OvmsMetricVector α × Persist :=
  let m := { m with value := resize m.value n }
  if m.persist then (setPersistSize hash m s n).2 else (m, s)

/-- `SetModified`. -/
def setModified (p : OvmsMetricVector α × Persist) : OvmsMetricVector α × Persist :=
  ({ p.1 with defined := p.1.defined.setModified }, p.2)

variable (unitConvert : MetricUnit → MetricUnit → α → α)

/-- An element in the units of the metric. -/
def ivalue (m : OvmsMetricVector α) (units : MetricUnit) (a : α) : α :=
  if units ≠ .other ∧ units ≠ m.units then unitConvert units m.units a else a

/-- `SetValue`. -/
def setValue (p : OvmsMetricVector α × Persist) (value : List α) (units : MetricUnit) :
    OvmsMetricVector α × Persist :=
  let resized := decide (p.1.value.length ≠ value.length)
  let q := if resized then changeSize hash p.1 p.2 value.length else p
  setModified (putElems resized q 0 (value.map (ivalue unitConvert p.1 units)))

/-- `ClearValue`. -/
def clearValue (p : OvmsMetricVector α × Persist) : OvmsMetricVector α × Persist :=
  if p.1.defined.isDefined then
    let q := if p.1.persist then (setPersistSize hash p.1 p.2 0).2 else p
    setModified ({ q.1 with value := [] }, q.2)
  else p

/-- `SetElemValue`. -/
def setElemValue (p : OvmsMetricVector α × Persist) (n : ℕ) (nvalue : α) (units : MetricUnit) :
    OvmsMetricVector α × Persist :=
  let resized := decide (p.1.value.length < n + 1)
  let q := if resized then changeSize hash p.1 p.2 (n + 1) else p
  setModified (putElem resized q n (ivalue unitConvert p.1 units nvalue))

/-- `SetElemValues`. -/
def setElemValues (p : OvmsMetricVector α × Persist) (start : ℕ) (values : List α)
    (units : MetricUnit) : OvmsMetricVector α × Persist :=
  let resized := decide (p.1.value.length < start + values.length)
  let q := if resized then changeSize hash p.1 p.2 (start + values.length) else p
  setModified (putElems resized q start (values.map (ivalue unitConvert p.1 units)))

/-- A call, or another metric that registers a name. -/
inductive Call (α : Type)
  | setValue (value : List α) (units : MetricUnit)
  | setElemValue (n : ℕ) (nvalue : α) (units : MetricUnit)
  | setElemValues (start : ℕ) (values : List α) (units : MetricUnit)
  | clearValue
  | register (name : Name)

/-- One call. -/
def step (p : OvmsMetricVector α × Persist) : Call α → OvmsMetricVector α × Persist
  | .setValue value units => setValue hash unitConvert p value units
  | .setElemValue n nvalue units => setElemValue hash unitConvert p n nvalue units
  | .setElemValues start values units => setElemValues hash unitConvert p start values units
  | .clearValue => clearValue hash p
  | .register name => (p.1, (pmetricsRegister hash p.2 name).2)

/-! ### Pointers -/

/-- The names of the first elements, and of the metric, are different. -/
def NamesDiffer (name : Name) (n : ℕ) : Prop :=
  ∀ i < n, elemName name i ≠ name ∧ ∀ j < n, elemName name i = elemName name j → i = j

/-- The pointers of a persistent vector are the slots of its names, in a block in order. -/
structure Pointers (m : OvmsMetricVector α) (s : Persist) (vp : Pointer) : Prop where
  header : s.pmetrics.headerOk = true
  size_le : ElemType.size α ≤ 4
  valuepSize : m.valuepSize = some vp
  sizeSlot : Registered hash s m.name vp
  elems : ∀ i p, m.valuepElem[i]? = some p → Registered hash s (elemName m.name i) p

/-- A word that a name had before, or a new one, which is zero. -/
def Carried (s s' : Persist) (name : Name) (p : Pointer) : Prop :=
  (pmetricsFind hash s.pmetrics name = some p ∧ s'.pmetrics.word p = s.pmetrics.word p) ∨
    s'.pmetrics.word p = 0

variable {hash} {unitConvert}

theorem length_resize (l : List α) (n : ℕ) : (resize l n).length = n := by
  rw [resize, List.length_append, List.length_take, List.length_replicate]
  omega

theorem getElem?_resize_of_lt (l : List α) {n i : ℕ} (hi : i < n) (hl : i < l.length) :
    (resize l n)[i]? = l[i]? := by
  have hlen : i < (l.take n).length := by
    rw [List.length_take]
    omega
  rw [resize, List.getElem?_append_left hlen, List.getElem?_take_of_lt hi]

theorem getElem?_resize_of_ge (l : List α) {n i : ℕ} (hi : i < n) (hl : l.length ≤ i) :
    (resize l n)[i]? = some ElemType.zero := by
  have hlen : (l.take n).length ≤ i := by
    rw [List.length_take]
    omega
  rw [resize, List.getElem?_append_right hlen, List.getElem?_replicate, List.length_take,
    if_pos (by omega)]

/-- One element registered, and the rest. -/
theorem registerElems_succ (m : OvmsMetricVector α) (s : Persist) (i k : ℕ) :
    registerElems hash m s i (k + 1) =
      match pmetricsRegister hash s (elemName m.name i) with
      | (none, s) => (none, s)
      | (some vp, s) =>
          registerElems hash
            { m with
              valuepElem := m.valuepElem ++ [vp]
              value :=
                if m.persist then m.value
                else m.value.set i (ElemType.read (s.pmetrics.word vp)) }
            s (i + 1) k := rfl

/-- Registering elements keeps what is registered. -/
theorem extends_registerElems (k : ℕ) {m : OvmsMetricVector α} {s s' : Persist} {i : ℕ}
    (hok : s.pmetrics.headerOk = true) {r : Option (OvmsMetricVector α)}
    (h : registerElems hash m s i k = (r, s')) : Extends hash s s' := by
  induction k generalizing m s i with
  | zero =>
      obtain ⟨-, rfl⟩ := Prod.mk.inj h
      exact .refl hok
  | succ k ih =>
      rw [registerElems_succ] at h
      rcases hreg : pmetricsRegister hash s (elemName m.name i) with ⟨r₁, s₁⟩
      rw [hreg] at h
      have hextends := extends_pmetricsRegister hok hreg
      cases r₁ with
      | none =>
          obtain ⟨-, rfl⟩ := Prod.mk.inj h
          exact hextends
      | some vp => exact hextends.trans (ih hextends.header h)

/-- What a word is carried over from, over a name registered in between. -/
theorem Carried.of_register {s s₁ s' : Persist} {name other : Name} {p : Pointer}
    {r : Option Pointer} (hok : s.pmetrics.headerOk = true)
    (hreg : pmetricsRegister hash s other = (r, s₁)) (h : Carried hash s₁ s' name p) :
    Carried hash s s' name p := by
  rcases h with ⟨hfind, hword⟩ | hzero
  · rcases findHash_of_pmetricsRegister (.of_headerOk hok) hreg hfind with ⟨hold, hsame⟩ | hnew
    · exact .inl ⟨hold, hword.trans hsame⟩
    · exact .inr (hword.trans hnew)
  · exact .inr hzero

/-- The elements of a vector from an index on, when they were read from their words. -/
def loaded (persist : Bool) (value : List α) (i : ℕ) (as : List α) : List α :=
  if persist then value else value.take i ++ as

omit [ElemType α] in
theorem loaded_nil {persist : Bool} {value : List α} {i : ℕ}
    (h : persist = false → value.length = i) : loaded persist value i [] = value := by
  cases persist with
  | true => rfl
  | false =>
      rw [loaded, if_neg Bool.false_ne_true, List.append_nil,
        List.take_of_length_le (h rfl).le]

omit [ElemType α] in
/-- An element read before the others. -/
theorem loaded_set {persist : Bool} {value : List α} {i : ℕ} (a : α) (as : List α)
    (h : persist = false → i < value.length) :
    loaded persist (if persist then value else value.set i a) (i + 1) as =
      loaded persist value i (a :: as) := by
  cases persist with
  | true => rfl
  | false =>
      have hi := h rfl
      have hi' : i < (value.set i a).length := by
        rw [List.length_set]
        exact hi
      simp only [loaded, if_neg Bool.false_ne_true]
      rw [List.take_succ_eq_append_getElem hi', List.getElem_set_self, List.take_set_of_le le_rfl,
        List.append_assoc, List.singleton_append]

/-- **Registering elements** that all have slots adds the pointers to these; a vector that was
not persistent is read from them. -/
theorem registerElems_some (k : ℕ) {m m' : OvmsMetricVector α} {s s' : Persist} {i : ℕ}
    (hok : s.pmetrics.headerOk = true) (hlen : m.persist = false → m.value.length = i + k)
    (h : registerElems hash m s i k = (some m', s')) :
    ∃ ps : List Pointer, ps.length = k ∧
      (∀ j p, ps[j]? = some p → Registered hash s' (elemName m.name (i + j)) p ∧
        Carried hash s s' (elemName m.name (i + j)) p) ∧
      m' = { m with
        valuepElem := m.valuepElem ++ ps
        value := loaded m.persist m.value i
          (ps.map fun p => ElemType.read (s'.pmetrics.word p)) } := by
  induction k generalizing m s i with
  | zero =>
      obtain ⟨hm, rfl⟩ := Prod.mk.inj h
      obtain rfl := Option.some.inj hm
      refine ⟨[], rfl, fun j p hp => absurd hp (by simp), ?_⟩
      rw [Nat.add_zero] at hlen
      rw [List.map_nil, loaded_nil hlen, List.append_nil]
  | succ k ih =>
      rw [registerElems_succ] at h
      rcases hreg : pmetricsRegister hash s (elemName m.name i) with ⟨r, s₁⟩
      rw [hreg] at h
      cases r with
      | none => exact absurd (congrArg Prod.fst h) (Option.some_ne_none m').symm
      | some vp =>
          have hok₁ := headerOk_pmetricsRegister hreg hok
          have hvp := Registered.of_register (.of_headerOk hok) hreg
          have hextends := extends_registerElems k hok₁ h
          have hword := hextends.word hvp
          have hlen₁ : m.persist = false →
              (if m.persist then m.value
                else m.value.set i (ElemType.read (s₁.pmetrics.word vp))).length =
                i + 1 + k := by
            intro hp
            rw [hp, if_neg Bool.false_ne_true, List.length_set, hlen hp]
            omega
          obtain ⟨ps, hps, hmem, heq⟩ := ih hok₁ hlen₁ h
          refine ⟨vp :: ps, congrArg (· + 1) hps, ?_, ?_⟩
          · intro j p hp
            cases j with
            | zero =>
                obtain rfl := Option.some.inj hp
                refine ⟨hextends.registered _ _ hvp, ?_⟩
                rcases word_of_pmetricsRegister hreg with ⟨hfind, hsame⟩ | ⟨-, hzero⟩
                · exact .inl ⟨hfind, hword.trans (by rw [hsame])⟩
                · exact .inr (hword.trans hzero)
            | succ j =>
                obtain ⟨hregistered, hcarried⟩ := hmem j p hp
                rw [Nat.add_right_comm i 1 j] at hregistered hcarried
                exact ⟨hregistered, hcarried.of_register hok hreg⟩
          · have hi : m.persist = false → i < m.value.length := fun hp => by
              rw [hlen hp]
              omega
            rw [heq]
            simp only [loaded_set _ _ hi]
            rw [List.map_cons, hword, List.append_assoc, List.singleton_append]

/-- **What a change of the persistent size can do**: keep all pointers, add some, or lose the
persistence. -/
theorem setPersistSize_cases (hash : Name → UInt32) {m : OvmsMetricVector α} {vp : Pointer}
    (hvp : m.valuepSize = some vp) (s : Persist) (n : ℕ) :
    (n ≤ m.valuepElem.length ∧ setPersistSize hash m s n =
      (false, { m with persist := true }, s.write vp (.ofNat n))) ∨
    (m.valuepElem.length < n ∧ ∃ m₁ s₁,
      registerElems hash (m.prepare n) s m.valuepElem.length
        (n - m.valuepElem.length) = (some m₁, s₁) ∧
      setPersistSize hash m s n = (true, { m₁ with persist := true }, s₁.write vp (.ofNat n))) ∨
    (m.valuepElem.length < n ∧ (registerElems hash (m.prepare n) s m.valuepElem.length
        (n - m.valuepElem.length)).1 = none ∧
      (setPersistSize hash m s n).2.1.persist = false) := by
  rw [setPersistSize, hvp]
  by_cases hle : n ≤ m.valuepElem.length
  · exact .inl ⟨hle, if_pos hle⟩
  · refine .inr ?_
    simp only [if_neg hle]
    rcases registerElems hash (m.prepare n) s m.valuepElem.length (n - m.valuepElem.length)
      with ⟨r, s₁⟩
    cases r with
    | none => exact .inr ⟨Nat.lt_of_not_le hle, rfl, rfl⟩
    | some m₁ => exact .inl ⟨Nat.lt_of_not_le hle, m₁, s₁, rfl, rfl⟩

/-- **What a change of the size does** to a persistent vector that stays persistent: pointers
to further elements are added, whose words are carried over, and the size is written. -/
theorem Pointers.setPersistSize {m m' : OvmsMetricVector α} {s s' : Persist} {vp : Pointer}
    {b : Bool} {n : ℕ} (h : Pointers hash m s vp) (hp : m.persist = true)
    (hset : setPersistSize hash m s n = (b, m', s')) (hp' : m'.persist = true) :
    ∃ (ps : List Pointer) (s₁ : Persist), m' = { m with valuepElem := m.valuepElem ++ ps } ∧
      (m.valuepElem ++ ps).length = max m.valuepElem.length n ∧ Pointers hash m' s' vp ∧
      Extends hash s s₁ ∧ s' = s₁.write vp (.ofNat n) ∧
      ∀ (i : ℕ) (p : Pointer), m.valuepElem.length ≤ i → (m.valuepElem ++ ps)[i]? = some p →
        Carried hash s s₁ (elemName m.name i) p := by
  rcases setPersistSize_cases hash h.valuepSize s n with
    ⟨hle, heq⟩ | ⟨hlt, m₁, s₁, hreg, heq⟩ | ⟨-, -, hlost⟩
  · obtain ⟨-, hm, rfl⟩ : false = b ∧ { m with persist := true } = m' ∧
        s.write vp (.ofNat n) = s' := by
      rw [heq] at hset
      exact ⟨congrArg Prod.fst hset, congrArg (Prod.fst ∘ Prod.snd) hset,
        congrArg (Prod.snd ∘ Prod.snd) hset⟩
    rw [← hp] at hm
    obtain rfl : m = m' := hm
    refine ⟨[], s, by rw [List.append_nil], by rw [List.append_nil, Nat.max_eq_left hle],
      ⟨h.header, h.size_le, h.valuepSize, registered_write_iff.mpr h.sizeSlot,
        fun i p hi => registered_write_iff.mpr (h.elems i p hi)⟩, .refl h.header, rfl, ?_⟩
    intro i p hge hi
    rw [List.append_nil] at hi
    exact absurd (List.getElem?_eq_some_iff.mp hi).1 (Nat.not_lt.mpr hge)
  · obtain ⟨-, rfl, rfl⟩ : true = b ∧ { m₁ with persist := true } = m' ∧
        s₁.write vp (.ofNat n) = s' := by
      rw [heq] at hset
      exact ⟨congrArg Prod.fst hset, congrArg (Prod.fst ∘ Prod.snd) hset,
        congrArg (Prod.snd ∘ Prod.snd) hset⟩
    have hprepare : m.prepare n = m := if_pos hp
    rw [hprepare] at hreg
    have hnot : m.persist = false → m.value.length =
        m.valuepElem.length + (n - m.valuepElem.length) :=
      fun hfalse => absurd (hp.symm.trans hfalse) Bool.true_eq_false.mp
    obtain ⟨ps, hps, hmem, hm₁⟩ := registerElems_some _ h.header hnot hreg
    have hextends := extends_registerElems _ h.header hreg
    have hvalue : loaded m.persist m.value m.valuepElem.length
        (ps.map fun p => ElemType.read (s₁.pmetrics.word p)) = m.value := by
      rw [hp]
      rfl
    rw [hvalue] at hm₁
    have hm' : { m₁ with persist := true } = { m with valuepElem := m.valuepElem ++ ps } := by
      rw [hm₁, ← hp]
    have helems : ∀ (i : ℕ) (p : Pointer), (m.valuepElem ++ ps)[i]? = some p →
        Registered hash s₁ (elemName m.name i) p := by
      intro i p hi
      rcases Nat.lt_or_ge i m.valuepElem.length with hlt | hge
      · rw [List.getElem?_append_left hlt] at hi
        exact hextends.registered _ _ (h.elems i p hi)
      · rw [List.getElem?_append_right hge] at hi
        have := (hmem _ p hi).1
        rwa [Nat.add_sub_cancel' hge] at this
    rw [hm']
    refine ⟨ps, s₁, rfl, ?_, ⟨hextends.header, h.size_le, h.valuepSize,
      registered_write_iff.mpr (hextends.registered _ _ h.sizeSlot),
      fun i p hi => registered_write_iff.mpr (helems i p hi)⟩, hextends, rfl, ?_⟩
    · rw [List.length_append, hps]
      omega
    · intro i p hge hi
      rw [List.getElem?_append_right hge] at hi
      have := (hmem _ p hi).2
      rwa [Nat.add_sub_cancel' hge] at this
  · rw [hset] at hlost
    exact absurd (hlost.symm.trans hp') Bool.false_ne_true

/-- The words after a change of the size, where the names of the elements differ from that of
the metric: those of all elements stay. -/
theorem Pointers.words_setPersistSize {m m' : OvmsMetricVector α} {s s' : Persist} {vp : Pointer}
    {b : Bool} {n : ℕ} (h : Pointers hash m s vp) (hp : m.persist = true)
    (hdiffer : NamesDiffer m.name (max m.valuepElem.length n))
    (hset : OvmsMetricVector.setPersistSize hash m s n = (b, m', s')) (hp' : m'.persist = true) :
    s'.pmetrics.word vp = .ofNat n ∧
      (∀ (i : ℕ) (p : Pointer), m.valuepElem[i]? = some p →
        s'.pmetrics.word p = s.pmetrics.word p) ∧
      ∀ (i : ℕ) (p : Pointer), m.valuepElem.length ≤ i → m'.valuepElem[i]? = some p →
        Carried hash s s' (elemName m.name i) p := by
  obtain ⟨ps, s₁, rfl, hlen, hptrs, hextends, rfl, hcarried⟩ := h.setPersistSize hp hset hp'
  have hword : ∀ (i : ℕ) (p : Pointer), (m.valuepElem ++ ps)[i]? = some p →
      (s₁.write vp (.ofNat n)).pmetrics.word p = s₁.pmetrics.word p := by
    intro i p hi
    have hlt := (List.getElem?_eq_some_iff.mp hi).1
    have hne := (hptrs.elems i p hi).slot_ne hptrs.sizeSlot (hdiffer i (hlen ▸ hlt)).1
    exact PersistentMetrics.word_write_of_ne _ hne _
  refine ⟨PersistentMetrics.word_write_self _ _ _, ?_, ?_⟩
  · intro i p hi
    have hi' : (m.valuepElem ++ ps)[i]? = some p := by
      rw [List.getElem?_append_left (List.getElem?_eq_some_iff.mp hi).1, hi]
    rw [hword i p hi', hextends.word (h.elems i p hi)]
  · intro i p hge hi
    have hw := hword i p hi
    rcases hcarried i p hge hi with ⟨hfind, hsame⟩ | hzero
    · exact .inl ⟨hfind, hw.trans hsame⟩
    · exact .inr (hw.trans hzero)

/-! ### Words and elements -/

variable (hash) in
/-- A persistent vector whose storage has its size: each element has a word, and the words of
all elements that ever had one, and of the size, are different. -/
structure Sized (m : OvmsMetricVector α) (s : Persist) (vp : Pointer) : Prop
    extends Pointers hash m s vp where
  persist : m.persist = true
  fits : m.value.length ≤ m.valuepElem.length
  differ : NamesDiffer m.name m.valuepElem.length
  sizeWord : s.pmetrics.word vp = .ofNat m.value.length

/-- The word of an element is the element. -/
def MirrorAt (m : OvmsMetricVector α) (s : Persist) (i : ℕ) : Prop :=
  ∀ a, m.value[i]? = some a →
    ∃ p, m.valuepElem[i]? = some p ∧ ElemType.read (s.pmetrics.word p) = a

variable (hash) in
/-- **The invariant**: the words of all elements are the elements, and these are equal to
themselves. -/
structure Mirrored (m : OvmsMetricVector α) (s : Persist) (vp : Pointer) : Prop
    extends Sized hash m s vp where
  mirror : ∀ i, MirrorAt m s i
  same : ∀ a ∈ m.value, ElemType.same a a = true

theorem Sized.elem_ne_size {m : OvmsMetricVector α} {s : Persist} {vp p : Pointer} {i : ℕ}
    (h : Sized hash m s vp) (hi : m.valuepElem[i]? = some p) : p ≠ vp :=
  (h.elems i p hi).slot_ne h.sizeSlot (h.differ i (List.getElem?_eq_some_iff.mp hi).1).1

theorem Sized.elem_ne_elem {m : OvmsMetricVector α} {s : Persist} {vp p q : Pointer} {i j : ℕ}
    (h : Sized hash m s vp) (hi : m.valuepElem[i]? = some p) (hj : m.valuepElem[j]? = some q)
    (hne : i ≠ j) : p ≠ q :=
  (h.elems i p hi).slot_ne (h.elems j q hj) fun heq =>
    hne ((h.differ i (List.getElem?_eq_some_iff.mp hi).1).2 j
      (List.getElem?_eq_some_iff.mp hj).1 heq)

/-- There are no more elements than words. -/
theorem Sized.length_le {m : OvmsMetricVector α} {s : Persist} {vp : Pointer}
    (h : Sized hash m s vp) : m.value.length ≤ numPersistentValues := by
  have hnodup : m.valuepElem.Nodup := by
    rw [List.nodup_iff_getElem?_ne_getElem?]
    intro i j hij hj heq
    have hi : i < m.valuepElem.length := by omega
    rw [List.getElem?_eq_getElem hi] at heq
    exact h.elem_ne_elem (List.getElem?_eq_getElem hi) heq.symm (Nat.ne_of_lt hij) rfl
  have hcard := hnodup.length_le_card
  rw [Fintype.card_fin] at hcard
  exact h.fits.trans hcard

theorem Sized.toNat_sizeWord {m : OvmsMetricVector α} {s : Persist} {vp : Pointer}
    (h : Sized hash m s vp) : (s.pmetrics.word vp).toNat = m.value.length := by
  have hle : m.value.length ≤ 100 := h.length_le
  rw [h.sizeWord, UInt32.toNat_ofNat']
  omega

/-- **One element set**: its word is the element if it is written at all; the words of the
others stay as they are. -/
theorem Sized.putElem {m m' : OvmsMetricVector α} {s s' : Persist} {vp : Pointer}
    (h : Sized hash m s vp) (resized : Bool) {i : ℕ} (hi : i < m.value.length) (a : α)
    (hput : putElem resized (m, s) i a = (m', s')) :
    Sized hash m' s' vp ∧ m'.value.length = m.value.length ∧ m'.name = m.name ∧
      (∀ b ∈ m'.value, b = a ∨ b ∈ m.value) ∧
      (∀ j, MirrorAt m s j → MirrorAt m' s' j) ∧ (resized = true → MirrorAt m' s' i) := by
  rw [OvmsMetricVector.putElem] at hput
  split at hput
  · next hwrite =>
    have hfits : i < m.valuepElem.length := by
      have := h.fits
      omega
    obtain ⟨p, hp⟩ : ∃ p, m.valuepElem[i]? = some p := ⟨_, List.getElem?_eq_getElem hfits⟩
    obtain ⟨rfl, rfl⟩ : { m with value := m.value.set i a } = m' ∧
        s.write p (ElemType.write a (s.pmetrics.word p)) = s' := by
      rw [if_pos h.persist, writeElem, hp] at hput
      exact Prod.mk.inj hput
    have hword : ∀ j q, j ≠ i → m.valuepElem[j]? = some q →
        (s.write p (ElemType.write a (s.pmetrics.word p))).pmetrics.word q =
          s.pmetrics.word q :=
      fun j q hji hq => PersistentMetrics.word_write_of_ne _ (h.elem_ne_elem hq hp hji) _
    have hself : MirrorAt { m with value := m.value.set i a }
        (s.write p (ElemType.write a (s.pmetrics.word p))) i := by
      intro b hb
      rw [List.getElem?_set_self hi] at hb
      obtain rfl := Option.some.inj hb
      refine ⟨p, hp, ?_⟩
      rw [Persist.pmetrics_write, PersistentMetrics.word_write_self,
        ElemType.read_write h.size_le]
    refine ⟨⟨⟨h.header, h.size_le, h.valuepSize, registered_write_iff.mpr h.sizeSlot,
      fun j q hq => registered_write_iff.mpr (h.elems j q hq)⟩, h.persist, ?_, h.differ, ?_⟩,
      List.length_set, rfl, ?_, ?_, fun _ => hself⟩
    · rw [List.length_set]
      exact h.fits
    · rw [List.length_set, ← h.sizeWord]
      exact PersistentMetrics.word_write_of_ne _ (h.elem_ne_size hp).symm _
    · intro b hb
      exact (List.mem_or_eq_of_mem_set hb).symm
    · intro j hj
      rcases eq_or_ne j i with rfl | hne
      · exact hself
      · intro b hb
        rw [List.getElem?_set_ne hne.symm] at hb
        obtain ⟨q, hq, hread⟩ := hj b hb
        exact ⟨q, hq, by rw [hword j q hne hq, hread]⟩
  · next hkeep =>
    obtain ⟨rfl, rfl⟩ := Prod.mk.inj hput
    refine ⟨h, rfl, rfl, fun b hb => .inr hb, fun j hj => hj, fun hr => ?_⟩
    rw [hr, Bool.true_or] at hkeep
    exact absurd rfl hkeep

/-- **The loop over the elements that are set.** -/
theorem Sized.putElems {m m' : OvmsMetricVector α} {s s' : Persist} {vp : Pointer}
    (h : Sized hash m s vp) (resized : Bool) {i : ℕ} {as : List α}
    (hi : i + as.length ≤ m.value.length)
    (hput : putElems resized (m, s) i as = (m', s')) :
    Sized hash m' s' vp ∧ m'.value.length = m.value.length ∧ m'.name = m.name ∧
      (∀ b ∈ m'.value, b ∈ as ∨ b ∈ m.value) ∧
      (∀ j, MirrorAt m s j → MirrorAt m' s' j) ∧
      (resized = true → ∀ j, i ≤ j → j < i + as.length → MirrorAt m' s' j) := by
  induction as generalizing m s i with
  | nil =>
      obtain ⟨rfl, rfl⟩ := Prod.mk.inj hput
      exact ⟨h, rfl, rfl, fun b hb => .inr hb, fun j hj => hj,
        fun _ j hle hlt => absurd hlt (Nat.not_lt.mpr hle)⟩
  | cons a as ih =>
      rw [List.length_cons] at hi
      rcases hone : OvmsMetricVector.putElem resized (m, s) i a with ⟨m₁, s₁⟩
      rw [OvmsMetricVector.putElems, hone] at hput
      obtain ⟨h₁, hlen₁, hname₁, hmem₁, hmirror₁, hself₁⟩ := h.putElem resized (by omega) a hone
      obtain ⟨h₂, hlen₂, hname₂, hmem₂, hmirror₂, hrange₂⟩ := ih h₁ (by omega) hput
      refine ⟨h₂, hlen₂.trans hlen₁, hname₂.trans hname₁, ?_,
        fun j hj => hmirror₂ j (hmirror₁ j hj), ?_⟩
      · intro b hb
        rw [List.mem_cons]
        rcases hmem₂ b hb with hb | hb
        · exact .inl (.inr hb)
        · exact (hmem₁ b hb).imp .inl id
      · intro hr j hle hlt
        rw [List.length_cons] at hlt
        rcases Nat.eq_or_lt_of_le hle with rfl | hgt
        · exact hmirror₂ i (hself₁ hr)
        · exact hrange₂ hr j hgt (by omega)

theorem persist_putElems (resized : Bool) (p : OvmsMetricVector α × Persist) (i : ℕ)
    (as : List α) : (putElems resized p i as).1.persist = p.1.persist := by
  induction as generalizing p i with
  | nil => rfl
  | cons a as ih =>
      rw [OvmsMetricVector.putElems, ih, putElem]
      split <;> rfl

/-- The elements of a longer vector that a call leaves out have no word yet, or one that is
read as zero. -/
def SkipsBlank (hash : Name → UInt32) (m : OvmsMetricVector α) (s : Persist) (start : ℕ) : Prop :=
  ∀ i, m.value.length ≤ i → i < start → ∀ p,
    pmetricsFind hash s.pmetrics (elemName m.name i) = some p →
    ElemType.read (s.pmetrics.word p) = (ElemType.zero : α)

/-- **A change of the size** of a vector that stays persistent: the elements that stay have
their words; of the others, those have that had none or a blank one. -/
theorem Mirrored.changeSize {m m' : OvmsMetricVector α} {s s' : Persist} {vp : Pointer} {n : ℕ}
    (h : Mirrored hash m s vp) (hdiffer : NamesDiffer m.name n)
    (hc : changeSize hash m s n = (m', s')) (hp' : m'.persist = true) :
    Sized hash m' s' vp ∧ m'.value = resize m.value n ∧ m'.name = m.name ∧
      ∀ start ≤ n, SkipsBlank hash m s start →
        ∀ j, j < m.value.length ∨ j < start → MirrorAt m' s' j := by
  have hptrs : Pointers hash { m with value := resize m.value n } s vp :=
    ⟨h.header, h.size_le, h.valuepSize, h.sizeSlot, h.elems⟩
  have hmax : NamesDiffer m.name (max m.valuepElem.length n) := by
    rcases max_choice m.valuepElem.length n with heq | heq
    · rw [heq]
      exact h.differ
    · rw [heq]
      exact hdiffer
  rcases hset : setPersistSize hash { m with value := resize m.value n } s n with ⟨b, m₁, s₁⟩
  rw [OvmsMetricVector.changeSize, if_pos h.persist, hset] at hc
  obtain ⟨rfl, rfl⟩ := Prod.mk.inj hc
  obtain ⟨hsize, hkept, hadded⟩ := hptrs.words_setPersistSize h.persist hmax hset hp'
  obtain ⟨ps, -, rfl, hlen, hptrs', -⟩ := hptrs.setPersistSize h.persist hset hp'
  have hfits : n ≤ (m.valuepElem ++ ps).length := hlen ▸ Nat.le_max_right _ _
  refine ⟨⟨hptrs', hp', ?_, ?_, ?_⟩, rfl, rfl, ?_⟩
  · rw [length_resize]
    exact hfits
  · rw [hlen]
    exact hmax
  · rw [length_resize]
    exact hsize
  · intro start hstart hblank j hj a ha
    have hjn : j < n := by
      rw [← length_resize m.value n]
      exact (List.getElem?_eq_some_iff.mp ha).1
    obtain ⟨p, hp⟩ : ∃ p, (m.valuepElem ++ ps)[j]? = some p :=
      ⟨_, List.getElem?_eq_getElem (hjn.trans_le hfits)⟩
    rcases Nat.lt_or_ge j m.value.length with hold | hnew
    · rw [getElem?_resize_of_lt _ hjn hold] at ha
      obtain ⟨q, hq, hread⟩ := h.mirror j a ha
      rw [List.getElem?_append_left (List.getElem?_eq_some_iff.mp hq).1, hq] at hp
      obtain rfl := Option.some.inj hp
      refine ⟨q, ?_, by rw [hkept j q hq, hread]⟩
      rw [List.getElem?_append_left (List.getElem?_eq_some_iff.mp hq).1, hq]
    · have hskip : j < start := hj.resolve_left (Nat.not_lt.mpr hnew)
      rw [getElem?_resize_of_ge _ hjn hnew] at ha
      obtain rfl := Option.some.inj ha
      refine ⟨p, hp, ?_⟩
      rcases Nat.lt_or_ge j m.valuepElem.length with hretained | hfresh
      · rw [List.getElem?_append_left hretained] at hp
        rw [hkept j p hp]
        exact hblank j hnew hskip p (h.elems j p hp).find
      · rcases hadded j p hfresh hp with ⟨hfind, hword⟩ | hzero
        · rw [hword]
          exact hblank j hnew hskip p hfind
        · rw [hzero, ElemType.read_zero h.size_le]

/-- **The size changed where it must, and elements set**: what the calls have in common. -/
theorem Mirrored.store {m m' : OvmsMetricVector α} {s s' : Persist} {vp : Pointer}
    {resized : Bool} {start : ℕ} {as : List α} (h : Mirrored hash m s vp)
    (hgrow : resized = true →
      NamesDiffer m.name (start + as.length) ∧ SkipsBlank hash m s start)
    (hkeep : resized = false → start + as.length ≤ m.value.length)
    (hsame : ∀ a ∈ as, ElemType.same a a = true)
    (hput : putElems resized
      (if resized then OvmsMetricVector.changeSize hash m s (start + as.length) else (m, s)) start
      as = (m', s'))
    (hp' : m'.persist = true) : Mirrored hash m' s' vp ∧ m'.name = m.name := by
  cases resized with
  | false =>
      obtain ⟨hsized, -, hname, hmem, hmirror, -⟩ :=
        h.toSized.putElems false (hkeep rfl) hput
      exact ⟨⟨hsized, fun i => hmirror i (h.mirror i),
        fun b hb => (hmem b hb).elim (hsame b) (h.same b)⟩, hname⟩
  | true =>
      obtain ⟨hdiffer, hblank⟩ := hgrow rfl
      rw [if_pos rfl] at hput
      rcases hc : OvmsMetricVector.changeSize hash m s (start + as.length) with ⟨m₁, s₁⟩
      rw [hc] at hput
      have hp₁ : m₁.persist = true := by
        rw [← hp', ← persist_putElems true (m₁, s₁) start as, hput]
      obtain ⟨hsized₁, hvalue₁, hname₁, hmirror₁⟩ := h.changeSize hdiffer hc hp₁
      have hlen₁ : m₁.value.length = start + as.length := by
        rw [hvalue₁, length_resize]
      obtain ⟨hsized, hlen, hname, hmem, hmirror, hrange⟩ :=
        hsized₁.putElems true hlen₁.ge hput
      refine ⟨⟨hsized, fun j => ?_, fun b hb => ?_⟩, hname.trans hname₁⟩
      · rcases Nat.lt_or_ge j start with hlt | hge
        · exact hmirror j (hmirror₁ start (Nat.le_add_right _ _) hblank j (.inr hlt))
        · intro a ha
          have hj : j < start + as.length := by
            rw [← hlen₁, ← hlen]
            exact (List.getElem?_eq_some_iff.mp ha).1
          exact hrange rfl j hge hj a ha
      · rcases hmem b hb with hb | hb
        · exact hsame b hb
        · rw [hvalue₁, resize, List.mem_append] at hb
          rcases hb with hb | hb
          · exact h.same b (List.mem_of_mem_take hb)
          · rw [List.eq_of_mem_replicate hb]
            exact ElemType.same_zero

theorem Mirrored.setDefined {m : OvmsMetricVector α} {s : Persist} {vp : Pointer}
    (h : Mirrored hash m s vp) (d : MetricDefined) :
    Mirrored hash { m with defined := d } s vp :=
  ⟨⟨⟨h.header, h.size_le, h.valuepSize, h.sizeSlot, h.elems⟩, h.persist, h.fits, h.differ,
    h.sizeWord⟩, h.mirror, h.same⟩

/-- The same, with the flags set that tell of a new value. -/
theorem Mirrored.storeModified {m m' : OvmsMetricVector α} {s s' : Persist} {vp : Pointer}
    {resized : Bool} {start : ℕ} {as : List α} (h : Mirrored hash m s vp)
    (hgrow : resized = true →
      NamesDiffer m.name (start + as.length) ∧ SkipsBlank hash m s start)
    (hkeep : resized = false → start + as.length ≤ m.value.length)
    (hsame : ∀ a ∈ as, ElemType.same a a = true)
    (hput : setModified (putElems resized
      (if resized then OvmsMetricVector.changeSize hash m s (start + as.length) else (m, s)) start
      as) = (m', s'))
    (hp' : m'.persist = true) : Mirrored hash m' s' vp ∧ m'.name = m.name := by
  obtain ⟨rfl, rfl⟩ := Prod.mk.inj hput
  obtain ⟨hmirrored, hname⟩ := h.store hgrow hkeep hsame rfl hp'
  exact ⟨hmirrored.setDefined _, hname⟩

/-! ### Calls -/

variable (hash unitConvert) in
/-- **The condition of a call**: a vector that grows past its end finds no words of before for
the elements that are left out, the names of its elements differ, and all elements are equal
to themselves. -/
def Allowed (p : OvmsMetricVector α × Persist) : Call α → Prop
  | .setValue value units =>
      (p.1.value.length ≠ value.length → NamesDiffer p.1.name value.length) ∧
        ∀ a ∈ value, ElemType.same (ivalue unitConvert p.1 units a)
          (ivalue unitConvert p.1 units a) = true
  | .setElemValue n nvalue units =>
      (p.1.value.length < n + 1 →
        NamesDiffer p.1.name (n + 1) ∧ SkipsBlank hash p.1 p.2 n) ∧
        ElemType.same (ivalue unitConvert p.1 units nvalue)
          (ivalue unitConvert p.1 units nvalue) = true
  | .setElemValues start values units =>
      (p.1.value.length < start + values.length →
        NamesDiffer p.1.name (start + values.length) ∧ SkipsBlank hash p.1 p.2 start) ∧
        ∀ a ∈ values, ElemType.same (ivalue unitConvert p.1 units a)
          (ivalue unitConvert p.1 units a) = true
  | .clearValue => True
  | .register _ => True

/-- A vector without elements is mirrored by its size. -/
theorem Mirrored.of_nil {m : OvmsMetricVector α} {s : Persist} {vp : Pointer}
    (h : Pointers hash m s vp) (hp : m.persist = true)
    (hdiffer : NamesDiffer m.name m.valuepElem.length) (hsize : s.pmetrics.word vp = .ofNat 0) :
    Mirrored hash ({ m with value := [] } : OvmsMetricVector α) s vp := by
  refine ⟨⟨⟨h.header, h.size_le, h.valuepSize, h.sizeSlot, h.elems⟩, hp, Nat.zero_le _, hdiffer,
    hsize⟩, ?_, ?_⟩
  · intro i a ha
    rw [List.getElem?_nil] at ha
    exact absurd ha (Option.some_ne_none a).symm
  · intro a ha
    exact absurd ha List.not_mem_nil

/-- **What one call preserves**, if the vector stays persistent. -/
theorem Mirrored.step {m m' : OvmsMetricVector α} {s s' : Persist} {vp : Pointer}
    (h : Mirrored hash m s vp) {call : Call α} (hallowed : Allowed hash unitConvert (m, s) call)
    (hstep : step hash unitConvert (m, s) call = (m', s')) (hp' : m'.persist = true) :
    Mirrored hash m' s' vp ∧ m'.name = m.name := by
  have hmap : ∀ {units : MetricUnit} {as : List α},
      (∀ a ∈ as, ElemType.same (ivalue unitConvert m units a)
        (ivalue unitConvert m units a) = true) →
      ∀ a ∈ as.map (ivalue unitConvert m units), ElemType.same a a = true := by
    intro units as has a ha
    obtain ⟨b, hb, rfl⟩ := List.mem_map.mp ha
    exact has b hb
  cases call with
  | setValue value units =>
      obtain ⟨hdiffer, hsame⟩ := hallowed
      have hlen : 0 + (value.map (ivalue unitConvert m units)).length = value.length := by
        rw [List.length_map, Nat.zero_add]
      rw [OvmsMetricVector.step, setValue, ← hlen] at hstep
      rw [← hlen] at hdiffer
      refine h.storeModified (fun hr => ⟨hdiffer (of_decide_eq_true hr), ?_⟩) (fun hr => ?_)
        (hmap hsame) hstep hp'
      · exact fun i _ hi => absurd hi (Nat.not_lt_zero i)
      · exact (not_not.mp (of_decide_eq_false hr)).ge
  | setElemValue n nvalue units =>
      obtain ⟨hgrow, hsame⟩ := hallowed
      have hone : ∀ a ∈ [ivalue unitConvert m units nvalue], ElemType.same a a = true := by
        intro a ha
        rw [List.mem_singleton.mp ha]
        exact hsame
      refine h.storeModified (fun hr => hgrow (of_decide_eq_true hr)) (fun hr => ?_) hone hstep hp'
      exact Nat.le_of_not_lt (of_decide_eq_false hr)
  | setElemValues start values units =>
      obtain ⟨hgrow, hsame⟩ := hallowed
      have hlen : (values.map (ivalue unitConvert m units)).length = values.length :=
        List.length_map _
      rw [OvmsMetricVector.step, setElemValues, ← hlen] at hstep
      rw [← hlen] at hgrow
      refine h.storeModified (fun hr => hgrow (of_decide_eq_true hr)) (fun hr => ?_)
        (hmap hsame) hstep hp'
      exact Nat.le_of_not_lt (of_decide_eq_false hr)
  | clearValue =>
      rw [OvmsMetricVector.step, clearValue] at hstep
      split at hstep
      · rcases hset : setPersistSize hash m s 0 with ⟨b, m₁, s₁⟩
        rw [if_pos h.persist, hset] at hstep
        obtain ⟨rfl, rfl⟩ := Prod.mk.inj hstep
        have hmax : max m.valuepElem.length 0 = m.valuepElem.length := Nat.max_zero _
        obtain ⟨hsize, -⟩ :=
          h.toPointers.words_setPersistSize h.persist (hmax.symm ▸ h.differ) hset hp'
        obtain ⟨ps, -, rfl, hlen, hptrs, -⟩ := h.toPointers.setPersistSize h.persist hset hp'
        have hdiffer : NamesDiffer m.name (m.valuepElem ++ ps).length := by
          rw [hlen, hmax]
          exact h.differ
        exact ⟨(Mirrored.of_nil hptrs hp' hdiffer hsize).setDefined _, rfl⟩
      · obtain ⟨rfl, rfl⟩ := Prod.mk.inj hstep
        exact ⟨h, rfl⟩
  | register name =>
      obtain ⟨rfl, rfl⟩ := Prod.mk.inj hstep
      rcases hreg : pmetricsRegister hash s name with ⟨r, s₁⟩
      have hextends := extends_pmetricsRegister h.header hreg
      refine ⟨⟨⟨⟨hextends.header, h.size_le, h.valuepSize, hextends.registered _ _ h.sizeSlot,
        fun i p hi => hextends.registered _ _ (h.elems i p hi)⟩, h.persist, h.fits, h.differ,
        (hextends.word h.sizeSlot).trans h.sizeWord⟩, ?_, h.same⟩, rfl⟩
      intro i a ha
      obtain ⟨p, hp, hread⟩ := h.mirror i a ha
      exact ⟨p, hp, by rw [hextends.word (h.elems i p hp), hread]⟩

/-! ### Checking and making -/

/-- What the check of a persistent vector with a value looks at. -/
theorem checkPersist_iff {m : OvmsMetricVector α} {s : Persist} {vp : Pointer}
    (hp : m.persist = true) (hvp : m.valuepSize = some vp) (hd : m.defined.isDefined = true) :
    checkPersist hash m s = true ↔
      (s.pmetrics.word vp).toNat = m.value.length ∧
        pmetricsFind hash s.pmetrics m.name = some vp ∧
        ∀ (i : ℕ) (a : α), m.value[i]? = some a → ∃ p, m.valuepElem[i]? = some p ∧
          ElemType.same (ElemType.read (s.pmetrics.word p)) a = true ∧
          pmetricsFind hash s.pmetrics (elemName m.name i) = some p := by
  rw [checkPersist, hp, hvp, hd]
  simp only [Bool.and_eq_true, decide_eq_true_eq, List.all_eq_true, List.mem_range, and_assoc]
  refine and_congr_right fun _ => and_congr_right fun _ => ⟨?_, ?_⟩
  · rintro ⟨hvalues, hfinds⟩ i a ha
    have hi := (List.getElem?_eq_some_iff.mp ha).1
    have hvalue := hvalues i hi
    have hfind := hfinds i hi
    cases hpi : m.valuepElem[i]? with
    | none =>
        rw [hpi] at hfind
        exact absurd hfind Bool.false_ne_true
    | some p =>
        rw [hpi] at hfind
        rw [hpi, ha] at hvalue
        exact ⟨p, rfl, hvalue, of_decide_eq_true hfind⟩
  · intro h
    refine ⟨fun i hi => ?_, fun i hi => ?_⟩
    · obtain ⟨p, hpi, hsame, -⟩ := h i _ (List.getElem?_eq_getElem hi)
      rw [hpi, List.getElem?_eq_getElem hi]
      exact hsame
    · obtain ⟨p, hpi, -, hfind⟩ := h i _ (List.getElem?_eq_getElem hi)
      rw [hpi]
      exact decide_eq_true hfind

/-- **A mirrored vector passes the check.** -/
theorem Mirrored.checkPersist {m : OvmsMetricVector α} {s : Persist} {vp : Pointer}
    (h : Mirrored hash m s vp) : checkPersist hash m s = true := by
  cases hd : m.defined.isDefined with
  | false =>
      rw [OvmsMetricVector.checkPersist, h.persist, h.valuepSize, hd]
  | true =>
      rw [checkPersist_iff h.persist h.valuepSize hd]
      refine ⟨h.toNat_sizeWord, h.sizeSlot.find, fun i a ha => ?_⟩
      obtain ⟨p, hp, hread⟩ := h.mirror i a ha
      refine ⟨p, hp, ?_, (h.elems i p hp).find⟩
      rw [hread]
      exact h.same a (List.mem_of_getElem? ha)

/-- **What making a vector can do**: not become persistent, or take the size from its word. -/
theorem new_cases (hash : Name → UInt32) (s : Persist) (name : Name) (units : MetricUnit) :
    ((4 < ElemType.size α ∨ (pmetricsRegister hash s name).1 = none) ∧
        (new hash s name units true : OvmsMetricVector α × Persist).1.persist = false) ∨
      ElemType.size α ≤ 4 ∧ ∃ vp s₁, pmetricsRegister hash s name = (some vp, s₁) ∧
        ∃ d, new hash s name units true =
          ({ (setPersistSize hash (blank name units (some vp) : OvmsMetricVector α) s₁
              (s₁.pmetrics.word vp).toNat).2.1 with defined := d },
            (setPersistSize hash (blank name units (some vp) : OvmsMetricVector α) s₁
              (s₁.pmetrics.word vp).toNat).2.2) := by
  rw [new]
  by_cases hsize : 4 < ElemType.size α
  · rw [if_pos (.inr hsize)]
    exact .inl ⟨.inl hsize, rfl⟩
  · rw [if_neg (by simpa using hsize)]
    rcases hreg : pmetricsRegister hash s name with ⟨r, s₁⟩
    cases r with
    | none => exact .inl ⟨.inr rfl, rfl⟩
    | some vp =>
        refine .inr ⟨Nat.le_of_not_lt hsize, vp, s₁, rfl, ?_⟩
        simp only []
        split
        · exact ⟨_, rfl⟩
        · exact ⟨_, rfl⟩

/-- **Making a vector of a size**: the pointers are those of the names, and the elements are
read from the words. -/
theorem setPersistSize_blank {name : Name} {units : MetricUnit} {vp : Pointer} {s s' : Persist}
    {n : ℕ} {b : Bool} {m : OvmsMetricVector α} (hok : s.pmetrics.headerOk = true)
    (hset : setPersistSize hash (blank name units (some vp)) s n = (b, m, s'))
    (hp : m.persist = true) :
    ∃ (ps : List Pointer) (s₁ : Persist), ps.length = n ∧ s' = s₁.write vp (.ofNat n) ∧
      Extends hash s s₁ ∧
      (∀ (j : ℕ) (p : Pointer), ps[j]? = some p → Registered hash s₁ (elemName name j) p) ∧
      m = { (blank name units (some vp) : OvmsMetricVector α) with
        persist := true
        valuepElem := ps
        value := ps.map fun p => ElemType.read (s₁.pmetrics.word p) } := by
  rcases setPersistSize_cases hash (rfl : (blank name units (some vp) :
    OvmsMetricVector α).valuepSize = some vp) s n with
    ⟨hle, heq⟩ | ⟨hlt, m₁, s₁, hreg, heq⟩ | ⟨-, -, hlost⟩
  · rw [heq] at hset
    obtain ⟨-, hrest⟩ := Prod.mk.inj hset
    obtain ⟨rfl, rfl⟩ := Prod.mk.inj hrest
    obtain rfl := Nat.le_zero.mp hle
    exact ⟨[], s, rfl, rfl, .refl hok, fun j p hj => absurd hj (by simp), rfl⟩
  · rw [heq] at hset
    obtain ⟨-, hrest⟩ := Prod.mk.inj hset
    obtain ⟨rfl, rfl⟩ := Prod.mk.inj hrest
    obtain ⟨ps, hps, hmem, rfl⟩ :=
      registerElems_some _ hok (fun _ => (length_resize [] n).trans (by simp [blank])) hreg
    refine ⟨ps, s₁, hps, rfl, extends_registerElems _ hok hreg, fun j p hj => ?_, rfl⟩
    have := (hmem j p hj).1
    rwa [show (blank name units (some vp) : OvmsMetricVector α).valuepElem.length + j = j from
      Nat.zero_add j] at this
  · rw [hset] at hlost
    exact absurd (hlost.symm.trans hp) Bool.false_ne_true

/-- **A persistent vector when it is made** is mirrored, if the names of its elements differ
and the elements are equal to themselves. -/
theorem Mirrored.of_new {s s' : Persist} {name : Name} {units : MetricUnit}
    {m : OvmsMetricVector α} (hok : s.pmetrics.headerOk = true)
    (hnew : new hash s name units true = (m, s')) (hp : m.persist = true)
    (hdiffer : NamesDiffer name m.value.length) (hsame : ∀ a ∈ m.value, ElemType.same a a = true) :
    m.name = name ∧ ∃ vp, Mirrored hash m s' vp := by
  rcases new_cases (α := α) hash s name units with ⟨-, hlost⟩ | ⟨hsize, vp, s₁, hreg, d, heq⟩
  · rw [hnew] at hlost
    exact absurd (hlost.symm.trans hp) Bool.false_ne_true
  · have hok₁ := headerOk_pmetricsRegister hreg hok
    have hvp := Registered.of_register (.of_headerOk hok) hreg
    rcases hset : setPersistSize hash (blank name units (some vp) : OvmsMetricVector α) s₁
      (s₁.pmetrics.word vp).toNat with ⟨b, m₁, s₂⟩
    rw [hnew, hset] at heq
    obtain ⟨rfl, rfl⟩ := Prod.mk.inj heq
    obtain ⟨ps, s₃, hps, rfl, hextends, helems, rfl⟩ := setPersistSize_blank hok₁ hset hp
    have hvp₃ := hextends.registered _ _ hvp
    simp only [List.length_map] at hdiffer
    have hword : ∀ (i : ℕ) (p : Pointer), ps[i]? = some p →
        (s₃.write vp (.ofNat (s₁.pmetrics.word vp).toNat)).pmetrics.word p =
          s₃.pmetrics.word p := by
      intro i p hi
      have hne := (hdiffer i (List.getElem?_eq_some_iff.mp hi).1).1
      exact PersistentMetrics.word_write_of_ne _ ((helems i p hi).slot_ne hvp₃ hne) _
    refine ⟨rfl, vp, ⟨⟨⟨hextends.header, hsize, rfl, registered_write_iff.mpr hvp₃,
      fun i p hi => registered_write_iff.mpr (helems i p hi)⟩, rfl, ?_, hdiffer, ?_⟩, ?_, hsame⟩⟩
    · simp only [List.length_map, le_refl]
    · rw [Persist.pmetrics_write, PersistentMetrics.word_write_self]
      simp only [List.length_map, hps]
    · intro i a ha
      simp only [List.getElem?_map, Option.map_eq_some_iff] at ha
      obtain ⟨p, hi, rfl⟩ := ha
      exact ⟨p, hi, by rw [hword i p hi]⟩

/-- After a restart, names that were registered are registered again. -/
theorem registerElems_of_kept (k : ℕ) {m : OvmsMetricVector α} {s t : Persist} {i : ℕ}
    (ht : Kept s t)
    (hreg : ∀ j, i ≤ j → j < i + k → ∃ p, Registered hash s (elemName m.name j) p) :
    ∃ m' t', registerElems hash m t i k = (some m', t') ∧ Kept s t' := by
  induction k generalizing m t i with
  | zero => exact ⟨m, t, rfl, ht⟩
  | succ k ih =>
      obtain ⟨p, hp⟩ := hreg i le_rfl (by omega)
      obtain ⟨t₁, hreg₁, ht₁, -⟩ := ht.register_registered hp
      rw [registerElems_succ, hreg₁]
      exact ih ht₁ fun j hle hlt => hreg j (by omega) (by omega)

/-- **A vector made after a restart** has the elements that the words stand for. -/
theorem new_of_kept {s t : Persist} {name : Name} {vp : Pointer} (hsize : ElemType.size α ≤ 4)
    (hvp : Registered hash s name vp) {qs : List Pointer}
    (hqs : ∀ (j : ℕ) (q : Pointer), qs[j]? = some q → Registered hash s (elemName name j) q)
    (hlen : (s.pmetrics.word vp).toNat = qs.length) (ht : Kept s t) (units : MetricUnit) :
    ∃ (m : OvmsMetricVector α) (t' : Persist), new hash t name units true = (m, t') ∧
      m.persist = true ∧ m.value = qs.map (fun q => ElemType.read (s.pmetrics.word q)) ∧
      Kept s t' := by
  obtain ⟨t₁, hreg, ht₁, hword⟩ := ht.register_registered hvp
  have hnames : ∀ j, 0 ≤ j → j < 0 + qs.length → ∃ p, Registered hash s (elemName name j) p := by
    intro j _ hj
    rw [Nat.zero_add] at hj
    exact ⟨_, hqs j _ (List.getElem?_eq_getElem hj)⟩
  rcases new_cases (α := α) hash t name units with ⟨hfail, -⟩ | ⟨-, vp', t₁', hreg', d, heq⟩
  · rcases hfail with hlarge | hnone
    · exact absurd hsize (Nat.not_le.mpr hlarge)
    · rw [hreg] at hnone
      exact absurd hnone (Option.some_ne_none vp)
  · obtain ⟨hvp', rfl⟩ := Prod.mk.inj (hreg'.symm.trans hreg)
    obtain rfl := Option.some.inj hvp'
    rw [hword, hlen] at heq
    have hword' : UInt32.ofNat qs.length = s.pmetrics.word vp' := by
      rw [← hlen, UInt32.ofNat_toNat]
    obtain ⟨m', t', hsome, ht'⟩ := registerElems_of_kept qs.length
      (m := (blank name units (some vp') : OvmsMetricVector α).prepare qs.length) ht₁ hnames
    rcases setPersistSize_cases hash (rfl : (blank name units (some vp') :
      OvmsMetricVector α).valuepSize = some vp') t₁' qs.length with
      ⟨hle, hset⟩ | ⟨-, m₂, t₂, helems, hset⟩ | ⟨-, hnone, -⟩
    · rw [hset] at heq
      obtain rfl := List.length_eq_zero_iff.mp (Nat.le_zero.mp hle)
      exact ⟨_, _, heq, rfl, rfl, ht₁.write hword'⟩
    · rw [hset] at heq
      obtain ⟨hm, rfl⟩ := Prod.mk.inj (helems.symm.trans hsome)
      obtain rfl := Option.some.inj hm
      obtain ⟨ps, hps, hmem, rfl⟩ := registerElems_some _ ht₁.header
        (fun _ => (length_resize [] _).trans (by simp [blank])) helems
      refine ⟨_, _, heq, rfl, List.ext_getElem? fun i => ?_, ht'.write hword'⟩
      change (ps.map _)[i]? = _
      rw [List.getElem?_map, List.getElem?_map]
      rcases Nat.lt_or_ge i qs.length with hlt | hge
      · have hi : i < ps.length := by
          rw [hps]
          exact hlt
        have hp := (hmem i _ (List.getElem?_eq_getElem hi)).1.find
        rw [show (blank name units (some vp') : OvmsMetricVector α).valuepElem.length + i = i from
          Nat.zero_add i] at hp
        obtain ⟨hfind, hwordq⟩ := ht'.slots _ _ (hqs i _ (List.getElem?_eq_getElem hlt)).find
        have hsame : ps[i] = qs[i] := Option.some.inj (hp.symm.trans hfind)
        rw [List.getElem?_eq_getElem hi, List.getElem?_eq_getElem hlt, Option.map_some,
          Option.map_some, hsame, hwordq]
      · rw [List.getElem?_eq_none (hps.le.trans hge), List.getElem?_eq_none hge, Option.map_none,
          Option.map_none]
    · exact absurd ((congrArg Prod.fst hsome).symm.trans hnone) (Option.some_ne_none m')

/-- **A restart restores a mirrored vector.** -/
theorem Mirrored.restored {m : OvmsMetricVector α} {s t : Persist} {vp : Pointer}
    (h : Mirrored hash m s vp) (ht : Rebooted hash s t) (units : MetricUnit) :
    (new hash t m.name units true : OvmsMetricVector α × Persist).1.persist = true ∧
      (new hash t m.name units true : OvmsMetricVector α × Persist).1.value = m.value := by
  have hlen : (s.pmetrics.word vp).toNat = (m.valuepElem.take m.value.length).length := by
    rw [h.toNat_sizeWord, List.length_take, Nat.min_eq_left h.fits]
  have hqs : ∀ (j : ℕ) (q : Pointer), (m.valuepElem.take m.value.length)[j]? = some q →
      Registered hash s (elemName m.name j) q := by
    intro j q hq
    rw [List.getElem?_take] at hq
    split at hq
    · exact h.elems j q hq
    · exact absurd hq (Option.some_ne_none q).symm
  obtain ⟨m', t', hnew, hpersist, hvalue, -⟩ :=
    new_of_kept h.size_le h.sizeSlot hqs hlen (ht.kept h.header) units
  rw [hnew]
  refine ⟨hpersist, hvalue.trans (List.ext_getElem? fun i => ?_)⟩
  rw [List.getElem?_map, List.getElem?_take]
  rcases Nat.lt_or_ge i m.value.length with hlt | hge
  · obtain ⟨q, hq, hread⟩ := h.mirror i _ (List.getElem?_eq_getElem hlt)
    rw [if_pos hlt, hq, Option.map_some, hread, List.getElem?_eq_getElem hlt]
  · rw [if_neg (Nat.not_lt.mpr hge), Option.map_none, List.getElem?_eq_none hge]

theorem persist_changeSize {m : OvmsMetricVector α} (h : m.persist = false) (s : Persist) (n : ℕ) :
    (changeSize hash m s n).1.persist = false := by
  rw [OvmsMetricVector.changeSize, if_neg (by rw [h]; exact Bool.false_ne_true), h]

/-- A vector that lost its persistence does not get it back. -/
theorem persist_step {p : OvmsMetricVector α × Persist} (h : p.1.persist = false)
    (call : Call α) : (step hash unitConvert p call).1.persist = false := by
  have hstore : ∀ (resized : Bool) (n start : ℕ) (as : List α),
      (setModified (putElems resized
        (if resized then changeSize hash p.1 p.2 n else p) start as)).1.persist = false := by
    intro resized n start as
    rw [setModified, persist_putElems]
    cases resized with
    | false => exact h
    | true => exact persist_changeSize h p.2 n
  cases call with
  | setValue value units => exact hstore _ _ _ _
  | setElemValue n nvalue units => exact hstore _ _ _ [_]
  | setElemValues start values units => exact hstore _ _ _ _
  | clearValue =>
      rw [step, clearValue]
      split
      · rw [h]
        exact h
      · exact h
  | register name => exact h

/-! ### Any call -/

/-- A change of the persistent size uses the storage. -/
theorem grows_setPersistSize {s : Persist} (hok : s.pmetrics.headerOk = true)
    (m : OvmsMetricVector α) (n : ℕ) : Grows hash s (setPersistSize hash m s n).2.2 := by
  rw [setPersistSize]
  cases m.valuepSize with
  | none => exact .refl hok
  | some vp =>
      by_cases hle : n ≤ m.valuepElem.length
      · simp only [if_pos hle]
        exact grows_write hok vp _
      · simp only [if_neg hle]
        rcases hreg : registerElems hash (m.prepare n) s m.valuepElem.length
          (n - m.valuepElem.length) with ⟨r, s₁⟩
        have hextends := extends_registerElems _ hok hreg
        cases r with
        | none => exact hextends.grows.trans (grows_write hextends.header vp _)
        | some m₁ => exact hextends.grows.trans (grows_write hextends.header vp _)

/-- Setting an element uses the storage, and leaves the pointers. -/
theorem grows_putElem {p : OvmsMetricVector α × Persist} (hok : p.2.pmetrics.headerOk = true)
    (resized : Bool) (i : ℕ) (a : α) : Grows hash p.2 (putElem resized p i a).2 := by
  rw [putElem]
  split
  · split
    · rw [writeElem]
      split
      · exact grows_write hok _ _
      · exact .refl hok
    · exact .refl hok
  · exact .refl hok

theorem grows_putElems {p : OvmsMetricVector α × Persist} (hok : p.2.pmetrics.headerOk = true)
    (resized : Bool) (i : ℕ) (as : List α) : Grows hash p.2 (putElems resized p i as).2 := by
  induction as generalizing p i with
  | nil => exact .refl hok
  | cons a as ih =>
      have hone : Grows hash p.2 (putElem resized p i a).2 := grows_putElem hok resized i a
      exact hone.trans (ih hone.header (i + 1))

/-- Setting elements changes nothing of the vector but elements. -/
theorem putElems_fields (resized : Bool) (p : OvmsMetricVector α × Persist) (i : ℕ)
    (as : List α) : ∃ v, (putElems resized p i as).1 = { p.1 with value := v } ∧
      v.length = p.1.value.length := by
  induction as generalizing p i with
  | nil => exact ⟨p.1.value, rfl, rfl⟩
  | cons a as ih =>
      obtain ⟨v, hv, hlen⟩ := ih (putElem resized p i a) (i + 1)
      rw [putElems, hv]
      rw [putElem] at hlen ⊢
      split at hlen
      · next h =>
        rw [if_pos h]
        exact ⟨v, rfl, hlen.trans List.length_set⟩
      · next h =>
        rw [if_neg h]
        exact ⟨v, rfl, hlen⟩

variable (hash) in
/-- A vector that is persistent has its pointers, at least as many as elements. -/
def Linked (m : OvmsMetricVector α) (s : Persist) : Prop :=
  m.persist = true → ∃ vp, Pointers hash m s vp ∧ m.value.length ≤ m.valuepElem.length

theorem Linked.grows {m : OvmsMetricVector α} {s s' : Persist} (h : Linked hash m s)
    (hs : Grows hash s s') : Linked hash m s' := by
  intro hp
  obtain ⟨vp, hptrs, hfits⟩ := h hp
  exact ⟨vp, ⟨hs.header, hptrs.size_le, hptrs.valuepSize, hs.registered _ _ hptrs.sizeSlot,
    fun i p hi => hs.registered _ _ (hptrs.elems i p hi)⟩, hfits⟩

theorem Linked.setValue {m : OvmsMetricVector α} {s : Persist} (h : Linked hash m s)
    (d : MetricDefined) {v : List α} (hv : v.length ≤ m.value.length) :
    Linked hash { m with defined := d, value := v } s := by
  intro hp
  obtain ⟨vp, hptrs, hfits⟩ := h hp
  exact ⟨vp, ⟨hptrs.header, hptrs.size_le, hptrs.valuepSize, hptrs.sizeSlot, hptrs.elems⟩,
    hv.trans hfits⟩

/-- A vector resized is linked, and uses the storage. -/
theorem Linked.changeSize {m : OvmsMetricVector α} {s : Persist}
    (hok : s.pmetrics.headerOk = true) (h : Linked hash m s) (n : ℕ) :
    Linked hash (changeSize hash m s n).1 (changeSize hash m s n).2 ∧
      Grows hash s (changeSize hash m s n).2 := by
  rw [OvmsMetricVector.changeSize]
  split
  · next hp =>
    refine ⟨fun hp' => ?_, grows_setPersistSize hok _ n⟩
    obtain ⟨vp, hptrs, -⟩ := h hp
    have hptrs₁ : Pointers hash { m with value := resize m.value n } s vp :=
      ⟨hptrs.header, hptrs.size_le, hptrs.valuepSize, hptrs.sizeSlot, hptrs.elems⟩
    rcases hset : setPersistSize hash { m with value := resize m.value n } s n with ⟨b, m', s'⟩
    rw [hset] at hp'
    obtain ⟨ps, s₁, rfl, hlen, hptrs', -⟩ := hptrs₁.setPersistSize hp hset hp'
    refine ⟨vp, hptrs', ?_⟩
    change (resize m.value n).length ≤ (m.valuepElem ++ ps).length
    rw [hlen, length_resize]
    exact Nat.le_max_right _ _
  · next hp => exact ⟨fun hp' => absurd hp' hp, .refl hok⟩

/-- **Any call uses the storage, and leaves a vector linked.** -/
theorem Linked.step {p : OvmsMetricVector α × Persist} (hok : p.2.pmetrics.headerOk = true)
    (h : Linked hash p.1 p.2) (call : Call α) :
    Linked hash (step hash unitConvert p call).1 (step hash unitConvert p call).2 ∧
      Grows hash p.2 (step hash unitConvert p call).2 := by
  have hstore : ∀ (resized : Bool) (n start : ℕ) (as : List α),
      Linked hash (setModified (putElems resized
        (if resized then OvmsMetricVector.changeSize hash p.1 p.2 n else p) start as)).1
        (setModified (putElems resized
          (if resized then OvmsMetricVector.changeSize hash p.1 p.2 n else p) start as)).2 ∧
      Grows hash p.2 (setModified (putElems resized
        (if resized then OvmsMetricVector.changeSize hash p.1 p.2 n else p) start as)).2 := by
    intro resized n start as
    obtain ⟨hq, hgrows⟩ : Linked hash
        (if resized then OvmsMetricVector.changeSize hash p.1 p.2 n else p).1
        (if resized then OvmsMetricVector.changeSize hash p.1 p.2 n else p).2 ∧
        Grows hash p.2 (if resized then OvmsMetricVector.changeSize hash p.1 p.2 n else p).2 := by
      split
      · exact h.changeSize hok n
      · exact ⟨h, .refl hok⟩
    obtain ⟨v, hv, hlen⟩ := putElems_fields resized
      (if resized then OvmsMetricVector.changeSize hash p.1 p.2 n else p) start as
    have hput : Grows hash _ (putElems resized
        (if resized then OvmsMetricVector.changeSize hash p.1 p.2 n else p) start as).2 :=
      grows_putElems hgrows.header resized start as
    refine ⟨?_, hgrows.trans hput⟩
    rw [setModified]
    simp only [hv]
    exact (hq.setValue _ hlen.le).grows hput
  cases call with
  | setValue value units => exact hstore _ _ _ _
  | setElemValue n nvalue units => exact hstore _ _ _ [_]
  | setElemValues start values units => exact hstore _ _ _ _
  | clearValue =>
      rw [OvmsMetricVector.step, clearValue]
      split
      · split
        · next hp =>
          refine ⟨fun hp' => ?_, grows_setPersistSize hok _ 0⟩
          obtain ⟨vp, hptrs, -⟩ := h hp
          rcases hset : setPersistSize hash p.1 p.2 0 with ⟨b, m', s'⟩
          rw [hset] at hp'
          obtain ⟨ps, s₁, rfl, -, hptrs', -⟩ := hptrs.setPersistSize hp hset hp'
          exact ⟨vp, ⟨hptrs'.header, hptrs'.size_le, hptrs'.valuepSize, hptrs'.sizeSlot,
            hptrs'.elems⟩, Nat.zero_le _⟩
        · exact ⟨h.setValue _ (Nat.zero_le _), .refl hok⟩
      · exact ⟨h, .refl hok⟩
  | register name =>
      have hextends : Extends hash p.2 (pmetricsRegister hash p.2 name).2 :=
        extends_pmetricsRegister hok Prod.mk.eta.symm
      exact ⟨h.grows hextends.grows, hextends.grows⟩

/-- A vector when it is made is linked, and uses the storage. -/
theorem linked_new {s : Persist} (hok : s.pmetrics.headerOk = true) (name : Name)
    (units : MetricUnit) (persist : Bool) :
    Linked hash (new hash s name units persist : OvmsMetricVector α × Persist).1
        (new hash s name units persist : OvmsMetricVector α × Persist).2 ∧
      Grows hash s (new hash s name units persist : OvmsMetricVector α × Persist).2 := by
  rw [new]
  split
  · exact ⟨fun hp => absurd hp Bool.false_ne_true, .refl hok⟩
  · next hsize =>
    rw [not_or, Nat.not_lt] at hsize
    rcases hreg : pmetricsRegister hash s name with ⟨r, s₁⟩
    have hextends := extends_pmetricsRegister hok hreg
    cases r with
    | none => exact ⟨fun hp => absurd hp Bool.false_ne_true, hextends.grows⟩
    | some vp =>
        have hvp := Registered.of_register (.of_headerOk hok) hreg
        have hgrows : Grows hash s₁ (setPersistSize hash
            (blank name units (some vp) : OvmsMetricVector α) s₁
            (s₁.pmetrics.word vp).toNat).2.2 :=
          grows_setPersistSize hextends.header _ _
        rcases hset : setPersistSize hash (blank name units (some vp) : OvmsMetricVector α) s₁
          (s₁.pmetrics.word vp).toNat with ⟨b, m, s₂⟩
        rw [hset] at hgrows
        have hlinked : Linked hash m s₂ := by
          intro hp
          obtain ⟨ps, s₃, -, rfl, hextends₃, helems, rfl⟩ :=
            setPersistSize_blank hextends.header hset hp
          refine ⟨vp, ⟨hgrows.header, hsize.2, rfl, hgrows.registered _ _ hvp,
            fun i p hi => registered_write_iff.mpr (helems i p hi)⟩, ?_⟩
          exact (List.length_map _).le
        simp only [hset]
        refine ⟨?_, hextends.grows.trans hgrows⟩
        split
        · exact hlinked.setValue _ le_rfl
        · exact hlinked

/-- The words of a persistent vector are its size and its elements. -/
def Mirrors (m : OvmsMetricVector α) (s : Persist) : Prop :=
  ∃ vp, m.valuepSize = some vp ∧ (s.pmetrics.word vp).toNat = m.value.length ∧
    ∀ (i : ℕ) (a : α), m.value[i]? = some a →
      ∃ p, m.valuepElem[i]? = some p ∧ ElemType.read (s.pmetrics.word p) = a

end OvmsMetricVector

open OvmsMetricVector

/-- **A persistent vector mirrors its slots** as long as it is persistent, over every sequence
of calls none of which leaves out elements that have a word of before, names two elements
alike or sets an element that is not equal to itself; so it passes the check, and a restart
restores it. -/
theorem vector_mirrors {α : Type} [ElemType α] (hash : Name → UInt32)
    (unitConvert : MetricUnit → MetricUnit → α → α) {s : Persist} (hs : Running hash s)
    (name : Name) (units : MetricUnit)
    (hnames : NamesDiffer name
      (new hash s name units true : OvmsMetricVector α × Persist).1.value.length)
    (hsame : ∀ a ∈ (new hash s name units true : OvmsMetricVector α × Persist).1.value,
      ElemType.same a a = true)
    (calls : List (Call α))
    (hcalls : Along (step hash unitConvert)
      (fun p call => p.1.persist = true → Allowed hash unitConvert p call)
      (new hash s name units true) calls)
    (hp : (calls.foldl (step hash unitConvert) (new hash s name units true)).1.persist = true) :
    let p := calls.foldl (step hash unitConvert) (new hash s name units true)
    Mirrors p.1 p.2 ∧ checkPersist hash p.1 p.2 = true ∧
      ∀ t, Rebooted hash p.2 t → ∀ units' : MetricUnit,
        (new hash t name units' true : OvmsMetricVector α × Persist).1.persist = true ∧
          (new hash t name units' true : OvmsMetricVector α × Persist).1.value = p.1.value := by
  intro p
  have hinv := hcalls.invariant
    (I := fun q => q.1.persist = true → q.1.name = name ∧ ∃ vp, Mirrored hash q.1 q.2 vp) ?_ ?_
  · obtain ⟨hname, vp, h⟩ := hinv hp
    refine ⟨⟨vp, h.valuepSize, h.toNat_sizeWord, h.mirror⟩, h.checkPersist, fun t ht units' => ?_⟩
    have := h.restored ht units'
    rwa [hname] at this
  · intro q call hq hallowed hp'
    cases hpq : q.1.persist with
    | false => exact absurd (hp'.symm.trans (persist_step hpq call)) Bool.true_eq_false.mp
    | true =>
        obtain ⟨hname, vp, h⟩ := hq hpq
        obtain ⟨h', hname'⟩ := h.step (hallowed hpq) rfl hp'
        exact ⟨hname'.trans hname, vp, h'⟩
  · intro hp₀
    exact Mirrored.of_new hs.headerOk rfl hp₀ hnames hsame

/-- A vector of the name `v`, with a hash of the usual kind: three elements set at once are
mirrored. -/
theorem vector_mirrors_three :
    let hash : Name → UInt32 := fun name => name.foldl (fun h c => 31 * h + c.toUInt32) 0
    let p : OvmsMetricVector Int32 × Persist :=
      [Call.setValue [1, 2, 3] 0].foldl (step hash fun _ _ a => a)
        (new hash (boot true pmetricsClear) [0x76] 0 true)
    p.1.persist = true ∧ Mirrors p.1 p.2 ∧
      (new hash (boot false p.2.pmetrics) [0x76] 0 true :
        OvmsMetricVector Int32 × Persist).1.value = p.1.value := by
  intro hash p
  have hp : p.1.persist = true := by decide +kernel
  have hempty : (new hash (boot true pmetricsClear) [0x76] 0 true :
      OvmsMetricVector Int32 × Persist).1.value = [] := by decide +kernel
  have hname : (new hash (boot true pmetricsClear) [0x76] 0 true :
      OvmsMetricVector Int32 × Persist).1.name = [0x76] := by decide +kernel
  have hnames : NamesDiffer [0x76] 3 := by
    unfold NamesDiffer
    decide +kernel
  have hallowed : Along (step hash fun _ _ a => a)
      (fun p call => p.1.persist = true → Allowed hash (fun _ _ a => a) p call)
      (new hash (boot true pmetricsClear) [0x76] 0 true)
      [Call.setValue [(1 : Int32), 2, 3] 0] := by
    refine ⟨fun _ => ⟨fun _ => ?_, fun a _ => beq_self_eq_true (_ : Int32)⟩, trivial⟩
    rw [hname]
    exact hnames
  obtain ⟨hmirrors, -, hreboot⟩ := vector_mirrors hash (fun _ _ (a : Int32) => a)
    (.boot true pmetricsClear) [0x76] 0
    (by rw [hempty]; exact fun i hi => absurd hi (Nat.not_lt_zero i))
    (by rw [hempty]; exact fun a ha => absurd ha List.not_mem_nil)
    [Call.setValue [1, 2, 3] 0] hallowed hp
  exact ⟨hp, hmirrors, (hreboot (boot false p.2.pmetrics) Rebooted.boot 0).2⟩

/-- A vector that shrinks and grows past its end again: the elements left out are zero, but
their words are those of before, which a restart brings back. -/
theorem vector_gap_not_mirrored :
    let hash : Name → UInt32 := fun name => name.foldl (fun h c => 31 * h + c.toUInt32) 0
    let p : OvmsMetricVector Int32 × Persist :=
      [Call.setValue [1, 2, 3] 0, .setValue [] 0, .setElemValue 2 9 0].foldl
        (step hash fun _ _ a => a) (new hash (boot true pmetricsClear) [0x76] 0 true)
    p.1.persist = true ∧ p.1.value = [0, 0, 9] ∧ ¬ Mirrors p.1 p.2 ∧
      checkPersist hash p.1 p.2 = false ∧
      (new hash (boot false p.2.pmetrics) [0x76] 0 true :
        OvmsMetricVector Int32 × Persist).1.value = [1, 2, 9] := by
  intro hash p
  refine ⟨by decide +kernel, by decide +kernel, ?_, by decide +kernel, by decide +kernel⟩
  rintro ⟨vp, -, -, h⟩
  obtain ⟨q, hq, hread⟩ := h 0 0 (by decide +kernel)
  have hfirst : (p.1.valuepElem[0]?).map
      (fun q => (ElemType.read (p.2.pmetrics.word q) : Int32)) = some 1 := by decide +kernel
  rw [hq, Option.map_some, hread] at hfirst
  exact absurd (Option.some.inj hfirst) (by decide)

end Ovms.Metrics
