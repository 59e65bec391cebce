import Ovms.Metrics.Vector

/-!
# Changes of a Vector Metric

`OvmsMetric::SetModified` (`main/ovms_metrics.cpp`) marks a metric as modified for all its
readers, and calls its listeners, if the caller says that the value has changed. The vector metric
(`main/ovms_metrics.h`) says so where its loop over the elements has set one. A call that only
changes the size has no element to set, and clearing says so without a look at the vector.

## Main results

* `modified_iff_ne`: a call says that the vector has changed exactly if it has.
* `changes_reported_iff`: **along every run, all changes and only changes are reported, exactly if
  every call meets the condition**.
-/

namespace Ovms.Metrics

open OvmsMetricVector

variable {α : Type} [ElemType α]

/-! ### The flag of the loop -/

/-- An element of the loop, with the flag `modified`. -/
def storeElem (resized : Bool) (s : List α × Bool) (i : ℕ) (a : α) : List α × Bool :=
  if resized || !(s.1[i]?).any (ElemType.same · a) then (s.1.set i a, true) else s

/-- The loop over the elements that are set, with the flag `modified`. -/
def storeElems (resized : Bool) (s : List α × Bool) (i : ℕ) : List α → List α × Bool
  | [] => s
  | a :: as => storeElems resized (storeElem resized s i a) (i + 1) as

/-- The flag `modified` after the vector has been resized, or not, and the elements set. -/
def storeModified (m : OvmsMetricVector α) (resized : Bool) (n start : ℕ) (as : List α) : Bool :=
  (storeElems resized (if resized then resize m.value n else m.value, false) start as).2

/-- A vector metric, with the storage. -/
structure Watched (α : Type) where
  vector : OvmsMetricVector α
  persist : Persist
  /-- `m_modified`, a bit for each reader. -/
  mark : UInt32
  /-- The values that the listeners have been called for. -/
  notified : List (List α)

namespace Watched

variable (unitConvert : MetricUnit → MetricUnit → α → α)

/-- What a call says to `SetModified`; nothing where it does not call it. -/
def modified (w : Watched α) : Call α → Option Bool
  | .setValue value units =>
      some (storeModified w.vector (decide (w.vector.value.length ≠ value.length)) value.length 0
        (value.map (ivalue unitConvert w.vector units)))
  | .setElemValue n nvalue units =>
      some (storeModified w.vector (decide (w.vector.value.length < n + 1)) (n + 1) n
        [ivalue unitConvert w.vector units nvalue])
  | .setElemValues start values units =>
      some (storeModified w.vector (decide (w.vector.value.length < start + values.length))
        (start + values.length) start (values.map (ivalue unitConvert w.vector units)))
  | .clearValue => if w.vector.defined.isDefined then some true else none
  | .register _ => none

variable (hash : Name → UInt32)

/-- One call, with the second half of `SetModified`. -/
def step (w : Watched α) (call : Call α) : Watched α :=
  let p := OvmsMetricVector.step hash unitConvert (w.vector, w.persist) call
  if w.modified unitConvert call = some true then
    ⟨p.1, p.2, 0xFFFFFFFF, w.notified ++ [p.1.value]⟩
  else ⟨p.1, p.2, w.mark, w.notified⟩

/-- `IsModifiedAndClear`. -/
def isModifiedAndClear (w : Watched α) (modifier : ℕ) : Bool × Watched α :=
  let bit := 1 <<< UInt32.ofNat modifier
  (w.mark &&& bit ≠ 0, { w with mark := w.mark &&& ~~~bit })

/-- A call, or a reader that looks at its bit. -/
inductive Event (α : Type)
  | call (call : Call α)
  | read (modifier : ℕ)

/-- The calls of a run, each with the metric that it is made at. -/
def calls (w : Watched α) : List (Event α) → List (Watched α × Call α)
  | [] => []
  | .call call :: events => (w, call) :: calls (w.step unitConvert hash call) events
  | .read modifier :: events => calls (w.isModifiedAndClear modifier).2 events

/-- A change is marked for all readers and the listeners are called, and nothing happens without
one. -/
def Reports (w w' : Watched α) : Prop :=
  (w'.vector.value ≠ w.vector.value →
      w'.mark = 0xFFFFFFFF ∧ w'.notified = w.notified ++ [w'.vector.value]) ∧
    (w'.vector.value = w.vector.value → w'.mark = w.mark ∧ w'.notified = w.notified)

end Watched

/-! ### What the loop does -/

/-- An element after another one has been set in its place: equal ones are not. -/
def keep (x a : α) : α := if ElemType.same x a then x else a

/-- An element that is set is not equal to the one there, which stays otherwise. -/
theorem storeElem_false (before after : List α) (x a : α) (b : Bool) :
    storeElem false (before ++ x :: after, b) before.length a =
      (before ++ keep x a :: after, b || !ElemType.same x a) := by
  have hget : (before ++ x :: after)[before.length]? = some x := by simp
  rw [storeElem, hget, Bool.false_or, Option.any_some, keep]
  cases hsame : ElemType.same x a with
  | true => simp
  | false => simp

/-- **The loop** sets the elements that are not equal to those there, and the flag if there is
one. -/
theorem storeElems_false (as : List α) (before rest : List α) (b : Bool)
    (h : as.length ≤ rest.length) :
    storeElems false (before ++ rest, b) before.length as =
      (before ++ (List.zipWith keep rest as ++ rest.drop as.length),
        b || (rest.zip as).any fun x => !ElemType.same x.1 x.2) := by
  induction as generalizing before rest b with
  | nil => simp [storeElems]
  | cons a as ih =>
    cases rest with
    | nil => exact absurd h (by simp)
    | cons x rest =>
      have hlen : as.length ≤ rest.length := Nat.le_of_succ_le_succ h
      have hone := ih (before ++ [keep x a]) rest (b || !ElemType.same x a) hlen
      rw [List.length_append, List.length_singleton, List.append_assoc, List.append_assoc,
        List.singleton_append, List.singleton_append] at hone
      rw [storeElems, storeElem_false, hone, List.zip_cons_cons, List.any_cons, Bool.or_assoc]
      rfl

theorem storeElems_true (as : List α) (l : List α) (b : Bool) (i : ℕ) :
    (storeElems true (l, b) i as).2 = (b || !as.isEmpty) := by
  induction as generalizing l b i with
  | nil => simp [storeElems]
  | cons a as ih =>
    rw [storeElems, storeElem, Bool.true_or, if_pos rfl, ih]
    simp

/-- The vector with its storage is set as the loop does it. -/
theorem value_putElems (resized : Bool) (as : List α) (p : OvmsMetricVector α × Persist)
    (b : Bool) (i : ℕ) :
    (putElems resized p i as).1.value = (storeElems resized (p.1.value, b) i as).1 := by
  induction as generalizing p b i with
  | nil => rfl
  | cons a as ih =>
    rw [putElems, storeElems, putElem, storeElem]
    split
    · exact ih _ true (i + 1)
    · exact ih _ b (i + 1)

/-- The storage of a persistent vector leaves its elements. -/
theorem value_registerElems (hash : Name → UInt32) (k : ℕ) {m m' : OvmsMetricVector α}
    {s s' : Persist} {i : ℕ} (hp : m.persist = true)
    (h : registerElems hash m s i k = (some m', s')) : m'.value = m.value := by
  induction k generalizing m s i with
  | zero =>
    obtain ⟨hm, -⟩ := Prod.mk.inj h
    rw [Option.some.inj hm]
  | succ k ih =>
    rw [registerElems_succ] at h
    rcases hreg : pmetricsRegister hash s (elemName m.name i) with ⟨r, s₁⟩
    rw [hreg] at h
    cases r with
    | none => cases h
    | some vp =>
      refine (ih ?_ h).trans (if_pos hp)
      exact hp

/-- So does a change of its size there. -/
theorem value_setPersistSize (hash : Name → UInt32) {m : OvmsMetricVector α} (hp : m.persist = true)
    (s : Persist) (n : ℕ) : (setPersistSize hash m s n).2.1.value = m.value := by
  have hprepare : m.prepare n = m := if_pos hp
  rw [setPersistSize]
  cases m.valuepSize with
  | none => rfl
  | some vp =>
    dsimp only
    split
    · rfl
    · rw [hprepare]
      rcases hreg : registerElems hash m s m.valuepElem.length (n - m.valuepElem.length) with
        ⟨_ | m', s'⟩
      · exact if_pos hp
      · have hvalue := value_registerElems hash _ hp hreg
        exact hvalue

theorem value_changeSize (hash : Name → UInt32) (m : OvmsMetricVector α) (s : Persist) (n : ℕ) :
    (changeSize hash m s n).1.value = resize m.value n := by
  rw [OvmsMetricVector.changeSize]
  split
  next hp => exact value_setPersistSize hash hp s n
  next => rfl

/-! ### Changes -/

/-- The elements that would be set are no numbers, and those that are there. -/
def Repeats (old new : List α) : Prop :=
  (∃ x ∈ old.zip new, ElemType.same x.1 x.2 = false) ∧
    ∀ x ∈ old.zip new, ElemType.same x.1 x.2 = false → x.1 = x.2

/-- The loop leaves the elements exactly if it sets none, or the same ones. -/
theorem zipWith_keep_eq_iff {rest as : List α} (h : as.length ≤ rest.length) :
    List.zipWith keep rest as ++ rest.drop as.length = rest ↔
      ∀ x ∈ rest.zip as, ElemType.same x.1 x.2 = false → x.1 = x.2 := by
  induction as generalizing rest with
  | nil => simp
  | cons a as ih =>
    cases rest with
    | nil => exact absurd h (by simp)
    | cons x rest =>
      have hkeep : keep x a = x ↔ (ElemType.same x a = false → x = a) := by
        rw [keep]
        cases ElemType.same x a <;> simp [eq_comm]
      rw [List.zipWith_cons_cons, List.length_cons, List.drop_succ_cons, List.cons_append,
        List.cons.injEq, ih (Nat.le_of_succ_le_succ h), hkeep, List.zip_cons_cons,
        List.forall_mem_cons]

/-- **What the flag says**, after the vector has been resized to another size, or not at all. -/
theorem storeModified_iff (hash : Name → UInt32) (m : OvmsMetricVector α) (s : Persist)
    (resized : Bool) (n start : ℕ) (as : List α)
    (hresized : resized = true → m.value.length ≠ n)
    (hfits : resized = false → start + as.length ≤ m.value.length) :
    ((storeModified m resized n start as = true ↔
        (putElems resized (if resized then changeSize hash m s n else (m, s)) start as).1.value ≠
          m.value) ↔
      if resized then as ≠ [] else ¬Repeats (m.value.drop start) as) := by
  cases resized with
  | true =>
    have hne : (putElems true (changeSize hash m s n) start as).1.value ≠ m.value := by
      intro heq
      obtain ⟨v, hv, hlen⟩ := putElems_fields true (changeSize hash m s n) start as
      rw [value_changeSize, length_resize] at hlen
      rw [hv] at heq
      exact hresized rfl ((congrArg List.length heq).symm.trans hlen)
    simp only [if_true, storeModified, storeElems_true, Bool.false_or]
    cases as <;> simp [hne]
  | false =>
    have hstart : (m.value.take start).length = start := by
      rw [List.length_take]
      have hle := hfits rfl
      omega
    have hlen : as.length ≤ (m.value.drop start).length := by
      rw [List.length_drop]
      have hle := hfits rfl
      omega
    have hloop := storeElems_false as (m.value.take start) (m.value.drop start) false hlen
    rw [List.take_append_drop, hstart, Bool.false_or] at hloop
    have hsame : (putElems false (m, s) start as).1.value = m.value ↔
        ∀ x ∈ (m.value.drop start).zip as, ElemType.same x.1 x.2 = false → x.1 = x.2 := by
      rw [value_putElems false as (m, s) false start, hloop, ← zipWith_keep_eq_iff hlen]
      constructor
      · intro heq
        have hparts := heq.trans (List.take_append_drop start m.value).symm
        exact List.append_cancel_left hparts
      · intro heq
        dsimp only
        rw [heq, List.take_append_drop]
    have hflag : storeModified m false n start as = true ↔
        ∃ x ∈ (m.value.drop start).zip as, ElemType.same x.1 x.2 = false := by
      rw [storeModified, if_neg Bool.false_ne_true, hloop, List.any_eq_true]
      simp only [Bool.not_eq_true']
    rw [if_neg Bool.false_ne_true, if_neg Bool.false_ne_true, hflag, ne_eq, hsame, Repeats]
    constructor
    · rintro hiff ⟨hset, hall⟩
      exact hiff.mp hset hall
    · intro hnot
      constructor
      · exact fun hset hall => hnot ⟨hset, hall⟩
      · intro hall
        by_contra hset
        exact hall fun x hx hx' => absurd ⟨x, hx, hx'⟩ hset

namespace Watched

variable (unitConvert : MetricUnit → MetricUnit → α → α) (hash : Name → UInt32)

/-- The condition of a call: it sets an element where it changes the size, and no element that is
no number and there already; and it clears no vector that is defined and empty. -/
def Noticed (w : Watched α) : Call α → Prop
  | .setValue value units =>
      if w.vector.value.length ≠ value.length then value ≠ []
      else ¬Repeats w.vector.value (value.map (ivalue unitConvert w.vector units))
  | .setElemValue n nvalue units =>
      w.vector.value.length < n + 1 ∨
        ¬Repeats (w.vector.value.drop n) [ivalue unitConvert w.vector units nvalue]
  | .setElemValues start values units =>
      if w.vector.value.length < start + values.length then values ≠ []
      else ¬Repeats (w.vector.value.drop start) (values.map (ivalue unitConvert w.vector units))
  | .clearValue => w.vector.defined.isDefined = true → w.vector.value ≠ []
  | .register _ => True

theorem vector_step (w : Watched α) (call : Call α) :
    (w.step unitConvert hash call).vector =
      (OvmsMetricVector.step hash unitConvert (w.vector, w.persist) call).1 := by
  rw [step]
  split <;> rfl

/-- **A call says that the vector has changed exactly if it has**, where it meets its
condition. -/
theorem modified_iff_ne (w : Watched α) (call : Call α) :
    (w.modified unitConvert call = some true ↔
        (w.step unitConvert hash call).vector.value ≠ w.vector.value) ↔
      w.Noticed unitConvert call := by
  rw [vector_step]
  cases call with
  | setValue value units =>
    rw [modified, Option.some_inj]
    refine (storeModified_iff hash w.vector w.persist _ value.length 0 _ of_decide_eq_true
      fun hsize => ?_).trans ?_
    · have hlen := of_decide_eq_false hsize
      rw [List.length_map]
      omega
    · simp only [Noticed, decide_eq_true_eq, ne_eq, List.map_eq_nil_iff, List.drop_zero]
  | setElemValue n nvalue units =>
    rw [modified, Option.some_inj]
    refine (storeModified_iff hash w.vector w.persist _ (n + 1) n [_] (fun hsize => ?_)
      fun hsize => ?_).trans ?_
    · exact (of_decide_eq_true hsize).ne
    · have hlen := of_decide_eq_false hsize
      rw [List.length_singleton]
      omega
    · simp only [Noticed, decide_eq_true_eq, ne_eq, List.cons_ne_nil, not_false_eq_true]
      by_cases hsize : w.vector.value.length < n + 1
      · simp only [hsize, if_true, true_or]
      · simp only [hsize, if_false, false_or]
  | setElemValues start values units =>
    rw [modified, Option.some_inj]
    refine (storeModified_iff hash w.vector w.persist _ (start + values.length) start _
      (fun hsize => ?_) fun hsize => ?_).trans ?_
    · exact (of_decide_eq_true hsize).ne
    · have hlen := of_decide_eq_false hsize
      rw [List.length_map]
      omega
    · simp only [Noticed, decide_eq_true_eq, ne_eq, List.map_eq_nil_iff]
  | clearValue =>
    rw [modified, OvmsMetricVector.step, clearValue, Noticed]
    by_cases hdefined : w.vector.defined.isDefined = true
    · simp only [hdefined, if_true, setModified, forall_const, true_iff]
      exact ne_comm
    · simp [hdefined]
  | register name => simp [modified, OvmsMetricVector.step, Noticed]

/-- A call reports exactly if it says so. -/
theorem reports_iff (w : Watched α) (call : Call α) :
    w.Reports (w.step unitConvert hash call) ↔
      (w.modified unitConvert call = some true ↔
        (w.step unitConvert hash call).vector.value ≠ w.vector.value) := by
  have hne (v : List α) : w.notified ++ [v] ≠ w.notified := by simp
  rw [vector_step, Reports, vector_step, step]
  by_cases hsays : w.modified unitConvert call = some true
  · rw [if_pos hsays, iff_true_left hsays]
    refine ⟨fun h heq => hne _ (h.2 heq).2, fun h => ⟨fun _ => ⟨rfl, rfl⟩, fun heq => ?_⟩⟩
    exact absurd heq h
  · rw [if_neg hsays, iff_false_left hsays, not_not]
    refine ⟨fun h => ?_, fun h => ⟨fun hchanged => absurd h hchanged, fun _ => ⟨rfl, rfl⟩⟩⟩
    by_contra hchanged
    exact hne _ (h.1 hchanged).2.symm

/-- **Along every run, each call marks the metric for all readers and calls the listeners if the
vector has changed, and does neither if it has not, if and only if each call of the run meets the
condition.** -/
theorem changes_reported_iff (w : Watched α) (events : List (Event α)) :
    (∀ x ∈ w.calls unitConvert hash events, x.1.Reports (x.1.step unitConvert hash x.2)) ↔
      ∀ x ∈ w.calls unitConvert hash events, x.1.Noticed unitConvert x.2 :=
  forall₂_congr fun x _ =>
    (reports_iff unitConvert hash x.1 x.2).trans (modified_iff_ne unitConvert hash x.1 x.2)

/-- **Setting no elements is not reported**: a vector of one element that is made empty is not
marked. -/
theorem not_changes_reported :
    ¬ ∀ (hash : Name → UInt32) (unitConvert : MetricUnit → MetricUnit → Int32 → Int32)
      (w : Watched Int32) (events : List (Event Int32)),
      ∀ x ∈ w.calls unitConvert hash events, x.1.Reports (x.1.step unitConvert hash x.2) := by
  intro h
  have hempty := h (fun _ => 0) (fun _ _ a => a)
    ⟨blank [0x76] 0 none, boot true pmetricsClear, 0, []⟩
    [.call (.setValue [5] 0), .call (.setValue [] 0)] _ (List.mem_cons_of_mem _ List.mem_cons_self)
  have hnotified := (hempty.1 (by decide)).2
  revert hnotified
  decide

end Watched

end Ovms.Metrics
