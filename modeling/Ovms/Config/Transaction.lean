import Ovms.Config.File
import Ovms.Lib.Machine

/-!
# Configuration Transactions

`OvmsConfig::Transaction`, `TransactionAdd`, `TransactionCommit`, `RegisterParam` and
`DeregisterParam`, and the setters of `OvmsConfigParam` (`main/ovms_config.cpp`): changes are
collected while the lock is held, one operation for each parameter, and carried out when the
last lock is released and the storage is not locked. What is pending is kept by the address of
the parameter, and carried out in the order of the addresses. So where a name is deregistered,
registered again and changed in one transaction, it depends on the addresses whether the file of
the new parameter is written behind the deletion of the old one, or deleted again.

A call takes the lock, does its work and releases the lock, so it is three steps here; the
locks it takes within are not the last ones. The storage is mounted. A file is what was written
to it, under the name of its parameter; the parameter without a name has none, for it is never
saved. A new parameter gets any address that is not in use; a deleted one is in use until the
event that is signalled for it has been handled.
-/

open Std Lib

namespace Ovms.Config

/-- The address of a parameter. -/
abbrev Address := ℕ

/-- `OvmsConfigParam`, and whether it was changed since it was made. -/
structure OvmsConfigParam where
  name : Text
  instances : ConfigParamMap
  changed : Bool

/-- `TransOp`. -/
inductive TransOp
  | save
  | delete
  deriving DecidableEq

/-- The members of `OvmsConfig`, the memory and the files. The event of a deletion frees the
parameter; the names that were deregistered are remembered. -/
structure OvmsConfig where
  params : ExtTreeMap Text Address
  transaction : ExtTreeMap Address TransOp
  locks : ℕ
  objects : Address → Option OvmsConfigParam
  files : Text → Option Text
  freeing : List Address
  deregistered : List Text

/-! ### Instances -/

/-- `ConfigParamMap::SetValue`: the map, if it is changed. -/
def setValue (name value : Text) (instances : ConfigParamMap) : Option ConfigParamMap :=
  if instances[name]? = some value then none else some (instances.insert name value)

/-- `ConfigParamMap::DeleteInstance`. -/
def deleteInstance (name : Text) (instances : ConfigParamMap) : Option ConfigParamMap :=
  if name ∈ instances then some (instances.erase name) else none

/-- The comparison of `SetMap`. -/
def setMap (map instances : ConfigParamMap) : Option ConfigParamMap :=
  if map.toList = instances.toList then none else some map

namespace OvmsConfig

/-! ### The code -/

/-- `TransactionAdd`. -/
def transactionAdd (s : OvmsConfig) (param : Address) (todo : TransOp) : OvmsConfig :=
  let pending := (s.transaction[param]?).getD .save
  -- `todo > have`
  let op := if pending = .save ∧ todo = .delete then todo else pending
  { s with transaction := s.transaction.insert param op }

/-- A parameter that was changed, and `Save`. -/
def save (s : OvmsConfig) (param : Address) (p : OvmsConfigParam) : OvmsConfig :=
  let stored := { s with objects := Function.update s.objects param (some p) }
  if p.name ≠ [] then stored.transactionAdd param .save else stored

/-- `SetValue`, `DeleteInstance` and `SetMap` of a parameter: its instances are changed, if they
differ then. -/
def change (s : OvmsConfig) (param : Address)
    (f : ConfigParamMap → Option ConfigParamMap) : OvmsConfig :=
  match s.objects param with
  | none => s
  | some p =>
      match f p.instances with
      | none => s
      | some instances => s.save param { p with instances, changed := true }

/-- The loop of `NameMap::FindUniquePrefix`. -/
def findLoop (token : Text) : List (Text × Address) → Option Address → Option Address
  | [], found => found
  | it :: rest, found =>
      if token.isPrefixOf it.1 then
        if token.length = it.1.length then some it.2
        else if found.isSome then none
        else findLoop token rest (some it.2)
      else findLoop token rest found

/-- `CachedParam`. -/
def cachedParam (s : OvmsConfig) (param : Text) : Option Address :=
  findLoop (Crypt.cString param) s.params.toList none

/-- `RegisterParam`, at an address: the constructor loads the file. -/
def registerParam (s : OvmsConfig) (name : Text) (param : Address) : OvmsConfig :=
  if s.params[name]?.isSome ∨ (s.objects param).isSome then s
  else
    let instances := match s.files name with
      | none => ∅
      | some file => loadConfig ∅ file
    { s with
      objects := Function.update s.objects param (some ⟨name, instances, false⟩)
      params := s.params.insert name param }

/-- `DeregisterParam`. -/
def deregisterParam (s : OvmsConfig) (name : Text) : OvmsConfig :=
  match s.params[name]? with
  | none => s
  | some param =>
      let cleared := (s.objects param).map fun p => { p with instances := ∅ }
      { s with
        objects := Function.update s.objects param cleared
        params := s.params.erase name
        deregistered := name :: s.deregistered }.transactionAdd param .delete

/-- The change of a parameter that is looked up. -/
def changeCached (s : OvmsConfig) (param : Text)
    (f : ConfigParamMap → Option ConfigParamMap) : OvmsConfig :=
  match s.cachedParam param with
  | none => s
  | some p => s.change p f

/-- What is in the file of a parameter behind a pending operation: `DeleteConfig`, and
`RewriteConfig`. -/
def written (p : OvmsConfigParam) : TransOp → Option Text
  | .delete => none
  | .save => some (rewriteConfig p.instances)

/-- What a pending operation does to the files. -/
def exec (s : OvmsConfig) (files : Text → Option Text) (entry : Address × TransOp) :
    Text → Option Text :=
  match s.objects entry.1 with
  | none => files
  | some p => Function.update files p.name (written p entry.2)

/-- `TransactionCommit`; deferred, if the storage is locked. -/
def transactionCommit (s : OvmsConfig) (free : Bool) : OvmsConfig :=
  if s.transaction.size = 0 then s
  else if free = false then s
  else
    { s with
      files := s.transaction.toList.foldl s.exec s.files
      freeing := s.freeing ++ (s.transaction.toList.filter fun entry => entry.2 = .delete).map
        Prod.fst
      transaction := ∅ }

/-- `Transaction::Unlock`. -/
def unlock (s : OvmsConfig) (free : Bool) : OvmsConfig :=
  if s.locks = 1 then { s.transactionCommit free with locks := 0 }
  else { s with locks := s.locks - 1 }

/-- The event of a deletion was handled. -/
def freed (s : OvmsConfig) (param : Address) : OvmsConfig :=
  if param ∈ s.freeing then
    { s with
      objects := Function.update s.objects param none
      freeing := s.freeing.filter (· ≠ param) }
  else s

end OvmsConfig

/-! ### Runs -/

/-- The calls; a parameter that is registered gets the address. -/
inductive Call
  | setParamValue (param name value : Text)
  | deleteInstance (param name : Text)
  | setParamMap (param : Text) (map : ConfigParamMap) (address : Address)
  | registerParam (name : Text) (address : Address)
  | deregisterParam (name : Text)

/-- A lock is taken or released, the work of a call is done, or a deleted parameter is freed. A
release finds the storage free or not. -/
inductive Op
  | lock
  | perform (call : Call)
  | unlock (free : Bool)
  | freed (param : Address)

namespace OvmsConfig

/-- The work of a call. -/
def perform (s : OvmsConfig) : Call → OvmsConfig
  | .setParamValue param name value => s.changeCached param (setValue name value)
  | .deleteInstance param name => s.changeCached param (deleteInstance name)
  | .setParamMap param map address =>
      (if s.cachedParam param = none then s.registerParam param address else s).changeCached param
        (setMap map)
  | .registerParam name address => s.registerParam name address
  | .deregisterParam name => s.deregisterParam name

/-- A step. -/
def step (s : OvmsConfig) : Op → OvmsConfig
  | .lock => { s with locks := s.locks + 1 }
  | .perform call => s.perform call
  | .unlock free => s.unlock free
  | .freed param => s.freed param

/-- A step commits, and is not deferred. -/
def Commits (s : OvmsConfig) (op : Op) : Prop := s.locks = 1 ∧ op = .unlock true

/-- A parameter is registered. -/
def Registered (s : OvmsConfig) (param : Address) (p : OvmsConfigParam) : Prop :=
  s.objects param = some p ∧ s.params[p.name]? = some param

/-- The files are right: the file of a registered parameter that was changed holds its instances,
and there is none for a name that was deregistered and is not registered. -/
def Right (s : OvmsConfig) : Prop :=
  (∀ param p, s.Registered param p → p.name ≠ [] → p.changed = true →
    s.files p.name = some (rewriteConfig p.instances)) ∧
  ∀ name ∈ s.deregistered, s.params[name]? = none → s.files name = none

/-- A parameter that is to be saved comes behind every one of the same name that is to be
deleted. -/
def Ordered (s : OvmsConfig) : Prop :=
  ∀ (a b : Address) (p q : OvmsConfigParam), s.transaction[a]? = some .save →
    s.transaction[b]? = some .delete → s.objects a = some p → s.objects b = some q →
    p.name = q.name → b < a

/-- A state in which nothing is pending, and all parameters are as they were loaded. -/
structure Mounted (s : OvmsConfig) : Prop where
  lookup : ∀ (name : Text) (param : Address), s.params[name]? = some param →
    ∃ p, s.objects param = some p ∧ p.name = name ∧ p.changed = false
  transaction : s.transaction = ∅
  freeing : s.freeing = []
  deregistered : s.deregistered = []

/-! ### What is pending -/

variable {s : OvmsConfig} {param : Address} {p : OvmsConfigParam}

theorem getElem?_transactionAdd_delete (b : Address) :
    (s.transactionAdd param .delete).transaction[b]?
      = if param = b then some .delete else s.transaction[b]? := by
  cases hop : (s.transaction[param]?).getD .save <;>
    simp [transactionAdd, ExtTreeMap.getElem?_insert, hop]

/-- The saving of a parameter is pending, if its deletion was not. -/
theorem getElem?_transactionAdd_save (h : s.transaction[param]? ≠ some .delete) (b : Address) :
    (s.transactionAdd param .save).transaction[b]?
      = if param = b then some .save else s.transaction[b]? := by
  have hpending : (s.transaction[param]?).getD .save = .save := by
    cases hop : s.transaction[param]? with
    | none => rfl
    | some op =>
        cases op with
        | save => rfl
        | delete => exact absurd hop h
  simp [transactionAdd, ExtTreeMap.getElem?_insert, hpending]

/-! ### The invariant -/

/-- The lists of parameters fit together: a name is looked up as a parameter of that name; what
is to be saved is registered and was changed; what is to be deleted, or freed, is not registered;
and a name that is deregistered has no file, or one that is to be deleted. -/
structure Sound (s : OvmsConfig) : Prop where
  lookup : ∀ (name : Text) (a : Address), s.params[name]? = some a →
    ∃ p, s.objects a = some p ∧ p.name = name
  save : ∀ a : Address, s.transaction[a]? = some .save →
    ∃ p, s.Registered a p ∧ p.name ≠ [] ∧ p.changed = true
  delete : ∀ a : Address, s.transaction[a]? = some .delete →
    ∃ p, s.objects a = some p ∧ s.params[p.name]? ≠ some a
  freeing : ∀ a ∈ s.freeing, s.transaction[a]? = none ∧
    ∃ p, s.objects a = some p ∧ s.params[p.name]? ≠ some a
  gone : ∀ name ∈ s.deregistered, s.params[name]? = none → s.files name = none ∨
    ∃ (a : Address) (p : OvmsConfigParam), s.transaction[a]? = some .delete ∧
      s.objects a = some p ∧ p.name = name

/-- The deletion of a name is pending. -/
def Dying (s : OvmsConfig) (name : Text) : Prop :=
  ∃ (a : Address) (p : OvmsConfigParam), s.transaction[a]? = some .delete ∧
    s.objects a = some p ∧ p.name = name

/-- What was changed and is not to be saved is in its file, and the file stays. -/
def Kept (s : OvmsConfig) : Prop :=
  ∀ (a : Address) (p : OvmsConfigParam), s.Registered a p → p.name ≠ [] → p.changed = true →
    s.transaction[a]? = some .save ∨
      s.files p.name = some (rewriteConfig p.instances) ∧ ¬ s.Dying p.name

theorem Sound.not_delete (h : Sound s) (hp : s.Registered param p) :
    s.transaction[param]? ≠ some .delete := by
  intro hdelete
  obtain ⟨q, hq, hname⟩ := h.delete param hdelete
  obtain rfl := Option.some.inj (hp.1.symm.trans hq)
  exact hname hp.2

theorem Registered.unique {q : OvmsConfigParam} {b : Address} (hp : s.Registered param p)
    (hq : s.Registered b q) (hname : p.name = q.name) : param = b :=
  Option.some.inj (hp.2.symm.trans (hname ▸ hq.2))

/-! ### Saving -/

/-- What `Save` leaves pending. -/
theorem getElem?_save (h : Sound s) (hp : s.Registered param p) (p' : OvmsConfigParam)
    (b : Address) : (s.save param p').transaction[b]?
      = if param = b ∧ p'.name ≠ [] then some .save else s.transaction[b]? := by
  rw [OvmsConfig.save]
  split
  · rename_i hname
    refine (getElem?_transactionAdd_save (h.not_delete hp) b).trans ?_
    simp [hname]
  · rename_i hname
    simp [hname]

@[simp] theorem objects_save (p' : OvmsConfigParam) :
    (s.save param p').objects = Function.update s.objects param (some p') := by
  rw [OvmsConfig.save]
  split <;> rfl

@[simp] theorem params_save (p' : OvmsConfigParam) : (s.save param p').params = s.params := by
  rw [OvmsConfig.save]
  split <;> rfl

@[simp] theorem files_save (p' : OvmsConfigParam) : (s.save param p').files = s.files := by
  rw [OvmsConfig.save]
  split <;> rfl

@[simp] theorem freeing_save (p' : OvmsConfigParam) : (s.save param p').freeing = s.freeing := by
  rw [OvmsConfig.save]
  split <;> rfl

@[simp] theorem deregistered_save (p' : OvmsConfigParam) :
    (s.save param p').deregistered = s.deregistered := by
  rw [OvmsConfig.save]
  split <;> rfl

/-- A deletion stays pending when another parameter is saved. -/
theorem dying_save (h : Sound s) (hp : s.Registered param p) (p' : OvmsConfigParam)
    (name : Text) : (s.save param p').Dying name ↔ s.Dying name := by
  have hne : ∀ b, s.transaction[b]? = some .delete → param ≠ b := by
    rintro b hb rfl
    exact h.not_delete hp hb
  constructor
  · rintro ⟨b, q, hb, hq, hname⟩
    rw [getElem?_save h hp] at hb
    split at hb
    · simp at hb
    · rw [objects_save, Function.update_of_ne (hne b hb).symm] at hq
      exact ⟨b, q, hb, hq, hname⟩
  · rintro ⟨b, q, hb, hq, hname⟩
    refine ⟨b, q, ?_, ?_, hname⟩
    · rw [getElem?_save h hp, if_neg fun hab => hne b hb hab.1, hb]
    · rw [objects_save, Function.update_of_ne (hne b hb).symm, hq]

/-- Saving a parameter that is registered keeps the lists together. -/
theorem Sound.saved (h : Sound s) (hp : s.Registered param p) {p' : OvmsConfigParam}
    (hname : p'.name = p.name) (hchanged : p'.changed = true) : Sound (s.save param p') := by
  have hother : ∀ b q, s.objects b = some q → s.params[q.name]? ≠ some b →
      b ≠ param := by
    rintro b q hq hb rfl
    obtain rfl := Option.some.inj (hp.1.symm.trans hq)
    exact hb hp.2
  constructor
  · intro name b hb
    rw [params_save] at hb
    obtain ⟨q, hq, hqname⟩ := h.lookup name b hb
    rw [objects_save]
    by_cases hbp : b = param
    · subst hbp
      obtain rfl := Option.some.inj (hp.1.symm.trans hq)
      exact ⟨p', by simp, hname.trans hqname⟩
    · exact ⟨q, by simp [hbp, hq], hqname⟩
  · intro b hb
    by_cases hbp : b = param
    · subst hbp
      refine ⟨p', ⟨by simp, ?_⟩, ?_, hchanged⟩
      · rw [params_save, hname]
        exact hp.2
      · intro hnil
        rw [getElem?_save h hp, if_neg (by simp [hnil])] at hb
        obtain ⟨q, hq, hne, -⟩ := h.save b hb
        obtain rfl := Option.some.inj (hp.1.symm.trans hq.1)
        exact hne (hname ▸ hnil)
    · rw [getElem?_save h hp, if_neg fun hab => hbp hab.1.symm] at hb
      obtain ⟨q, hq, hne, hqchanged⟩ := h.save b hb
      exact ⟨q, ⟨by simp [hbp, hq.1], by rw [params_save]; exact hq.2⟩, hne, hqchanged⟩
  · intro b hb
    rw [getElem?_save h hp] at hb
    split at hb
    · simp at hb
    · obtain ⟨q, hq, hqname⟩ := h.delete b hb
      refine ⟨q, ?_, by rwa [params_save]⟩
      rw [objects_save, Function.update_of_ne (hother b q hq hqname), hq]
  · intro b hb
    rw [freeing_save] at hb
    obtain ⟨hnone, q, hq, hqname⟩ := h.freeing b hb
    have hbp := hother b q hq hqname
    refine ⟨?_, q, ?_, by rwa [params_save]⟩
    · rw [getElem?_save h hp, if_neg fun hab => hbp hab.1.symm, hnone]
    · rw [objects_save, Function.update_of_ne hbp, hq]
  · intro name hderegistered hnone
    rw [deregistered_save] at hderegistered
    rw [params_save] at hnone
    rw [files_save]
    exact (h.gone name hderegistered hnone).imp_right (dying_save h hp p' name).mpr

/-- And it is then to be saved. -/
theorem Kept.saved (h : Sound s) (hkept : Kept s) (hp : s.Registered param p)
    (p' : OvmsConfigParam) : Kept (s.save param p') := by
  rintro b q ⟨hq, hqname⟩ hne hchanged
  rw [objects_save] at hq
  rw [params_save] at hqname
  by_cases hbp : b = param
  · subst hbp
    obtain rfl : p' = q := by simpa using hq
    left
    rw [getElem?_save h hp, if_pos ⟨rfl, hne⟩]
  · rw [Function.update_of_ne hbp] at hq
    rw [getElem?_save h hp, if_neg fun hab => hbp hab.1.symm, files_save, dying_save h hp]
    exact hkept b q ⟨hq, hqname⟩ hne hchanged

theorem change_cases (hp : s.Registered param p)
    (f : ConfigParamMap → Option ConfigParamMap) : s.change param f = s ∨
      ∃ instances, s.change param f = s.save param ⟨p.name, instances, true⟩ := by
  simp only [change, hp.1]
  cases f p.instances with
  | none => exact .inl rfl
  | some instances => exact .inr ⟨instances, rfl⟩

/-! ### Looking up -/

/-- What is found is an entry. -/
theorem mem_of_findLoop {token : Text} {a : Address} {entries : List (Text × Address)}
    {found : Option Address} (h : findLoop token entries found = some a) :
    found = some a ∨ ∃ name, (name, a) ∈ entries := by
  induction entries generalizing found with
  | nil => exact .inl h
  | cons it rest ih =>
      have hself : (it.1, it.2) ∈ it :: rest := List.mem_cons_self
      rw [findLoop] at h
      split at h
      · split at h
        · obtain rfl := Option.some.inj h
          exact .inr ⟨it.1, hself⟩
        · split at h
          · simp at h
          · rcases ih h with h | ⟨name, h⟩
            · obtain rfl := Option.some.inj h
              exact .inr ⟨it.1, hself⟩
            · exact .inr ⟨name, List.mem_cons_of_mem _ h⟩
      · exact (ih h).imp_right fun h => h.imp fun name h => List.mem_cons_of_mem _ h

theorem Sound.cachedParam (h : Sound s) {token : Text}
    (hcached : s.cachedParam token = some param) : ∃ p, s.Registered param p := by
  rcases mem_of_findLoop hcached with hfound | ⟨name, hmem⟩
  · simp at hfound
  · have hname := ExtTreeMap.mem_toList_iff_getElem?_eq_some.mp hmem
    obtain ⟨p, hp, rfl⟩ := h.lookup name param hname
    exact ⟨p, hp, hname⟩

/-- A change of a parameter that is looked up keeps what holds of a state, if saving one does. -/
theorem changeCached_rule {I : OvmsConfig → Prop} (h : Sound s) (hs : I s)
    (hsave : ∀ (param : Address) (p : OvmsConfigParam) (instances : ConfigParamMap),
      s.Registered param p → I (s.save param ⟨p.name, instances, true⟩))
    (token : Text) (f : ConfigParamMap → Option ConfigParamMap) : I (s.changeCached token f) := by
  rw [changeCached]
  split
  · exact hs
  · rename_i param hcached
    obtain ⟨p, hp⟩ := h.cachedParam hcached
    rcases change_cases hp f with hsame | ⟨instances, hchanged⟩
    · rwa [hsame]
    · rw [hchanged]
      exact hsave param p instances hp

/-! ### Registering -/

/-- A new parameter, and nothing else. -/
theorem registerParam_cases (s : OvmsConfig) (name : Text) (param : Address) :
    s.registerParam name param = s ∨ s.params[name]? = none ∧ s.objects param = none ∧
      ∃ instances, s.registerParam name param =
        { s with
          objects := Function.update s.objects param (some ⟨name, instances, false⟩)
          params := s.params.insert name param } := by
  rw [registerParam]
  split
  · exact .inl rfl
  · rename_i hfree
    rw [not_or, Option.not_isSome_iff_eq_none, Option.not_isSome_iff_eq_none] at hfree
    exact .inr ⟨hfree.1, hfree.2, _, rfl⟩

/-- A new parameter keeps the lists together. -/
theorem Sound.registerParam (h : Sound s) (name : Text) (param : Address) :
    Sound (s.registerParam name param) := by
  obtain hsame | ⟨hname, hfree, instances, heq⟩ := registerParam_cases s name param
  · rwa [hsame]
  rw [heq]
  have hother : ∀ {b : Address} {q : OvmsConfigParam}, s.objects b = some q → b ≠ param := by
    rintro b q hq rfl
    simp [hfree] at hq
  have hparams : ∀ {b : Address} {q : OvmsConfigParam}, s.objects b = some q →
      s.params[q.name]? ≠ some b → (s.params.insert name param)[q.name]? ≠ some b := by
    intro b q hq hb
    rw [ExtTreeMap.getElem?_insert]
    split
    · simpa using (hother hq).symm
    · exact hb
  constructor
  · intro name' b hb
    rw [ExtTreeMap.getElem?_insert] at hb
    split at hb
    · obtain rfl := Option.some.inj hb
      rename_i hnames
      exact ⟨⟨name, instances, false⟩, by simp, Std.compare_eq_iff_eq.mp hnames⟩
    · obtain ⟨q, hq, hqname⟩ := h.lookup name' b hb
      exact ⟨q, by simp [hother hq, hq], hqname⟩
  · intro b hb
    obtain ⟨q, ⟨hq, hqname⟩, hne, hchanged⟩ := h.save b hb
    refine ⟨q, ⟨by simp [hother hq, hq], ?_⟩, hne, hchanged⟩
    have hnames : name ≠ q.name := by
      rintro rfl
      simp [hname] at hqname
    simpa [ExtTreeMap.getElem?_insert, hnames] using hqname
  · intro b hb
    obtain ⟨q, hq, hqname⟩ := h.delete b hb
    exact ⟨q, by simp [hother hq, hq], hparams hq hqname⟩
  · intro b hb
    obtain ⟨hnone, q, hq, hqname⟩ := h.freeing b hb
    exact ⟨hnone, q, by simp [hother hq, hq], hparams hq hqname⟩
  · intro name' hderegistered hnone
    have hbefore : s.params[name']? = none := by
      rw [ExtTreeMap.getElem?_insert] at hnone
      split at hnone
      · simp at hnone
      · exact hnone
    refine (h.gone name' hderegistered hbefore).imp_right ?_
    rintro ⟨b, q, hb, hq, hqname⟩
    exact ⟨b, q, hb, by simp [hother hq, hq], hqname⟩

/-- A new parameter is not changed. -/
theorem Kept.registerParam (h : Sound s) (hkept : Kept s) (name : Text) (param : Address) :
    Kept (s.registerParam name param) := by
  obtain hsame | ⟨hname, hfree, instances, heq⟩ := registerParam_cases s name param
  · rwa [hsame]
  rw [heq]
  rintro b q ⟨hq, hqname⟩ hne hchanged
  by_cases hbp : b = param
  · subst hbp
    have hnew : (⟨name, instances, false⟩ : OvmsConfigParam) = q := by simpa using hq
    simp [← hnew] at hchanged
  · replace hq : s.objects b = some q := by simpa [hbp] using hq
    have hregistered : s.params[q.name]? = some b := by
      rw [ExtTreeMap.getElem?_insert] at hqname
      split at hqname
      · exact absurd (Option.some.inj hqname).symm hbp
      · exact hqname
    refine (hkept b q ⟨hq, hregistered⟩ hne hchanged).imp_right fun hfile => ⟨hfile.1, ?_⟩
    rintro ⟨c, r, hc, hr, hrname⟩
    obtain ⟨r', hr', -⟩ := h.delete c hc
    have hcp : c ≠ param := by
      rintro rfl
      simp [hfree] at hr'
    exact hfile.2 ⟨c, r, hc, by simpa [hcp] using hr, hrname⟩

/-! ### Deregistering -/

theorem deregisterParam_eq (hp : s.Registered param p) : s.deregisterParam p.name =
    { s with
      objects := Function.update s.objects param (some { p with instances := ∅ })
      params := s.params.erase p.name
      deregistered := p.name :: s.deregistered }.transactionAdd param .delete := by
  simp only [deregisterParam, hp.2, hp.1, Option.map_some]

/-- It does nothing, or a parameter is registered. -/
theorem Sound.deregisterParam_cases (h : Sound s) (name : Text) :
    s.deregisterParam name = s ∨ ∃ (param : Address) (p : OvmsConfigParam),
      s.Registered param p ∧ p.name = name := by
  rw [OvmsConfig.deregisterParam]
  cases hparam : s.params[name]? with
  | none => exact .inl rfl
  | some param =>
      obtain ⟨p, hp, rfl⟩ := h.lookup name param hparam
      exact .inr ⟨param, p, ⟨hp, hparam⟩, rfl⟩

/-- Deregistering keeps the lists together. -/
theorem Sound.deregisterParam (h : Sound s) (name : Text) : Sound (s.deregisterParam name) := by
  obtain hsame | ⟨param, p, hp, rfl⟩ := h.deregisterParam_cases name
  · rwa [hsame]
  rw [deregisterParam_eq hp]
  have herase : ∀ {name : Text} {b : Address}, (s.params.erase p.name)[name]? = some b →
      s.params[name]? = some b ∧ b ≠ param := by
    intro name b hb
    rw [ExtTreeMap.getElem?_erase] at hb
    split at hb
    · simp at hb
    · rename_i hname
      refine ⟨hb, ?_⟩
      rintro rfl
      obtain ⟨q, hq, rfl⟩ := h.lookup name b hb
      obtain rfl := Option.some.inj (hp.1.symm.trans hq)
      exact hname Std.ReflCmp.compare_self
  have hparams : ∀ {name : Text} {b : Address}, s.params[name]? ≠ some b →
      (s.params.erase p.name)[name]? ≠ some b := fun hb hname => hb (herase hname).1
  -- where the parameter is, and where others are
  have hobject : ∀ {b : Address} {q : OvmsConfigParam}, s.objects b = some q →
      ∃ q', Function.update s.objects param (some { p with instances := ∅ }) b = some q' ∧
        q'.name = q.name ∧ (b ≠ param → q' = q) := by
    intro b q hq
    by_cases hb : b = param
    · subst hb
      obtain rfl := Option.some.inj (hp.1.symm.trans hq)
      exact ⟨_, Function.update_self _ _ _, rfl, fun hb => absurd rfl hb⟩
    · exact ⟨q, by simp [hb, hq], rfl, fun _ => rfl⟩
  constructor
  · intro name b hb
    obtain ⟨hb, -⟩ := herase hb
    obtain ⟨q, hq, hqname⟩ := h.lookup name b hb
    obtain ⟨q', hq', hname, -⟩ := hobject hq
    exact ⟨q', hq', hname.trans hqname⟩
  · intro b hb
    rw [getElem?_transactionAdd_delete] at hb
    split at hb
    · simp at hb
    · rename_i hbp
      obtain ⟨q, hq, hne, hchanged⟩ := h.save b hb
      obtain ⟨q', hq', -, hsame⟩ := hobject hq.1
      obtain rfl := hsame (Ne.symm hbp)
      refine ⟨q', ⟨hq', ?_⟩, hne, hchanged⟩
      have hnames : p.name ≠ q'.name := fun hname => hbp (hp.unique hq hname)
      change (s.params.erase p.name)[q'.name]? = some b
      simpa [ExtTreeMap.getElem?_erase, hnames] using hq.2
  · intro b hb
    rw [getElem?_transactionAdd_delete] at hb
    split at hb
    · rename_i hbp
      subst hbp
      exact ⟨_, Function.update_self _ _ _, fun hname => (herase hname).2 rfl⟩
    · obtain ⟨q, hq, hqname⟩ := h.delete b hb
      obtain ⟨q', hq', hname, -⟩ := hobject hq
      exact ⟨q', hq', hname ▸ hparams hqname⟩
  · intro b hb
    obtain ⟨hnone, q, hq, hqname⟩ := h.freeing b hb
    obtain ⟨q', hq', hname, -⟩ := hobject hq
    refine ⟨?_, q', hq', hname ▸ hparams hqname⟩
    rw [getElem?_transactionAdd_delete, if_neg, hnone]
    rintro rfl
    obtain rfl := Option.some.inj (hp.1.symm.trans hq)
    exact hqname hp.2
  · intro name hderegistered hnone
    by_cases hname : p.name = name
    · refine .inr ⟨param, { p with instances := ∅ }, ?_, Function.update_self _ _ _, hname⟩
      rw [getElem?_transactionAdd_delete, if_pos rfl]
    · have hbefore : s.params[name]? = none := by
        change (s.params.erase p.name)[name]? = none at hnone
        simpa [ExtTreeMap.getElem?_erase, hname] using hnone
      have hmem : name ∈ s.deregistered :=
        (List.mem_cons.mp hderegistered).resolve_left (Ne.symm hname)
      refine (h.gone name hmem hbefore).imp_right ?_
      rintro ⟨b, q, hb, hq, hqname⟩
      obtain ⟨q', hq', hname', -⟩ := hobject hq
      refine ⟨b, q', ?_, hq', hname'.trans hqname⟩
      rw [getElem?_transactionAdd_delete, hb, ite_self]

/-- The other parameters keep their files. -/
theorem Kept.deregisterParam (h : Sound s) (hkept : Kept s) (name : Text) :
    Kept (s.deregisterParam name) := by
  obtain hsame | ⟨param, p, hp, rfl⟩ := h.deregisterParam_cases name
  · rwa [hsame]
  rw [deregisterParam_eq hp]
  rintro b q ⟨hq, hqname⟩ hne hchanged
  change Function.update s.objects param (some { p with instances := ∅ }) b = some q at hq
  change (s.params.erase p.name)[q.name]? = some b at hqname
  rw [ExtTreeMap.getElem?_erase] at hqname
  split at hqname
  · simp at hqname
  rename_i hnames
  rw [Std.compare_eq_iff_eq] at hnames
  have hbp : b ≠ param := by
    rintro rfl
    have hsame : ({ p with instances := ∅ } : OvmsConfigParam) = q := by simpa using hq
    exact hnames (by rw [← hsame])
  rw [Function.update_of_ne hbp] at hq
  refine (hkept b q ⟨hq, hqname⟩ hne hchanged).imp (fun hsave => ?_)
    fun hfile => ⟨hfile.1, ?_⟩
  · rw [getElem?_transactionAdd_delete, if_neg (Ne.symm hbp), hsave]
  · rintro ⟨c, r, hc, hr, hrname⟩
    change Function.update s.objects param (some { p with instances := ∅ }) c = some r at hr
    by_cases hcp : c = param
    · subst hcp
      have hsame : ({ p with instances := ∅ } : OvmsConfigParam) = r := by simpa using hr
      exact hnames (by rw [← hrname, ← hsame])
    · rw [getElem?_transactionAdd_delete, if_neg (Ne.symm hcp)] at hc
      rw [Function.update_of_ne hcp] at hr
      exact hfile.2 ⟨c, r, hc, hr, hrname⟩

/-! ### Carrying out -/

theorem exec_of_ne {name : Text} {entry : Address × TransOp}
    (h : ∀ p, s.objects entry.1 = some p → p.name ≠ name) (files : Text → Option Text) :
    s.exec files entry name = files name := by
  cases hp : s.objects entry.1 with
  | none => simp [exec, hp]
  | some p => simp [exec, hp, Function.update_of_ne (h p hp).symm]

/-- So do operations of other names. -/
theorem foldl_exec_of_ne {name : Text} {entries : List (Address × TransOp)}
    (h : ∀ entry ∈ entries, ∀ p, s.objects entry.1 = some p → p.name ≠ name)
    (files : Text → Option Text) : entries.foldl s.exec files name = files name := by
  induction entries generalizing files with
  | nil => rfl
  | cons entry entries ih =>
      obtain ⟨hentry, hentries⟩ := List.forall_mem_cons.mp h
      rw [List.foldl_cons, ih hentries, exec_of_ne hentry]

theorem foldl_exec_append {name : Text} {entry : Address × TransOp}
    {front back : List (Address × TransOp)}
    (h : ∀ other ∈ back, ∀ p, s.objects other.1 = some p → p.name ≠ name)
    (files : Text → Option Text) :
    (front ++ entry :: back).foldl s.exec files name
      = s.exec (front.foldl s.exec files) entry name := by
  rw [List.foldl_append, List.foldl_cons, foldl_exec_of_ne h]

/-- What is pending, in the order of the addresses: in front of an operation are those of lower
addresses, behind it those of higher ones. -/
theorem exists_pending {op : TransOp} (h : s.transaction[param]? = some op) :
    ∃ front back, s.transaction.toList = front ++ (param, op) :: back ∧
      (∀ entry ∈ back, param < entry.1 ∧ s.transaction[entry.1]? = some entry.2) := by
  have hmem := ExtTreeMap.mem_toList_iff_getElem?_eq_some.mpr h
  obtain ⟨front, back, hsplit⟩ := List.append_of_mem hmem
  have hordered := ExtTreeMap.ordered_keys_toList (t := s.transaction)
  rw [hsplit, List.pairwise_append, List.pairwise_cons] at hordered
  refine ⟨front, back, hsplit, fun entry hentry => ⟨?_, ?_⟩⟩
  · exact Nat.compare_eq_lt.mp (hordered.2.1.1 entry hentry)
  · refine ExtTreeMap.mem_toList_iff_getElem?_eq_some.mp ?_
    rw [hsplit]
    exact List.mem_append_right _ (List.mem_cons_of_mem _ hentry)

/-- The files behind a commit. -/
def committed (s : OvmsConfig) : Text → Option Text := s.transaction.toList.foldl s.exec s.files

theorem committed_of_forall {name : Text}
    (h : ∀ (a : Address) (op : TransOp) (p : OvmsConfigParam), s.transaction[a]? = some op →
      s.objects a = some p → p.name ≠ name) : s.committed name = s.files name :=
  foldl_exec_of_ne (fun entry hentry p hp =>
    h entry.1 entry.2 p (ExtTreeMap.mem_toList_iff_getElem?_eq_some.mp hentry) hp) s.files

/-- A file that is not there stays away, unless it is saved. -/
theorem foldl_exec_none {name : Text} {entries : List (Address × TransOp)}
    (h : ∀ entry ∈ entries, entry.2 = .save → ∀ p, s.objects entry.1 = some p → p.name ≠ name)
    {files : Text → Option Text} (hnone : files name = none) :
    entries.foldl s.exec files name = none := by
  induction entries generalizing files with
  | nil => exact hnone
  | cons entry entries ih =>
      obtain ⟨hentry, hentries⟩ := List.forall_mem_cons.mp h
      refine ih hentries ?_
      cases hp : s.objects entry.1 with
      | none => simpa [exec, hp] using hnone
      | some p =>
          by_cases hname : p.name = name
          · have hop : entry.2 = .delete := by
              cases hop : entry.2 with
              | save => exact absurd hname (hentry hop p hp)
              | delete => rfl
            simp [exec, hp, hname, hop, written]
          · simpa [exec, hp, Function.update_of_ne (Ne.symm hname)] using hnone

/-- A deletion of a name deletes the file, if nothing of the name is saved behind it. -/
theorem committed_of_delete (hdelete : s.transaction[param]? = some .delete)
    (hp : s.objects param = some p)
    (h : ∀ (b : Address) (q : OvmsConfigParam), s.transaction[b]? = some .save →
      s.objects b = some q → q.name = p.name → b < param) : s.committed p.name = none := by
  obtain ⟨front, back, hsplit, hback⟩ := exists_pending hdelete
  rw [committed, hsplit, List.foldl_append, List.foldl_cons]
  refine foldl_exec_none ?_ ?_
  · rintro ⟨b, op⟩ hentry rfl q hq hname
    obtain ⟨hlt, hb⟩ := hback _ hentry
    exact absurd (h b q hb hq hname) hlt.not_gt
  · simp [exec, hp, written]

/-- A parameter that is to be saved is saved, if no deletion of its name comes behind it. -/
theorem committed_of_save (h : Sound s) (hp : s.Registered param p)
    (hsave : s.transaction[param]? = some .save)
    (hordered : ∀ (b : Address) (q : OvmsConfigParam), s.transaction[b]? = some .delete →
      s.objects b = some q → p.name = q.name → b < param) :
    s.committed p.name = some (rewriteConfig p.instances) := by
  obtain ⟨front, back, hsplit, hback⟩ := exists_pending hsave
  rw [committed, hsplit, foldl_exec_append]
  · simp [exec, hp.1, written]
  · rintro ⟨b, op⟩ hentry q hq hname
    obtain ⟨hlt, hb⟩ := hback _ hentry
    cases op with
    | save =>
        obtain ⟨r, hr, -⟩ := h.save b hb
        obtain rfl := Option.some.inj (hr.1.symm.trans hq)
        exact absurd (hp.unique hr hname.symm) hlt.ne
    | delete => exact absurd (hordered b q hb hq hname.symm) hlt.not_gt

/-- It is deleted again, if one comes behind it. -/
theorem committed_of_not_ordered (h : Sound s) {b : Address} {q : OvmsConfigParam}
    (hp : s.Registered param p) (hb : s.transaction[b]? = some .delete)
    (hq : s.objects b = some q) (hname : p.name = q.name) (hlt : param < b) :
    s.committed p.name = none := by
  rw [hname]
  refine committed_of_delete hb hq fun c r hc hr hrname => ?_
  obtain ⟨r', hr', -⟩ := h.save c hc
  obtain rfl := Option.some.inj (hr'.1.symm.trans hr)
  rwa [← hp.unique hr' (hname.trans hrname.symm)]

/-- What is not registered is gone behind a commit. -/
theorem committed_of_deregistered (h : Sound s) {name : Text} (hmem : name ∈ s.deregistered)
    (hnone : s.params[name]? = none) : s.committed name = none := by
  have hsave : ∀ (b : Address) (q : OvmsConfigParam), s.transaction[b]? = some .save →
      s.objects b = some q → q.name ≠ name := by
    rintro b q hb hq rfl
    obtain ⟨r, hr, -⟩ := h.save b hb
    obtain rfl := Option.some.inj (hr.1.symm.trans hq)
    simp [hr.2] at hnone
  by_cases hdying : s.Dying name
  · obtain ⟨a, p, ha, hp, rfl⟩ := hdying
    exact committed_of_delete ha hp fun b q hb hq hname => absurd hname (hsave b q hb hq)
  · rw [committed_of_forall, (h.gone name hmem hnone).resolve_right hdying]
    intro a op p ha hp hname
    cases op with
    | save => exact hsave a p ha hp hname
    | delete => exact hdying ⟨a, p, ha, hp, hname⟩

/-! ### Committing -/

/-- A commit that is not deferred. -/
theorem transactionCommit_true (s : OvmsConfig) : s.transactionCommit true =
    { s with
      files := s.committed
      freeing := s.freeing ++ (s.transaction.toList.filter fun entry => entry.2 = .delete).map
        Prod.fst
      transaction := ∅ } := by
  rw [transactionCommit]
  split
  · rename_i hsize
    have hempty : s.transaction = ∅ := by
      rw [← ExtTreeMap.isEmpty_iff, ExtTreeMap.isEmpty_eq_size_beq_zero, hsize]
      rfl
    have hlist : s.transaction.toList = [] := by
      rw [hempty]
      rfl
    rw [committed, hlist, ← hempty]
    simp
  · rfl

/-- A commit keeps the lists together. -/
theorem Sound.commit (h : Sound s) : Sound (s.transactionCommit true) := by
  rw [transactionCommit_true]
  constructor
  · exact h.lookup
  · intro a ha
    simp at ha
  · intro a ha
    simp at ha
  · intro a ha
    refine ⟨by simp, ?_⟩
    rcases List.mem_append.mp ha with ha | ha
    · exact (h.freeing a ha).2
    · obtain ⟨⟨b, op⟩, hentry, rfl⟩ := List.mem_map.mp ha
      obtain ⟨hmem, hop⟩ := List.mem_filter.mp hentry
      obtain rfl : op = .delete := by simpa using hop
      exact h.delete b (ExtTreeMap.mem_toList_iff_getElem?_eq_some.mp hmem)
  · exact fun name hmem hnone => .inl (committed_of_deregistered h hmem hnone)

/-- **A commit** leaves the files right exactly when what is to be saved comes behind what is
to be deleted. -/
theorem right_commit_iff (h : Sound s) (hkept : Kept s) :
    Right (s.transactionCommit true) ↔ Ordered s := by
  rw [transactionCommit_true]
  constructor
  · rintro ⟨hfiles, -⟩ a b p q ha hb hp hq hname
    obtain ⟨p', hp', hne, hchanged⟩ := h.save a ha
    obtain rfl := Option.some.inj (hp'.1.symm.trans hp)
    have hfile := hfiles a p' hp' hne hchanged
    by_contra hlt
    have hab : a ≠ b := by
      rintro rfl
      simp [ha] at hb
    have hnone := committed_of_not_ordered h hp' hb hq hname
      (Nat.lt_of_le_of_ne (Nat.le_of_not_lt hlt) hab)
    simp [hnone] at hfile
  · refine fun hordered => ⟨fun a p hp hne hchanged => ?_, fun name =>
      committed_of_deregistered h⟩
    change s.committed p.name = _
    by_cases hsave : s.transaction[a]? = some .save
    · exact committed_of_save h hp hsave fun b q hb hq hname =>
        hordered a b p q hsave hb hp.1 hq hname
    · obtain ⟨hfile, hstays⟩ := (hkept a p hp hne hchanged).resolve_left hsave
      rw [committed_of_forall, hfile]
      intro b op q hb hq hname
      cases op with
      | save =>
          obtain ⟨r, hr, -⟩ := h.save b hb
          obtain rfl := Option.some.inj (hr.1.symm.trans hq)
          exact hsave (hp.unique hr hname.symm ▸ hb)
      | delete => exact hstays ⟨b, q, hb, hq, hname⟩

theorem Kept.commit (h : Sound s) (hkept : Kept s) (hordered : Ordered s) :
    Kept (s.transactionCommit true) := by
  have hright := ((right_commit_iff h hkept).mpr hordered).1
  rw [transactionCommit_true] at hright ⊢
  refine fun a p hp hne hchanged => .inr ⟨hright a p hp hne hchanged, ?_⟩
  rintro ⟨b, q, hb, -⟩
  simp at hb

/-! ### Freeing -/

/-- Freeing keeps the lists together. -/
theorem Sound.freed (h : Sound s) (param : Address) : Sound (s.freed param) := by
  rw [OvmsConfig.freed]
  split
  swap
  · exact h
  rename_i hmem
  obtain ⟨hnone, p, hp, hname⟩ := h.freeing param hmem
  have hparam : ∀ {name : Text} {a : Address}, s.params[name]? = some a → a ≠ param := by
    rintro name a ha rfl
    obtain ⟨q, hq, rfl⟩ := h.lookup name a ha
    obtain rfl := Option.some.inj (hp.symm.trans hq)
    exact hname ha
  have hpending : ∀ {a : Address} {op : TransOp}, s.transaction[a]? = some op → a ≠ param := by
    rintro a op ha rfl
    simp [hnone] at ha
  constructor
  · intro name a ha
    obtain ⟨q, hq, hqname⟩ := h.lookup name a ha
    exact ⟨q, by simp [hparam ha, hq], hqname⟩
  · intro a ha
    obtain ⟨q, ⟨hq, hqname⟩, hne, hchanged⟩ := h.save a ha
    exact ⟨q, ⟨by simp [hpending ha, hq], hqname⟩, hne, hchanged⟩
  · intro a ha
    obtain ⟨q, hq, hqname⟩ := h.delete a ha
    exact ⟨q, by simp [hpending ha, hq], hqname⟩
  · intro a ha
    obtain ⟨ha, hne⟩ := List.mem_filter.mp ha
    obtain ⟨hanone, q, hq, hqname⟩ := h.freeing a ha
    have hne : a ≠ param := by simpa using hne
    exact ⟨hanone, q, by simp [hne, hq], hqname⟩
  · intro name hderegistered hnone
    refine (h.gone name hderegistered hnone).imp_right ?_
    rintro ⟨a, q, ha, hq, hqname⟩
    exact ⟨a, q, ha, by simp [hpending ha, hq], hqname⟩

/-- What is registered is not freed. -/
theorem Kept.freed (hkept : Kept s) (param : Address) : Kept (s.freed param) := by
  rw [OvmsConfig.freed]
  split
  swap
  · exact hkept
  rintro a p ⟨hp, hname⟩ hne hchanged
  have hbefore : ∀ {b : Address} {q : OvmsConfigParam},
      Function.update s.objects param none b = some q → s.objects b = some q := by
    intro b q hq
    rw [Function.update_apply] at hq
    split at hq
    · simp at hq
    · exact hq
  refine (hkept a p ⟨hbefore hp, hname⟩ hne hchanged).imp_right fun hfile => ⟨hfile.1, ?_⟩
  rintro ⟨b, q, hb, hq, hqname⟩
  exact hfile.2 ⟨b, q, hb, hbefore hq, hqname⟩

/-! ### Every run -/

theorem Sound.changeCached (h : Sound s) (token : Text)
    (f : ConfigParamMap → Option ConfigParamMap) : Sound (s.changeCached token f) :=
  changeCached_rule h h (fun _ _ _ hp => h.saved hp rfl rfl) token f

theorem Kept.changeCached (h : Sound s) (hkept : Kept s) (token : Text)
    (f : ConfigParamMap → Option ConfigParamMap) : Kept (s.changeCached token f) :=
  changeCached_rule h hkept (fun _ _ _ hp => hkept.saved h hp _) token f

/-- The work of a call keeps both. -/
theorem Sound.perform (h : Sound s) (call : Call) : Sound (s.perform call) := by
  cases call with
  | setParamValue token name value => exact h.changeCached token _
  | deleteInstance token name => exact h.changeCached token _
  | setParamMap token map address =>
      rw [OvmsConfig.perform]
      split
      · exact (h.registerParam token address).changeCached token _
      · exact h.changeCached token _
  | registerParam name address => exact h.registerParam name address
  | deregisterParam name => exact h.deregisterParam name

/-- The work of a call keeps what was changed. -/
theorem Kept.perform (h : Sound s) (hkept : Kept s) (call : Call) : Kept (s.perform call) := by
  cases call with
  | setParamValue token name value => exact hkept.changeCached h token _
  | deleteInstance token name => exact hkept.changeCached h token _
  | setParamMap token map address =>
      rw [OvmsConfig.perform]
      split
      · exact (hkept.registerParam h token address).changeCached (h.registerParam token address)
          token _
      · exact hkept.changeCached h token _
  | registerParam name address => exact hkept.registerParam h name address
  | deregisterParam name => exact hkept.deregisterParam h name

theorem sound_locks (h : Sound s) (n : ℕ) : Sound { s with locks := n } :=
  ⟨h.lookup, h.save, h.delete, h.freeing, h.gone⟩

theorem transactionCommit_false (s : OvmsConfig) : s.transactionCommit false = s := by
  rw [transactionCommit]
  split <;> rfl

/-- Every step keeps the lists together. -/
theorem Sound.step (h : Sound s) (op : Op) : Sound (s.step op) := by
  cases op with
  | lock => exact sound_locks h _
  | perform call => exact h.perform call
  | unlock free =>
      rw [OvmsConfig.step, unlock]
      split
      · cases free with
        | false =>
            rw [transactionCommit_false]
            exact sound_locks h 0
        | true => exact sound_locks h.commit 0
      · exact sound_locks h _
  | freed param => exact h.freed param

/-- And what was changed, unless it commits out of order. -/
theorem Kept.step (h : Sound s) (hkept : Kept s) {op : Op} (hop : s.Commits op → Ordered s) :
    Kept (s.step op) := by
  cases op with
  | lock => exact hkept
  | perform call => exact hkept.perform h call
  | unlock free =>
      rw [OvmsConfig.step, unlock]
      split
      · rename_i hlocks
        cases free with
        | false =>
            rw [transactionCommit_false]
            exact hkept
        | true => exact hkept.commit h (hop ⟨hlocks, rfl⟩)
      · exact hkept
  | freed param => exact hkept.freed param

/-- What is mounted is sound. -/
theorem Mounted.sound (h : Mounted s) : Sound s := by
  constructor
  · intro name a ha
    obtain ⟨p, hp, hname, -⟩ := h.lookup name a ha
    exact ⟨p, hp, hname⟩
  · intro a ha
    simp [h.transaction] at ha
  · intro a ha
    simp [h.transaction] at ha
  · intro a ha
    simp [h.freeing] at ha
  · intro name hname
    simp [h.deregistered] at hname

theorem Mounted.kept (h : Mounted s) : Kept s := by
  rintro a p ⟨hp, hname⟩ - hchanged
  obtain ⟨q, hq, -, hq'⟩ := h.lookup p.name a hname
  obtain rfl := Option.some.inj (hp.symm.trans hq)
  simp [hq'] at hchanged

/-- A parameter `x` at an address, without instances. -/
def sole (param : Address) : OvmsConfig where
  params := (∅ : ExtTreeMap Text Address).insert [120] param
  transaction := ∅
  locks := 0
  objects := Function.update (fun _ => none) param (some ⟨[120], ∅, false⟩)
  files := fun _ => none
  freeing := []
  deregistered := []

theorem sole_mounted (param : Address) : Mounted (sole param) := by
  refine ⟨fun name a ha => ?_, rfl, rfl, rfl⟩
  rw [sole, ExtTreeMap.getElem?_insert] at ha
  split at ha
  · rename_i hname
    obtain rfl := Option.some.inj ha
    exact ⟨⟨[120], ∅, false⟩, by simp [sole], Std.compare_eq_iff_eq.mp hname, rfl⟩
  · simp at ha

/-- `x` is deregistered, registered again at a lower address and changed, within a lock. -/
def again : List Op :=
  [.lock, .perform (.deregisterParam [120]), .perform (.registerParam [120] 3),
    .perform (.setParamValue [120] [97] [49]), .unlock true]

end OvmsConfig

end Ovms.Config
