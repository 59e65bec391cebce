import Ovms.Canlog.Crtd
import Ovms.Config.Transaction
import Ovms.Config.Values
import Ovms.Lib.Abbreviation
import Ovms.ServerV2.Command

/-!
# Writing a Configuration by Name

The setters of `OvmsConfig`, `DeleteInstance`, `SetParamMap` and `GetParamMap`
(`main/ovms_config.cpp`). All of them find their parameter with `CachedParam`, which takes a name
like a word of a command line: a parameter of that name, and else the only one whose name starts
with it. `RegisterParam`, which `SetParamMap` calls for a name that is not found, looks for the
name itself.

So a write to a name that is not registered changes another parameter, if just one has a name
that goes on from it.

A write is what is done within the lock; it leaves the file of its parameter to the commit.
-/

open Std Lib

namespace Ovms.Config

/-! ### Values as texts -/

/-- `BinaryEncoding_t`. -/
inductive BinaryEncoding
  | hex
  | base64
  deriving DecidableEq

/-- `hexencode`. -/
def hexencode (value : Text) : Text := value.flatMap Canlog.hexByte

/-- `ConfigParamMap::SetValueInt`. -/
def setValueInt (name : Text) (value : ℤ) : ConfigParamMap → Option ConfigParamMap :=
  setValue name (ServerV2.decimal value)

/-- `ConfigParamMap::SetValueFloat`. -/
def setValueFloat (name : Text) (negative : Bool) (magnitude : Magnitude) :
    ConfigParamMap → Option ConfigParamMap :=
  setValue name (printFloat negative magnitude)

/-- `ConfigParamMap::SetValueBool`. -/
def setValueBool (name : Text) (value : Bool) : ConfigParamMap → Option ConfigParamMap :=
  setValue name (ServerV2.ascii (if value then "yes" else "no"))

/-- `ConfigParamMap::SetValueBinary`. -/
def setValueBinary (name value : Text) (encoding : BinaryEncoding) :
    ConfigParamMap → Option ConfigParamMap :=
  setValue name (if encoding = .base64 then Crypt.base64encode value else hexencode value)

/-! ### The calls -/

/-- `OvmsConfig` with `m_mounted`. -/
structure Store where
  mounted : Bool
  config : OvmsConfig

/-- The writes by name. A parameter that is registered gets the address. -/
inductive Write
  | setParamValue (name value : Text)
  | setParamValueInt (name : Text) (value : ℤ)
  | setParamValueFloat (name : Text) (negative : Bool) (magnitude : Magnitude)
  | setParamValueBool (name : Text) (value : Bool)
  | setParamValueBinary (name value : Text) (encoding : BinaryEncoding)
  | deleteInstance (name : Text)
  | setParamMap (map : ConfigParamMap) (address : Address)

namespace Store

/-- `CachedParam`. -/
def cachedParam (s : Store) (param : Text) : Option Address :=
  if s.mounted = false then none else s.config.cachedParam param

/-- The change of a parameter that is looked up. -/
def changeCached (s : Store) (param : Text) (f : ConfigParamMap → Option ConfigParamMap) :
    Store :=
  match s.cachedParam param with
  | none => s
  | some p => { s with config := s.config.change p f }

/-- What the setters have in common. -/
def setter (s : Store) (param : Text) (f : ConfigParamMap → Option ConfigParamMap) : Store :=
  if s.mounted = false then s else s.changeCached param f

/-- `SetParamValue`. -/
def setParamValue (s : Store) (param name value : Text) : Store :=
  s.setter param (setValue name value)

/-- `SetParamValueInt`. -/
def setParamValueInt (s : Store) (param name : Text) (value : ℤ) : Store :=
  s.setter param (setValueInt name value)

/-- `SetParamValueFloat`. -/
def setParamValueFloat (s : Store) (param name : Text) (negative : Bool)
    (magnitude : Magnitude) : Store :=
  s.setter param (setValueFloat name negative magnitude)

/-- `SetParamValueBool`. -/
def setParamValueBool (s : Store) (param name : Text) (value : Bool) : Store :=
  s.setter param (setValueBool name value)

/-- `SetParamValueBinary`. -/
def setParamValueBinary (s : Store) (param name value : Text) (encoding : BinaryEncoding) :
    Store :=
  s.setter param (setValueBinary name value encoding)

/-- `DeleteInstance`: only the lookup asks for the mount. -/
def deleteInstance (s : Store) (param name : Text) : Store :=
  s.changeCached param (Config.deleteInstance name)

/-- `if (!CachedParam(param)) RegisterParam(param, ..)`. -/
def provide (s : Store) (param : Text) (address : Address) : Store :=
  if s.cachedParam param = none then { s with config := s.config.registerParam param address }
  else s

/-- `SetParamMap`. -/
def setParamMap (s : Store) (param : Text) (map : ConfigParamMap) (address : Address) : Store :=
  if s.mounted = false then s else (s.provide param address).changeCached param (setMap map)

/-- `GetParamMap`: the map, and what is registered. -/
def getParamMap (s : Store) (param : Text) (address : Address) : ConfigParamMap × Store :=
  if s.mounted = false then (∅, s)
  else
    let s := s.provide param address
    match (s.cachedParam param).bind s.config.objects with
    | none => (∅, s)
    | some p => (p.instances, s)

/-- A write by name. -/
def write (s : Store) (param : Text) : Write → Store
  | .setParamValue name value => s.setParamValue param name value
  | .setParamValueInt name value => s.setParamValueInt param name value
  | .setParamValueFloat name negative magnitude =>
      s.setParamValueFloat param name negative magnitude
  | .setParamValueBool name value => s.setParamValueBool param name value
  | .setParamValueBinary name value encoding => s.setParamValueBinary param name value encoding
  | .deleteInstance name => s.deleteInstance param name
  | .setParamMap map address => s.setParamMap param map address

end Store

/-! ### What is asked -/

namespace OvmsConfig

/-- A name stands for a parameter: it is the name, as far as a string of the language C goes, or
the start of the name and of no other. -/
def Designates (s : OvmsConfig) (param name : Text) : Prop :=
  Crypt.cString param <+: name ∧ (name = Crypt.cString param ∨
    ∀ other ∈ s.params, Crypt.cString param <+: other → other = name)

/-- The parameter of a name is the same in two states, and so is what is pending for it. -/
structure SameParam (s s' : OvmsConfig) (name : Text) : Prop where
  registered : s'.params[name]? = s.params[name]?
  file : s'.files name = s.files name
  object : ∀ a, s.params[name]? = some a → s'.objects a = s.objects a
  pending : ∀ a, s.params[name]? = some a → s'.transaction[a]? = s.transaction[a]?

/-- Only the parameter of a name changes. -/
def HitsNamed (s s' : OvmsConfig) (param : Text) : Prop := ∀ name ≠ param, s.SameParam s' name

/-- A change finds no parameter of another name, or one that it leaves as it is. -/
def Harmless (s : OvmsConfig) (param : Text) (f : ConfigParamMap → Option ConfigParamMap) : Prop :=
  ∀ (a : Address) (p : OvmsConfigParam), s.Registered a p → s.Designates param p.name →
    p.name ≠ param → f p.instances = none

/-- A name with a zero in it, whose string is the start of registered names and stands for none. -/
def Ambiguous (s : OvmsConfig) (param : Text) : Prop :=
  Crypt.cString param ≠ param ∧ (∃ name ∈ s.params, Crypt.cString param <+: name) ∧
    ∀ name ∈ s.params, ¬ s.Designates param name

end OvmsConfig

/-- What a write does to the instances of the parameter it finds. -/
def Write.changes : Write → ConfigParamMap → Option ConfigParamMap
  | .setParamValue name value => setValue name value
  | .setParamValueInt name value => setValueInt name value
  | .setParamValueFloat name negative magnitude => setValueFloat name negative magnitude
  | .setParamValueBool name value => setValueBool name value
  | .setParamValueBinary name value encoding => setValueBinary name value encoding
  | .deleteInstance name => Config.deleteInstance name
  | .setParamMap map _ => setMap map

namespace Store

/-- A write hits the named parameter only, and a map that was set is got back. A map is set while
the storage is mounted, and a new parameter gets an address that is not in use. -/
def Meets (s : Store) (param : Text) (w : Write) : Prop :=
  s.config.HitsNamed (s.write param w).config param ∧
    ∀ (map : ConfigParamMap) (address address' : Address), w = .setParamMap map address →
      s.mounted = true → s.config.objects address = none →
        ((s.write param w).getParamMap param address').1 = map

end Store

namespace OvmsConfig

variable {s : OvmsConfig} {a address : Address} {p : OvmsConfigParam} {param : Text}
  {f : ConfigParamMap → Option ConfigParamMap}

/-! ### What is found -/

theorem findLoop_eq (token : Text) (entries : List (Text × Address)) (found : Option Address) :
    findLoop token entries found = findAbbreviated token entries found := by
  induction entries generalizing found with
  | nil => rfl
  | cons it rest ih => simp only [findLoop, findAbbreviated, ih]

/-- **What `CachedParam` finds**: the parameter that the name stands for. -/
theorem cachedParam_eq_some : s.cachedParam param = some a ↔
    ∃ name, s.params[name]? = some a ∧ s.Designates param name := by
  rw [cachedParam, findLoop_eq, findAbbreviated_eq_some ExtTreeMap.ordered_keys_toList]
  refine exists_congr fun name => ?_
  rw [Abbreviates, ExtTreeMap.mem_toList_iff_getElem?_eq_some, Designates]
  refine and_congr_right fun hname => and_congr_right fun _ => or_congr_right ?_
  constructor
  · intro honly other hother hstart
    exact congrArg Prod.fst (honly (other, s.params[other])
      (ExtTreeMap.mem_toList_iff_getElem?_eq_some.mpr (ExtTreeMap.getElem?_eq_some_getElem hother))
      hstart)
  · rintro honly ⟨other, b⟩ hother hstart
    rw [ExtTreeMap.mem_toList_iff_getElem?_eq_some] at hother
    obtain rfl := honly other (ExtTreeMap.mem_iff_isSome_getElem?.mpr (hother ▸ rfl)) hstart
    rw [Option.some.inj (hother.symm.trans hname)]

/-- As a parameter that is registered. -/
theorem Sound.cachedParam_eq_some (h : Sound s) : s.cachedParam param = some a ↔
    ∃ p, s.Registered a p ∧ s.Designates param p.name := by
  rw [OvmsConfig.cachedParam_eq_some]
  constructor
  · rintro ⟨name, hname, hdesignates⟩
    obtain ⟨p, hp, rfl⟩ := h.lookup name a hname
    exact ⟨p, ⟨hp, hname⟩, hdesignates⟩
  · rintro ⟨p, ⟨-, hname⟩, hdesignates⟩
    exact ⟨p.name, hname, hdesignates⟩

/-- Nothing is found when the name stands for nothing. -/
theorem cachedParam_eq_none :
    s.cachedParam param = none ↔ ∀ name ∈ s.params, ¬ s.Designates param name := by
  rw [Option.eq_none_iff_forall_ne_some]
  constructor
  · intro h name hname hdesignates
    exact h s.params[name] (OvmsConfig.cachedParam_eq_some.mpr
      ⟨name, ExtTreeMap.getElem?_eq_some_getElem hname, hdesignates⟩)
  · intro h a ha
    obtain ⟨name, hname, hdesignates⟩ := OvmsConfig.cachedParam_eq_some.mp ha
    exact h name (ExtTreeMap.mem_iff_isSome_getElem?.mpr (hname ▸ rfl)) hdesignates

theorem Designates.anti {s' : OvmsConfig} {name : Text} (h : s'.Designates param name)
    (hsub : ∀ other ∈ s.params, other ∈ s'.params) : s.Designates param name :=
  ⟨h.1, h.2.imp_right fun honly other hother => honly other (hsub other hother)⟩

/-! ### What changes -/

theorem SameParam.refl (s : OvmsConfig) (name : Text) : s.SameParam s name :=
  ⟨rfl, rfl, fun _ _ => rfl, fun _ _ => rfl⟩

theorem HitsNamed.refl (s : OvmsConfig) (param : Text) : s.HitsNamed s param :=
  fun name _ => .refl s name

theorem SameParam.trans {s' s'' : OvmsConfig} {name : Text} (h : s.SameParam s' name)
    (h' : s'.SameParam s'' name) : s.SameParam s'' name where
  registered := h'.registered.trans h.registered
  file := h'.file.trans h.file
  object a ha := (h'.object a (h.registered.trans ha)).trans (h.object a ha)
  pending a ha := (h'.pending a (h.registered.trans ha)).trans (h.pending a ha)

theorem SameParam.symm {s' : OvmsConfig} {name : Text} (h : s.SameParam s' name) :
    s'.SameParam s name where
  registered := h.registered.symm
  file := h.file.symm
  object a ha := (h.object a (h.registered.symm.trans ha)).symm
  pending a ha := (h.pending a (h.registered.symm.trans ha)).symm

theorem HitsNamed.congr_left {s' s'' : OvmsConfig} (h : s.HitsNamed s' param) :
    s.HitsNamed s'' param ↔ s'.HitsNamed s'' param :=
  forall₂_congr fun name hne =>
    ⟨(h name hne).symm.trans, (h name hne).trans⟩

/-- Saving a parameter changes nothing for another name. -/
theorem sameParam_save (h : Sound s) (hp : s.Registered a p) (p' : OvmsConfigParam) {name : Text}
    (hne : name ≠ p.name) : s.SameParam (s.save a p') name := by
  have hother : ∀ b, s.params[name]? = some b → b ≠ a := by
    rintro b hb rfl
    obtain ⟨q, hq, rfl⟩ := h.lookup name b hb
    obtain rfl := Option.some.inj (hp.1.symm.trans hq)
    exact hne rfl
  constructor
  · rw [params_save]
  · rw [files_save]
  · intro b hb
    rw [objects_save, Function.update_of_ne (hother b hb)]
  · intro b hb
    rw [getElem?_save h hp, if_neg fun hab => hother b hb hab.1.symm]

/-- A change hits the named parameter only, if it found that one or left it as it is. -/
theorem hitsNamed_change_iff (h : Sound s) (hp : s.Registered a p)
    (hf : ∀ instances, f instances ≠ some instances) :
    s.HitsNamed (s.change a f) param ↔ p.name ≠ param → f p.instances = none := by
  constructor
  · intro hhits hne
    have hobject := (hhits p.name hne).object a hp.2
    rw [hp.1] at hobject
    cases hchange : f p.instances with
    | none => rfl
    | some instances =>
        rw [change, hp.1] at hobject
        simp only [hchange, objects_save, Function.update_self, Option.some.injEq] at hobject
        have hsame : instances = p.instances := congrArg OvmsConfigParam.instances hobject
        exact absurd (hsame ▸ hchange) (hf _)
  · intro hharmless name hname
    by_cases hne : p.name = param
    · rcases change_cases hp f with hsame | ⟨instances, hchanged⟩
      · rw [hsame]
        exact .refl s name
      · rw [hchanged]
        exact sameParam_save h hp _ (hne ▸ hname)
    · simp only [change, hp.1, hharmless hne]
      exact .refl s name

/-- **A change of what is looked up** hits the named parameter only exactly when it is harmless. -/
theorem hitsNamed_changeCached_iff (h : Sound s) (hf : ∀ instances, f instances ≠ some instances) :
    s.HitsNamed (s.changeCached param f) param ↔ s.Harmless param f := by
  rw [changeCached]
  cases hcached : s.cachedParam param with
  | none =>
      have hnone : s.Harmless param f := by
        intro a p hp hdesignates
        have hsome := h.cachedParam_eq_some.mpr ⟨p, hp, hdesignates⟩
        simp [hcached] at hsome
      exact iff_of_true (.refl s param) hnone
  | some a =>
      obtain ⟨p, hp, hdesignates⟩ := h.cachedParam_eq_some.mp hcached
      rw [hitsNamed_change_iff h hp hf]
      constructor
      · intro hchange b q hq hqdesignates hne
        have hsome := h.cachedParam_eq_some.mpr ⟨q, hq, hqdesignates⟩
        obtain rfl := Option.some.inj (hcached.symm.trans hsome)
        obtain rfl := Option.some.inj (hp.1.symm.trans hq.1)
        exact hchange hne
      · exact fun hharmless hne => hharmless a p hp hdesignates hne

/-- Registering changes nothing for another name. -/
theorem hitsNamed_registerParam (h : Sound s) (param : Text) (address : Address) :
    s.HitsNamed (s.registerParam param address) param := by
  obtain hsame | ⟨-, hfree, instances, heq⟩ := registerParam_cases s param address
  · rw [hsame]
    exact .refl s param
  · rw [heq]
    intro name hne
    constructor
    · simp [ExtTreeMap.getElem?_insert, hne.symm]
    · rfl
    · intro a ha
      obtain ⟨p, hp, -⟩ := h.lookup name a ha
      have hused : a ≠ address := by
        rintro rfl
        simp [hfree] at hp
      simp [hused]
    · exact fun a _ => rfl

/-! ### Registering what is not found -/

/-- `if (!CachedParam(param)) RegisterParam(param, ..)`. -/
def provided (s : OvmsConfig) (param : Text) (address : Address) : OvmsConfig :=
  if s.cachedParam param = none then s.registerParam param address else s

/-- The names that are registered then. -/
theorem mem_params_registerParam (hfree : s.objects address = none) {name : Text} :
    name ∈ (s.registerParam param address).params ↔ name = param ∨ name ∈ s.params := by
  rw [registerParam]
  split
  · rename_i hused
    rw [hfree, Option.isSome_none, or_iff_left Bool.false_ne_true] at hused
    constructor
    · exact .inr
    · rintro (rfl | hname)
      · exact ExtTreeMap.mem_iff_isSome_getElem?.mpr hused
      · exact hname
  · rw [ExtTreeMap.mem_insert, Std.compare_eq_iff_eq, eq_comm]

theorem subset_params_registerParam (s : OvmsConfig) (param : Text) (address : Address) :
    ∀ name ∈ s.params, name ∈ (s.registerParam param address).params := by
  intro name hname
  obtain hsame | ⟨-, hfree, -⟩ := registerParam_cases s param address
  · rwa [hsame]
  · exact (mem_params_registerParam hfree).mpr (.inr hname)

/-- A parameter that was registered for a name stands for no other one. -/
theorem harmless_provided (h : Sound s) (param : Text) (address : Address)
    (f : ConfigParamMap → Option ConfigParamMap) :
    (s.provided param address).Harmless param f ↔ s.Harmless param f := by
  rw [provided]
  split
  swap
  · rfl
  rename_i hnone
  rw [cachedParam_eq_none] at hnone
  refine iff_of_true ?_ ?_
  · intro a p hp hdesignates hne
    have hname : p.name ∈ s.params := by
      rw [ExtTreeMap.mem_iff_isSome_getElem?,
        ← (hitsNamed_registerParam h param address p.name hne).registered, hp.2]
      rfl
    exact absurd (hdesignates.anti (subset_params_registerParam s param address))
      (hnone p.name hname)
  · intro a p hp hdesignates
    exact absurd hdesignates (hnone p.name (ExtTreeMap.mem_iff_isSome_getElem?.mpr (hp.2 ▸ rfl)))

theorem Sound.provided (h : Sound s) (param : Text) (address : Address) :
    Sound (s.provided param address) := by
  rw [OvmsConfig.provided]
  split
  · exact h.registerParam param address
  · exact h

/-- **A name that is provided** is found, unless it is ambiguous. -/
theorem cachedParam_provided_eq_none (hfree : s.objects address = none) :
    (s.provided param address).cachedParam param = none ↔ s.Ambiguous param := by
  have hsub := subset_params_registerParam s param address
  have hmem : ∀ name, name ∈ (s.registerParam param address).params ↔
      name = param ∨ name ∈ s.params := fun _ => mem_params_registerParam hfree
  have hstart : Crypt.cString param <+: param := List.takeWhile_prefix _
  rw [provided]
  split
  · rename_i hnone
    rw [cachedParam_eq_none] at hnone
    rw [cachedParam_eq_none]
    constructor
    · intro hnone'
      have hself := hnone' param ((hmem param).mpr (.inl rfl))
      refine ⟨fun hstring => ?_, ?_, hnone⟩
      · exact hself ⟨hstart, .inl hstring.symm⟩
      · by_contra! hno
        refine hself ⟨hstart, .inr fun other hother hother' => ?_⟩
        exact ((hmem other).mp hother).resolve_right fun hother => hno other hother hother'
    · rintro ⟨hstring, ⟨first, hfirst, hfirst'⟩, -⟩ name hname hdesignates
      rcases (hmem name).mp hname with rfl | hname
      · have hself := (hdesignates.2.resolve_left fun h => hstring h.symm) first
          (hsub first hfirst) hfirst'
        exact hnone first hfirst (hself ▸ hdesignates.anti hsub)
      · exact hnone name hname (hdesignates.anti hsub)
  · rename_i hfound
    refine iff_of_false hfound fun hambiguous => hfound ?_
    exact cachedParam_eq_none.mpr hambiguous.2.2

/-! ### Setting and getting a map -/

@[simp] theorem params_changeCached (s : OvmsConfig) (token : Text)
    (f : ConfigParamMap → Option ConfigParamMap) :
    (s.changeCached token f).params = s.params := by
  rw [changeCached]
  split
  · rfl
  · rw [change]
    split
    · rfl
    · split
      · rfl
      · exact params_save _

@[simp] theorem cachedParam_changeCached (s : OvmsConfig) (token token' : Text)
    (f : ConfigParamMap → Option ConfigParamMap) :
    (s.changeCached token f).cachedParam token' = s.cachedParam token' := by
  rw [cachedParam, cachedParam, params_changeCached]

/-- The instances of a parameter whose map was set. -/
theorem instances_setMap (hp : s.objects a = some p) (map : ConfigParamMap) :
    ((s.change a (setMap map)).objects a).map OvmsConfigParam.instances = some map := by
  simp only [change, hp]
  cases hset : setMap map p.instances with
  | none =>
      rw [setMap, ite_eq_left_iff] at hset
      have hsame : map.toList = p.instances.toList := by
        by_contra hne
        simpa using hset hne
      simp [hp, ExtTreeMap.toList_inj.mp hsame]
  | some instances =>
      rw [setMap, Option.ite_none_left_eq_some] at hset
      simp [hset.2]

/-- What was provided is found or registered, so nothing is registered again. -/
theorem provided_changeCached (hfree : s.objects address = none) (address' : Address) :
    ((s.provided param address).changeCached param f).provided param address'
      = (s.provided param address).changeCached param f := by
  rw [provided, cachedParam_changeCached]
  split
  swap
  · rfl
  rename_i hnone
  have hregistered : param ∈ (s.provided param address).params := by
    rw [provided] at hnone ⊢
    split
    · exact (mem_params_registerParam hfree).mpr (.inl rfl)
    · rename_i hfound
      rw [if_neg hfound] at hnone
      exact absurd hnone hfound
  rw [registerParam, params_changeCached,
    if_pos (.inl (ExtTreeMap.mem_iff_isSome_getElem?.mp hregistered))]

end OvmsConfig

/-! ### The writes -/

/-- What is inserted was not there. -/
theorem setValue_ne (name value : Text) (instances : ConfigParamMap) :
    setValue name value instances ≠ some instances := by
  rw [setValue]
  split
  · simp
  · rename_i hvalue
    intro hsame
    refine hvalue ?_
    rw [← Option.some.inj hsame]
    simp

/-- A write that changes instances leaves others. -/
theorem Write.changes_ne (w : Write) (instances : ConfigParamMap) :
    w.changes instances ≠ some instances := by
  cases w with
  | setParamValue name value => exact setValue_ne name _ instances
  | setParamValueInt name value => exact setValue_ne name _ instances
  | setParamValueFloat name negative magnitude => exact setValue_ne name _ instances
  | setParamValueBool name value => exact setValue_ne name _ instances
  | setParamValueBinary name value encoding => exact setValue_ne name _ instances
  | deleteInstance name =>
      rw [changes, Config.deleteInstance]
      split
      · rename_i hname
        intro hsame
        rw [← Option.some.inj hsame] at hname
        simp at hname
      · simp
  | setParamMap map address =>
      rw [changes, setMap]
      split
      · simp
      · rename_i hmap
        rintro hsame
        exact hmap (by rw [Option.some.inj hsame])

namespace Store

open OvmsConfig

variable {s : Store} {param : Text} {address address' : Address} {map : ConfigParamMap}

theorem write_unmounted (h : s.mounted = false) (w : Write) : s.write param w = s := by
  cases w <;> simp [write, setParamValue, setParamValueInt, setParamValueFloat, setParamValueBool,
    setParamValueBinary, setter, deleteInstance, changeCached, cachedParam, setParamMap, h]

theorem cachedParam_mounted (h : s.mounted = true) (param : Text) :
    s.cachedParam param = s.config.cachedParam param := by
  simp [cachedParam, h]

theorem changeCached_mounted (h : s.mounted = true) (f : ConfigParamMap → Option ConfigParamMap) :
    s.changeCached param f = ⟨true, s.config.changeCached param f⟩ := by
  obtain ⟨mounted, config⟩ := s
  obtain rfl : mounted = true := h
  rw [changeCached, cachedParam_mounted rfl, OvmsConfig.changeCached]
  cases config.cachedParam param <;> rfl

theorem provide_mounted (h : s.mounted = true) (param : Text) (address : Address) :
    s.provide param address = ⟨true, s.config.provided param address⟩ := by
  obtain ⟨mounted, config⟩ := s
  obtain rfl : mounted = true := h
  rw [provide, cachedParam_mounted rfl, provided]
  split <;> rfl

theorem config_write (h : s.mounted = true) (w : Write) : (s.write param w).config =
    (match w with
      | .setParamMap _ address => s.config.provided param address
      | _ => s.config).changeCached param w.changes := by
  cases w <;> simp [write, setParamValue, setParamValueInt, setParamValueFloat, setParamValueBool,
    setParamValueBinary, setter, deleteInstance, setParamMap, provide_mounted, changeCached_mounted,
    Write.changes, h]

/-- **The frame**: a write hits the named parameter only exactly when it is harmless. -/
theorem hitsNamed_write_iff (hsound : Sound s.config) (w : Write) :
    s.config.HitsNamed (s.write param w).config param ↔
      (s.mounted = true → s.config.Harmless param w.changes) := by
  by_cases hmounted : s.mounted = true
  swap
  · rw [write_unmounted (by simpa using hmounted)]
    exact iff_of_true (.refl _ param) fun h => absurd h hmounted
  have hplain : s.config.HitsNamed (s.config.changeCached param w.changes) param ↔
      s.config.Harmless param w.changes := hitsNamed_changeCached_iff hsound w.changes_ne
  rw [config_write hmounted, forall_prop_of_true hmounted]
  split
  · rename_i map address
    have hprovided := hsound.provided param address
    have hhits : s.config.HitsNamed (s.config.provided param address) param := by
      rw [provided]
      split
      · exact hitsNamed_registerParam hsound param address
      · exact .refl _ param
    rw [← harmless_provided hsound param address,
      ← hitsNamed_changeCached_iff hprovided (Write.changes_ne _)]
    exact hhits.congr_left
  · exact hplain

theorem getParamMap_mounted (h : s.mounted = true) (param : Text) (address : Address) :
    (s.getParamMap param address).1
      = (((s.config.provided param address).cachedParam param).bind
          (s.config.provided param address).objects).elim ∅ OvmsConfigParam.instances := by
  rw [getParamMap, if_neg (by simp [h]), provide_mounted h]
  dsimp only
  rw [cachedParam_mounted rfl]
  split
  · rename_i hnone
    rw [hnone]
    rfl
  · rename_i p hp
    rw [hp]
    rfl

/-- **The map that was set** is got back, unless the name is ambiguous. -/
theorem getParamMap_setParamMap_iff (hsound : Sound s.config) (hmounted : s.mounted = true)
    (hfree : s.config.objects address = none) :
    ((s.setParamMap param map address).getParamMap param address').1 = map ↔
      map = ∅ ∨ ¬ s.config.Ambiguous param := by
  have hset : s.setParamMap param map address
      = ⟨true, (s.config.provided param address).changeCached param (setMap map)⟩ := by
    rw [setParamMap, if_neg (by simp [hmounted]), provide_mounted hmounted,
      changeCached_mounted rfl]
  rw [hset, getParamMap_mounted rfl, provided_changeCached hfree, cachedParam_changeCached,
    ← cachedParam_provided_eq_none hfree]
  cases hcached : (s.config.provided param address).cachedParam param with
  | none => simp [eq_comm]
  | some a =>
      obtain ⟨p, hp, -⟩ := (hsound.provided param address).cachedParam_eq_some.mp hcached
      have hinstances := instances_setMap hp.1 map
      rw [OvmsConfig.changeCached, hcached]
      obtain ⟨q, hq, hmap⟩ := Option.map_eq_some_iff.mp hinstances
      simp [hq, hmap]

/-- **Writing by name**, in a state of any run: a write meets what is asked exactly when, as far as
the storage is mounted, the name designates no parameter of another name that the write would
change, and a map that is set is empty or its name is not ambiguous. -/
theorem writes_meet_iff {s₀ : OvmsConfig} (hs : Mounted s₀) (ops : List Op) (mounted : Bool)
    (param : Text) (w : Write) : Meets ⟨mounted, ops.foldl step s₀⟩ param w ↔
      (mounted = true → (ops.foldl step s₀).Harmless param w.changes ∧
        ∀ map address, w = .setParamMap map address →
          (ops.foldl step s₀).objects address = none →
            map = ∅ ∨ ¬ (ops.foldl step s₀).Ambiguous param) := by
  have hsound : Sound (ops.foldl step s₀) :=
    List.foldlRecOn ops step hs.sound fun _ h op _ => h.step op
  rw [Meets, hitsNamed_write_iff hsound, forall_and]
  refine and_congr_right fun _ => ?_
  constructor
  · rintro hmeets hmounted map address rfl hfree
    exact (getParamMap_setParamMap_iff hsound hmounted hfree).mp
      (hmeets map address 0 rfl hmounted hfree)
  · rintro hcondition map address address' rfl hmounted hfree
    exact (getParamMap_setParamMap_iff hsound hmounted hfree).mpr
      (hcondition hmounted map address rfl hfree)

/-- `vehicle` is registered beside `x`. -/
def registering : List Op := [.perform (.registerParam (ServerV2.ascii "vehicle") 6)]

/-- A map is set for `vehicle`. -/
theorem writes_meet_vehicle :
    Meets ⟨true, registering.foldl step (sole 5)⟩ (ServerV2.ascii "vehicle")
      (.setParamMap ((∅ : ConfigParamMap).insert (ServerV2.ascii "id") (ServerV2.ascii "1"))
        7) := by
  refine (writes_meet_iff (sole_mounted 5) registering true _ _).mpr fun _ => ⟨?_, ?_⟩
  · rintro a p - ⟨-, hname | honly⟩ hne
    · exact absurd (hname.trans (by decide)) hne
    · exact absurd (honly (ServerV2.ascii "vehicle") (by decide +kernel) (by decide)).symm hne
  · rintro map address - -
    exact .inr fun hambiguous => hambiguous.1 (by decide)

/-- `SetParamValue("veh", "id", "1")` changes `vehicle`. -/
theorem not_writes_meet : ¬ ∀ (s₀ : OvmsConfig) (ops : List Op) (mounted : Bool) (param : Text)
    (w : Write), Mounted s₀ → Meets ⟨mounted, ops.foldl step s₀⟩ param w := by
  intro h
  have hmeets := h (sole 5) registering true (ServerV2.ascii "veh")
    (.setParamValue (ServerV2.ascii "id") (ServerV2.ascii "1")) (sole_mounted 5)
  have hobject := (hmeets.1 (ServerV2.ascii "vehicle") (by decide)).object 6 (by decide +kernel)
  have hinstances := congrArg (Option.map fun p => p.instances.toList) hobject
  revert hinstances
  decide +kernel

end Store

end Ovms.Config
