import Ovms.Location.Current
import Ovms.Location.Scan

/-!
# Stored Locations

A location is stored as an instance of the parameter `locations`: its coordinates and radius, and
the actions for entering and leaving it (`components/ovms_location/src/ovms_location.cpp`). Every
command that changes the actions stores the location, and the change makes the framework read all
of them again. A location that is not read is removed.

The commands do not accept all that is read, and accept two things that are not read back: the
profile of an ACC action may hold the character that separates actions, and the duration of a
homelink action may have a minus sign that `%u` wraps around.

## Main results

* `parseActions_store`, `valid_of_parseActions`: what is read as actions.
* `accepted_build`: what the commands accept.
* `parse_store`: the numbers are read back.
* `readsBack_iff`: a location is read back exactly if no ACC profile has a separator, and no
  duration a minus sign.
-/

open Ovms.Canlog

namespace Ovms.Location

/-- The bytes of a text. -/
def ascii (s : String) : Text := s.toList.map fun c => .ofNat c.toNat

/-! ### What is stored -/

/-- A `LocationAction` other than `INVALID`. -/
inductive LocationAction where
  | homelink
  | acc
  | notify
  deriving DecidableEq, Repr

/-- `OvmsLocationAction::ActionString`. -/
def LocationAction.actionString : LocationAction → Text
  | .homelink => ascii "homelink"
  | .acc => ascii "acc"
  | .notify => ascii "notify"

/-- An `OvmsLocationAction`. -/
structure OvmsLocationAction where
  enter : Bool
  action : LocationAction
  params : Text
  deriving DecidableEq, Repr

/-- The members of `OvmsLocation` that are stored. -/
structure Fields where
  latitude : ℚ
  longitude : ℚ
  radius : ℤ
  actions : List OvmsLocationAction
  deriving DecidableEq, Repr

/-! ### `OvmsLocation::Parse` -/

/-- A character of a format. -/
def expect (c : UInt8) : Text → Option Text
  | [] => none
  | d :: text => if d = c then some text else none

/-- `%f , %f %n%1c`: the coordinates, and the text from the last character on. -/
def scanCoordinates (text : Text) : Option (ℚ × ℚ × Text) := do
  let (latitude, text) ← scanFloat text
  let text ← expect 44 (text.dropWhile isSpace)
  let (longitude, text) ← scanFloat (text.dropWhile isSpace)
  some (latitude, longitude, text.dropWhile isSpace)

/-- `, %u %n%1c`: the radius, and the text from the last character on. -/
def scanRadius (text : Text) : Option (ℤ × Text) := do
  let text ← expect 44 text
  let (radius, text) ← scanUnsigned (text.dropWhile isSpace)
  some (radius, text.dropWhile isSpace)

/-- `,%d%n`: a duration, and how many characters were read. -/
def scanDuration (text : Text) : Option (ℤ × ℕ) := do
  let rest ← expect 44 text
  let (durationms, rest) ← scanInt rest
  some (durationms, text.length - rest.length)

/-- The check of the parameters of a homelink action: `len` characters from here. -/
def checkHomelink (len : ℕ) : Text → Bool
  | [] => false
  | c :: text =>
      1 ≤ len ∧ 49 ≤ c ∧ c ≤ 51 ∧
        (1 < len → ∃ r ∈ scanDuration text, 100 ≤ r.1 ∧ r.2 = len - 1)

/-- `tolower`. -/
def toLower (c : UInt8) : UInt8 := if 65 ≤ c ∧ c ≤ 90 then c + 32 else c

/-- The body of the loop, behind a semicolon: an action, and the text from the next semicolon
on. -/
def parseAction (text : Text) : Option (OvmsLocationAction × Text) :=
  let p := text.dropWhile (· = 32)
  let keyword := (p.take 6).map toLower
  if keyword ≠ ascii "enter:" ∧ keyword ≠ ascii "leave:" then none
  else
    let enter : Bool := keyword = ascii "enter:"
    let act := ((p.drop 6).takeWhile (· ≠ 58)).map toLower
    match (p.drop 6).dropWhile (· ≠ 58) with
    | [] => none
    | _ :: p =>
        let params := p.takeWhile (· ≠ 59)
        let rest := p.dropWhile (· ≠ 59)
        if act = ascii "homelink" then
          if checkHomelink params.length p then some (⟨enter, .homelink, params⟩, rest) else none
        else if act = ascii "acc" then
          if enter then some (⟨enter, .acc, params⟩, rest) else none
        else if act = ascii "notify" then some (⟨enter, .notify, params⟩, rest)
        else none

/-- The loop, for at most so many actions. -/
def parseActions : ℕ → Text → Option (List OvmsLocationAction)
  | 0, _ => some []
  | _ + 1, [] => some []
  | fuel + 1, c :: text =>
      if c = 59 then do
        let (action, rest) ← parseAction text
        let actions ← parseActions fuel rest
        some (action :: actions)
      else some []

/-- The end of `Parse`, behind the numbers. -/
def parseRest (latitude longitude : ℚ) (radius : ℤ) : Text → Option Fields
  | [] => some ⟨latitude, longitude, radius, []⟩
  | next :: text =>
      if next = 59 then
        (parseActions (next :: text).length (next :: text)).map
          fun actions => ⟨latitude, longitude, radius, actions⟩
      else none

/-- `LOCATION_DEFRADIUS`. -/
def defaultRadius : ℤ := 100

/-- `OvmsLocation::Parse`; it is `none` where this returns `false`. -/
def parse (value : Text) : Option Fields := do
  let (latitude, longitude, text) ← scanCoordinates value
  if text.head? = some 44 then
    let (radius, text) ← scanRadius text
    parseRest latitude longitude radius text
  else parseRest latitude longitude defaultRadius text

/-! ### `OvmsLocation::Store` -/

/-- An action as it is stored. -/
def OvmsLocationAction.store (a : OvmsLocationAction) : Text :=
  59 :: ((if a.enter then ascii "enter" else ascii "leave") ++
    58 :: (a.action.actionString ++ 58 :: a.params))

/-- `OvmsLocation::Store`. -/
def store (l : Fields) : Text :=
  -- The numbers are printed to an array of 32 characters.
  (printFixed l.latitude ++ 44 :: (printFixed l.longitude ++ 44 :: printInt l.radius)).take 31 ++
    l.actions.flatMap OvmsLocationAction.store

/-! ### The commands -/

/-- `location_action`; `none` is `INVALID`. -/
def locationAction (remove enter : Bool) (act : Option LocationAction) (params : Text)
    (actions : List OvmsLocationAction) : List OvmsLocationAction :=
  if remove then
    actions.filter fun a =>
      ¬ (a.enter = enter ∧ ∀ action ∈ act, a.action = action ∧ (params = [] ∨ a.params = params))
  else actions ++ (act.map fun action => ⟨enter, action, params⟩).toList

/-- The parameters that `location_homelink` makes, if it accepts its argument. -/
def locationHomelink (number : Fin 3) : Option Text → Option Text
  | none => some [.ofNat (49 + number)]
  | some arg =>
      match scanUnsigned arg with
      | none => none
      | some (durationms, rest) =>
          if durationms < 100 ∨ rest ≠ [] then none
          else some (.ofNat (49 + number) :: 44 :: arg)

/-- The parameters that `location_notify` makes, if it accepts its arguments. -/
def locationNotify (argv : List Text) : Option Text :=
  let params := [32].intercalate argv
  if 59 ∈ params then none else some params

/-- A command for the actions of a location, to remove one or to add one. -/
inductive Command where
  | homelink (remove enter : Bool) (number : Fin 3) (argv : Option Text)
  | homelinkAny (enter : Bool)
  | acc (remove enter : Bool) (argv : Option Text)
  | notify (remove enter : Bool) (argv : List Text)
  | all (enter : Bool)
  deriving DecidableEq, Repr

/-- The command is registered, with this number of arguments. -/
def Command.Registered : Command → Prop
  | .homelink remove _ _ argv => remove = true → argv = none
  | .acc remove enter argv => enter = true ∧ (remove = true ∨ argv ≠ none)
  | .notify remove _ argv => remove = true ∨ argv ≠ []
  | .homelinkAny _ => True
  | .all _ => True

instance : DecidablePred Command.Registered
  | .homelink _ _ _ _ => inferInstanceAs (Decidable (_ → _))
  | .acc _ _ _ => inferInstanceAs (Decidable (_ ∧ _))
  | .notify _ _ _ => inferInstanceAs (Decidable (_ ∨ _))
  | .homelinkAny _ => inferInstanceAs (Decidable True)
  | .all _ => inferInstanceAs (Decidable True)

/-- A command is executed. -/
def Command.execute (actions : List OvmsLocationAction) (c : Command) :
    List OvmsLocationAction :=
  if ¬ c.Registered then actions
  else
    match c with
    | .homelink remove enter number argv =>
        match locationHomelink number argv with
        | none => actions
        | some params => locationAction remove enter (some .homelink) params actions
    | .homelinkAny enter => locationAction true enter (some .homelink) [] actions
    | .acc remove enter argv => locationAction remove enter (some .acc) (argv.getD []) actions
    | .notify remove enter argv =>
        match locationNotify argv with
        | none => actions
        | some params => locationAction remove enter (some .notify) params actions
    | .all enter => locationAction true enter none [] actions

/-- The actions that commands build, for a location without actions. -/
def build (commands : List Command) : List OvmsLocationAction :=
  commands.foldl Command.execute []

/-! ### What should hold -/

/-- Coordinates in millionths of a degree, and a radius, in their ranges. -/
structure Site where
  latitude : ℤ
  longitude : ℤ
  radius : ℕ
  latitude_le : latitude.natAbs ≤ 90000000
  longitude_le : longitude.natAbs ≤ 180000000
  radius_le : radius ≤ 1000000

/-- A location there. -/
def Site.fields (s : Site) (actions : List OvmsLocationAction) : Fields where
  latitude := (s.latitude : ℚ) / 1000000
  longitude := (s.longitude : ℚ) / 1000000
  radius := s.radius
  actions := actions

/-- The location is read back. -/
def ReadsBack (l : Fields) : Prop := parse (store l) = some l

/-- The parameters have no separator in the profile of an ACC action, and no minus sign in the
duration of a homelink action. -/
def OvmsLocationAction.Plain (a : OvmsLocationAction) : Prop :=
  (a.action = .acc → 59 ∉ a.params) ∧ (a.action = .homelink → 45 ∉ a.params)

/-! ### What is read as an action -/

variable {negative : Bool} {n : ℕ} {text rest params : Text} {a : OvmsLocationAction}
  {actions : List OvmsLocationAction}

/-- Nothing, or the next action. -/
def Ends (rest : Text) : Prop := ∀ c ∈ rest.head?, c = 59

theorem Ends.stops (h : Ends rest) : Stops rest := fun c hc => by
  obtain rfl := h c hc
  rfl

/-- The parameters of a homelink action: a number, and a duration as `%d` reads it. -/
def IsHomelink (params : Text) : Prop :=
  ∃ c text, params = c :: text ∧ 49 ≤ c ∧ c ≤ 51 ∧
    (text = [] ∨ ∃ arg negative n, text = 44 :: arg ∧ Signed negative n arg ∧
      100 ≤ (toLong negative n).1)

/-- An action that can be read. -/
structure OvmsLocationAction.Valid (a : OvmsLocationAction) : Prop where
  separator : 59 ∉ a.params
  homelink : a.action = .homelink → IsHomelink a.params
  acc : a.action = .acc → a.enter = true

theorem scanInt_append (h : Signed negative n text) (hrest : Stops rest) :
    scanInt (text ++ rest) = some ((toLong negative n).1, rest) := by
  rw [scanInt, h.scanDigits hrest, Option.map_some]

/-- A duration, as it is read from the middle of a text. -/
theorem scanDuration_iff {durationms : ℤ} (hrest : Stops rest) :
    scanDuration (text ++ rest) = some (durationms, text.length) ∧ text ≠ [] ↔
      ∃ arg negative n, text = 44 :: arg ∧ Signed negative n arg ∧
        durationms = (toLong negative n).1 := by
  constructor
  · rintro ⟨hscan, hne⟩
    obtain ⟨c, arg, rfl⟩ := List.exists_cons_of_ne_nil hne
    rw [scanDuration, List.cons_append, expect] at hscan
    split at hscan
    · next hc =>
        subst hc
        rw [Option.bind_eq_bind, Option.bind_some, scanInt] at hscan
        cases hdigits : scanDigits (arg ++ rest) with
        | none =>
            rw [hdigits] at hscan
            cases hscan
        | some r =>
            obtain ⟨negative, n, rest'⟩ := r
            obtain ⟨number, happend, hsigned, -⟩ := exists_of_scanDigits hdigits
            rw [hdigits] at hscan
            obtain ⟨rfl, hlength⟩ := Prod.mk.inj (Option.some.inj hscan)
            have htotal := congrArg List.length happend
            simp only [List.length_append, List.length_cons] at htotal hlength
            obtain ⟨rfl, -⟩ := List.append_inj happend (by omega)
            exact ⟨arg, negative, n, rfl, hsigned, rfl⟩
    · cases hscan
  · rintro ⟨arg, negative, n, rfl, hsigned, rfl⟩
    refine ⟨?_, List.cons_ne_nil 44 arg⟩
    have hlength : (44 :: (arg ++ rest)).length - rest.length = (44 :: arg).length := by
      rw [List.length_cons, List.length_append, List.length_cons]
      omega
    rw [scanDuration, List.cons_append, expect, if_pos rfl, Option.bind_eq_bind,
      Option.bind_some, scanInt_append hsigned hrest]
    exact congrArg (fun k => some (_, k)) hlength

/-- The check looks at the parameters only. -/
theorem checkHomelink_iff (hrest : Stops rest) :
    checkHomelink params.length (params ++ rest) = true ↔ IsHomelink params := by
  cases params with
  | nil =>
      refine iff_of_false ?_ fun ⟨c, text, h, _⟩ => List.cons_ne_nil c text h.symm
      cases rest <;> simp [checkHomelink]
  | cons c text =>
      rw [List.cons_append, checkHomelink, decide_eq_true_iff, List.length_cons]
      constructor
      · rintro ⟨-, hlow, hhigh, hduration⟩
        refine ⟨c, text, rfl, hlow, hhigh, ?_⟩
        by_cases hempty : text = []
        · exact .inl hempty
        · have hlong := List.length_pos_iff.mpr hempty
          obtain ⟨⟨durationms, slen⟩, hscan, h100, hslen⟩ := hduration (by omega)
          obtain rfl : slen = text.length := hslen
          obtain ⟨arg, negative, n, harg, hsigned, rfl⟩ :=
            (scanDuration_iff hrest).mp ⟨hscan, hempty⟩
          exact .inr ⟨arg, negative, n, harg, hsigned, h100⟩
      · rintro ⟨c', text', heq, hlow, hhigh, hduration⟩
        obtain ⟨rfl, rfl⟩ := List.cons.inj heq
        refine ⟨Nat.succ_pos _, hlow, hhigh, fun hlong => ?_⟩
        rcases hduration with rfl | ⟨arg, negative, n, harg, hsigned, h100⟩
        · exact absurd hlong (Nat.lt_irrefl 1)
        · obtain ⟨hscan, -⟩ := (scanDuration_iff hrest).mpr ⟨arg, negative, n, harg, hsigned, rfl⟩
          exact ⟨_, hscan, h100, rfl⟩

/-- Parameters are read up to the next action. -/
theorem takeWhile_params (hparams : 59 ∉ params) (hrest : Ends rest) :
    (params ++ rest).takeWhile (· ≠ 59) = params ∧
      (params ++ rest).dropWhile (· ≠ 59) = rest := by
  have hall : ∀ c ∈ params, decide (c ≠ 59) = true := fun c hc =>
    decide_eq_true fun heq => hparams (heq ▸ hc)
  rw [List.takeWhile_append_of_pos hall, List.dropWhile_append_of_pos hall]
  cases rest with
  | nil => exact ⟨List.append_nil params, rfl⟩
  | cons c rest =>
      obtain rfl := hrest c rfl
      exact ⟨List.append_nil params, rfl⟩

/-- The keywords in front of the parameters. -/
theorem parseAction_keywords (enter : Bool) {act : Text} (hact : 58 ∉ act) (p : Text) :
    parseAction ((if enter then ascii "enter" else ascii "leave") ++ 58 :: (act ++ 58 :: p)) =
      let params := p.takeWhile (· ≠ 59)
      let rest := p.dropWhile (· ≠ 59)
      if act.map toLower = ascii "homelink" then
        if checkHomelink params.length p then some (⟨enter, .homelink, params⟩, rest) else none
      else if act.map toLower = ascii "acc" then
        if enter then some (⟨enter, .acc, params⟩, rest) else none
      else if act.map toLower = ascii "notify" then some (⟨enter, .notify, params⟩, rest)
      else none := by
  have hall : ∀ c ∈ act, decide (c ≠ 58) = true := fun c hc =>
    decide_eq_true fun heq => hact (heq ▸ hc)
  have htake : (act ++ 58 :: p).takeWhile (· ≠ 58) = act := by
    rw [List.takeWhile_append_of_pos hall]
    exact List.append_nil act
  have hdrop : (act ++ 58 :: p).dropWhile (· ≠ 58) = 58 :: p := by
    rw [List.dropWhile_append_of_pos hall]
    rfl
  generalize act ++ 58 :: p = body at htake hdrop
  have hkeyword : ∀ keyword : Text, (keyword = ascii "enter" ∨ keyword = ascii "leave") →
      (keyword ++ 58 :: body).dropWhile (· = 32) = keyword ++ 58 :: body ∧
      ((keyword ++ 58 :: body).take 6).map toLower = keyword ++ [58] ∧
      (keyword ++ 58 :: body).drop 6 = body := by
    rintro keyword (rfl | rfl) <;> exact ⟨rfl, rfl, rfl⟩
  cases enter with
  | true =>
      obtain ⟨hblank, hlower, hbody⟩ := hkeyword _ (.inl rfl)
      rw [if_pos rfl, parseAction, hblank, hlower, hbody]
      dsimp only
      rw [htake, hdrop, if_neg (by decide), decide_eq_true (by decide)]
  | false =>
      obtain ⟨hblank, hlower, hbody⟩ := hkeyword _ (.inr rfl)
      rw [if_neg Bool.false_ne_true, parseAction, hblank, hlower, hbody]
      dsimp only
      rw [htake, hdrop, if_neg (by decide), decide_eq_false (by decide)]

/-- **An action** that can be read is read back. -/
theorem parseAction_store (h : a.Valid) (hrest : Ends rest) :
    parseAction (a.store.tail ++ rest) = some (a, rest) := by
  obtain ⟨enter, action, params⟩ := a
  obtain ⟨htake, hdrop⟩ := takeWhile_params h.separator hrest
  have hhomelink := fun haction => (checkHomelink_iff hrest.stops).mpr (h.homelink haction)
  have hacc := h.acc
  have hact : 58 ∉ action.actionString := by cases action <;> decide
  have htext : (OvmsLocationAction.store ⟨enter, action, params⟩).tail ++ rest =
      (if enter then ascii "enter" else ascii "leave") ++
        58 :: (action.actionString ++ 58 :: (params ++ rest)) := by
    simp only [OvmsLocationAction.store, List.tail_cons, List.append_assoc, List.cons_append]
  rw [htext, parseAction_keywords enter hact]
  dsimp only
  rw [htake, hdrop]
  cases action with
  | homelink => exact (if_pos (by decide)).trans (if_pos (hhomelink rfl))
  | acc => exact (if_neg (by decide)).trans ((if_pos (by decide)).trans (if_pos (hacc rfl)))
  | notify => exact (if_neg (by decide)).trans ((if_neg (by decide)).trans (if_pos (by decide)))

/-- The text is cut at the next action. -/
theorem params_rest (p : Text) :
    59 ∉ p.takeWhile (· ≠ 59) ∧ Ends (p.dropWhile (· ≠ 59)) := by
  refine ⟨fun hmem => ?_, fun c hc => ?_⟩
  · have hne := List.mem_takeWhile_imp hmem
    exact absurd hne (by decide)
  · have hnot := List.head?_dropWhile_not (fun c : UInt8 => decide (c ≠ 59)) p
    rw [Option.mem_def.mp hc] at hnot
    exact not_not.mp (of_decide_eq_false hnot)

/-- What is read as an action can be read, and the next one follows. -/
theorem valid_of_parseAction (h : parseAction text = some (a, rest)) :
    a.Valid ∧ Ends rest ∧ rest.length ≤ text.length := by
  rw [parseAction] at h
  generalize hp : text.dropWhile (· = 32) = p at h
  have hlength : p.length ≤ text.length := by
    rw [← hp]
    exact (List.dropWhile_suffix _).length_le
  dsimp only at h
  split at h
  · cases h
  · generalize decide (List.map toLower (List.take 6 p) = ascii "enter:") = enter at h
    split at h
    · cases h
    · next c p' hbody =>
        have hrest : (p'.dropWhile (· ≠ 59)).length ≤ text.length := by
          have hdrop := congrArg List.length hbody
          have hle := (List.dropWhile_suffix (fun c : UInt8 => decide (c ≠ 58))
            (l := p.drop 6)).length_le
          have hle' := (List.dropWhile_suffix (fun c : UInt8 => decide (c ≠ 59))
            (l := p')).length_le
          rw [List.length_cons] at hdrop
          rw [List.length_drop] at hle
          omega
        obtain ⟨hseparator, hends⟩ := params_rest p'
        have happend : p'.takeWhile (· ≠ 59) ++ p'.dropWhile (· ≠ 59) = p' :=
          List.takeWhile_append_dropWhile
        generalize p'.takeWhile (· ≠ 59) = params at *
        generalize p'.dropWhile (· ≠ 59) = rest' at *
        split at h
        · split at h
          · next hcheck =>
              cases h
              rw [← happend] at hcheck
              exact ⟨⟨hseparator, fun _ => (checkHomelink_iff hends.stops).mp hcheck,
                fun hacc => LocationAction.noConfusion hacc⟩, hends, hrest⟩
          · cases h
        · split at h
          · split at h
            · next henter =>
                cases h
                exact ⟨⟨hseparator, fun hhomelink => LocationAction.noConfusion hhomelink,
                  fun _ => henter⟩, hends, hrest⟩
            · cases h
          · split at h
            · cases h
              exact ⟨⟨hseparator, fun hhomelink => LocationAction.noConfusion hhomelink,
                fun hacc => LocationAction.noConfusion hacc⟩, hends, hrest⟩
            · cases h

/-- What is read as actions can be read. -/
theorem valid_of_parseActions {fuel : ℕ} (h : parseActions fuel text = some actions) :
    ∀ a ∈ actions, a.Valid := by
  induction fuel generalizing text actions with
  | zero =>
      cases h
      exact List.forall_mem_nil _
  | succ fuel ih =>
      cases text with
      | nil =>
          cases h
          exact List.forall_mem_nil _
      | cons c text =>
          rw [parseActions] at h
          split at h
          · obtain ⟨⟨a, rest⟩, ha, h⟩ := Option.bind_eq_some_iff.mp h
            obtain ⟨as, has, h⟩ := Option.bind_eq_some_iff.mp h
            obtain rfl := Option.some.inj h
            exact List.forall_mem_cons.mpr ⟨(valid_of_parseAction ha).1, ih has⟩
          · cases h
            exact List.forall_mem_nil _

theorem ends_flatMap_store (actions : List OvmsLocationAction) :
    Ends (actions.flatMap OvmsLocationAction.store) := by
  cases actions with
  | nil => exact fun c hc => absurd hc (by simp)
  | cons a actions => exact fun c hc => (Option.some.inj hc).symm

/-- **Actions** that can be read are read back. -/
theorem parseActions_store {fuel : ℕ} (hvalid : ∀ a ∈ actions, a.Valid)
    (hfuel : actions.length ≤ fuel) :
    parseActions fuel (actions.flatMap OvmsLocationAction.store) = some actions := by
  induction actions generalizing fuel with
  | nil => cases fuel <;> rfl
  | cons a actions ih =>
      obtain ⟨ha, hvalid⟩ := List.forall_mem_cons.mp hvalid
      cases fuel with
      | zero => exact absurd hfuel (Nat.not_succ_le_zero _)
      | succ fuel =>
          have hstore : (a :: actions).flatMap OvmsLocationAction.store =
              59 :: (a.store.tail ++ actions.flatMap OvmsLocationAction.store) := rfl
          rw [hstore, parseActions, if_pos rfl, parseAction_store ha (ends_flatMap_store actions)]
          simp only [Option.bind_eq_bind, Option.bind_some]
          rw [ih hvalid (Nat.le_of_succ_le_succ hfuel), Option.bind_some]

/-! ### The numbers -/

/-- The numbers fit. -/
theorem Site.length_le (s : Site) :
    (printFixed ((s.latitude : ℚ) / 1000000) ++ 44 ::
      (printFixed ((s.longitude : ℚ) / 1000000) ++ 44 :: printInt s.radius)).length ≤ 31 := by
  have hlatitude := length_printFixed_le (m := s.latitude) (d := 2) (by decide)
    (by have := s.latitude_le; omega)
  have hlongitude := length_printFixed_le (m := s.longitude) (d := 3) (by decide)
    (by have := s.longitude_le; omega)
  have hradius := length_printInt_le (k := s.radius) (d := 7) (by decide)
    (by have := s.radius_le; omega)
  simp only [List.length_append, List.length_cons]
  omega

/-- **The numbers** are read back, up to the actions. -/
theorem parse_store (s : Site) (actions : List OvmsLocationAction) :
    parse (store (s.fields actions)) =
      parseRest ((s.latitude : ℚ) / 1000000) ((s.longitude : ℚ) / 1000000) s.radius
        (actions.flatMap OvmsLocationAction.store) := by
  have hends := ends_flatMap_store actions
  rw [store, Site.fields, List.take_of_length_le s.length_le]
  dsimp only
  generalize actions.flatMap OvmsLocationAction.store = text at hends ⊢
  have hcomma : ∀ text : Text, (44 :: text).dropWhile isSpace = 44 :: text := fun _ => rfl
  have hblank : text.dropWhile isSpace = text := by
    cases text with
    | nil => rfl
    | cons c text =>
        obtain rfl := hends c rfl
        rfl
  have hcoordinates : scanCoordinates (printFixed ((s.latitude : ℚ) / 1000000) ++ 44 ::
      (printFixed ((s.longitude : ℚ) / 1000000) ++ 44 :: (printInt s.radius ++ text))) =
      some ((s.latitude : ℚ) / 1000000, (s.longitude : ℚ) / 1000000,
        44 :: (printInt s.radius ++ text)) := by
    rw [scanCoordinates, scanFloat_printFixed]
    simp only [Option.bind_eq_bind, Option.bind_some, hcomma, expect, if_true,
      scanFloat_dropWhile, scanFloat_printFixed]
  have hradius : scanRadius (44 :: (printInt s.radius ++ text)) = some ((s.radius : ℤ), text) := by
    have hscan := scanUnsigned_printInt (k := s.radius) (by have := s.radius_le; omega) hends.stops
    rw [scanRadius, expect, if_pos rfl]
    simp only [Option.bind_eq_bind, Option.bind_some, scanUnsigned_dropWhile, hscan, hblank]
  rw [List.append_assoc, List.cons_append, List.append_assoc, List.cons_append, parse,
    hcoordinates]
  simp only [Option.bind_eq_bind, Option.bind_some, List.head?_cons, if_true, hradius]

theorem length_le_flatMap_store (actions : List OvmsLocationAction) :
    actions.length ≤ (actions.flatMap OvmsLocationAction.store).length := by
  induction actions with
  | nil => exact Nat.le_refl 0
  | cons a actions ih =>
      have hpos : 0 < a.store.length := Nat.succ_pos _
      rw [List.flatMap_cons, List.length_append, List.length_cons]
      omega

/-- A location is read back exactly if its actions can be read. -/
theorem readsBack_iff_valid (s : Site) (actions : List OvmsLocationAction) :
    ReadsBack (s.fields actions) ↔ ∀ a ∈ actions, a.Valid := by
  have hends := ends_flatMap_store actions
  have hlength := length_le_flatMap_store actions
  have hrest : parse (store (s.fields actions)) =
      (parseActions (actions.flatMap OvmsLocationAction.store).length
        (actions.flatMap OvmsLocationAction.store)).map s.fields := by
    rw [parse_store]
    cases htext : actions.flatMap OvmsLocationAction.store with
    | nil => rfl
    | cons c text =>
        rw [htext] at hends
        rw [parseRest, if_pos (hends c rfl)]
        rfl
  rw [ReadsBack, hrest]
  constructor
  · intro h
    obtain ⟨as, has, heq⟩ := Option.map_eq_some_iff.mp h
    obtain rfl : as = actions := congrArg Fields.actions heq
    exact valid_of_parseActions has
  · intro h
    rw [parseActions_store h hlength, Option.map_some]

/-! ### What the commands accept -/

/-- An action that the commands accept. -/
def OvmsLocationAction.Accepted (a : OvmsLocationAction) : Prop :=
  match a.action with
  | .homelink =>
      ∃ c text, a.params = c :: text ∧ 49 ≤ c ∧ c ≤ 51 ∧
        (text = [] ∨ ∃ arg negative n, text = 44 :: arg ∧ Signed negative n arg ∧
          100 ≤ Int.bmod (toUlong negative n) 4294967296)
  | .acc => a.enter = true
  | .notify => 59 ∉ a.params

theorem accepted_locationHomelink {number : Fin 3} {argv : Option Text}
    (h : locationHomelink number argv = some params) (enter : Bool) :
    OvmsLocationAction.Accepted ⟨enter, .homelink, params⟩ := by
  have hnumber : (49 : UInt8) ≤ .ofNat (49 + number) ∧ .ofNat (49 + number) ≤ (51 : UInt8) := by
    match number with
    | 0 | 1 | 2 => decide
  cases argv with
  | none =>
      obtain rfl := Option.some.inj h
      exact ⟨_, [], rfl, hnumber.1, hnumber.2, .inl rfl⟩
  | some arg =>
      rw [locationHomelink] at h
      split at h
      · cases h
      · next durationms rest hscan =>
          split at h
          · cases h
          · next haccepted =>
              rw [not_or, not_not, Int.not_lt] at haccepted
              obtain rfl := Option.some.inj h
              obtain ⟨⟨negative, n, rest'⟩, hdigits, heq⟩ := Option.map_eq_some_iff.mp hscan
              obtain ⟨rfl, rfl⟩ := Prod.mk.inj heq
              obtain ⟨text, htext, hsigned, -⟩ := exists_of_scanDigits hdigits
              obtain ⟨h100, hempty⟩ := haccepted
              obtain rfl : rest' = [] := hempty
              obtain rfl : arg = text := htext.trans (List.append_nil text)
              exact ⟨_, _, rfl, hnumber.1, hnumber.2,
                .inr ⟨_, negative, n, rfl, hsigned, h100⟩⟩

/-- Actions are removed, or one is added. -/
theorem accepted_locationAction {remove enter : Bool} {act : Option LocationAction}
    (h : ∀ a ∈ actions, a.Accepted)
    (hact : remove = false → ∀ action ∈ act,
      OvmsLocationAction.Accepted ⟨enter, action, params⟩) :
    ∀ a ∈ locationAction remove enter act params actions, a.Accepted := by
  intro a ha
  rw [locationAction] at ha
  split at ha
  · exact h a (List.mem_of_mem_filter ha)
  · next hremove =>
      rcases List.mem_append.mp ha with ha | ha
      · exact h a ha
      · obtain ⟨action, haction, rfl⟩ := Option.map_eq_some_iff.mp (Option.mem_toList.mp ha)
        exact hact (Bool.eq_false_iff.mpr hremove) action haction

/-- **The commands** build accepted actions. -/
theorem accepted_build (commands : List Command) : ∀ a ∈ build commands, a.Accepted := by
  suffices hfold : ∀ actions : List OvmsLocationAction, (∀ a ∈ actions, a.Accepted) →
      ∀ a ∈ commands.foldl Command.execute actions, a.Accepted from
    hfold [] (List.forall_mem_nil _)
  induction commands with
  | nil => exact fun actions h => h
  | cons c commands ih =>
      intro actions h
      refine ih _ ?_
      rw [Command.execute.eq_def]
      split
      · exact h
      · next hregistered =>
          rw [not_not] at hregistered
          cases c with
          | homelink remove enter number argv =>
              dsimp only
              split
              · exact h
              · next params hparams =>
                  refine accepted_locationAction h fun _ action haction => ?_
                  obtain rfl := Option.some.inj haction
                  exact accepted_locationHomelink hparams enter
          | homelinkAny enter => exact accepted_locationAction h Bool.noConfusion
          | acc remove enter argv =>
              refine accepted_locationAction h fun _ action haction => ?_
              obtain rfl := Option.some.inj haction
              exact hregistered.1
          | notify remove enter argv =>
              dsimp only
              split
              · exact h
              · next params hparams =>
                  refine accepted_locationAction h fun _ action haction => ?_
                  obtain rfl := Option.some.inj haction
                  rw [locationNotify] at hparams
                  split at hparams
                  · cases hparams
                  · next hseparator =>
                      obtain rfl := Option.some.inj hparams
                      exact hseparator
          | all enter => exact accepted_locationAction h Bool.noConfusion

/-- **An accepted action** can be read exactly if it is plain. -/
theorem OvmsLocationAction.Accepted.valid_iff (h : a.Accepted) : a.Valid ↔ a.Plain := by
  obtain ⟨enter, action, params⟩ := a
  cases action with
  | homelink =>
      obtain ⟨c, text, rfl, hlow, hhigh, hduration⟩ := h
      have hne : ∀ d : UInt8, d < 49 ∨ 51 < d → d ≠ c := by
        rintro d hd rfl
        rcases hd with hd | hd
        · exact absurd hlow (UInt8.not_le.mpr hd)
        · exact absurd hhigh (UInt8.not_le.mpr hd)
      rcases hduration with rfl | ⟨arg, negative, n, rfl, hsigned, h100⟩
      · refine iff_of_true ⟨?_, fun _ => ⟨c, [], rfl, hlow, hhigh, .inl rfl⟩,
          fun hacc => LocationAction.noConfusion hacc⟩
          ⟨fun hacc => LocationAction.noConfusion hacc, fun _ => ?_⟩
        · exact fun hmem => hne 59 (.inr (by decide)) (List.mem_singleton.mp hmem)
        · exact fun hmem => hne 45 (.inl (by decide)) (List.mem_singleton.mp hmem)
      · have hminus : 45 ∈ c :: 44 :: arg ↔ negative = true := by
          rw [List.mem_cons, or_iff_right (hne 45 (.inl (by decide))), List.mem_cons,
            or_iff_right (by decide), hsigned.mem_minus_iff]
        have hlong : 100 ≤ (toLong negative n).1 ↔ 45 ∉ c :: 44 :: arg := by
          rw [toLong_of_toUlong h100, hminus, Bool.not_eq_true]
        constructor
        · intro hvalid
          refine ⟨fun hacc => LocationAction.noConfusion hacc, fun _ => hlong.mp ?_⟩
          obtain ⟨c', text, heq, -, -, hduration⟩ := hvalid.homelink rfl
          obtain ⟨rfl, rfl⟩ := List.cons.inj heq
          rcases hduration with hempty | ⟨arg', negative', n', heq, hsigned', h100'⟩
          · cases hempty
          · obtain rfl := (List.cons.inj heq).2
            obtain ⟨rfl, rfl⟩ := hsigned.unique hsigned'
            exact h100'
        · intro hplain
          refine ⟨?_, fun _ => ⟨c, _, rfl, hlow, hhigh, .inr ⟨arg, negative, n, rfl, hsigned,
            hlong.mpr (hplain.2 rfl)⟩⟩, fun hacc => LocationAction.noConfusion hacc⟩
          rw [List.mem_cons, or_iff_right (hne 59 (.inr (by decide))), List.mem_cons,
            or_iff_right (by decide)]
          exact hsigned.semicolon_notMem
  | acc =>
      exact ⟨fun hvalid => ⟨fun _ => hvalid.separator, fun hhomelink =>
        LocationAction.noConfusion hhomelink⟩, fun hplain => ⟨hplain.1 rfl, fun hhomelink =>
        LocationAction.noConfusion hhomelink, fun _ => h⟩⟩
  | notify =>
      exact iff_of_true ⟨h, fun hhomelink => LocationAction.noConfusion hhomelink,
        fun hacc => LocationAction.noConfusion hacc⟩ ⟨fun hacc => LocationAction.noConfusion hacc,
        fun hhomelink => LocationAction.noConfusion hhomelink⟩

/-- **A stored location** is read back exactly if no ACC profile of its actions has a separator,
and no duration a minus sign. -/
theorem readsBack_iff (s : Site) (commands : List Command) :
    ReadsBack (s.fields (build commands)) ↔ ∀ a ∈ build commands, a.Plain := by
  rw [readsBack_iff_valid]
  exact forall₂_congr fun a ha => (accepted_build commands a ha).valid_iff

/-- The profile of an ACC action is taken for the next action, which it is not. -/
theorem not_readsBack : ¬ ReadsBack
    (Site.fields ⟨48123456, 16000001, 100, by decide, by decide, by decide⟩
      (build [.acc false true (some (ascii "home;2"))])) := by
  intro h
  have hvalid := (readsBack_iff_valid _ _).mp h ⟨true, .acc, ascii "home;2"⟩ (by decide)
  exact hvalid.separator (by decide)

/-- A location that is read back is there after the reload of its instance. -/
theorem ReadsBack.exists_reloadInstance {Position : Type*} {l : Fields} (h : ReadsBack l)
    (name : Text) (s : OvmsLocations Position Fields) :
    ∃ m ∈ (s.reloadInstance parse name (store l)).locations, m.name = name ∧ m.place = l := by
  rw [OvmsLocations.reloadInstance, h]
  dsimp only
  split
  · next hfound =>
      obtain ⟨m, hm, hname⟩ := List.any_eq_true.mp hfound
      have hname := of_decide_eq_true hname
      refine ⟨{ m with place := l }, List.mem_map.mpr ⟨m, hm, if_pos hname⟩, hname, rfl⟩
  · exact ⟨_, (List.mem_orderedInsert _).mpr (.inl rfl), rfl, rfl⟩

end Ovms.Location
