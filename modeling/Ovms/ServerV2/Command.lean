import Ovms.Canlog.Text
import Ovms.ServerV2.Transmit

/-!
# Commands from a Server V2

`OvmsServerV2::ProcessCommand` (`components/ovms_server_v2/src/ovms_server_v2.cpp`), with every
access to memory checked: an access that would leave its string, its buffer or the table of
parameters, and an address formed from a null pointer, is a `Fault`.

A command is a number, with arguments behind commas. The vehicle is asked first; what it does
not handle goes through a switch. `index` answers where a comma stands or null; here it answers
the text behind the comma, which is all that is read from there.

The vehicle, the configuration, the shell and the modem answer what they like.
-/

namespace Ovms.ServerV2

/-- An access that goes wrong: `std::string::at` or a pointer beyond a string, a write beyond a
buffer, an address from a comma that is not there, an entry of `pmap` that is not there, or a
message without a code that `Transmit` writes anew. -/
inductive Fault
  | string
  | buffer
  | null
  | pmap
  | transmit
  deriving DecidableEq

/-! ### Text -/

/-- The bytes of a string literal. -/
def ascii (s : String) : Text := s.toList.map fun c => UInt8.ofNat c.toNat

/-- A number as a stream writes it. -/
def decimal (n : ℤ) : Text :=
  (if n < 0 then [0x2D] else []) ++ Canlog.print false 10 1 n.natAbs

/-- `atoi`. -/
def atoi (text : Text) : ℤ := (Canlog.strtol 10 text).value

/-- `index(text, ',')`, as the text behind the comma. -/
def index (text : Text) : Option Text :=
  match text.dropWhile (· ≠ 0x2C) with
  | [] => none
  | _ :: behind => some behind

/-- The address behind a comma. -/
def next (sep : Option Text) : Except Fault Text :=
  match sep with
  | none => throw .null
  | some behind => pure behind

/-- `pmap`. -/
def pmap : List (Text × Text) :=
  [("vehicle", "registered.phone"), ("password", "module"), ("vehicle", "units.distance"),
    ("", ""), ("server.v2", "server"), ("modem", "apn"), ("modem", "apn.user"),
    ("modem", "apn.password"), ("vehicle", "id"), ("password", "server.v2"), ("", ""), ("", ""),
    ("", ""), ("", ""), ("auto", "vehicle.type"), ("", ""), ("", ""), ("", ""), ("", ""), ("", ""),
    ("", ""), ("", ""), ("network", "dns"), ("vehicle", "timezone")].map
    fun entry => (ascii entry.1, ascii entry.2)

/-- `PMAX_MAX`. -/
def pmaxMax : ℤ := 24

/-- `pmap[k]`. -/
def pmapAt (k : ℤ) : Except Fault (Text × Text) :=
  if k < 0 then throw .pmap
  else
    match pmap[k.toNat]? with
    | none => throw .pmap
    | some entry => pure entry

/-! ### Who answers, and what is done -/

/-- A call to the vehicle, with its arguments as the functions take them. -/
inductive VehicleCall
  | setFeature (key : ℤ) (value : Text)
  | setChargeMode (mode : ℤ)
  | setChargeCurrent (limit : UInt16)
  | startCharge
  | stopCharge
  | setChargeTimer (timeron : Bool) (timerstart : UInt16)
  | wakeup
  | lock (pin : Text)
  | activateValet (pin : Text)
  | unlock (pin : Text)
  | deactivateValet (pin : Text)
  | homelink (button : ℤ)
  | cooldown (cooldownon : Bool)
  | climateControl (enable : Bool)

/-- `OvmsVehicle`: what `ProcessMsgCommand` answers if it is implemented for a command (whether
it was a success, and a text), the features, and whether a call is a success. -/
structure Vehicle where
  processMsgCommand : ℤ → Option Text → Option (Bool × Text)
  getFeature : ℕ → Text
  succeeds : VehicleCall → Bool

/-- Who else answers: the configuration, the shell (whose output is encoded already), and the
modem, which may be busy. -/
structure Environment where
  vehicle : Option Vehicle
  getParamValue : Text → Text → Text
  shell : Text → Text
  modem : Text → Option Bool

/-- What is done. -/
inductive Effect
  | transmit (message : Text)
  | vehicle (call : VehicleCall)
  | setParamValue (param inst value : Text)
  | restart
  | notifyCommand
  | shell (line : Text)
  | modem (line : Text)

/-- The start of a reply. -/
def reply (command : ℤ) : Text := ascii "MP-0 c" ++ decimal command ++ ascii ","

/-- A call to the vehicle and the reply to it, with 0 for a success. -/
def attempt (v : Vehicle) (command : ℤ) (call : VehicleCall) : List Effect :=
  [.vehicle call, .transmit (reply command ++ if v.succeeds call then ascii "0" else ascii "1")]

/-- The reply to a command that is not tried. -/
def refused (command : ℤ) : List Effect := [.transmit (reply command ++ ascii "1")]

/-! ### The commands -/

variable (env : Environment)

/-- A command without arguments: 11, 12, 18, 19 and 25. -/
def plainCommand (command : ℤ) (call : VehicleCall) : Except Fault (List Effect) :=
  match env.vehicle with
  | some v => pure (attempt v command call)
  | none => pure (refused command)

/-- A command with one argument: 10, 15, 20 to 23, and 26. -/
def argumentCommand (command : ℤ) (sep : Option Text) (call : Text → VehicleCall) :
    Except Fault (List Effect) :=
  match env.vehicle with
  | some v => if sep.isSome then do pure (attempt v command (call (← next sep)))
      else pure (refused command)
  | none => pure (refused command)

/-- 1: request feature list. -/
def requestFeatures : Except Fault (List Effect) :=
  pure ((List.range 32).map fun (k : ℕ) => .transmit (ascii "MP-0 c1,0," ++ decimal k ++
    ascii ",32," ++ match env.vehicle with
    | some v => v.getFeature k
    | none => ascii "0"))

/-- 2: set feature. -/
def setFeature (sep : Option Text) : Except Fault (List Effect) :=
  match env.vehicle with
  | none => pure [.transmit (ascii "MP-0 c2,1,No active vehicle")]
  | some v =>
    if sep.isNone then pure [.transmit (ascii "MP-0 c2,1,Missing feature key")]
    else do
      let k := atoi (← next sep)
      let sep := index (← next sep)
      let value ← if sep.isSome then next sep else pure []
      pure [.vehicle (.setFeature k value),
        .transmit (if v.succeeds (.setFeature k value) then ascii "MP-0 c2,0,"
          else ascii "MP-0 c2,1,Feature not supported by vehicle")]

/-- A line of the parameter list. -/
def requestParameter (k : ℕ) : Except Fault Effect := do
  let front := ascii "MP-0 c3,0," ++ decimal k ++ ascii ",32,"
  if k < pmaxMax then
    let entry ← pmapAt k
    if entry.1 ≠ [] then pure (.transmit (front ++ env.getParamValue entry.1 entry.2))
    else pure (.transmit front)
  else pure (.transmit front)

/-- 3: request parameter list. -/
def requestParameters : Except Fault (List Effect) := (List.range 32).mapM (requestParameter env)

/-- 4: set parameter. -/
def setParameter (sep : Option Text) : Except Fault (List Effect) :=
  let unsupported : List Effect := [.transmit (ascii "MP-0 c4,1,Parameter key not supported")]
  if sep.isNone then pure [.transmit (ascii "MP-0 c4,1,Missing parameter key")]
  else do
    let k := atoi (← next sep)
    if k < pmaxMax then
      let entry ← pmapAt k
      if entry.1 ≠ [] then
        let sep := index (← next sep)
        let value ← if sep.isSome then next sep else pure []
        pure [.setParamValue entry.1 entry.2 value, .transmit (ascii "MP-0 c4,0,")]
      else pure unsupported
    else pure unsupported

/-- 5: reboot. Nothing is written to the reply. -/
def reboot : Except Fault (List Effect) := pure [.restart, .transmit []]

/-- 6: charge alert. -/
def chargeAlert : Except Fault (List Effect) :=
  pure [.notifyCommand, .transmit (ascii "MP-0 c6,0")]

/-- 7: execute command. The line is read from behind the comma to the end. -/
def executeCommand (sep : Option Text) : Except Fault (List Effect) := do
  let line ← next sep
  pure [.shell line, .transmit (ascii "MP-0 c7,0," ++ env.shell line)]

/-- 16: set charge mode and current. -/
def setChargeModeAndCurrent (sep : Option Text) : Except Fault (List Effect) :=
  match env.vehicle with
  | none => pure (refused 16)
  | some v =>
    if sep.isNone then pure (refused 16)
    else do
      let mode := atoi (← next sep)
      let sep := index (← next sep)
      if sep.isNone then pure (refused 16)
      else if v.succeeds (.setChargeMode mode) then
        let limit := UInt16.ofInt (atoi (← next sep))
        pure (.vehicle (.setChargeMode mode) :: attempt v 16 (.setChargeCurrent limit))
      else pure (.vehicle (.setChargeMode mode) :: refused 16)

/-- 17: set charge timer mode and start time. -/
def setChargeTimer (sep : Option Text) : Except Fault (List Effect) :=
  match env.vehicle with
  | none => pure (refused 17)
  | some v =>
    if sep.isNone then pure (refused 17)
    else do
      let timermode := atoi (← next sep) ≠ 0
      let sep := index (← next sep)
      if sep.isNone then pure (refused 17)
      else
        let start := UInt16.ofInt (atoi (← next sep))
        pure (attempt v 17 (.setChargeTimer timermode start))

/-- 24: homelink. -/
def homelink (sep : Option Text) : Except Fault (List Effect) :=
  match env.vehicle with
  | none => pure (refused 24)
  | some v =>
    if sep.isSome then do pure (attempt v 24 (.homelink (atoi (← next sep))))
    else pure (attempt v 24 (.homelink (-1)))

/-- 41: send MMI or USSD codes. -/
def sendUssd (sep : Option Text) : Except Fault (List Effect) :=
  if sep.isNone then pure [.transmit (reply 41 ++ ascii "1,No command")]
  else do
    let line := ascii "AT+CUSD=1,\"" ++ (← next sep) ++ ascii "\",15\r\n"
    match env.modem line with
    | none => pure [.transmit (reply 41 ++ ascii "1,Cannot send command")]
    | some true => pure [.modem line, .transmit (reply 41 ++ ascii "0")]
    | some false => pure [.modem line, .transmit (reply 41 ++ ascii "1,Cannot send command")]

/-- 49: send raw AT command. -/
def sendAt (sep : Option Text) : Except Fault (List Effect) :=
  if sep.isNone then pure [.transmit (reply 49 ++ ascii "1,No command")]
  else do
    let line := ascii "cellular cmd " ++ (← next sep)
    let res := env.shell line
    if res = [] then pure [.shell line, .transmit (reply 49 ++ ascii "1,Timeout/no response")]
    else if ascii "ERROR" <:+: res then
      pure [.shell line, .transmit (reply 49 ++ ascii "1," ++ res)]
    else pure [.shell line, .transmit (reply 49 ++ ascii "0," ++ res)]

/-- 40, and all others. -/
def unsupported (command : ℤ) : Except Fault (List Effect) :=
  pure [.transmit (reply command ++ ascii "2")]

/-- The switch of `ProcessCommand`. -/
def runCommand (command : ℤ) (sep : Option Text) : Except Fault (List Effect) :=
  if command < 0 then unsupported command
  else
    match command.toNat with
    | 1 => requestFeatures env
    | 2 => setFeature env sep
    | 3 => requestParameters env
    | 4 => setParameter sep
    | 5 => reboot
    | 6 => chargeAlert
    | 7 => executeCommand env sep
    | 10 => argumentCommand env 10 sep fun a => .setChargeMode (atoi a)
    | 11 => plainCommand env 11 .startCharge
    | 12 => plainCommand env 12 .stopCharge
    | 15 => argumentCommand env 15 sep fun a => .setChargeCurrent (UInt16.ofInt (atoi a))
    | 16 => setChargeModeAndCurrent env sep
    | 17 => setChargeTimer env sep
    | 18 => plainCommand env 18 .wakeup
    | 19 => plainCommand env 19 .wakeup
    | 20 => argumentCommand env 20 sep .lock
    | 21 => argumentCommand env 21 sep .activateValet
    | 22 => argumentCommand env 22 sep .unlock
    | 23 => argumentCommand env 23 sep .deactivateValet
    | 24 => homelink env sep
    | 25 => plainCommand env 25 (.cooldown true)
    | 26 => argumentCommand env 26 sep fun a => .climateControl (atoi a ≠ 0)
    | 41 => sendUssd env sep
    | 49 => sendAt env sep
    | _ => unsupported command

/-- What the vehicle answers to a command, if it handles it. -/
def asked (command : ℤ) (sep : Option Text) : Option (Bool × Text) :=
  env.vehicle.bind fun v => v.processMsgCommand command sep

/-- `OvmsServerV2::ProcessCommand` behind its first two lines, up to the transmissions. -/
def processParsed (command : ℤ) (sep : Option Text) : Except Fault (List Effect) :=
  match asked env command sep with
  | some (success, text) =>
    pure [.transmit (reply command ++ (if success then ascii "0," else ascii "1,") ++ text)]
  | none => runCommand env command sep

/-- `OvmsServerV2::ProcessCommand`, up to the transmissions. -/
def processCommand (payload : Text) : Except Fault (List Effect) :=
  processParsed env (atoi payload) (index payload)

/-- What is done, with the transmissions. -/
def perform (s : Session) : List Effect → Except Fault Session
  | [] => pure s
  | .transmit message :: rest =>
    match transmit s message with
    | none => throw .transmit
    | some (_, s') => perform s' rest
  | _ :: rest => perform s rest

/-! ### Payloads without a fault -/

/-- A message that `Transmit` can write anew: it has a code. -/
def Effect.HasCode : Effect → Prop
  | transmit message => 6 ≤ message.length
  | _ => True

/-- No access goes wrong, and all messages have a code. -/
def Fine (r : Except Fault (List Effect)) : Prop :=
  ∃ effects, r = .ok effects ∧ ∀ e ∈ effects, e.HasCode

theorem fine_pure {effects : List Effect} (h : ∀ e ∈ effects, e.HasCode) :
    Fine (pure effects) := ⟨effects, rfl, h⟩

theorem hasCode_reply (command : ℤ) (text : Text) :
    (Effect.transmit (reply command ++ text)).HasCode := by
  have : (ascii "MP-0 c").length = 6 := by decide
  simp only [Effect.HasCode, reply, List.length_append]
  omega

theorem fine_attempt (v : Vehicle) (command : ℤ) (call : VehicleCall) :
    ∀ e ∈ attempt v command call, e.HasCode := by
  simp only [attempt, List.mem_cons, List.not_mem_nil, or_false, forall_eq_or_imp, forall_eq]
  exact ⟨trivial, hasCode_reply _ _⟩

theorem fine_refused (command : ℤ) : ∀ e ∈ refused command, e.HasCode := by
  simp only [refused, List.mem_singleton, forall_eq]
  exact hasCode_reply _ _

theorem fine_reply {message : Text} (h : 6 ≤ message.length) :
    Fine (pure [.transmit message]) :=
  fine_pure (by simpa [Effect.HasCode] using h)

theorem fine_then_reply {effect : Effect} {message : Text} (he : effect.HasCode)
    (h : 6 ≤ message.length) : Fine (pure [effect, .transmit message]) :=
  fine_pure (by simpa [Effect.HasCode] using ⟨he, h⟩)

variable {env} {sep : Option Text}

theorem fine_plainCommand (command : ℤ) (call : VehicleCall) :
    Fine (plainCommand env command call) := by
  unfold plainCommand
  split
  · exact fine_pure (fine_attempt _ _ _)
  · exact fine_pure (fine_refused _)

theorem fine_argumentCommand (command : ℤ) (call : Text → VehicleCall) :
    Fine (argumentCommand env command sep call) := by
  unfold argumentCommand
  split
  · cases sep with
    | none => exact fine_pure (fine_refused _)
    | some a => exact fine_pure (fine_attempt _ _ _)
  · exact fine_pure (fine_refused _)

theorem fine_requestFeatures : Fine (requestFeatures env) := by
  refine fine_pure fun e he => ?_
  obtain ⟨k, -, rfl⟩ := List.mem_map.mp he
  have : (ascii "MP-0 c1,0,").length = 10 := by decide
  simp only [Effect.HasCode, List.length_append]
  omega

theorem fine_setFeature : Fine (setFeature env sep) := by
  unfold setFeature
  split
  · exact fine_reply (by decide)
  · cases sep with
    | none => exact fine_reply (by decide)
    | some a =>
      have hcode : ∀ b : Bool, 6 ≤ (if b then ascii "MP-0 c2,0,"
          else ascii "MP-0 c2,1,Feature not supported by vehicle").length := by decide
      rcases hb : index a with _ | b <;>
        simp only [next, hb, Option.isNone_some, Option.isSome_some, Option.isSome_none, ite_true,
          ite_false, Bool.false_eq_true, pure_bind] <;>
        exact fine_then_reply trivial (hcode _)

/-- A number below `PMAX_MAX` is an index of the table, unless it is negative. -/
theorem pmapAt_ok {k : ℤ} (hk : 0 ≤ k) (hmax : k < pmaxMax) : ∃ entry, pmapAt k = .ok entry := by
  have hlen : k.toNat < pmap.length := by
    have : pmap.length = 24 := rfl
    have : pmaxMax = 24 := rfl
    omega
  refine ⟨pmap[k.toNat], ?_⟩
  rw [pmapAt, if_neg (by omega), List.getElem?_eq_getElem hlen]
  rfl

/-- A line of the parameter list is read inside the table. -/
theorem requestParameter_ok (k : ℕ) : ∃ e, requestParameter env k = .ok e ∧ e.HasCode := by
  have hlen : ∀ text, (Effect.transmit (ascii "MP-0 c3,0," ++ decimal k ++ ascii ",32," ++
      text)).HasCode := by
    intro text
    have : (ascii "MP-0 c3,0,").length = 10 := by decide
    simp only [Effect.HasCode, List.length_append]
    omega
  unfold requestParameter
  simp only []
  split
  · next hmax =>
    obtain ⟨entry, hentry⟩ := pmapAt_ok (Int.natCast_nonneg k) hmax
    rw [hentry]
    by_cases hparam : entry.1 = []
    · exact ⟨_, if_neg (not_not.mpr hparam), by simpa using hlen []⟩
    · exact ⟨_, if_pos hparam, hlen _⟩
  · exact ⟨_, rfl, by simpa using hlen []⟩

theorem fine_mapM {l : List ℕ} {f : ℕ → Except Fault Effect}
    (h : ∀ k ∈ l, ∃ e, f k = .ok e ∧ e.HasCode) : Fine (l.mapM f) := by
  induction l with
  | nil => exact fine_pure fun e he => by cases he
  | cons k l ih =>
    obtain ⟨e, he, hcode⟩ := h k List.mem_cons_self
    obtain ⟨es, hes, hcodes⟩ := ih fun k' hk' => h k' (List.mem_cons_of_mem _ hk')
    refine ⟨e :: es, ?_, fun e' he' => ?_⟩
    · rw [List.mapM_cons, he, hes]
      rfl
    · obtain rfl | he' := List.mem_cons.mp he'
      · exact hcode
      · exact hcodes e' he'

theorem fine_requestParameters : Fine (requestParameters env) :=
  fine_mapM fun k _ => requestParameter_ok k

/-- A parameter is set unless its number is negative. -/
theorem fine_setParameter (h : ∀ a, sep = some a → 0 ≤ atoi a) : Fine (setParameter sep) := by
  cases sep with
  | none => exact fine_reply (by decide)
  | some a =>
    unfold setParameter
    simp only [next, Option.isNone_some, Bool.false_eq_true, if_false, pure_bind]
    split
    · next hmax =>
      obtain ⟨entry, hentry⟩ := pmapAt_ok (h a rfl) hmax
      rw [hentry]
      change Fine (if entry.1 ≠ [] then _ else _)
      split
      · rcases index a with _ | b
        · exact fine_then_reply trivial (by decide)
        · exact fine_then_reply trivial (by decide)
      · exact fine_reply (by decide)
    · exact fine_reply (by decide)

/-- A negative number is not an index of the table. -/
theorem setParameter_neg {a : Text} (h : atoi a < 0) : setParameter (some a) = .error .pmap := by
  have hmax : atoi a < pmaxMax := by
    have : pmaxMax = 24 := rfl
    omega
  unfold setParameter
  simp only [next, Option.isNone_some, Bool.false_eq_true, if_false, pure_bind, if_pos hmax]
  rw [pmapAt, if_pos h]
  rfl

theorem fine_setChargeModeAndCurrent : Fine (setChargeModeAndCurrent env sep) := by
  unfold setChargeModeAndCurrent
  split
  · exact fine_pure (fine_refused _)
  · next v _ =>
    cases sep with
    | none => exact fine_pure (fine_refused _)
    | some a =>
      simp only [next, Option.isNone_some, Bool.false_eq_true, if_false, pure_bind]
      rcases index a with _ | b
      · exact fine_pure (fine_refused _)
      · simp only [Option.isNone_some, Bool.false_eq_true, if_false, pure_bind]
        split
        · exact fine_pure (List.forall_mem_cons.mpr ⟨trivial, fine_attempt _ _ _⟩)
        · exact fine_pure (List.forall_mem_cons.mpr ⟨trivial, fine_refused _⟩)

theorem fine_setChargeTimer : Fine (setChargeTimer env sep) := by
  unfold setChargeTimer
  split
  · exact fine_pure (fine_refused _)
  · next v _ =>
    cases sep with
    | none => exact fine_pure (fine_refused _)
    | some a =>
      simp only [next, Option.isNone_some, Bool.false_eq_true, if_false, pure_bind]
      rcases index a with _ | b
      · exact fine_pure (fine_refused _)
      · exact fine_pure (fine_attempt _ _ _)

theorem fine_homelink : Fine (homelink env sep) := by
  unfold homelink
  split
  · exact fine_pure (fine_refused _)
  · cases sep with
    | none => exact fine_pure (fine_attempt _ _ _)
    | some a => exact fine_pure (fine_attempt _ _ _)

theorem fine_sendUssd : Fine (sendUssd env sep) := by
  cases sep with
  | none => exact fine_reply (by decide)
  | some a =>
    unfold sendUssd
    simp only [next, Option.isNone_some, Bool.false_eq_true, if_false, pure_bind]
    split
    · exact fine_reply (by decide)
    · exact fine_then_reply trivial (by decide)
    · exact fine_then_reply trivial (by decide)

theorem fine_sendAt : Fine (sendAt env sep) := by
  cases sep with
  | none => exact fine_reply (by decide)
  | some a =>
    unfold sendAt
    simp only [next, Option.isNone_some, Bool.false_eq_true, if_false, pure_bind]
    split
    · exact fine_then_reply trivial (by decide)
    · split <;>
        exact fine_then_reply trivial (by rw [List.append_assoc]; exact hasCode_reply _ _)

/-- **The switch**: what goes wrong is a line to execute that is not there, a parameter with a
negative number, and the empty reply to a reboot. -/
theorem fine_runCommand {command : ℤ} (hline : command = 7 → sep ≠ none)
    (hparam : command = 4 → ∀ a, sep = some a → 0 ≤ atoi a) (hboot : command ≠ 5) :
    Fine (runCommand env command sep) := by
  unfold runCommand
  split
  · exact fine_reply (hasCode_reply _ _)
  · next hpos =>
    have hcommand : ∀ n : ℕ, command.toNat = n → command = n := by omega
    split
    · exact fine_requestFeatures
    · exact fine_setFeature
    · exact fine_requestParameters
    · next h => exact fine_setParameter (hparam (hcommand _ h))
    · next h => exact absurd (hcommand _ h) hboot
    · exact fine_then_reply trivial (by decide)
    · next h =>
      obtain ⟨a, rfl⟩ := Option.ne_none_iff_exists'.mp (hline (hcommand _ h))
      exact fine_then_reply trivial (by
        have : (ascii "MP-0 c7,0,").length = 10 := by decide
        rw [List.length_append]
        omega)
    · exact fine_argumentCommand _ _
    · exact fine_plainCommand _ _
    · exact fine_plainCommand _ _
    · exact fine_argumentCommand _ _
    · exact fine_setChargeModeAndCurrent
    · exact fine_setChargeTimer
    · exact fine_plainCommand _ _
    · exact fine_plainCommand _ _
    · exact fine_argumentCommand _ _
    · exact fine_argumentCommand _ _
    · exact fine_argumentCommand _ _
    · exact fine_argumentCommand _ _
    · exact fine_homelink
    · exact fine_plainCommand _ _
    · exact fine_argumentCommand _ _
    · exact fine_sendUssd
    · exact fine_sendAt
    · exact fine_reply (hasCode_reply _ _)

/-- Messages with a code are sent. -/
theorem perform_ok {effects : List Effect} (h : ∀ e ∈ effects, e.HasCode) (s : Session) :
    ∃ s', perform s effects = .ok s' := by
  induction effects generalizing s with
  | nil => exact ⟨s, rfl⟩
  | cons e effects ih =>
    have hrest := ih fun e' he' => h e' (List.mem_cons_of_mem _ he')
    cases e with
    | transmit message =>
      have hcode : 6 ≤ message.length := h _ List.mem_cons_self
      obtain ⟨s', hs'⟩ := hrest { s with tx := (Crypt.rc4Crypt s.tx (s.plainText message)).2 }
      refine ⟨s', ?_⟩
      rw [perform, transmit, if_neg (by simp; omega)]
      exact hs'
    | vehicle | setParamValue | restart | notifyCommand | shell | modem => exact hrest s

/-- The empty reply to a reboot is sent unless it is to be written anew. -/
theorem perform_reboot (s : Session) :
    (∃ s', perform s [.restart, .transmit []] = .ok s') ↔ s.ptokenReady = false := by
  simp only [perform, transmit]
  cases s.ptokenReady with
  | false => exact iff_of_true ⟨_, rfl⟩ rfl
  | true =>
    refine iff_of_false ?_ Bool.true_eq_false_eq_False
    rintro ⟨s', hs'⟩
    cases hs'

variable (env)

/-- A payload that `ProcessCommand` can process: a command that the vehicle handles, or one that
is neither without the line to execute, nor with a negative number of a parameter, nor a reboot
in paranoid mode. -/
def SafeCommand (ready : Bool) (payload : Text) : Prop :=
  asked env (atoi payload) (index payload) ≠ none ∨
    ((atoi payload = 7 → index payload ≠ none) ∧
      (atoi payload = 4 → ∀ a, index payload = some a → 0 ≤ atoi a) ∧
      (atoi payload = 5 → ready = false))

/-- **The payloads that are processed without a fault.** -/
theorem processCommand_ok_iff (s : Session) (payload : Text) :
    (∃ s', processCommand env payload >>= perform s = .ok s') ↔
      SafeCommand env s.ptokenReady payload := by
  unfold processCommand processParsed SafeCommand
  rcases asked env (atoi payload) (index payload) with _ | ⟨success, text⟩
  · simp only [ne_eq, not_true_eq_false, false_or]
    constructor
    · rintro ⟨s', hs'⟩
      refine ⟨fun h7 hnone => ?_, fun h4 a ha => ?_, fun h5 => ?_⟩
      · rw [h7, hnone] at hs'
        cases hs'
      · by_contra hneg
        have herror : runCommand env 4 (some a) = .error .pmap := setParameter_neg (by omega)
        rw [h4, ha, herror] at hs'
        cases hs'
      · rw [h5] at hs'
        exact (perform_reboot s).mp ⟨s', hs'⟩
    · rintro ⟨h7, h4, h5⟩
      by_cases hboot : atoi payload = 5
      · rw [hboot]
        exact (perform_reboot s).mpr (h5 hboot)
      · have hfine : Fine (runCommand env (atoi payload) _) := fine_runCommand h7 h4 hboot
        obtain ⟨effects, heffects, hcodes⟩ := hfine
        rw [heffects]
        exact perform_ok hcodes s
  · refine iff_of_true ?_ (.inl (by simp))
    refine perform_ok (fun e he => ?_) s
    rw [List.mem_singleton.mp he, List.append_assoc]
    exact hasCode_reply _ _

end Ovms.ServerV2
