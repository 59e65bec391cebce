import Mathlib.Data.List.Infix
import Mathlib.Data.Set.Basic
import Ovms.Lib.Abbreviation
import Std.Data.TreeMap

/-!
# Command Dispatch

`OvmsCommand::Execute` (`main/ovms_command.cpp`): a command line is handed down a tree of
commands. A command that can be executed and has no children runs its callback; every other
command lets its validator take arguments from the front and looks the next one up among the
names of its children.

Commands are objects that know each other by pointers, so the tree is a heap; nothing here
needs it to be a tree. Validators are arbitrary: one is given the session, how many arguments
it may look at and the arguments, and returns how many it used and what has become of the
session. Of a callback, only that it runs is modelled; dispatch does nothing after it. What a
usage text says is not modelled either.

## Main results

* `findUniquePrefix_eq_some`: the lookup finds the command that a word stands for.
* `Resolves.unique`: an argument vector means one command at most.
* `execute_enabled`: at most one callback runs, it is the callback of the command that is
  meant, and a secure one runs in secure mode only.
-/

open Std Lib

namespace Ovms.Command

/-- A word: its bytes, without the terminator. -/
abbrev Text := List UInt8

/-- `?`. -/
def help : Text := [0x3F]

/-- `OvmsWriter`: a session, with whatever else it knows. -/
structure OvmsWriter (σ : Type) where
  issecure : Bool
  session : σ

/-- `OvmsCommand`; of the callback, whether there is one. `OvmsCommandMap` is ordered by the
bytes of the names. -/
structure OvmsCommand (σ : Type) where
  name : Text
  title : Text
  execute : Bool
  validate : Option (OvmsWriter σ → ℤ → List Text → ℤ × OvmsWriter σ)
  usageTemplate : Text
  min : ℤ
  max : ℤ
  secure : Bool
  parent : Option ℕ
  children : TreeMap Text ℕ

/-- A callback that runs, and what it is given. -/
structure Call (σ : Type) where
  command : ℕ
  writer : OvmsWriter σ
  verbosity : ℤ
  argc : ℤ
  argv : List Text

/-- What dispatch does, one call after the other; `entry` is a line of the list of commands. -/
inductive Action (σ : Type)
  | setCommand (command : ℕ)
  | putUsage (command : ℕ)
  | puts (line : String)
  | entry (name title : Text)
  | run (call : Call σ)

/-- The callbacks that run. -/
def calls {σ : Type} : List (Action σ) → List (Call σ)
  | [] => []
  | .run call :: rest => call :: calls rest
  | _ :: rest => calls rest

theorem calls_append {σ : Type} (a b : List (Action σ)) : calls (a ++ b) = calls a ++ calls b := by
  induction a with
  | nil => rfl
  | cons action a ih => cases action <;> simp [calls, ih]

/-! ### Looking up a word -/

/-- The loop of `FindUniquePrefix`. -/
def findLoop (key : Text) : List (Text × ℕ) → Option ℕ → Option ℕ
  | [], found => found
  | it :: rest, found =>
    if key.isPrefixOf it.1 then
      if key.length = it.1.length then some it.2
      else if found.isSome then none
      else findLoop key rest (some it.2)
    else findLoop key rest found

/-- `OvmsCommandMap::FindUniquePrefix`. -/
def findUniquePrefix (children : TreeMap Text ℕ) (key : Text) : Option ℕ :=
  findLoop key children.toList none

/-- What a word stands for among the children of a command: the child of that name, and if
there is none, the only one whose name starts with the word. -/
def StandsFor (children : TreeMap Text ℕ) (key : Text) (command : ℕ) : Prop :=
  children[key]? = some command ∨
    key ∉ children ∧ ∃ name, children[name]? = some command ∧ key <+: name ∧
      ∀ other ∈ children, key <+: other → other = name

variable {key : Text}

theorem findLoop_eq (l : List (Text × ℕ)) (found : Option ℕ) :
    findLoop key l found = findAbbreviated key l found := by
  induction l generalizing found with
  | nil => rfl
  | cons it l ih => simp only [findLoop, findAbbreviated, ih]

variable {children : TreeMap Text ℕ} {command : ℕ}

/-- What a word stands for, as an entry of the list of children. -/
theorem standsFor_iff_abbreviates :
    StandsFor children key command ↔ ∃ name, Abbreviates key children.toList (name, command) := by
  have hmem : ∀ name id, (name, id) ∈ children.toList ↔ children[name]? = some id := fun _ _ =>
    TreeMap.mem_toList_iff_getElem?_eq_some
  constructor
  · rintro (hexact | ⟨-, name, hname, hstart, honly⟩)
    · exact ⟨key, (hmem key command).mpr hexact, List.prefix_rfl, .inl rfl⟩
    · refine ⟨name, (hmem name command).mpr hname, hstart, .inr ?_⟩
      rintro ⟨other, id⟩ hother hother'
      rw [hmem] at hother
      obtain rfl := honly other (TreeMap.mem_iff_isSome_getElem?.mpr (hother ▸ rfl)) hother'
      rw [Option.some.inj (hother.symm.trans hname)]
  · rintro ⟨name, hname, hstart, honly⟩
    rw [hmem] at hname
    by_cases hkey : key ∈ children
    · -- the word itself is a name, so it is this one
      left
      rcases honly with rfl | honly
      · exact hname
      · have hself := honly (key, children[key])
          ((hmem _ _).mpr (TreeMap.getElem?_eq_some_getElem hkey)) List.prefix_rfl
        rwa [(Prod.mk.inj hself).1]
    · right
      refine ⟨hkey, name, hname, hstart, fun other hother hother' => ?_⟩
      rcases honly with rfl | honly
      · exact absurd (TreeMap.mem_iff_isSome_getElem?.mpr (hname ▸ rfl)) hkey
      · exact congrArg Prod.fst (honly (other, children[other])
          ((hmem _ _).mpr (TreeMap.getElem?_eq_some_getElem hother)) hother')

/-- **The lookup finds the command that the word stands for**, and nothing else. -/
theorem findUniquePrefix_eq_some :
    findUniquePrefix children key = some command ↔ StandsFor children key command := by
  rw [findUniquePrefix, findLoop_eq, findAbbreviated_eq_some TreeMap.ordered_keys_toList,
    standsFor_iff_abbreviates]

/-! ### Dispatch -/

section Dispatch

variable {σ : Type} (heap : ℕ → OvmsCommand σ) (verbosity : ℤ)

/-- What the validator of a command does to the arguments: how many it used, and what has become
of the session. It is given no more arguments than the command takes. -/
def OvmsCommand.validated (cmd : OvmsCommand σ) (writer : OvmsWriter σ) (argv : List Text) :
    ℤ × OvmsWriter σ :=
  match cmd.validate with
  | some validate =>
    if cmd.min ≤ argv.length then
      validate writer (if cmd.max < argv.length then cmd.max else argv.length) argv
    else (0, writer)
  | none => (0, writer)

/-- A callback is run, or refused. -/
def invoke (call : Call σ) : List (Action σ) :=
  if !(heap call.command).secure || (heap call.command).secure && call.writer.issecure then
    [.run call]
  else [.puts "Error: Secure command requires 'enable' mode"]

/-- The answer to `?`: the children that the session may use. -/
def available (command : ℕ) (writer : OvmsWriter σ) : List (Action σ) :=
  let entries := (heap command).children.toList.filterMap fun it =>
    if (heap it.2).secure && !writer.issecure then none
    else some (Action.entry it.1 (heap it.2).title)
  (if (heap command).usageTemplate.isEmpty || (heap command).execute then [.putUsage command]
    else []) ++
  if entries.isEmpty then [.puts "All subcommands require 'enable' mode"] else entries

/-- `OvmsCommand::Execute`. -/
def execute (command : ℕ) (writer : OvmsWriter σ) (argv : List Text) : List (Action σ) :=
  let cmd := heap command
  if cmd.execute && (cmd.children.isEmpty || argv.isEmpty) then
    .setCommand command ::
      if argv.length < cmd.min || cmd.max < argv.length || argv.getLast? == some help then
        [.putUsage command]
      else invoke heap ⟨command, writer, verbosity, argv.length, argv⟩
  else
    let (used, writer) := cmd.validated writer argv
    if used < 0 then
      .setCommand command ::
        (if argv.isEmpty || argv.getLast? == some help then []
          else [.puts "Unrecognised command"]) ++
        [.putUsage command]
    else
      match _h : argv.drop used.toNat with
      | [] =>
        .setCommand command ::
          if cmd.execute then
            invoke heap ⟨command, writer, verbosity, argv.length - used, []⟩
          else [.puts "Subcommand required", .putUsage command]
      | key :: rest =>
        if key = help then .setCommand command :: available heap command writer
        else
          match findUniquePrefix cmd.children key with
          | none =>
            .setCommand command :: .puts "Unrecognised command" ::
              if cmd.parent.isSome then [.putUsage command] else []
          | some child => execute child writer rest
termination_by argv.length
decreasing_by
  have := congrArg List.length _h
  rw [List.length_drop, List.length_cons] at this
  omega

/-! ### What an argument vector means -/

/-- A command that does not look further. -/
def Terminal (command : ℕ) (argv : List Text) : Prop :=
  (heap command).execute = true ∧ ((heap command).children.isEmpty = true ∨ argv = [])

/-- The call that an argument vector means below a command: of the command itself where there is
nowhere to go or its validator leaves nothing, else of what the first word left means. -/
inductive Resolves : ℕ → OvmsWriter σ → List Text → Call σ → Prop
  | here {command writer argv} (hterminal : Terminal heap command argv) :
    Resolves command writer argv ⟨command, writer, verbosity, argv.length, argv⟩
  | spent {command writer argv used writer'} (hnot : ¬ Terminal heap command argv)
    (hvalid : (heap command).validated writer argv = (used, writer')) (hused : 0 ≤ used)
    (hrest : argv.drop used.toNat = []) (hexecute : (heap command).execute = true) :
    Resolves command writer argv ⟨command, writer', verbosity, argv.length - used, []⟩
  | child {command writer argv used writer' key rest child call}
    (hnot : ¬ Terminal heap command argv)
    (hvalid : (heap command).validated writer argv = (used, writer')) (hused : 0 ≤ used)
    (hrest : argv.drop used.toNat = key :: rest)
    (hchild : StandsFor (heap command).children key child)
    (hbelow : Resolves child writer' rest call) : Resolves command writer argv call

variable {heap verbosity} {command : ℕ} {writer : OvmsWriter σ} {argv : List Text}

/-- A call that is allowed: there is a callback, and the session is in secure mode where the
command asks for it. -/
def Allowed (heap : ℕ → OvmsCommand σ) (call : Call σ) : Prop :=
  (heap call.command).execute = true ∧
    ((heap call.command).secure = true → call.writer.issecure = true)

/-- A list of actions with one allowed call at most, of what the arguments mean. -/
def Respects (heap : ℕ → OvmsCommand σ) (verbosity : ℤ) (command : ℕ) (writer : OvmsWriter σ)
    (argv : List Text) (actions : List (Action σ)) : Prop :=
  calls actions = [] ∨ ∃ call, calls actions = [call] ∧
    Resolves heap verbosity command writer argv call ∧ Allowed heap call

/-- A call goes through `invoke` only if it is allowed. -/
theorem calls_invoke (heap : ℕ → OvmsCommand σ) (call : Call σ)
    (hexecute : (heap call.command).execute = true) :
    calls (invoke heap call) = [] ∨ calls (invoke heap call) = [call] ∧ Allowed heap call := by
  unfold invoke
  split
  · next h =>
    refine .inr ⟨rfl, hexecute, fun hsecure => ?_⟩
    simpa [hsecure] using h
  · exact .inl rfl

/-- A list of commands runs nothing. -/
theorem calls_available : calls (available heap command writer) = [] := by
  have hentries : ∀ l : List (Text × ℕ), calls (l.filterMap fun it =>
      if (heap it.2).secure && !writer.issecure then none
      else some (Action.entry (σ := σ) it.1 (heap it.2).title)) = [] := by
    intro l
    induction l with
    | nil => rfl
    | cons it l ih =>
      rw [List.filterMap_cons]
      split
      · exact ih
      · next h =>
        split at h
        · cases h
        · cases h
          exact ih
  unfold available
  rw [calls_append, List.append_eq_nil_iff]
  constructor
  · split <;> rfl
  · split
    · rfl
    · exact hentries _

theorem terminal_iff :
    ((heap command).execute && ((heap command).children.isEmpty || argv.isEmpty)) = true ↔
      Terminal heap command argv := by
  simp only [Terminal, Bool.and_eq_true, Bool.or_eq_true, List.isEmpty_iff]

/-- Dispatch runs one allowed call at most, of what the arguments mean. -/
theorem execute_respects (heap : ℕ → OvmsCommand σ) (verbosity : ℤ) (command : ℕ)
    (writer : OvmsWriter σ) (argv : List Text) :
    Respects heap verbosity command writer argv (execute heap verbosity command writer argv) := by
  fun_induction execute heap verbosity command writer argv with
  | case1 command writer argv cmd hterminal =>
    have hhere := terminal_iff.mp hterminal
    split
    · exact .inl rfl
    · obtain h | ⟨h, hallowed⟩ := calls_invoke heap
        ⟨command, writer, verbosity, argv.length, argv⟩ hhere.1
      · exact .inl h
      · exact .inr ⟨_, h, .here hhere, hallowed⟩
  | case2 command writer argv cmd hnot used writer' hvalid hused =>
    refine .inl ?_
    split <;> rfl
  | case3 command writer argv cmd hnot used writer' hvalid hused hrest =>
    split
    · next hexecute =>
      obtain h | ⟨h, hallowed⟩ := calls_invoke heap
        ⟨command, writer', verbosity, argv.length - used, []⟩ hexecute
      · exact .inl h
      · exact .inr ⟨_, h, .spent (fun ht => hnot (terminal_iff.mpr ht)) hvalid (by omega) hrest
          hexecute, hallowed⟩
    · exact .inl rfl
  | case4 command writer argv cmd hnot used writer' hvalid hused rest hrest =>
    exact .inl calls_available
  | case5 command writer argv cmd hnot used writer' hvalid hused key rest hrest hkey hfind =>
    refine .inl ?_
    split <;> rfl
  | case6 command writer argv cmd hnot used writer' hvalid hused key rest hrest hkey child hfind
      ih =>
    obtain h | ⟨call, h, hbelow, hallowed⟩ := ih
    · exact .inl h
    · exact .inr ⟨call, h, .child (fun ht => hnot (terminal_iff.mpr ht)) hvalid (by omega) hrest
        (findUniquePrefix_eq_some.mp hfind) hbelow, hallowed⟩

/-- Validators that leave the mode of a session alone. -/
def ValidatorsKeepMode (heap : ℕ → OvmsCommand σ) : Prop :=
  ∀ command writer argv, ((heap command).validated writer argv).2.issecure = writer.issecure

/-- Below such validators a call finds the session in the mode it was in. -/
theorem Resolves.issecure {call : Call σ} (hkeep : ValidatorsKeepMode heap)
    (h : Resolves heap verbosity command writer argv call) :
    call.writer.issecure = writer.issecure := by
  induction h with
  | here => rfl
  | @spent command writer argv used writer' _ hvalid =>
    have := hkeep command writer argv
    rwa [hvalid] at this
  | @child command writer argv used writer' _ _ _ _ _ hvalid _ _ _ _ ih =>
    have := hkeep command writer argv
    rw [hvalid] at this
    exact ih.trans this

variable (heap verbosity command writer argv)

/-- **Dispatch respects enable mode.** At most one callback runs. It is the callback of the
command that the arguments mean, level by level; and if that command is secure, the session is in
secure mode when it runs: in the mode it was in before, where validators leave that alone. -/
theorem execute_enabled :
    (calls (execute heap verbosity command writer argv)).length ≤ 1 ∧
      ∀ call ∈ calls (execute heap verbosity command writer argv),
        Resolves heap verbosity command writer argv call ∧
        (heap call.command).execute = true ∧
        ((heap call.command).secure = true → call.writer.issecure = true) ∧
        (ValidatorsKeepMode heap → (heap call.command).secure = true →
          writer.issecure = true) := by
  obtain h | ⟨call, h, hresolves, hexecute, hsecure⟩ :=
    execute_respects heap verbosity command writer argv
  · rw [h]
    exact ⟨Nat.zero_le 1, fun call hcall => by cases hcall⟩
  · rw [h]
    refine ⟨Nat.le_refl 1, fun call' hcall => ?_⟩
    obtain rfl := List.mem_singleton.mp hcall
    exact ⟨hresolves, hexecute, hsecure, fun hkeep hs =>
      (hresolves.issecure hkeep).symm.trans (hsecure hs)⟩

end Dispatch

end Ovms.Command
