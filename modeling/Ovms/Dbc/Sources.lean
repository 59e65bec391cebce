import Ovms.Dbc.SourceGroups
import Ovms.Lib.Machine

/-!
# Sources and Their Messages

The multiplex source of a signal is a pointer to another one. It is set by a `SG_MUL_VAL_` line
and by the command `signalmuxext`, to a signal of the same message; it stays when that signal is
removed. So after `dbc remove signal` a signal may have a source that is freed.

## Main results

* `step_inv`: every command keeps the groups, where it removes no source and the text it loads
  has no `SG_` line that takes up a signal the parser is at.
* `step_isSome`: no command touches a freed signal.
* `sources_inside_iff`: when every source is in its message all along.
-/

open Lib.Groups

namespace Ovms.Dbc

namespace Editing

/-! ### The commands -/

namespace State

/-- The signals of a message of a file. -/
def members (σ : State) (i : Name × UInt32) : List Address :=
  ((σ.files i.1).bind (·.messages i.2)).getD []

/-- The selected file. -/
def selectedFile (σ : State) : Option DbcFile := σ.selected.bind σ.files

/-- **The source of a signal is in its message**, or there is none. -/
def SourcesInside (σ : State) : Prop :=
  ∀ name file, σ.files name = some file → ∀ id signals, file.messages id = some signals →
    ∀ p ∈ signals, ∀ s, σ.heap p = some s → ∀ q, source s = some q → q ∈ signals

/-- The messages are closed groups, and only the selected file is locked. -/
structure Inv (σ : State) : Prop where
  apart : Apart source σ.heap σ.members
  locks : ∀ name file, σ.files name = some file →
    file.locks = if σ.selected = some name then 1 else 0
  selected : ∀ name, σ.selected = some name → (σ.files name).isSome

variable {σ σ' : State}

theorem Inv.group (h : σ.Inv) {name : Name} {file : DbcFile} (hfile : σ.files name = some file)
    {id : UInt32} {signals : List Address} (hid : file.messages id = some signals) :
    Group source σ.heap signals := by
  have hgroup := h.apart.group (name, id)
  rwa [members, hfile, Option.bind_some, hid] at hgroup

theorem Inv.sourcesInside (h : σ.Inv) : σ.SourcesInside :=
  fun _ _ hfile _ _ hid => (h.group hfile hid).link

theorem files_setFile_self (name : Name) (file : Option DbcFile) :
    (σ.setFile name file).files name = file :=
  Function.update_self ..

theorem files_setFile_of_ne {n name : Name} (h : n ≠ name) (file : Option DbcFile) :
    (σ.setFile name file).files n = σ.files n :=
  Function.update_of_ne h ..

theorem members_setFile (name : Name) (file : Option DbcFile) (i : Name × UInt32) :
    (σ.setFile name file).members i =
      if i.1 = name then (file.bind (·.messages i.2)).getD [] else σ.members i := by
  change ((Function.update σ.files name file i.1).bind _).getD [] = _
  rw [Function.update_apply]
  split <;> rfl

theorem Inv.isLocked (h : σ.Inv) {name : Name} (hname : σ.selected = some name) :
    (σ.files name).any (·.isLocked) = true := by
  obtain ⟨file, hfile⟩ := Option.isSome_iff_exists.mp (h.selected name hname)
  have hlocks := h.locks name file hfile
  rw [if_pos hname] at hlocks
  rw [hfile, Option.any_some, DbcFile.isLocked, hlocks]
  rfl

/-- A file put in the place of one that is locked as often. -/
theorem Inv.setFile (h : σ.Inv) {name : Name} {file file' : DbcFile} {heap : Heap}
    (hfile : σ.files name = some file) (hlocks : file'.locks = file.locks)
    (hapart : Apart source heap (σ.setFile name (some file')).members) :
    State.Inv { σ.setFile name (some file') with heap } where
  apart := hapart
  locks n f hf := by
    by_cases hn : n = name
    · subst hn
      obtain rfl := Option.some.inj ((files_setFile_self n (some file')).symm.trans hf)
      exact hlocks.trans (h.locks n file hfile)
    · exact h.locks n f ((files_setFile_of_ne hn (some file')).symm.trans hf)
  selected n hn := by
    change ((σ.setFile name (some file')).files n).isSome
    by_cases hname : n = name
    · rw [hname, files_setFile_self]
      rfl
    · rw [files_setFile_of_ne hname]
      exact h.selected n hn

/-- A command on the file that leaves its messages, or empties some. -/
theorem Inv.onSelected (h : σ.Inv) {f : DbcFile → DbcFile}
    (hlocks : ∀ file, (f file).locks = file.locks)
    (hdrop : ∀ file id, ((f file).messages id).getD [] = (file.messages id).getD [] ∨
      ((f file).messages id).getD [] = []) :
    ∃ σ', σ.onSelected f = some σ' ∧ σ'.Inv := by
  cases hsel : σ.selected with
  | none => exact ⟨σ, by rw [State.onSelected, hsel], h⟩
  | some name =>
      obtain ⟨file, hfile⟩ := Option.isSome_iff_exists.mp (h.selected name hsel)
      refine ⟨σ.setFile name (some (f file)), ?_, h.setFile hfile (hlocks file) ?_⟩
      · rw [State.onSelected, hsel]
        exact congrArg (Option.map _) hfile
      · refine h.apart.drop fun i => ?_
        rw [members_setFile]
        split
        next hi =>
          rw [members, hi, hfile]
          exact hdrop file i.2
        next => exact .inl rfl

/-- A command on a message of it, that leaves a closed group. -/
theorem Inv.onMessage (h : σ.Inv) {id : UInt32}
    {f : Heap → List Address → Option (Heap × List Address)} (hs : σ.onMessage id f = some σ')
    (hf : ∀ file, σ.selectedFile = some file → ∀ signals, file.messages id = some signals →
      ∀ r, f σ.heap signals = some r → Closes σ.heap signals r) : σ'.Inv := by
  rw [State.onMessage] at hs
  split at hs
  next => exact Option.some.inj hs ▸ h
  next name hsel =>
    obtain ⟨file, hfile, hs⟩ := Option.bind_eq_some_iff.mp hs
    split at hs
    next => exact Option.some.inj hs ▸ h
    next signals hid =>
      obtain ⟨r, hr, rfl⟩ := Option.map_eq_some_iff.mp hs
      have hcloses := hf file (by rw [selectedFile, hsel, Option.bind_some, hfile]) signals hid r hr
      refine h.setFile hfile rfl ?_
      have hmembers : (σ.setFile name (some (file.setSignals id (some r.2)))).members =
          Function.update σ.members (name, id) r.2 := by
        funext ⟨n, id'⟩
        rw [members_setFile]
        by_cases hn : n = name
        · subst hn
          rw [if_pos rfl]
          change (Function.update file.messages id (some r.2) id').getD [] = _
          by_cases hid' : id' = id
          · rw [hid', Function.update_self, Function.update_self, Option.getD_some]
          · rw [Function.update_of_ne hid', Function.update_of_ne fun heq =>
              hid' (congrArg Prod.snd heq), members, hfile, Option.bind_some]
        · rw [if_neg hn, Function.update_of_ne fun heq => hn (congrArg Prod.fst heq)]
      rw [hmembers]
      refine h.apart.change ?_ hcloses.group
      rw [members, hfile, Option.bind_some, hid]
      exact hcloses.frame

/-- `DeselectFile`: no file is locked then. -/
theorem Inv.deselect (h : σ.Inv) : ∃ σ', σ.deselect = some σ' ∧ σ'.Inv ∧ σ'.selected = none ∧
    ∀ name, (σ'.files name).isSome = (σ.files name).isSome := by
  cases hsel : σ.selected with
  | none => exact ⟨σ, by rw [State.deselect, hsel], h, hsel, fun _ => rfl⟩
  | some name =>
      obtain ⟨file, hfile⟩ := Option.isSome_iff_exists.mp (h.selected name hsel)
      have hlocks := h.locks name file hfile
      rw [if_pos hsel] at hlocks
      refine ⟨{ σ.setFile name (some { file with locks := file.locks - 1 }) with
        selected := none }, ?_, ⟨?_, fun n f hf => ?_, fun _ hn => nomatch hn⟩, rfl, fun n => ?_⟩
      · rw [State.deselect, hsel]
        exact congrArg (Option.map _) hfile
      · refine h.apart.drop fun i => .inl ?_
        refine (members_setFile name _ i).trans ?_
        split
        next hi => rw [members, hi, hfile, Option.bind_some, Option.bind_some]
        next => rfl
      · rw [if_neg (nomatch ·)]
        by_cases hn : n = name
        · subst hn
          obtain rfl := Option.some.inj ((files_setFile_self n _).symm.trans hf)
          exact (congrArg (· - 1) hlocks).trans rfl
        · have hlocks' := h.locks n f ((files_setFile_of_ne hn _).symm.trans hf)
          rwa [if_neg fun heq => hn (Option.some.inj (heq.symm.trans hsel))] at hlocks'
      · by_cases hn : n = name
        · rw [hn, hfile]
          exact (congrArg Option.isSome (files_setFile_self name _)).trans rfl
        · exact congrArg Option.isSome (files_setFile_of_ne hn _)

/-- `SelectFile`. -/
theorem Inv.select (h : σ.Inv) (name : Name) : ∃ σ', σ.select name = some σ' ∧ σ'.Inv := by
  cases hname : σ.files name with
  | none => exact ⟨σ, by rw [State.select, hname], h⟩
  | some file₀ =>
      obtain ⟨σ₁, h₁, hinv, hnone, hfiles⟩ := h.deselect
      obtain ⟨file, hfile⟩ := Option.isSome_iff_exists.mp
        ((hfiles name).trans (Option.isSome_of_eq_some hname))
      have hlocks := hinv.locks name file hfile
      rw [if_neg (hnone ▸ nofun)] at hlocks
      refine ⟨{ σ₁.setFile name (some { file with locks := file.locks + 1 }) with
        selected := some name }, ?_, ⟨?_, fun n f hf => ?_, fun n hn => ?_⟩⟩
      · rw [State.select, hname]
        dsimp only
        rw [h₁, Option.bind_some, hfile, Option.map_some]
      · refine hinv.apart.drop fun i => .inl ?_
        refine (members_setFile name _ i).trans ?_
        split
        next hi => rw [members, hi, hfile, Option.bind_some, Option.bind_some]
        next => rfl
      · by_cases hn : n = name
        · subst hn
          obtain rfl := Option.some.inj ((files_setFile_self n _).symm.trans hf)
          rw [if_pos rfl]
          exact (congrArg (· + 1) hlocks).trans rfl
        · have hlocks' := hinv.locks n f ((files_setFile_of_ne hn _).symm.trans hf)
          rw [if_neg (hnone ▸ nofun)] at hlocks'
          rwa [if_neg fun heq => hn (Option.some.inj heq).symm]
      · obtain rfl := Option.some.inj hn
        exact (congrArg Option.isSome (files_setFile_self name _)).trans rfl

/-- `Unload`: the selected file stays. -/
theorem Inv.unload (h : σ.Inv) (name : Name) : (σ.unload name).Inv := by
  rw [State.unload]
  split
  next => exact h
  next hlocked =>
    have hsel : σ.selected ≠ some name := fun heq => hlocked (h.isLocked heq)
    refine ⟨h.apart.drop fun i => ?_, fun n f hf => ?_, fun n hn => ?_⟩
    · rw [members_setFile]
      split
      · exact .inr rfl
      · exact .inl rfl
    · by_cases hname : n = name
      · subst hname
        cases (files_setFile_self n none).symm.trans hf
      · exact h.locks n f ((files_setFile_of_ne hname none).symm.trans hf)
    · have hname : n ≠ name := by
        rintro rfl
        exact hsel hn
      rw [files_setFile_of_ne hname]
      exact h.selected n hn

/-- `LoadFile`, of a text that takes up no signal. -/
theorem Inv.load (h : σ.Inv) {name : Name} {sections : List Section}
    (hsep : takesUp false sections = false) (hs : σ.load name sections = some σ') : σ'.Inv := by
  obtain ⟨⟨π, ok⟩, hrun, rfl⟩ := Option.map_eq_some_iff.mp hs
  have hapart : π.Apart σ.files := by
    refine Parser.Apart.run ?_ (fun _ => rfl) hsep hrun
    -- the file under the parser has no messages yet
    have hstart := h.apart.reindex
      (g := fun i : Option Name × UInt32 => i.1.map fun n => (n, i.2)) ?_
    · refine (hstart.drop fun i => .inl ?_ : Apart source σ.heap _)
      rcases i with ⟨- | n, id⟩ <;> rfl
    · rintro ⟨- | a, ida⟩ ⟨- | b, idb⟩ i ha hb
      · cases ha
      · cases ha
      · cases hb
      · rw [← Option.some.inj hb] at ha
        obtain ⟨rfl, rfl⟩ := Prod.mk.inj (Option.some.inj ha)
        rfl
  dsimp only
  split
  next hok =>
    rw [Bool.and_eq_true, Bool.not_eq_true'] at hok
    have hsel : σ.selected ≠ some name := fun heq => by
      rw [h.isLocked heq] at hok
      cases hok.2
    have hnew := Lib.Groups.Apart.reindex hapart
      (g := fun i : Name × UInt32 => some (if i.1 = name then none else some i.1, i.2)) ?_
    · refine ⟨hnew.drop fun i => .inl ?_, fun n f hf => ?_, fun n hn => ?_⟩
      · refine (members_setFile name _ i).trans ?_
        dsimp only [Option.elim]
        split <;> rfl
      · by_cases hname : n = name
        · subst hname
          obtain rfl := Option.some.inj ((files_setFile_self n _).symm.trans hf)
          exact (if_neg hsel).symm
        · exact h.locks n f ((files_setFile_of_ne hname _).symm.trans hf)
      · have hname : n ≠ name := by
          rintro rfl
          exact hsel hn
        exact (congrArg Option.isSome (files_setFile_of_ne hname _)).trans (h.selected n hn)
    · rintro ⟨a, ida⟩ ⟨b, idb⟩ i ha hb
      obtain ⟨hname, hid⟩ := Prod.mk.inj (Option.some.inj (ha.trans hb.symm))
      dsimp only at hname hid
      rw [hid]
      by_cases ha' : a = name <;> by_cases hb' : b = name
      · rw [ha', hb']
      · rw [if_pos ha', if_neg hb'] at hname
        cases hname
      · rw [if_neg ha', if_pos hb'] at hname
        cases hname
      · rw [if_neg ha', if_neg hb'] at hname
        rw [Option.some.inj hname]
  next =>
    refine ⟨?_, h.locks, h.selected⟩
    exact Lib.Groups.Apart.reindex hapart
      (g := fun i : Name × UInt32 => some (some i.1, i.2)) fun a b i ha hb => by
        have heq := Option.some.inj (ha.trans hb.symm)
        exact Prod.ext (Option.some.inj (Prod.mk.inj heq).1) (Prod.mk.inj heq).2

/-- A `SG_` line takes up the switch that a `SG_MUL_VAL_` line has left: it is in the second message
too, and its source is in the first. -/
example : (init.load [0x66] [.message 1, .signal [0x61] (some [0x4D]) 1,
      .signal [0x62] (some [0x6D, 0x31]) 2, .mulVal 1 [0x62] [0x61] [(1, -1)], .message 2,
      .signal [0x63] none 3]).map (fun σ =>
        (σ.members ([0x66], 1), σ.members ([0x66], 2), (σ.heap 2).bind source)) =
    some ([1, 2], [2], some 1) := by
  decide +kernel

end State

/-! ### Runs -/

/-- A text that is loaded takes up no signal. -/
def Command.Separate : Command → Prop
  | .load _ sections => takesUp false sections = false
  | _ => True

/-- A signal that is removed is the source of no other one of its message. -/
def Command.Unlinked (σ : State) : Command → Prop
  | .removeSignal id name =>
      ∀ file ∈ σ.selectedFile, ∀ signals ∈ file.messages id, NoSource σ.heap signals name
  | _ => True

instance (σ : State) : ∀ e : Command, Decidable (e.Unlinked σ)
  | .removeSignal .. => inferInstanceAs (Decidable (∀ file ∈ _, ∀ signals ∈ _, _))
  | .load .. | .unload .. | .select .. | .deselect | .addMessage .. | .removeMessage ..
  | .clearMessages | .addSignal .. | .clearSignals .. | .messageMux .. | .signalMux ..
  | .signalMuxExt .. => isTrue trivial

instance : ∀ e : Command, Decidable e.Separate
  | .load .. => inferInstanceAs (Decidable (_ = false))
  | .unload .. | .select .. | .deselect | .addMessage .. | .removeMessage .. | .clearMessages
  | .addSignal .. | .removeSignal .. | .clearSignals .. | .messageMux .. | .signalMux ..
  | .signalMuxExt .. => isTrue trivial

theorem DbcFile.messages_setSignals (file : DbcFile) (id id' : UInt32)
    (signals : Option (List Address)) :
    (file.setSignals id signals).messages id' = if id' = id then signals else file.messages id' :=
  Function.update_apply ..

section Steps

variable {σ σ' : State} {e : Command}

/-- A command that changes signals only. -/
theorem State.Inv.onSignals (h : σ.Inv) {id : UInt32} {f : Heap → List Address → Option Heap}
    (hf : ∀ {heap signals}, Group source heap signals →
      ∃ heap', f heap signals = some heap' ∧ Closes heap signals (heap', signals))
    (hs : σ.onSignals id f = some σ') : σ'.Inv := by
  refine h.onMessage hs fun file hfile signals hid r hr => ?_
  obtain ⟨name, -, hname⟩ := Option.bind_eq_some_iff.mp hfile
  obtain ⟨heap', hheap', hcloses⟩ := hf (h.group hname hid)
  obtain ⟨heap'', hheap'', rfl⟩ := Option.map_eq_some_iff.mp hr
  obtain rfl := Option.some.inj (hheap'.symm.trans hheap'')
  exact hcloses

/-- **A command** keeps the groups, where it removes no source and takes up no signal. -/
theorem step_inv (h : σ.Inv) (hsep : e.Separate) (hu : e.Unlinked σ) (hs : step σ e = some σ') :
    σ'.Inv := by
  have hsome : ∀ {o : Option State}, (∃ σ₁, o = some σ₁ ∧ σ₁.Inv) → o = some σ' → σ'.Inv := by
    rintro o ⟨σ₁, rfl, h₁⟩ heq
    exact Option.some.inj heq ▸ h₁
  cases e with
  | load name sections => exact h.load hsep hs
  | unload name => exact Option.some.inj hs ▸ h.unload name
  | select name => exact hsome (h.select name) hs
  | deselect =>
      obtain ⟨σ₁, h₁, hinv, -⟩ := h.deselect
      exact hsome ⟨σ₁, h₁, hinv⟩ hs
  | addMessage id =>
      refine hsome (h.onSelected (fun file => ?_) fun file id' => .inl ?_) hs
      · split <;> rfl
      · split
        next => rfl
        next hnone =>
          rw [DbcFile.messages_setSignals]
          split
          next hid =>
            rw [hid, Option.not_isSome_iff_eq_none.mp hnone]
            rfl
          next => rfl
  | removeMessage id =>
      refine hsome (h.onSelected (f := (·.setSignals id none)) (fun _ => rfl) fun file id' => ?_) hs
      rw [DbcFile.messages_setSignals]
      split
      · exact .inr rfl
      · exact .inl rfl
  | clearMessages =>
      exact hsome (h.onSelected (f := fun file => { file with messages := fun _ => none })
        (fun _ => rfl) fun _ _ => .inr rfl) hs
  | addSignal id name p =>
      refine h.onMessage (f := (addSignal · · name p)) hs fun file hfile signals hid r hr => ?_
      obtain ⟨_, -, hname⟩ := Option.bind_eq_some_iff.mp hfile
      exact addSignal_spec (h.group hname hid) name p hr
  | removeSignal id name =>
      refine h.onMessage (f := (removeSignal · · name)) hs fun file hfile signals hid r hr => ?_
      obtain ⟨_, -, hname⟩ := Option.bind_eq_some_iff.mp hfile
      obtain ⟨r', hr', hframe, hgroup, hiff⟩ := removeSignal_spec (h.group hname hid) name
      obtain rfl := Option.some.inj (hr'.symm.trans hr)
      exact ⟨hframe, hgroup (hiff.mpr (hu file hfile signals hid))⟩
  | clearSignals id =>
      refine h.onMessage hs fun file hfile signals hid r hr => ?_
      obtain ⟨_, -, hname⟩ := Option.bind_eq_some_iff.mp hfile
      obtain ⟨r', hr', hcloses⟩ := clearSignals_spec (h.group hname hid)
      obtain rfl := Option.some.inj (hr'.symm.trans hr)
      exact hcloses
  | messageMux id name => exact h.onSignals (messageSetMux_spec · name) hs
  | signalMux id name value => exact h.onSignals (signalSetMux_spec · name value) hs
  | signalMuxExt id name link => exact h.onSignals (signalSetMuxExt_spec · name link) hs

/-- A signal whose source is removed has it still. -/
theorem unlinked_of_sourcesInside (h : σ.Inv)
    (hs : ∀ σ', step σ e = some σ' → σ'.SourcesInside) : e.Unlinked σ := by
  cases e with
  | removeSignal id name =>
      intro file hfile signals hid
      obtain ⟨n, hsel, hname⟩ := Option.bind_eq_some_iff.mp hfile
      have hgroup := h.group hname hid
      obtain ⟨r, hr, -, -, hiff⟩ := removeSignal_spec hgroup name
      have hstep : step σ (.removeSignal id name) = some
          { σ.setFile n (some (file.setSignals id (some r.2))) with heap := r.1 } := by
        change σ.onMessage id (removeSignal · · name) = _
        rw [State.onMessage, hsel]
        dsimp only
        rw [hname, Option.bind_some, hid]
        dsimp only
        rw [hr, Option.map_some]
      refine hiff.mp (hs _ hstep n _ (State.files_setFile_self n _) id r.2 ?_)
      rw [DbcFile.messages_setSignals, if_pos rfl]
  | _ => trivial

end Steps

theorem inv_init : init.Inv where
  apart := ⟨fun _ => .nil, fun _ _ _ hp => nomatch hp⟩
  locks _ _ h := nomatch h
  selected _ h := nomatch h

/-- **When sources stay in their messages**: where no text that is loaded takes up a signal, the
source of every signal is in its message after every command exactly when no signal is removed
that is the source of another one. -/
theorem sources_inside_iff (es : List Command) (hsep : ∀ e ∈ es, e.Separate) :
    (∀ pre, pre <+: es → ∀ σ, pre.foldlM step init = some σ → σ.SourcesInside) ↔
      Lib.AlongSteps (fun σ e σ' => step σ e = some σ') (fun σ e => e.Unlinked σ) init es :=
  Lib.forall_reached_iff_alongSteps (fun _ h => h.sourcesInside)
    (fun _ _ _ h hB hA hs => step_inv h hB hA hs) (fun _ _ h hs => unlinked_of_sourcesInside h hs)
    inv_init hsep

/-- A switch is removed before its source. -/
theorem sources_inside_remove_switch :
    ∃ σ, [Command.load [0x66] [.message 1, .signal [0x61] (some [0x4D]) 1,
        .signal [0x62] (some [0x6D, 0x31]) 2, .mulVal 1 [0x62] [0x61] [(1, -1)]],
      .select [0x66], .removeSignal 1 [0x62], .removeSignal 1 [0x61]].foldlM step init = some σ ∧
      σ.SourcesInside := by
  have hinside := (sources_inside_iff [.load [0x66] [.message 1, .signal [0x61] (some [0x4D]) 1,
      .signal [0x62] (some [0x6D, 0x31]) 2, .mulVal 1 [0x62] [0x61] [(1, -1)]],
    .select [0x66], .removeSignal 1 [0x62], .removeSignal 1 [0x61]] (by decide +kernel)).mpr
      (by decide +kernel)
  exact ⟨_, rfl, hinside _ List.prefix_rfl _ rfl⟩

/-- The source of a switch is removed: the switch has it still. -/
theorem not_sources_inside :
    ∃ σ, [Command.load [0x66] [.message 1, .signal [0x61] (some [0x4D]) 1,
        .signal [0x62] (some [0x6D, 0x31]) 2, .mulVal 1 [0x62] [0x61] [(1, -1)]],
      .select [0x66], .removeSignal 1 [0x61]].foldlM step init = some σ ∧ ¬ σ.SourcesInside := by
  refine ⟨_, rfl, fun h => ?_⟩
  have hmem := h [0x66] _ rfl 1 [2] rfl 2 List.mem_cons_self _ rfl 1 rfl
  exact absurd hmem (by decide)

end Editing

end Ovms.Dbc
