import Ovms.Dbc.Editing
import Ovms.Lib.Groups

/-!
# The Signals of a Message as a Group

The signals of the messages are groups of linked objects, one for each message of each file. A
command on a message changes one of them; so does a section of a text, to the file under the
parser, which is one more file until it is put in its place.
-/

open Lib.Groups

namespace Ovms.Dbc

namespace Editing

/-- The source of a signal. -/
abbrev source (s : Signal) : Option Address := s.mux.source

/-- What a command has made of the signals of a message: others are left alone, and these are a
closed group. -/
structure Closes (heap : Heap) (signals : List Address) (r : Heap × List Address) : Prop where
  frame : Frame heap r.1 signals r.2
  group : Group source r.1 r.2

theorem Closes.refl {heap : Heap} {signals : List Address} (h : Group source heap signals) :
    Closes heap signals (heap, signals) :=
  ⟨.refl, h⟩

theorem Closes.trans {heap : Heap} {signals : List Address} {r r' : Heap × List Address}
    (h : Closes heap signals r) (h' : Closes r.1 r.2 r') : Closes heap signals r' :=
  ⟨h.frame.trans h'.frame, h'.group⟩

/-- A change of a multiplexor that sets the source to one of some signals, if it sets it. -/
def KeepsIn (signals : List Address) (f : DbcMultiplexor → DbcMultiplexor) : Prop :=
  ∀ mux, (f mux).source = mux.source ∨ ∀ q, (f mux).source = some q → q ∈ signals

section Signals

variable {heap heap' : Heap} {signals : List Address}

/-- What is found is one of the signals. -/
theorem mem_of_find {c : Signal → Bool} {p : Address}
    (h : heap.find c signals = some (some p)) : p ∈ signals := by
  induction signals with
  | nil => cases h
  | cons q ps ih =>
      rw [Heap.find, Option.bind_eq_some_iff] at h
      obtain ⟨s, -, h⟩ := h
      split at h
      · obtain rfl := Option.some.inj (Option.some.inj h)
        exact List.mem_cons_self
      · exact List.mem_cons_of_mem _ (ih h)

/-- The signals of a group can be looked through. -/
theorem exists_find {c : Signal → Bool} (h : ∀ p ∈ signals, (heap p).isSome) :
    ∃ found, heap.find c signals = some found := by
  induction signals with
  | nil => exact ⟨none, rfl⟩
  | cons p ps ih =>
      obtain ⟨s, hs⟩ := Option.isSome_iff_exists.mp (h p List.mem_cons_self)
      rw [Heap.find, hs, Option.bind_some]
      split
      · exact ⟨some p, rfl⟩
      · exact ih fun q hq => h q (List.mem_cons_of_mem _ hq)

/-- A multiplexor of a member changed. -/
theorem modify_spec (h : Group source heap signals) {p : Address} (hp : p ∈ signals)
    {f : DbcMultiplexor → DbcMultiplexor} (hf : KeepsIn signals f) :
    ∃ heap', heap.modify p f = some heap' ∧ Closes heap signals (heap', signals) := by
  obtain ⟨s, hs⟩ := Option.isSome_iff_exists.mp (h.alive p hp)
  refine ⟨Function.update heap p (some { s with mux := f s.mux }), ?_, .update hp,
    h.update fun q hq => ?_⟩
  · rw [Heap.modify, hs, Option.map_some]
  rcases hf s.mux with heq | hin
  · exact h.link p hp s hs q (heq.symm.trans hq)
  · exact hin q hq

/-- Looked up, and changed. -/
theorem modifyFound_spec (h : Group source heap signals) (name : Name)
    {f : DbcMultiplexor → DbcMultiplexor} (hf : KeepsIn signals f) :
    ∃ heap', heap.modifyFound signals name f = some heap' ∧
      Closes heap signals (heap', signals) := by
  obtain ⟨found, hfound⟩ := exists_find (c := (·.name == name)) h.alive
  rw [Heap.modifyFound, Heap.findSignal, hfound, Option.bind_some]
  cases found with
  | none => exact ⟨heap, rfl, .refl h⟩
  | some p => exact modify_spec h (mem_of_find hfound) hf

theorem Heap.new_eq_some {name : Name} {p : Address} : heap.new p name = some heap' ↔
    heap p = none ∧ Function.update heap p (some ⟨name, .new⟩) = heap' := by
  rw [Heap.new, Option.ite_none_right_eq_some, Option.some.injEq]

theorem ne_of_isSome {p q : Address} (hp : heap p = none) (hq : (heap q).isSome) : q ≠ p := by
  rintro rfl
  rw [hp] at hq
  cases hq

theorem Closes.new (h : Group source heap signals) {name : Name} {p : Address}
    (hnew : heap.new p name = some heap') : Closes heap signals (heap', signals ++ [p]) := by
  obtain ⟨hp, rfl⟩ := Heap.new_eq_some.mp hnew
  exact ⟨.concat hp, h.concat hp rfl⟩

/-! ### The commands on a message -/

theorem keepsIn_setMultiplexSource : KeepsIn signals .setMultiplexSource :=
  fun _ => .inl (DbcMultiplexor.source_setMultiplexSource _)

theorem keepsIn_clearMultiplexed : KeepsIn signals .clearMultiplexed :=
  fun _ => .inl (DbcMultiplexor.source_clearMultiplexed _)

theorem keepsIn_setMultiplexed (value : UInt32) : KeepsIn signals (·.setMultiplexed value) := by
  intro mux
  rcases DbcMultiplexor.source_setMultiplexed mux value with h | h
  · exact .inl h
  · refine .inr fun q hq => ?_
    rw [h] at hq
    cases hq

theorem keepsIn_setSource {q : Address} (hq : q ∈ signals) (ranges : List SwitchRange)
    (f : DbcMultiplexor → DbcMultiplexor) :
    KeepsIn signals fun mux => ranges.foldl .addMultiplexRange ((f mux).setSource q) := by
  refine fun mux => .inr fun r hr => ?_
  rw [DbcMultiplexor.source_foldl_addMultiplexRange] at hr
  obtain rfl := Option.some.inj hr
  exact hq

theorem keepsIn_setRanges {q : Address} (hq : q ∈ signals) (ranges : List SwitchRange) :
    KeepsIn signals (·.setRanges q ranges) := by
  cases ranges with
  | nil => exact fun _ => .inl rfl
  | cons range ranges => exact keepsIn_setSource hq _ (·.setMultiplexed range.minVal)

/-- `SetMultiplexorSignal`, of a member. -/
theorem setMultiplexorSignal_spec (h : Group source heap signals) {p : Option Address}
    (hp : ∀ q, p = some q → q ∈ signals) :
    ∃ heap', setMultiplexorSignal heap signals p = some heap' ∧
      Closes heap signals (heap', signals) := by
  cases p with
  | some p => exact modify_spec h (hp p rfl) keepsIn_setMultiplexSource
  | none =>
      obtain ⟨found, hfound⟩ := exists_find (c := fun s =>
        s.mux.isMainMultiplexSource && s.mux.source.isNone) h.alive
      rw [setMultiplexorSignal, Heap.getMultiplexorSignal, hfound, Option.bind_some]
      cases found with
      | none => exact ⟨heap, rfl, .refl h⟩
      | some q => exact modify_spec h (mem_of_find hfound) keepsIn_clearMultiplexed

theorem messageSetMux_spec (h : Group source heap signals) (name : Option Name) :
    ∃ heap', messageSetMux heap signals name = some heap' ∧
      Closes heap signals (heap', signals) := by
  cases name with
  | none =>
      have hnone : ∀ q, (none : Option Address) = some q → q ∈ signals := fun _ hq => nomatch hq
      exact setMultiplexorSignal_spec h hnone
  | some name =>
      obtain ⟨found, hfound⟩ := exists_find (c := (·.name == name)) h.alive
      rw [messageSetMux, Heap.findSignal, hfound, Option.bind_some]
      cases found with
      | none => exact ⟨heap, rfl, .refl h⟩
      | some p =>
          refine setMultiplexorSignal_spec h fun q hq => ?_
          obtain rfl := Option.some.inj hq
          exact mem_of_find hfound

theorem signalSetMux_spec (h : Group source heap signals) (name : Name)
    (value : Option (List UInt8)) :
    ∃ heap', signalSetMux heap signals name value = some heap' ∧
      Closes heap signals (heap', signals) := by
  refine modifyFound_spec h name ?_
  cases value with
  | none => exact keepsIn_clearMultiplexed
  | some value => exact keepsIn_setMultiplexed _

theorem signalSetMuxExt_spec (h : Group source heap signals) (name : Name)
    (link : Option (Name × List UInt8)) :
    ∃ heap', signalSetMuxExt heap signals name link = some heap' ∧
      Closes heap signals (heap', signals) := by
  rcases link with - | ⟨sourceName, ranges⟩
  · exact modifyFound_spec h name keepsIn_clearMultiplexed
  · obtain ⟨found, hfound⟩ := exists_find (c := (·.name == name)) h.alive
    rw [signalSetMuxExt, Heap.findSignal, hfound, Option.bind_some]
    cases found with
    | none => exact ⟨heap, rfl, .refl h⟩
    | some p =>
        obtain ⟨found, hsource⟩ := exists_find (c := (·.name == sourceName)) h.alive
        dsimp only
        rw [Heap.findSignal, hsource, Option.bind_some]
        cases found with
        | none => exact ⟨heap, rfl, .refl h⟩
        | some q =>
            have hq : q ∈ signals := mem_of_find hsource
            obtain ⟨heap₁, h₁, hcloses₁⟩ := modify_spec h hq keepsIn_setMultiplexSource
            obtain ⟨heap₂, h₂, hcloses₂⟩ := modify_spec hcloses₁.group (mem_of_find hfound)
              (keepsIn_setRanges hq ((Metrics.Bitset.getlines ranges).filterMap
                DbcMessage.readRange))
            refine ⟨heap₂, ?_, hcloses₁.trans hcloses₂⟩
            dsimp only
            rw [h₁, Option.bind_some, h₂]

/-- All signals freed: what is not one of them stays. -/
theorem delete_all (hnodup : signals.Nodup) (halive : ∀ p ∈ signals, (heap p).isSome) :
    ∃ heap', signals.foldlM Heap.delete heap = some heap' ∧
      ∀ p, p ∉ signals → heap' p = heap p := by
  induction signals generalizing heap with
  | nil => exact ⟨heap, rfl, fun _ _ => rfl⟩
  | cons p ps ih =>
      obtain ⟨hp, hps⟩ := List.nodup_cons.mp hnodup
      obtain ⟨s, hs⟩ := Option.isSome_iff_exists.mp (halive p List.mem_cons_self)
      have hother : ∀ q, q ≠ p → Function.update heap p none q = heap q :=
        fun q hq => Function.update_of_ne hq _ _
      obtain ⟨heap', h', hout⟩ := @ih (Function.update heap p none) hps fun q hq => by
        rw [hother q (ne_of_mem_of_not_mem hq hp)]
        exact halive q (List.mem_cons_of_mem _ hq)
      refine ⟨heap', ?_, fun q hq => ?_⟩
      · rw [List.foldlM_cons, Heap.delete, hs, Option.map_some, Option.bind_eq_bind,
          Option.bind_some, h']
      · rw [hout q (List.not_mem_of_not_mem_cons hq), hother q (List.ne_of_not_mem_cons hq)]

theorem clearSignals_spec (h : Group source heap signals) :
    ∃ r, clearSignals heap signals = some r ∧ Closes heap signals r := by
  obtain ⟨heap', h', hout⟩ := delete_all h.nodup h.alive
  refine ⟨(heap', []), ?_, ⟨fun _ hq => (nomatch hq), fun p hp _ => hout p hp⟩, .nil⟩
  rw [clearSignals, h', Option.bind_some]
  rfl

theorem addSignal_spec (h : Group source heap signals) (name : Name) (p : Address)
    {r : Heap × List Address} (hr : addSignal heap signals name p = some r) :
    Closes heap signals r := by
  rw [addSignal, Option.bind_eq_some_iff] at hr
  obtain ⟨found, -, hr⟩ := hr
  cases found with
  | some q =>
      obtain rfl := Option.some.inj hr
      exact .refl h
  | none =>
      rw [Option.map_eq_some_iff] at hr
      obtain ⟨heap', hnew, rfl⟩ := hr
      exact .new h hnew

/-- The signal of a name is no source of another one. -/
def NoSource (heap : Heap) (signals : List Address) (name : Name) : Prop :=
  ∀ p ∈ (heap.findSignal signals name).join, ∀ r ∈ signals, r ≠ p →
    (heap r).bind source ≠ some p

instance (heap : Heap) (signals : List Address) (name : Name) :
    Decidable (NoSource heap signals name) :=
  inferInstanceAs (Decidable (∀ p ∈ _, _))

/-- **A signal removed**: the sources of the others are among them exactly when it is the source of
none. -/
theorem removeSignal_spec (h : Group source heap signals) (name : Name) :
    ∃ r, removeSignal heap signals name = some r ∧ Frame heap r.1 signals r.2 ∧
      (LinksIn source r.1 r.2 → Group source r.1 r.2) ∧
      (LinksIn source r.1 r.2 ↔ NoSource heap signals name) := by
  obtain ⟨found, hfound⟩ := exists_find (c := (·.name == name)) h.alive
  have hname : ∀ q, q ∈ (heap.findSignal signals name).join ↔ found = some q := fun q => by
    rw [Heap.findSignal, hfound, Option.join_some, Option.mem_def]
  rw [removeSignal, Heap.findSignal, hfound, Option.bind_some]
  cases found with
  | none =>
      refine ⟨_, rfl, .refl, fun _ => h, iff_of_true h.link fun q hq => ?_⟩
      cases (hname q).mp hq
  | some p =>
      have hp : p ∈ signals := mem_of_find hfound
      obtain ⟨s, hs⟩ := Option.isSome_iff_exists.mp (h.alive p hp)
      refine ⟨(Function.update heap p none, signals.filter (· ≠ p)), ?_, .erase hp, h.erase,
        (linksIn_erase_iff h.link).trans ⟨fun hfree q hq => ?_, fun hfree => ?_⟩⟩
      · dsimp only
        rw [Heap.delete, hs, Option.map_some, Option.map_some]
      · obtain rfl := Option.some.inj ((hname q).mp hq)
        exact hfree
      · exact hfree p ((hname p).mpr rfl)

end Signals

/-! ### The parser -/

/-- A `SG_` line takes up the signal that the parser is at: a `VAL_` or a `SG_MUL_VAL_` line has
left it there. -/
def takesUp : Bool → List Section → Bool
  | _, [] => false
  | held, .signal .. :: rest => held || takesUp false rest
  | _, .value (some _) _ :: rest | _, .mulVal .. :: rest => takesUp true rest
  | held, _ :: rest => takesUp held rest

/-- The signals under the key of a message: of a file, or of the file under the parser. -/
def Parser.members (π : Parser) (files : Name → Option DbcFile) :
    Option Name × UInt32 → List Address
  | (none, id) => (π.messages id).getD []
  | (some name, id) => ((files name).bind (·.messages id)).getD []

/-- The parser with the signals of one message changed. -/
theorem Parser.members_update (π : Parser) (files : Name → Option DbcFile) (id : UInt32)
    (signals : List Address) (π' : Parser)
    (h : π'.messages = Function.update π.messages id (some signals)) :
    π'.members files = Function.update (π.members files) (none, id) signals := by
  funext i
  rcases i with ⟨- | name, id'⟩
  · by_cases hid : id' = id
    · rw [hid, Function.update_self, members, h, Function.update_self, Option.getD_some]
    · have hne : ((none : Option Name), id') ≠ (none, id) := fun heq => hid (congrArg Prod.snd heq)
      rw [Function.update_of_ne hne, members, h, Function.update_of_ne hid, members]
  · rw [Function.update_of_ne (by simp)]
    rfl

section Parsing

variable {files : Name → Option DbcFile} {π π' : Parser}

/-- The groups of all messages, with those of the file under the parser. -/
def Parser.Apart (files : Name → Option DbcFile) (π : Parser) : Prop :=
  Lib.Groups.Apart source π.heap (π.members files)

theorem Parser.Apart.group (h : π.Apart files) {id : UInt32} {signals : List Address}
    (hid : π.messages id = some signals) : Group source π.heap signals := by
  have hgroup := Lib.Groups.Apart.group h (none, id)
  rwa [members, hid] at hgroup

/-- A change of one of its messages. -/
theorem Parser.Apart.change (h : π.Apart files) {id : UInt32} {signals : List Address}
    {r : Heap × List Address} (hid : (π.messages id).getD [] = signals)
    (hr : Closes π.heap signals r) (hheap : π'.heap = r.1)
    (hmessages : π'.messages = Function.update π.messages id (some r.2)) : π'.Apart files := by
  rw [Apart, hheap, members_update π files id r.2 π' hmessages]
  refine Lib.Groups.Apart.change h ?_ hr.group
  rw [members, hid]
  exact hr.frame

/-- A new signal is of no message yet. -/
theorem Parser.Apart.congr (h : π.Apart files)
    (hheap : ∀ p, (π.heap p).isSome → π'.heap p = π.heap p) (hmessages : π'.messages = π.messages) :
    π'.Apart files := by
  have hmembers : π'.members files = π.members files := by
    funext i
    rcases i with ⟨- | name, id⟩
    · rw [members, hmessages, members]
    · rfl
  rw [Apart, hmembers]
  exact Lib.Groups.Apart.congr h hheap

/-- A `SG_` line of a new signal. -/
theorem Parser.Apart.signal {name : Name} {tag : Option (List UInt8)} {p : Address} {ok : Bool}
    (h : π.Apart files) (hnone : π.currentSignal = none)
    (hs : π.signal name tag p = some (π', ok)) : π'.Apart files ∧ π'.currentSignal = none := by
  rw [Parser.signal, receiver, hnone, Option.bind_eq_some_iff] at hs
  obtain ⟨r, hr, hs⟩ := hs
  obtain ⟨heap, hnew, rfl⟩ := Option.map_eq_some_iff.mp hr
  obtain ⟨hfree, rfl⟩ := Heap.new_eq_some.mp hnew
  dsimp only at hs
  rw [Function.update_self, Option.bind_some] at hs
  cases hcur : π.currentMessage with
  | none =>
      rw [hcur] at hs
      obtain ⟨rfl, -⟩ := Prod.mk.inj (Option.some.inj hs)
      refine ⟨h.congr (fun q hq => ?_) rfl, rfl⟩
      rw [Function.update_idem]
      exact Function.update_of_ne (ne_of_isSome hfree hq) _ _
  | some id =>
      rw [hcur] at hs
      obtain ⟨signals, hid, heq⟩ := Option.map_eq_some_iff.mp hs
      obtain ⟨rfl, -⟩ := Prod.mk.inj heq
      have hcloses : Closes π.heap signals
          (Function.update π.heap p (some ⟨name, DbcMultiplexor.new.retag tag⟩),
            signals ++ [p]) :=
        ⟨.concat hfree, (h.group hid).concat hfree (DbcMessage.source_tagged tag)⟩
      refine ⟨h.change (by rw [hid, Option.getD_some]) hcloses ?_ rfl, rfl⟩
      rw [Function.update_idem]

/-- The values of a signal leave the groups. -/
theorem Parser.Apart.value {head : Option (ℤ × Name)} {more ok : Bool} (h : π.Apart files)
    (hs : π.value head more = some (π', ok)) : π'.Apart files := by
  rcases head with - | ⟨id, name⟩
  · rw [Parser.value, Option.ite_none_left_eq_some] at hs
    obtain ⟨rfl, -⟩ := Prod.mk.inj (Option.some.inj hs.2)
    exact h
  · rw [Parser.value] at hs
    split at hs
    · obtain ⟨rfl, -⟩ := Prod.mk.inj (Option.some.inj hs)
      exact h
    · obtain ⟨found, -, heq⟩ := Option.map_eq_some_iff.mp hs
      obtain ⟨rfl, -⟩ := Prod.mk.inj heq
      exact h.congr (fun _ _ => rfl) rfl

/-- So does a source from the message. -/
theorem Parser.Apart.mulVal {id : ℤ} {name sourceName : Name} {ranges : List (ℤ × ℤ)} {ok : Bool}
    (h : π.Apart files) (hs : π.mulVal id name sourceName ranges = some (π', ok)) :
    π'.Apart files := by
  have hsame : ∀ {cur : Option Address} {b : Bool},
      some ({ π with currentSignal := cur }, b) = some (π', ok) → π'.Apart files := by
    intro cur b heq
    obtain ⟨rfl, -⟩ := Prod.mk.inj (Option.some.inj heq)
    exact h.congr (fun _ _ => rfl) rfl
  rw [Parser.mulVal] at hs
  split at hs
  next => exact hsame hs
  next signals hid =>
    have hgroup := h.group hid
    obtain ⟨found, hfound, hs⟩ := Option.bind_eq_some_iff.mp hs
    cases found with
    | none => exact hsame hs
    | some p =>
      obtain ⟨found, hsource, hs⟩ := Option.bind_eq_some_iff.mp hs
      cases found with
      | none => exact hsame hs
      | some q =>
        obtain ⟨s, -, hs⟩ := Option.bind_eq_some_iff.mp hs
        split at hs
        · obtain ⟨heap, hheap, heq⟩ := Option.map_eq_some_iff.mp hs
          obtain ⟨rfl, -⟩ := Prod.mk.inj heq
          obtain ⟨heap', hheap', hcloses⟩ := modify_spec hgroup (mem_of_find hfound)
            (keepsIn_setSource (mem_of_find hsource)
              (ranges.map fun r => ⟨.ofInt r.1, .ofInt (-r.2)⟩) fun mux => mux)
          obtain rfl := Option.some.inj (hheap'.symm.trans hheap)
          refine h.change (by rw [hid, Option.getD_some]) hcloses rfl ?_
          rw [← hid, Function.update_eq_self]
        · exact hsame hs

/-- A comment changes no signal. -/
theorem Parser.eq_of_comment {id : ℤ} {name : Option Name} {ok : Bool}
    (hs : π.comment id name = some (π', ok)) : π' = π := by
  unfold comment at hs
  split at hs
  · exact (Prod.mk.inj (Option.some.inj hs)).1.symm
  · exact (Prod.mk.inj (Option.some.inj hs)).1.symm
  · obtain ⟨found, -, heq⟩ := Option.map_eq_some_iff.mp hs
    exact (Prod.mk.inj heq).1.symm

/-- **A section**: the groups stay, where no `SG_` line takes up a signal. -/
theorem Parser.Apart.step {s : Section} {rest : List Section} {held ok : Bool} (h : π.Apart files)
    (hheld : held = false → π.currentSignal = none) (htake : takesUp held (s :: rest) = false)
    (hs : π.step s = some (π', ok)) :
    π'.Apart files ∧ ∃ held', (held' = false → π'.currentSignal = none) ∧
      takesUp held' rest = false := by
  cases s with
  | message id =>
      obtain ⟨rfl, -⟩ := Prod.mk.inj (Option.some.inj hs)
      refine ⟨h.change rfl (r := (π.heap, [])) ⟨⟨fun _ hp => (nomatch hp), fun _ _ _ => rfl⟩,
        .nil⟩ rfl rfl, held, hheld, htake⟩
  | signal name tag p =>
      obtain ⟨hfree, hrest⟩ := Bool.or_eq_false_iff.mp htake
      obtain ⟨h', hnone⟩ := h.signal (hheld hfree) hs
      exact ⟨h', false, fun _ => hnone, hrest⟩
  | value head more =>
      refine ⟨h.value hs, ?_⟩
      rcases head with - | ⟨id, name⟩
      · change π.value none more = some (π', ok) at hs
        rw [Parser.value, Option.ite_none_left_eq_some] at hs
        obtain ⟨rfl, -⟩ := Prod.mk.inj (Option.some.inj hs.2)
        exact ⟨held, hheld, htake⟩
      · exact ⟨true, fun heq => (nomatch heq), htake⟩
  | mulVal id name sourceName ranges =>
      exact ⟨h.mulVal hs, true, fun heq => (nomatch heq), htake⟩
  | comment id name =>
      obtain rfl := eq_of_comment hs
      exact ⟨h, held, hheld, htake⟩
  | other more =>
      obtain ⟨rfl, -⟩ := Prod.mk.inj (Option.some.inj hs)
      exact ⟨h, held, hheld, htake⟩
  | error receiver =>
      cases receiver with
      | none =>
          obtain ⟨rfl, -⟩ := Prod.mk.inj (Option.some.inj hs)
          exact ⟨h, held, hheld, htake⟩
      | some p =>
          obtain ⟨r, hr, heq⟩ := Option.map_eq_some_iff.mp hs
          obtain ⟨rfl, -⟩ := Prod.mk.inj heq
          refine ⟨h.congr (fun q hq => ?_) rfl, held, hheld, htake⟩
          rw [receiver] at hr
          split at hr
          · obtain rfl := Option.some.inj hr
            rfl
          · obtain ⟨heap, hnew, rfl⟩ := Option.map_eq_some_iff.mp hr
            obtain ⟨hfree, rfl⟩ := Heap.new_eq_some.mp hnew
            exact Function.update_of_ne (ne_of_isSome hfree hq) _ _

/-- A text, from its first section on. -/
theorem Parser.Apart.run {sections : List Section} {held ok : Bool} (h : π.Apart files)
    (hheld : held = false → π.currentSignal = none) (htake : takesUp held sections = false)
    (hs : π.run sections = some (π', ok)) : π'.Apart files := by
  induction sections generalizing π held with
  | nil =>
      obtain ⟨rfl, -⟩ := Prod.mk.inj (Option.some.inj hs)
      exact h
  | cons s rest ih =>
      rw [run, Option.bind_eq_some_iff] at hs
      obtain ⟨⟨π₁, ok₁⟩, h₁, hs⟩ := hs
      obtain ⟨hapart, held', hheld', htake'⟩ := h.step hheld htake h₁
      split at hs
      · exact ih hapart hheld' htake' hs
      · obtain ⟨rfl, -⟩ := Prod.mk.inj (Option.some.inj hs)
        exact hapart

end Parsing

end Editing

end Ovms.Dbc
