import Ovms.Notify.Command
import Ovms.Notify.Kept

/-!
# One Command Notification for Each Reader

What the passes of `NotifyCommand` agree on. The limits of the accepting readers, from the highest
on, fall into groups: a limit begins a group, and those that follow belong to it as long as the
output for the first one fits. Each group has one message, each reader is put down at the message
of its group, and the last pass meets the groups from the lowest on.
-/

open Lib Std

namespace Ovms.Notify

variable {output : Output} {subtype : Text}

/-! ### Groups of limits -/

/-- A limit joins the last group, if what was put out for the first limit of it fits. -/
def join (output : Output) : List (ℤ × List ℤ) → ℤ → List (ℤ × List ℤ)
  | [], verbosity => [(verbosity, [verbosity])]
  | g :: gs, verbosity =>
      if (output g.1).1.length ≤ limit verbosity then (g.1, verbosity :: g.2) :: gs
      else (verbosity, [verbosity]) :: g :: gs

/-- The groups of limits, the last one first, each with its last limit first. -/
def groups (output : Output) (levels : List ℤ) : List (ℤ × List ℤ) :=
  levels.foldl (join output) []

/-- The place of the message of a limit. -/
def place : List (ℤ × List ℤ) → ℤ → Option ℕ
  | [], _ => none
  | g :: gs, verbosity => if verbosity ∈ g.2 then some gs.length else place gs verbosity

theorem flatMap_join (gs : List (ℤ × List ℤ)) (verbosity : ℤ) :
    (join output gs verbosity).flatMap Prod.snd = verbosity :: gs.flatMap Prod.snd := by
  cases gs with
  | nil => rfl
  | cons g gs =>
      rw [join]
      split <;> simp

/-- The groups are a partition of the limits. -/
theorem flatMap_groups (output : Output) (levels : List ℤ) :
    (groups output levels).flatMap Prod.snd = levels.reverse := by
  have hfold : ∀ gs : List (ℤ × List ℤ), (levels.foldl (join output) gs).flatMap Prod.snd
      = levels.reverse ++ gs.flatMap Prod.snd := by
    induction levels with
    | nil => simp
    | cons verbosity levels ih =>
        intro gs
        rw [List.foldl_cons, ih, flatMap_join, List.reverse_cons, List.append_assoc,
          List.singleton_append]
  rw [groups, hfold, List.flatMap_nil, List.append_nil]

/-- A limit that has joined before is in the group it was in. -/
theorem exists_of_mem_join {gs : List (ℤ × List ℤ)} {last verbosity : ℤ} {g' : ℤ × List ℤ}
    (hg' : g' ∈ join output gs last) (hmem : verbosity ∈ g'.2) (hne : verbosity ≠ last) :
    ∃ g ∈ gs, verbosity ∈ g.2 ∧ g.1 = g'.1 := by
  cases gs with
  | nil =>
      obtain rfl := List.mem_singleton.mp hg'
      exact absurd (List.mem_singleton.mp hmem) hne
  | cons g gs =>
      rw [join] at hg'
      split at hg'
      · rcases List.mem_cons.mp hg' with rfl | hg'
        · exact ⟨g, List.mem_cons_self, (List.mem_cons.mp hmem).resolve_left hne, rfl⟩
        · exact ⟨g', List.mem_cons_of_mem _ hg', hmem, rfl⟩
      · rcases List.mem_cons.mp hg' with rfl | hg'
        · exact absurd (List.mem_singleton.mp hmem) hne
        · exact ⟨g', hg', hmem, rfl⟩

/-- A group has the limit it begins with, and others below it that its output fits. -/
def Shares (output : Output) (g : ℤ × List ℤ) : Prop :=
  g.1 ∈ g.2 ∧ ∀ verbosity ∈ g.2,
    verbosity = g.1 ∨ verbosity < g.1 ∧ (output g.1).1.length ≤ limit verbosity

/-- Joining a lower limit keeps that. -/
theorem shares_join {gs : List (ℤ × List ℤ)} {verbosity : ℤ} (h : ∀ g ∈ gs, Shares output g)
    (hbelow : ∀ g ∈ gs, verbosity < g.1) : ∀ g ∈ join output gs verbosity, Shares output g := by
  have hself : Shares output (verbosity, [verbosity]) := ⟨List.mem_singleton_self _, by simp⟩
  cases gs with
  | nil => simpa [join] using hself
  | cons g gs =>
      obtain ⟨hg, hgs⟩ := List.forall_mem_cons.mp h
      rw [join]
      split
      · rename_i hfits
        refine List.forall_mem_cons.mpr ⟨⟨List.mem_cons_of_mem _ hg.1, ?_⟩, hgs⟩
        exact List.forall_mem_cons.mpr ⟨.inr ⟨hbelow g List.mem_cons_self, hfits⟩, hg.2⟩
      · exact List.forall_mem_cons.mpr ⟨hself, h⟩

theorem shares_groups (output : Output) {levels : List ℤ} (h : levels.Pairwise (· > ·)) :
    ∀ g ∈ groups output levels, Shares output g := by
  induction levels using List.reverseRecOn with
  | nil => simp [groups]
  | append_singleton levels verbosity ih =>
      obtain ⟨hlevels, -, hbelow⟩ := List.pairwise_append.mp h
      have hgroups := ih hlevels
      rw [groups, List.foldl_concat]
      refine shares_join hgroups fun g hg => ?_
      have hmem : g.1 ∈ levels.reverse := by
        rw [← flatMap_groups output]
        exact List.mem_flatMap.mpr ⟨g, hg, (hgroups g hg).1⟩
      exact hbelow g.1 (List.mem_reverse.mp hmem) verbosity (List.mem_singleton_self _)

/-! ### Places -/

variable {gs : List (ℤ × List ℤ)} {verbosity : ℤ} {i : ℕ}

/-- A limit has a place in its group. -/
theorem mem_of_place (h : place gs verbosity = some i) :
    ∃ g, gs.reverse[i]? = some g ∧ verbosity ∈ g.2 := by
  induction gs with
  | nil => simp [place] at h
  | cons g gs ih =>
      rw [place] at h
      rw [List.reverse_cons]
      split at h
      · rename_i hmem
        obtain rfl := Option.some.inj h
        exact ⟨g, by simp, hmem⟩
      · obtain ⟨g', hg', hmem⟩ := ih h
        have hlt : i < gs.reverse.length := (List.getElem?_eq_some_iff.mp hg').1
        exact ⟨g', by rw [List.getElem?_append_left hlt, hg'], hmem⟩

/-- And only there. -/
theorem place_of_mem (hnodup : (gs.flatMap Prod.snd).Nodup) {g : ℤ × List ℤ}
    (hg : gs.reverse[i]? = some g) (hmem : verbosity ∈ g.2) : place gs verbosity = some i := by
  induction gs with
  | nil => simp at hg
  | cons g' gs ih =>
      rw [List.flatMap_cons, List.nodup_append] at hnodup
      rw [List.reverse_cons] at hg
      rw [place]
      by_cases hlt : i < gs.reverse.length
      · rw [List.getElem?_append_left hlt] at hg
        have hlater : verbosity ∈ gs.flatMap Prod.snd :=
          List.mem_flatMap.mpr ⟨g, List.mem_reverse.mp (List.mem_of_getElem? hg), hmem⟩
        rw [if_neg fun hfirst => hnodup.2.2 verbosity hfirst verbosity hlater rfl]
        exact ih hnodup.2.1 hg
      · rw [List.getElem?_append_right (Nat.le_of_not_lt hlt)] at hg
        have hi : i - gs.reverse.length = 0 := by
          have := (List.getElem?_eq_some_iff.mp hg).1
          simpa using this
        rw [hi, List.getElem?_cons_zero, Option.some_inj] at hg
        rw [if_pos (hg ▸ hmem), Option.some_inj]
        rw [List.length_reverse] at hi hlt
        omega

theorem place_join_of_ne (gs : List (ℤ × List ℤ)) {level : ℤ} (h : level ≠ verbosity) :
    place (join output gs verbosity) level = place gs level := by
  cases gs with
  | nil => simp [join, place, h]
  | cons g gs =>
      rw [join]
      split <;> simp [place, h]

theorem place_eq_none (h : verbosity ∉ gs.flatMap Prod.snd) : place gs verbosity = none := by
  cases hplace : place gs verbosity with
  | none => rfl
  | some i =>
      obtain ⟨g, hg, hmem⟩ := mem_of_place hplace
      have hin := List.mem_reverse.mp (List.mem_of_getElem? hg)
      exact absurd (List.mem_flatMap.mpr ⟨g, hin, hmem⟩) h

/-! ### The second pass -/

/-- The message for a limit, as it is made. -/
def message (output : Output) (subtype : Text) (verbosity : ℤ) : OvmsNotifyEntryCommand :=
  ⟨⟨0, 0, 0#_, subtype, (output verbosity).1⟩, verbosity⟩

/-- What the second pass has when it has gone through the limits of some groups. -/
structure Fetched (output : Output) (subtype : Text) (needed : VerbosityMsgs) (f : Fetch)
    (gs : List (ℤ × List ℤ)) : Prop where
  msgs : ∀ verbosity, f.msgs[verbosity]? = (place gs verbosity).elim needed[verbosity]?
    fun i => some (some i)
  made : f.made = (gs.map fun g => message output subtype g.1).reverse
  msg : f.msg = gs.head?.map fun _ => gs.length - 1
  msglen : ∀ g ∈ gs.head?, f.msglen = (output g.1).1.length

variable {needed : VerbosityMsgs} {f : Fetch}

/-- A message that is made for a limit. -/
theorem fetchLevel_make (h : Fetched output subtype needed f gs)
    (hneeded : needed[verbosity]? = some none) (hfresh : place gs verbosity = none)
    (hmake : ¬ (f.msg.isSome ∧ f.msglen ≤ limit verbosity)) :
    fetchLevel output subtype f verbosity =
      { msgs := f.msgs.insert verbosity (some gs.length)
        msg := some gs.length
        msglen := (output verbosity).1.length
        made := f.made ++ [message output subtype verbosity] } := by
  have hnone : (f.msgs[verbosity]?).join = none := by
    rw [h.msgs, hfresh, Option.elim_none, hneeded]
    rfl
  have hlength : f.made.length = gs.length := by simp [h.made]
  rw [fetchLevel, if_neg hmake, hnone]
  simp only [hlength, message]

/-- **The second pass**, at a limit: it joins the groups. -/
theorem Fetched.level (h : Fetched output subtype needed f gs)
    (hneeded : needed[verbosity]? = some none) (hfresh : place gs verbosity = none) :
    Fetched output subtype needed (fetchLevel output subtype f verbosity)
      (join output gs verbosity) := by
  have hmsgs : ∀ i, some i = place (join output gs verbosity) verbosity → ∀ level,
      (f.msgs.insert verbosity (some i))[level]?
        = (place (join output gs verbosity) level).elim needed[level]? fun i => some (some i) := by
    intro i hi level
    rw [TreeMap.getElem?_insert]
    by_cases hlevel : level = verbosity
    · rw [hlevel, ← hi, if_pos (Std.compare_eq_iff_eq.mpr rfl), Option.elim_some]
    · rw [place_join_of_ne gs hlevel, if_neg fun heq => hlevel (Std.compare_eq_iff_eq.mp heq).symm,
        h.msgs]
  cases gs with
  | nil =>
      have hmsg : f.msg = none := h.msg
      rw [fetchLevel_make h hneeded hfresh (by simp [hmsg])]
      exact ⟨hmsgs 0 (by simp [join, place]), by simp [join, h.made], rfl, by simp [join]⟩
  | cons g gs =>
      have hmsg : f.msg = some gs.length := h.msg
      have hmsglen : f.msglen = (output g.1).1.length := h.msglen g rfl
      by_cases hfits : (output g.1).1.length ≤ limit verbosity
      · -- used again
        have hjoin : join output (g :: gs) verbosity = (g.1, verbosity :: g.2) :: gs := by
          rw [join, if_pos hfits]
        rw [fetchLevel, if_pos ⟨by simp [hmsg], by rwa [hmsglen]⟩, hmsg]
        refine ⟨hmsgs gs.length (by simp [hjoin, place]), ?_, ?_, ?_⟩
        · simpa [hjoin] using h.made
        · simp [hjoin]
        · simp [hjoin, hmsglen]
      · have hjoin : join output (g :: gs) verbosity = (verbosity, [verbosity]) :: g :: gs := by
          rw [join, if_neg hfits]
        rw [fetchLevel_make h hneeded hfresh (by simp [hmsg, hmsglen, Nat.lt_of_not_le hfits])]
        refine ⟨hmsgs (g :: gs).length (by simp [hjoin, place]), ?_, ?_, ?_⟩
        · simp [hjoin, h.made]
        · simp [hjoin]
        · simp [hjoin]

theorem keys_reverse_pairwise (needed : VerbosityMsgs) :
    needed.keys.reverse.Pairwise (· > ·) := by
  rw [List.pairwise_reverse]
  exact TreeMap.ordered_keys.imp fun h => compare_lt_iff_lt.mp h

/-- **What the second pass leaves.** -/
theorem fetch_spec (hneeded : ∀ verbosity ∈ needed, needed[verbosity]? = some none) :
    Fetched output subtype needed (fetch output subtype needed)
      (groups output needed.keys.reverse) := by
  have hrun : ∀ (levels : List ℤ) (f : Fetch) (gs : List (ℤ × List ℤ)),
      Fetched output subtype needed f gs → levels.Nodup →
      (∀ verbosity ∈ levels, needed[verbosity]? = some none ∧ place gs verbosity = none) →
      Fetched output subtype needed (levels.foldl (fetchLevel output subtype) f)
        (levels.foldl (join output) gs) := by
    intro levels
    induction levels with
    | nil => exact fun f gs h _ _ => h
    | cons verbosity levels ih =>
        intro f gs h hnodup hlevels
        obtain ⟨hself, hrest⟩ := List.forall_mem_cons.mp hlevels
        obtain ⟨hnotin, hnodup⟩ := List.nodup_cons.mp hnodup
        refine ih _ _ (h.level hself.1 hself.2) hnodup fun level hlevel => ?_
        refine ⟨(hrest level hlevel).1, ?_⟩
        rw [place_join_of_ne gs (by rintro rfl; exact hnotin hlevel)]
        exact (hrest level hlevel).2
  refine hrun _ _ [] ⟨fun _ => rfl, rfl, rfl, by simp⟩ ?_ ?_
  · exact (keys_reverse_pairwise needed).imp fun h => ne_of_gt h
  · exact fun verbosity hverbosity =>
      ⟨hneeded verbosity (TreeMap.mem_keys.mp (List.mem_reverse.mp hverbosity)), rfl⟩

/-! ### The first pass -/

variable {R : RegisteredReaders} {env : Environment}

/-- A reader that accepts the notification. -/
def RegisteredReaders.Accepts (R : RegisteredReaders) (env : Environment) (subtype : Text)
    (mc : OvmsNotifyCallbackEntry) : Prop :=
  R.map[mc.reader]? = some mc ∧ mc.accepts env subtype 0 = true

theorem RegisteredReaders.getElem?_of_mem {p : ℕ × OvmsNotifyCallbackEntry}
    (hp : p ∈ R.map.toList) : R.map[p.2.reader]? = some p.2 := by
  have hp := TreeMap.mem_toList_iff_getElem?_eq_some.mp hp
  rwa [R.own p.1 p.2 hp]

theorem RegisteredReaders.mem_of_getElem? {mc : OvmsNotifyCallbackEntry}
    (hmc : R.map[mc.reader]? = some mc) : (mc.reader, mc) ∈ R.map.toList :=
  TreeMap.mem_toList_iff_getElem?_eq_some.mpr hmc

/-- What the first pass has found when it has seen some readers. -/
structure Needs (env : Environment) (subtype : Text) (seen : List (ℕ × OvmsNotifyCallbackEntry))
    (needed : VerbosityMsgs × Readers) : Prop where
  levels : ∀ verbosity msg, needed.1[verbosity]? = some msg ↔ msg = none ∧
    ∃ p ∈ seen, p.2.accepts env subtype 0 = true ∧ p.2.verbosity = verbosity
  bits : ∀ k, needed.2.getLsbD k = true ↔
    ∃ p ∈ seen, p.2.accepts env subtype 0 = true ∧ p.2.reader = k

/-- The first pass, at a reader. -/
theorem Needs.levelOf {seen : List (ℕ × OvmsNotifyCallbackEntry)}
    {needed : VerbosityMsgs × Readers} (h : Needs env subtype seen needed)
    (p : ℕ × OvmsNotifyCallbackEntry)
    (hp : p.2.accepts env subtype 0 = true → p.2.reader < notifyMaxReaders) :
    ∃ needed', levelOf env subtype needed p = some needed' ∧
      Needs env subtype (seen ++ [p]) needed' := by
  rw [Notify.levelOf]
  split
  · rename_i haccepts
    have hlt := hp haccepts
    rw [bitsetSet, if_pos hlt]
    refine ⟨_, rfl, ?_, ?_⟩
    · intro verbosity msg
      rw [TreeMap.getElem?_insert]
      split
      · rename_i heq
        obtain rfl := Std.compare_eq_iff_eq.mp heq
        rw [Option.some_inj, eq_comm (a := none)]
        refine (and_iff_left ?_).symm
        exact ⟨p, by simp, haccepts, rfl⟩
      · rename_i hne
        rw [h.levels]
        refine and_congr_right fun _ => ?_
        have hverbosity : p.2.verbosity ≠ verbosity := fun heq =>
          hne (Std.compare_eq_iff_eq.mpr heq)
        simp [or_and_right, exists_or, hverbosity]
    · intro k
      rw [BitVec.getLsbD_or, getLsbD_readerBit hlt, Bool.or_eq_true, h.bits, decide_eq_true_iff]
      simp [or_and_right, exists_or, haccepts, eq_comm (a := k)]
  · rename_i haccepts
    refine ⟨needed, rfl, ?_, ?_⟩
    · intro verbosity msg
      rw [h.levels]
      simp [or_and_right, exists_or, haccepts]
    · intro k
      rw [h.bits]
      simp [or_and_right, exists_or, haccepts]

/-- **What the first pass leaves**, if the numbers of the accepting readers have bits. -/
theorem levels_spec (R : RegisteredReaders) (env : Environment) (subtype : Text)
    (hlt : ∀ p ∈ R.map.toList,
      p.2.accepts env subtype 0 = true → p.2.reader < notifyMaxReaders) :
    ∃ needed, levels env subtype R.map = some needed ∧
      Needs env subtype R.map.toList needed := by
  refine foldlM_seen (fun seen p needed hp h => h.levelOf p (hlt p hp)) ⟨?_, ?_⟩
  · simp
  · simp

theorem levels_eq_none {p : ℕ × OvmsNotifyCallbackEntry} (hp : p ∈ R.map.toList)
    (haccepts : p.2.accepts env subtype 0 = true) (hlt : ¬ p.2.reader < notifyMaxReaders) :
    levels env subtype R.map = none :=
  foldlM_eq_none hp (fun needed => by rw [levelOf, if_pos haccepts, bitsetSet, if_neg hlt]; rfl) _

/-! ### The third pass -/

/-- What the third pass has when it has seen some readers: each accepting one is put down at the
message of its limit. -/
structure Added (output : Output) (env : Environment) (subtype : Text) (gs : List (ℤ × List ℤ))
    (seen : List (ℕ × OvmsNotifyCallbackEntry)) (made : List OvmsNotifyEntryCommand) : Prop where
  length : made.length = gs.length
  entry : ∀ (i : ℕ) (e : OvmsNotifyEntryCommand), made[i]? = some e → ∃ g : ℤ × List ℤ,
    gs.reverse[i]? = some g ∧ e.verbosity = g.1 ∧ e.value = (output g.1).1
  bits : ∀ (i : ℕ) (e : OvmsNotifyEntryCommand), made[i]? = some e →
    ∀ k, e.pendingreaders.getLsbD k = true ↔
      ∃ p ∈ seen, p.2.accepts env subtype 0 = true ∧ p.2.reader = k ∧
        place gs p.2.verbosity = some i

/-- The messages as they were made. -/
theorem Fetched.added (h : Fetched output subtype needed f gs) :
    Added output env subtype gs [] f.made where
  length := by simp [h.made]
  entry i e he := by
    rw [h.made, ← List.map_reverse, List.getElem?_map, Option.map_eq_some_iff] at he
    obtain ⟨g, hg, rfl⟩ := he
    exact ⟨g, hg, rfl, rfl⟩
  bits i e he k := by
    rw [h.made, ← List.map_reverse, List.getElem?_map, Option.map_eq_some_iff] at he
    obtain ⟨g, hg, rfl⟩ := he
    simp [message]

/-- The third pass, at a reader that accepts. -/
theorem Added.add {seen : List (ℕ × OvmsNotifyCallbackEntry)}
    {made : List OvmsNotifyEntryCommand} (h : Added output env subtype gs seen made)
    {p : ℕ × OvmsNotifyCallbackEntry} (haccepts : p.2.accepts env subtype 0 = true)
    (hlt : p.2.reader < notifyMaxReaders) {i : ℕ} (hplace : place gs p.2.verbosity = some i) :
    Added output env subtype gs (seen ++ [p]) (made.modify i fun e => e.add p.2.reader) := by
  have hentry : ∀ (j : ℕ) (e : OvmsNotifyEntryCommand),
      (made.modify i fun e => e.add p.2.reader)[j]? = some e →
      ∃ e₀, made[j]? = some e₀ ∧ e = if i = j then e₀.add p.2.reader else e₀ := by
    intro j e he
    rw [List.getElem?_modify] at he
    obtain ⟨e₀, he₀, rfl⟩ := Option.map_eq_some_iff.mp he
    exact ⟨e₀, he₀, rfl⟩
  refine ⟨by rw [List.length_modify, h.length], fun j e he => ?_, fun j e he k => ?_⟩
  · obtain ⟨e₀, he₀, rfl⟩ := hentry j e he
    split
    · exact h.entry j e₀ he₀
    · exact h.entry j e₀ he₀
  · obtain ⟨e₀, he₀, rfl⟩ := hentry j e he
    simp only [List.mem_append, List.mem_singleton, or_and_right, exists_or, exists_eq_left,
      ← h.bits j e₀ he₀ k, haccepts, hplace, true_and, Option.some_inj]
    split
    · rename_i hij
      rw [OvmsNotifyEntryCommand.add, BitVec.getLsbD_or, getLsbD_readerBit hlt, Bool.or_eq_true,
        decide_eq_true_iff, and_iff_left hij, eq_comm (a := k)]
    · rename_i hij
      rw [or_iff_left fun hself => hij hself.2]

theorem Added.skip {seen : List (ℕ × OvmsNotifyCallbackEntry)}
    {made : List OvmsNotifyEntryCommand} (h : Added output env subtype gs seen made)
    {p : ℕ × OvmsNotifyCallbackEntry} (haccepts : ¬ p.2.accepts env subtype 0 = true) :
    Added output env subtype gs (seen ++ [p]) made := by
  refine ⟨h.length, h.entry, fun i e he k => ?_⟩
  rw [h.bits i e he]
  simp [or_and_right, exists_or, haccepts]

/-- The cached acceptance of a reader is its own. -/
theorem Needs.test {needed : VerbosityMsgs × Readers}
    (h : Needs env subtype R.map.toList needed) {p : ℕ × OvmsNotifyCallbackEntry}
    (hp : p ∈ R.map.toList) (hlt : p.2.reader < notifyMaxReaders) :
    bitsetTest needed.2 p.2.reader = some (p.2.accepts env subtype 0) := by
  rw [bitsetTest, if_pos hlt, Option.some_inj, Bool.eq_iff_iff, h.bits]
  constructor
  · rintro ⟨q, hq, haccepts, hreader⟩
    have hsame := (R.getElem?_of_mem hq).symm.trans (hreader ▸ R.getElem?_of_mem hp)
    rwa [← Option.some.inj hsame]
  · exact fun haccepts => ⟨p, hp, haccepts, rfl⟩

/-- **What the third pass leaves**, if all numbers have bits. -/
theorem addReaders_spec {needed : VerbosityMsgs × Readers}
    (h : Needs env subtype R.map.toList needed)
    (hfetched : Fetched output subtype needed.1 f gs)
    (hplaces : ∀ verbosity ∈ needed.1, (place gs verbosity).isSome)
    (hlt : ∀ p ∈ R.map.toList, p.2.reader < notifyMaxReaders) :
    ∃ made, addReaders R.map needed.2 f.msgs f.made = some made ∧
      Added output env subtype gs R.map.toList made := by
  refine foldlM_seen (fun seen p made hp hadded => ?_) hfetched.added
  rw [addReader, h.test hp (hlt p hp), Option.bind_some]
  split
  · rename_i haccepts
    have hneeded : needed.1[p.2.verbosity]? = some none :=
      (h.levels _ _).mpr ⟨rfl, p, hp, haccepts, rfl⟩
    obtain ⟨i, hi⟩ := Option.isSome_iff_exists.mp
      (hplaces _ (TreeMap.mem_iff_isSome_getElem?.mpr (by rw [hneeded]; rfl)))
    rw [hfetched.msgs, hi]
    exact ⟨_, rfl, hadded.add haccepts (hlt p hp) hi⟩
  · rename_i haccepts
    exact ⟨made, rfl, hadded.skip haccepts⟩

theorem addReaders_eq_none {p : ℕ × OvmsNotifyCallbackEntry} (hp : p ∈ R.map.toList)
    (hlt : ¬ p.2.reader < notifyMaxReaders) (bits : Readers) (msgs : VerbosityMsgs)
    (made : List OvmsNotifyEntryCommand) : addReaders R.map bits msgs made = none :=
  foldlM_eq_none hp (fun made => by rw [addReader, bitsetTest, if_neg hlt, Option.bind_none]) _

/-! ### The last pass -/

/-- The messages of the limits, from the lowest limit on. -/
def items : List (ℤ × List ℤ) → List (ℤ × Option ℕ)
  | [] => []
  | g :: gs => g.2.map (fun verbosity => (verbosity, some gs.length)) ++ items gs

theorem map_fst_items (gs : List (ℤ × List ℤ)) :
    (items gs).map Prod.fst = gs.flatMap Prod.snd := by
  induction gs with
  | nil => rfl
  | cons g gs ih => simp [items, ih, Function.comp_def]

/-- A limit is there with its place. -/
theorem mem_items (hnodup : (gs.flatMap Prod.snd).Nodup) {msg : Option ℕ} :
    (verbosity, msg) ∈ items gs ↔ ∃ i, place gs verbosity = some i ∧ msg = some i := by
  induction gs with
  | nil => simp [items, place]
  | cons g gs ih =>
      rw [List.flatMap_cons, List.nodup_append] at hnodup
      rw [items, List.mem_append, List.mem_map, ih hnodup.2.1, place]
      split
      · rename_i hmem
        have hlater : place gs verbosity = none := place_eq_none fun hlater =>
          hnodup.2.2 verbosity hmem verbosity hlater rfl
        simp [hlater, hmem, eq_comm]
      · rename_i hmem
        refine or_iff_right ?_
        rintro ⟨level, hlevel, heq⟩
        exact hmem ((Prod.mk.inj heq).1 ▸ hlevel)

/-- The messages of the second pass, in the order of the map. -/
theorem Fetched.toList_msgs (h : Fetched output subtype needed f gs)
    (hgs : gs.flatMap Prod.snd = needed.keys) : f.msgs.toList = items gs := by
  have hordered : needed.keys.Pairwise (· < ·) :=
    TreeMap.ordered_keys.imp fun h => compare_lt_iff_lt.mp h
  have hnodup : (gs.flatMap Prod.snd).Nodup := hgs ▸ hordered.imp fun h => h.ne
  have : Std.Antisymm fun a b : ℤ × Option ℕ => a.1 < b.1 :=
    ⟨fun a b hab hba => absurd hab hba.asymm⟩
  have : Std.Irrefl fun a b : ℤ × Option ℕ => a.1 < b.1 := ⟨fun a => lt_irrefl a.1⟩
  refine List.Pairwise.eq_of_mem_iff (r := fun a b : ℤ × Option ℕ => a.1 < b.1) ?_ ?_ ?_
  · exact TreeMap.ordered_keys_toList.imp fun h => compare_lt_iff_lt.mp h
  · rw [← hgs, ← map_fst_items, List.pairwise_map] at hordered
    exact hordered
  · rintro ⟨verbosity, msg⟩
    rw [TreeMap.mem_toList_iff_getElem?_eq_some, mem_items hnodup, h.msgs]
    cases hplace : place gs verbosity with
    | some i => simp [eq_comm]
    | none =>
        have hnone : needed[verbosity]? = none := by
          rw [TreeMap.getElem?_eq_none]
          intro hmem
          rw [← TreeMap.mem_keys, ← hgs, ← map_fst_items, List.mem_map] at hmem
          obtain ⟨⟨_, msg'⟩, hitem, rfl⟩ := hmem
          obtain ⟨i, hi, -⟩ := (mem_items hnodup).mp hitem
          simp [hplace] at hi
        simp [hnone]

/-- Messages that were just queued are passed over. -/
theorem foldlM_queueMsg_skip {readers : CallbackMap} {dispatched : ℕ → Environment} {objects : ℕ}
    {made : List OvmsNotifyEntryCommand} {q : Queueing} {msg : Option ℕ} (hmsg : q.msg = msg)
    (levels : List ℤ) :
    (levels.map fun verbosity => (verbosity, msg)).foldlM
      (queueMsg readers dispatched objects made) q = some q := by
  induction levels with
  | nil => rfl
  | cons verbosity levels ih =>
      rw [List.map_cons, List.foldlM_cons, queueMsg, if_pos hmsg.symm, Option.bind_eq_bind,
        Option.bind_some, ih]

/-- **What the last pass queues**: each message once, the last one first. -/
theorem queue_spec (readers : CallbackMap) (dispatched : ℕ → Environment) (objects : ℕ)
    {made : List OvmsNotifyEntryCommand} (hne : ∀ g ∈ gs, g.1 ∈ g.2)
    (hlength : gs.length ≤ made.length) (q : Queueing)
    (hq : ∀ i, q.msg = some i → gs.length ≤ i) :
    ∃ q', (items gs).foldlM (queueMsg readers dispatched objects made) q = some q' ∧
      q'.queued = q.queued ++ (List.range gs.length).reverse := by
  induction gs generalizing q with
  | nil => exact ⟨q, rfl, by simp⟩
  | cons g gs ih =>
      obtain ⟨hg, hgs⟩ := List.forall_mem_cons.mp hne
      obtain ⟨verbosity, levels, hlevels⟩ := List.exists_cons_of_ne_nil (List.ne_nil_of_mem hg)
      have hfresh : some gs.length ≠ q.msg := by
        intro hsame
        exact Nat.not_succ_le_self _ (hq gs.length hsame.symm)
      obtain ⟨e, he⟩ : ∃ e, made[gs.length]? = some e :=
        ⟨made[gs.length], List.getElem?_eq_getElem hlength⟩
      obtain ⟨q₁, hq₁, hmsg, hqueued⟩ : ∃ q₁,
          queueMsg readers dispatched objects made q (verbosity, some gs.length) = some q₁ ∧
          q₁.msg = some gs.length ∧ q₁.queued = q.queued ++ [gs.length] := by
        rw [queueMsg, if_neg hfresh, Option.bind_some, he]
        exact ⟨_, rfl, rfl, rfl⟩
      obtain ⟨q', hq', hrest⟩ := ih hgs (Nat.le_of_succ_le hlength) q₁ fun i hi => by
        rw [hmsg, Option.some_inj] at hi
        exact hi.le
      refine ⟨q', ?_, ?_⟩
      · rw [items, hlevels, List.map_cons, List.cons_append, List.foldlM_cons, hq₁,
          Option.bind_eq_bind, Option.bind_some, List.foldlM_append,
          foldlM_queueMsg_skip hmsg, Option.bind_eq_bind, Option.bind_some, hq']
      · rw [hrest, hqueued, List.length_cons, List.range_succ, List.reverse_append,
          List.append_assoc]
        rfl

/-! ### All of it -/

/-- What is asked of the entries that were made: each accepting reader is pending on one of them,
which has the output for its limit, or for a higher one that is not longer than its limit; some
accepting reader is pending on each; and each is queued once. -/
structure ReachesOnce (R : RegisteredReaders) (env : Environment) (subtype : Text)
    (output : Output) (r : Notified) : Prop where
  one : ∀ mc, R.Accepts env subtype mc →
    ∃! i : ℕ, ∃ e, r.made[i]? = some e ∧ e.isRead mc.reader = false
  right : ∀ mc, R.Accepts env subtype mc → ∀ e ∈ r.made, e.isRead mc.reader = false →
    e.value = (output e.verbosity).1 ∧ (e.verbosity = mc.verbosity ∨
      mc.verbosity < e.verbosity ∧ (e.value.length : ℤ) ≤ mc.verbosity)
  pending : ∀ e ∈ r.made, ∃ mc, R.Accepts env subtype mc ∧ e.isRead mc.reader = false
  queued : r.queueing.queued.Perm (List.range r.made.length)

/-- What `NotifyCommand` leaves, in terms of the limits of the accepting readers. -/
structure Leaves (R : RegisteredReaders) (env : Environment) (subtype : Text) (output : Output)
    (levels : List ℤ) (r : Notified) : Prop where
  ordered : levels.Pairwise (· > ·)
  mem : ∀ verbosity, verbosity ∈ levels ↔
    ∃ mc, R.Accepts env subtype mc ∧ mc.verbosity = verbosity
  added : Added output env subtype (groups output levels) R.map.toList r.made
  queued : r.queueing.queued = (List.range (groups output levels).length).reverse

/-- Limits that are needed are those of accepting readers. -/
theorem Needs.mem_iff {needed : VerbosityMsgs × Readers}
    (h : Needs env subtype R.map.toList needed) :
    verbosity ∈ needed.1 ↔ ∃ mc, R.Accepts env subtype mc ∧ mc.verbosity = verbosity := by
  rw [TreeMap.mem_iff_isSome_getElem?, Option.isSome_iff_exists]
  constructor
  · rintro ⟨msg, hmsg⟩
    obtain ⟨-, p, hp, haccepts, hverbosity⟩ := (h.levels verbosity msg).mp hmsg
    exact ⟨p.2, ⟨R.getElem?_of_mem hp, haccepts⟩, hverbosity⟩
  · rintro ⟨mc, ⟨hmc, haccepts⟩, hverbosity⟩
    exact ⟨none, (h.levels verbosity none).mpr
      ⟨rfl, _, R.mem_of_getElem? hmc, haccepts, hverbosity⟩⟩

/-- No limit is needed exactly when no reader accepts. -/
theorem Needs.size_eq_zero_iff {needed : VerbosityMsgs × Readers}
    (h : Needs env subtype R.map.toList needed) :
    needed.1.size = 0 ↔ ∀ mc, ¬ R.Accepts env subtype mc := by
  rw [← beq_iff_eq, ← TreeMap.isEmpty_eq_size_eq_zero, TreeMap.isEmpty_iff_forall_not_mem]
  constructor
  · exact fun hnone mc hmc => hnone mc.verbosity (h.mem_iff.mpr ⟨mc, hmc, rfl⟩)
  · intro hnone verbosity hverbosity
    obtain ⟨mc, hmc, -⟩ := h.mem_iff.mp hverbosity
    exact hnone mc hmc

variable {t : OvmsNotifyType} {dispatched : ℕ → Environment} {objects : ℕ}

theorem notifyCommand_none (h : ∀ mc, ¬ R.Accepts env subtype mc) :
    t.notifyCommand R.map env dispatched objects subtype output
      = some ⟨[], ⟨t, [], [], [], none, 0⟩⟩ := by
  obtain ⟨needed, hneeded, hspec⟩ := levels_spec R env subtype
    fun p hp haccepts => absurd ⟨R.getElem?_of_mem hp, haccepts⟩ (h p.2)
  rw [OvmsNotifyType.notifyCommand, hneeded, Option.bind_some,
    if_pos (hspec.size_eq_zero_iff.mpr h)]

/-- **What is left** when all numbers have bits. -/
theorem notifyCommand_some (t : OvmsNotifyType) (dispatched : ℕ → Environment) (objects : ℕ)
    (output : Output) {mc : OvmsNotifyCallbackEntry} (hmc : R.Accepts env subtype mc)
    (hlt : ∀ p ∈ R.map.toList, p.2.reader < notifyMaxReaders) :
    ∃ levels r, t.notifyCommand R.map env dispatched objects subtype output = some r ∧
      Leaves R env subtype output levels r := by
  obtain ⟨needed, hneeded, hspec⟩ := levels_spec R env subtype
    fun p hp _ => hlt p hp
  have hsize : ¬ needed.1.size = 0 := fun hsize => hspec.size_eq_zero_iff.mp hsize mc hmc
  have hfetched : Fetched output subtype needed.1 (fetch output subtype needed.1)
      (groups output needed.1.keys.reverse) := by
    refine fetch_spec fun verbosity hverbosity => ?_
    obtain ⟨mc, ⟨hmc, haccepts⟩, rfl⟩ := hspec.mem_iff.mp hverbosity
    exact (hspec.levels _ _).mpr ⟨rfl, _, R.mem_of_getElem? hmc, haccepts, rfl⟩
  have hgs : (groups output needed.1.keys.reverse).flatMap Prod.snd = needed.1.keys := by
    rw [flatMap_groups, List.reverse_reverse]
  have hnodup : ((groups output needed.1.keys.reverse).flatMap Prod.snd).Nodup := by
    rw [hgs]
    exact TreeMap.nodup_keys
  have hshares := shares_groups output (keys_reverse_pairwise needed.1)
  obtain ⟨made, hmade, hadded⟩ := addReaders_spec hspec hfetched (fun verbosity hverbosity => by
    rw [← TreeMap.mem_keys, ← hgs, List.mem_flatMap] at hverbosity
    obtain ⟨g, hg, hmem⟩ := hverbosity
    obtain ⟨i, hi⟩ := List.mem_iff_getElem?.mp (List.mem_reverse.mpr hg)
    rw [place_of_mem hnodup hi hmem]
    rfl) hlt
  obtain ⟨q, hq, hqueued⟩ := queue_spec R.map dispatched objects
    (fun g hg => (hshares g hg).1) hadded.length.ge ⟨t, [], [], [], none, 0⟩ (by simp)
  refine ⟨needed.1.keys.reverse, ⟨made, q⟩, ?_, keys_reverse_pairwise _, ?_, hadded, ?_⟩
  · rw [OvmsNotifyType.notifyCommand, hneeded, Option.bind_some, if_neg hsize]
    simp only [hmade, Option.bind_some, hfetched.toList_msgs hgs, hq, Option.map_some]
  · intro verbosity
    rw [List.mem_reverse, TreeMap.mem_keys, hspec.mem_iff]
  · rw [hqueued, List.nil_append]

/-! ### When each reader is reached once -/

variable {r : Notified} {mc : OvmsNotifyCallbackEntry} {levels : List ℤ}

theorem limit_of_nonneg (hnonneg : 0 ≤ verbosity) (hlt : verbosity < 2 ^ 31) :
    (limit verbosity : ℤ) = verbosity := by
  rw [limit]
  omega

theorem length_le_limit (output : Output) {level : ℤ} (hneg : verbosity < 0)
    (hge : -2 ^ 31 ≤ verbosity) : (output level).1.length ≤ limit verbosity := by
  have hlength := (output level).2
  rw [limit]
  omega

/-- So a limit below zero gets the message of a higher one, if there is one. -/
theorem top_ne_of_neg {level : ℤ} (hlevels : levels.Pairwise (· > ·)) (hlevel : level ∈ levels)
    (hlt : verbosity < level) (hneg : verbosity < 0) (hge : -2 ^ 31 ≤ verbosity) :
    ∀ g ∈ groups output levels, verbosity ∈ g.2 → g.1 ≠ verbosity := by
  induction levels using List.reverseRecOn with
  | nil => simp at hlevel
  | append_singleton levels last ih =>
      obtain ⟨hlevels', -, hlast⟩ := List.pairwise_append.mp hlevels
      have hlast : ∀ level ∈ levels, last < level := fun level hlevel =>
        hlast level hlevel last (List.mem_singleton_self _)
      have hgroups : ∀ g ∈ groups output levels, ∀ level ∈ g.2, level ∈ levels := by
        intro g hg level hmem
        rw [← List.mem_reverse, ← flatMap_groups output]
        exact List.mem_flatMap.mpr ⟨g, hg, hmem⟩
      have htops : ∀ g ∈ groups output levels, g.1 ∈ levels := fun g hg =>
        hgroups g hg g.1 (shares_groups output hlevels' g hg).1
      rw [groups, List.foldl_concat, ← groups]
      by_cases hself : verbosity = last
      · -- the limit is the lowest, and joins the last group
        subst hself
        have hbefore : level ∈ levels := by
          rcases List.mem_append.mp hlevel with h | h
          · exact h
          · exact absurd (List.mem_singleton.mp h) hlt.ne'
        obtain ⟨g, gs, hg⟩ : ∃ g gs, groups output levels = g :: gs := by
          refine List.exists_cons_of_ne_nil fun hnil => ?_
          have hflat := flatMap_groups output levels
          rw [hnil, List.flatMap_nil, eq_comm, List.reverse_eq_nil_iff] at hflat
          simp [hflat] at hbefore
        rw [hg] at htops ⊢
        rw [join, if_pos (length_le_limit output hneg hge)]
        intro g' hg' _
        rcases List.mem_cons.mp hg' with rfl | hg'
        · exact (hlast g.1 (htops g List.mem_cons_self)).ne'
        · exact (hlast g'.1 (htops g' (List.mem_cons_of_mem _ hg'))).ne'
      · intro g' hg' hmem
        obtain ⟨g, hg, hgmem, htop⟩ := exists_of_mem_join hg' hmem hself
        have hbefore : level ∈ levels := by
          rcases List.mem_append.mp hlevel with h | h
          · exact h
          · have hlower := hlast verbosity (hgroups g hg verbosity hgmem)
            exact absurd (List.mem_singleton.mp h ▸ hlt) hlower.asymm
        exact htop ▸ ih hlevels' hbefore g hg hgmem

/-- Where a reader is pending. -/
theorem Leaves.isRead_eq_false_iff (h : Leaves R env subtype output levels r)
    (hlt : ∀ p ∈ R.map.toList, p.2.reader < notifyMaxReaders) (hmc : R.Accepts env subtype mc)
    {i : ℕ} {e : OvmsNotifyEntryCommand} (he : r.made[i]? = some e) :
    e.isRead mc.reader = false ↔ place (groups output levels) mc.verbosity = some i := by
  have hmem := R.mem_of_getElem? hmc.1
  rw [OvmsNotifyEntry.isRead_eq _ (hlt _ hmem), Bool.not_eq_false', h.added.bits i e he]
  constructor
  · rintro ⟨p, hp, -, hreader, hplace⟩
    have hsame := (R.getElem?_of_mem hp).symm.trans (hreader ▸ hmc.1)
    rwa [Option.some.inj hsame] at hplace
  · exact fun hplace => ⟨_, hmem, hmc.2, rfl, hplace⟩

/-- **Each reader is reached once**, if no limit is below zero, or there is one limit only. -/
theorem Leaves.reachesOnce (h : Leaves R env subtype output levels r)
    (hlt : ∀ p ∈ R.map.toList, p.2.reader < notifyMaxReaders)
    (hlimits : (∀ mc, R.Accepts env subtype mc → 0 ≤ mc.verbosity) ∨
      ∀ mc mc', R.Accepts env subtype mc → R.Accepts env subtype mc' →
        mc.verbosity = mc'.verbosity) : ReachesOnce R env subtype output r := by
  have hgs := flatMap_groups output levels
  have hshares := shares_groups output h.ordered
  have hnodup : ((groups output levels).flatMap Prod.snd).Nodup := by
    rw [hgs, List.nodup_reverse]
    exact h.ordered.imp fun h => ne_of_gt h
  have hlevel : ∀ {g}, g ∈ groups output levels → ∀ verbosity ∈ g.2,
      ∃ mc, R.Accepts env subtype mc ∧ mc.verbosity = verbosity := by
    intro g hg verbosity hverbosity
    refine (h.mem verbosity).mp (List.mem_reverse.mp ?_)
    rw [← hgs]
    exact List.mem_flatMap.mpr ⟨g, hg, hverbosity⟩
  constructor
  · intro mc hmc
    have hmem : mc.verbosity ∈ (groups output levels).flatMap Prod.snd := by
      rw [hgs, List.mem_reverse]
      exact (h.mem _).mpr ⟨mc, hmc, rfl⟩
    obtain ⟨g, hg, hgmem⟩ := List.mem_flatMap.mp hmem
    obtain ⟨i, hi⟩ := List.mem_iff_getElem?.mp (List.mem_reverse.mpr hg)
    have hplace := place_of_mem hnodup hi hgmem
    have hlength : i < r.made.length := by
      rw [h.added.length, ← List.length_reverse]
      exact (List.getElem?_eq_some_iff.mp hi).1
    have he := List.getElem?_eq_getElem hlength
    refine ⟨i, ⟨_, he, (h.isRead_eq_false_iff hlt hmc he).mpr hplace⟩, ?_⟩
    rintro j ⟨e, he, hread⟩
    exact Option.some.inj
      (((h.isRead_eq_false_iff hlt hmc he).mp hread).symm.trans hplace)
  · intro mc hmc e he hread
    obtain ⟨i, hi⟩ := List.mem_iff_getElem?.mp he
    obtain ⟨g, hg, hverbosity, hvalue⟩ := h.added.entry i e hi
    obtain ⟨g', hg', hmem⟩ := mem_of_place ((h.isRead_eq_false_iff hlt hmc hi).mp hread)
    obtain rfl := Option.some.inj (hg.symm.trans hg')
    have hin := List.mem_reverse.mp (List.mem_of_getElem? hg)
    rw [hvalue, hverbosity]
    refine ⟨rfl, ?_⟩
    rcases (hshares g hin).2 _ hmem with htop | ⟨hbelow, hfits⟩
    · exact .inl htop.symm
    · refine .inr ⟨hbelow, ?_⟩
      rcases hlimits with hnonneg | hsame
      · have hint := (R.int _ _ hmc.1).2
        rw [← limit_of_nonneg (hnonneg mc hmc) hint]
        exact_mod_cast hfits
      · obtain ⟨mc', hmc', htop⟩ := hlevel hin g.1 (hshares g hin).1
        exact absurd ((hsame mc mc' hmc hmc').trans htop) hbelow.ne
  · intro e he
    obtain ⟨i, hi⟩ := List.mem_iff_getElem?.mp he
    obtain ⟨g, hg, -, -⟩ := h.added.entry i e hi
    have hin := List.mem_reverse.mp (List.mem_of_getElem? hg)
    obtain ⟨mc, hmc, hverbosity⟩ := hlevel hin g.1 (hshares g hin).1
    refine ⟨mc, hmc, (h.isRead_eq_false_iff hlt hmc hi).mpr ?_⟩
    rw [hverbosity]
    exact place_of_mem hnodup hg (hshares g hin).1
  · rw [h.queued, h.added.length]
    exact List.reverse_perm _

/-- And only then. -/
theorem Leaves.limits (h : Leaves R env subtype output levels r)
    (hlt : ∀ p ∈ R.map.toList, p.2.reader < notifyMaxReaders)
    (hreaches : ReachesOnce R env subtype output r) {low high : OvmsNotifyCallbackEntry}
    (hlow : R.Accepts env subtype low) (hhigh : R.Accepts env subtype high)
    (hbelow : low.verbosity < high.verbosity) : 0 ≤ low.verbosity := by
  by_contra! hneg
  obtain ⟨i, ⟨e, he, hread⟩, -⟩ := hreaches.one low hlow
  have hplace := (h.isRead_eq_false_iff hlt hlow he).mp hread
  obtain ⟨g, hg, hverbosity, -⟩ := h.added.entry i e he
  obtain ⟨g', hg', hmem⟩ := mem_of_place hplace
  obtain rfl := Option.some.inj (hg.symm.trans hg')
  have hin := List.mem_reverse.mp (List.mem_of_getElem? hg)
  have htop := top_ne_of_neg h.ordered ((h.mem _).mpr ⟨high, hhigh, rfl⟩) hbelow hneg
    (R.int _ _ hlow.1).1 g hin hmem
  obtain ⟨-, hsame | ⟨-, hlength⟩⟩ := hreaches.right low hlow e (List.mem_of_getElem? he) hread
  · exact htop (hverbosity ▸ hsame)
  · omega

/-- A number without a bit ends the program, once a reader accepts. -/
theorem notifyCommand_eq_none (hmc : R.Accepts env subtype mc)
    {p : ℕ × OvmsNotifyCallbackEntry} (hp : p ∈ R.map.toList)
    (hlt : ¬ p.2.reader < notifyMaxReaders) :
    t.notifyCommand R.map env dispatched objects subtype output = none := by
  rw [OvmsNotifyType.notifyCommand]
  by_cases haccepting : ∀ q ∈ R.map.toList,
      q.2.accepts env subtype 0 = true → q.2.reader < notifyMaxReaders
  · obtain ⟨needed, hneeded, hspec⟩ := levels_spec R env subtype haccepting
    have hsize : ¬ needed.1.size = 0 := fun hsize => hspec.size_eq_zero_iff.mp hsize mc hmc
    rw [hneeded, Option.bind_some, if_neg hsize]
    simp only [addReaders_eq_none hp hlt, Option.bind_none]
  · push Not at haccepting
    obtain ⟨q, hq, haccepts, hlt⟩ := haccepting
    rw [levels_eq_none hq haccepts (Nat.not_lt.mpr hlt), Option.bind_none]

/-- **Reaching each reader once**: exactly when no reader accepts, or all numbers of readers have
bits, and no limit is below zero or all accepting readers have one limit. -/
theorem reachesOnce_iff (R : RegisteredReaders) (env : Environment)
    (dispatched : ℕ → Environment) (objects : ℕ) (subtype : Text) (output : Output)
    (t : OvmsNotifyType) :
    (∃ r, t.notifyCommand R.map env dispatched objects subtype output = some r ∧
        ReachesOnce R env subtype output r) ↔
      (∀ mc, ¬ R.Accepts env subtype mc) ∨
        (∀ (reader : ℕ) (mc : OvmsNotifyCallbackEntry), R.map[reader]? = some mc →
          reader < notifyMaxReaders) ∧
        ((∀ mc, R.Accepts env subtype mc → 0 ≤ mc.verbosity) ∨
          ∀ mc mc', R.Accepts env subtype mc → R.Accepts env subtype mc' →
            mc.verbosity = mc'.verbosity) := by
  by_cases hnone : ∀ mc, ¬ R.Accepts env subtype mc
  · refine iff_of_true ⟨_, notifyCommand_none hnone, ?_⟩ (.inl hnone)
    exact ⟨fun mc hmc => absurd hmc (hnone mc), fun mc hmc => absurd hmc (hnone mc), by simp,
      .refl _⟩
  rw [or_iff_right hnone]
  push Not at hnone
  obtain ⟨mc, hmc⟩ := hnone
  constructor
  · rintro ⟨r, hr, hreaches⟩
    have hlt : ∀ p ∈ R.map.toList, p.2.reader < notifyMaxReaders := by
      intro p hp
      by_contra hlt
      rw [notifyCommand_eq_none hmc hp hlt] at hr
      cases hr
    obtain ⟨levels, r', hr', hleaves⟩ := notifyCommand_some t dispatched objects output hmc hlt
    obtain rfl := Option.some.inj (hr.symm.trans hr')
    refine ⟨fun reader mc' hmc' => ?_, ?_⟩
    · have hown := R.own reader mc' hmc'
      exact hown ▸ hlt _ (R.mem_of_getElem? (hown.symm ▸ hmc'))
    · by_contra! hlimits
      obtain ⟨⟨low, hlow, hneg⟩, first, second, hfirst, hsecond, hne⟩ := hlimits
      -- a limit below zero is the only one
      have hsame : ∀ other, R.Accepts env subtype other → other.verbosity = low.verbosity := by
        intro other hother
        rcases Int.lt_trichotomy other.verbosity low.verbosity with h | h | h
        · exact absurd (hleaves.limits hlt hreaches hother hlow h) (h.trans hneg).not_ge
        · exact h
        · exact absurd (hleaves.limits hlt hreaches hlow hother h) hneg.not_ge
      exact hne ((hsame first hfirst).trans (hsame second hsecond).symm)
  · rintro ⟨hlt, hlimits⟩
    have hlt : ∀ p ∈ R.map.toList, p.2.reader < notifyMaxReaders := fun p hp =>
      hlt p.2.reader p.2 (R.getElem?_of_mem hp)
    obtain ⟨levels, r, hr, hleaves⟩ := notifyCommand_some t dispatched objects output hmc hlt
    exact ⟨r, hr, hleaves.reachesOnce hlt hlimits⟩

/-- A reader under a number, with a limit, that accepts everything. -/
def listener (reader : ℕ) (verbosity : ℤ) : OvmsNotifyCallbackEntry :=
  ⟨[], false, reader, verbosity, false⟩

/-- Nothing is configured, and nothing is processed. -/
def silent : Environment := ⟨fun _ => [], fun _ => true, fun _ => false⟩

/-- `ok`, at each limit. -/
def ok : Output := fun _ => ⟨[0x6F, 0x6B], by decide⟩

-- two readers share one entry
example : (OvmsNotifyType.notifyCommand (.new [])
    ((RegisteredReaders.none.register (listener 1 140) (by decide)).register (listener 2 1024)
      (by decide)).map silent (fun _ => silent) 0 [] ok).map
      (fun r => (r.made.map fun e => (e.verbosity, e.pendingreaders), r.queueing.queued))
    = some ([(1024, 6#32)], [0]) := by
  decide +kernel

/-- The thirty-second reader that registers has the number 32. -/
theorem not_reachesOnce : ¬ ∀ (R : RegisteredReaders) (env : Environment)
    (dispatched : ℕ → Environment) (objects : ℕ) (subtype : Text) (output : Output)
    (t : OvmsNotifyType), ∃ r,
      t.notifyCommand R.map env dispatched objects subtype output = some r ∧
        ReachesOnce R env subtype output r := by
  intro h
  obtain ⟨r, hr, -⟩ := h (RegisteredReaders.none.register (listener 32 1024) (by decide)) silent
    (fun _ => silent) 0 [] ok (.new [])
  have haccepts : (RegisteredReaders.none.register (listener 32 1024) (by decide)).Accepts silent
      [] (listener 32 1024) := ⟨by decide +kernel, by decide⟩
  rw [notifyCommand_eq_none haccepts (p := (32, listener 32 1024)) (by decide +kernel)
    (by decide)] at hr
  cases hr

end Ovms.Notify
