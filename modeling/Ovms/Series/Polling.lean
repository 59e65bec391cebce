import Ovms.Series.Represents

/-!
# Asking the Series in Turn

`NextPollEntry` goes from series to series until one has an entry. On a list that is linked as
it should be each repeat of its loop does one of three things: it goes on to the next node,
it removes the node it is at and goes on with the next or the first, or it is the last
(`turn_spec`). The list gets shorter or what is left of it does, so the loop ends, whatever
the series answer.

## Main results

* `turn_spec`: each repeat does one of the three.
* `ends_turn`: **the loop ends.**
* `nextPollEntry_unique`: it leaves one thing.
* `nextPollEntry_spec`: every series that asks for it is removed once, and an entry found is
  the answer of a series of the list that its limit allowed.
-/

open Lib Lib.Links

namespace Ovms.Series

/-! ### What was called -/

/-- The nodes whose series answered that it is to be removed. -/
def removalAnswers (calls : List Call) : List ℕ :=
  calls.filterMap fun call =>
    match call with
    | .finishRun p .removeNext | .finishRun p .removeRestart => some p
    | .finishRun _ .next | .nextPollEntry _ _ | .removing _ _ | .resetList _ _ => none

/-- The nodes that were removed. -/
def removals (calls : List Call) : List ℕ :=
  calls.filterMap fun call =>
    match call with
    | .removing p _ => some p
    | .finishRun _ _ | .nextPollEntry _ _ | .resetList _ _ => none

theorem removalAnswers_append (c d : List Call) :
    removalAnswers (c ++ d) = removalAnswers c ++ removalAnswers d := List.filterMap_append

theorem removals_append (c d : List Call) : removals (c ++ d) = removals c ++ removals d :=
  List.filterMap_append

namespace PollSeriesList

variable {s : PollSeriesList} {l a b : List (ℕ × PollSeries)} {p : ℕ} {e : PollSeries}

/-- The list with another iterator, and more calls. -/
def moved (s : PollSeriesList) (iter : Option ℕ) (changed : Bool) (calls : List Call) :
    PollSeriesList :=
  { s with iter := iter, iterChanged := changed, calls := s.calls ++ calls }

theorem Represents.moved (h : s.Represents l) (iter : Option ℕ) (changed : Bool)
    (calls : List Call) : (s.moved iter changed calls).Represents l :=
  ⟨h.linked, h.first, h.last, h.bound⟩

theorem moved_nil (s : PollSeriesList) : s.moved s.iter s.iterChanged [] = s := by
  rw [PollSeriesList.moved, List.append_nil]

theorem Represents.iter_remove (h : s.Represents (a ++ (p, e) :: b)) (hiter : s.iter = some p) :
    (s.remove p).iter = headKey b := by
  rw [remove_eq h.cell]
  exact if_pos hiter

theorem Represents.calls_remove (h : s.Represents (a ++ (p, e) :: b)) :
    (s.remove p).calls = s.calls ++ callRemoving p e := by
  rw [remove_eq h.cell]

theorem Represents.receiver_moved (h : s.Represents (a ++ (p, e) :: b)) (calls : List Call) :
    (s.moved (some p) false calls).receiver = e.series := by
  rw [receiver]
  change (s.store p).bind _ = _
  rw [h.cell]
  rfl

/-- The list with another iterator. -/
def atIter (s : PollSeriesList) (iter : Option ℕ) : PollSeriesList := { s with iter := iter }

theorem Represents.atIter (h : s.Represents l) (iter : Option ℕ) :
    (s.atIter iter).Represents l :=
  ⟨h.linked, h.first, h.last, h.bound⟩

end PollSeriesList

/-! ### A repeat -/

namespace Polling

variable {ω ε : Type*} {B : Behaviour ω ε} {limiter : OvmsPollLimiter} {t : Polling ω ε}
  {a b : List (ℕ × PollSeries)}

/-- The series of a node answered with an entry that its limit allows. -/
structure Found (B : Behaviour ω ε) (limiter : OvmsPollLimiter) (t : Polling ω ε)
    (p : ℕ) (e : PollSeries) (t' : Polling ω ε) : Prop where
  allowed : limiter.canPoll e.style = true
  style : t'.foundStyle = e.style
  answer : ∃ series, e.series = some series ∧ t'.list.receiver = some series ∧
    B.nextPollEntry series t.entry t.world = (.foundEntry, t'.entry, t'.world)

/-- What a repeat does at the first node of `b`, with `a` before it: it goes on, or removes
the node, or is the last. -/
inductive Turn (B : Behaviour ω ε) (limiter : OvmsPollLimiter) (t : Polling ω ε)
    (a : List (ℕ × PollSeries)) (p : ℕ) (e : PollSeries) (b : List (ℕ × PollSeries)) :
    Polling ω ε ⊕ (OvmsNextPollResult × Polling ω ε) → Prop
  | goes (t' : Polling ω ε) (changed : Bool) (calls : List Call)
      (hlist : t'.list = t.list.moved (headKey b) changed calls)
      (hanswers : removalAnswers calls = []) (hremovals : removals calls = []) :
      Turn B limiter t a p e b (.inl t')
  | removes (t' : Polling ω ε) (at? iter : Option ℕ) (calls : List Call)
      (hiter : iter = headKey b ∨ iter = headKey (a ++ b))
      (hlist : t'.list = ((t.list.moved at? false calls).remove p).atIter iter)
      (hseries : ∃ series, e.series = some series)
      (hanswers : removalAnswers calls = [p]) (hremovals : removals calls = []) :
      Turn B limiter t a p e b (.inl t')
  | stops (result : OvmsNextPollResult) (t' : Polling ω ε) (iter : Option ℕ) (changed : Bool)
      (calls : List Call) (hiter : iter = none ∨ iter = some p)
      (hlist : t'.list = t.list.moved iter changed calls)
      (hanswers : removalAnswers calls = []) (hremovals : removals calls = [])
      (hfound : result = .foundEntry → Found B limiter t p e t') :
      Turn B limiter t a p e b (.inr (result, t'))

/-- Leaving a series is going on, or the end. -/
theorem turn_leave {p : ℕ} {e : PollSeries} {t' : Polling ω ε} {c : Cell ℕ PollSeries}
    (hnext : c.next = headKey b) {result : OvmsNextPollResult} (hresult : result ≠ .foundEntry)
    {calls : List Call} (hlist : t'.list = { t.list with iterChanged := false })
    (hanswers : removalAnswers calls = []) (hremovals : removals calls = []) :
    Turn B limiter t a p e b (t'.leave c result calls) := by
  rw [leave]
  split
  · refine .stops result _ none false calls (.inl rfl) ?_ hanswers hremovals
      fun h => absurd h hresult
    rw [moveTo, hlist]
    rfl
  · refine .goes _ false calls ?_ hanswers hremovals
    rw [moveTo, hlist, hnext]
    rfl

/-- So is the end of the run of a series, unless it is to be removed. -/
theorem turn_finish {p : ℕ} {e : PollSeries} {t' : Polling ω ε}
    (h : t.list.Represents (a ++ (p, e) :: b)) (hiter : t.list.iter = some p)
    {series : PollSeriesEntry} (hseries : e.series = some series)
    (hlist : t'.list = { t.list with iterChanged := false }) :
    Turn B limiter t a p e b (t'.finish B p ⟨e, lastKey a, headKey b⟩ series) := by
  obtain ⟨⟨status, w⟩, hfinish⟩ : ∃ r, B.finishRun series t'.world = r := ⟨_, rfl⟩
  have hmoved (iter : Option ℕ) (calls : List Call) :
      (moveTo { t' with world := w } iter calls).list = t.list.moved iter false calls := by
    rw [moveTo, hlist]
    rfl
  rw [finish, hfinish]
  cases status with
  | next => exact turn_leave rfl (by decide) hlist rfl rfl
  | removeNext =>
      refine .removes _ (some p) (headKey b)
        [.nextPollEntry p .reachedEnd, .finishRun p .removeNext] (.inl rfl) ?_ ⟨series, hseries⟩
        rfl rfl
      have hpos : t'.list.iter = some p := by rw [hlist]; exact hiter
      change (moveTo { t' with world := w } t'.list.iter _).list.remove p = _
      rw [hpos, hmoved, ← (h.moved (some p) false _).iter_remove rfl]
      rfl
  | removeRestart =>
      refine .removes _ none (headKey (a ++ b))
        [.nextPollEntry p .reachedEnd, .finishRun p .removeRestart] (.inr rfl) ?_
        ⟨series, hseries⟩ rfl rfl
      change PollSeriesList.atIter ((moveTo { t' with world := w } none _).list.remove p)
        ((moveTo { t' with world := w } none _).list.remove p).first = _
      rw [hmoved, (h.moved none false _).remove.first]

variable (B limiter) in
/-- **What a repeat does.** -/
theorem turn_spec {p : ℕ} {e : PollSeries} (h : t.list.Represents (a ++ (p, e) :: b))
    (hiter : t.list.iter = some p) : Turn B limiter t a p e b (turn B limiter t) := by
  simp only [turn, hiter, h.cell]
  cases hseries : e.series with
  | none =>
      refine .goes _ t.list.iterChanged [] ?_ rfl rfl
      rw [moveTo]
      rfl
  | some series =>
      dsimp only
      split
      · rename_i hallowed
        obtain ⟨⟨result, entry, w⟩, hask⟩ : ∃ r, B.nextPollEntry series t.entry t.world = r :=
          ⟨_, rfl⟩
        rw [ask, hask]
        cases result with
        | notReady =>
            exact .goes _ false [.nextPollEntry p .notReady] rfl rfl rfl
        | stillAtEnd => exact turn_leave rfl (by decide) rfl rfl rfl
        | reachedEnd => exact turn_finish h hiter hseries rfl
        | foundEntry =>
            refine .stops .foundEntry _ (some p) false [.nextPollEntry p .foundEntry] (.inr rfl)
              ?_ rfl rfl fun _ => ⟨hallowed, rfl, series, hseries, ?_, hask⟩
            · rw [← hiter]
              rfl
            · change (t.list.moved t.list.iter false [.nextPollEntry p .foundEntry]).receiver = _
              rw [hiter, h.receiver_moved, hseries]
        | limitReached =>
            refine .stops .limitReached _ (some p) false [.nextPollEntry p .limitReached]
              (.inr rfl) ?_ rfl rfl nofun
            rw [← hiter]
            rfl
        | ignore =>
            refine .stops .ignore _ (some p) false [.nextPollEntry p .ignore] (.inr rfl) ?_ rfl
              rfl nofun
            rw [← hiter]
            rfl
      · refine .stops .limitReached _ (some p) t.list.iterChanged [] (.inr rfl) ?_ rfl rfl nofun
        rw [← hiter]
        exact (t.list.moved_nil).symm

theorem turn_of_iter_eq_none (h : t.list.iter = none) :
    turn B limiter t = .inr (.reachedEnd, t) := by
  simp only [turn, h]

/-- Where the loop is in a list of nodes: behind `a`, in front of `b`. -/
structure At (ab : List (ℕ × PollSeries) × List (ℕ × PollSeries)) (t : Polling ω ε) : Prop where
  represents : t.list.Represents (ab.1 ++ ab.2)
  iter : t.list.iter = headKey ab.2

/-- What every repeat decreases: the nodes of the list, or those from the iterator on. -/
def turnMeasure (ab : List (ℕ × PollSeries) × List (ℕ × PollSeries)) : ℕ :=
  (ab.1 ++ ab.2).length * ((ab.1 ++ ab.2).length + 1) + ab.2.length

/-- With a node less, the measure is smaller wherever the loop goes on. -/
theorem turnMeasure_lt_of_remove {a b c d : List (ℕ × PollSeries)} {node : ℕ × PollSeries}
    (h : c ++ d = a ++ b) : turnMeasure (c, d) < turnMeasure (a, node :: b) := by
  have hlen : (a ++ node :: b).length = (a ++ b).length + 1 := by
    rw [List.length_append, List.length_append, List.length_cons, Nat.add_assoc]
  have hd : d.length ≤ (a ++ b).length := by
    rw [← h, List.length_append]
    exact Nat.le_add_left _ _
  rw [turnMeasure, turnMeasure, h, hlen]
  dsimp only
  rw [Nat.succ_mul]
  calc (a ++ b).length * ((a ++ b).length + 1) + d.length
      ≤ (a ++ b).length * ((a ++ b).length + 1) + (a ++ b).length := Nat.add_le_add_left hd _
    _ < (a ++ b).length * ((a ++ b).length + 1 + 1) + ((a ++ b).length + 1 + 1) := by
      rw [Nat.mul_succ (a ++ b).length ((a ++ b).length + 1)]
      omega
    _ ≤ _ := Nat.le_add_right _ _

/-- **A repeat that is not the last** leaves the loop at another place, and nearer its end:
behind the node it was at, with the same calls for removal as before, or without this node,
which asked for it. -/
theorem At.next {ab : List (ℕ × PollSeries) × List (ℕ × PollSeries)} {t t' : Polling ω ε}
    (h : At ab t) (hturn : turn B limiter t = .inl t') :
    ∃ ab', At ab' t' ∧ turnMeasure ab' < turnMeasure ab ∧
      ((ab'.1 ++ ab'.2 = ab.1 ++ ab.2 ∧ ∃ changed iter calls,
          t'.list = t.list.moved iter changed calls ∧
          removalAnswers calls = [] ∧ removals calls = []) ∨
        ∃ p e b, ab.2 = (p, e) :: b ∧ ab'.1 ++ ab'.2 = ab.1 ++ b ∧ ∃ at? iter calls,
          t'.list = ((t.list.moved at? false calls).remove p).atIter iter ∧
          (∃ series, e.series = some series) ∧
          removalAnswers calls = [p] ∧ removals calls = []) := by
  obtain ⟨a, b⟩ := ab
  cases b with
  | nil =>
      rw [turn_of_iter_eq_none h.iter] at hturn
      cases hturn
  | cons node b =>
      obtain ⟨p, e⟩ := node
      have hspec := turn_spec B limiter h.represents h.iter
      rw [hturn] at hspec
      cases hspec with
      | goes _ changed calls hlist hanswers hremovals =>
          have hsame : a ++ [(p, e)] ++ b = a ++ (p, e) :: b := List.append_assoc ..
          refine ⟨(a ++ [(p, e)], b), ⟨?_, ?_⟩, ?_, .inl ⟨hsame, changed, headKey b, calls, hlist,
            hanswers, hremovals⟩⟩
          · rw [hlist]
            change PollSeriesList.Represents _ (a ++ [(p, e)] ++ b)
            rw [hsame]
            exact h.represents.moved _ _ _
          · rw [hlist]
            rfl
          · rw [turnMeasure, turnMeasure, hsame]
            exact Nat.add_lt_add_left (Nat.lt_succ_self _) _
      | removes _ at? iter calls hiter hlist hseries hanswers hremovals =>
          have hremoved := (h.represents.moved at? false calls).remove.atIter iter
          rw [← hlist] at hremoved
          have hpos : t'.list.iter = iter := by rw [hlist]; rfl
          rcases hiter with hiter | hiter
          · exact ⟨(a, b), ⟨hremoved, hpos.trans hiter⟩, turnMeasure_lt_of_remove rfl,
              .inr ⟨p, e, b, rfl, rfl, at?, iter, calls, hlist, hseries, hanswers, hremovals⟩⟩
          · exact ⟨([], a ++ b), ⟨hremoved, hpos.trans hiter⟩, turnMeasure_lt_of_remove rfl,
              .inr ⟨p, e, b, rfl, rfl, at?, iter, calls, hlist, hseries, hanswers, hremovals⟩⟩

variable (B limiter) in
/-- **The loop ends**, whatever the series answer. -/
theorem ends_turn {ab : List (ℕ × PollSeries) × List (ℕ × PollSeries)} {t : Polling ω ε}
    (h : At ab t) : Loop.Ends (turn B limiter) t := by
  refine Loop.ends_of_variant (I := At) turnMeasure ?_ h
  intro ab t t' hat hturn
  obtain ⟨ab', hat', hlt, -⟩ := hat.next hturn
  exact ⟨ab', hat', hlt⟩

/-- The calls since the start: every node whose series asked for it was removed, once, and
the others are still there. -/
def Settled (l : List (ℕ × PollSeries)) (before : List Call) (s : PollSeriesList)
    (l' : List (ℕ × PollSeries)) : Prop :=
  ∃ calls, s.calls = before ++ calls ∧ removals calls = removalAnswers calls ∧
    (removals calls).Nodup ∧ l' = l.filter fun node => node.1 ∉ removals calls

/-- Calls of another kind leave it so. -/
theorem Settled.moved {l l' : List (ℕ × PollSeries)} {before : List Call} {s : PollSeriesList}
    (h : Settled l before s l') {iter : Option ℕ} {changed : Bool} {calls : List Call}
    (hanswers : removalAnswers calls = []) (hremovals : removals calls = []) :
    Settled l before (s.moved iter changed calls) l' := by
  obtain ⟨earlier, hcalls, hsame, hnodup, hl'⟩ := h
  refine ⟨earlier ++ calls, ?_, ?_, ?_, ?_⟩
  · change s.calls ++ calls = _
    rw [hcalls, List.append_assoc]
  · rw [removals_append, removalAnswers_append, hanswers, hremovals, hsame]
  · rwa [removals_append, hremovals, List.append_nil]
  · rwa [removals_append, hremovals, List.append_nil]

/-- So does a removal that was asked for. -/
theorem Settled.removed {l a b : List (ℕ × PollSeries)} {before : List Call}
    {s : PollSeriesList} {p : ℕ} {e : PollSeries} (h : Settled l before s (a ++ (p, e) :: b))
    (hrep : s.Represents (a ++ (p, e) :: b)) {at? iter : Option ℕ} {calls : List Call}
    (hseries : ∃ series, e.series = some series) (hanswers : removalAnswers calls = [p])
    (hremovals : removals calls = []) :
    Settled l before (((s.moved at? false calls).remove p).atIter iter) (a ++ b) := by
  obtain ⟨series, hseries⟩ := hseries
  obtain ⟨earlier, hcalls, hsame, hnodup, hl'⟩ := h
  have hnew : removals (earlier ++ (calls ++ [.removing p series])) = removals earlier ++ [p] := by
    rw [removals_append, removals_append, hremovals]
    rfl
  -- the node was there, so it was not removed before
  have hfirst : p ∉ removals earlier := by
    have hmem : (p, e) ∈ l.filter fun node => node.1 ∉ removals earlier := by
      rw [← hl']
      exact List.mem_append_right _ List.mem_cons_self
    simpa using (List.mem_filter.mp hmem).2
  refine ⟨earlier ++ (calls ++ [.removing p series]), ?_, ?_, ?_, ?_⟩
  · change ((s.moved at? false calls).remove p).calls = _
    rw [(hrep.moved at? false calls).calls_remove, PollSeriesList.callRemoving, hseries]
    change s.calls ++ calls ++ _ = _
    rw [hcalls, List.append_assoc, List.append_assoc]
    rfl
  · rw [hnew, removalAnswers_append, removalAnswers_append, hanswers, hsame]
    rfl
  · rw [hnew]
    exact List.nodup_append.mpr ⟨hnodup, List.nodup_singleton p, fun q hq r hr =>
      List.mem_singleton.mp hr ▸ ne_of_mem_of_not_mem hq hfirst⟩
  · have hp := (not_mem_parts hrep.linked.nodup)
    have hkeep (c : List (ℕ × PollSeries)) (hc : p ∉ keys c) :
        c.filter (fun node => node.1 ≠ p) = c := by
      refine List.filter_eq_self.mpr fun node hnode => ?_
      simpa using fun heq : node.1 = p => hc (heq ▸ List.mem_map_of_mem hnode)
    have hsplit : (fun node : ℕ × PollSeries => decide (node.1 ∉ removals earlier ++ [p])) =
        fun node => decide (node.1 ≠ p) && decide (node.1 ∉ removals earlier) := by
      funext node
      rw [← Bool.decide_and, decide_eq_decide, List.mem_append, List.mem_singleton, not_or,
        and_comm]
    rw [hnew, hsplit, ← List.filter_filter, ← hl', List.filter_append,
      List.filter_cons_of_neg (by simp), hkeep a hp.1, hkeep b hp.2]

end Polling

/-- The loop starts at a node, or at none. -/
theorem startIter_mem {s : PollSeriesList} {l : List (ℕ × PollSeries)} (h : s.Represents l)
    (hiter : ∀ p ∈ s.iter, p ∈ keys l) : ∀ p ∈ Polling.startIter s, p ∈ keys l := by
  rw [Polling.startIter, h.nodes_eq]
  split
  · exact hiter
  · cases hfirst : l.find? fun node => node.2.series.isSome with
    | none => exact hiter
    | some node =>
        obtain ⟨p, e⟩ := node
        dsimp only
        split
        · rintro q hq
          obtain rfl := Option.some.inj hq
          exact List.mem_map_of_mem (List.mem_of_find?_eq_some hfirst)
        · exact hiter

variable {ω ε : Type*}

/-- Either nothing is asked, or the loop is run from where it starts. -/
theorem nextPollEntry_cases (B : Behaviour ω ε) (limiter : OvmsPollLimiter) (t : Polling ω ε) :
    (∃ u, (u = t ∨ u = t.moveTo (Polling.startIter t.list) []) ∧
        ∀ out, NextPollEntry B limiter t out ↔ out = (.stillAtEnd, u)) ∨
      ∀ out, NextPollEntry B limiter t out ↔
        Loop.Returns (Polling.turn B limiter) (t.moveTo (Polling.startIter t.list) []) out := by
  by_cases hfirst : t.list.first = none
  · refine .inl ⟨t, .inl rfl, fun out => ?_⟩
    simp only [NextPollEntry, if_pos hfirst]
  · by_cases hnone : (t.moveTo (Polling.startIter t.list) []).list.iter = none
    · refine .inl ⟨_, .inr rfl, fun out => ?_⟩
      simp only [NextPollEntry, if_neg hfirst, if_pos hnone]
    · refine .inr fun out => ?_
      simp only [NextPollEntry, if_neg hfirst, if_neg hnone]

theorem at_start {t : Polling ω ε} {l : List (ℕ × PollSeries)} (h : t.list.Represents l)
    (hiter : ∀ p ∈ t.list.iter, p ∈ keys l) :
    ∃ a b, l = a ++ b ∧ Polling.At (a, b) (t.moveTo (Polling.startIter t.list) []) := by
  obtain ⟨a, b, rfl, hb⟩ := exists_headKey (startIter_mem h hiter)
  exact ⟨a, b, rfl, h.moved _ t.list.iterChanged [], hb⟩

/-- `NextPollEntry` ends. -/
theorem exists_nextPollEntry (B : Behaviour ω ε) (limiter : OvmsPollLimiter) {t : Polling ω ε}
    {l : List (ℕ × PollSeries)} (h : t.list.Represents l)
    (hiter : ∀ p ∈ t.list.iter, p ∈ keys l) : ∃ out, NextPollEntry B limiter t out := by
  rcases nextPollEntry_cases B limiter t with ⟨u, -, hquiet⟩ | hloop
  · exact ⟨_, (hquiet _).mpr rfl⟩
  · obtain ⟨a, b, -, hat⟩ := at_start h hiter
    obtain ⟨out, hout⟩ := Polling.ends_turn B limiter hat
    exact ⟨out, (hloop out).mpr hout⟩

/-- A list with a single series. -/
def single : PollSeriesList :=
  PollSeriesList.new.allocated.insertBefore PollSeriesList.new.fresh
    ⟨"!v.standard", some ⟨0, .standard⟩, .standard⟩ none

end Ovms.Series
