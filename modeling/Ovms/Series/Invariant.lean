import Ovms.Series.Polling
import Ovms.Lib.Machine

/-!
# The Invariant of the Series List

What is meant to hold of the list after any operations on it: the walk forward and the walk
back see the same nodes, names are unique, blocking series come before others and are
counted, each node records the style of its series, and the iterator is at a node.

Removing nodes, going on and starting again keep it. Setting an entry keeps it unless it does
one of three things: it replaces a series by one of another style, which the node does not
record; it inserts a blocking series between blocking and other ones, which leaves out a link
(`Represents.walks_insert`); or it adds one blocking series too many for the count.
-/

open Lib Lib.Links

namespace Ovms.Series

namespace PollSeriesList

/-- What the nodes of a list hold, in their order. -/
structure Ordered (l : List (ℕ × PollSeries)) : Prop where
  names : (l.map fun node => node.2.name).Nodup
  blockingFirst : l.Pairwise fun a b => b.2.isBlocking → a.2.isBlocking
  styles : ∀ node ∈ l, node.2.series.map PollSeriesEntry.style = some node.2.style

/-- The blocking nodes, counted. -/
def blockingNodes (l : List (ℕ × PollSeries)) : ℕ := l.countP fun node => node.2.isBlocking

/-- The iterator is null or at a node. -/
def Placed (s : PollSeriesList) (l : List (ℕ × PollSeries)) : Prop := ∀ p ∈ s.iter, p ∈ keys l

/-- **The invariant** of the list, with these nodes. -/
structure Invariant (s : PollSeriesList) (l : List (ℕ × PollSeries)) : Prop where
  forward : Walk Cell.next s.store s.first l
  backward : Walk Cell.prev s.store s.last l.reverse
  ordered : Ordered l
  count : s.blockingCount.toNat = blockingNodes l
  placed : s.Placed l

/-- The list has the nodes that the invariant asks for. -/
def Valid (s : PollSeriesList) : Prop := ∃ l, s.Invariant l

/-- The invariant, wherever the iterator is, and with room for new nodes. -/
structure Kept (s : PollSeriesList) (l : List (ℕ × PollSeries)) : Prop where
  represents : s.Represents l
  ordered : Ordered l
  count : s.blockingCount.toNat = blockingNodes l

variable {s : PollSeriesList} {l a b : List (ℕ × PollSeries)} {p : ℕ} {e : PollSeries}

theorem Kept.valid (h : s.Kept l) (hplaced : s.Placed l) : s.Valid := by
  obtain ⟨hforward, hbackward⟩ :=
    linked_iff_walks.mp ⟨h.represents.linked, h.represents.first, h.represents.last⟩
  exact ⟨l, hforward, hbackward, h.ordered, h.count, hplaced⟩

theorem Represents.eq_of_invariant (h : s.Represents l) {l' : List (ℕ × PollSeries)}
    (h' : s.Invariant l') : l' = l := by
  have hwalk := h.linked.walks.1
  rw [← h.first] at hwalk
  exact h'.forward.unique hwalk

/-! ### The nodes in their order -/

theorem Ordered.sublist {l' : List (ℕ × PollSeries)} (h : Ordered l) (hsub : l'.Sublist l) :
    Ordered l' :=
  ⟨h.names.sublist (hsub.map _), h.blockingFirst.sublist hsub,
    fun node hnode => h.styles node (hsub.subset hnode)⟩

theorem Ordered.seriesBlocking (h : Ordered l) (hmem : (p, e) ∈ l) :
    e.seriesBlocking = e.isBlocking := by
  have hstyle := h.styles _ hmem
  rw [Option.map_eq_some_iff] at hstyle
  obtain ⟨series, hseries, hstyle⟩ := hstyle
  rw [PollSeries.seriesBlocking, hseries, PollSeries.isBlocking, ← hstyle]
  rfl

theorem blockingNodes_append (a b : List (ℕ × PollSeries)) :
    blockingNodes (a ++ b) = blockingNodes a + blockingNodes b := List.countP_append

theorem blockingNodes_cons (p : ℕ) (e : PollSeries) (l : List (ℕ × PollSeries)) :
    blockingNodes ((p, e) :: l) = blockingNodes l + if e.isBlocking then 1 else 0 :=
  List.countP_cons

/-- Another series of the same style. -/
theorem Ordered.replace (h : Ordered (a ++ (p, e) :: b)) {series : PollSeriesEntry}
    (hstyle : series.style = e.style) :
    Ordered (a ++ (p, { e with series := some series }) :: b) := by
  refine ⟨?_, ?_, ?_⟩
  · have hnames := h.names
    rw [List.map_append, List.map_cons] at hnames ⊢
    exact hnames
  · have hfirst := h.blockingFirst
    rw [List.pairwise_append, List.pairwise_cons] at hfirst ⊢
    obtain ⟨ha, ⟨hpb, hb⟩, hab⟩ := hfirst
    refine ⟨ha, ⟨hpb, hb⟩, fun c hc d hd => ?_⟩
    rcases List.mem_cons.mp hd with rfl | hd
    · exact hab c hc (p, e) List.mem_cons_self
    · exact hab c hc d (List.mem_cons_of_mem _ hd)
  · intro node hnode
    rcases List.mem_append.mp hnode with hnode | hnode
    · exact h.styles node (List.mem_append_left _ hnode)
    rcases List.mem_cons.mp hnode with rfl | hnode
    · exact congrArg some hstyle
    · exact h.styles node (List.mem_append_right _ (List.mem_cons_of_mem _ hnode))

/-- A node with a new name between those that are blocking, if it is, and those that are
not. -/
theorem Ordered.insert (h : Ordered (a ++ b)) {x : PollSeries}
    (hname : ∀ node ∈ a ++ b, node.2.name ≠ x.name)
    (hstyle : x.series.map PollSeriesEntry.style = some x.style)
    (ha : x.isBlocking → ∀ node ∈ a, node.2.isBlocking)
    (hb : ¬ x.isBlocking → ∀ node ∈ b, ¬ node.2.isBlocking) : Ordered (a ++ (p, x) :: b) := by
  refine ⟨?_, ?_, ?_⟩
  · rw [List.map_append, List.map_cons, List.nodup_middle, List.nodup_cons, ← List.map_append]
    refine ⟨fun hmem => ?_, h.names⟩
    obtain ⟨node, hnode, heq⟩ := List.mem_map.mp hmem
    exact hname node hnode heq
  · have hfirst := h.blockingFirst
    rw [List.pairwise_append] at hfirst
    obtain ⟨hpa, hpb, hab⟩ := hfirst
    rw [List.pairwise_append, List.pairwise_cons]
    refine ⟨hpa, ⟨fun d hd hblocking => ?_, hpb⟩, fun c hc d hd => ?_⟩
    · by_contra hx
      exact hb hx d hd hblocking
    · rcases List.mem_cons.mp hd with rfl | hd
      · exact fun hx => ha hx c hc
      · exact hab c hc d hd
  · intro node hnode
    rcases List.mem_append.mp hnode with hnode | hnode
    · exact h.styles node (List.mem_append_left _ hnode)
    rcases List.mem_cons.mp hnode with rfl | hnode
    · exact hstyle
    · exact h.styles node (List.mem_append_right _ hnode)

/-! ### Removing nodes, and going on -/

theorem Kept.moved (h : s.Kept l) (iter : Option ℕ) (changed : Bool) (calls : List Call) :
    (s.moved iter changed calls).Kept l :=
  ⟨h.represents.moved iter changed calls, h.ordered, h.count⟩

theorem Kept.atIter (h : s.Kept l) (iter : Option ℕ) : (s.atIter iter).Kept l :=
  ⟨h.represents.atIter iter, h.ordered, h.count⟩

theorem sublist_remove : (a ++ b).Sublist (a ++ (p, e) :: b) :=
  (List.Sublist.refl a).append (List.sublist_cons_self _ _)

/-- **Without one of its nodes.** -/
theorem Kept.remove (h : s.Kept (a ++ (p, e) :: b)) : (s.remove p).Kept (a ++ b) := by
  refine ⟨h.represents.remove, h.ordered.sublist sublist_remove, ?_⟩
  have hblocking := h.ordered.seriesBlocking (List.mem_append_right a List.mem_cons_self)
  have hcount := h.count
  rw [blockingNodes_append, blockingNodes_cons] at hcount
  rw [remove_eq h.represents.cell, blockingNodes_append]
  dsimp only
  rw [hblocking]
  split
  · rename_i he
    rw [if_pos he] at hcount
    have hle : (1 : UInt16) ≤ s.blockingCount := by
      rw [UInt16.le_iff_toNat_le, hcount]
      exact Nat.le_add_left _ _
    rw [UInt16.toNat_sub_of_le _ _ hle, hcount]
    rfl
  · rename_i he
    rwa [if_neg he] at hcount

/-- An iterator at the node moves on to the next. -/
theorem Placed.remove (hplaced : s.Placed (a ++ (p, e) :: b))
    (h : s.Represents (a ++ (p, e) :: b)) : (s.remove p).Placed (a ++ b) := by
  by_cases hiter : s.iter = some p
  · exact mem_keys_of_headKey_append (h.iter_remove hiter)
  · have hsame : (s.remove p).iter = s.iter := by
      rw [remove_eq h.cell]
      exact if_neg hiter
    intro q hq
    rw [hsame] at hq
    have hmem := hplaced q hq
    have hne : q ≠ p := fun heq => hiter (heq ▸ hq)
    rw [keys, List.map_append, List.map_cons, List.mem_append, List.mem_cons] at hmem
    rw [keys, List.map_append, List.mem_append]
    exact hmem.imp_right fun hmem => hmem.resolve_left hne

/-- What `RemoveEntry` leaves of the nodes. -/
def removeFound (found : PollSeries → Bool) (startsWith : Bool) (l : List (ℕ × PollSeries)) :
    List (ℕ × PollSeries) :=
  if startsWith then l.filter fun node => !found node.2 else l.eraseP fun node => found node.2

theorem removeFound_cons (found : PollSeries → Bool) (startsWith : Bool) (p : ℕ)
    (e : PollSeries) (l : List (ℕ × PollSeries)) :
    removeFound found startsWith ((p, e) :: l) =
      if found e then (if startsWith then removeFound found startsWith l else l)
      else (p, e) :: removeFound found startsWith l := by
  cases startsWith <;> cases hfound : found e <;> simp [removeFound, hfound]

/-- The nodes from one on that are found are removed: all of them, or the first. -/
theorem Kept.removeLoop {found : PollSeries → Bool} {startsWith : Bool} :
    ∀ {n : ℕ} {s : PollSeriesList} {a b : List (ℕ × PollSeries)}, b.length ≤ n →
      s.Kept (a ++ b) → s.Placed (a ++ b) →
      (removeLoop found startsWith n (headKey b) s).Kept (a ++ removeFound found startsWith b) ∧
        (removeLoop found startsWith n (headKey b) s).Placed
          (a ++ removeFound found startsWith b)
  | n, s, a, [], _, h, hplaced => by
      have hnil : removeFound found startsWith [] = [] := by cases startsWith <;> rfl
      have hstop : PollSeriesList.removeLoop found startsWith n none s = s := by cases n <;> rfl
      change (PollSeriesList.removeLoop found startsWith n none s).Kept _ ∧
        (PollSeriesList.removeLoop found startsWith n none s).Placed _
      rw [hnil, hstop]
      exact ⟨h, hplaced⟩
  | n + 1, s, a, (p, e) :: b, hlen, h, hplaced => by
      have hlen' : b.length ≤ n := Nat.le_of_succ_le_succ hlen
      have hnext : PollSeriesList.removeLoop found startsWith (n + 1) (some p) s =
          if found e then
            if startsWith then PollSeriesList.removeLoop found startsWith n (headKey b) (s.remove p)
            else s.remove p
          else PollSeriesList.removeLoop found startsWith n (headKey b) s := by
        simp only [PollSeriesList.removeLoop, h.represents.cell]
      change (PollSeriesList.removeLoop found startsWith (n + 1) (some p) s).Kept _ ∧
        (PollSeriesList.removeLoop found startsWith (n + 1) (some p) s).Placed _
      rw [hnext, removeFound_cons]
      cases found e with
      | false =>
          -- the node stays, and stands before the others
          have hassoc (c : List (ℕ × PollSeries)) : a ++ (p, e) :: c = a ++ [(p, e)] ++ c :=
            (List.append_assoc a [(p, e)] c).symm
          rw [hassoc] at h hplaced
          rw [if_neg Bool.false_ne_true, if_neg Bool.false_ne_true, hassoc]
          exact Kept.removeLoop hlen' h hplaced
      | true =>
          rw [if_pos rfl, if_pos rfl]
          cases startsWith with
          | false => exact ⟨h.remove, hplaced.remove h.represents⟩
          | true => exact Kept.removeLoop hlen' h.remove (hplaced.remove h.represents)

/-- **`RemoveEntry`** removes the node of the name, or all whose names start with it. -/
theorem Kept.removeEntry (h : s.Kept l) (hplaced : s.Placed l) (name : String)
    (startsWith : Bool) :
    let l' := removeFound
      (fun e => if startsWith then name.isPrefixOf e.name else e.name == name) startsWith l
    (s.removeEntry name startsWith).Kept l' ∧ (s.removeEntry name startsWith).Placed l' := by
  rw [PollSeriesList.removeEntry, h.represents.first]
  exact Kept.removeLoop (a := []) h.represents.length_le h hplaced

/-- All nodes are removed, one after the other. -/
theorem Kept.clearLoop : ∀ {n : ℕ} {s : PollSeriesList} {l : List (ℕ × PollSeries)},
    l.length ≤ n → s.Kept l → s.Placed l → (clearLoop n s).Kept [] ∧ (clearLoop n s).Placed []
  | n, s, [], _, h, hplaced => by
      have hstop : PollSeriesList.clearLoop n s = s := by
        cases n with
        | zero => rfl
        | succ n => simp only [PollSeriesList.clearLoop, h.represents.first, headKey]; rfl
      rw [hstop]
      exact ⟨h, hplaced⟩
  | n + 1, s, (p, e) :: l, hlen, h, hplaced => by
      have hfirst : s.first = some p := h.represents.first
      simp only [PollSeriesList.clearLoop, hfirst]
      exact Kept.clearLoop (Nat.le_of_succ_le_succ hlen) (Kept.remove (a := []) h)
        (Placed.remove (a := []) hplaced h.represents)

/-- **`Clear`** leaves no nodes. -/
theorem Kept.clear (h : s.Kept l) (hplaced : s.Placed l) :
    s.clear.Kept [] ∧ s.clear.Placed [] :=
  Kept.clearLoop h.represents.length_le h hplaced

/-- **`RestartPoll`** leaves the nodes, and starts from the first. -/
theorem Kept.restartPoll (h : s.Kept l) (mode : ResetMode) :
    (s.restartPoll mode).Kept l ∧ (s.restartPoll mode).Placed l := by
  have hmoved := h.moved s.first true (s.nodes.flatMap fun node =>
    node.2.series.toList.map fun _ => .resetList node.1 mode)
  exact ⟨hmoved, mem_keys_of_headKey_append (a := []) h.represents.first⟩

/-! ### Setting an entry -/

/-- A name is that of one of the nodes, or new. -/
theorem Represents.findName_cases (h : s.Represents l) (name : String) :
    (∃ a p e b, l = a ++ (p, e) :: b ∧ s.findName name = some (p, e)) ∨
      s.findName name = none ∧ ∀ node ∈ l, node.2.name ≠ name := by
  rw [findName, h.nodes_eq]
  cases hfind : l.find? fun node => node.2.name == name with
  | none =>
      rw [List.find?_eq_none] at hfind
      exact .inr ⟨rfl, fun node hnode heq => hfind node hnode (beq_iff_eq.mpr heq)⟩
  | some node =>
      obtain ⟨p, e⟩ := node
      obtain ⟨-, a, b, hl, -⟩ := List.find?_eq_some_iff_append.mp hfind
      exact .inl ⟨a, p, e, b, hl, rfl⟩

/-- The series of a node replaced, and the count for it. -/
theorem Kept.replace (h : s.Kept (a ++ (p, e) :: b)) {series : PollSeriesEntry}
    (hstyle : series.style = e.style) :
    (s.replace p e series).Kept (a ++ (p, { e with series := some series }) :: b) := by
  refine ⟨h.represents.replace series, h.ordered.replace hstyle, ?_⟩
  have hblocking := h.ordered.seriesBlocking (List.mem_append_right a List.mem_cons_self)
  have hcount : (s.replace p e series).blockingCount = s.blockingCount := by
    rw [PollSeriesList.replace]
    dsimp only
    rw [hblocking, PollSeries.isBlocking, ← hstyle]
    by_cases hseries : series.style = .blocking
    · rw [if_pos hseries, if_pos (beq_iff_eq.mpr hseries)]
      exact UInt16.sub_add_cancel _ _
    · rw [if_neg hseries, if_neg fun heq => hseries (beq_iff_eq.mp heq)]
  rw [hcount, h.count, blockingNodes_append, blockingNodes_append, blockingNodes_cons,
    blockingNodes_cons]
  rfl

theorem Kept.not_valid_replace (h : s.Kept (a ++ (p, e) :: b)) {series : PollSeriesEntry}
    (hstyle : series.style ≠ e.style) : ¬ (s.replace p e series).Valid := by
  rintro ⟨l', hvalid⟩
  obtain rfl := (h.represents.replace series).eq_of_invariant hvalid
  have hrecorded := hvalid.ordered.styles (p, { e with series := some series })
    (List.mem_append_right a List.mem_cons_self)
  exact hstyle (Option.some.inj hrecorded)

/-- The list with another count. -/
def counted (s : PollSeriesList) (n : UInt16) : PollSeriesList := { s with blockingCount := n }

theorem Represents.counted (h : s.Represents l) (n : UInt16) : (s.counted n).Represents l :=
  ⟨h.linked, h.first, h.last, h.bound⟩

theorem insertBefore_others (s : PollSeriesList) (p : ℕ) (e : PollSeries) (before : Option ℕ) :
    (s.insertBefore p e before).blockingCount = s.blockingCount ∧
      (s.insertBefore p e before).iter = s.iter := by
  rw [insertBefore]
  split <;> exact ⟨rfl, rfl⟩

/-- The fields of a new node. -/
def newNode (name : String) (series : PollSeriesEntry) : PollSeries :=
  ⟨name, some series, series.style⟩

theorem add_standard (s : PollSeriesList) (name : String) {series : PollSeriesEntry}
    (hstyle : series.style ≠ .blocking) :
    s.add name series = s.allocated.insertBefore s.fresh (newNode name series) none := by
  rw [add, if_neg hstyle, if_neg hstyle]
  rfl

/-- A new node that is a blocking one. -/
theorem Represents.add_blocking (h : s.Represents l) (name : String) {series : PollSeriesEntry}
    (hstyle : series.style = .blocking) :
    s.add name series = (s.allocated.insertBefore s.fresh (newNode name series)
      ((l.find? fun node => !node.2.isBlocking).map Prod.fst)).counted (s.blockingCount + 1) := by
  rw [add, h.nodes_eq, if_pos hstyle, if_pos hstyle]
  change PollSeriesList.counted (s.allocated.insertBefore s.fresh (newNode name series) _)
    ((s.allocated.insertBefore s.fresh (newNode name series) _).blockingCount + 1) = _
  rw [(insertBefore_others _ _ _ _).1]
  rfl

/-- Blocking nodes, and others. -/
def Mixed (l : List (ℕ × PollSeries)) : Prop :=
  (∃ node ∈ l, node.2.isBlocking) ∧ ∃ node ∈ l, ¬ node.2.isBlocking

/-- A list with a new node. -/
theorem Placed.insert (hplaced : s.Placed (a ++ b)) {t : PollSeriesList} (hiter : t.iter = s.iter)
    {q : ℕ} {x : PollSeries} : t.Placed (a ++ (q, x) :: b) := by
  intro r hr
  rw [hiter] at hr
  have hmem := hplaced r hr
  rw [keys, List.map_append, List.mem_append] at hmem
  rw [keys, List.map_append, List.mem_append]
  exact hmem.imp_right (List.mem_cons_of_mem _)

/-- **A new node that is not a blocking one.** -/
theorem Kept.add_standard (h : s.Kept l) (hplaced : s.Placed l) {name : String}
    (hname : ∀ node ∈ l, node.2.name ≠ name) {series : PollSeriesEntry}
    (hstyle : series.style ≠ .blocking) :
    ∃ l', (s.add name series).Kept l' ∧ (s.add name series).Placed l' := by
  have hothers := insertBefore_others s.allocated s.fresh (newNode name series) none
  have hnil : l ++ [] = l := List.append_nil l
  have hnew : ¬ (newNode name series).isBlocking := fun heq => hstyle (beq_iff_eq.mp heq)
  have hordered : Ordered (l ++ (s.fresh, newNode name series) :: []) :=
    Ordered.insert (by rw [hnil]; exact h.ordered) (by rw [hnil]; exact hname) rfl
      (fun heq => absurd heq hnew) fun _ _ => nofun
  rw [PollSeriesList.add_standard s name hstyle]
  refine ⟨_, ⟨h.represents.append _ (.inl rfl), hordered, ?_⟩,
    Placed.insert (by rw [hnil]; exact hplaced) hothers.2⟩
  rw [hothers.1, blockingNodes_append, blockingNodes_cons, if_neg hnew]
  exact h.count

/-- The nodes with a new one that is blocking, where all are, or none is. -/
theorem Kept.insert_blocking (h : s.Kept l) {name : String}
    (hname : ∀ node ∈ l, node.2.name ≠ name) {series : PollSeriesEntry}
    (hstyle : series.style = .blocking) (hmixed : ¬ Mixed l) :
    ∃ a b, l = a ++ b ∧ Ordered (a ++ (s.fresh, newNode name series) :: b) ∧
      (s.add name series).Represents (a ++ (s.fresh, newNode name series) :: b) := by
  have hnew : (newNode name series).isBlocking := beq_iff_eq.mpr hstyle
  rw [h.represents.add_blocking name hstyle]
  cases hfind : l.find? fun node => !node.2.isBlocking with
  | none =>
      -- all are blocking ones
      rw [List.find?_eq_none] at hfind
      have hnil : l ++ [] = l := List.append_nil l
      refine ⟨l, [], hnil.symm, ?_, (h.represents.append _ (.inl rfl)).counted _⟩
      exact Ordered.insert (by rw [hnil]; exact h.ordered) (by rw [hnil]; exact hname) rfl
        (fun _ node hnode => by simpa using hfind node hnode) fun _ _ => nofun
  | some node =>
      obtain ⟨p, e⟩ := node
      have hnone : ∀ node ∈ l, ¬ node.2.isBlocking := fun node hnode hblocking =>
        hmixed ⟨⟨node, hnode, hblocking⟩, (p, e), List.mem_of_find?_eq_some hfind,
          by simpa using List.find?_some hfind⟩
      cases l with
      | nil => cases hfind
      | cons node l =>
          have hhead : (!node.2.isBlocking) = true := by
            simpa using hnone node List.mem_cons_self
          rw [List.find?_cons, hhead] at hfind
          obtain rfl := Option.some.inj hfind
          refine ⟨[], (p, e) :: l, rfl, ?_, (h.represents.push _).counted _⟩
          exact Ordered.insert (a := []) h.ordered hname rfl (fun _ _ => nofun)
            fun hx => absurd hnew hx

/-- **A new node that is a blocking one**, with the nodes that it gets between, and the
count. -/
theorem Kept.add_blocking (h : s.Kept l) (hplaced : s.Placed l) {name : String}
    (hname : ∀ node ∈ l, node.2.name ≠ name) {series : PollSeriesEntry}
    (hstyle : series.style = .blocking) (hmixed : ¬ Mixed l) :
    ∃ l', (s.add name series).Represents l' ∧ Ordered l' ∧ (s.add name series).Placed l' ∧
      (s.add name series).blockingCount = s.blockingCount + 1 ∧
      blockingNodes l' = s.blockingCount.toNat + 1 := by
  obtain ⟨a, b, rfl, hordered, hrepresents⟩ := h.insert_blocking hname hstyle hmixed
  have hnew : (newNode name series).isBlocking := beq_iff_eq.mpr hstyle
  have hadd := h.represents.add_blocking name hstyle
  refine ⟨_, hrepresents, hordered, hplaced.insert ?_, ?_, ?_⟩
  · rw [hadd]
    exact (insertBefore_others _ _ _ _).2
  · rw [hadd]
    rfl
  · rw [h.count, blockingNodes_append, blockingNodes_append, blockingNodes_cons, if_pos hnew]
    rfl

/-- **The link left out shows**: between blocking nodes and others a new one is seen by one
of the walks only. -/
theorem Kept.not_valid_add_between (h : s.Kept l) {name : String} {series : PollSeriesEntry}
    (hstyle : series.style = .blocking) (hmixed : Mixed l) : ¬ (s.add name series).Valid := by
  obtain ⟨⟨node, hnode, hblocking⟩, ⟨other, hother, hnot⟩⟩ := hmixed
  obtain ⟨⟨p, e⟩, hfind⟩ : ∃ node, l.find? (fun node => !node.2.isBlocking) = some node :=
    Option.isSome_iff_exists.mp (List.find?_isSome.mpr ⟨other, hother, by simpa using hnot⟩)
  obtain ⟨he, a, b, rfl, -⟩ := List.find?_eq_some_iff_append.mp hfind
  -- the first that is not blocking is not the first of all
  have ha : a ≠ [] := by
    rintro rfl
    have hfirst := (List.pairwise_cons.mp h.ordered.blockingFirst).1
    rcases List.mem_cons.mp hnode with rfl | hnode
    · simp [hblocking] at he
    · simp [hfirst node hnode hblocking] at he
  obtain ⟨hforward, hbackward⟩ := h.represents.walks_insert ha (newNode name series)
  rw [h.represents.add_blocking name hstyle, hfind]
  rintro ⟨l', hvalid⟩
  have heq : l' = a ++ (p, e) :: b := hvalid.forward.unique hforward
  have hrev : l'.reverse = (a ++ (s.fresh, newNode name series) :: (p, e) :: b).reverse :=
    hvalid.backward.unique hbackward
  have hlen := congrArg List.length (List.reverse_injective hrev)
  rw [heq, List.length_append, List.length_append] at hlen
  simp at hlen

/-- The entry set is none of the three: a series replaced has the style that is recorded, and
a new blocking one comes to no others, or to others only, and can be counted. -/
def Fits (s : PollSeriesList) (name : String) (series : PollSeriesEntry) : Prop :=
  match s.findName name with
  | some (_, e) => e.series = some series ∨ series.style = e.style
  | none => series.style = .blocking → ¬ Mixed s.nodes ∧ s.blockingCount ≠ 65535

/-- **`SetEntry`**, with an entry that fits. -/
theorem Kept.setEntry (h : s.Kept l) (hplaced : s.Placed l) {name : String}
    {series : PollSeriesEntry} (hfits : s.Fits name series) :
    ∃ l', (s.setEntry name series).Kept l' ∧ (s.setEntry name series).Placed l' := by
  rcases h.represents.findName_cases name with ⟨a, p, e, b, rfl, hfind⟩ | ⟨hfind, hname⟩
  · simp only [Fits, hfind] at hfits
    simp only [PollSeriesList.setEntry, hfind]
    by_cases hsame : e.series = some series
    · rw [if_pos hsame]
      exact ⟨_, h, hplaced⟩
    · rw [if_neg hsame]
      refine ⟨_, h.replace (hfits.resolve_left hsame), ?_⟩
      intro q hq
      rw [keys_congr_item a b p e]
      exact hplaced q hq
  · simp only [Fits, hfind] at hfits
    simp only [PollSeriesList.setEntry, hfind]
    by_cases hstyle : series.style = .blocking
    · obtain ⟨hmixed, hfull⟩ := hfits hstyle
      rw [h.represents.nodes_eq] at hmixed
      obtain ⟨l', hrepresents, hordered, hplaced', hcount, hnodes⟩ :=
        h.add_blocking hplaced hname hstyle hmixed
      refine ⟨l', ⟨hrepresents, hordered, ?_⟩, hplaced'⟩
      have hlt : s.blockingCount.toNat ≠ 65535 := fun heq => hfull (UInt16.toNat_inj.mp heq)
      have hbound := s.blockingCount.toNat_lt
      rw [hcount, hnodes, UInt16.toNat_add]
      exact Nat.mod_eq_of_lt (by change _ + 1 < 65536; omega)
    · exact h.add_standard hplaced hname hstyle

/-- **`SetEntry`**, with an entry that does not. -/
theorem Kept.not_valid_setEntry (h : s.Kept l) (hplaced : s.Placed l) {name : String}
    {series : PollSeriesEntry} (hfits : ¬ s.Fits name series) :
    ¬ (s.setEntry name series).Valid := by
  rcases h.represents.findName_cases name with ⟨a, p, e, b, rfl, hfind⟩ | ⟨hfind, hname⟩
  · simp only [Fits, hfind, not_or] at hfits
    simp only [PollSeriesList.setEntry, hfind, if_neg hfits.1]
    exact h.not_valid_replace hfits.2
  · simp only [Fits, hfind, h.represents.nodes_eq, Classical.not_imp, not_and_or, not_not] at hfits
    simp only [PollSeriesList.setEntry, hfind]
    obtain ⟨hstyle, hmixed | hfull⟩ := hfits
    · exact h.not_valid_add_between hstyle hmixed
    · by_cases hmixed : Mixed l
      · exact h.not_valid_add_between hstyle hmixed
      · -- the count starts from zero again
        obtain ⟨l', hrepresents, -, -, hcount, hnodes⟩ :=
          h.add_blocking hplaced hname hstyle hmixed
        rintro ⟨l'', hvalid⟩
        obtain rfl := hrepresents.eq_of_invariant hvalid
        have hwrong := hvalid.count
        rw [hcount, hnodes, hfull] at hwrong
        exact absurd hwrong (by decide)

end PollSeriesList

/-! ### Asking the series -/

open PollSeriesList

variable {ω ε : Type*}

/-- **`NextPollEntry`**: with nodes removed or without, what is left is in order. -/
theorem PollSeriesList.Kept.nextPollEntry {B : Behaviour ω ε} {limiter : OvmsPollLimiter}
    {t t' : Polling ω ε} {l : List (ℕ × PollSeries)} (h : t.list.Kept l) (hplaced : t.list.Placed l)
    {result : OvmsNextPollResult} (hout : NextPollEntry B limiter t (result, t')) :
    ∃ l', t'.list.Kept l' ∧ t'.list.Placed l' := by
  have hstart : (t.moveTo (Polling.startIter t.list) []).list.Kept l :=
    h.moved _ t.list.iterChanged []
  rcases nextPollEntry_cases B limiter t with ⟨u, hu, hquiet⟩ | hloop
  · obtain ⟨rfl, rfl⟩ := Prod.mk.inj ((hquiet _).mp hout)
    rcases hu with rfl | rfl
    · exact ⟨l, h, hplaced⟩
    · exact ⟨l, hstart, startIter_mem h.represents hplaced⟩
  · obtain ⟨a, b, rfl, hat⟩ := at_start h.represents hplaced
    refine Loop.Returns.post
      (I := fun u => ∃ ab, Polling.At ab u ∧ u.list.Kept (ab.1 ++ ab.2))
      (Q := fun out => ∃ l', out.2.list.Kept l' ∧ out.2.list.Placed l') ?_ ?_
      ⟨(a, b), hat, hstart⟩ ((hloop _).mp hout)
    · rintro u u' ⟨ab, hat, hkept⟩ hturn
      obtain ⟨ab', hat', -, hstep⟩ := hat.next hturn
      refine ⟨ab', hat', ?_⟩
      rcases hstep with ⟨hsame, changed, iter, calls, hlist, -⟩ |
        ⟨p, e, b', hb, hless, at?, iter, calls, hlist, -⟩
      · rw [hsame, hlist]
        exact hkept.moved iter changed calls
      · rw [hb] at hkept
        rw [hless, hlist]
        exact (hkept.moved at? false calls).remove.atIter iter
    · rintro u ⟨result, u'⟩ ⟨⟨a', b'⟩, hat, hkept⟩ hturn
      cases b' with
      | nil =>
          rw [Polling.turn_of_iter_eq_none hat.iter] at hturn
          obtain ⟨rfl, rfl⟩ := Prod.mk.inj (Sum.inr.inj hturn)
          exact ⟨a' ++ [], hkept, mem_keys_of_headKey_append hat.iter⟩
      | cons node b' =>
          obtain ⟨p, e⟩ := node
          have hspec := Polling.turn_spec B limiter hat.represents hat.iter
          rw [hturn] at hspec
          cases hspec with
          | stops _ _ iter changed calls hiter hlist =>
              dsimp only
              rw [hlist]
              refine ⟨_, hkept.moved iter changed calls, ?_⟩
              rcases hiter with rfl | rfl
              · exact nofun
              · exact mem_keys_of_headKey_append (a := a') rfl

/-! ### Runs -/

/-- An operation on the list. -/
inductive Op (ω ε : Type*)
  | setEntry (name : String) (series : PollSeriesEntry)
  | removeEntry (name : String) (startsWith : Bool)
  | clear
  | restartPoll (mode : ResetMode)
  | nextPollEntry (B : Behaviour ω ε) (limiter : OvmsPollLimiter) (world : ω) (entry : ε)
      (foundStyle : PollEntryStyle)

/-- What an operation leaves. -/
def Steps (s : PollSeriesList) : Op ω ε → PollSeriesList → Prop
  | .setEntry name series, s' => s' = s.setEntry name series
  | .removeEntry name startsWith, s' => s' = s.removeEntry name startsWith
  | .clear, s' => s' = s.clear
  | .restartPoll mode, s' => s' = s.restartPoll mode
  | .nextPollEntry B limiter world entry foundStyle, s' =>
      ∃ result t, NextPollEntry B limiter ⟨s, world, entry, foundStyle⟩ (result, t) ∧ s' = t.list

/-- An operation ends, and leaves a list that the invariant holds of. -/
def LeavesValid (s : PollSeriesList) (op : Op ω ε) : Prop :=
  (∃ s', Steps s op s') ∧ ∀ s', Steps s op s' → s'.Valid

/-- The entry fits, if the operation sets one. -/
def Meets (s : PollSeriesList) : Op ω ε → Prop
  | .setEntry name series => s.Fits name series
  | .removeEntry _ _ | .clear | .restartPoll _ | .nextPollEntry _ _ _ _ _ => True

/-- What a run keeps. -/
def Sound (s : PollSeriesList) : Prop := ∃ l, s.Kept l ∧ s.Placed l

theorem sound_new : Sound new :=
  ⟨[], ⟨represents_new, ⟨.nil, .nil, nofun⟩, rfl⟩, nofun⟩

theorem Sound.valid {s : PollSeriesList} (h : Sound s) : s.Valid := by
  obtain ⟨l, hkept, hplaced⟩ := h
  exact hkept.valid hplaced

/-- **Every operation that meets the condition keeps it.** -/
theorem Sound.steps {s s' : PollSeriesList} (h : Sound s) {op : Op ω ε} (hmeets : Meets s op)
    (hstep : Steps s op s') : Sound s' := by
  obtain ⟨l, hkept, hplaced⟩ := h
  cases op with
  | setEntry name series =>
      obtain rfl := hstep
      exact hkept.setEntry hplaced hmeets
  | removeEntry name startsWith =>
      obtain rfl := hstep
      exact ⟨_, hkept.removeEntry hplaced name startsWith⟩
  | clear =>
      obtain rfl := hstep
      exact ⟨_, hkept.clear hplaced⟩
  | restartPoll mode =>
      obtain rfl := hstep
      exact ⟨_, hkept.restartPoll mode⟩
  | nextPollEntry B limiter world entry foundStyle =>
      obtain ⟨result, t, hout, rfl⟩ := hstep
      exact hkept.nextPollEntry hplaced hout

/-- Every operation ends. -/
theorem Sound.ends {s : PollSeriesList} (h : Sound s) (op : Op ω ε) : ∃ s', Steps s op s' := by
  obtain ⟨l, hkept, hplaced⟩ := h
  cases op with
  | setEntry name series => exact ⟨_, rfl⟩
  | removeEntry name startsWith => exact ⟨_, rfl⟩
  | clear => exact ⟨_, rfl⟩
  | restartPoll mode => exact ⟨_, rfl⟩
  | nextPollEntry B limiter world entry foundStyle =>
      obtain ⟨⟨result, t⟩, hout⟩ := exists_nextPollEntry B limiter
        (t := ⟨s, world, entry, foundStyle⟩) hkept.represents hplaced
      exact ⟨t.list, result, t, hout, rfl⟩

/-- **An operation leaves the invariant exactly when the condition is met.** -/
theorem Sound.leavesValid_iff {s : PollSeriesList} (h : Sound s) (op : Op ω ε) :
    LeavesValid s op ↔ Meets s op := by
  constructor
  · intro hvalid
    obtain ⟨l, hkept, hplaced⟩ := h
    cases op with
    | setEntry name series =>
        by_contra hfits
        exact hkept.not_valid_setEntry hplaced hfits (hvalid.2 _ rfl)
    | removeEntry name startsWith => trivial
    | clear => trivial
    | restartPoll mode => trivial
    | nextPollEntry B limiter world entry foundStyle => trivial
  · intro hmeets
    exact ⟨h.ends op, fun s' hstep => (h.steps hmeets hstep).valid⟩

/-- **The invariant of the list holds after every operation of a run exactly when every entry
set fits.** -/
theorem invariant_iff (ops : List (Op ω ε)) :
    AlongSteps Steps LeavesValid new ops ↔ AlongSteps Steps Meets new ops :=
  alongSteps_congr_of_invariant (I := Sound) (fun _ op h => h.leavesValid_iff op)
    (fun _ _ _ h hmeets hstep => h.steps hmeets hstep) sound_new

/-- A blocking series, another one, and a blocking one again. -/
def blockingAgain : List (Op Unit Unit) :=
  [.setEntry "!v.a" ⟨0, .blocking⟩, .setEntry "!v.b" ⟨1, .standard⟩,
    .setEntry "!v.c" ⟨2, .blocking⟩]

/-- The second blocking series does not fit: the walk forward does not see its node. -/
theorem not_invariant_of_blockingAgain : ¬ AlongSteps Steps LeavesValid new blockingAgain := by
  rintro ⟨-, hrun⟩
  obtain ⟨-, hrun⟩ := hrun _ rfl
  obtain ⟨⟨-, hvalid⟩, -⟩ := hrun _ rfl
  obtain ⟨l, hvalid⟩ := hvalid _ rfl
  have hforward := hvalid.forward.unique (m := [(0, newNode "!v.a" ⟨0, .blocking⟩),
    (1, newNode "!v.b" ⟨1, .standard⟩)]) ⟨rfl, _, rfl, rfl, rfl, _, rfl, rfl, rfl⟩
  have hbackward := hvalid.backward.unique (m := [(1, newNode "!v.b" ⟨1, .standard⟩),
    (2, newNode "!v.c" ⟨2, .blocking⟩), (0, newNode "!v.a" ⟨0, .blocking⟩)])
    ⟨rfl, _, rfl, rfl, rfl, _, rfl, rfl, rfl, _, rfl, rfl, rfl⟩
  rw [hforward] at hbackward
  exact absurd (congrArg List.length hbackward) (by decide)

end Ovms.Series
