import Mathlib.Data.List.Sort
import Ovms.Lib.Machine
import Ovms.Lib.Single
import Ovms.Metrics.Persist

/-!
# The Registry of Metrics

`OvmsMetrics::RegisterMetric`, `DeregisterMetric`, `Find` and `FindUniquePrefix`
(`main/ovms_metrics.cpp`): the metrics, linked by name. The constructor of a metric registers
it, the destructor deregisters it. But deregistering a metric also deletes it: a metric that
is deleted by a call of `DeregisterMetric` is released once, for the destructor then does not
find it any more, and one that is deleted by a `delete` is released twice, once within its own
destructor.

A metric is its name and its link, under its address; a new one may get any address that is
not in use. A loop repeats its body no more often than there ever were metrics, and as often
deletions can be nested.

## Main results

* `Represents.create`, `Represents.deregisterMetric`, `Represents.delete`: the operations on
  the list.
* `Represents.findUniquePrefix`: what completes a prefix.
* `registry_exact_iff`: when every metric is released once.
-/

open Lib Lib.Single

namespace Ovms.Metrics

/-- The address of a metric. -/
abbrev Address := ℕ

/-- The members of `OvmsMetrics`, the memory, and what was released. -/
structure OvmsMetrics where
  heap : Store Address Name
  first : Option Address
  made : ℕ
  released : List Address

namespace OvmsMetrics

/-- A new registry. -/
def new : OvmsMetrics := ⟨fun _ => none, none, 0, []⟩

/-! ### Registering -/

/-- The search for the place to insert, from a metric on. -/
def insertFrom (s : OvmsMetrics) (metric : Address) (name : Name) :
    ℕ → Option Address → Option OvmsMetrics
  | 0, _ => none
  | _ + 1, none => some s
  | n + 1, some m => do
      let node ← s.heap m
      match node.next with
      | none => some { s with heap := setNext s.heap m (some metric) }
      | some next =>
          let behind ← s.heap next
          if name ≤ behind.item then
            some { s with heap := setNext (setNext s.heap metric (some next)) m (some metric) }
          else insertFrom s metric name n (some next)

/-- `RegisterMetric`. -/
def registerMetric (s : OvmsMetrics) (metric : Address) : Option OvmsMetrics :=
  match s.first with
  | none => some { s with first := some metric }
  | some first => do
      let head ← s.heap first
      let node ← s.heap metric
      if node.item ≤ head.item then
        some { s with heap := setNext s.heap metric (some first), first := some metric }
      else insertFrom s metric node.item s.made (some first)

/-- `new OvmsMetric`, at an address. -/
def create (s : OvmsMetrics) (metric : Address) (name : Name) : Option OvmsMetrics :=
  registerMetric { s with heap := put s.heap metric ⟨name, none⟩, made := s.made + 1 } metric

/-! ### Deregistering -/

/-- The search for the metric in front of one, from a metric on, and its link set to what is
behind. -/
def unlinkFrom (s : OvmsMetrics) (metric : Address) :
    ℕ → Option Address → Option (Option OvmsMetrics)
  | 0, _ => none
  | _ + 1, none => some none
  | n + 1, some m => do
      let before ← s.heap m
      if before.next = some metric then
        let node ← s.heap metric
        some (some { s with heap := setNext s.heap m node.next })
      else unlinkFrom s metric n before.next

/-- A metric taken off the list, if it is found. -/
def unlink (s : OvmsMetrics) (metric : Address) : Option (Option OvmsMetrics) :=
  if s.first = some metric then do
    let node ← s.heap metric
    some (some { s with first := node.next })
  else unlinkFrom s metric (s.made + 1) s.first

/-- The memory of a metric released. -/
def release (s : OvmsMetrics) (metric : Address) : OvmsMetrics :=
  { s with heap := free s.heap metric, released := s.released ++ [metric] }

/-- `DeregisterMetric`, with deletions nested up to a depth: a metric that was found is
deleted, and its destructor deregisters it again before its memory is released. -/
def deregisterNested : ℕ → OvmsMetrics → Address → Option OvmsMetrics
  | 0, _, _ => none
  | n + 1, s, metric => do
      match ← s.unlink metric with
      | none => some s
      | some unlinked =>
          let destroyed ← deregisterNested n unlinked metric
          some (destroyed.release metric)

/-- `DeregisterMetric`. -/
def deregisterMetric (s : OvmsMetrics) (metric : Address) : Option OvmsMetrics :=
  deregisterNested (s.made + 1) s metric

/-- `delete metric`: the destructor, and the memory released. -/
def delete (s : OvmsMetrics) (metric : Address) : Option OvmsMetrics := do
  let destroyed ← s.deregisterMetric metric
  some (destroyed.release metric)

/-! ### Searching -/

/-- The search for a name, from a metric on. -/
def findFrom (s : OvmsMetrics) (name : Name) : ℕ → Option Address → Option (Option Address)
  | 0, _ => none
  | _ + 1, none => some none
  | n + 1, some m => do
      let node ← s.heap m
      if node.item = name then some (some m) else findFrom s name n node.next

/-- `Find`. -/
def find (s : OvmsMetrics) (name : Name) : Option (Option Address) :=
  findFrom s name (s.made + 1) s.first

/-- The search for the names with a prefix, from a metric on, with what was found before. -/
def findUniquePrefixFrom (s : OvmsMetrics) (token : Name) :
    ℕ → Option Address → Option Address → Option (Option Address)
  | 0, _, _ => none
  | _ + 1, found, none => some found
  | n + 1, found, some m => do
      let node ← s.heap m
      if token.isPrefixOf node.item then
        if token.length = node.item.length then some (some m)
        else if found.isSome then some none
        else findUniquePrefixFrom s token n (some m) node.next
      else findUniquePrefixFrom s token n found node.next

/-- `FindUniquePrefix`. -/
def findUniquePrefix (s : OvmsMetrics) (token : Name) : Option (Option Address) :=
  findUniquePrefixFrom s token (s.made + 1) none s.first

/-! ### The list -/

/-- A metric does not stand behind another in the order of names. -/
abbrev Before (a b : Address × Name) : Prop := a.2 ≤ b.2

instance : Std.Total Before := ⟨fun a b => List.le_total a.2 b.2⟩

instance : IsTrans (Address × Name) Before := ⟨fun _ _ _ => List.le_trans⟩

/-- The registry has these metrics. -/
structure Represents (s : OvmsMetrics) (l : List (Address × Name)) : Prop where
  chain : Chain s.heap s.first l none
  nodup : (keys l).Nodup
  sorted : l.Pairwise Before
  length_le : l.length ≤ s.made

theorem represents_new : Represents new [] := ⟨rfl, .nil, .nil, le_rfl⟩

/-! ### What the operations do to it -/

variable {s : OvmsMetrics} {l a b : List (Address × Name)} {p : Address} {name : Name}

theorem insertFrom_spec {n : ℕ} {m : Address} {x : Name}
    (h : Chain s.heap s.first (a ++ (m, x) :: b) none) (hnodup : (keys (a ++ (m, x) :: b)).Nodup)
    (hp : p ∉ keys (a ++ (m, x) :: b)) (hnode : s.heap p = some ⟨name, none⟩)
    (hn : b.length < n) :
    ∃ heap, insertFrom s p name n (some m) = some { s with heap := heap } ∧
      Chain heap s.first (a ++ (m, x) :: b.orderedInsert Before (p, name)) none := by
  induction b generalizing a m x n with
  | nil =>
      obtain ⟨n, rfl⟩ := Nat.exists_eq_add_one.mpr hn
      obtain ⟨_, hm, rfl⟩ := h.node
      refine ⟨setNext s.heap m (some p), by rw [insertFrom, hm]; rfl, ?_⟩
      have hins := h.insert hnodup hp hm hnode
      rwa [setNext_same hnode] at hins
  | cons c b ih =>
      obtain ⟨n, rfl⟩ := Nat.exists_eq_add_one.mpr (Nat.zero_lt_of_lt hn)
      obtain ⟨k, y⟩ := c
      obtain ⟨_, hm, rfl, next, hk, -⟩ := h.node
      rw [insertFrom, hm]
      by_cases hle : name ≤ y
      · refine ⟨setNext (setNext s.heap p (some k)) m (some p), ?_, ?_⟩
        · simp only [Option.bind_eq_bind, Option.bind_some, hk, if_pos hle]
        · rw [List.orderedInsert_cons_of_le (r := Before) b hle]
          exact h.insert hnodup hp hm hnode
      · rw [List.append_cons] at h hnodup hp
        obtain ⟨heap, heq, hchain⟩ := ih h hnodup hp (Nat.lt_of_succ_lt_succ hn)
        refine ⟨heap, ?_, ?_⟩
        · simpa only [Option.bind_eq_bind, Option.bind_some, hk, if_neg hle] using heq
        · rwa [List.orderedInsert_cons, if_neg hle, List.append_cons]

theorem Represents.put (h : Represents s l) (hp : p ∉ keys l) (c : Node Address Name) :
    Chain (put s.heap p c) s.first l none :=
  h.chain.put hp c

/-- **Registering** puts a metric in its place in the order of the names, in front of those with
the same name. -/
theorem Represents.create (h : Represents s l) (hp : p ∉ keys l) (name : Name) :
    ∃ s', s.create p name = some s' ∧ s'.released = s.released ∧
      Represents s' (l.orderedInsert Before (p, name)) := by
  have hchain := h.put hp ⟨name, none⟩
  have hperm := List.perm_orderedInsert Before (p, name) l
  -- what does not depend on how it is linked
  have hrep : ∀ heap first, Chain heap first (l.orderedInsert Before (p, name)) none →
      Represents ⟨heap, first, s.made + 1, s.released⟩ (l.orderedInsert Before (p, name)) := by
    refine fun heap first hl => ⟨hl, ?_, h.sorted.orderedInsert _ _, ?_⟩
    · exact (hperm.map Prod.fst).nodup_iff.mpr (List.nodup_cons.mpr ⟨hp, h.nodup⟩)
    · rw [hperm.length_eq]
      exact Nat.succ_le_succ h.length_le
  rw [OvmsMetrics.create, registerMetric.eq_def]
  cases l with
  | nil =>
      have hfirst : s.first = none := hchain
      simp only [hfirst]
      exact ⟨_, rfl, rfl, hrep _ _ ⟨rfl, none, put_self .., rfl⟩⟩
  | cons c l =>
      obtain ⟨m, x⟩ := c
      obtain ⟨hfirst, next, hm, -⟩ := id hchain
      have hself := put_self s.heap p ⟨name, none⟩
      rw [hfirst]
      simp only [hm, hself, Option.bind_eq_bind, Option.bind_some]
      by_cases hle : name ≤ x
      · rw [if_pos hle]
        refine ⟨_, rfl, rfl, hrep _ _ ?_⟩
        rw [List.orderedInsert_cons_of_le (r := Before) l hle]
        exact ⟨rfl, some m, setNext_self hself _, hfirst ▸ hchain.setNext hp (some m)⟩
      · rw [if_neg hle]
        obtain ⟨heap, heq, hl⟩ := insertFrom_spec (a := []) (n := s.made + 1)
          (s := ⟨Single.put s.heap p ⟨name, none⟩, s.first, s.made + 1, s.released⟩) hchain h.nodup
          hp hself (Nat.lt_succ_of_le ((Nat.le_succ _).trans h.length_le))
        rw [hfirst] at heq
        refine ⟨_, heq, rfl, hrep _ _ ?_⟩
        rw [List.orderedInsert_cons, if_neg hle, ← hfirst]
        exact hl

/-- A metric that is not there is not found. -/
theorem unlinkFrom_of_not_mem {n : ℕ} {q : Option Address} (h : Chain s.heap q l none)
    (hp : p ∉ keys l) (hn : l.length < n) : unlinkFrom s p n q = some none := by
  induction l generalizing q n with
  | nil =>
      obtain ⟨n, rfl⟩ := Nat.exists_eq_add_one.mpr hn
      obtain rfl : q = none := h
      rfl
  | cons c l ih =>
      obtain ⟨n, rfl⟩ := Nat.exists_eq_add_one.mpr (Nat.zero_lt_of_lt hn)
      obtain ⟨rfl, next, hm, hl⟩ := h
      obtain ⟨-, hpl⟩ := not_or.mp (List.mem_cons.not.mp hp)
      have hne : next ≠ some p := by
        rintro rfl
        exact hpl hl.mem_keys
      simpa only [unlinkFrom, hm, Option.bind_eq_bind, Option.bind_some, if_neg hne] using
        ih hl hpl (Nat.lt_of_succ_lt_succ hn)

theorem unlinkFrom_of_mem {c : List (Address × Name)} {n : ℕ} {m : Address} {x : Name}
    (h : Chain s.heap s.first (a ++ (m, x) :: (c ++ (p, name) :: b)) none)
    (hnodup : (keys (a ++ (m, x) :: (c ++ (p, name) :: b))).Nodup) (hn : c.length < n) :
    ∃ heap, unlinkFrom s p n (some m) = some (some { s with heap := heap }) ∧
      Chain heap s.first (a ++ (m, x) :: (c ++ b)) none := by
  induction c generalizing a m x n with
  | nil =>
      obtain ⟨n, rfl⟩ := Nat.exists_eq_add_one.mpr hn
      obtain ⟨_, hm, rfl, next, hnode, -⟩ := h.node
      refine ⟨setNext s.heap m next, ?_, h.remove ?_ hnode⟩
      · simp only [unlinkFrom, hm, Option.bind_eq_bind, Option.bind_some, if_pos, hnode]
      · refine hnodup.sublist (List.Sublist.map _ (List.Sublist.append_left ?_ _))
        exact (List.sublist_cons_self _ _).cons_cons _
  | cons d c ih =>
      obtain ⟨n, rfl⟩ := Nat.exists_eq_add_one.mpr (Nat.zero_lt_of_lt hn)
      obtain ⟨k, y⟩ := d
      obtain ⟨_, hm, rfl, -⟩ := h.node
      have hne : some k ≠ some p := by
        rintro heq
        obtain rfl := Option.some.inj heq
        simp [List.nodup_append] at hnodup
      rw [List.append_cons] at h hnodup
      obtain ⟨heap, heq, hchain⟩ := ih h hnodup (Nat.lt_of_succ_lt_succ hn)
      refine ⟨heap, ?_, by rwa [List.append_cons]⟩
      simpa only [unlinkFrom, hm, Option.bind_eq_bind, Option.bind_some, if_neg hne] using heq

theorem Represents.not_mem (h : Represents s (a ++ (p, name) :: b)) : p ∉ keys (a ++ b) := by
  have hnodup := h.nodup
  rw [keys_append, keys_cons, List.nodup_middle, ← keys_append] at hnodup
  exact (List.nodup_cons.mp hnodup).1

/-- A metric that is not in the list is not taken off it. -/
theorem unlink_of_not_mem (h : Chain s.heap s.first l none) (hp : p ∉ keys l)
    (hlen : l.length ≤ s.made) : s.unlink p = some none := by
  have hne : s.first ≠ some p := by
    intro heq
    rw [heq] at h
    exact hp h.mem_keys
  rw [unlink, if_neg hne]
  exact unlinkFrom_of_not_mem h hp (Nat.lt_succ_of_le hlen)

/-- A metric in the list is taken off it. -/
theorem Represents.unlink (h : Represents s (a ++ (p, name) :: b)) :
    ∃ s', s.unlink p = some (some s') ∧ s'.released = s.released ∧ Represents s' (a ++ b) := by
  have hsub : (a ++ b).Sublist (a ++ (p, name) :: b) :=
    List.Sublist.append_left (List.sublist_cons_self _ _) _
  -- what does not depend on how it is linked
  have hrep : ∀ heap first, Chain heap first (a ++ b) none →
      Represents ⟨heap, first, s.made, s.released⟩ (a ++ b) := fun heap first hchain =>
    ⟨hchain, h.nodup.sublist (hsub.map _), h.sorted.sublist hsub,
      hsub.length_le.trans h.length_le⟩
  cases a with
  | nil =>
      obtain ⟨hfirst, next, hnode, hchain⟩ := h.chain
      refine ⟨{ s with first := next }, ?_, rfl, hrep _ _ hchain⟩
      simp only [OvmsMetrics.unlink, hfirst, if_pos, hnode, Option.bind_eq_bind, Option.bind_some]
  | cons c a =>
      obtain ⟨m, x⟩ := c
      obtain ⟨hfirst, -⟩ := id h.chain
      have hne : some m ≠ some p := by
        rintro heq
        obtain rfl := Option.some.inj heq
        simpa using h.nodup
      have hlen : a.length < s.made + 1 := by
        have := hsub.length_le.trans h.length_le
        simp only [List.cons_append, List.length_cons, List.length_append] at this
        omega
      obtain ⟨heap, heq, hchain⟩ := unlinkFrom_of_mem (a := []) h.chain h.nodup hlen
      refine ⟨{ s with heap := heap }, ?_, rfl, hrep _ _ hchain⟩
      rw [hfirst] at heq
      rw [OvmsMetrics.unlink, hfirst, if_neg hne, heq]

theorem Represents.release (h : Represents s l) (hp : p ∉ keys l) : Represents (s.release p) l :=
  ⟨h.chain.free hp, h.nodup, h.sorted, h.length_le⟩

/-- **Deregistering** takes a metric off the list and releases it, once: the destructor does not
find it again. -/
theorem Represents.deregisterMetric (h : Represents s (a ++ (p, name) :: b)) :
    ∃ s', s.deregisterMetric p = some s' ∧ s'.released = s.released ++ [p] ∧
      Represents s' (a ++ b) := by
  have hp := h.not_mem
  obtain ⟨n, hn⟩ : ∃ n, s.made = n + 1 := by
    have hlen := h.length_le
    rw [List.length_append, List.length_cons] at hlen
    exact Nat.exists_eq_add_one.mpr (by omega)
  obtain ⟨s₁, hunlink, hreleased, h₁⟩ := h.unlink
  have hagain : deregisterNested (n + 1) s₁ p = some s₁ := by
    simp only [deregisterNested, unlink_of_not_mem h₁.chain hp h₁.length_le,
      Option.bind_eq_bind, Option.bind_some]
  refine ⟨s₁.release p, ?_, ?_, h₁.release hp⟩
  · rw [OvmsMetrics.deregisterMetric, hn, deregisterNested]
    simp only [hunlink, hagain, Option.bind_eq_bind, Option.bind_some]
  · rw [OvmsMetrics.release, hreleased]

/-- **Deleting** a metric takes it off the list, but releases it twice. -/
theorem Represents.delete (h : Represents s (a ++ (p, name) :: b)) :
    ∃ s', s.delete p = some s' ∧ s'.released = s.released ++ [p, p] ∧
      Represents s' (a ++ b) := by
  have hp := h.not_mem
  obtain ⟨s₁, heq, hreleased, h₁⟩ := h.deregisterMetric
  refine ⟨s₁.release p, ?_, ?_, h₁.release hp⟩
  · rw [OvmsMetrics.delete, heq]
    rfl
  · rw [OvmsMetrics.release, hreleased, List.append_assoc]
    rfl

/-! ### What the searches find -/

theorem findFrom_eq {n : ℕ} {q : Option Address} (h : Chain s.heap q l none)
    (hn : l.length < n) (name : Name) :
    findFrom s name n q = some ((l.find? fun c => c.2 = name).map Prod.fst) := by
  induction l generalizing q n with
  | nil =>
      obtain ⟨n, rfl⟩ := Nat.exists_eq_add_one.mpr hn
      obtain rfl : q = none := h
      rfl
  | cons c l ih =>
      obtain ⟨n, rfl⟩ := Nat.exists_eq_add_one.mpr (Nat.zero_lt_of_lt hn)
      obtain ⟨m, x⟩ := c
      obtain ⟨rfl, next, hm, hl⟩ := h
      simp only [findFrom, hm, Option.bind_eq_bind, Option.bind_some, List.find?_cons]
      by_cases hx : x = name
      · simp only [hx, if_pos, decide_true, Option.map_some]
      · simp only [hx, if_false, decide_false]
        exact ih hl (Nat.lt_of_succ_lt_succ hn)

/-- **`Find`** sees the first metric of a name. -/
theorem Represents.find (h : Represents s l) (name : Name) :
    s.find name = some ((l.find? fun c => c.2 = name).map Prod.fst) :=
  findFrom_eq h.chain (Nat.lt_succ_of_le h.length_le) name

/-- The only one of a list. -/
def onlyOne {α : Type*} : List α → Option α
  | [x] => some x
  | _ => none

/-- One and those that satisfy a condition. -/
theorem onlyOne_cons_filter {α : Type*} (x : α) (f : α → Bool) (l : List α) :
    onlyOne (x :: l.filter f) = if l.any f then none else some x := by
  by_cases hany : l.any f = true
  · obtain ⟨y, hy, hfy⟩ := List.any_eq_true.mp hany
    rw [if_pos hany]
    cases hfilter : l.filter f with
    | nil => exact absurd (List.mem_filter.mpr ⟨hy, hfy⟩) (by rw [hfilter]; exact List.not_mem_nil)
    | cons => rfl
  · have hfilter : l.filter f = [] :=
      List.filter_eq_nil_iff.mpr fun y hy hfy => hany (List.any_eq_true.mpr ⟨y, hy, hfy⟩)
    rw [if_neg hany, hfilter, onlyOne]

/-- What completes a prefix: the first metric with it as its name, or else the only metric with
a name that starts with it. -/
def completion (token : Name) (l : List (Address × Name)) : Option (Address × Name) :=
  (l.find? fun c => c.2 = token).or (onlyOne (l.filter fun c => token.isPrefixOf c.2))

/-- The search with what was found before, at a longer name than the prefix: no other metric may
start with it. -/
theorem findUniquePrefixFrom_some {n : ℕ} {q : Option Address} {token : Name}
    (h : Chain s.heap q l none) (hn : l.length < n) (found : Address)
    (hlong : ∀ c ∈ l, c.2 ≠ token) :
    findUniquePrefixFrom s token n (some found) q =
      some (if l.any fun c => token.isPrefixOf c.2 then none else some found) := by
  induction l generalizing q n with
  | nil =>
      obtain ⟨n, rfl⟩ := Nat.exists_eq_add_one.mpr hn
      obtain rfl : q = none := h
      rfl
  | cons c l ih =>
      obtain ⟨n, rfl⟩ := Nat.exists_eq_add_one.mpr (Nat.zero_lt_of_lt hn)
      obtain ⟨m, x⟩ := c
      obtain ⟨rfl, next, hm, hl⟩ := h
      obtain ⟨hx, hlong⟩ := List.forall_mem_cons.mp hlong
      simp only [findUniquePrefixFrom, hm, Option.bind_eq_bind, Option.bind_some, List.any_cons]
      by_cases hpre : token.isPrefixOf x = true
      · have hlen : token.length ≠ x.length := fun heq =>
          hx ((List.isPrefixOf_iff_prefix.mp hpre).eq_of_length heq).symm
        simp only [hpre, hlen, if_false, if_true, Option.isSome_some, Bool.true_or]
      · simp only [hpre, Bool.false_or, if_false, Bool.false_eq_true]
        exact ih hl (Nat.lt_of_succ_lt_succ hn) hlong

theorem ne_of_before {token : Name} {c d : Address × Name} (hcd : Before c d)
    (hpre : token <+: c.2) (hc : c.2 ≠ token) : d.2 ≠ token := by
  rintro hd
  obtain ⟨t, ht⟩ := hpre
  have hle : token ≤ c.2 := ht ▸ List.le_append_left
  exact hc (List.le_antisymm (hd ▸ hcd) hle)

theorem findUniquePrefixFrom_none {n : ℕ} {q : Option Address} (h : Chain s.heap q l none)
    (hsorted : l.Pairwise Before) (hn : l.length < n) (token : Name) :
    findUniquePrefixFrom s token n none q = some ((completion token l).map Prod.fst) := by
  induction l generalizing q n with
  | nil =>
      obtain ⟨n, rfl⟩ := Nat.exists_eq_add_one.mpr hn
      obtain rfl : q = none := h
      rfl
  | cons c l ih =>
      obtain ⟨n, rfl⟩ := Nat.exists_eq_add_one.mpr (Nat.zero_lt_of_lt hn)
      obtain ⟨m, x⟩ := c
      obtain ⟨rfl, next, hm, hl⟩ := h
      obtain ⟨hbefore, hsorted⟩ := List.pairwise_cons.mp hsorted
      have hn := Nat.lt_of_succ_lt_succ hn
      simp only [findUniquePrefixFrom, hm, Option.bind_eq_bind, Option.bind_some, completion,
        List.find?_cons, List.filter_cons]
      by_cases hpre : token.isPrefixOf x = true
      · have hprefix := List.isPrefixOf_iff_prefix.mp hpre
        by_cases hx : x = token
        · obtain rfl := hx
          simp only [hpre, if_true, decide_true, Option.some_or, Option.map_some]
        · have hlen : token.length ≠ x.length := fun heq =>
            hx (List.IsPrefix.eq_of_length hprefix heq).symm
          have hlong : ∀ d ∈ l, d.2 ≠ token := fun d hd => ne_of_before (hbefore d hd) hprefix hx
          have hfind : (l.find? fun c => c.2 = token) = none :=
            List.find?_eq_none.mpr fun d hd => by simpa using hlong d hd
          simp only [hpre, hlen, hx, if_false, if_true, Option.isSome_none, decide_false, hfind]
          rw [findUniquePrefixFrom_some hl hn m hlong]
          rw [Option.none_or, onlyOne_cons_filter, if_neg Bool.false_ne_true]
          split <;> rfl
      · have hx : x ≠ token := by
          rintro rfl
          exact hpre (List.isPrefixOf_iff_prefix.mpr (List.prefix_refl _))
        simp only [hpre, hx, if_false, Bool.false_eq_true, decide_false]
        exact ih hl hsorted hn

/-- **`FindUniquePrefix`** sees what completes a prefix. -/
theorem Represents.findUniquePrefix (h : Represents s l) (token : Name) :
    s.findUniquePrefix token = some ((completion token l).map Prod.fst) :=
  findUniquePrefixFrom_none h.chain h.sorted (Nat.lt_succ_of_le h.length_le) token

theorem findUniquePrefix_only : ∃ s : OvmsMetrics, Represents s [(1, [118, 46])] ∧
    s.findUniquePrefix [118] = some (some 1) := by
  obtain ⟨s, -, -, hs⟩ := represents_new.create (p := 1) (fun h => by cases h) [118, 46]
  exact ⟨s, hs, hs.findUniquePrefix [118]⟩

end OvmsMetrics

/-! ### Metrics made and deleted -/

/-- What becomes of metrics: one is made, with a name, at an address; one is deleted by a call
of `DeregisterMetric`, or by a `delete`. -/
inductive Op
  | create (metric : Address) (name : Name)
  | deregister (metric : Address)
  | delete (metric : Address)
  deriving DecidableEq, Repr

namespace Op

/-- It is a `delete`. -/
def isDelete : Op → Bool
  | delete _ => true
  | _ => false

/-- It deletes this metric. -/
def deletes (p : Address) : Op → Bool
  | create _ _ => false
  | deregister q | delete q => q = p

/-- What the registry does. -/
def exec (s : OvmsMetrics) : Op → Option OvmsMetrics
  | create p name => s.create p name
  | deregister p => s.deregisterMetric p
  | delete p => s.delete p

/-- The metrics that are live after it. -/
def track (l : List (Address × Name)) : Op → List (Address × Name)
  | create p name => (p, name) :: l
  | deregister p | delete p => l.filter fun c => c.1 ≠ p

/-- A metric is made at an address not in use, and deleted when it is live. -/
def Admitted (l : List (Address × Name)) : Op → Prop
  | create p _ => p ∉ keys l
  | deregister p | delete p => p ∈ keys l

instance (l : List (Address × Name)) : (op : Op) → Decidable (op.Admitted l)
  | create p _ => inferInstanceAs (Decidable (p ∉ keys l))
  | deregister p | delete p => inferInstanceAs (Decidable (p ∈ keys l))

end Op

/-- What the registry does, one after the other. -/
def run (s : OvmsMetrics) (ops : List Op) : Option OvmsMetrics := ops.foldlM Op.exec s

/-- The metrics that are live after operations. -/
def live (ops : List Op) : List (Address × Name) := ops.foldl Op.track []

/-- **The registry is exact**: it has each live metric once and no other, in the order of the
names; a search finds a live metric of a name when there is one; and each metric was released
as often as one was deleted at its address. -/
structure Exact (ops : List Op) (s : OvmsMetrics) : Prop where
  list : ∃ l, Chain s.heap s.first l none ∧ l.Perm (live ops) ∧ (keys l).Nodup ∧
    l.Pairwise fun a b => a.2 ≤ b.2
  find : ∀ name, ∃ r, s.find name = some r ∧ (∀ p, r = some p → (p, name) ∈ live ops) ∧
    (r = none → ∀ p, (p, name) ∉ live ops)
  released : ∀ p, s.released.count p = ops.countP (Op.deletes p)

/-- How often the memory of a metric is released by operations. -/
def releases (p : Address) (ops : List Op) : ℕ :=
  ops.countP (Op.deletes p) + ops.countP fun op => op.isDelete && op.deletes p

/-- What the registry has after operations. -/
structure Follows (ops : List Op) (s : OvmsMetrics) : Prop where
  list : ∃ l, s.Represents l ∧ l.Perm (live ops)
  released : ∀ p, s.released.count p = releases p ops

/-- A live metric taken off the list is not live any more. -/
theorem perm_filter_of_perm {l a b : List (Address × Name)} {p : Address} {name : Name}
    (h : (a ++ (p, name) :: b).Perm l) (hp : p ∉ keys (a ++ b)) :
    (a ++ b).Perm (l.filter fun c => c.1 ≠ p) := by
  have hkeep : ((a ++ (p, name) :: b).filter fun c => c.1 ≠ p) = a ++ b := by
    rw [keys_append, List.mem_append, not_or] at hp
    have hid : ∀ m : List (Address × Name), p ∉ keys m → m.filter (fun c => c.1 ≠ p) = m :=
      fun m hm => List.filter_eq_self.mpr fun c hc => decide_eq_true fun heq =>
        hm (heq ▸ List.mem_map_of_mem hc)
    rw [List.filter_append, List.filter_cons, if_neg (by simp), hid a hp.1, hid b hp.2]
  rw [← hkeep]
  exact h.filter _

/-- **Each operation** does to the list what it does to the live metrics. -/
theorem Follows.exec {ops : List Op} {s : OvmsMetrics} (h : Follows ops s) {op : Op}
    (hop : op.Admitted (live ops)) : ∃ s', op.exec s = some s' ∧ Follows (ops ++ [op]) s' := by
  obtain ⟨⟨l, hl, hperm⟩, hreleased⟩ := h
  have hlive : live (ops ++ [op]) = op.track (live ops) := by
    rw [live, List.foldl_append]
    rfl
  have hcount : ∀ p, releases p (ops ++ [op]) = releases p ops + releases p [op] := by
    intro p
    simp only [releases, List.countP_append]
    omega
  have hkeys : ∀ p, p ∈ keys l ↔ p ∈ keys (live ops) := fun p => (hperm.map Prod.fst).mem_iff
  -- a live metric stands somewhere in the list
  have hsplit : ∀ {p}, p ∈ keys (live ops) → ∃ a name b, l = a ++ (p, name) :: b := by
    intro p hp
    obtain ⟨⟨q, name⟩, hmem, rfl⟩ := List.mem_map.mp ((hkeys p).mpr hp)
    obtain ⟨a, b, rfl⟩ := List.append_of_mem hmem
    exact ⟨a, name, b, rfl⟩
  cases op with
  | create p name =>
      obtain ⟨s', heq, hrel, hs'⟩ := hl.create (mt (hkeys p).mp hop) name
      refine ⟨s', heq, ⟨_, hs', ?_⟩, fun q => ?_⟩
      · rw [hlive]
        exact (List.perm_orderedInsert _ _ _).trans (hperm.cons _)
      · rw [hrel, hreleased, hcount]
        rfl
  | deregister p =>
      obtain ⟨a, name, b, rfl⟩ := hsplit hop
      obtain ⟨s', heq, hrel, hs'⟩ := hl.deregisterMetric
      refine ⟨s', heq, ⟨_, hs', ?_⟩, fun q => ?_⟩
      · rw [hlive]
        exact perm_filter_of_perm hperm hl.not_mem
      · rw [hrel, List.count_append, hreleased, hcount]
        simp [releases, Op.deletes, Op.isDelete, List.count_singleton]
  | delete p =>
      obtain ⟨a, name, b, rfl⟩ := hsplit hop
      obtain ⟨s', heq, hrel, hs'⟩ := hl.delete
      refine ⟨s', heq, ⟨_, hs', ?_⟩, fun q => ?_⟩
      · rw [hlive]
        exact perm_filter_of_perm hperm hl.not_mem
      · rw [hrel, List.count_append, hreleased, hcount]
        by_cases hq : p = q <;>
          simp [releases, Op.deletes, Op.isDelete, hq]

/-- **So does every run.** -/
theorem follows_run {ops : List Op} (h : Along Op.track Op.Admitted [] ops) :
    ∃ s, run .new ops = some s ∧ Follows ops s := by
  induction ops using List.reverseRecOn with
  | nil => exact ⟨_, rfl, ⟨[], OvmsMetrics.represents_new, .nil⟩, fun _ => rfl⟩
  | append_singleton ops op ih =>
      obtain ⟨hops, hop, -⟩ := along_append.mp h
      obtain ⟨s, hrun, hs⟩ := ih hops
      obtain ⟨s', hexec, hs'⟩ := hs.exec hop
      refine ⟨s', ?_, hs'⟩
      rw [run, List.foldlM_append, ← run, hrun]
      simp only [List.foldlM_cons, List.foldlM_nil, Option.bind_eq_bind, Option.bind_some, hexec,
        Option.pure_def]

/-- Without a `delete`, each metric is released once. -/
theorem releases_eq_iff {ops : List Op} :
    (∀ p, releases p ops = ops.countP (Op.deletes p)) ↔ ∀ op ∈ ops, op.isDelete = false := by
  constructor
  · intro h op hop
    by_contra hdelete
    obtain ⟨p, rfl⟩ : ∃ p, op = .delete p := by
      cases op with
      | delete p => exact ⟨p, rfl⟩
      | _ => exact absurd rfl hdelete
    have hpos : 0 < ops.countP fun op => op.isDelete && op.deletes p :=
      List.countP_pos_iff.mpr ⟨_, hop, by simp [Op.isDelete, Op.deletes]⟩
    have := h p
    rw [releases] at this
    omega
  · intro h p
    have hzero : (ops.countP fun op => op.isDelete && op.deletes p) = 0 :=
      List.countP_eq_zero.mpr fun op hop => by simp [h op hop]
    rw [releases, hzero, Nat.add_zero]

/-- A registry that follows the operations is exact when it released each metric once. -/
theorem Follows.exact_iff {ops : List Op} {s : OvmsMetrics} (h : Follows ops s) :
    Exact ops s ↔ ∀ op ∈ ops, op.isDelete = false := by
  rw [← releases_eq_iff]
  constructor
  · exact fun hexact p => (h.released p).symm.trans (hexact.released p)
  · intro hreleases
    obtain ⟨⟨l, hl, hperm⟩, hreleased⟩ := h
    refine ⟨⟨l, hl.chain, hperm, hl.nodup, hl.sorted⟩, fun name => ⟨_, hl.find name, ?_, ?_⟩,
      fun p => (hreleased p).trans (hreleases p)⟩
    · intro p hp
      obtain ⟨⟨q, x⟩, hfind, rfl⟩ := Option.map_eq_some_iff.mp hp
      obtain rfl : x = name := by simpa using List.find?_some hfind
      exact hperm.mem_iff.mp (List.mem_of_find?_eq_some hfind)
    · intro hnone p hmem
      rw [Option.map_eq_none_iff, List.find?_eq_none] at hnone
      exact hnone _ (hperm.mem_iff.mpr hmem) (decide_eq_true rfl)

/-- **The registry is exact** through all of a run exactly when no metric is deleted by a
`delete`. -/
theorem registry_exact_iff {ops : List Op} (h : Along Op.track Op.Admitted [] ops) :
    (∀ pre, pre <+: ops → ∃ s, run .new pre = some s ∧ Exact pre s) ↔
      ∀ op ∈ ops, op.isDelete = false := by
  constructor
  · intro hexact
    obtain ⟨s, hrun, hs⟩ := hexact ops (List.prefix_refl ops)
    obtain ⟨s', hrun', hs'⟩ := follows_run h
    rw [hrun] at hrun'
    cases hrun'
    exact hs'.exact_iff.mp hs
  · rintro hops pre ⟨post, rfl⟩
    obtain ⟨s, hrun, hs⟩ := follows_run (along_append.mp h).1
    exact ⟨s, hrun, hs.exact_iff.mpr fun op hop => hops op (List.mem_append_left _ hop)⟩

/-- Three metrics, two of one name, of which the last made is deregistered. -/
theorem registry_exact_three :
    (∀ pre, pre <+: [.create 1 [0x62], .create 2 [0x61], .create 3 [0x62], .deregister 3] →
      ∃ s, run .new pre = some s ∧ Exact pre s) ↔
    ∀ op ∈ [Op.create 1 [0x62], .create 2 [0x61], .create 3 [0x62], .deregister 3],
      op.isDelete = false :=
  registry_exact_iff (by decide)

/-- A metric deleted by a `delete` is released twice. -/
theorem registry_released_twice :
    ¬ ∀ pre, pre <+: [.create 1 [0x61], .delete 1] → ∃ s, run .new pre = some s ∧ Exact pre s := by
  intro h
  obtain ⟨s, hrun, hexact⟩ := h _ (List.prefix_refl _)
  have htwice : (run .new [.create 1 [0x61], .delete 1]).map (fun s => s.released.count 1)
      = some 2 := by decide
  rw [hrun] at htwice
  have honce := hexact.released 1
  exact absurd ((Option.some.inj htwice).symm.trans honce) (by decide)

end Ovms.Metrics
