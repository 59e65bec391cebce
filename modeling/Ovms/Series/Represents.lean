import Ovms.Series.Model
import Mathlib.Data.List.Perm.Subperm

/-!
# The Nodes of a Series List

What the operations on the nodes do when the list is linked as it should be: removing a
node, inserting one at the end or at the front, and replacing the series of one leave a list
that is linked so, too. Inserting one behind the first node and in front of another does
not: the walk forward does not see the new node, and the walk back does.
-/

open Lib Lib.Links

namespace Ovms.Series

namespace PollSeriesList

/-- The list is linked, both its ends are known, and no new node gets one of its addresses. -/
structure Represents (s : PollSeriesList) (l : List (ℕ × PollSeries)) : Prop where
  linked : Linked s.store l
  first : s.first = headKey l
  last : s.last = lastKey l
  bound : ∀ p ∈ keys l, p < s.fresh

variable {s : PollSeriesList} {l a b : List (ℕ × PollSeries)} {p : ℕ} {e : PollSeries}

theorem represents_new : new.Represents [] := ⟨⟨trivial, .nil⟩, rfl, rfl, nofun⟩

theorem Represents.length_le (h : s.Represents l) : l.length ≤ s.fresh := by
  have hsub : keys l ⊆ List.range s.fresh := fun p hp => List.mem_range.mpr (h.bound p hp)
  have hle := (List.subperm_of_subset h.linked.nodup hsub).length_le
  rwa [keys, List.length_map, List.length_range] at hle

theorem Represents.nodes_eq (h : s.Represents l) : s.nodes = l := by
  have hwalk := h.linked.walks.1
  rw [← h.first] at hwalk
  exact hwalk.cells_eq h.length_le

theorem Represents.cell (h : s.Represents (a ++ (p, e) :: b)) :
    s.store p = some ⟨e, lastKey a, headKey b⟩ := by
  have hcell := h.linked.segment.cell
  rwa [Option.or_none, Option.or_none] at hcell

/-- Removing a node that is there. -/
theorem remove_eq {c : Cell ℕ PollSeries} (h : s.store p = some c) :
    s.remove p =
      { s with
        blockingCount := if c.item.seriesBlocking then s.blockingCount - 1 else s.blockingCount
        iter := if s.iter = some p then c.next else s.iter
        iterChanged := if s.iter = some p then true else s.iterChanged
        first := if s.first = some p then c.next else s.first
        last := if s.last = some p then c.prev else s.last
        store := delete (setPrev (setNext (setPrev (setNext s.store (some p) none) (some p) none)
          c.prev c.next) c.next c.prev) p
        calls := s.calls ++ callRemoving p c.item } := by
  rw [remove, h]

/-- Where the front moves to when a node goes. -/
theorem headKey_remove (hp : p ∉ keys a) :
    (if headKey (a ++ (p, e) :: b) = some p then headKey b else headKey (a ++ (p, e) :: b)) =
      headKey (a ++ b) := by
  cases a with
  | nil => exact if_pos rfl
  | cons c a =>
      refine if_neg fun heq => hp ?_
      obtain rfl := Option.some.inj heq
      exact List.mem_cons_self

/-- And the end. -/
theorem lastKey_remove (hp : p ∉ keys b) :
    (if lastKey (a ++ (p, e) :: b) = some p then lastKey a else lastKey (a ++ (p, e) :: b)) =
      lastKey (a ++ b) := by
  cases hb : lastKey b with
  | none =>
      obtain rfl : b = [] := by
        rw [lastKey, Option.map_eq_none_iff, List.getLast?_eq_none_iff] at hb
        exact hb
      rw [List.append_nil, lastKey_append]
      exact if_pos rfl
  | some q =>
      have hq : q ≠ p := fun heq => hp (heq ▸ mem_keys_of_lastKey hb)
      rw [lastKey_append, lastKey_append, lastKey_cons, hb]
      exact if_neg fun heq => hq (Option.some.inj heq)

/-- **Removing a node.** -/
theorem Represents.remove (h : s.Represents (a ++ (p, e) :: b)) :
    (s.remove p).Represents (a ++ b) := by
  obtain ⟨hpa, hpb⟩ := not_mem_parts h.linked.nodup
  have hkeys : ∀ q ∈ keys (a ++ b), q < s.fresh := by
    intro q hq
    refine h.bound q ?_
    rw [keys, List.map_append, List.mem_append] at hq ⊢
    exact hq.imp_right (List.mem_cons_of_mem _)
  rw [remove_eq h.cell]
  refine ⟨h.linked.remove fun q hq => ?_, ?_, ?_, hkeys⟩
  · have hself (t : Store ℕ PollSeries) (f : Cell ℕ PollSeries → Cell ℕ PollSeries) :
        modify t (some p) f q = t q :=
      modify_of_ne t (fun heq => hq (Option.some.inj heq)) f
    change (if q = p then none else _) = _
    rw [if_neg hq]
    refine modify_congr (modify_congr ?_)
    rw [Links.setPrev, hself, Links.setNext, hself]
  · rw [h.first]
    exact headKey_remove hpa
  · rw [h.last]
    exact lastKey_remove hpb

theorem Represents.fresh_not_mem (h : s.Represents l) : s.fresh ∉ keys l := fun hmem =>
  Nat.lt_irrefl _ (h.bound _ hmem)

/-- With it, every node still has an address of its own. -/
theorem bound_insert (h : ∀ q ∈ keys (a ++ b), q < s.fresh) :
    ∀ q ∈ keys (a ++ (s.fresh, e) :: b), q < s.fresh + 1 := by
  intro q hq
  rw [keys, List.map_append, List.map_cons, List.mem_append, List.mem_cons] at hq
  rw [keys, List.map_append] at h
  rcases hq with hq | rfl | hq
  · exact Nat.lt_succ_of_lt (h q (List.mem_append_left _ hq))
  · exact Nat.lt_succ_self _
  · exact Nat.lt_succ_of_lt (h q (List.mem_append_right _ hq))

/-- The list with an address given away. -/
def allocated (s : PollSeriesList) : PollSeriesList := { s with fresh := s.fresh + 1 }

/-- **A node at the end.** -/
theorem Represents.append (h : s.Represents l) (e : PollSeries) {before : Option ℕ}
    (hbefore : before = none ∨ l = []) :
    (s.allocated.insertBefore s.fresh e before).Represents (l ++ [(s.fresh, e)]) := by
  have hnil : l ++ [] = l := List.append_nil l
  have hlinked : Linked s.store (l ++ []) := by rw [hnil]; exact h.linked
  have hnew : s.fresh ∉ keys (l ++ []) := by rw [hnil]; exact h.fresh_not_mem
  have hcond : before = none ∨ s.allocated.first = none := by
    refine hbefore.imp_right fun hl => ?_
    change s.first = none
    rw [h.first, hl]
    rfl
  have hbound := bound_insert (a := l) (b := []) (e := e) (s := s) (by rw [hnil]; exact h.bound)
  rw [insertBefore, if_pos hcond]
  refine ⟨?_, ?_, ?_, hbound⟩
  · have hinsert := hlinked.insert hnew e
    change Linked (setNext (put s.store s.fresh ⟨e, s.last, none⟩) s.last (some s.fresh)) _
    rw [h.last]
    exact hinsert
  · change (if s.last = none then some s.fresh else s.first) = headKey (l ++ [(s.fresh, e)])
    rw [h.last, h.first, headKey_append]
    cases l with
    | nil => rfl
    | cons c l =>
        have hne : lastKey (c :: l) ≠ none := by
          rw [lastKey, ne_eq, Option.map_eq_none_iff, List.getLast?_eq_none_iff]
          exact List.cons_ne_nil c l
        rw [if_neg hne]
        rfl
  · change some s.fresh = lastKey (l ++ [(s.fresh, e)])
    rw [lastKey_append]
    rfl

/-- The node in front of which one is inserted, and the links it has. -/
theorem Represents.insertBefore_eq (h : s.Represents (a ++ (p, e) :: b)) (x : PollSeries) :
    s.allocated.insertBefore s.fresh x (some p) =
      { s with
        fresh := s.fresh + 1
        store := setPrev (put s.store s.fresh ⟨x, lastKey a, some p⟩) (some p) (some s.fresh)
        first := if some p = s.first then some s.fresh else s.first } := by
  have hfirst : s.first ≠ none := by
    rw [h.first, headKey_append]
    cases a <;> exact Option.some_ne_none _
  have hprev : ((some p).bind s.store).bind Cell.prev = lastKey a := by
    rw [Option.bind_some, h.cell]
    rfl
  rw [insertBefore, if_neg fun hcond => hcond.elim (Option.some_ne_none p) hfirst]
  change { s with
    fresh := s.fresh + 1
    store := setPrev (put s.store s.fresh ⟨x, ((some p).bind s.store).bind Cell.prev, some p⟩)
      (some p) (some s.fresh)
    first := if some p = s.first then some s.fresh else s.first } = _
  rw [hprev]

/-- **A node at the front.** -/
theorem Represents.push (h : s.Represents ((p, e) :: b)) (x : PollSeries) :
    (s.allocated.insertBefore s.fresh x (some p)).Represents ((s.fresh, x) :: (p, e) :: b) := by
  have hfirst : s.first = some p := h.first
  rw [h.insertBefore_eq (a := []) x]
  refine ⟨?_, if_pos hfirst.symm, ?_, bound_insert (a := []) h.bound⟩
  · exact Linked.insert (a := []) (b := (p, e) :: b) h.linked h.fresh_not_mem x
  · change s.last = lastKey ((s.fresh, x) :: (p, e) :: b)
    rw [h.last, lastKey_cons s.fresh, lastKey_cons p]
    cases lastKey b <;> rfl

/-- **The link left out**: after an insertion behind the first node and in front of another,
the walk forward sees the old list, and the walk back the new one. -/
theorem Represents.walks_insert (h : s.Represents (a ++ (p, e) :: b)) (ha : a ≠ [])
    (x : PollSeries) :
    let t := s.allocated.insertBefore s.fresh x (some p)
    Walk Cell.next t.store t.first (a ++ (p, e) :: b) ∧
      Walk Cell.prev t.store t.last (a ++ (s.fresh, x) :: (p, e) :: b).reverse := by
  intro t
  obtain ⟨hmem, hnodup⟩ := nodup_keys_insert.mp h.linked.nodup
  have hnodup' := h.linked.nodup
  obtain ⟨-, hnb⟩ := nodup_parts hnodup'
  have hfresh : s.fresh ∉ keys a ∧ s.fresh ∉ keys ((p, e) :: b) := by
    have hnew := h.fresh_not_mem
    rwa [keys, List.map_append, List.mem_append, not_or] at hnew
  have hfirst : some p ≠ s.first := by
    rw [h.first]
    cases a with
    | nil => exact absurd rfl ha
    | cons c a =>
        intro heq
        obtain rfl := Option.some.inj heq
        exact (not_mem_parts hnodup').1 List.mem_cons_self
  have ht : t = _ := h.insertBefore_eq x
  have hstore : t.store =
      setPrev (put s.store s.fresh ⟨x, lastKey a, some p⟩) (some p) (some s.fresh) := by rw [ht]
  have hends : t.first = s.first ∧ t.last = s.last := by
    rw [ht]
    exact ⟨if_neg hfirst, rfl⟩
  -- both parts are segments still, but the first is linked to the second
  obtain ⟨hseg, hseg'⟩ := segment_append.mp h.linked.segment
  rw [Option.or_none] at hseg hseg'
  have hfront : Segment t.store none a (some p) := by
    rw [hstore]
    exact (hseg.put hfresh.1 _).setPrev_behind hnodup' _
  have hback : Segment t.store (some s.fresh) ((p, e) :: b) none := by
    rw [hstore]
    exact (hseg'.put hfresh.2 _).setPrev _ hnb
  have hnew : t.store s.fresh = some ⟨x, lastKey a, some p⟩ := by
    have hne : some s.fresh ≠ some p := fun heq =>
      hfresh.2 (Option.some.inj heq ▸ List.mem_cons_self)
    rw [hstore]
    exact (modify_of_ne _ hne _).trans (if_pos rfl)
  have hforward := hfront.walk_next (hback.walk_next (b := []) rfl)
  have hbefore := hfront.walk_prev (b := []) rfl
  rw [Option.or_none, List.append_nil] at hbefore
  have hmiddle : Walk Cell.prev t.store (some s.fresh) ((s.fresh, x) :: a.reverse) :=
    ⟨rfl, _, hnew, rfl, hbefore⟩
  have hbackward := hback.walk_prev hmiddle
  rw [hends.1, hends.2, h.first, h.last, headKey_append, lastKey_append]
  refine ⟨?_, ?_⟩
  · rwa [List.append_nil] at hforward
  · have hlast : (lastKey ((p, e) :: b)).or (lastKey a) =
        (lastKey ((p, e) :: b)).or (some s.fresh) := by
      rw [lastKey_cons]
      cases lastKey b <;> rfl
    rw [hlast, List.reverse_append, List.reverse_cons (a := (s.fresh, x)), List.append_assoc]
    exact hbackward

/-- **Another series in a node.** -/
theorem Represents.replace (h : s.Represents (a ++ (p, e) :: b)) (series : PollSeriesEntry) :
    (s.replace p e series).Represents (a ++ (p, { e with series := some series }) :: b) := by
  refine ⟨h.linked.setItem _, ?_, ?_, ?_⟩
  · change s.first = _
    rw [h.first, headKey_append, headKey_append]
    rfl
  · change s.last = _
    rw [h.last, lastKey_append, lastKey_append, lastKey_cons, lastKey_cons]
  · rw [keys_congr_item a b p e]
    exact h.bound

end PollSeriesList

end Ovms.Series
