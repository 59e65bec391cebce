import Mathlib.Data.List.Nodup

/-!
# Doubly Linked Lists in a Store

A store holds cells under keys. A cell has an item and two links, to the cell before it and
the cell behind it. A segment is a stretch of cells each of which is linked to its
neighbours; a list is a segment with nothing before it and nothing behind it.

The list a store holds is what the two walks along the links see: `linked_iff_walks`. A walk
that comes to an end sees one list (`Walk.unique`), so links that are not mended show as two
walks that see different lists.
-/

namespace Lib.Links

variable {κ ν : Type*}

/-- A cell: an item and the keys of its neighbours. -/
structure Cell (κ ν : Type*) where
  item : ν
  prev : Option κ
  next : Option κ

/-- Cells under keys. -/
abbrev Store (κ ν : Type*) := κ → Option (Cell κ ν)

/-- The key at the front. -/
def headKey (l : List (κ × ν)) : Option κ := l.head?.map Prod.fst

/-- The key at the end. -/
def lastKey (l : List (κ × ν)) : Option κ := l.getLast?.map Prod.fst

/-- All keys. -/
def keys (l : List (κ × ν)) : List κ := l.map Prod.fst

/-- Cells linked to their neighbours, between two keys. -/
def Segment (s : Store κ ν) : Option κ → List (κ × ν) → Option κ → Prop
  | _, [], _ => True
  | prev, (p, x) :: l, next =>
      s p = some ⟨x, prev, (headKey l).or next⟩ ∧ Segment s (some p) l next

/-- The cells of a list: different ones, and linked to their neighbours. -/
structure Linked (s : Store κ ν) (l : List (κ × ν)) : Prop where
  segment : Segment s none l none
  nodup : (keys l).Nodup

/-! ### Segments -/

theorem lastKey_cons (p : κ) (x : ν) (l : List (κ × ν)) :
    lastKey ((p, x) :: l) = (lastKey l).or (some p) := by
  rw [lastKey, lastKey, List.getLast?_cons]
  cases l.getLast? <;> rfl

theorem headKey_append (a b : List (κ × ν)) : headKey (a ++ b) = (headKey a).or (headKey b) := by
  cases a <;> rfl

theorem lastKey_append (a b : List (κ × ν)) : lastKey (a ++ b) = (lastKey b).or (lastKey a) := by
  rw [lastKey, lastKey, lastKey, List.getLast?_append]
  cases b.getLast? <;> rfl

theorem mem_keys_of_headKey {l : List (κ × ν)} {p : κ} (h : headKey l = some p) : p ∈ keys l := by
  cases l with
  | nil => cases h
  | cons c l =>
      obtain rfl := Option.some.inj h
      exact List.mem_cons_self

theorem mem_keys_of_lastKey {l : List (κ × ν)} {p : κ} (h : lastKey l = some p) : p ∈ keys l := by
  rw [lastKey, Option.map_eq_some_iff] at h
  obtain ⟨c, hc, rfl⟩ := h
  exact List.mem_map_of_mem (List.mem_of_getLast? hc)

/-- A key, or none, is what some part at the end starts with. -/
theorem exists_headKey {l : List (κ × ν)} {p : Option κ} (h : ∀ q ∈ p, q ∈ keys l) :
    ∃ a b, l = a ++ b ∧ p = headKey b := by
  cases p with
  | none => exact ⟨l, [], (List.append_nil l).symm, rfl⟩
  | some q =>
      obtain ⟨⟨r, x⟩, hr, hq⟩ := List.mem_map.mp (h q rfl)
      obtain ⟨a, b, rfl⟩ := List.append_of_mem hr
      exact ⟨a, (r, x) :: b, rfl, congrArg some hq.symm⟩

theorem mem_keys_of_headKey_append {a b : List (κ × ν)} {p : Option κ} (h : p = headKey b) :
    ∀ q ∈ p, q ∈ keys (a ++ b) := by
  rintro q rfl
  rw [keys, List.map_append]
  exact List.mem_append_right _ (mem_keys_of_headKey h.symm)

theorem nodup_keys_insert {a b : List (κ × ν)} {p : κ} {x : ν} :
    (keys (a ++ (p, x) :: b)).Nodup ↔ p ∉ keys (a ++ b) ∧ (keys (a ++ b)).Nodup := by
  rw [keys, keys, List.map_append, List.map_append, List.map_cons, List.nodup_middle,
    List.nodup_cons]

theorem keys_congr_item (a b : List (κ × ν)) (p : κ) (x y : ν) :
    keys (a ++ (p, y) :: b) = keys (a ++ (p, x) :: b) := by
  rw [keys, keys, List.map_append, List.map_append]
  rfl

theorem not_mem_of_nodup {a b : List (κ × ν)} (h : (keys (a ++ b)).Nodup) {p : κ}
    (hp : p ∈ keys a) : p ∉ keys b := by
  rw [keys, List.map_append, List.nodup_append] at h
  exact fun hb => h.2.2 p hp p hb rfl

theorem nodup_parts {a b : List (κ × ν)} (h : (keys (a ++ b)).Nodup) :
    (keys a).Nodup ∧ (keys b).Nodup := by
  rw [keys, List.map_append, List.nodup_append] at h
  exact ⟨h.1, h.2.1⟩

theorem not_mem_parts {a b : List (κ × ν)} {p : κ} {x : ν} (h : (keys (a ++ (p, x) :: b)).Nodup) :
    p ∉ keys a ∧ p ∉ keys b := by
  have hp := (nodup_keys_insert.mp h).1
  rwa [keys, List.map_append, List.mem_append, not_or] at hp

/-- **Segments compose.** -/
theorem segment_append {s : Store κ ν} {b : List (κ × ν)} {next : Option κ} :
    ∀ {a : List (κ × ν)} {prev : Option κ}, Segment s prev (a ++ b) next ↔
      Segment s prev a ((headKey b).or next) ∧ Segment s ((lastKey a).or prev) b next
  | [], prev => by
      change Segment s prev b next ↔ True ∧ Segment s prev b next
      rw [true_and]
  | (p, x) :: a, prev => by
      rw [List.cons_append, Segment, Segment, segment_append, headKey_append, Option.or_assoc,
        and_assoc, lastKey_cons, Option.or_assoc]
      rfl

theorem Segment.congr {s t : Store κ ν} {next : Option κ} :
    ∀ {l : List (κ × ν)} {prev : Option κ}, (∀ p ∈ keys l, t p = s p) → Segment s prev l next →
      Segment t prev l next
  | [], _, _, _ => trivial
  | (p, _) :: _, _, hst, h =>
      ⟨(hst p List.mem_cons_self).trans h.1,
        h.2.congr fun q hq => hst q (List.mem_cons_of_mem _ hq)⟩

theorem Segment.cell {s : Store κ ν} {a b : List (κ × ν)} {p : κ} {x : ν} {prev next : Option κ}
    (h : Segment s prev (a ++ (p, x) :: b) next) :
    s p = some ⟨x, (lastKey a).or prev, (headKey b).or next⟩ :=
  (segment_append.mp h).2.1

/-! ### Changing cells -/

variable [DecidableEq κ]

/-- A cell put under a key. -/
def put (s : Store κ ν) (p : κ) (c : Cell κ ν) : Store κ ν := fun q => if q = p then some c else s q

/-- The cell of a key deleted. -/
def delete (s : Store κ ν) (p : κ) : Store κ ν := fun q => if q = p then none else s q

/-- The cell of a key changed, if there is a key. -/
def modify (s : Store κ ν) (p : Option κ) (f : Cell κ ν → Cell κ ν) : Store κ ν :=
  fun q => if some q = p then (s q).map f else s q

/-- Its link to the cell behind it. -/
def setNext (s : Store κ ν) (p next : Option κ) : Store κ ν :=
  modify s p fun c => { c with next := next }

/-- Its link to the cell before it. -/
def setPrev (s : Store κ ν) (p prev : Option κ) : Store κ ν :=
  modify s p fun c => { c with prev := prev }

/-- Its item. -/
def setItem (s : Store κ ν) (p : κ) (x : ν) : Store κ ν :=
  modify s (some p) fun c => { c with item := x }

theorem Segment.put {s : Store κ ν} {l : List (κ × ν)} {prev next : Option κ} {p : κ}
    (h : Segment s prev l next) (hp : p ∉ keys l) (c : Cell κ ν) :
    Segment (put s p c) prev l next :=
  h.congr fun _ hq => if_neg (ne_of_mem_of_not_mem hq hp)

theorem modify_of_ne (s : Store κ ν) {p : Option κ} {q : κ} (h : some q ≠ p)
    (f : Cell κ ν → Cell κ ν) : modify s p f q = s q :=
  if_neg h

theorem modify_congr {s t : Store κ ν} {p : Option κ} {q : κ} {f : Cell κ ν → Cell κ ν}
    (h : s q = t q) : modify s p f q = modify t p f q := by
  rw [modify, modify, h]

/-- Linking the end of a segment to another key. -/
theorem Segment.setNext {s : Store κ ν} {next : Option κ} (next' : Option κ) :
    ∀ {l : List (κ × ν)} {prev : Option κ}, (keys l).Nodup → Segment s prev l next →
      Segment (setNext s (lastKey l) next') prev l next'
  | [], _, _, _ => trivial
  | [(p, x)], prev, _, h => by
      refine ⟨?_, trivial⟩
      change (if some p = some p then (s p).map _ else s p) = _
      rw [if_pos rfl, h.1]
      rfl
  | (p, x) :: c :: l, prev, hnodup, h => by
      obtain ⟨hp, hnodup⟩ := List.nodup_cons.mp hnodup
      have hlast : lastKey ((p, x) :: c :: l) = lastKey (c :: l) := by
        rw [lastKey, lastKey, List.getLast?_cons_cons]
      have hne : some p ≠ lastKey (c :: l) := fun heq => hp (mem_keys_of_lastKey heq.symm)
      rw [hlast]
      exact ⟨(modify_of_ne s hne _).trans h.1, h.2.setNext next' hnodup⟩

/-- Linking the front of a segment to another key. -/
theorem Segment.setPrev {s : Store κ ν} {prev next : Option κ} (prev' : Option κ)
    {l : List (κ × ν)} (hnodup : (keys l).Nodup) (h : Segment s prev l next) :
    Segment (setPrev s (headKey l) prev') prev' l next := by
  cases l with
  | nil => trivial
  | cons c l =>
      obtain ⟨p, x⟩ := c
      obtain ⟨hp, -⟩ := List.nodup_cons.mp hnodup
      refine ⟨?_, h.2.congr fun q hq => modify_of_ne s ?_ _⟩
      · change (if some p = some p then (s p).map _ else s p) = _
        rw [if_pos rfl, h.1]
        rfl
      · rintro heq
        obtain rfl := Option.some.inj heq
        exact hp hq

theorem Segment.setPrev_behind {s : Store κ ν} {a b : List (κ × ν)} {prev next : Option κ}
    (h : Segment s prev a next) (hnodup : (keys (a ++ b)).Nodup) (prev' : Option κ) :
    Segment (Links.setPrev s (headKey b) prev') prev a next :=
  h.congr fun _ hq => modify_of_ne s
    (fun heq => not_mem_of_nodup hnodup hq (mem_keys_of_headKey heq.symm)) _

theorem Segment.setNext_before {s : Store κ ν} {a b : List (κ × ν)} {prev next : Option κ}
    (h : Segment s prev b next) (hnodup : (keys (a ++ b)).Nodup) (next' : Option κ) :
    Segment (Links.setNext s (lastKey a) next') prev b next :=
  h.congr fun _ hq => modify_of_ne s
    (fun heq => not_mem_of_nodup hnodup (mem_keys_of_lastKey heq.symm) hq) _

/-- Two lists linked to each other. -/
theorem segment_join {s : Store κ ν} {a b : List (κ × ν)} (hnodup : (keys (a ++ b)).Nodup)
    {next prev : Option κ} (ha : Segment s none a next) (hb : Segment s prev b none) :
    Segment (Links.setPrev (Links.setNext s (lastKey a) (headKey b)) (headKey b) (lastKey a)) none
      (a ++ b) none := by
  obtain ⟨hna, hnb⟩ := nodup_parts hnodup
  rw [segment_append, Option.or_none, Option.or_none]
  exact ⟨(ha.setNext (headKey b) hna).setPrev_behind hnodup (lastKey a),
    (hb.setNext_before hnodup (headKey b)).setPrev (lastKey a) hnb⟩

/-- **Removing a cell** links its neighbours to each other. -/
theorem Linked.remove {s : Store κ ν} {a b : List (κ × ν)} {p : κ} {x : ν}
    (h : Linked s (a ++ (p, x) :: b)) {t : Store κ ν} (ht : ∀ q, q ≠ p → t q =
      Links.setPrev (Links.setNext s (lastKey a) (headKey b)) (headKey b) (lastKey a) q) :
    Linked t (a ++ b) := by
  obtain ⟨hp, hnodup⟩ := nodup_keys_insert.mp h.nodup
  obtain ⟨ha, -, hb⟩ := segment_append.mp h.segment
  refine ⟨(segment_join hnodup ha hb).congr fun q hq => ht q ?_, hnodup⟩
  exact ne_of_mem_of_not_mem hq hp

/-- **Inserting a cell** links it to its neighbours and its neighbours to it. -/
theorem Linked.insert {s : Store κ ν} {a b : List (κ × ν)} (h : Linked s (a ++ b)) {p : κ}
    (hp : p ∉ keys (a ++ b)) (x : ν) :
    Linked (Links.setPrev (Links.setNext (Links.put s p ⟨x, lastKey a, headKey b⟩) (lastKey a)
      (some p)) (headKey b) (some p)) (a ++ (p, x) :: b) := by
  have hnodup : (keys (a ++ (p, x) :: b)).Nodup := nodup_keys_insert.mpr ⟨hp, h.nodup⟩
  obtain ⟨hna, hnb⟩ := nodup_parts h.nodup
  obtain ⟨hpa, hpb⟩ := not_mem_parts hnodup
  obtain ⟨ha, hb⟩ := segment_append.mp h.segment
  rw [Option.or_none] at ha hb
  -- with the cell there, both parts are what they were
  have ha' := ha.put hpa ⟨x, lastKey a, headKey b⟩
  have hb' := hb.put hpb ⟨x, lastKey a, headKey b⟩
  have hcell : Links.setPrev (Links.setNext (Links.put s p ⟨x, lastKey a, headKey b⟩) (lastKey a)
      (some p)) (headKey b) (some p) p = some ⟨x, lastKey a, headKey b⟩ := by
    rw [Links.setPrev, modify_of_ne _ fun heq => hpb (mem_keys_of_headKey heq.symm),
      Links.setNext, modify_of_ne _ fun heq => hpa (mem_keys_of_lastKey heq.symm)]
    exact if_pos rfl
  refine ⟨segment_append.mpr ⟨?_, ?_, ?_⟩, hnodup⟩
  · exact (ha'.setNext (some p) hna).setPrev_behind h.nodup (some p)
  · rw [hcell, Option.or_none, Option.or_none]
  · exact (hb'.setNext_before h.nodup (some p)).setPrev (some p) hnb

/-- **Changing an item** leaves the links. -/
theorem Linked.setItem {s : Store κ ν} {a b : List (κ × ν)} {p : κ} {x : ν}
    (h : Linked s (a ++ (p, x) :: b)) (y : ν) :
    Linked (setItem s p y) (a ++ (p, y) :: b) := by
  obtain ⟨hpa, hpb⟩ := not_mem_parts h.nodup
  have hkeys := keys_congr_item a b p x y
  obtain ⟨ha, hp, hb⟩ := segment_append.mp h.segment
  have hother : ∀ q, q ≠ p → Links.setItem s p y q = s q := fun q hq =>
    modify_of_ne s (fun heq => hq (Option.some.inj heq)) _
  refine ⟨segment_append.mpr ⟨?_, ?_, ?_⟩, hkeys ▸ h.nodup⟩
  · exact ha.congr fun q hq => hother q (ne_of_mem_of_not_mem hq hpa)
  · change (if some p = some p then (s p).map _ else s p) = _
    rw [if_pos rfl, hp]
    rfl
  · exact hb.congr fun q hq => hother q (ne_of_mem_of_not_mem hq hpb)

/-! ### Walks -/

omit [DecidableEq κ]

/-- The cells seen from a key on, along one of the links, up to the end. -/
def Walk (link : Cell κ ν → Option κ) (s : Store κ ν) : Option κ → List (κ × ν) → Prop
  | p, [] => p = none
  | p, (q, x) :: l => p = some q ∧ ∃ c, s q = some c ∧ c.item = x ∧ Walk link s (link c) l

/-- What a loop along the cells behind a key visits, for up to a number of cells. -/
def cells (s : Store κ ν) : ℕ → Option κ → List (κ × ν)
  | 0, _ => []
  | _ + 1, none => []
  | n + 1, some p =>
      match s p with
      | none => []
      | some c => (p, c.item) :: cells s n c.next

/-- It visits what the walk sees. -/
theorem Walk.cells_eq {s : Store κ ν} : ∀ {n : ℕ} {l : List (κ × ν)} {p : Option κ},
    Walk Cell.next s p l → l.length ≤ n → cells s n p = l
  | 0, [], _, _, _ => rfl
  | _ + 1, [], _, h, _ => by
      rw [h]
      rfl
  | n + 1, (q, x) :: l, _, h, hlen => by
      obtain ⟨rfl, c, hc, rfl, hl⟩ := h
      rw [cells, hc]
      exact congrArg _ (hl.cells_eq (Nat.le_of_succ_le_succ hlen))

/-- **A walk sees one list.** -/
theorem Walk.unique {link : Cell κ ν → Option κ} {s : Store κ ν} :
    ∀ {l m : List (κ × ν)} {p : Option κ}, Walk link s p l → Walk link s p m → l = m
  | [], [], _, _, _ => rfl
  | [], (q, y) :: m, _, h, h' => by
      rw [h] at h'
      cases h'.1
  | (q, x) :: l, [], _, h, h' => by
      rw [h'] at h
      cases h.1
  | (q, x) :: l, (r, y) :: m, _, h, h' => by
      obtain ⟨rfl, c, hc, rfl, hl⟩ := h
      obtain ⟨hr, c', hc', rfl, hm⟩ := h'
      obtain rfl := Option.some.inj hr
      obtain rfl := Option.some.inj (hc.symm.trans hc')
      rw [hl.unique hm]

theorem Segment.walk_next {s : Store κ ν} {b : List (κ × ν)} :
    ∀ {a : List (κ × ν)} {prev next : Option κ}, Segment s prev a next →
      Walk Cell.next s next b → Walk Cell.next s ((headKey a).or next) (a ++ b)
  | [], _, _, _, hb => hb
  | (_, _) :: _, _, _, h, hb => ⟨rfl, _, h.1, rfl, h.2.walk_next hb⟩

theorem Segment.walk_prev {s : Store κ ν} {b : List (κ × ν)} :
    ∀ {a : List (κ × ν)} {prev next : Option κ}, Segment s prev a next →
      Walk Cell.prev s prev b → Walk Cell.prev s ((lastKey a).or prev) (a.reverse ++ b)
  | [], _, _, _, hb => hb
  | (p, x) :: a, prev, next, h, hb => by
      rw [lastKey_cons, Option.or_assoc, List.reverse_cons, List.append_assoc]
      exact h.2.walk_prev ⟨rfl, _, h.1, rfl, hb⟩

theorem Linked.walks {s : Store κ ν} {l : List (κ × ν)} (h : Linked s l) :
    Walk Cell.next s (headKey l) l ∧ Walk Cell.prev s (lastKey l) l.reverse := by
  have hnext := h.segment.walk_next (b := []) rfl
  have hprev := h.segment.walk_prev (b := []) rfl
  rw [Option.or_none, List.append_nil] at hnext hprev
  exact ⟨hnext, hprev⟩

/-- The walk behind a cell that was seen. -/
theorem Walk.suffix {link : Cell κ ν → Option κ} {s : Store κ ν} {b : List (κ × ν)} {q : κ}
    {x : ν} : ∀ {a : List (κ × ν)} {p : Option κ}, Walk link s p (a ++ (q, x) :: b) →
      Walk link s (some q) ((q, x) :: b)
  | [], _, h => by
      obtain ⟨rfl, h⟩ := h
      exact ⟨rfl, h⟩
  | (_, _) :: _, _, h => by
      obtain ⟨-, _, -, -, h⟩ := h
      exact h.suffix

/-- A walk that comes to an end sees no cell twice. -/
theorem Walk.nodup {link : Cell κ ν → Option κ} {s : Store κ ν} :
    ∀ {l : List (κ × ν)} {p : Option κ}, Walk link s p l → (keys l).Nodup
  | [], _, _ => .nil
  | (q, x) :: l, p, h => by
      obtain ⟨rfl, c, hc, hx, hl⟩ := h
      refine List.nodup_cons.mpr ⟨fun hmem => ?_, hl.nodup⟩
      -- the walk from the second time on would see as much as the one from the first
      obtain ⟨⟨r, y⟩, hr, rfl⟩ := List.mem_map.mp hmem
      obtain ⟨a, b, rfl⟩ := List.append_of_mem hr
      have hfirst : Walk link s (some r) ((r, x) :: (a ++ (r, y) :: b)) :=
        ⟨rfl, c, hc, hx, hl⟩
      have hlen := congrArg List.length (hl.suffix.unique hfirst)
      simp only [List.length_cons, List.length_append] at hlen
      omega

theorem Walk.eq_headKey {link : Cell κ ν → Option κ} {s : Store κ ν} {p : Option κ}
    {l : List (κ × ν)} (h : Walk link s p l) : p = headKey l := by
  cases l with
  | nil => exact h
  | cons c l => exact h.1

/-- Cells that are linked to their neighbours one by one are a segment. -/
theorem segment_of_cells {s : Store κ ν} : ∀ {l a : List (κ × ν)},
    (∀ b q x r, l = b ++ (q, x) :: r → s q = some ⟨x, lastKey (a ++ b), headKey r⟩) →
      Segment s (lastKey a) l none
  | [], _, _ => trivial
  | (q, x) :: l, a, h => by
      refine ⟨?_, ?_⟩
      · rw [h [] q x l rfl, List.append_nil, Option.or_none]
      · have hlast : lastKey (a ++ [(q, x)]) = some q := by
          rw [lastKey, List.getLast?_append]
          rfl
        rw [← hlast]
        refine segment_of_cells fun b q' x' r hl => ?_
        rw [h ((q, x) :: b) q' x' r (by rw [hl]; rfl), List.append_assoc]
        rfl

theorem headKey_reverse (l : List (κ × ν)) : headKey l.reverse = lastKey l := by
  rw [headKey, lastKey, List.head?_reverse]

/-- **A list is linked exactly when both walks see it.** -/
theorem linked_iff_walks {s : Store κ ν} {l : List (κ × ν)} {first last : Option κ} :
    Linked s l ∧ first = headKey l ∧ last = lastKey l ↔
      Walk Cell.next s first l ∧ Walk Cell.prev s last l.reverse := by
  constructor
  · rintro ⟨h, rfl, rfl⟩
    exact h.walks
  · rintro ⟨hnext, hprev⟩
    refine ⟨⟨segment_of_cells (a := []) fun a q x b hl => ?_, hnext.nodup⟩, hnext.eq_headKey,
      hprev.eq_headKey.trans (headKey_reverse l)⟩
    subst hl
    obtain ⟨-, c, hc, rfl, hb⟩ := hnext.suffix
    rw [List.reverse_append, List.reverse_cons, List.append_assoc] at hprev
    obtain ⟨-, c', hc', -, ha⟩ := hprev.suffix
    change Walk Cell.prev s c'.prev a.reverse at ha
    obtain rfl := Option.some.inj (hc.symm.trans hc')
    rw [hc, List.nil_append, ← hb.eq_headKey, ← headKey_reverse, ← ha.eq_headKey]

end Lib.Links
