import Mathlib.Data.List.Nodup

/-!
# Singly Linked Lists in a Store

A store holds nodes under keys. A node has an item and a link to the next node; a chain is
what is seen along the links from one key to another.
-/

namespace Lib.Single

variable {κ ν : Type*}

/-- A node: an item and the key of the next node. -/
structure Node (κ ν : Type*) where
  item : ν
  next : Option κ
  deriving DecidableEq, Repr

/-- Nodes under keys. -/
abbrev Store (κ ν : Type*) := κ → Option (Node κ ν)

/-- The keys of nodes. -/
def keys (l : List (κ × ν)) : List κ := l.map Prod.fst

/-- The nodes along the links from one key to another. -/
def Chain (s : Store κ ν) : Option κ → List (κ × ν) → Option κ → Prop
  | p, [], q => p = q
  | p, (k, x) :: l, q => p = some k ∧ ∃ next, s k = some ⟨x, next⟩ ∧ Chain s next l q

@[simp] theorem keys_append (a b : List (κ × ν)) : keys (a ++ b) = keys a ++ keys b :=
  List.map_append

@[simp] theorem keys_cons (c : κ × ν) (l : List (κ × ν)) : keys (c :: l) = c.1 :: keys l := rfl

/-- **Chains compose.** -/
theorem chain_append {s : Store κ ν} {b : List (κ × ν)} {q : Option κ} :
    ∀ {a : List (κ × ν)} {p : Option κ},
      Chain s p (a ++ b) q ↔ ∃ r, Chain s p a r ∧ Chain s r b q
  | [], p => by
      constructor
      · exact fun h => ⟨p, rfl, h⟩
      · rintro ⟨_, rfl, h⟩
        exact h
  | (k, x) :: a, p => by
      rw [List.cons_append]
      constructor
      · rintro ⟨hp, next, hk, h⟩
        obtain ⟨r, ha, hb⟩ := chain_append.mp h
        exact ⟨r, ⟨hp, next, hk, ha⟩, hb⟩
      · rintro ⟨r, ⟨hp, next, hk, ha⟩, hb⟩
        exact ⟨hp, next, hk, chain_append.mpr ⟨r, ha, hb⟩⟩

theorem Chain.congr {s t : Store κ ν} {q : Option κ} :
    ∀ {l : List (κ × ν)} {p : Option κ}, Chain s p l q → (∀ k ∈ keys l, t k = s k) →
      Chain t p l q
  | [], _, h, _ => h
  | (k, _) :: _, _, ⟨hp, next, hk, h⟩, hst =>
      ⟨hp, next, (hst k List.mem_cons_self).trans hk,
        h.congr fun j hj => hst j (List.mem_cons_of_mem _ hj)⟩

theorem Chain.node {s : Store κ ν} {a b : List (κ × ν)} {k : κ} {x : ν} {p q : Option κ}
    (h : Chain s p (a ++ (k, x) :: b) q) : ∃ next, s k = some ⟨x, next⟩ ∧ Chain s next b q := by
  obtain ⟨_, _, _, next, hk, hb⟩ := chain_append.mp h
  exact ⟨next, hk, hb⟩

theorem chain_append_cons {s : Store κ ν} {a b : List (κ × ν)} {k : κ} {x : ν} {p q : Option κ} :
    Chain s p (a ++ (k, x) :: b) q ↔ ∃ r, Chain s p (a ++ [(k, x)]) r ∧ Chain s r b q := by
  rw [List.append_cons, chain_append]

/-- What a chain to the end starts from is one of its nodes. -/
theorem Chain.mem_keys {s : Store κ ν} {l : List (κ × ν)} {k : κ} (h : Chain s (some k) l none) :
    k ∈ keys l := by
  cases l with
  | nil => cases h
  | cons c l =>
      obtain ⟨hk, -⟩ := h
      obtain rfl := Option.some.inj hk
      exact List.mem_cons_self

/-! ### Changing nodes -/

variable [DecidableEq κ]

/-- A node put under a key. -/
def put (s : Store κ ν) (k : κ) (c : Node κ ν) : Store κ ν := fun j => if j = k then some c else s j

/-- The node of a key given up. -/
def free (s : Store κ ν) (k : κ) : Store κ ν := fun j => if j = k then none else s j

/-- The link of a node set. -/
def setNext (s : Store κ ν) (k : κ) (next : Option κ) : Store κ ν :=
  fun j => if j = k then (s j).map fun c => { c with next := next } else s j

@[simp] theorem put_self (s : Store κ ν) (k : κ) (c : Node κ ν) : put s k c k = some c := if_pos rfl

theorem setNext_self {s : Store κ ν} {k : κ} {x : ν} {next : Option κ} (h : s k = some ⟨x, next⟩)
    (next' : Option κ) : setNext s k next' k = some ⟨x, next'⟩ := by
  rw [setNext, if_pos rfl, h]
  rfl

theorem setNext_same {s : Store κ ν} {k : κ} {x : ν} {next : Option κ}
    (h : s k = some ⟨x, next⟩) : setNext s k next = s := by
  funext j
  by_cases hj : j = k
  · rw [hj, setNext_self h, h]
  · exact if_neg hj

theorem setNext_of_ne (s : Store κ ν) {j k : κ} (h : j ≠ k) (next : Option κ) :
    setNext s k next j = s j :=
  if_neg h

theorem Chain.put {s : Store κ ν} {l : List (κ × ν)} {p q : Option κ} {k : κ} (h : Chain s p l q)
    (hk : k ∉ keys l) (c : Node κ ν) : Chain (put s k c) p l q :=
  h.congr fun _ hj => if_neg (ne_of_mem_of_not_mem hj hk)

theorem Chain.free {s : Store κ ν} {l : List (κ × ν)} {p q : Option κ} {k : κ} (h : Chain s p l q)
    (hk : k ∉ keys l) : Chain (free s k) p l q :=
  h.congr fun _ hj => if_neg (ne_of_mem_of_not_mem hj hk)

theorem Chain.setNext {s : Store κ ν} {l : List (κ × ν)} {p q : Option κ} {k : κ}
    (h : Chain s p l q) (hk : k ∉ keys l) (next : Option κ) : Chain (setNext s k next) p l q :=
  h.congr fun _ hj => setNext_of_ne s (ne_of_mem_of_not_mem hj hk) next

theorem Chain.relink {s : Store κ ν} {a : List (κ × ν)} {k : κ} {x : ν} {p q : Option κ}
    (h : Chain s p (a ++ [(k, x)]) q) (hk : k ∉ keys a) (q' : Option κ) :
    Chain (Single.setNext s k q') p (a ++ [(k, x)]) q' := by
  obtain ⟨r, ha, hr, next, hnode, -⟩ := chain_append.mp h
  exact chain_append.mpr ⟨r, ha.setNext hk q', hr, q', setNext_self hnode q', rfl⟩

/-- **Inserting a node** that is linked to what stands behind it. -/
theorem Chain.insert {s : Store κ ν} {a b : List (κ × ν)} {j k : κ} {x y : ν}
    {p q next next' : Option κ} (h : Chain s p (a ++ (k, x) :: b) q)
    (hnodup : (keys (a ++ (k, x) :: b)).Nodup) (hj : j ∉ keys (a ++ (k, x) :: b))
    (hk : s k = some ⟨x, next⟩) (hy : s j = some ⟨y, next'⟩) :
    Chain (Single.setNext (Single.setNext s j next) k (some j)) p (a ++ (k, x) :: (j, y) :: b)
      q := by
  obtain ⟨r, ha, hb⟩ := chain_append_cons.mp h
  obtain ⟨next'', hk', hb'⟩ := h.node
  rw [hk] at hk'
  cases hk'
  simp only [keys_append, keys_cons, List.mem_append, List.mem_cons, not_or] at hj
  simp only [keys_append, keys_cons, List.nodup_append, List.nodup_cons] at hnodup
  obtain ⟨hja, hjk, hjb⟩ := hj
  obtain ⟨-, ⟨hkb, -⟩, hab⟩ := hnodup
  have hka : k ∉ keys a := fun hmem => hab k hmem k List.mem_cons_self rfl
  refine chain_append_cons.mpr ⟨some j, ?_, rfl, next, ?_, ?_⟩
  · refine (ha.setNext (k := j) ?_ next).relink hka (some j)
    simpa only [keys_append, keys_cons, List.mem_append, List.mem_cons, not_or] using
      ⟨hja, hjk, List.not_mem_nil⟩
  · rw [setNext_of_ne _ hjk]
    exact setNext_self hy next
  · exact (hb'.setNext hjb next).setNext hkb (some j)

/-- **Removing a node** links the one before it to the one behind it. -/
theorem Chain.remove {s : Store κ ν} {a b : List (κ × ν)} {j k : κ} {x y : ν}
    {p q next : Option κ} (h : Chain s p (a ++ (k, x) :: (j, y) :: b) q)
    (hnodup : (keys (a ++ (k, x) :: b)).Nodup) (hy : s j = some ⟨y, next⟩) :
    Chain (Single.setNext s k next) p (a ++ (k, x) :: b) q := by
  obtain ⟨r, ha, -, next', hj, hb⟩ := chain_append_cons.mp h
  rw [hy] at hj
  cases hj
  simp only [keys_append, keys_cons, List.nodup_append, List.nodup_cons] at hnodup
  obtain ⟨-, ⟨hkb, -⟩, hab⟩ := hnodup
  have hka : k ∉ keys a := fun hmem => hab k hmem k List.mem_cons_self rfl
  exact chain_append_cons.mpr ⟨next, ha.relink hka next, hb.setNext hkb next⟩

end Lib.Single
