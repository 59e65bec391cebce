import Mathlib.Data.List.Nodup
import Mathlib.Logic.Function.Basic

/-!
# Groups of Linked Objects

Objects lie in a heap under their addresses, and may be freed. Some of them are the members of
groups: each group is a list of addresses. An object may link to another one.

A group is closed when its members are there, each once, and link to members only. Groups that
have no member in common stay so under a change of one of them that leaves alone what is not
its own: what it takes in was free before, and what it does not have is as it was.

## Main results

* `Apart.change`: **the frame rule** — a change of one group leaves all of them closed.
* `Apart.drop`, `Apart.reindex`: groups may be emptied, and renamed.
* `linksIn_erase_iff`: a member can be freed exactly when no other one links to it.
-/

namespace Lib.Groups

variable {ι κ α β : Type*} {link : β → Option α} {heap heap' heap'' : α → Option β}
  {l l' l'' : List α}

/-- Members link to members. -/
def LinksIn (link : β → Option α) (heap : α → Option β) (l : List α) : Prop :=
  ∀ p ∈ l, ∀ b, heap p = some b → ∀ q, link b = some q → q ∈ l

/-- A closed group. -/
structure Group (link : β → Option α) (heap : α → Option β) (l : List α) : Prop where
  alive : ∀ p ∈ l, (heap p).isSome
  nodup : l.Nodup
  link : LinksIn link heap l

/-- Closed groups without a member in common. -/
structure Apart (link : β → Option α) (heap : α → Option β) (members : ι → List α) : Prop where
  group : ∀ i, Group link heap (members i)
  disjoint : ∀ i j p, p ∈ members i → p ∈ members j → i = j

/-- What a change of a group leaves alone: what it takes in was free, and what is not its own
stays. -/
structure Frame (heap heap' : α → Option β) (l l' : List α) : Prop where
  new : ∀ p ∈ l', p ∈ l ∨ heap p = none
  other : ∀ p, p ∉ l → (heap p).isSome → heap' p = heap p

/-! ### Groups -/

theorem Group.nil : Group link heap ([] : List α) :=
  ⟨fun _ h => (nomatch h), List.nodup_nil, fun _ h => (nomatch h)⟩

theorem Group.congr (h : Group link heap l) (heq : ∀ p ∈ l, heap' p = heap p) :
    Group link heap' l where
  alive p hp := by
    rw [heq p hp]
    exact h.alive p hp
  nodup := h.nodup
  link p hp b hb := h.link p hp b ((heq p hp).symm.trans hb)

theorem Frame.refl : Frame heap heap l l := ⟨fun _ hp => .inl hp, fun _ _ _ => rfl⟩

/-- Two changes. -/
theorem Frame.trans (h : Frame heap heap' l l') (h' : Frame heap' heap'' l' l'') :
    Frame heap heap'' l l'' where
  new p hp := by
    by_cases hl : p ∈ l
    · exact .inl hl
    · rcases h'.new p hp with hp' | hp'
      · exact h.new p hp'
      · cases hb : heap p with
        | none => exact .inr rfl
        | some b =>
            have hsome := h.other p hl (Option.isSome_of_eq_some hb)
            rw [hp', hb] at hsome
            cases hsome
  other p hp hsome := by
    have heq := h.other p hp hsome
    have hp' : p ∉ l' := fun hmem => by
      rcases h.new p hmem with hl | hnone
      · exact hp hl
      · rw [hnone] at hsome
        cases hsome
    exact (h'.other p hp' (heq ▸ hsome)).trans heq

section Change

variable [DecidableEq α] {p : α} {b : β}

/-- A member changed, that links to members still. -/
theorem Group.update (h : Group link heap l) (hlink : ∀ q, link b = some q → q ∈ l) :
    Group link (Function.update heap p (some b)) l where
  alive r hr := by
    by_cases hrp : r = p
    · rw [hrp, Function.update_self]
      rfl
    · rw [Function.update_of_ne hrp]
      exact h.alive r hr
  nodup := h.nodup
  link r hr c hc := by
    by_cases hrp : r = p
    · rw [hrp, Function.update_self] at hc
      obtain rfl := Option.some.inj hc
      exact hlink
    · rw [Function.update_of_ne hrp] at hc
      exact h.link r hr c hc

theorem Frame.update (hp : p ∈ l) : Frame heap (Function.update heap p (some b)) l l where
  new _ hr := .inl hr
  other _ hr _ := Function.update_of_ne (ne_of_mem_of_not_mem hp hr).symm _ _

/-- A new member, that links to none. -/
theorem Group.concat (h : Group link heap l) (hp : heap p = none) (hb : link b = none) :
    Group link (Function.update heap p (some b)) (l ++ [p]) := by
  have hpl : p ∉ l := fun hmem => by
    have := h.alive p hmem
    rw [hp] at this
    cases this
  refine ⟨fun r hr => ?_, ?_, fun r hr c hc q hq => ?_⟩
  · rcases List.mem_append.mp hr with hmem | hmem
    · rw [Function.update_of_ne (ne_of_mem_of_not_mem hmem hpl)]
      exact h.alive r hmem
    · rw [List.mem_singleton.mp hmem, Function.update_self]
      rfl
  · exact h.nodup.append (List.nodup_singleton p) (List.disjoint_singleton.mpr hpl)
  · rcases List.mem_append.mp hr with hmem | hmem
    · rw [Function.update_of_ne (ne_of_mem_of_not_mem hmem hpl)] at hc
      exact List.mem_append_left _ (h.link r hmem c hc q hq)
    · rw [List.mem_singleton.mp hmem, Function.update_self] at hc
      obtain rfl := Option.some.inj hc
      rw [hb] at hq
      cases hq

/-- What it takes in was free. -/
theorem Frame.concat (hp : heap p = none) :
    Frame heap (Function.update heap p (some b)) l (l ++ [p]) where
  new r hr := by
    rcases List.mem_append.mp hr with hmem | hmem
    · exact .inl hmem
    · rw [List.mem_singleton.mp hmem]
      exact .inr hp
  other r _ hsome := by
    have hrp : r ≠ p := by
      rintro rfl
      rw [hp] at hsome
      cases hsome
    exact Function.update_of_ne hrp _ _

/-- **A member freed**: the others link to each other exactly when none links to it. -/
theorem linksIn_erase_iff (h : LinksIn link heap l) :
    LinksIn link (Function.update heap p none) (l.filter (· ≠ p)) ↔
      ∀ r ∈ l, r ≠ p → (heap r).bind link ≠ some p := by
  have hmem : ∀ {r}, r ∈ l.filter (· ≠ p) ↔ r ∈ l ∧ r ≠ p := by
    intro r
    rw [List.mem_filter, decide_eq_true_iff]
  constructor
  · intro h' r hr hrp heq
    obtain ⟨c, hc, hq⟩ := Option.bind_eq_some_iff.mp heq
    have hc' : Function.update heap p none r = some c := by
      rw [Function.update_of_ne hrp]
      exact hc
    exact (hmem.mp (h' r (hmem.mpr ⟨hr, hrp⟩) c hc' p hq)).2 rfl
  · intro hfree r hr c hc q hq
    obtain ⟨hl, hrp⟩ := hmem.mp hr
    rw [Function.update_of_ne hrp] at hc
    refine hmem.mpr ⟨h r hl c hc q hq, ?_⟩
    rintro rfl
    exact hfree r hl hrp (Option.bind_eq_some_iff.mpr ⟨c, hc, hq⟩)

/-- Then they are a group. -/
theorem Group.erase (h : Group link heap l)
    (hlink : LinksIn link (Function.update heap p none) (l.filter (· ≠ p))) :
    Group link (Function.update heap p none) (l.filter (· ≠ p)) where
  alive r hr := by
    obtain ⟨hl, hrp⟩ := List.mem_filter.mp hr
    rw [Function.update_of_ne (of_decide_eq_true hrp)]
    exact h.alive r hl
  nodup := h.nodup.filter _
  link := hlink

theorem Frame.erase (hp : p ∈ l) :
    Frame heap (Function.update heap p none) l (l.filter (· ≠ p)) where
  new _ hr := .inl (List.mem_of_mem_filter hr)
  other _ hr _ := Function.update_of_ne (ne_of_mem_of_not_mem hp hr).symm _ _

end Change

/-! ### Groups apart -/

variable {members : ι → List α}

/-- **The frame rule.** -/
theorem Apart.change [DecidableEq ι] {i : ι} (h : Apart link heap members)
    (hframe : Frame heap heap' (members i) l) (hgroup : Group link heap' l) :
    Apart link heap' (Function.update members i l) := by
  -- what another group has is not in the one that is changed, before and after
  have hout : ∀ j, j ≠ i → ∀ p ∈ members j, p ∉ members i ∧ p ∉ l := by
    intro j hj p hp
    have hi : p ∉ members i := fun hmem => hj (h.disjoint j i p hp hmem)
    refine ⟨hi, fun hl => ?_⟩
    have hsome := (h.group j).alive p hp
    rcases hframe.new p hl with hmem | hnone
    · exact hi hmem
    · rw [hnone] at hsome
      cases hsome
  refine ⟨fun j => ?_, fun j k p hj hk => ?_⟩
  · by_cases hj : j = i
    · rw [hj, Function.update_self]
      exact hgroup
    · rw [Function.update_of_ne hj]
      exact (h.group j).congr fun p hp =>
        hframe.other p (hout j hj p hp).1 ((h.group j).alive p hp)
  · by_cases hji : j = i <;> by_cases hki : k = i
    · exact hji.trans hki.symm
    · rw [hji, Function.update_self] at hj
      rw [Function.update_of_ne hki] at hk
      exact absurd hj (hout k hki p hk).2
    · rw [hki, Function.update_self] at hk
      rw [Function.update_of_ne hji] at hj
      exact absurd hk (hout j hji p hj).2
    · rw [Function.update_of_ne hji] at hj
      rw [Function.update_of_ne hki] at hk
      exact h.disjoint j k p hj hk

theorem Apart.congr (h : Apart link heap members)
    (heq : ∀ p, (heap p).isSome → heap' p = heap p) : Apart link heap' members where
  group i := (h.group i).congr fun p hp => heq p ((h.group i).alive p hp)
  disjoint := h.disjoint

/-- Groups emptied. -/
theorem Apart.drop {members' : ι → List α} (h : Apart link heap members)
    (hdrop : ∀ i, members' i = members i ∨ members' i = []) : Apart link heap members' := by
  have hmem : ∀ i p, p ∈ members' i → p ∈ members i := by
    intro i p hp
    rcases hdrop i with heq | heq
    · exact heq ▸ hp
    · rw [heq] at hp
      cases hp
  refine ⟨fun i => ?_, fun i j p hi hj => h.disjoint i j p (hmem i p hi) (hmem j p hj)⟩
  rcases hdrop i with heq | heq
  · rw [heq]
    exact h.group i
  · rw [heq]
    exact .nil

/-- **Groups renamed**, and dropped. -/
theorem Apart.reindex (h : Apart link heap members) {g : κ → Option ι}
    (hg : ∀ a b i, g a = some i → g b = some i → a = b) :
    Apart link heap (fun a => (g a).elim [] members) where
  group a := by
    cases ha : g a with
    | none => exact .nil
    | some i => exact h.group i
  disjoint a b p hpa hpb := by
    cases ha : g a with
    | none =>
        rw [ha] at hpa
        cases hpa
    | some i =>
        cases hb : g b with
        | none =>
            rw [hb] at hpb
            cases hpb
        | some j =>
            rw [ha] at hpa
            rw [hb] at hpb
            obtain rfl := h.disjoint i j p hpa hpb
            exact hg a b i ha hb

end Lib.Groups
