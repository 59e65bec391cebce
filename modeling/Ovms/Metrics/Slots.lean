import Ovms.Lib.Machine
import Ovms.Metrics.Persist

/-!
# Slots Are Not Shared

Names are registered in the persistent storage of metrics and looked up there
(`main/ovms_metrics.cpp`), in any order and over restarts that do not reset it. Which name a slot
was registered for is known from the restart on. Registering a name looks there, so that no other
name of the same hash gets the slot; looking a name up compares the hashes only, and answers the
slot for the other name as well.
-/

open Lib

namespace Ovms.Metrics

/-! ### Calls -/

/-- What is called: a name is registered, or looked up; or the system restarts. -/
inductive SlotCall
  | register (name : Name)
  | find (name : Name)
  | restart
  deriving DecidableEq, Repr

/-- The name that a call is about. -/
def SlotCall.name : SlotCall → Option Name
  | .register name => some name
  | .find name => some name
  | .restart => none

section Run

variable (hash : Name → UInt32)

/-- The slot that is answered, and the storage behind the call. -/
def SlotCall.perform (s : Persist) : SlotCall → Option Pointer × Persist
  | .register name => pmetricsRegister hash s name
  | .find name => (pmetricsFind hash s.pmetrics name, s)
  | .restart => (none, boot false s.pmetrics)

/-- The storage behind some calls. -/
def behind (s : Persist) (calls : List SlotCall) : Persist :=
  calls.foldl (fun s c => (c.perform hash s).2) s

/-- What a call answers behind others. -/
def answer (s : Persist) (calls : List SlotCall) (c : SlotCall) : Option Pointer :=
  (c.perform hash (behind hash s calls)).1

/-- The slots in use have different hashes. -/
def PersistentMetrics.Distinct (p : PersistentMetrics) : Prop :=
  ∀ i j : Pointer, (i : ℤ) < p.used → (j : ℤ) < p.used →
    (p.values i).namehash = (p.values j).namehash → i = j

/-! ### What should hold -/

/-- Calls of a kind that answer the same slot, without a restart between them, are about the same
name. -/
def Apart (kind : SlotCall → Prop) (s : Persist) (calls : List SlotCall) : Prop :=
  ∀ pre c mid d post i, calls = pre ++ c :: (mid ++ d :: post) → .restart ∉ mid →
    kind c → kind d → answer hash s pre c = some i → answer hash s (pre ++ c :: mid) d = some i →
      c.name = d.name

end Run

/-! ### What a call keeps -/

/-- The block passes the check, and its slots have different hashes. -/
structure Orderly (p : PersistentMetrics) : Prop where
  header : p.headerOk = true
  distinct : p.Distinct

section Step

variable {hash : Name → UInt32} {s : Persist}

/-- A slot is taken for a hash that no slot has. -/
theorem PersistentMetrics.Distinct.assign {p : PersistentMetrics} (h : p.Distinct) {i : Pointer}
    {namehash : UInt32} (hi : (i : ℤ) = p.used) (hnone : p.findHash namehash = none) :
    (p.assign i namehash).Distinct := by
  have hfresh : ∀ j : Pointer, (j : ℤ) < p.used → (p.values j).namehash ≠ namehash := by
    intro j hj heq
    have hheld := findHash_eq_none_iff.mp hnone j
    rw [holds, decide_eq_true hj, heq, Bool.true_and, beq_self_eq_true] at hheld
    exact absurd hheld.symm Bool.false_ne_true
  have hbelow : ∀ j : Pointer, j ≠ i → (j : ℤ) < p.used + 1 → (j : ℤ) < p.used := by
    intro j hne hlt
    rw [ne_eq, Fin.ext_iff] at hne
    omega
  intro j k hj hk heq
  rw [used_assign] at hj hk
  rw [values_assign] at heq
  rcases eq_or_ne j i with hji | hji <;> rcases eq_or_ne k i with hki | hki
  · exact hji.trans hki.symm
  · rw [hji, Function.update_self, Function.update_of_ne hki] at heq
    exact absurd heq.symm (hfresh k (hbelow k hki hk))
  · rw [hki, Function.update_self, Function.update_of_ne hji] at heq
    exact absurd heq (hfresh j (hbelow j hji hj))
  · rw [Function.update_of_ne hji, Function.update_of_ne hki] at heq
    exact h j k (hbelow j hji hj) (hbelow k hki hk) heq

/-- **What a call keeps**: the order of the block, and every slot in use. -/
theorem Orderly.perform (h : Orderly s.pmetrics) (hash : Name → UInt32) (c : SlotCall) :
    Orderly (c.perform hash s).2.pmetrics ∧
      s.pmetrics.used ≤ (c.perform hash s).2.pmetrics.used ∧
      ∀ namehash i, s.pmetrics.findHash namehash = some i →
        (c.perform hash s).2.pmetrics.findHash namehash = some i := by
  cases c with
  | find name => exact ⟨h, le_rfl, fun _ _ hi => hi⟩
  | restart =>
      have hboot : (boot false s.pmetrics).pmetrics =
          { s.pmetrics with serial := s.pmetrics.serial + 1 } := boot_false h.header
      refine ⟨⟨headerOk_boot false s.pmetrics, ?_⟩, ?_, ?_⟩ <;> rw [SlotCall.perform, hboot]
      · exact h.distinct
      · exact fun _ _ hi => hi
  | register name =>
      have hextends : Extends hash s (pmetricsRegister hash s name).2 :=
        extends_pmetricsRegister h.header Prod.mk.eta.symm
      have hstep : (pmetricsRegister hash s name).2.pmetrics.Distinct ∧
          s.pmetrics.used ≤ (pmetricsRegister hash s name).2.pmetrics.used := by
        rcases pmetricsRegister_cases hash s name with heq | ⟨i, s', heq, -, -, hcases⟩
        · rw [heq]
          exact ⟨h.distinct, le_rfl⟩
        · rw [heq]
          dsimp only
          rcases hcases with ⟨-, hp⟩ | ⟨hnone, hi, hp⟩
          · rw [hp]
            exact ⟨h.distinct, le_rfl⟩
          · have hrange := PersistentMetrics.InRange.of_headerOk h.header
            have hlow := hrange.1
            rw [hp, PersistentMetrics.used_assign]
            exact ⟨h.distinct.assign (by omega) hnone, by omega⟩
      exact ⟨⟨hextends.header, hstep.1⟩, hstep.2, fun namehash i hi =>
        (hextends.slots namehash i hi).1⟩

/-- A registered name stays registered until a restart. -/
theorem Registered.perform {name : Name} {i : Pointer} (h : Registered hash s name i)
    (hok : s.pmetrics.headerOk = true) {c : SlotCall} (hc : c ≠ .restart) :
    Registered hash (c.perform hash s).2 name i := by
  cases c with
  | find other => exact h
  | restart => exact absurd rfl hc
  | register other =>
      have hextends : Extends hash s (pmetricsRegister hash s other).2 :=
        extends_pmetricsRegister hok Prod.mk.eta.symm
      exact hextends.registered name i h

/-- **What a run keeps.** -/
theorem Orderly.behind (h : Orderly s.pmetrics) (hash : Name → UInt32) (calls : List SlotCall) :
    Orderly (behind hash s calls).pmetrics ∧
      s.pmetrics.used ≤ (Metrics.behind hash s calls).pmetrics.used ∧
      ∀ namehash i, s.pmetrics.findHash namehash = some i →
        (Metrics.behind hash s calls).pmetrics.findHash namehash = some i := by
  induction calls generalizing s with
  | nil => exact ⟨h, le_rfl, fun _ _ hi => hi⟩
  | cons c calls ih =>
      obtain ⟨hstep, hused, hslots⟩ := h.perform hash c
      obtain ⟨hrest, hused', hslots'⟩ := ih hstep
      exact ⟨hrest, hused.trans hused', fun namehash i hi =>
        hslots' namehash i (hslots namehash i hi)⟩

/-- A registered name stays registered along calls without a restart. -/
theorem Registered.behind {name : Name} {i : Pointer} (h : Registered hash s name i)
    (hs : Orderly s.pmetrics) {calls : List SlotCall} (hcalls : .restart ∉ calls) :
    Registered hash (Metrics.behind hash s calls) name i := by
  induction calls generalizing s with
  | nil => exact h
  | cons c calls ih =>
      obtain ⟨hc, hrest⟩ := not_or.mp (mt List.mem_cons.mpr hcalls)
      exact ih (h.perform hs.header (Ne.symm hc)) (hs.perform hash c).1 hrest

end Step

/-! ### The slots of a run -/

section Slots

variable {hash : Name → UInt32} {s : Persist} {calls : List SlotCall}

end Slots

end Ovms.Metrics
