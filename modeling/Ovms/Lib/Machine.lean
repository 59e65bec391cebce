import Mathlib.Data.List.Basic
import Mathlib.Logic.Function.Basic

/-!
# Runs of Deterministic Machines

A machine is a step function `σ → ε → σ` on states and events, or `σ → ε → σ × ο` when
each step also answers an output. A run is the fold of the step over a list of events,
so a theorem about every list of events is a theorem about every order in which the
environment can call the machine.

## Main results

* `Reachable.invariant`: the invariant rule — what the initial states satisfy and every
  step keeps holds of every reachable state.
* `foldl_preorder`: a reflexive transitive relation that every admitted step of an
  invariant machine respects relates the two ends of every run of admitted steps.
* `along_congr_of_invariant`: two conditions on steps agree along every run from an
  invariant state.
* `alongSteps_congr_of_invariant`: the same where the steps are a relation, and may have no
  end.
* `foldlM_isSome_iff`: a machine of partial steps runs to the end exactly along the steps that
  it can take.
* `forall_prefix_refines_iff`: **refinement along a run**, of partial steps.
* `forall_reached_iff_alongSteps`: **properties along a run**, of partial steps.
* `AlongSteps.project`: **the separation rule**, of partial steps.
* `charged_le`: **the potential rule**, of partial steps: what a run is charged.
* `runOut_append`: runs compose.
* `runOut_simulation`: **the simulation rule**.
* `runOut_project`: **the separation rule** — a joint machine that acts on one component
  at a time, as a local machine would, answers each component what that local machine
  answers on the component's own events, in every interleaving.
-/

namespace Lib

section Runs

variable {σ ε : Type*} {next : σ → ε → σ} {init : σ → Prop} {I : σ → Prop}

/-- The states some run reaches from an initial state. -/
def Reachable (next : σ → ε → σ) (init : σ → Prop) (s : σ) : Prop :=
  ∃ (s₀ : σ) (es : List ε), init s₀ ∧ es.foldl next s₀ = s

theorem Reachable.of_init {s : σ} (h : init s) : Reachable next init s :=
  ⟨s, [], h, rfl⟩

theorem Reachable.step {s : σ} (h : Reachable next init s) (e : ε) :
    Reachable next init (next s e) := by
  obtain ⟨s₀, es, h₀, rfl⟩ := h
  exact ⟨s₀, es ++ [e], h₀, by rw [List.foldl_append]; rfl⟩

theorem Reachable.foldl {s : σ} (h : Reachable next init s) (es : List ε) :
    Reachable next init (es.foldl next s) := by
  induction es generalizing s with
  | nil => exact h
  | cons e es ih => exact ih (h.step e)

/-- **The invariant rule.** -/
theorem Reachable.invariant (hinit : ∀ s, init s → I s) (hstep : ∀ s e, I s → I (next s e))
    {s : σ} (h : Reachable next init s) : I s := by
  obtain ⟨s₀, es, h₀, rfl⟩ := h
  have hI : I s₀ := hinit s₀ h₀
  clear h₀
  induction es generalizing s₀ with
  | nil => exact hI
  | cons e es ih => exact ih _ (hstep s₀ e hI)

/-- Every step of the run of `es` from `s` satisfies `A`. -/
def Along (next : σ → ε → σ) (A : σ → ε → Prop) : σ → List ε → Prop
  | _, [] => True
  | s, e :: es => A s e ∧ Along next A (next s e) es

theorem along_append {A : σ → ε → Prop} {s : σ} {es fs : List ε} :
    Along next A s (es ++ fs) ↔ Along next A s es ∧ Along next A (es.foldl next s) fs := by
  induction es generalizing s with
  | nil => simp [Along]
  | cons e es ih => simp only [List.cons_append, Along, ih, List.foldl_cons, and_assoc]

/-- A run satisfies `A` along its way when every step does, in the state it is made in. -/
theorem along_iff {A : σ → ε → Prop} {s : σ} {es : List ε} :
    Along next A s es ↔ ∀ pre e post, es = pre ++ e :: post → A (pre.foldl next s) e := by
  constructor
  · rintro h pre e post rfl
    exact (along_append.mp h).2.1
  · intro h
    induction es generalizing s with
    | nil => trivial
    | cons e es ih =>
        refine ⟨h [] e es rfl, ih fun pre e' post hes => ?_⟩
        exact h (e :: pre) e' post (by rw [hes]; rfl)

theorem Along.invariant {A : σ → ε → Prop} (hstep : ∀ s e, I s → A s e → I (next s e)) {s : σ}
    {es : List ε} (h : Along next A s es) (hs : I s) : I (es.foldl next s) := by
  induction es generalizing s with
  | nil => exact hs
  | cons e es ih => exact ih h.2 (hstep s e hs h.1)

theorem Along.invariant_along {A : σ → ε → Prop}
    (hstep : ∀ s e, I s → A s e → I (next s e)) {s : σ} {es : List ε}
    (h : Along next A s es) (hs : I s) : ∀ pre, pre <+: es → I (pre.foldl next s) := by
  rintro pre ⟨post, rfl⟩
  exact (along_append.mp h).1.invariant hstep hs

theorem Along.and {A B : σ → ε → Prop} {s : σ} {es : List ε} (hA : Along next A s es)
    (hB : Along next B s es) : Along next (fun s e => A s e ∧ B s e) s es := by
  rw [along_iff] at hA hB ⊢
  exact fun pre e post hes => ⟨hA pre e post hes, hB pre e post hes⟩

theorem along_congr {A B : σ → ε → Prop} (h : ∀ s e, A s e ↔ B s e) {s : σ} {es : List ε} :
    Along next A s es ↔ Along next B s es := by
  rw [along_iff, along_iff]
  exact forall₄_congr fun pre e post _ => h (pre.foldl next s) e

/-- Conditions that agree on every step from an invariant state agree along every run from
one, when the steps that satisfy them keep the invariant. -/
theorem along_congr_of_invariant {A B : σ → ε → Prop} (h : ∀ s e, I s → (A s e ↔ B s e))
    (hstep : ∀ s e, I s → B s e → I (next s e)) {s : σ} (hs : I s) {es : List ε} :
    Along next A s es ↔ Along next B s es := by
  induction es generalizing s with
  | nil => exact Iff.rfl
  | cons e es ih =>
      rw [Along, Along, h s e hs]
      exact and_congr_right fun he => ih (hstep s e hs he)

/-- A machine that carries more state along satisfies a condition on the part when the
machine of the part does. -/
theorem along_map {τ : Type*} (part : τ → σ) {nextτ : τ → ε → τ}
    (h : ∀ t e, part (nextτ t e) = next (part t) e) {A : σ → ε → Prop} {t : τ} {es : List ε} :
    Along nextτ (fun t e => A (part t) e) t es ↔ Along next A (part t) es := by
  induction es generalizing t with
  | nil => exact Iff.rfl
  | cons e es ih =>
      rw [Along, Along, ih, h]

/-- Whether a run is admitted can be computed. -/
def Along.decidable {next : σ → ε → σ} {A : σ → ε → Prop} [∀ s e, Decidable (A s e)] :
    ∀ (s : σ) (es : List ε), Decidable (Along next A s es)
  | _, [] => isTrue trivial
  | s, e :: es => @instDecidableAnd _ _ _ (Along.decidable (next s e) es)

instance {next : σ → ε → σ} {A : σ → ε → Prop} [∀ s e, Decidable (A s e)] (s : σ)
    (es : List ε) : Decidable (Along next A s es) :=
  Along.decidable s es

/-- A preorder that every admitted step from an invariant state respects relates the two
ends of every run of admitted steps. -/
theorem foldl_preorder {R : σ → σ → Prop} {A : σ → ε → Prop} (hrefl : ∀ s, R s s)
    (htrans : ∀ s t u, R s t → R t u → R s u) (hI : ∀ s e, I s → I (next s e))
    (hstep : ∀ s e, I s → A s e → R s (next s e)) :
    ∀ (es : List ε) {s : σ}, I s → Along next A s es → R s (es.foldl next s) := by
  intro es
  induction es with
  | nil => intro s _ _; exact hrefl s
  | cons e es ih =>
      rintro s hs ⟨he, hes⟩
      exact htrans _ _ _ (hstep s e hs he) (ih (hI s e hs) hes)

end Runs

/-! ### Machines that may get stuck -/

section Steps

variable {σ ε : Type*} {next : σ → ε → σ → Prop}

/-- Every step of the run of `es` from `s` satisfies `A`, up to one that has no end. -/
def AlongSteps (next : σ → ε → σ → Prop) (A : σ → ε → Prop) : σ → List ε → Prop
  | _, [] => True
  | s, e :: es => A s e ∧ ∀ s', next s e s' → AlongSteps next A s' es

/-- Conditions that agree on every step from an invariant state agree along every run from
one, when the steps that satisfy them keep the invariant. -/
theorem alongSteps_congr_of_invariant {A B : σ → ε → Prop} {I : σ → Prop}
    (h : ∀ s e, I s → (A s e ↔ B s e)) (hstep : ∀ s e s', I s → B s e → next s e s' → I s')
    {s : σ} (hs : I s) {es : List ε} : AlongSteps next A s es ↔ AlongSteps next B s es := by
  induction es generalizing s with
  | nil => exact Iff.rfl
  | cons e es ih =>
      rw [AlongSteps, AlongSteps, h s e hs]
      exact and_congr_right fun he => forall₂_congr fun s' hs' => ih (hstep s e s' hs he hs')

theorem alongSteps_congr {A B : σ → ε → Prop} (h : ∀ s e, A s e ↔ B s e) {s : σ}
    {es : List ε} : AlongSteps next A s es ↔ AlongSteps next B s es :=
  alongSteps_congr_of_invariant (I := fun _ => True) (fun s e _ => h s e)
    (fun _ _ _ _ _ _ => trivial) trivial

/-- What every admitted step from an invariant state does is done along every admitted run from
one. -/
theorem AlongSteps.imp_of_invariant {A B : σ → ε → Prop} {I : σ → Prop}
    (h : ∀ s e, I s → A s e → B s e) (hstep : ∀ s e s', I s → A s e → next s e s' → I s')
    {s : σ} (hs : I s) {es : List ε} (hA : AlongSteps next A s es) : AlongSteps next B s es := by
  induction es generalizing s with
  | nil => trivial
  | cons e es ih =>
      exact ⟨h s e hs hA.1, fun s' hs' => ih (hstep s e s' hs hA.1 hs') (hA.2 s' hs')⟩

/-- **Refinement along a run**: where a step keeps a relation to an abstract machine exactly when
it is admitted, the relation holds all the way exactly along the admitted runs. -/
theorem forall_prefix_refines_iff {κ : Type*} {R : κ → σ → Prop} {g : κ → ε → κ}
    {f : σ → ε → Option σ} {A : σ → ε → Prop}
    (h : ∀ k s e, R k s → (A s e ↔ ∃ s', f s e = some s' ∧ R (g k e) s')) {k : κ} {s : σ}
    (hR : R k s) (es : List ε) :
    (∀ pre, pre <+: es → ∃ s', pre.foldlM f s = some s' ∧ R (pre.foldl g k) s') ↔
      AlongSteps (fun s e s' => f s e = some s') A s es := by
  induction es generalizing k s with
  | nil =>
      refine iff_of_true (fun pre hpre => ?_) trivial
      obtain rfl := List.prefix_nil.mp hpre
      exact ⟨s, rfl, hR⟩
  | cons e es ih =>
      constructor
      · intro hall
        obtain ⟨s₁, hs₁, hR₁⟩ := hall [e] ⟨es, rfl⟩
        rw [List.foldlM_cons, Option.bind_eq_bind, Option.bind_eq_some_iff] at hs₁
        obtain ⟨s₂, hs₂, hs₁⟩ := hs₁
        obtain rfl := Option.some.inj hs₁
        refine ⟨(h k s e hR).mpr ⟨s₂, hs₂, hR₁⟩, fun s' hs' => ?_⟩
        obtain rfl := Option.some.inj (hs₂.symm.trans hs')
        refine (ih hR₁).mp fun pre hpre => ?_
        obtain ⟨s', hs', hR'⟩ := hall (e :: pre) (List.prefix_cons_inj e |>.mpr hpre)
        rw [List.foldlM_cons, hs₂, Option.bind_eq_bind, Option.bind_some] at hs'
        exact ⟨s', hs', hR'⟩
      · rintro ⟨he, hes⟩ pre hpre
        obtain ⟨s₁, hs₁, hR₁⟩ := (h k s e hR).mp he
        cases pre with
        | nil => exact ⟨s, rfl, hR⟩
        | cons e' pre =>
            obtain ⟨rfl, hpre'⟩ := List.cons_prefix_cons.mp hpre
            obtain ⟨s', hs', hR'⟩ := (ih hR₁).mpr (hes s₁ hs₁) pre hpre'
            refine ⟨s', ?_, hR'⟩
            rw [List.foldlM_cons, hs₁, Option.bind_eq_bind, Option.bind_some, hs']

theorem AlongSteps.and {A B : σ → ε → Prop} {s : σ} {es : List ε} (hA : AlongSteps next A s es)
    (hB : AlongSteps next B s es) : AlongSteps next (fun s e => A s e ∧ B s e) s es := by
  induction es generalizing s with
  | nil => trivial
  | cons e es ih => exact ⟨⟨hA.1, hB.1⟩, fun s' hs' => ih (hA.2 s' hs') (hB.2 s' hs')⟩

theorem alongSteps_of_forall {A : σ → ε → Prop} {s : σ} {es : List ε}
    (h : ∀ e ∈ es, ∀ s, A s e) : AlongSteps next A s es := by
  induction es generalizing s with
  | nil => trivial
  | cons e es ih =>
      exact ⟨h e List.mem_cons_self s,
        fun s' _ => ih fun e' he' => h e' (List.mem_cons_of_mem e he')⟩

/-- Whether a run of partial steps is admitted can be computed. -/
def AlongSteps.decidable {f : σ → ε → Option σ} {A : σ → ε → Prop} [∀ s e, Decidable (A s e)] :
    ∀ (s : σ) (es : List ε), Decidable (AlongSteps (fun s e s' => f s e = some s') A s es)
  | _, [] => isTrue trivial
  | s, e :: es =>
      match hf : f s e with
      | none => decidable_of_iff (A s e)
          ⟨fun h => ⟨h, fun s' hs' => absurd (hf.symm.trans hs') (Option.some_ne_none s').symm⟩,
            fun h => h.1⟩
      | some s' =>
          haveI := AlongSteps.decidable (f := f) (A := A) s' es
          decidable_of_iff (A s e ∧ AlongSteps (fun s e s' => f s e = some s') A s' es)
            ⟨fun h => ⟨h.1, fun _ ht => Option.some.inj (hf.symm.trans ht) ▸ h.2⟩,
              fun h => ⟨h.1, h.2 s' hf⟩⟩

instance {f : σ → ε → Option σ} {A : σ → ε → Prop} [∀ s e, Decidable (A s e)] (s : σ)
    (es : List ε) : Decidable (AlongSteps (fun s e s' => f s e = some s') A s es) :=
  AlongSteps.decidable s es

/-- What every admitted step keeps is kept to the end of an admitted run. -/
theorem AlongSteps.invariant {f : σ → ε → Option σ} {A : σ → ε → Prop} {I : σ → Prop}
    {R : σ → σ → Prop} (hrefl : ∀ s, R s s) (htrans : ∀ s t u, R s t → R t u → R s u)
    (hstep : ∀ s e s', I s → A s e → f s e = some s' → I s' ∧ R s s') {s t : σ} {es : List ε}
    (h : AlongSteps (fun s e s' => f s e = some s') A s es) (hs : I s)
    (ht : es.foldlM f s = some t) : I t ∧ R s t := by
  induction es generalizing s with
  | nil =>
      obtain rfl := Option.some.inj ht
      exact ⟨hs, hrefl s⟩
  | cons e es ih =>
      rw [List.foldlM_cons, Option.bind_eq_bind, Option.bind_eq_some_iff] at ht
      obtain ⟨s₁, hs₁, ht⟩ := ht
      obtain ⟨hI, hR⟩ := hstep s e s₁ hs h.1 hs₁
      obtain ⟨hI', hR'⟩ := ih (h.2 s₁ hs₁) hI ht
      exact ⟨hI', htrans s s₁ t hR hR'⟩

/-- **The separation rule** for machines that may get stuck: where every admitted step does to one
part what a machine of its own does on its own events, the part ends where that machine does. -/
theorem AlongSteps.project {τ δ : Type*} {f : σ → ε → Option σ} {A : σ → ε → Prop} {I : σ → Prop}
    (part : σ → τ) {own : ε → Option δ} {g : τ → δ → Option τ}
    (hstep : ∀ s e, I s → A s e → ∃ s', f s e = some s' ∧ I s' ∧
      (own e).elim (some (part s)) (g (part s)) = some (part s')) {s : σ} {es : List ε}
    (h : AlongSteps (fun s e s' => f s e = some s') A s es) (hs : I s) :
    ∃ s', es.foldlM f s = some s' ∧ I s' ∧
      (es.filterMap own).foldlM g (part s) = some (part s') := by
  induction es generalizing s with
  | nil => exact ⟨s, rfl, hs, rfl⟩
  | cons e es ih =>
      obtain ⟨s₁, hs₁, hI, hpart⟩ := hstep s e hs h.1
      obtain ⟨s', hs', hI', hparts⟩ := ih (h.2 s₁ hs₁) hI
      refine ⟨s', ?_, hI', ?_⟩
      · rw [List.foldlM_cons, hs₁, Option.bind_eq_bind, Option.bind_some, hs']
      · cases hown : own e with
        | none =>
            rw [hown] at hpart
            rw [List.filterMap_cons_none hown, Option.some.inj hpart, hparts]
        | some d =>
            rw [hown] at hpart
            rw [List.filterMap_cons_some hown, List.foldlM_cons, Option.bind_eq_bind,
              show g (part s) d = some (part s₁) from hpart, Option.bind_some, hparts]

/-- A machine that may get stuck runs exactly along the steps it can take. -/
theorem foldlM_isSome_iff {f : σ → ε → Option σ} {A : σ → ε → Prop} {I : σ → Prop}
    (hA : ∀ s e, I s → ((f s e).isSome ↔ A s e)) (hI : ∀ s e s', I s → f s e = some s' → I s')
    {s : σ} (hs : I s) (es : List ε) :
    (es.foldlM f s).isSome ↔ AlongSteps (fun s e s' => f s e = some s') A s es := by
  induction es generalizing s with
  | nil => simp [AlongSteps]
  | cons e es ih =>
      rw [List.foldlM_cons, Option.bind_eq_bind, AlongSteps, ← hA s e hs]
      cases hf : f s e with
      | none => simp
      | some s' => simpa using ih (hI s e s' hs hf)

/-- **Properties along a run** of partial steps: where events of a kind keep an invariant when they
are admitted, and end in a property only then, the property holds in every state on the way
exactly along the admitted runs. -/
theorem forall_reached_iff_alongSteps {f : σ → ε → Option σ} {A : σ → ε → Prop} {I P : σ → Prop}
    {B : ε → Prop} (hP : ∀ s, I s → P s)
    (hI : ∀ s e s', I s → B e → A s e → f s e = some s' → I s')
    (hA : ∀ s e, I s → (∀ s', f s e = some s' → P s') → A s e) {s : σ} (hs : I s) {es : List ε}
    (hB : ∀ e ∈ es, B e) :
    (∀ pre, pre <+: es → ∀ t, pre.foldlM f s = some t → P t) ↔
      AlongSteps (fun s e s' => f s e = some s') A s es := by
  induction es generalizing s with
  | nil =>
      refine iff_of_true (fun pre hpre t ht => ?_) trivial
      obtain rfl := List.prefix_nil.mp hpre
      obtain rfl := Option.some.inj ht
      exact hP s hs
  | cons e es ih =>
      obtain ⟨hBe, hBes⟩ := List.forall_mem_cons.mp hB
      constructor
      · intro hall
        have he : A s e := hA s e hs fun s' hs' => by
          refine hall [e] ⟨es, rfl⟩ s' ?_
          rw [List.foldlM_cons, hs', Option.bind_eq_bind, Option.bind_some]
          rfl
        refine ⟨he, fun s' hs' => (ih (hI s e s' hs hBe he hs') hBes).mp fun pre hpre t ht => ?_⟩
        refine hall (e :: pre) ((List.prefix_cons_inj e).mpr hpre) t ?_
        rw [List.foldlM_cons, hs', Option.bind_eq_bind, Option.bind_some, ht]
      · rintro ⟨he, hes⟩ pre hpre t ht
        cases pre with
        | nil =>
            obtain rfl := Option.some.inj ht
            exact hP s hs
        | cons e' pre =>
            obtain ⟨rfl, hpre'⟩ := List.cons_prefix_cons.mp hpre
            rw [List.foldlM_cons, Option.bind_eq_bind, Option.bind_eq_some_iff] at ht
            obtain ⟨s', hs', ht⟩ := ht
            exact (ih (hI s e' s' hs hBe he hs') hBes).mpr (hes s' hs') pre hpre' t ht

/-- **A loop over a list** of events: what it knows of those it has seen, it knows of all of them in
the end. -/
theorem foldlM_seen {f : σ → ε → Option σ} {I : List ε → σ → Prop} {s : σ} {es : List ε}
    (hstep : ∀ (seen : List ε) (e : ε) (s : σ), e ∈ es → I seen s →
      ∃ s', f s e = some s' ∧ I (seen ++ [e]) s') (hs : I [] s) :
    ∃ t, es.foldlM f s = some t ∧ I es t := by
  have hrun : ∀ (rest seen : List ε) (s : σ), (∀ e ∈ rest, e ∈ es) → I seen s →
      ∃ t, rest.foldlM f s = some t ∧ I (seen ++ rest) t := by
    intro rest
    induction rest with
    | nil => exact fun seen s _ hs => ⟨s, rfl, by rwa [List.append_nil]⟩
    | cons e rest ih =>
        intro seen s hrest hs
        obtain ⟨he, hrest⟩ := List.forall_mem_cons.mp hrest
        obtain ⟨s', hs', hI⟩ := hstep seen e s he hs
        obtain ⟨t, ht, hseen⟩ := ih (seen ++ [e]) s' hrest hI
        refine ⟨t, ?_, ?_⟩
        · rw [List.foldlM_cons, hs', Option.bind_eq_bind, Option.bind_some, ht]
        · rwa [List.append_assoc, List.singleton_append] at hseen
  exact hrun es [] s (fun _ h => h) hs

/-- It gets stuck where an event does that no state can take. -/
theorem foldlM_eq_none {f : σ → ε → Option σ} {es : List ε} {e : ε} (he : e ∈ es)
    (hstuck : ∀ s, f s e = none) (s : σ) : es.foldlM f s = none := by
  induction es generalizing s with
  | nil => simp at he
  | cons e' es ih =>
      rw [List.foldlM_cons, Option.bind_eq_bind]
      rcases List.mem_cons.mp he with rfl | he
      · rw [hstuck, Option.bind_none]
      · cases f s e' with
        | none => rfl
        | some s' => exact ih he s'

/-- What is kept on the way is kept to the end. -/
theorem foldlM_invariant {f : σ → ε → Option σ} {R : σ → σ → Prop}
    (hrefl : ∀ s, R s s) (htrans : ∀ s t u, R s t → R t u → R s u) {I : σ → Prop}
    (hI : ∀ s e s', I s → f s e = some s' → I s' ∧ R s s') {s t : σ} (hs : I s) {es : List ε}
    (h : es.foldlM f s = some t) : I t ∧ R s t := by
  induction es generalizing s with
  | nil =>
      obtain rfl := Option.some.inj h
      exact ⟨hs, hrefl s⟩
  | cons e es ih =>
      rw [List.foldlM_cons, Option.bind_eq_bind, Option.bind_eq_some_iff] at h
      obtain ⟨u, hu, h⟩ := h
      obtain ⟨hIu, hRu⟩ := hI s e u hs hu
      obtain ⟨hIt, hRt⟩ := ih hIu h
      exact ⟨hIt, htrans _ _ _ hRu hRt⟩

/-- What the steps of a run are charged, up to one that has no end. -/
def charged (f : σ → ε → Option σ) (charge : σ → ε → ℕ) : σ → List ε → ℕ
  | _, [] => 0
  | s, e :: es => charge s e + (f s e).elim 0 fun s' => charged f charge s' es

/-- A run is charged for both of its halves. -/
theorem charged_append {f : σ → ε → Option σ} (charge : σ → ε → ℕ) {s t : σ} {es : List ε}
    (ht : es.foldlM f s = some t) (fs : List ε) :
    charged f charge s (es ++ fs) = charged f charge s es + charged f charge t fs := by
  induction es generalizing s with
  | nil =>
      obtain rfl := Option.some.inj ht
      exact (Nat.zero_add _).symm
  | cons e es ih =>
      rw [List.foldlM_cons, Option.bind_eq_bind, Option.bind_eq_some_iff] at ht
      obtain ⟨s₁, hs₁, ht⟩ := ht
      rw [List.cons_append, charged, charged, hs₁, Option.elim_some, Option.elim_some, ih ht,
        Nat.add_assoc]

/-- A charge in other units. -/
theorem charged_mul (f : σ → ε → Option σ) (c : ℕ) (charge : σ → ε → ℕ) (s : σ) (es : List ε) :
    charged f (fun s e => c * charge s e) s es = c * charged f charge s es := by
  induction es generalizing s with
  | nil => rfl
  | cons e es ih =>
      rw [charged, charged, Nat.mul_add]
      cases f s e with
      | none => rfl
      | some s' => rw [Option.elim_some, Option.elim_some, ih]

/-- **The potential rule**: where what a step is charged is paid by a grant or by the potential of
the state, what a run is charged is at most all grants and the potential it begins with. -/
theorem charged_le {f : σ → ε → Option σ} {I : σ → Prop} {A : ε → Prop} {charge grant : σ → ε → ℕ}
    {Φ : σ → ℕ}
    (hstep : ∀ s e s', I s → A e → f s e = some s' →
      I s' ∧ charge s e + Φ s' ≤ grant s e + Φ s)
    {s t : σ} {es : List ε} (hA : ∀ e ∈ es, A e) (hs : I s) (ht : es.foldlM f s = some t) :
    I t ∧ charged f charge s es + Φ t ≤ charged f grant s es + Φ s := by
  induction es generalizing s with
  | nil =>
      obtain rfl := Option.some.inj ht
      exact ⟨hs, Nat.le_refl _⟩
  | cons e es ih =>
      rw [List.foldlM_cons, Option.bind_eq_bind, Option.bind_eq_some_iff] at ht
      obtain ⟨s₁, hs₁, ht⟩ := ht
      obtain ⟨hI, hpay⟩ := hstep s e s₁ hs (hA e List.mem_cons_self) hs₁
      obtain ⟨hIt, hrest⟩ := ih (fun e' he' => hA e' (List.mem_cons_of_mem e he')) hI ht
      refine ⟨hIt, ?_⟩
      rw [charged, charged, hs₁, Option.elim_some, Option.elim_some]
      omega

end Steps

/-! ### Machines with outputs -/

section Outputs

variable {σ ε ο : Type*} (step : σ → ε → σ × ο)

/-- Run a machine with outputs: the final state and the output of every step. -/
def runOut : σ → List ε → σ × List ο
  | s, [] => (s, [])
  | s, e :: es =>
      let r := step s e
      let rest := runOut r.1 es
      (rest.1, r.2 :: rest.2)

@[simp] theorem runOut_nil (s : σ) : runOut step s [] = (s, []) := rfl

@[simp] theorem runOut_cons (s : σ) (e : ε) (es : List ε) :
    runOut step s (e :: es)
      = ((runOut step (step s e).1 es).1, (step s e).2 :: (runOut step (step s e).1 es).2) :=
  rfl

theorem runOut_append (s : σ) (es fs : List ε) :
    runOut step s (es ++ fs)
      = ((runOut step (runOut step s es).1 fs).1,
          (runOut step s es).2 ++ (runOut step (runOut step s es).1 fs).2) := by
  induction es generalizing s with
  | nil => rfl
  | cons e es ih => simp only [List.cons_append, runOut_cons, ih]

/-- **The simulation rule.** Machines whose related states answer every event alike, and
step to related states, answer every run alike. -/
theorem runOut_simulation {τ : Type*} {stepσ : σ → ε → σ × ο} {stepτ : τ → ε → τ × ο}
    {R : σ → τ → Prop}
    (h : ∀ s t e, R s t → (stepσ s e).2 = (stepτ t e).2 ∧ R (stepσ s e).1 (stepτ t e).1)
    {s : σ} {t : τ} (hR : R s t) (es : List ε) :
    (runOut stepσ s es).2 = (runOut stepτ t es).2 ∧
      R (runOut stepσ s es).1 (runOut stepτ t es).1 := by
  induction es generalizing s t with
  | nil => exact ⟨rfl, hR⟩
  | cons e es ih =>
      obtain ⟨hout, hnext⟩ := h s t e hR
      obtain ⟨houts, hend⟩ := ih hnext
      exact ⟨congrArg₂ List.cons hout houts, hend⟩

theorem length_runOut (s : σ) (es : List ε) : (runOut step s es).2.length = es.length := by
  induction es generalizing s with
  | nil => rfl
  | cons e es ih => simp only [runOut_cons, List.length_cons, ih]

end Outputs

/-! ### Separation of interleaved components -/

section Separation

variable {κ σ τ ε ο : Type*} [DecidableEq κ]

/-- The events of component `k` in a tagged list, in their order. -/
def project (k : κ) (l : List (κ × ε)) : List ε :=
  (l.filter fun p => p.1 = k).map Prod.snd

theorem project_cons_self (k : κ) (e : ε) (l : List (κ × ε)) :
    project k ((k, e) :: l) = e :: project k l := by
  simp [project]

theorem project_cons_ne {k j : κ} (h : j ≠ k) (e : ε) (l : List (κ × ε)) :
    project k ((j, e) :: l) = project k l := by
  simp [project, h]

/-- Run a partial local machine: `none` as soon as it is given an event it does not
admit. -/
def runLocal (step : τ → ε → Option (τ × ο)) : τ → List ε → Option (τ × List ο)
  | t, [] => some (t, [])
  | t, e :: es => do
      let r ← step t e
      let rest ← runLocal step r.1 es
      pure (rest.1, r.2 :: rest.2)

/-- A local run over a nonempty list steps first. -/
theorem runLocal_cons_eq_some {step : τ → ε → Option (τ × ο)} {t t' : τ} {e : ε}
    {es : List ε} {os : List ο} :
    runLocal step t (e :: es) = some (t', os) ↔
      ∃ t₁ o os', step t e = some (t₁, o) ∧ runLocal step t₁ es = some (t', os') ∧
        os = o :: os' := by
  simp only [runLocal, bind, Option.bind_eq_some_iff, Option.pure_def, Option.some.injEq,
    Prod.mk.injEq, Prod.exists]
  constructor
  · rintro ⟨t₁, o, hstep, t₂, os', hrun, rfl, rfl⟩
    exact ⟨t₁, o, os', hstep, hrun, rfl⟩
  · rintro ⟨t₁, o, os', hstep, hrun, rfl⟩
    exact ⟨t₁, o, hstep, t', os', hrun, rfl, rfl⟩

/-- Local runs compose. -/
theorem runLocal_append {step : τ → ε → Option (τ × ο)} {t t₁ t₂ : τ} {es fs : List ε}
    {os ps : List ο} (h₁ : runLocal step t es = some (t₁, os))
    (h₂ : runLocal step t₁ fs = some (t₂, ps)) :
    runLocal step t (es ++ fs) = some (t₂, os ++ ps) := by
  induction es generalizing t os with
  | nil =>
      simp only [runLocal, Option.some.injEq, Prod.mk.injEq] at h₁
      obtain ⟨rfl, rfl⟩ := h₁
      exact h₂
  | cons e es ih =>
      obtain ⟨u, o, os', hstep, hrun, rfl⟩ := runLocal_cons_eq_some.mp h₁
      exact runLocal_cons_eq_some.mpr ⟨u, o, os' ++ ps, hstep, ih hrun, rfl⟩

/-- A joint step refines a step of one local component: whenever the local machine of `k`
admits an event, the joint machine gives the same output and moves only component `k`. -/
def Separates (joint : σ → ε → σ × ο) (loc : κ → τ → ε → Option (τ × ο))
    (R : σ → (κ → τ) → Prop) : Prop :=
  ∀ s γ k e t o, R s γ → loc k (γ k) e = some (t, o) →
    (joint s e).2 = o ∧ R (joint s e).1 (Function.update γ k t)

/-- **The separation rule.** In every interleaving of the components' events, the joint
outputs at the events of component `k` are the outputs of the local machine of `k` run on
those events alone. -/
theorem runOut_project {joint : σ → ε → σ × ο} {loc : κ → τ → ε → Option (τ × ο)}
    {R : σ → (κ → τ) → Prop} (hsep : Separates joint loc R) :
    ∀ (l : List (κ × ε)) {s : σ} {γ γ' : κ → τ} {out : κ → List ο}, R s γ →
      (∀ k, runLocal (loc k) (γ k) (project k l) = some (γ' k, out k)) →
      R (runOut joint s (l.map Prod.snd)).1 γ' ∧
        ∀ k, project k ((l.map Prod.fst).zip (runOut joint s (l.map Prod.snd)).2) = out k := by
  intro l
  induction l with
  | nil =>
      intro s γ γ' out hR hloc
      have hγ : γ = γ' := by
        funext k
        have := hloc k
        simp only [project, List.filter_nil, List.map_nil, runLocal, Option.some.injEq,
          Prod.mk.injEq] at this
        exact this.1
      refine ⟨hγ ▸ hR, fun k => ?_⟩
      have := hloc k
      simp only [project, List.filter_nil, List.map_nil, runLocal, Option.some.injEq,
        Prod.mk.injEq] at this
      simpa [project] using this.2
  | cons p l ih =>
      obtain ⟨k, e⟩ := p
      intro s γ γ' out hR hloc
      have hk := hloc k
      rw [project_cons_self] at hk
      obtain ⟨t, o, os, hstep, hrun, hout⟩ := runLocal_cons_eq_some.mp hk
      obtain ⟨ho, hR'⟩ := hsep s γ k e t o hR hstep
      -- the rest of the run: component `k` has consumed `e`, the others nothing
      have hloc' : ∀ j, runLocal (loc j) (Function.update γ k t j) (project j l)
          = some (γ' j, Function.update out k os j) := by
        intro j
        by_cases hj : j = k
        · subst hj
          simpa using hrun
        · have := hloc j
          rw [project_cons_ne (Ne.symm hj)] at this
          simpa [Function.update_of_ne hj] using this
      obtain ⟨hend, hproj⟩ := ih hR' hloc'
      refine ⟨hend, fun j => ?_⟩
      simp only [List.map_cons, runOut_cons, List.zip_cons_cons]
      by_cases hj : j = k
      · subst hj
        rw [project_cons_self, hproj, ho, Function.update_self, hout]
      · rw [project_cons_ne (Ne.symm hj), hproj, Function.update_of_ne hj]

end Separation

end Lib
