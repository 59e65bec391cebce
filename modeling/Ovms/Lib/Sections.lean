import Mathlib.Data.List.Basic

/-!
# Tokens Read in Sections

A reader takes its tokens section by section, and where a section ends depends on what follows. The
sections here are such that each ends where another starts. A piece of the tokens then leads from
one state of the reader to another, whatever sections follow it.
-/

namespace Lib

variable {σ τ ι δ : Type*}

/-- The start of a section, or the end. -/
def Starts (opens : τ → Prop) (rest : List τ) : Prop := ∀ t ∈ rest.head?, opens t

/-- A piece that leads from one state to another, whatever sections follow. -/
def Runs (run : σ → List τ → Option σ) (opens : τ → Prop) (s : σ) (toks : List τ) (s' : σ) : Prop :=
  Starts opens toks ∧ ∀ rest, Starts opens rest → run s (toks ++ rest) = run s' rest

/-- A piece that is read from every state of a kind, and leads to one of another kind. -/
def Reads (run : σ → List τ → Option σ) (opens : τ → Prop) (P : σ → Prop) (toks : List τ)
    (Q : σ → Prop) : Prop :=
  ∀ s, P s → ∃ s', Runs run opens s toks s' ∧ Q s'

/-- A piece that is not read, unless it is empty. -/
def Refused (run : σ → List τ → Option σ) (opens : τ → Prop) (toks : List τ) : Prop :=
  Starts opens toks ∧ (toks ≠ [] → ∀ s rest, Starts opens rest → run s (toks ++ rest) = none)

variable {run : σ → List τ → Option σ} {opens : τ → Prop} {a b : List τ} {s s' s'' : σ}
  {P Q R : σ → Prop}

/-! ### Starts -/

theorem starts_nil : Starts opens [] := fun _ ht => nomatch ht

theorem Starts.append (ha : Starts opens a) (hb : Starts opens b) : Starts opens (a ++ b) := by
  cases a with
  | nil => exact hb
  | cons t a => exact ha

/-! ### Runs -/

theorem Runs.nil : Runs run opens s [] s := ⟨starts_nil, fun _ _ => rfl⟩

theorem Runs.append (h : Runs run opens s a s') (h' : Runs run opens s' b s'') :
    Runs run opens s (a ++ b) s'' := by
  refine ⟨h.1.append h'.1, fun rest hrest => ?_⟩
  rw [List.append_assoc, h.2 _ (h'.1.append hrest), h'.2 rest hrest]

/-! ### Triples -/

namespace Reads

theorem nil : Reads run opens P [] P := fun s hs => ⟨s, .nil, hs⟩

/-- **One piece after the other.** -/
theorem append (h : Reads run opens P a Q) (h' : Reads run opens Q b R) :
    Reads run opens P (a ++ b) R := by
  intro s hs
  obtain ⟨s', hruns, hs'⟩ := h s hs
  obtain ⟨s'', hruns', hs''⟩ := h' s' hs'
  exact ⟨s'', hruns.append hruns', hs''⟩

/-- **The pieces of the members of a list**, and what each does to what the states stand for. -/
theorem flatMap {l : List ι} {f : ι → List τ} {holds : δ → σ → Prop} {step : δ → ι → δ}
    (inv : δ → Prop) (hinv : ∀ d, ∀ i ∈ l, inv d → inv (step d i))
    (h : ∀ d, ∀ i ∈ l, inv d → Reads run opens (holds d) (f i) (holds (step d i)))
    {d : δ} (hd : inv d) : Reads run opens (holds d) (l.flatMap f) (holds (l.foldl step d)) := by
  induction l generalizing d with
  | nil => exact nil
  | cons i l ih =>
      rw [List.flatMap_cons, List.foldl_cons]
      refine (h d i List.mem_cons_self hd).append (ih ?_ ?_ (hinv d i List.mem_cons_self hd))
      · exact fun d j hj => hinv d j (List.mem_cons_of_mem i hj)
      · exact fun d j hj => h d j (List.mem_cons_of_mem i hj)

end Reads

/-! ### Pieces that are not read -/

namespace Refused

theorem nil : Refused run opens [] := ⟨starts_nil, fun h => absurd rfl h⟩

theorem append (ha : Refused run opens a) (hb : Refused run opens b) :
    Refused run opens (a ++ b) := by
  refine ⟨ha.1.append hb.1, fun hne s rest hrest => ?_⟩
  by_cases hnil : a = []
  · rw [hnil, List.nil_append] at hne ⊢
    exact hb.2 hne s rest hrest
  · rw [List.append_assoc]
    exact ha.2 hnil s _ (hb.1.append hrest)

theorem flatMap {l : List ι} {f : ι → List τ} (h : ∀ i ∈ l, Refused run opens (f i)) :
    Refused run opens (l.flatMap f) := by
  induction l with
  | nil => exact nil
  | cons i l ih =>
      obtain ⟨hi, hl⟩ := List.forall_mem_cons.mp h
      exact hi.append (ih hl)

end Refused

end Lib
