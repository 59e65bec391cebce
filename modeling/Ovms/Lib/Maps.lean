import Mathlib.Data.List.Pairwise
import Std.Data.ExtTreeMap

/-!
# Maps Visited Entry by Entry

A loop over the entries of a map that changes another map, for each entry at its key only.
-/

open Std

namespace Lib

variable {κ α β : Type} [Ord κ] [TransOrd κ] [LawfulEqOrd κ]

/-- A step that changes a map at the key of an entry only, and how. -/
def Local (step : ExtTreeMap κ β → κ × α → ExtTreeMap κ β) (u : κ × α → Option β → Option β) :
    Prop :=
  ∀ map entry k, (step map entry)[k]? = if compare entry.1 k = .eq then u entry map[k]? else map[k]?

variable {step : ExtTreeMap κ β → κ × α → ExtTreeMap κ β} {u : κ × α → Option β → Option β}
  {entries : List (κ × α)} {map : ExtTreeMap κ β} {t : ExtTreeMap κ α} {k : κ} {v : α}

end Lib
