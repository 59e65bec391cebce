import Mathlib.Data.List.Basic

/-!
# Texts Read as Tokens

A lexer turns a text into tokens. Some texts are read as their tokens whatever follows; others,
such as words and numbers, only in front of a text that does not go on with them.
-/

namespace Lib

variable {α τ ι : Type*}

/-- A text that is read as some tokens, whatever follows. -/
def Lexes (lex : List α → List τ) (text : List α) (tokens : List τ) : Prop :=
  ∀ rest, lex (text ++ rest) = tokens ++ lex rest

/-- A text that is read as some tokens in front of certain others. -/
def LexesBefore (lex : List α → List τ) (apart : List α → Prop) (text : List α)
    (tokens : List τ) : Prop :=
  ∀ rest, apart rest → lex (text ++ rest) = tokens ++ lex rest

variable {lex : List α → List τ} {apart : List α → Prop} {a b : List α} {x y : List τ}

theorem Lexes.nil : Lexes lex [] [] := fun _ => rfl

theorem Lexes.append (ha : Lexes lex a x) (hb : Lexes lex b y) : Lexes lex (a ++ b) (x ++ y) := by
  intro rest
  rw [List.append_assoc, ha, hb, List.append_assoc]

theorem LexesBefore.append (ha : LexesBefore lex apart a x) (hb : Lexes lex b y)
    (hapart : ∀ rest, apart (b ++ rest)) : Lexes lex (a ++ b) (x ++ y) := by
  intro rest
  rw [List.append_assoc, ha _ (hapart rest), hb, List.append_assoc]

theorem Lexes.flatMap {l : List ι} {f : ι → List α} {g : ι → List τ}
    (h : ∀ i ∈ l, Lexes lex (f i) (g i)) : Lexes lex (l.flatMap f) (l.flatMap g) := by
  induction l with
  | nil => exact .nil
  | cons i l ih =>
      rw [List.flatMap_cons, List.flatMap_cons]
      exact (h i List.mem_cons_self).append (ih fun j hj => h j (List.mem_cons_of_mem i hj))

end Lib
