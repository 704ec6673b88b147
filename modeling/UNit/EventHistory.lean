import Mathlib.Data.List.Basic

/-!
Histories kept newest first. A history is justified when each of its entries
is allowed by the entries that came before it; this is how a condition on the
order of events is stated without an index into the run.
-/
namespace EventHistory
variable {E : Type}

def Justified (allowed : List E → E → Prop) : List E → Prop
  | [] => True
  | e :: past => allowed past e ∧ Justified allowed past

def decideJustified (allowed : List E → E → Prop) [∀ past e, Decidable (allowed past e)] :
    (history : List E) → Decidable (Justified allowed history)
  | [] => .isTrue trivial
  | e :: past =>
    have := decideJustified allowed past
    inferInstanceAs (Decidable (allowed past e ∧ Justified allowed past))

instance (allowed : List E → E → Prop) [∀ past e, Decidable (allowed past e)]
    (history : List E) : Decidable (Justified allowed history) :=
  decideJustified allowed history

theorem justified_suffix {allowed : List E → E → Prop} {later past : List E}
    (whole : Justified allowed (later ++ past)) : Justified allowed past := by
  induction later with
  | nil => exact whole
  | cons _ _ ih => exact ih whole.2

theorem justified_iff {allowed : List E → E → Prop} {history : List E} :
    Justified allowed history ↔
      ∀ later e past, history = later ++ e :: past → allowed past e := by
  induction history with
  | nil => simp [Justified]
  | cons head tail ih =>
    constructor
    · rintro ⟨first, rest⟩ later e past eq
      cases later with
      | nil =>
        obtain ⟨rfl, rfl⟩ := List.cons.inj eq
        exact first
      | cons _ later => exact ih.mp rest later e past (List.cons.inj eq).2
    · intro all
      refine ⟨all [] head tail rfl, ih.mpr ?_⟩
      intro later e past eq
      exact all (head :: later) e past (by rw [eq]; rfl)

end EventHistory
