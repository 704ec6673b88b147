import Mathlib.Data.List.Basic

/-!
Finite runs of a partial labelled transition function. A run keeps, newest
first, the state each step started from together with the label it took, so a
condition on the steps of a run is a condition on its trace. The rules here
name no particular system: an invariant is checked at the start and over one
step, possibly only for steps that meet a stated condition.
-/
namespace LabelledRuns
variable {S E : Type}

inductive Run (step : S → E → Option S) : S → List (S × E) → S → Prop where
  | start (s : S) : Run step s [] s
  | next {s t u : S} {e : E} {trace : List (S × E)}
      (before : Run step s trace t) (now : step t e = some u) :
      Run step s ((t, e) :: trace) u

def Meets (good : S → E → Prop) (trace : List (S × E)) : Prop :=
  ∀ x ∈ trace, good x.1 x.2

def replay (step : S → E → Option S) : List (S × E) → S → List E → Option (List (S × E) × S)
  | trace, s, [] => some (trace, s)
  | trace, s, e :: rest => (step s e).bind (fun t => replay step ((s, e) :: trace) t rest)

theorem meets_cons {good : S → E → Prop} {t : S} {e : E} {trace : List (S × E)} :
    Meets good ((t, e) :: trace) ↔ good t e ∧ Meets good trace := by
  simp [Meets]

theorem meets_always (trace : List (S × E)) : Meets (fun _ _ => True) trace := by
  intro x _
  trivial

/-- A property that holds at the start and survives every step taken under the
    condition holds at the end of every run whose steps all meet it. -/
theorem run_invariant {step : S → E → Option S} {good : S → E → Prop} (inv : S → Prop)
    {s t : S} {trace : List (S × E)} (run : Run step s trace t)
    (meets : Meets good trace) (initial : inv s)
    (preserved : ∀ a e b, inv a → good a e → step a e = some b → inv b) : inv t := by
  induction run with
  | start => exact initial
  | next before now ih =>
    obtain ⟨here, earlier⟩ := meets_cons.mp meets
    exact preserved _ _ _ (ih earlier) here now

theorem run_invariant_before {step : S → E → Option S} {good : S → E → Prop} (inv : S → Prop)
    {s t : S} {trace : List (S × E)} (run : Run step s trace t)
    (meets : Meets good trace) (initial : inv s)
    (preserved : ∀ a e b, inv a → good a e → step a e = some b → inv b) :
    ∀ x ∈ trace, inv x.1 := by
  induction run with
  | start => simp
  | next before now ih =>
    obtain ⟨_, earlier⟩ := meets_cons.mp meets
    intro x member
    rcases List.mem_cons.mp member with rfl | past
    · exact run_invariant inv before earlier initial preserved
    · exact ih earlier x past

theorem run_reaches_step {step : S → E → Option S} {s t : S} {trace : List (S × E)}
    (run : Run step s trace t) {x : S × E} (member : x ∈ trace) :
    ∃ earlier next, Run step s earlier x.1 ∧ step x.1 x.2 = some next := by
  induction run with
  | start => simp at member
  | next before now ih =>
    rcases List.mem_cons.mp member with rfl | earlier
    · exact ⟨_, _, before, now⟩
    · exact ih earlier

theorem run_of_suffix {step : S → E → Option S} {later earlier : List (S × E)} {s t middle : S}
    {e : E} (run : Run step s (later ++ (middle, e) :: earlier) t) : Run step s earlier middle := by
  induction later generalizing t with
  | nil =>
    cases run with
    | next before _ => exact before
  | cons x later ih =>
    cases run with
    | next before _ => exact ih before

theorem run_of_replay {step : S → E → Option S} {events : List E} {s t u : S}
    {trace whole : List (S × E)} (before : Run step s trace t)
    (replayed : replay step trace t events = some (whole, u)) : Run step s whole u := by
  induction events generalizing trace t with
  | nil =>
    simp only [replay, Option.some.injEq, Prod.mk.injEq] at replayed
    obtain ⟨rfl, rfl⟩ := replayed
    exact before
  | cons e rest ih =>
    simp only [replay, Option.bind_eq_some_iff] at replayed
    obtain ⟨middle, now, later⟩ := replayed
    exact ih (Run.next before now) later

end LabelledRuns
