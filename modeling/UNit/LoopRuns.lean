import Mathlib.Data.List.Basic

/-!
Loops that are left from inside. The body of such a loop is a function that
goes on with a new state or leaves with a result. A loop ends if some number of
iterations leaves it; a body that makes a measure smaller each time it goes on
defines a total function.
-/
namespace LoopRuns
variable {S R : Type}

/-- At most so many iterations; none if the loop is not left by then. -/
def iterate (body : S → S ⊕ R) : Nat → S → Option R
  | 0, _ => none
  | fuel + 1, s =>
    match body s with
    | .inl next => iterate body fuel next
    | .inr result => some result

def Ends (body : S → S ⊕ R) (s : S) (result : R) : Prop :=
  ∃ fuel, iterate body fuel s = some result

variable {body : S → S ⊕ R}

theorem ends_done {s : S} {result : R} (left : body s = .inr result) :
    Ends body s result :=
  ⟨1, by simp [iterate, left]⟩

theorem ends_next_iff {s next : S} (goesOn : body s = .inl next) (result : R) :
    Ends body s result ↔ Ends body next result := by
  constructor
  · rintro ⟨fuel, done⟩
    cases fuel with
    | zero => simp [iterate] at done
    | succ fuel => exact ⟨fuel, by simpa [iterate, goesOn] using done⟩
  · rintro ⟨fuel, done⟩
    exact ⟨fuel + 1, by simpa [iterate, goesOn] using done⟩

theorem ends_done_iff {s : S} {result : R} (left : body s = .inr result) (other : R) :
    Ends body s other ↔ other = result := by
  constructor
  · rintro ⟨fuel, done⟩
    cases fuel with
    | zero => simp [iterate] at done
    | succ fuel =>
      simp only [iterate, left, Option.some.injEq] at done
      exact done.symm
  · rintro rfl
    exact ends_done left

theorem ends_unique {s : S} {first second : R} (one : Ends body s first)
    (two : Ends body s second) : first = second := by
  obtain ⟨fuel, done⟩ := one
  induction fuel generalizing s with
  | zero => simp [iterate] at done
  | succ fuel ih =>
    simp only [iterate] at done
    split at done
    · rename_i next goesOn
      exact ih ((ends_next_iff goesOn second).mp two) done
    · rename_i result left
      rw [(ends_done_iff left second).mp two]
      exact (Option.some.inj done).symm

theorem ends_rule (inv : S → Prop) (post : R → Prop)
    (stays : ∀ s next, inv s → body s = .inl next → inv next)
    (leaves : ∀ s result, inv s → body s = .inr result → post result)
    {s : S} {result : R} (holds : inv s) (done : Ends body s result) : post result := by
  obtain ⟨fuel, done⟩ := done
  induction fuel generalizing s with
  | zero => simp [iterate] at done
  | succ fuel ih =>
    simp only [iterate] at done
    split at done
    · rename_i next goesOn
      exact ih (stays s next holds goesOn) done
    · rename_i left leaving
      obtain rfl := Option.some.inj done
      exact leaves s left holds leaving

theorem never_ends (inv : S → Prop) (stays : ∀ s, inv s → ∃ next, body s = .inl next ∧ inv next)
    {s : S} (holds : inv s) (result : R) : ¬ Ends body s result := by
  rintro ⟨fuel, done⟩
  induction fuel generalizing s with
  | zero => simp [iterate] at done
  | succ fuel ih =>
    obtain ⟨next, goesOn, later⟩ := stays s holds
    exact ih later (by simpa [iterate, goesOn] using done)

/-- A loop whose iterations keep an invariant and make its measure smaller is
    left within so many iterations and one more, with a result that the
    invariant decides. -/
theorem iterate_measured (inv : Nat → S → Prop) (post : R → Prop)
    (iteration : ∀ n s, inv n s → (∃ k next, body s = .inl next ∧ k < n ∧ inv k next) ∨
      ∃ result, body s = .inr result ∧ post result)
    {n fuel : Nat} {s : S} (holds : inv n s) (enough : n < fuel) :
    ∃ result, iterate body fuel s = some result ∧ post result := by
  induction fuel generalizing n s with
  | zero => omega
  | succ fuel ih =>
    rcases iteration n s holds with ⟨k, next, goesOn, less, later⟩ | ⟨result, left, decided⟩
    · obtain ⟨result, done, decided⟩ := ih later (by omega)
      exact ⟨result, by simpa [iterate, goesOn] using done, decided⟩
    · exact ⟨result, by simp [iterate, left], decided⟩

theorem ends_measured (inv : Nat → S → Prop) (post : R → Prop)
    (iteration : ∀ n s, inv n s → (∃ k next, body s = .inl next ∧ k < n ∧ inv k next) ∨
      ∃ result, body s = .inr result ∧ post result)
    {n : Nat} {s : S} (holds : inv n s) : ∃ result, Ends body s result ∧ post result := by
  obtain ⟨result, done, decided⟩ := iterate_measured inv post iteration holds (Nat.lt_succ_self n)
  exact ⟨result, ⟨n + 1, done⟩, decided⟩

/-- A body that may fault; a fault leaves the loop with none. -/
def faulting {T Q : Type} (step : T → Option (T ⊕ Q)) (t : T) : T ⊕ Option Q :=
  match step t with
  | none => .inr none
  | some (.inl next) => .inl next
  | some (.inr result) => .inr (some result)

/-- A loop whose iterations follow those of another one does not fault, and ends
    where the other one ends. -/
theorem ends_refined {T Q : Type} {step : T → Option (T ⊕ Q)} (rel : S → T → Prop)
    (out : R → Q → Prop)
    (lockstep : ∀ s t, rel s t →
      (∃ next next', body s = .inl next ∧ step t = some (.inl next') ∧ rel next next') ∨
      ∃ result result', body s = .inr result ∧ step t = some (.inr result') ∧ out result result')
    {s : S} {t : T} (related : rel s t) :
    ¬ Ends (faulting step) t none ∧
      ∀ result, Ends body s result →
        ∃ result', Ends (faulting step) t (some result') ∧ out result result' := by
  constructor
  · rintro ⟨fuel, faults⟩
    induction fuel generalizing s t with
    | zero => simp [iterate] at faults
    | succ fuel ih =>
      rcases lockstep s t related with ⟨next, next', _, two, later⟩ | ⟨_, _, _, two, _⟩
      · exact ih later (by simpa [iterate, faulting, two] using faults)
      · simp [iterate, faulting, two] at faults
  · rintro result ⟨fuel, done⟩
    induction fuel generalizing s t with
    | zero => simp [iterate] at done
    | succ fuel ih =>
      rcases lockstep s t related with ⟨next, next', one, two, later⟩ |
        ⟨left, left', one, two, ended⟩
      · obtain ⟨result', ends, agreed⟩ := ih later (by simpa [iterate, one] using done)
        have goesOn : faulting step t = .inl next' := by simp [faulting, two]
        exact ⟨result', (ends_next_iff goesOn _).mpr ends, agreed⟩
      · obtain rfl : left = result := by simpa [iterate, one] using done
        exact ⟨left', ends_done (by simp [faulting, two]), ended⟩

variable {size : S → Nat}

theorem iterate_bounded (shrinks : ∀ s next, body s = .inl next → size next < size s) (s : S)
    {fuel : Nat} (enough : size s < fuel) : (iterate body fuel s).isSome = true := by
  induction fuel generalizing s with
  | zero => omega
  | succ fuel ih =>
    simp only [iterate]
    split
    · rename_i next goesOn
      have less := shrinks s next goesOn
      exact ih next (by omega)
    · rfl

def outcome (body : S → S ⊕ R) (size : S → Nat)
    (shrinks : ∀ s next, body s = .inl next → size next < size s) (s : S) : R :=
  (iterate body (size s + 1) s).get (iterate_bounded shrinks s (Nat.lt_succ_self (size s)))

variable {shrinks : ∀ s next, body s = .inl next → size next < size s}

theorem outcome_ends (s : S) : Ends body s (outcome body size shrinks s) :=
  ⟨size s + 1, (Option.some_get _).symm⟩

theorem outcome_next {s next : S} (goesOn : body s = .inl next) :
    outcome body size shrinks s = outcome body size shrinks next :=
  ends_unique (outcome_ends s) ((ends_next_iff goesOn _).mpr (outcome_ends next))

theorem outcome_done {s : S} {result : R} (left : body s = .inr result) :
    outcome body size shrinks s = result :=
  ends_unique (outcome_ends s) (ends_done left)

end LoopRuns
