import Mathlib.Data.Set.Insert
import UNit.DescriptorTable

/-!
Variables that hold descriptors. A process keeps each of its descriptors in a
variable and hands some of them to an epoll instance. Closing through a
variable that holds nothing, closing what another variable has opened, opening
into a variable that still holds something, watching twice, forgetting what is
not watched and closing what is still watched are faults. Which operations are
free of faults depends only on the set of variables that hold something and on
the set of those that are watched.
-/
namespace DescriptorOwners
open DescriptorTable
variable {K : Type}

/-- The object behind a descriptor is named by the variable it was opened for.
    The interest list maps a number to the variable its events are for. -/
structure Owners (K : Type) where
  fds : Table K
  vars : K → Option Nat
  interest : Nat → Option K

inductive Op (K : Type) where
  | acquire (k : K)
  | pair (j k : K)
  | drop (k : K)
  | watch (k : K)
  | unwatch (k : K)
  deriving DecidableEq, Repr

section Machine
variable [DecidableEq K]

def acquired (k : K) (o : Owners K) : Owners K :=
  { o with
    fds := (o.fds.opened k true).2
    vars := Function.update o.vars k (some (o.fds.opened k true).1) }

/-- None is a fault. -/
def step (o : Owners K) : Op K → Option (Owners K)
  | .acquire k => if o.vars k = none then some (acquired k o) else none
  | .pair j k =>
    if o.vars j = none ∧ (acquired j o).vars k = none then some (acquired k (acquired j o))
    else none
  | .drop k => do
    let n ← o.vars k
    if (o.fds.get n).map Descriptor.object = some k ∧ o.interest n = none then
      some { o with fds := o.fds.close n, vars := Function.update o.vars k none }
    else none
  | .watch k => do
    let n ← o.vars k
    if o.interest n = none then
      some { o with interest := Function.update o.interest n (some k) }
    else none
  | .unwatch k => do
    let n ← o.vars k
    if o.interest n = some k then
      some { o with interest := Function.update o.interest n none }
    else none

end Machine

@[ext]
structure Keys (K : Type) where
  held : Set K
  watched : Set K

def Keys.Allows (keys : Keys K) : Op K → Prop
  | .acquire k => k ∉ keys.held
  | .pair j k => j ∉ keys.held ∧ k ∉ insert j keys.held
  | .drop k => k ∈ keys.held ∧ k ∉ keys.watched
  | .watch k => k ∈ keys.held ∧ k ∉ keys.watched
  | .unwatch k => k ∈ keys.watched

def Keys.after (keys : Keys K) : Op K → Keys K
  | .acquire k => ⟨insert k keys.held, keys.watched⟩
  | .pair j k => ⟨insert k (insert j keys.held), keys.watched⟩
  | .drop k => ⟨keys.held \ {k}, keys.watched⟩
  | .watch k => ⟨keys.held, insert k keys.watched⟩
  | .unwatch k => ⟨keys.held, keys.watched \ {k}⟩

def Keys.AllowsAll : Keys K → List (Op K) → Prop
  | _, [] => True
  | keys, op :: ops => keys.Allows op ∧ (keys.after op).AllowsAll ops

def Keys.afterAll (keys : Keys K) (ops : List (Op K)) : Keys K := ops.foldl Keys.after keys

def Keys.Reaches (keys : Keys K) (ops : List (Op K)) (last : Keys K) : Prop :=
  keys.AllowsAll ops ∧ keys.afterAll ops = last

def Keys.with (keys : Keys K) (k : K) : Keys K := ⟨insert k keys.held, keys.watched⟩

def Op.Mentions (k : K) : Op K → Prop
  | .acquire j => j = k
  | .pair i j => i = k ∨ j = k
  | .drop j => j = k
  | .watch j => j = k
  | .unwatch j => j = k

/-- Each descriptor is held by one variable, and the interest list has the
    descriptors of the watched variables. -/
structure Owned (o : Owners K) (keys : Keys K) : Prop where
  held : ∀ k, k ∈ keys.held ↔ (o.vars k).isSome
  table : ∀ k n, o.vars k = some n ↔ ∃ cloexec, o.fds.get n = some ⟨k, cloexec⟩
  interest : ∀ k n, o.interest n = some k ↔ k ∈ keys.watched ∧ o.vars k = some n
  watched : ∀ k ∈ keys.watched, k ∈ keys.held

section Steps
variable {o : Owners K} {keys : Keys K} {k : K} {n : Nat}

theorem opened_get (fds : Table K) (k : K) (cloexec : Bool) (n : Nat) :
    (fds.opened k cloexec).2.get n =
      if n = fds.lowest 0 then some ⟨k, cloexec⟩ else fds.get n :=
  get_put fds _ n _

theorem owned_number (owned : Owned o keys) (held : k ∈ keys.held) :
    ∃ n, o.vars k = some n :=
  Option.isSome_iff_exists.mp ((owned.held k).mp held)

theorem owned_unheld (owned : Owned o keys) (free : k ∉ keys.held) : o.vars k = none := by
  cases here : o.vars k with
  | none => rfl
  | some n => exact absurd ((owned.held k).mpr (by simp [here])) free

theorem owned_apart (owned : Owned o keys) {j : K} (one : o.vars k = some n)
    (two : o.vars j = some n) : k = j := by
  obtain ⟨_, first⟩ := (owned.table k n).mp one
  obtain ⟨_, second⟩ := (owned.table j n).mp two
  rw [first] at second
  simpa using congrArg (Option.map Descriptor.object) second

variable [DecidableEq K]

theorem owned_acquired (owned : Owned o keys) (fresh : k ∉ keys.held) :
    step o (.acquire k) = some (acquired k o) ∧
      Owned (acquired k o) (keys.after (.acquire k)) := by
  have empty := owned_unheld owned fresh
  have free := (lowest_spec o.fds 0).2
  refine ⟨by simp [step, empty], ?_, ?_, ?_, ?_⟩
  · intro j
    by_cases same : j = k
    · simp [same, acquired, Keys.after]
    · simp [same, acquired, Keys.after, owned.held j]
  · intro j n
    simp only [acquired, opened_get]
    by_cases same : j = k
    · subst same
      by_cases here : n = o.fds.lowest 0
      · simp [here, Table.opened]
      · have absent : ¬ ∃ c, o.fds.get n = some ⟨j, c⟩ := by
          rw [← owned.table, empty]
          simp
        simp only [Function.update_self, Option.some.injEq, here, ↓reduceIte, absent, iff_false]
        exact fun taken => here taken.symm
    · rw [Function.update_of_ne same, owned.table]
      by_cases here : n = o.fds.lowest 0
      · subst here
        have other : ∀ c d : Bool, (⟨k, c⟩ : Descriptor K) ≠ ⟨j, d⟩ := by
          intro c d equal
          exact same (congrArg Descriptor.object equal).symm
        simp [free, other]
      · simp [here]
  · intro j n
    rw [show (acquired k o).interest n = o.interest n from rfl, owned.interest]
    refine and_congr_right ?_
    intro watched
    have same : j ≠ k := by
      rintro rfl
      exact fresh (owned.watched j watched)
    simp [acquired, same]
  · intro j watched
    exact Set.mem_insert_of_mem _ (owned.watched j watched)

theorem owned_dropped (owned : Owned o keys) (held : k ∈ keys.held) (free : k ∉ keys.watched) :
    ∃ o', step o (.drop k) = some o' ∧ Owned o' (keys.after (.drop k)) := by
  obtain ⟨n, here⟩ := owned_number owned held
  obtain ⟨c, stands⟩ := (owned.table k n).mp here
  have quiet : o.interest n = none := by
    cases watch : o.interest n with
    | none => rfl
    | some j =>
      obtain ⟨watched, there⟩ := (owned.interest j n).mp watch
      exact absurd (owned_apart owned here there ▸ watched) free
  refine ⟨⟨o.fds.close n, Function.update o.vars k none, o.interest⟩, ?_, ?_, ?_, ?_, ?_⟩
  · simp [step, here, stands, quiet]
  · intro j
    by_cases same : j = k
    · simp [same, Keys.after]
    · simp [same, Keys.after, owned.held j]
  · intro j m
    simp only [get_close]
    by_cases same : j = k
    · subst same
      by_cases there : m = n
      · simp [there]
      · have absent : ¬ ∃ c, o.fds.get m = some ⟨j, c⟩ := by
          rw [← owned.table, here]
          simpa using fun equal => there equal.symm
        simp [there, absent]
    · rw [Function.update_of_ne same, owned.table]
      by_cases there : m = n
      · subst there
        have other : ¬ ∃ c, o.fds.get m = some ⟨j, c⟩ := by
          rw [← owned.table]
          exact fun taken => same (owned_apart owned taken here)
        simp [other]
      · simp [there]
  · intro j m
    rw [owned.interest]
    refine and_congr_right ?_
    intro watched
    have same : j ≠ k := by
      rintro rfl
      exact free watched
    simp [same]
  · intro j watched
    refine ⟨owned.watched j watched, ?_⟩
    rintro rfl
    exact free watched

theorem owned_watched (owned : Owned o keys) (held : k ∈ keys.held) (free : k ∉ keys.watched) :
    ∃ o', step o (.watch k) = some o' ∧ Owned o' (keys.after (.watch k)) := by
  obtain ⟨n, here⟩ := owned_number owned held
  have quiet : o.interest n = none := by
    cases watch : o.interest n with
    | none => rfl
    | some j =>
      obtain ⟨watched, there⟩ := (owned.interest j n).mp watch
      exact absurd (owned_apart owned here there ▸ watched) free
  refine ⟨{ o with interest := Function.update o.interest n (some k) }, by simp [step, here, quiet],
    owned.held, owned.table, ?_, ?_⟩
  · intro j m
    by_cases there : m = n
    · subst there
      simp only [Function.update_self, Option.some.injEq, Keys.after, Set.mem_insert_iff]
      constructor
      · rintro rfl
        exact ⟨Or.inl rfl, here⟩
      · rintro ⟨_, taken⟩
        exact owned_apart owned here taken
    · dsimp only
      rw [Function.update_of_ne there, owned.interest]
      simp only [Keys.after, Set.mem_insert_iff]
      constructor
      · exact fun ⟨watched, taken⟩ => ⟨Or.inr watched, taken⟩
      · rintro ⟨rfl | watched, taken⟩
        · exact absurd (Option.some.inj (taken.symm.trans here)) there
        · exact ⟨watched, taken⟩
  · intro j watched
    rcases watched with rfl | watched
    · exact held
    · exact owned.watched j watched

theorem owned_unwatched (owned : Owned o keys) (watched : k ∈ keys.watched) :
    ∃ o', step o (.unwatch k) = some o' ∧ Owned o' (keys.after (.unwatch k)) := by
  obtain ⟨n, here⟩ := owned_number owned (owned.watched k watched)
  have listed : o.interest n = some k := (owned.interest k n).mpr ⟨watched, here⟩
  refine ⟨{ o with interest := Function.update o.interest n none }, by simp [step, here, listed],
    owned.held, owned.table, ?_, fun j kept => owned.watched j kept.1⟩
  intro j m
  by_cases there : m = n
  · subst there
    simp only [Function.update_self, reduceCtorEq, Keys.after, Set.mem_sdiff,
      Set.mem_singleton_iff, false_iff, not_and]
    intro kept taken
    exact kept.2 (owned_apart owned taken here)
  · dsimp only
    rw [Function.update_of_ne there, owned.interest]
    simp only [Keys.after, Set.mem_sdiff, Set.mem_singleton_iff]
    constructor
    · rintro ⟨kept, taken⟩
      refine ⟨⟨kept, ?_⟩, taken⟩
      rintro rfl
      exact there (Option.some.inj (taken.symm.trans here))
    · rintro ⟨⟨kept, _⟩, taken⟩
      exact ⟨kept, taken⟩

theorem step_owned (owned : Owned o keys) {op : Op K} (allowed : keys.Allows op) :
    ∃ o', step o op = some o' ∧ Owned o' (keys.after op) := by
  cases op with
  | acquire k =>
    obtain ⟨stepped, kept⟩ := owned_acquired owned allowed
    exact ⟨_, stepped, kept⟩
  | pair j k =>
    obtain ⟨first, one⟩ := owned_acquired owned allowed.1
    obtain ⟨second, two⟩ := owned_acquired one allowed.2
    simp only [step, Option.ite_none_right_eq_some, and_true] at first second
    exact ⟨_, by simp [step, first, second], two⟩
  | drop k => exact owned_dropped owned allowed.1 allowed.2
  | watch k => exact owned_watched owned allowed.1 allowed.2
  | unwatch k => exact owned_unwatched owned allowed

end Steps

section Runs
variable {o : Owners K} {keys : Keys K} {ops : List (Op K)}

theorem allows_append (keys : Keys K) (ops more : List (Op K)) :
    keys.AllowsAll (ops ++ more) ↔ keys.AllowsAll ops ∧ (keys.afterAll ops).AllowsAll more := by
  induction ops generalizing keys with
  | nil => simp [Keys.AllowsAll, Keys.afterAll]
  | cons op ops ih =>
    simp only [List.cons_append, Keys.AllowsAll, ih, and_assoc]
    rfl

theorem reaches_nil (keys : Keys K) : keys.Reaches [] keys := ⟨trivial, rfl⟩

theorem reaches_append {middle last : Keys K} {more : List (Op K)}
    (first : keys.Reaches ops middle) (second : middle.Reaches more last) :
    keys.Reaches (ops ++ more) last := by
  obtain ⟨allowed, rfl⟩ := first
  obtain ⟨later, rfl⟩ := second
  exact ⟨(allows_append keys ops more).mpr ⟨allowed, later⟩, List.foldl_append⟩

theorem after_with {op : Op K} {k : K} (other : ¬ op.Mentions k) :
    ((keys.with k).Allows op ↔ keys.Allows op) ∧
      (keys.with k).after op = (keys.after op).with k := by
  cases op with
  | acquire j =>
    have apart : j ≠ k := other
    exact ⟨by simp [Keys.Allows, Keys.with, apart], by
      simp [Keys.after, Keys.with, Set.insert_comm]⟩
  | pair i j =>
    obtain ⟨one, two⟩ : i ≠ k ∧ j ≠ k := not_or.mp other
    refine ⟨by simp [Keys.Allows, Keys.with, one, two], Keys.ext (Set.ext fun x => ?_) rfl⟩
    simp only [Keys.after, Keys.with, Set.mem_insert_iff]
    tauto
  | drop j =>
    have apart : j ≠ k := other
    refine ⟨by simp [Keys.Allows, Keys.with, apart], Keys.ext (Set.ext fun x => ?_) rfl⟩
    simp only [Keys.after, Keys.with, Set.mem_sdiff, Set.mem_insert_iff, Set.mem_singleton_iff]
    constructor
    · tauto
    · rintro (rfl | held)
      · exact ⟨Or.inl rfl, apart.symm⟩
      · tauto
  | watch j =>
    have apart : j ≠ k := other
    exact ⟨by simp [Keys.Allows, Keys.with, apart], rfl⟩
  | unwatch j => exact ⟨Iff.rfl, rfl⟩

theorem all_with {k : K} (others : ∀ op ∈ ops, ¬ op.Mentions k) :
    ((keys.with k).AllowsAll ops ↔ keys.AllowsAll ops) ∧
      (keys.with k).afterAll ops = (keys.afterAll ops).with k := by
  induction ops generalizing keys with
  | nil => exact ⟨Iff.rfl, rfl⟩
  | cons op ops ih =>
    obtain ⟨allowed, same⟩ := @after_with K keys op k (others op List.mem_cons_self)
    obtain ⟨rest, last⟩ := @ih (keys.after op)
      (fun op member => others op (List.mem_cons_of_mem _ member))
    simp only [Keys.AllowsAll, Keys.afterAll, List.foldl_cons, same] at last ⊢
    exact ⟨and_congr allowed rest, last⟩

end Runs

def SealedAbove (bound : Nat) (o : Owners K) : Prop :=
  ∀ n d, bound < n → o.fds.get n = some d → d.cloexec = true

def Lasting (perm : K → Prop) (o : Owners K) (n : Nat) : Prop :=
  ∃ k cloexec, perm k ∧ o.fds.get n = some ⟨k, cloexec⟩

/-- All numbers up to a bound but one are held by lasting variables. -/
def Anchored (perm : K → Prop) (bound : Nat) (o : Owners K) : Prop :=
  ∀ a b, a ≤ bound → b ≤ bound → ¬ Lasting perm o a → ¬ Lasting perm o b → a = b

theorem lasting_apart {o : Owners K} {keys : Keys K} {perm : K → Prop} (owned : Owned o keys)
    {n : Nat} (lasting : Lasting perm o n) {k : K} (here : o.vars k = some n) : perm k := by
  obtain ⟨j, c, lasts, stands⟩ := lasting
  have there : o.vars j = some n := (owned.table j n).mpr ⟨c, stands⟩
  rw [owned_apart owned here there]
  exact lasts

section Numbers
variable [DecidableEq K] {o o' : Owners K} {bound : Nat} {op : Op K} {perm : K → Prop}

theorem step_cases (stepped : step o op = some o') :
    (∃ k, op = .acquire k ∧ o' = acquired k o) ∨
    (∃ j k, op = .pair j k ∧ o' = acquired k (acquired j o)) ∨
    (∃ k n, op = .drop k ∧ (o.fds.get n).map Descriptor.object = some k ∧
      o'.fds = o.fds.close n ∧ o'.vars = Function.update o.vars k none) ∨
    o'.fds = o.fds ∧ o'.vars = o.vars := by
  cases op with
  | acquire k =>
    simp only [step, Option.ite_none_right_eq_some, Option.some.injEq] at stepped
    exact Or.inl ⟨k, rfl, stepped.2.symm⟩
  | pair j k =>
    simp only [step, Option.ite_none_right_eq_some, Option.some.injEq] at stepped
    exact Or.inr (Or.inl ⟨j, k, rfl, stepped.2.symm⟩)
  | drop k =>
    simp only [step, Option.bind_eq_bind, Option.bind_eq_some_iff, Option.ite_none_right_eq_some,
      Option.some.injEq] at stepped
    obtain ⟨n, _, own, rfl⟩ := stepped
    exact Or.inr (Or.inr (Or.inl ⟨k, n, rfl, own.1, rfl, rfl⟩))
  | watch k =>
    simp only [step, Option.bind_eq_bind, Option.bind_eq_some_iff, Option.ite_none_right_eq_some,
      Option.some.injEq] at stepped
    obtain ⟨_, _, _, rfl⟩ := stepped
    exact Or.inr (Or.inr (Or.inr ⟨rfl, rfl⟩))
  | unwatch k =>
    simp only [step, Option.bind_eq_bind, Option.bind_eq_some_iff, Option.ite_none_right_eq_some,
      Option.some.injEq] at stepped
    obtain ⟨_, _, _, rfl⟩ := stepped
    exact Or.inr (Or.inr (Or.inr ⟨rfl, rfl⟩))

theorem acquired_sealed (held : SealedAbove bound o) (k : K) :
    SealedAbove bound (acquired k o) := by
  intro n d above stands
  rw [acquired, opened_get] at stands
  split at stands
  · rw [← Option.some.inj stands]
  · exact held n d above stands

theorem step_sealed (stepped : step o op = some o') (held : SealedAbove bound o) :
    SealedAbove bound o' := by
  rcases step_cases stepped with ⟨k, _, rfl⟩ | ⟨j, k, _, rfl⟩ | ⟨k, m, _, _, closed, _⟩ | ⟨same, _⟩
  · exact acquired_sealed held k
  · exact acquired_sealed (acquired_sealed held j) k
  · intro n d above stands
    rw [closed, get_close] at stands
    split at stands
    · simp at stands
    · exact held n d above stands
  · intro n d above stands
    exact held n d above (same ▸ stands)

theorem acquired_keeps {n : Nat} {d : Descriptor K} (stands : o.fds.get n = some d) (k : K) :
    (acquired k o).fds.get n = some d := by
  have taken : n ≠ o.fds.lowest 0 := by
    rintro rfl
    rw [(lowest_spec o.fds 0).2] at stands
    simp at stands
  rw [acquired, opened_get, if_neg taken]
  exact stands

theorem step_lasting (stepped : step o op = some o') (kept : ∀ k, perm k → op ≠ .drop k) {n : Nat}
    (lasting : Lasting perm o n) : Lasting perm o' n := by
  obtain ⟨k, c, lasts, stands⟩ := lasting
  refine ⟨k, c, lasts, ?_⟩
  rcases step_cases stepped with ⟨j, _, rfl⟩ | ⟨i, j, _, rfl⟩ | ⟨j, m, rfl, own, closed, _⟩ | ⟨same, _⟩
  · exact acquired_keeps stands j
  · exact acquired_keeps (acquired_keeps stands i) j
  · have other : n ≠ m := by
      rintro rfl
      rw [stands] at own
      obtain rfl : k = j := by simpa using own
      exact kept k lasts rfl
    rw [closed, get_close, if_neg other]
    exact stands
  · rw [same]
    exact stands

theorem step_anchored (stepped : step o op = some o') (kept : ∀ k, perm k → op ≠ .drop k)
    (held : Anchored perm bound o) : Anchored perm bound o' := by
  intro a b low low' loose loose'
  exact held a b low low' (fun lasting => loose (step_lasting stepped kept lasting))
    (fun lasting => loose' (step_lasting stepped kept lasting))

theorem second_above (held : Anchored perm bound o) (k : K) :
    bound < (acquired k o).fds.lowest 0 := by
  obtain ⟨_, free⟩ := lowest_spec o.fds 0
  obtain ⟨_, next⟩ := lowest_spec (acquired k o).fds 0
  generalize second : (acquired k o).fds.lowest 0 = m at next
  rw [acquired, opened_get] at next
  split at next
  · simp at next
  · rename_i other
    by_contra low
    have first := lowest_le o.fds next
    have unheld : ∀ n, o.fds.get n = none → ¬ Lasting perm o n := by
      rintro n none ⟨_, _, _, stands⟩
      rw [none] at stands
      simp at stands
    exact other (held m (o.fds.lowest 0) (by omega) (by omega) (unheld m next) (unheld _ free))

theorem step_seconds {second : K → Prop} (stepped : step o op = some o')
    (anchored : Anchored perm bound o)
    (later : ∀ k, second k → op ≠ .acquire k ∧ ∀ j, op ≠ .pair k j)
    (held : ∀ k n, second k → o.vars k = some n → bound < n) :
    ∀ k n, second k → o'.vars k = some n → bound < n := by
  intro k n seconds here
  rcases step_cases stepped with ⟨j, rfl, rfl⟩ | ⟨i, j, rfl, rfl⟩ | ⟨j, m, _, _, _, vars⟩ | ⟨_, vars⟩
  · have other : k ≠ j := fun same => (later k seconds).1 (by rw [same])
    simp only [acquired, Function.update_of_ne other] at here
    exact held k n seconds here
  · have other : k ≠ i := fun same => (later k seconds).2 j (by rw [same])
    by_cases same : k = j
    · subst same
      have number : (acquired i o).fds.lowest 0 = n := by simpa [acquired, Table.opened] using here
      exact number ▸ second_above anchored i
    · simp only [acquired, Function.update_of_ne other, Function.update_of_ne same] at here
      exact held k n seconds here
  · by_cases same : k = j
    · simp [vars, same] at here
    · rw [vars, Function.update_of_ne same] at here
      exact held k n seconds here
  · exact held k n seconds (vars ▸ here)

/-- Where everything that is open lasts, two more lasting descriptors leave at
    most one number up to 2, and 0 is not the one. -/
theorem two_anchor {keys : Keys K} (owned : Owned o keys) (all : ∀ k ∈ keys.held, perm k) {j k : K}
    (lasts : perm j ∧ perm k) :
    Anchored perm 2 (acquired k (acquired j o)) ∧
      Lasting perm (acquired k (acquired j o)) 0 := by
  have loose : ∀ n, ¬ Lasting perm (acquired k (acquired j o)) n → n ≠ o.fds.lowest 0 ∧
      n ≠ (acquired j o).fds.lowest 0 ∧ o.fds.lowest 0 ≤ n ∧
      (acquired j o).fds.lowest 0 ≤ n := by
    intro n loose
    have second : n ≠ (acquired j o).fds.lowest 0 := by
      rintro rfl
      exact loose ⟨k, true, lasts.2, by rw [acquired, opened_get, if_pos rfl]⟩
    have first : n ≠ o.fds.lowest 0 := by
      rintro rfl
      refine loose ⟨j, true, lasts.1, ?_⟩
      rw [acquired, opened_get, if_neg second, acquired, opened_get, if_pos rfl]
    have free : o.fds.get n = none := by
      cases stands : o.fds.get n with
      | none => rfl
      | some d =>
        have held : d.object ∈ keys.held :=
          (owned.held _).mpr (by simp [(owned.table d.object n).mpr ⟨d.cloexec, stands⟩])
        refine absurd ⟨d.object, d.cloexec, all _ held, ?_⟩ loose
        rw [acquired, opened_get, if_neg second, acquired, opened_get, if_neg first, stands]
    have later : (acquired j o).fds.get n = none := by
      rw [acquired, opened_get, if_neg first, free]
    exact ⟨first, second, lowest_le _ free, lowest_le _ later⟩
  have apart : o.fds.lowest 0 ≠ (acquired j o).fds.lowest 0 := by
    intro same
    have free := (lowest_spec (acquired j o).fds 0).2
    rw [← same, acquired, opened_get, if_pos rfl] at free
    simp at free
  constructor
  · intro a b low low' one two
    obtain ⟨_, _, _, _⟩ := loose a one
    obtain ⟨_, _, _, _⟩ := loose b two
    omega
  · by_contra zero
    obtain ⟨_, _, _, _⟩ := loose 0 zero
    omega

end Numbers

end DescriptorOwners
