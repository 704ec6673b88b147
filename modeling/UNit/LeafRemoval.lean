import Mathlib.Data.Finset.Max
import Mathlib.Data.Multiset.Filter
import UNit.ExchangeRuns

/-!
Things that lie on top of each other are taken away from the top. A thing that
is fixed is never taken, and nothing is taken that has another one on it. What a
run that cannot go on leaves behind does not depend on its order: everything
that has a fixed thing at its place or on it.
-/
namespace LeafRemoval
open ExchangeRuns
variable {P : Type}

theorem legal_weaker {S : Type} {can other : P → S → Prop} {act : P → S → S} {s : S}
    {moves : List P} (legal : Legal can act s moves)
    (weaker : ∀ p ∈ moves, ∀ s, can p s → other p s) :
    Legal other act s moves := by
  induction moves generalizing s with
  | nil => trivial
  | cons p moves ih =>
    refine ⟨weaker p List.mem_cons_self s legal.1, ih legal.2 ?_⟩
    exact fun q member => weaker q (List.mem_cons_of_mem p member)

variable [DecidableEq P]

def remove (p : P) (m : Multiset P) : Multiset P := m.erase p

section Fixed
variable (below : P → P → Prop) (fixed : P → Prop)

def Removable (p : P) (m : Multiset P) : Prop := p ∈ m ∧ ¬ fixed p ∧ ∀ q ∈ m, ¬ below p q

def Held (m : Multiset P) (p : P) : Prop := ∃ s ∈ m, fixed s ∧ (s = p ∨ below p s)

instance [DecidableRel below] [DecidablePred fixed] (m : Multiset P) :
    DecidablePred (Held below fixed m) :=
  fun _ => Multiset.decidableExistsMultiset

end Fixed

structure Layered (below : P → P → Prop) (rank : P → Nat) : Prop where
  transitive : ∀ {p q r : P}, below p q → below q r → below p r
  ranked : ∀ {p q : P}, below p q → rank p < rank q

variable {below : P → P → Prop} {fixed : P → Prop} {m : Multiset P} {moves : List P}

theorem removed_whole (legal : Legal (Removable below fixed) remove m moves) :
    after remove m moves + moves = m := by
  induction moves generalizing m with
  | nil => simp [after]
  | cons p moves ih =>
    have later := ih legal.2
    rw [← Multiset.cons_coe, Multiset.add_cons]
    exact (congrArg (Multiset.cons p) later).trans (Multiset.cons_erase legal.1.1)

theorem held_not_removed (legal : Legal (Removable below fixed) remove m moves) {s : P}
    (present : s ∈ m) (still : fixed s) : ∀ p ∈ moves, ¬ (s = p ∨ below p s) := by
  induction moves generalizing m with
  | nil => simp
  | cons q moves ih =>
    obtain ⟨⟨_, loose, free⟩, later⟩ := legal
    have other : s ≠ q := fun same => loose (same ▸ still)
    intro p member
    rcases List.mem_cons.mp member with rfl | among
    · rintro (same | under)
      · exact other same
      · exact free s present under
    · exact ih later ((Multiset.mem_erase_of_ne other).mpr present) p among

/-- The highest thing that nothing holds could still be taken. -/
theorem stuck_held {rank : P → Nat} (layered : Layered below rank)
    (legal : Legal (Removable below fixed) remove m moves)
    (stuck : ∀ p ∈ after remove m moves, ¬ Removable below fixed p (after remove m moves)) :
    ∀ p ∈ after remove m moves, Held below fixed m p := by
  classical
  generalize left : after remove m moves = rest at stuck
  have inside : ∀ p ∈ rest, p ∈ m := by
    intro p member
    rw [← removed_whole legal, left]
    exact Multiset.mem_add.mpr (.inl member)
  by_contra wrong
  push Not at wrong
  obtain ⟨p, member, loose⟩ := wrong
  have nonempty : (rest.toFinset.filter (fun p => ¬ Held below fixed m p)).Nonempty :=
    ⟨p, by simp [member, loose]⟩
  obtain ⟨top, highest, largest⟩ := Finset.exists_max_image _ rank nonempty
  obtain ⟨present, unheld⟩ : top ∈ rest ∧ ¬ Held below fixed m top := by simpa using highest
  have movable : ¬ fixed top := fun still => unheld ⟨top, inside top present, still, .inl rfl⟩
  refine stuck top present ⟨present, movable, ?_⟩
  intro q among under
  by_cases held : Held below fixed m q
  · obtain ⟨s, here, still, place⟩ := held
    rcases place with rfl | higher
    · exact unheld ⟨s, here, still, .inr under⟩
    · exact unheld ⟨s, here, still, .inr (layered.transitive under higher)⟩
  · have lower := largest q (by simp [among, held])
    have higher := layered.ranked under
    omega

theorem stuck_leaves_held {rank : P → Nat} (layered : Layered below rank)
    [DecidablePred (Held below fixed m)] (legal : Legal (Removable below fixed) remove m moves)
    (stuck : ∀ p ∈ after remove m moves, ¬ Removable below fixed p (after remove m moves)) :
    after remove m moves = m.filter (Held below fixed m) := by
  have whole := removed_whole legal
  have held := stuck_held layered legal stuck
  have moved : ∀ p ∈ (moves : Multiset P), ¬ Held below fixed m p := by
    rintro p member ⟨s, present, still, place⟩
    exact held_not_removed legal present still p (Multiset.mem_coe.mp member) place
  calc after remove m moves
      = (after remove m moves).filter (Held below fixed m) := by
        rw [Multiset.filter_eq_self.mpr held]
    _ = (after remove m moves).filter (Held below fixed m) +
          (moves : Multiset P).filter (Held below fixed m) := by
        rw [Multiset.filter_eq_nil.mpr moved, add_zero]
    _ = m.filter (Held below fixed m) := by rw [← Multiset.filter_add, whole]

end LeafRemoval
