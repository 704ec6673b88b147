import Mathlib.Data.List.Sort

/-!
Stable sorting by a key. A sorted list is determined by its elements of each
key, in their order; insertion behind all elements whose key is not greater
builds such a list from the left.
-/
namespace StableSort
variable {A K : Type} [LinearOrder K] (key : A → K)

def Ascending (list : List A) : Prop := list.Pairwise (fun a b => key a ≤ key b)

def SameClasses (list other : List A) : Prop :=
  ∀ k, list.filter (fun a => key a = k) = other.filter (fun a => key a = k)

def insertBehind (a : A) (list : List A) : List A :=
  list.takeWhile (fun b => key b ≤ key a) ++ a :: list.dropWhile (fun b => key b ≤ key a)

def stableSort (list : List A) : List A := list.mergeSort (fun a b => key a ≤ key b)

variable {key}

theorem key_trans (a b c : A) (ab : decide (key a ≤ key b) = true)
    (bc : decide (key b ≤ key c) = true) : decide (key a ≤ key c) = true := by
  simp only [decide_eq_true_eq] at ab bc ⊢
  exact le_trans ab bc

theorem key_total (a b : A) : (decide (key a ≤ key b) || decide (key b ≤ key a)) = true := by
  simpa using le_total (key a) (key b)

theorem stable_sort_ascending (list : List A) : Ascending key (stableSort key list) := by
  have sorted : (stableSort key list).Pairwise (fun a b => decide (key a ≤ key b) = true) :=
    List.pairwise_mergeSort key_trans key_total list
  simpa [Ascending] using sorted

/-- A class is an ascending sublist, so the merge sort keeps it, and it finds
    no further element of this key. -/
theorem stable_sort_classes (list : List A) : SameClasses key (stableSort key list) list := by
  intro k
  have level : (list.filter (fun a => key a = k)).Pairwise
      (fun a b => decide (key a ≤ key b) = true) := by
    apply List.pairwise_of_forall_mem_list
    intro a inA b inB
    have atA : key a = k := by simpa using (List.mem_filter.mp inA).2
    have atB : key b = k := by simpa using (List.mem_filter.mp inB).2
    simp [atA, atB]
  have kept : (list.filter (fun a => key a = k)).Sublist (stableSort key list) :=
    List.sublist_mergeSort key_trans key_total level List.filter_sublist
  have inside := kept.filter (fun a => decide (key a = k))
  simp only [List.filter_filter, Bool.and_self] at inside
  have counted : ((stableSort key list).filter (fun a => key a = k)).length =
      (list.filter (fun a => key a = k)).length :=
    ((List.mergeSort_perm list _).filter _).length_eq
  exact (inside.eq_of_length counted.symm).symm

theorem classes_mem {list other : List A} (same : SameClasses key list other) {a : A}
    (member : a ∈ list) : a ∈ other := by
  have inClass : a ∈ list.filter (fun b => key b = key a) := by simp [member]
  rw [same (key a)] at inClass
  exact (List.mem_filter.mp inClass).1

theorem first_least {a b : A} {list : List A} (sorted : Ascending key (a :: list))
    (member : b ∈ a :: list) : key a ≤ key b := by
  rcases List.mem_cons.mp member with rfl | later
  · exact le_refl _
  · exact (List.pairwise_cons.mp sorted).1 b later

theorem ascending_unique {list other : List A} (sorted : Ascending key list)
    (sorted' : Ascending key other) (same : SameClasses key list other) : list = other := by
  induction list generalizing other with
  | nil =>
    cases other with
    | nil => rfl
    | cons b other => simpa using same (key b)
  | cons a list ih =>
    cases other with
    | nil => simpa using same (key a)
    | cons b other =>
      have least : key a = key b := by
        apply le_antisymm
        · exact first_least sorted (classes_mem (fun k => (same k).symm) List.mem_cons_self)
        · exact first_least sorted' (classes_mem same List.mem_cons_self)
      have heads := same (key a)
      simp only [List.filter_cons, least, decide_true, ↓reduceIte, List.cons.injEq] at heads
      obtain rfl := heads.1
      have rests : SameClasses key list other := by
        intro k
        have here := same k
        simp only [List.filter_cons] at here
        split at here
        · exact (List.cons.inj here).2
        · exact here
      rw [ih (List.pairwise_cons.mp sorted).2 (List.pairwise_cons.mp sorted').2 rests]

theorem insert_behind_ascending {list : List A} (sorted : Ascending key list) (a : A) :
    Ascending key (insertBehind key a list) := by
  induction list with
  | nil => simp [insertBehind, Ascending]
  | cons b list ih =>
    obtain ⟨first, rest⟩ := List.pairwise_cons.mp sorted
    by_cases before : key b ≤ key a
    · have later := ih rest
      simp only [insertBehind, before, decide_true, List.takeWhile_cons_of_pos,
        List.dropWhile_cons_of_pos, List.cons_append] at later ⊢
      refine List.pairwise_cons.mpr ⟨?_, later⟩
      intro c member
      rcases List.mem_append.mp member with taken | behind
      · exact first c ((List.takeWhile_prefix _).subset taken)
      · rcases List.mem_cons.mp behind with rfl | dropped
        · exact before
        · exact first c ((List.dropWhile_suffix _).subset dropped)
    · simp only [insertBehind, before, decide_false, Bool.false_eq_true, not_false_eq_true,
        List.takeWhile_cons_of_neg, List.dropWhile_cons_of_neg, List.nil_append]
      refine List.pairwise_cons.mpr ⟨?_, sorted⟩
      intro c member
      exact le_trans (le_of_lt (not_le.mp before)) (first_least sorted member)

theorem insert_behind_classes {list : List A} (sorted : Ascending key list) (a : A) :
    SameClasses key (insertBehind key a list) (list ++ [a]) := by
  intro k
  induction list with
  | nil => rfl
  | cons b list ih =>
    obtain ⟨first, rest⟩ := List.pairwise_cons.mp sorted
    by_cases before : key b ≤ key a
    · have later := ih rest
      simp only [insertBehind, before, decide_true, List.takeWhile_cons_of_pos,
        List.dropWhile_cons_of_pos, List.cons_append] at later ⊢
      rw [List.filter_cons, later, List.filter_cons]
    · have greater : ∀ c ∈ b :: list, key a < key c := fun c member =>
        lt_of_lt_of_le (not_le.mp before) (first_least sorted member)
      simp only [insertBehind, before, decide_false, Bool.false_eq_true, not_false_eq_true,
        List.takeWhile_cons_of_neg, List.dropWhile_cons_of_neg, List.nil_append]
      by_cases here : key a = k
      · have none : (b :: list).filter (fun c => key c = k) = [] := by
          apply List.filter_eq_nil_iff.mpr
          intro c member
          have := greater c member
          simp only [decide_eq_true_eq]
          exact fun same => absurd (here.trans same.symm) (ne_of_lt this)
        rw [List.filter_append, none, List.filter_cons_of_pos (by simpa using here), none]
        simp [here]
      · rw [List.filter_cons_of_neg (by simpa using here), List.filter_append]
        simp [here]

theorem stable_sort_snoc (list : List A) (a : A) :
    stableSort key (list ++ [a]) = insertBehind key a (stableSort key list) := by
  have sorted : Ascending key (stableSort key list) := stable_sort_ascending list
  apply ascending_unique (stable_sort_ascending _) (insert_behind_ascending sorted a)
  intro k
  rw [stable_sort_classes (list ++ [a]) k, insert_behind_classes sorted a k, List.filter_append,
    List.filter_append, stable_sort_classes list k]

end StableSort
