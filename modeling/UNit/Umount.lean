import Mathlib.Data.Multiset.AddSub
import Mathlib.Data.Multiset.Count
import UNit.ExchangeRuns
import UNit.LoopRuns

/-!
Unmounting everything. The list is walked again and again while something could
be unmounted; an entry that is unmounted is taken out of the list under the
walk. The loop ends whatever umount answers. How much it unmounts is up to the
kernel: there a call depends on what is mounted, and what is unmounted does not
keep anything else mounted.
-/
namespace Umount
open LoopRuns ExchangeRuns

def Path : Type := List UInt8
  deriving DecidableEq, Repr

/-- A node of the list. Its address stands for the pointer to it. -/
structure MountPoint where
  address : Nat
  path : Path
  deriving DecidableEq, Repr

def first (list : List MountPoint) : Option Nat := list.head?.map MountPoint.address

def nextOf (address : Nat) : List MountPoint → Option Nat
  | [] => none
  | mp :: list => if mp.address = address then first list else nextOf address list

def removeMountpoint (address : Nat) : List MountPoint → List MountPoint
  | [] => []
  | mp :: list => if mp.address = address then list else mp :: removeMountpoint address list

def pathOf (address : Nat) (list : List MountPoint) : Path :=
  ((list.find? (fun mp => mp.address = address)).map MountPoint.path).getD []

/-- Whether a call of umount succeeds. It may depend on the calls before it, so
    that a mount that was busy need not be so the next time. -/
abbrev Answers := List (Nat × Bool) → Path → Multiset Path → Bool

/-- Whether a call of umount succeeds depends on what is mounted: something has
    to be mounted at the path, and unmounting something else does not make a
    possible call impossible. -/
structure Kernel where
  can : Path → Multiset Path → Bool
  mounted : ∀ {p m}, can p m = true → p ∈ m
  monotone : ∀ {p q m}, p ≠ q → can p m = true → can q m = true → can p (m.erase q) = true

def Kernel.answers (kernel : Kernel) : Answers := fun _ p m => kernel.can p m

structure Umounting where
  list : List MountPoint
  mp : Option Nat
  mounted : Multiset Path
  changed : Bool
  log : List (Nat × Bool)

/-- Both loops of mount_umount_filesystems: a step of the walk, or a new walk
    where the last one has changed something. The log has every call with its
    success. -/
def umountBody (umount : Answers) (st : Umounting) : Umounting ⊕ Umounting :=
  match st.mp with
  | some mp =>
    let next := nextOf mp st.list
    let path := pathOf mp st.list
    if umount st.log path st.mounted then
      .inl ⟨removeMountpoint mp st.list, next, st.mounted.erase path, true, st.log ++ [(mp, true)]⟩
    else .inl { st with mp := next, log := st.log ++ [(mp, false)] }
  | none =>
    if st.changed then .inl { st with mp := first st.list, changed := false } else .inr st

def umountStart (list : List MountPoint) (mounted : Multiset Path) : Umounting :=
  ⟨list, first list, mounted, false, []⟩

section Nodes
variable {passed rest : List MountPoint} {mp : MountPoint}
variable (distinct : ((passed ++ mp :: rest).map MountPoint.address).Nodup)
include distinct

theorem passed_other : ∀ other ∈ passed, other.address ≠ mp.address := by
  intro other member same
  rw [List.map_append, List.map_cons, List.nodup_append] at distinct
  exact distinct.2.2 other.address (List.mem_map_of_mem member) mp.address
    List.mem_cons_self same

theorem next_of_split : nextOf mp.address (passed ++ mp :: rest) = first rest := by
  have others := passed_other distinct
  clear distinct
  induction passed with
  | nil => simp [nextOf]
  | cons other passed ih =>
    rw [List.cons_append, nextOf, if_neg (others other List.mem_cons_self)]
    exact ih (fun n member => others n (List.mem_cons_of_mem other member))

theorem remove_split : removeMountpoint mp.address (passed ++ mp :: rest) = passed ++ rest := by
  have others := passed_other distinct
  clear distinct
  induction passed with
  | nil => simp [removeMountpoint]
  | cons other passed ih =>
    rw [List.cons_append, removeMountpoint, if_neg (others other List.mem_cons_self),
      ih (fun n member => others n (List.mem_cons_of_mem other member)), List.cons_append]

theorem path_of_split : pathOf mp.address (passed ++ mp :: rest) = mp.path := by
  have others := passed_other distinct
  have none : passed.find? (fun n => n.address = mp.address) = none := by
    simpa [List.find?_eq_none] using others
  have found : (passed ++ mp :: rest).find? (fun n => n.address = mp.address) = some mp := by
    simp [List.find?_append, none]
  rw [pathOf, found]
  rfl

end Nodes

structure Placed (total : Nat) (st : Umounting) (passed rest : List MountPoint) : Prop where
  split : st.list = passed ++ rest
  pointer : st.mp = first rest
  distinct : (st.list.map MountPoint.address).Nodup
  bound : st.list.length ≤ total

def Umounting.unmounted (st : Umounting) (mp : MountPoint) (passed rest : List MountPoint) :
    Umounting :=
  ⟨passed ++ rest, first rest, st.mounted.erase mp.path, true, st.log ++ [(mp.address, true)]⟩

def Umounting.refused (st : Umounting) (mp : MountPoint) (rest : List MountPoint) : Umounting :=
  { st with mp := first rest, log := st.log ++ [(mp.address, false)] }

def Umounting.restarted (st : Umounting) : Umounting :=
  { st with mp := first st.list, changed := false }

def measure (total : Nat) (st : Umounting) (rest : List MountPoint) : Nat :=
  (st.list.length + if st.changed then 1 else 0) * (total + 1) + rest.length

section Placed
variable {umount : Answers} {total : Nat} {st : Umounting} {passed rest : List MountPoint}
variable {mp : MountPoint}

theorem placed_unmounts (placed : Placed total st passed (mp :: rest))
    (success : umount st.log mp.path st.mounted = true) :
    umountBody umount st = .inl (st.unmounted mp passed rest) ∧
      Placed total (st.unmounted mp passed rest) passed rest := by
  have distinct := placed.distinct
  have pointer : st.mp = some mp.address := placed.pointer
  have bound := placed.bound
  rw [placed.split] at distinct bound
  constructor
  · simp only [umountBody, pointer, placed.split, path_of_split distinct, next_of_split distinct,
      remove_split distinct, success, ↓reduceIte, Umounting.unmounted]
  · refine ⟨rfl, rfl, ?_, ?_⟩
    · refine distinct.sublist (List.Sublist.map _ ?_)
      exact List.Sublist.append_left (List.sublist_cons_self mp rest) passed
    · simp only [Umounting.unmounted, List.length_append, List.length_cons] at bound ⊢
      omega

theorem placed_refused (placed : Placed total st passed (mp :: rest))
    (failure : umount st.log mp.path st.mounted = false) :
    umountBody umount st = .inl (st.refused mp rest) ∧
      Placed total (st.refused mp rest) (passed ++ [mp]) rest := by
  have distinct := placed.distinct
  have pointer : st.mp = some mp.address := placed.pointer
  rw [placed.split] at distinct
  constructor
  · simp only [umountBody, pointer, placed.split, path_of_split distinct, next_of_split distinct,
      failure, Bool.false_eq_true, ↓reduceIte, Umounting.refused]
  · exact ⟨by simp [Umounting.refused, placed.split], rfl, placed.distinct, placed.bound⟩

theorem placed_again (placed : Placed total st passed []) (changed : st.changed = true) :
    umountBody umount st = .inl st.restarted ∧ Placed total st.restarted [] st.list := by
  have pointer : st.mp = none := placed.pointer
  constructor
  · simp [umountBody, pointer, changed, Umounting.restarted]
  · exact ⟨rfl, rfl, placed.distinct, placed.bound⟩

theorem placed_ends (placed : Placed total st passed []) (unchanged : st.changed = false) :
    umountBody umount st = .inr st := by
  have pointer : st.mp = none := placed.pointer
  simp [umountBody, pointer, unchanged]

theorem measure_again (placed : Placed total st passed []) (changed : st.changed = true) :
    measure total st.restarted st.list < measure total st [] := by
  have bound := placed.bound
  simp only [measure, Umounting.restarted, changed, Bool.false_eq_true, ↓reduceIte,
    List.length_nil, Nat.add_zero, Nat.succ_mul]
  omega

/-- An entry less makes up for the new walk that it causes. -/
theorem measure_unmounts (placed : Placed total st passed (mp :: rest)) :
    measure total (st.unmounted mp passed rest) rest < measure total st (mp :: rest) := by
  have counted : st.list.length = (passed ++ rest).length + 1 := by
    simp only [placed.split, List.length_append, List.length_cons]
    omega
  have product : ((passed ++ rest).length + 1) * (total + 1) ≤
      (st.list.length + if st.changed then 1 else 0) * (total + 1) := by
    refine Nat.mul_le_mul_right _ ?_
    rw [counted]
    exact Nat.le_add_right _ _
  simp only [measure, Umounting.unmounted, ↓reduceIte, List.length_cons]
  omega

theorem measure_refused (total : Nat) (st : Umounting) (mp : MountPoint)
    (rest : List MountPoint) :
    measure total (st.refused mp rest) rest < measure total st (mp :: rest) :=
  Nat.add_lt_add_left (Nat.lt_succ_self rest.length) _

theorem unmounted_gone (placed : Placed total st passed (mp :: rest)) :
    mp.address ∉ (passed ++ rest).map MountPoint.address := by
  have distinct := placed.distinct
  rw [placed.split] at distinct
  have moved := (List.perm_middle.map MountPoint.address).nodup_iff.mp distinct
  exact (List.nodup_cons.mp moved).1

end Placed

theorem walk_ends (umount : Answers) {list : List MountPoint}
    (distinct : (list.map MountPoint.address).Nodup) (mounted : Multiset Path)
    (inv : Umounting → List MountPoint → Prop)
    (unmounts : ∀ st passed mp rest, Placed list.length st passed (mp :: rest) → inv st passed →
      umount st.log mp.path st.mounted = true → inv (st.unmounted mp passed rest) passed)
    (refuses : ∀ st passed mp rest, Placed list.length st passed (mp :: rest) → inv st passed →
      umount st.log mp.path st.mounted = false → inv (st.refused mp rest) (passed ++ [mp]))
    (restarts : ∀ st, inv st st.list → st.changed = true → inv st.restarted [])
    (start : inv (umountStart list mounted) []) :
    ∃ final, Ends (umountBody umount) (umountStart list mounted) final ∧
      final.changed = false ∧ inv final final.list := by
  refine ends_measured (fun n st => ∃ passed rest, Placed list.length st passed rest ∧
      inv st passed ∧ n = measure list.length st rest)
    (fun final => final.changed = false ∧ inv final final.list) ?_
    ⟨[], list, ⟨rfl, rfl, distinct, Nat.le_refl _⟩, start, rfl⟩
  rintro n st ⟨passed, rest, placed, held, rfl⟩
  cases rest with
  | nil =>
    obtain rfl : passed = st.list := by simpa using placed.split.symm
    cases changed : st.changed with
    | true =>
      obtain ⟨body, next⟩ := @placed_again umount _ _ _ placed changed
      exact .inl ⟨_, _, body, measure_again placed changed, [], st.list, next,
        restarts st held changed, rfl⟩
    | false => exact .inr ⟨st, placed_ends placed changed, changed, held⟩
  | cons mp rest =>
    cases answer : umount st.log mp.path st.mounted with
    | true =>
      obtain ⟨body, next⟩ := placed_unmounts placed answer
      exact .inl ⟨_, _, body, measure_unmounts placed, passed, rest, next,
        unmounts st passed mp rest placed held answer, rfl⟩
    | false =>
      obtain ⟨body, next⟩ := placed_refused placed answer
      exact .inl ⟨_, _, body, measure_refused list.length st mp rest, _, rest, next,
        refuses st passed mp rest placed held answer, rfl⟩

structure Logged (st : Umounting) : Prop where
  gone : ∀ address, (address, true) ∈ st.log → address ∉ st.list.map MountPoint.address
  once : ∀ before address later, st.log = before ++ (address, true) :: later →
    ∀ ok, (address, ok) ∉ later

theorem logged_call {st next : Umounting} {address : Nat} {ok : Bool} (logged : Logged st)
    (called : address ∈ st.list.map MountPoint.address)
    (log : next.log = st.log ++ [(address, ok)])
    (kept : next.list.map MountPoint.address ⊆ st.list.map MountPoint.address)
    (taken : ok = true → address ∉ next.list.map MountPoint.address) : Logged next := by
  constructor
  · intro other member
    rw [log, List.mem_append, List.mem_singleton, Prod.mk.injEq] at member
    rcases member with before | ⟨rfl, success⟩
    · exact fun still => logged.gone other before (kept still)
    · exact taken success.symm
  · intro before other later split answer member
    rw [log] at split
    rcases List.eq_nil_or_concat later with rfl | ⟨earlier, last, rfl⟩
    · simp at member
    · rw [List.concat_eq_append] at member split
      rw [← List.cons_append, ← List.append_assoc] at split
      obtain ⟨same, ending⟩ := List.append_inj split (by
        have counted := congrArg List.length split
        simp only [List.length_append, List.length_cons, List.length_nil] at counted ⊢
        omega)
      rcases List.mem_append.mp member with inside | now
      · exact logged.once before other earlier same answer inside
      · have gone := logged.gone other (by simp [same])
        have last : (other, answer) = (address, ok) := by
          simpa [List.mem_singleton.mp now] using ending.symm
        obtain rfl := congrArg Prod.fst last
        exact gone called

theorem umount_logged (umount : Answers) {list : List MountPoint}
    (distinct : (list.map MountPoint.address).Nodup) (mounted : Multiset Path) :
    ∃ final, Ends (umountBody umount) (umountStart list mounted) final ∧ Logged final := by
  have inside : ∀ {st passed mp rest}, Placed list.length st passed (mp :: rest) →
      mp.address ∈ st.list.map MountPoint.address := by
    intro st passed mp rest placed
    simp [placed.split]
  have unmounts : ∀ st passed mp rest, Placed list.length st passed (mp :: rest) →
      Logged st → umount st.log mp.path st.mounted = true →
      Logged (st.unmounted mp passed rest) := by
    intro st passed mp rest placed logged _
    refine logged_call logged (inside placed) rfl ?_ fun _ => unmounted_gone placed
    rw [placed.split, List.map_append, List.map_cons]
    simp only [Umounting.unmounted, List.map_append]
    exact (List.Sublist.append_left (List.sublist_cons_self _ _) _).subset
  have refuses : ∀ st passed mp rest, Placed list.length st passed (mp :: rest) →
      Logged st → umount st.log mp.path st.mounted = false → Logged (st.refused mp rest) := by
    intro st passed mp rest placed logged _
    exact logged_call logged (inside placed) rfl (List.Subset.refl _) (by simp)
  obtain ⟨final, ends, _, logged⟩ := walk_ends umount distinct mounted (fun st _ => Logged st)
    unmounts refuses (fun _ logged _ => ⟨logged.gone, logged.once⟩)
    ⟨by simp [umountStart], by simp [umountStart]⟩
  exact ⟨final, ends, logged⟩

def Kernel.possible (kernel : Kernel) (p : Path) (m : Multiset Path) : Prop :=
  kernel.can p m = true

def unmount (p : Path) (m : Multiset Path) : Multiset Path := m.erase p

def paths (list : List MountPoint) : List Path := list.map MountPoint.path

/-- What was unmounted so far is a run of possible calls, and together with what
    is still in the list it is the whole list. As long as nothing has changed,
    nothing passed could be unmounted now. -/
structure Walking (kernel : Kernel) (list : List MountPoint) (mounted : Multiset Path)
    (st : Umounting) (passed : List MountPoint) (done : List Path) : Prop where
  legal : Legal kernel.possible unmount mounted done
  state : st.mounted = after unmount mounted done
  entries : (done ++ paths st.list).Perm (paths list)
  refused : st.changed = false → ∀ mp ∈ passed, ¬ kernel.possible mp.path st.mounted

section Steps
variable {kernel : Kernel} {list : List MountPoint} {mounted : Multiset Path} {st : Umounting}
variable {passed rest : List MountPoint} {done : List Path} {mp : MountPoint}

theorem walking_unmounts (walking : Walking kernel list mounted st passed done)
    (placed : Placed list.length st passed (mp :: rest))
    (possible : kernel.possible mp.path st.mounted) :
    Walking kernel list mounted (st.unmounted mp passed rest) passed (done ++ [mp.path]) := by
  refine ⟨?_, ?_, ?_, fun same => by cases same⟩
  · refine (legal_append mounted done [mp.path]).mpr ⟨walking.legal, ?_, trivial⟩
    rw [← walking.state]
    exact possible
  · simp [Umounting.unmounted, walking.state, after, unmount]
  · refine List.Perm.trans ?_ walking.entries
    rw [placed.split, List.append_assoc]
    refine List.Perm.append_left done ?_
    simpa [paths, Umounting.unmounted] using List.perm_middle.symm

theorem walking_refused (walking : Walking kernel list mounted st passed done)
    (impossible : ¬ kernel.possible mp.path st.mounted) (rest : List MountPoint) :
    Walking kernel list mounted (st.refused mp rest) (passed ++ [mp]) done := by
  refine ⟨walking.legal, walking.state, walking.entries, ?_⟩
  intro same other member
  rcases List.mem_append.mp member with before | now
  · exact walking.refused same other before
  · rw [List.mem_singleton.mp now]
    exact impossible

end Steps

structure Ended (kernel : Kernel) (list : List MountPoint) (mounted : Multiset Path)
    (final : Umounting) (done : List Path) : Prop where
  legal : Legal kernel.possible unmount mounted done
  state : final.mounted = after unmount mounted done
  entries : (done ++ paths final.list).Perm (paths list)
  stuck : ∀ mp ∈ final.list, ¬ kernel.possible mp.path final.mounted
  logged : Logged final

theorem umount_ends (kernel : Kernel) {list : List MountPoint}
    (distinct : (list.map MountPoint.address).Nodup) (mounted : Multiset Path) :
    ∃ final, Ends (umountBody kernel.answers) (umountStart list mounted) final ∧
      ∃ done, Ended kernel list mounted final done := by
  obtain ⟨same, ends, logged⟩ := umount_logged kernel.answers distinct mounted
  obtain ⟨final, also, unchanged, done, walking⟩ := walk_ends kernel.answers distinct mounted
    (fun st passed => ∃ done, Walking kernel list mounted st passed done)
    (fun _ _ _ _ placed ⟨done, walking⟩ success =>
      ⟨_, walking_unmounts walking placed success⟩)
    (fun _ _ _ rest _ ⟨done, walking⟩ failure =>
      ⟨done, walking_refused walking (Bool.eq_false_iff.mp failure) rest⟩)
    (fun _ ⟨done, walking⟩ _ =>
      ⟨done, walking.legal, walking.state, walking.entries, by simp⟩)
    ⟨[], trivial, rfl, List.Perm.refl _, by simp⟩
  obtain rfl := ends_unique ends also
  exact ⟨same, ends, done, walking.legal, walking.state, walking.entries,
    walking.refused unchanged, logged⟩

theorem legal_unmounts {kernel : Kernel} {m : Multiset Path} {moves : List Path}
    (legal : Legal kernel.possible unmount m moves) : after unmount m moves + moves = m := by
  induction moves generalizing m with
  | nil => simp [after]
  | cons p moves ih =>
    have later := ih legal.2
    rw [← Multiset.cons_coe, Multiset.add_cons]
    exact (congrArg (Multiset.cons p) later).trans (Multiset.cons_erase (kernel.mounted legal.1))

section Largest
variable {kernel : Kernel} {list : List MountPoint} {mounted : Multiset Path}
variable {final : Umounting} {done : List Path}

end Largest

structure MountList where
  nodes : List MountPoint
  distinct : (nodes.map MountPoint.address).Nodup

end Umount
