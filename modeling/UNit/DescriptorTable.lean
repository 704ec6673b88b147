import Mathlib.Data.List.Basic

/-!
Tables of file descriptors, as POSIX has them. A new descriptor takes the lowest
number that is free, from a given one on; a duplicate does not have the
close-on-exec flag of what it duplicates, and takes its number over from
whatever was open there.
-/
namespace DescriptorTable

structure Descriptor (O : Type) where
  object : O
  cloexec : Bool
  deriving DecidableEq, Repr

/-- The number of a descriptor is its place. -/
structure Table (O : Type) where
  slots : List (Option (Descriptor O))
  deriving DecidableEq, Repr

variable {O : Type}

def Table.get (fds : Table O) (n : Nat) : Option (Descriptor O) := fds.slots.getD n none

def Table.put (fds : Table O) (n : Nat) (d : Option (Descriptor O)) : Table O :=
  ⟨(fds.slots ++ List.replicate (n + 1 - fds.slots.length) none).set n d⟩

def lowestFree : List (Option (Descriptor O)) → Nat → Nat
  | [], n => n
  | none :: _, n => n
  | some _ :: slots, n => lowestFree slots (n + 1)

def Table.lowest (fds : Table O) (least : Nat) : Nat := lowestFree (fds.slots.drop least) least

def Table.opened (fds : Table O) (object : O) (cloexec : Bool) : Nat × Table O :=
  (fds.lowest 0, fds.put (fds.lowest 0) (some ⟨object, cloexec⟩))

/-- F_DUPFD; none for a number that is not open. -/
def Table.dupFrom (fds : Table O) (fd least : Nat) : Option (Nat × Table O) :=
  (fds.get fd).map (fun d =>
    (fds.lowest least, fds.put (fds.lowest least) (some ⟨d.object, false⟩)))

def Table.dup2 (fds : Table O) (old new : Nat) : Option (Table O) :=
  (fds.get old).map (fun d => if old = new then fds else fds.put new (some ⟨d.object, false⟩))

def Table.close (fds : Table O) (n : Nat) : Table O := fds.put n none

def Table.exec (fds : Table O) : Table O :=
  ⟨fds.slots.map (fun slot => slot.filter (fun d => !d.cloexec))⟩

theorem get_put (fds : Table O) (n m : Nat) (d : Option (Descriptor O)) :
    (fds.put n d).get m = if m = n then d else fds.get m := by
  have long : n < (fds.slots ++ List.replicate (n + 1 - fds.slots.length) none).length := by
    rw [List.length_append, List.length_replicate]
    omega
  simp only [Table.get, Table.put, List.getD_eq_getElem?_getD, List.getElem?_set]
  by_cases same : n = m
  · subst same
    simp only [↓reduceIte, long, Option.getD_some]
  · rw [if_neg same, if_neg (Ne.symm same)]
    by_cases inside : m < fds.slots.length
    · rw [List.getElem?_append_left inside]
    · rw [List.getElem?_append_right (by omega), List.getElem?_eq_none (l := fds.slots) (by omega)]
      by_cases padded : m - fds.slots.length < n + 1 - fds.slots.length
      · simp [padded]
      · simp [padded]

theorem get_close (fds : Table O) (n m : Nat) :
    (fds.close n).get m = if m = n then none else fds.get m :=
  get_put fds n m none

theorem lowest_free_ge (slots : List (Option (Descriptor O))) (n : Nat) :
    n ≤ lowestFree slots n ∧ slots.getD (lowestFree slots n - n) none = none := by
  induction slots generalizing n with
  | nil => simp [lowestFree]
  | cons slot slots ih =>
    cases slot with
    | none => simp [lowestFree]
    | some d =>
      obtain ⟨above, free⟩ := ih (n + 1)
      have place : lowestFree slots (n + 1) - n = (lowestFree slots (n + 1) - (n + 1)) + 1 := by
        omega
      refine ⟨Nat.le_of_succ_le above, ?_⟩
      rw [lowestFree, place, List.getD_cons_succ]
      exact free

theorem lowest_spec (fds : Table O) (least : Nat) :
    least ≤ fds.lowest least ∧ fds.get (fds.lowest least) = none := by
  obtain ⟨above, free⟩ := lowest_free_ge (fds.slots.drop least) least
  refine ⟨above, ?_⟩
  rw [List.getD_eq_getElem?_getD, List.getElem?_drop, Nat.add_sub_cancel' above] at free
  rw [Table.get, List.getD_eq_getElem?_getD]
  exact free

theorem lowest_free_le (slots : List (Option (Descriptor O))) (n m : Nat)
    (free : slots.getD m none = none) : lowestFree slots n ≤ n + m := by
  induction slots generalizing n m with
  | nil => exact Nat.le_add_right n m
  | cons slot slots ih =>
    cases slot with
    | none => exact Nat.le_add_right n m
    | some d =>
      cases m with
      | zero => simp at free
      | succ m =>
        have later := ih (n + 1) m (by simpa using free)
        rw [lowestFree]
        omega

theorem lowest_le (fds : Table O) {n : Nat} (free : fds.get n = none) : fds.lowest 0 ≤ n := by
  have bound := lowest_free_le fds.slots 0 n free
  rwa [Nat.zero_add] at bound

theorem lowest_pos_iff (fds : Table O) : 0 < fds.lowest 0 ↔ (fds.get 0).isSome := by
  obtain ⟨slots⟩ := fds
  match slots with
  | [] => simp [Table.lowest, Table.get, lowestFree]
  | none :: _ => simp [Table.lowest, Table.get, lowestFree]
  | some _ :: slots =>
    have above := (lowest_free_ge slots 1).1
    simp [Table.lowest, Table.get, lowestFree]
    omega

theorem get_exec (fds : Table O) (n : Nat) :
    fds.exec.get n = (fds.get n).filter (fun d => !d.cloexec) := by
  simp only [Table.exec, Table.get, List.getD_eq_getElem?_getD, List.getElem?_map]
  cases fds.slots[n]? <;> simp

end DescriptorTable
