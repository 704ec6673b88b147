import UNit.LeafRemoval
import UNit.MountCells

/-!
What is still mounted in the end. The mounts are a tree: one can be unmounted
once nothing is mounted below it and nothing else keeps it busy. The paths are
read from mountinfo, where some are not read back as they are and the system's
own are passed over, and then tried again and again in the order of the list.
-/
namespace MountTree
open LoopRuns ExchangeRuns LeafRemoval LinkedCells DecimalText Mountinfo Umount MountCells

def slash : UInt8 := 47

def entriesOf (p : List UInt8) : List UInt8 := if p = [slash] then p else p ++ [slash]

def Below (p q : Path) : Prop := (entriesOf p).isPrefixOf q = true ∧ q ≠ p

instance : DecidableRel Below :=
  fun p q => inferInstanceAs (Decidable ((entriesOf p).isPrefixOf q = true ∧ q ≠ p))

theorem entries_longer (p : List UInt8) : p <+: entriesOf p := by
  unfold entriesOf
  split
  · exact List.prefix_rfl
  · exact List.prefix_append p [slash]

theorem below_shorter {p q : Path} (below : Below p q) : p.length < q.length := by
  have begins := (entries_longer p).trans (List.isPrefixOf_iff_prefix.mp below.1)
  have shorter := begins.length_le
  have different : p.length ≠ q.length := fun same => below.2 (begins.eq_of_length same).symm
  omega

theorem paths_layered : Layered Below List.length := by
  constructor
  · intro p q r one two
    have first := List.isPrefixOf_iff_prefix.mp one.1
    have second := (entries_longer q).trans (List.isPrefixOf_iff_prefix.mp two.1)
    refine ⟨List.isPrefixOf_iff_prefix.mpr (first.trans second), ?_⟩
    rintro rfl
    have first := below_shorter one
    have second := below_shorter two
    omega
  · exact below_shorter

/-- Nothing mounted hides another mount: umount finds the mount at its path. It
    is refused while something is mounted below or the mount is otherwise busy. -/
def treeKernel (busy : Path → Bool) : Kernel where
  can p m := decide (p ∈ m ∧ busy p = false ∧ m.countP (Below p) = 0)
  mounted := by
    intro p m possible
    exact (of_decide_eq_true possible).1
  monotone := by
    intro p q m different possible _
    obtain ⟨member, idle, free⟩ := of_decide_eq_true possible
    refine decide_eq_true ⟨(Multiset.mem_erase_of_ne different).mpr member, idle, ?_⟩
    exact Nat.le_zero.mp (free ▸ Multiset.countP_le_of_le _ (Multiset.erase_le q m))

theorem tree_possible (busy : Path → Bool) (p : Path) (m : Multiset Path) :
    (treeKernel busy).possible p m ↔ p ∈ m ∧ busy p = false ∧ ∀ q ∈ m, ¬ Below p q := by
  simp only [Kernel.possible, treeKernel, decide_eq_true_eq, Multiset.countP_eq_zero]

def shouldUmount (p : Path) : Bool := notInTable p

/-- The mounts that umount is not called for with their own path, and those it
    is refused for. -/
def Fixed (busy : Path → Bool) (p : Path) : Prop :=
  ¬ (shouldUmount p = true ∧ Plain p) ∨ busy p = true

instance (busy : Path → Bool) : DecidablePred (Fixed busy) :=
  fun (p : List UInt8) =>
    inferInstanceAs (Decidable (¬ (shouldUmount p = true ∧ Plain p) ∨ busy p = true))

def placeOf (m : Mount) : Path := m.path
def writtenOf (m : Mount) : Path := escape m.path

def mountedAt (mounts : List Mount) : Multiset Path := ↑(mounts.map placeOf)

def readPaths (mounts : List Mount) : List Path :=
  ((mounts.map writtenOf).filter shouldUmount).reverse

theorem escape_fixed_plain {text : List UInt8} (unbroken : Unbroken text)
    (same : escape text = text) : Plain text := by
  have none : backslash ∉ text := by
    intro member
    have longer := (escape_longer text).2 member
    rw [same] at longer
    omega
  intro c member
  refine ⟨Bool.eq_false_iff.mpr fun blank => ?_, fun found => none (found ▸ member)⟩
  have escaped : backslash ∈ escapeByte c := by
    obtain ⟨vertical, form, carriage⟩ := unbroken c member
    rcases space_cases blank with rfl | rfl | rfl | found | found | found
    · decide
    · decide
    · decide
    · exact absurd found vertical
    · exact absurd found form
    · exact absurd found carriage
  exact none (same ▸ List.mem_flatMap.mpr ⟨c, member, escaped⟩)

section Read
variable {mounts : List Mount}
variable (unbroken : ∀ m ∈ mounts, Unbroken m.root ∧ Unbroken m.path)
variable (apart : ∀ a ∈ mounts, ∀ b ∈ mounts, writtenOf a = placeOf b → placeOf a = placeOf b)

include unbroken in
theorem mountpoints_read :
    getMountpoints true (fun _ => true) (mountinfo mounts) = readPaths mounts := by
  have lines := @read_lines mounts unbroken (mountinfo mounts) [] 0 (drop_first mounts)
  rw [getMountpoints, if_pos rfl, lines, List.append_nil]
  rfl

include unbroken apart in
theorem read_plain {p : Path} (listed : p ∈ readPaths mounts) (mounted : p ∈ mountedAt mounts) :
    shouldUmount p = true ∧ Plain p := by
  obtain ⟨among, outside⟩ := List.mem_filter.mp (List.mem_reverse.mp listed)
  obtain ⟨a, first, written⟩ := List.mem_map.mp among
  obtain ⟨b, second, rfl⟩ := List.mem_map.mp (Multiset.mem_coe.mp mounted)
  have same : a.path = b.path := apart a first b second written
  have kept : escape b.path = b.path := (congrArg escape same).symm.trans written
  exact ⟨outside, escape_fixed_plain (unbroken b second).2 kept⟩

include apart in
theorem read_count {p : Path} (mounted : p ∈ mountedAt mounts) (outside : shouldUmount p = true)
    (plain : Plain p) : (readPaths mounts).count p = (mountedAt mounts).count p := by
  obtain ⟨b, second, rfl⟩ := List.mem_map.mp (Multiset.mem_coe.mp mounted)
  rw [readPaths, List.count_reverse, List.count_filter outside, mountedAt, Multiset.coe_count]
  simp only [List.count, List.countP_map]
  refine List.countP_congr ?_
  intro a first
  simp only [Function.comp_apply, beq_iff_eq]
  constructor
  · exact apart a first b second
  · intro same
    have written : escape a.path = escape b.path := congrArg escape same
    exact written.trans (escape_plain plain)

end Read

section Ending
variable {busy : Path → Bool} {mounts : List Mount} {list : List MountPoint} {final : Umounting}
variable {done : List Path}
variable (unbroken : ∀ m ∈ mounts, Unbroken m.root ∧ Unbroken m.path)
variable (apart : ∀ a ∈ mounts, ∀ b ∈ mounts, writtenOf a = placeOf b → placeOf a = placeOf b)
variable (listed : paths list = readPaths mounts)
variable (ended : Ended (treeKernel busy) list (mountedAt mounts) final done)
include apart listed ended

include unbroken in
theorem unmounted_loose : ∀ p ∈ done, shouldUmount p = true ∧ Plain p := by
  intro p member
  have mounted : p ∈ mountedAt mounts := by
    rw [← legal_unmounts ended.legal]
    exact Multiset.mem_add.mpr (.inr (Multiset.mem_coe.mpr member))
  refine read_plain unbroken apart ?_ mounted
  rw [← listed]
  exact ended.entries.subset (List.mem_append_left _ member)

include unbroken in
theorem unmounting_removes :
    Legal (Removable Below (Fixed busy)) remove (mountedAt mounts) done := by
  have loose := unmounted_loose unbroken apart listed ended
  refine legal_weaker ended.legal ?_
  intro p member m possible
  obtain ⟨present, idle, free⟩ := (tree_possible busy p m).mp possible
  refine ⟨present, ?_, free⟩
  rintro (unread | working)
  · exact unread (loose p member)
  · rw [idle] at working
    cases working

theorem nothing_removable :
    ∀ p ∈ final.mounted, ¬ Removable Below (Fixed busy) p final.mounted := by
  rintro p - ⟨present, movable, free⟩
  have whole := legal_unmounts ended.legal
  rw [← ended.state] at whole
  have mounted : p ∈ mountedAt mounts := by
    rw [← whole]
    exact Multiset.mem_add.mpr (.inl present)
  have readable : shouldUmount p = true ∧ Plain p := by
    by_contra unread
    exact movable (.inl unread)
  have idle : busy p = false := Bool.eq_false_iff.mpr fun working => movable (.inr working)
  -- every mount at p has an entry, so one that is left has an entry that is left
  have counted := read_count apart mounted readable.1 readable.2
  have entries := ended.entries.count_eq p
  have mounts := congrArg (Multiset.count p) whole
  have some := Multiset.count_pos.mpr present
  rw [listed, List.count_append] at entries
  rw [Multiset.count_add, Multiset.coe_count] at mounts
  have left : p ∈ paths final.list := List.count_pos_iff.mp (by omega)
  obtain ⟨mp, inside, rfl⟩ := List.mem_map.mp left
  exact ended.stuck mp inside ((tree_possible busy mp.path final.mounted).mpr ⟨present, idle, free⟩)

end Ending

/-- All of mount_umount_filesystems on a tree of mounts: what is mounted in the
    end are the mounts with a fixed one at their place or below it, whatever the
    order of the lines and wherever the blocks are allocated. -/
theorem umount_leaves_held (busy : Path → Bool) (mounts : List Mount)
    (strings : Allocator (List UInt8) Path) (nodes : Allocator (List UInt8) (Cell Nat))
    (unbroken : ∀ m ∈ mounts, Unbroken m.root ∧ Unbroken m.path)
    (apart : ∀ a ∈ mounts, ∀ b ∈ mounts, writtenOf a = placeOf b → placeOf a = placeOf b) :
    ∃ m last, GetsMountpoints (fun _ => true) strings nodes true (mountinfo mounts) m ∧
      Ends (faulting (walkStep (treeKernel busy).answers)) (walkStart m (mountedAt mounts)) (some last) ∧
      last.mounted = (mountedAt mounts).filter (Held Below (Fixed busy) (mountedAt mounts)) := by
  obtain ⟨m, xs, gets, keeps, read⟩ :=
    mountpoints_kept (fun _ => true) strings nodes true (mountinfo mounts)
  obtain ⟨final, last, ends, walked, ⟨front, back, walks⟩, _⟩ :=
    walk_kept (treeKernel busy).answers keeps (mountedAt mounts)
  have distinct : ((xs.map Entry.point).map MountPoint.address).Nodup := by
    rw [point_nodes]
    exact keeps_nodup keeps
  obtain ⟨other, same, done, ended⟩ := umount_ends (treeKernel busy) distinct (mountedAt mounts)
  obtain rfl := ends_unique ends same
  have listed : paths (xs.map Entry.point) = readPaths mounts := by
    rw [← mountpoints_read unbroken, read, paths, List.map_map]
    rfl
  have removes := unmounting_removes unbroken apart listed ended
  have stuck := nothing_removable apart listed ended
  have state : final.mounted = after remove (mountedAt mounts) done := ended.state
  refine ⟨m, last, gets, walked, ?_⟩
  rw [← walks.mounted, state]
  rw [state] at stuck
  exact stuck_leaves_held paths_layered removes stuck

def samplePaths : List (List UInt8) :=
  [ascii "/", ascii "/proc", ascii "/home", ascii "/mnt", ascii "/mnt/a b", ascii "/home/data"]

theorem sample_paths_placed : ∀ path ∈ samplePaths, path ≠ [] ∧ 0 ∉ path := by decide +kernel

def sampleMounts : List Mount :=
  samplePaths.attach.map (fun path => diskMount path.1 (sample_paths_placed path.1 path.2))

theorem umount_leaves_mnt :
    ∃ m last, GetsMountpoints (fun _ => true) firstFit firstFit true (mountinfo sampleMounts) m ∧
      Ends (faulting (walkStep (treeKernel (fun _ => false)).answers))
        (walkStart m (mountedAt sampleMounts)) (some last) ∧
      last.mounted = @Multiset.ofList Path
        [ascii "/", ascii "/proc", ascii "/mnt", ascii "/mnt/a b"] := by
  obtain ⟨m, last, gets, walked, left⟩ := umount_leaves_held (fun _ => false) sampleMounts firstFit
    firstFit (by decide +kernel) (by decide +kernel)
  exact ⟨m, last, gets, walked, left.trans (by decide +kernel)⟩

end MountTree
