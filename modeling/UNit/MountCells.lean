import UNit.LinkedCells
import UNit.Mountinfo
import UNit.Umount

/-!
The list of mount points as the source keeps it: a block for each node, and a
second one for the path that fscanf has stored. The reader frees the paths it
does not keep, the walk frees an entry while it stands on it, and what could
not be unmounted is freed at the end. The pointer code is followed next to the
list models of the reader and of the walk.
-/
namespace MountCells
open LoopRuns LinkedCells DecimalText Mountinfo Umount

/-- The item of a node is the address of its path. -/
structure MountList where
  nodes : Heap (Cell Nat)
  strings : Heap Path
  list : Option Nat

def noMounts : MountList := ⟨∅, ∅, none⟩

def removeMountpoint (mp : Nat) (m : MountList) : Option MountList := do
  let (nodes, list, _) ← unlink mp m.nodes m.list
  let gone ← nodes.lookup mp
  let strings ← release m.strings gone.item
  let nodes ← release nodes mp
  some ⟨nodes, strings, list⟩

def freeLoop : Nat → MountList → Option MountList
  | 0, m => if m.list = none then some m else none
  | fuel + 1, m =>
    match m.list with
    | none => some m
    | some mp => do
      let m ← removeMountpoint mp m
      freeLoop fuel m

def freeMountpoints (m : MountList) : Option MountList := freeLoop m.nodes.keys.card m

structure CellReading where
  text : List UInt8
  entries : MountList
  allocations : Nat

section Reading
variable (calloc : Nat → Bool) (strings : Allocator (List UInt8) Path)
variable (nodes : Allocator (List UInt8) (Cell Nat))

/-- One iteration of get_mountpoints; none is a fault. The path is on the heap
    as soon as fscanf has stored it. -/
def mountpointStep (st : CellReading) : Option (CellReading ⊕ MountList) :=
  let scanned := fscanf mountinfoFormat [] st.text
  if scanned.result ≠ 1 then
    if scanned.result = eof then some (.inr st.entries)
    else some (.inl { st with text := scanned.rest })
  else
    let path := scanned.stored.headD []
    let place := strings.place st.text st.entries.strings
    let stored := st.entries.strings.insert place path
    let shouldUmount := notInTable path
    if !shouldUmount then do
      let stored ← release stored place
      some (.inl { st with
        text := scanned.rest
        entries := { st.entries with strings := stored } })
    else if calloc st.allocations then
      let entry := nodes.place st.text st.entries.nodes
      some (.inl {
        text := scanned.rest
        entries := ⟨st.entries.nodes.insert entry ⟨st.entries.list, place⟩, stored, some entry⟩
        allocations := st.allocations + 1 })
    else do
      let stored ← release stored place
      some (.inr { st.entries with strings := stored })

def GetsMountpoints (fopen : Bool) (text : List UInt8) (m : MountList) : Prop :=
  if fopen then Ends (faulting (mountpointStep calloc strings nodes)) ⟨text, noMounts, 0⟩ (some m)
  else m = noMounts

end Reading

structure CellWalk where
  entries : MountList
  mp : Option Nat
  mounted : Multiset Path
  changed : Bool
  log : List (Nat × Bool)

def walkStep (umount : Answers) (st : CellWalk) : Option (CellWalk ⊕ CellWalk) :=
  match st.mp with
  | some mp => do
    let cell ← st.entries.nodes.lookup mp
    let path ← st.entries.strings.lookup cell.item
    if umount st.log path st.mounted then do
      let entries ← removeMountpoint mp st.entries
      some (.inl ⟨entries, cell.next, st.mounted.erase path, true, st.log ++ [(mp, true)]⟩)
    else some (.inl { st with mp := cell.next, log := st.log ++ [(mp, false)] })
  | none =>
    if st.changed then some (.inl { st with mp := st.entries.list, changed := false })
    else some (.inr st)

def walkStart (m : MountList) (mounted : Multiset Path) : CellWalk :=
  ⟨m, m.list, mounted, false, []⟩

structure Entry where
  node : Nat
  string : Nat
  path : Path

def Entry.cell (e : Entry) : Nat × Nat := (e.node, e.string)
def Entry.point (e : Entry) : MountPoint := ⟨e.node, e.path⟩

/-- Both heaps hold the blocks of these entries and nothing else. -/
structure Keeps (m : MountList) (xs : List Entry) : Prop where
  nodes : Owns m.nodes m.list (xs.map Entry.cell)
  paths : ∀ e ∈ xs, m.strings.lookup e.string = some e.path
  apart : (xs.map Entry.string).Nodup
  strings : m.strings.keys = (xs.map Entry.string).toFinset

theorem keeps_nothing : Keeps noMounts [] := ⟨owns_empty, by simp, by simp, by simp [noMounts]⟩

theorem nothing_kept {m : MountList} (keeps : Keeps m []) : m = noMounts := by
  obtain ⟨nodes, list⟩ := owns_nothing keeps.nodes
  have strings := empty_of_keys (show m.strings.keys = ∅ by simpa using keeps.strings)
  cases m
  simp_all [noMounts]

theorem cell_nodes (xs : List Entry) : (xs.map Entry.cell).map Prod.fst = xs.map Entry.node := by
  simp [Entry.cell]

theorem point_nodes (xs : List Entry) :
    (xs.map Entry.point).map MountPoint.address = xs.map Entry.node := by
  simp [Entry.point]

theorem keeps_nodup {m : MountList} {xs : List Entry} (keeps : Keeps m xs) :
    (xs.map Entry.node).Nodup := by
  rw [← cell_nodes]
  exact chain_nodup keeps.nodes.chain

theorem keeps_first {m : MountList} {xs : List Entry} (keeps : Keeps m xs) :
    m.list = xs.head?.map Entry.node := by
  have chain := keeps.nodes.chain
  cases xs with
  | nil => exact chain
  | cons e rest => exact chain.1

section Split
variable {m : MountList} {front back : List Entry} {e : Entry}

theorem keeps_node (keeps : Keeps m (front ++ e :: back)) :
    m.nodes.lookup e.node = some ⟨back.head?.map Entry.node, e.string⟩ := by
  have chain := keeps.nodes.chain
  rw [List.map_append, List.map_cons] at chain
  have held := chain_next chain
  rwa [List.head?_map, Option.map_map] at held

theorem keeps_removed (keeps : Keeps m (front ++ e :: back)) :
    ∃ m', removeMountpoint e.node m = some m' ∧ Keeps m' (front ++ back) := by
  have owned := keeps.nodes
  have distinct := chain_nodup owned.chain
  rw [List.map_append, List.map_cons] at owned distinct
  have member : e.node ∈ (front.map Entry.cell ++ e.cell :: back.map Entry.cell).map Prod.fst := by
    simp [Entry.cell]
  obtain ⟨h', list, unlinked, rest⟩ := unlink_chain owned.chain member
  have split : without e.node (front.map Entry.cell ++ e.cell :: back.map Entry.cell) =
      (front ++ back).map Entry.cell := by
    rw [List.map_append]
    exact without_split (x := e.cell) distinct
  have freed := unlinked_freed owned rest
  rw [split] at freed
  have node : h'.lookup e.node = some ⟨back.head?.map Entry.node, e.string⟩ :=
    rest.target.trans (keeps_node keeps)
  have path := keeps.paths e (by simp)
  have apart := keeps.apart
  rw [List.map_append, List.map_cons, List.nodup_middle, List.nodup_cons] at apart
  refine ⟨⟨h'.erase e.node, m.strings.erase e.string, list⟩, ?_, freed, ?_, ?_, ?_⟩
  · simp [removeMountpoint, unlinked, node, release_allocated node, release_allocated path]
  · intro other member
    have different : other.string ≠ e.string := by
      intro same
      apply apart.1
      rw [← List.map_append, ← same]
      exact List.mem_map_of_mem member
    rw [Finmap.lookup_erase_ne different]
    apply keeps.paths
    simp only [List.mem_append, List.mem_cons] at member ⊢
    tauto
  · rw [List.map_append]
    exact apart.2
  · ext a
    have other : a ∈ front.map Entry.string ++ back.map Entry.string → a ≠ e.string :=
      fun member same => apart.1 (same ▸ member)
    rw [Finmap.keys_erase, keeps.strings, List.map_append, List.map_append, List.map_cons]
    simp only [Finset.mem_erase, List.mem_toFinset, List.mem_append, List.mem_cons] at other ⊢
    tauto

end Split

theorem free_loop_keeps {fuel : Nat} {m : MountList} {xs : List Entry} (keeps : Keeps m xs)
    (enough : xs.length ≤ fuel) : freeLoop fuel m = some noMounts := by
  induction xs generalizing fuel m with
  | nil =>
    rw [nothing_kept keeps]
    cases fuel <;> simp [freeLoop, noMounts]
  | cons e rest ih =>
    obtain ⟨fuel, rfl⟩ : ∃ n, fuel = n + 1 := ⟨fuel - 1, by simp at enough; omega⟩
    have first : m.list = some e.node := keeps_first keeps
    obtain ⟨m', removed, kept⟩ := keeps_removed (show Keeps m ([] ++ e :: rest) from keeps)
    have later := ih kept (by simpa using enough)
    simp [freeLoop, first, removed, later]

theorem free_mountpoints_keeps {m : MountList} {xs : List Entry} (keeps : Keeps m xs) :
    freeMountpoints m = some noMounts := by
  have long := chain_length keeps.nodes.chain
  rw [List.length_map] at long
  exact free_loop_keeps keeps long

structure Walks (model : Umounting) (st : CellWalk) (front back : List Entry) : Prop where
  keeps : Keeps st.entries (front ++ back)
  list : model.list = (front ++ back).map Entry.point
  pointer : st.mp = back.head?.map Entry.node
  mp : model.mp = st.mp
  mounted : model.mounted = st.mounted
  changed : model.changed = st.changed
  log : model.log = st.log

def Follows (model : Umounting) (st : CellWalk) : Prop :=
  ∃ front back, Walks model st front back

theorem first_point (xs : List Entry) : first (xs.map Entry.point) = xs.head?.map Entry.node := by
  cases xs <;> rfl

theorem walk_step_follows (umount : Answers) {model : Umounting} {st : CellWalk}
    (follows : Follows model st) :
    (∃ next next', umountBody umount model = .inl next ∧
      walkStep umount st = some (.inl next') ∧ Follows next next') ∨
    ∃ last last', umountBody umount model = .inr last ∧
      walkStep umount st = some (.inr last') ∧ Follows last last' := by
  obtain ⟨front, back, walks⟩ := follows
  have pointer := walks.mp.trans walks.pointer
  cases back with
  | nil =>
    have whole : Keeps st.entries (front ++ []) := walks.keeps
    rw [List.append_nil] at whole
    have listed : model.list = front.map Entry.point := by simpa using walks.list
    have here : st.mp = none := walks.pointer
    by_cases changed : st.changed = true
    · have again : first model.list = st.entries.list := by
        rw [listed, first_point, keeps_first whole]
      refine .inl ⟨{ model with mp := first model.list, changed := false },
        { st with mp := st.entries.list, changed := false }, ?_, ?_, [], front, whole, listed,
        keeps_first whole, again, walks.mounted, rfl, walks.log⟩
      · simp [umountBody, pointer, walks.changed, changed]
      · simp [walkStep, here, changed]
    · refine .inr ⟨model, st, ?_, ?_, front, [], walks⟩
      · simp [umountBody, pointer, walks.changed, changed]
      · simp [walkStep, here, changed]
  | cons e back =>
    have held := keeps_node walks.keeps
    have path := walks.keeps.paths e (by simp)
    have here : st.mp = some e.node := walks.pointer
    have listed : model.list = front.map Entry.point ++ e.point :: back.map Entry.point := by
      simpa using walks.list
    have distinct : ((front.map Entry.point ++ e.point :: back.map Entry.point).map
        MountPoint.address).Nodup := by
      rw [← listed, walks.list, point_nodes]
      exact keeps_nodup walks.keeps
    have next : nextOf e.node model.list = back.head?.map Entry.node := by
      rw [listed, ← first_point]
      exact next_of_split distinct
    have named : pathOf e.node model.list = e.path := by
      rw [listed]
      exact path_of_split distinct
    have removed : Umount.removeMountpoint e.node model.list = (front ++ back).map Entry.point := by
      rw [listed, List.map_append]
      exact remove_split distinct
    have same := walks.mounted
    have calls := walks.log
    by_cases success : umount st.log e.path st.mounted = true
    · obtain ⟨entries, gone, kept⟩ := keeps_removed walks.keeps
      refine .inl ⟨⟨(front ++ back).map Entry.point, back.head?.map Entry.node,
          model.mounted.erase e.path, true, model.log ++ [(e.node, true)]⟩,
        ⟨entries, back.head?.map Entry.node, st.mounted.erase e.path, true,
          st.log ++ [(e.node, true)]⟩, ?_, ?_, front, back, kept, rfl, rfl, rfl, by rw [same], rfl,
        by rw [walks.log]⟩
      · simp [umountBody, walks.mp, here, next, named, removed, same, calls, success]
      · simp [walkStep, here, held, path, success, gone]
    · refine .inl ⟨{ model with
          mp := back.head?.map Entry.node
          log := model.log ++ [(e.node, false)] },
        { st with
          mp := back.head?.map Entry.node
          log := st.log ++ [(e.node, false)] }, ?_, ?_, front ++ [e], back, ?_, ?_, rfl, rfl, same,
        walks.changed, by rw [walks.log]⟩
      · simp [umountBody, walks.mp, here, next, named, same, calls, success]
      · simp [walkStep, here, held, path, success]
      · simpa using walks.keeps
      · simpa using walks.list

section Reader
variable {m : MountList} {xs : List Entry} {place : Nat}

theorem strings_fresh (keeps : Keeps m xs) (unused : place ∉ m.strings) :
    ∀ e ∈ xs, e.string ≠ place := by
  rintro e member rfl
  exact unused (Finmap.mem_of_lookup_eq_some (keeps.paths e member))

theorem stored_freed (strings : Heap Path) (path : Path) (unused : place ∉ strings) :
    release (strings.insert place path) place = some strings := by
  rw [release_allocated (Finmap.lookup_insert strings)]
  congr 1
  apply Finmap.ext_lookup
  intro a
  by_cases same : a = place
  · rw [same, Finmap.lookup_erase]
    exact (Finmap.lookup_eq_none.mpr unused).symm
  · rw [Finmap.lookup_erase_ne same, Finmap.lookup_insert_of_ne _ same]

theorem keeps_pushed (keeps : Keeps m xs) {entry : Nat} (path : Path)
    (string : place ∉ m.strings) (node : entry ∉ m.nodes) :
    Keeps ⟨m.nodes.insert entry ⟨m.list, place⟩, m.strings.insert place path, some entry⟩
      (⟨entry, place, path⟩ :: xs) := by
  have fresh := strings_fresh keeps string
  refine ⟨owns_pushed keeps.nodes node, ?_, ?_, ?_⟩
  · intro e member
    rcases List.mem_cons.mp member with rfl | before
    · exact Finmap.lookup_insert m.strings
    · rw [Finmap.lookup_insert_of_ne _ (fresh e before)]
      exact keeps.paths e before
  · rw [List.map_cons, List.nodup_cons]
    refine ⟨?_, keeps.apart⟩
    intro again
    obtain ⟨e, member, same⟩ := List.mem_map.mp again
    exact fresh e member same
  · simp [keys_insert, keeps.strings]

end Reader

structure Lists (model : Reading) (st : CellReading) : Prop where
  text : model.text = st.text
  allocations : model.entries = st.allocations
  entries : ∃ xs, Keeps st.entries xs ∧ model.list = xs.map Entry.path

theorem mountpoint_step_lists (calloc : Nat → Bool) (strings : Allocator (List UInt8) Path)
    (nodes : Allocator (List UInt8) (Cell Nat)) {model : Reading} {st : CellReading}
    (lists : Lists model st) :
    (∃ next next', mountpointsBody calloc model = .inl next ∧
      mountpointStep calloc strings nodes st = some (.inl next') ∧ Lists next next') ∨
    ∃ list m, mountpointsBody calloc model = .inr list ∧
      mountpointStep calloc strings nodes st = some (.inr m) ∧
      ∃ xs, Keeps m xs ∧ list = xs.map Entry.path := by
  obtain ⟨xs, keeps, listed⟩ := lists.entries
  have unused := strings.unused st.text st.entries.strings
  generalize placed : strings.place st.text st.entries.strings = place at unused
  generalize scan : fscanf mountinfoFormat [] st.text = scanned
  by_cases one : scanned.result = 1
  · generalize stored : scanned.stored.headD [] = path
    have freed := stored_freed st.entries.strings path unused
    have body : mountpointsBody calloc model = if path ∈ mountTable then
        .inl { model with text := scanned.rest } else if calloc model.entries then
        .inl ⟨scanned.rest, path :: model.list, model.entries + 1⟩ else .inr model.list := by
      simp only [mountpointsBody, lists.text, scan, one, stored, ne_eq, not_true_eq_false,
        ↓reduceIte]
    have cells : mountpointStep calloc strings nodes st = if path ∈ mountTable then
        some (.inl { st with text := scanned.rest }) else if calloc st.allocations then
        some (.inl ⟨scanned.rest, ⟨st.entries.nodes.insert
          (nodes.place st.text st.entries.nodes) ⟨st.entries.list, place⟩,
          st.entries.strings.insert place path, some (nodes.place st.text st.entries.nodes)⟩,
          st.allocations + 1⟩) else some (.inr st.entries) := by
      by_cases system : path ∈ mountTable
      · simp only [mountpointStep, scan, one, stored, placed, freed, notInTable, system, ne_eq,
          not_true_eq_false, decide_false, Bool.not_false, ↓reduceIte, Option.bind_eq_bind,
          Option.bind_some]
      · simp only [mountpointStep, scan, one, stored, placed, freed, notInTable, system, ne_eq,
          not_true_eq_false, not_false_eq_true, decide_true, Bool.not_true, Bool.false_eq_true,
          ↓reduceIte, Option.bind_eq_bind, Option.bind_some]
    by_cases system : path ∈ mountTable
    · rw [if_pos system] at body cells
      exact .inl ⟨_, _, body, cells, rfl, lists.allocations, xs, keeps, listed⟩
    · rw [if_neg system] at body cells
      by_cases enough : calloc st.allocations = true
      · rw [lists.allocations, if_pos enough] at body
        rw [if_pos enough] at cells
        have pushed := keeps_pushed keeps path unused (nodes.unused st.text st.entries.nodes)
        exact .inl ⟨_, _, body, cells, rfl, rfl, _, pushed, congrArg _ listed⟩
      · rw [lists.allocations, if_neg enough] at body
        rw [if_neg enough] at cells
        exact .inr ⟨_, _, body, cells, xs, keeps, listed⟩
  · by_cases ended : scanned.result = eof
    · have other : ¬ eof = 1 := by decide
      refine .inr ⟨model.list, st.entries, ?_, ?_, xs, keeps, listed⟩
      · simp only [mountpointsBody, lists.text, scan, other, ended, ne_eq, not_false_eq_true,
          ↓reduceIte]
      · simp only [mountpointStep, scan, other, ended, ne_eq, not_false_eq_true, ↓reduceIte]
    · refine .inl ⟨{ model with text := scanned.rest }, { st with text := scanned.rest }, ?_, ?_,
        rfl, lists.allocations, xs, keeps, listed⟩
      · simp only [mountpointsBody, lists.text, scan, one, ended, ne_eq, not_false_eq_true,
          ↓reduceIte]
      · simp only [mountpointStep, scan, one, ended, ne_eq, not_false_eq_true, ↓reduceIte]

theorem mountpoints_kept (calloc : Nat → Bool) (strings : Allocator (List UInt8) Path)
    (nodes : Allocator (List UInt8) (Cell Nat)) (fopen : Bool) (text : List UInt8) :
    ∃ m xs, GetsMountpoints calloc strings nodes fopen text m ∧ Keeps m xs ∧
      getMountpoints fopen calloc text = xs.map Entry.path := by
  cases fopen with
  | false => exact ⟨noMounts, [], rfl, keeps_nothing, rfl⟩
  | true =>
    obtain ⟨_, follows⟩ := ends_refined Lists
      (fun list m => ∃ xs, Keeps m xs ∧ list = xs.map Entry.path)
      (fun _ _ lists => mountpoint_step_lists calloc strings nodes lists)
      (show Lists ⟨text, [], 0⟩ ⟨text, noMounts, 0⟩ from ⟨rfl, rfl, [], keeps_nothing, rfl⟩)
    have model : Ends (mountpointsBody calloc) ⟨text, [], 0⟩ (getMountpoints true calloc text) := by
      rw [getMountpoints, if_pos rfl]
      exact outcome_ends _
    obtain ⟨m, ends, xs, keeps, listed⟩ := follows _ model
    exact ⟨m, xs, ends, keeps, listed⟩

theorem walk_kept (umount : Answers) {m : MountList} {xs : List Entry} (keeps : Keeps m xs)
    (mounted : Multiset Path) :
    ∃ final last, Ends (umountBody umount) (umountStart (xs.map Entry.point) mounted) final ∧
      Ends (faulting (walkStep umount)) (walkStart m mounted) (some last) ∧ Follows final last ∧
      Logged final := by
  have distinct : ((xs.map Entry.point).map MountPoint.address).Nodup := by
    rw [point_nodes]
    exact keeps_nodup keeps
  obtain ⟨final, ends, logged⟩ := umount_logged umount distinct mounted
  have start : Follows (umountStart (xs.map Entry.point) mounted) (walkStart m mounted) :=
    ⟨[], xs, keeps, rfl, keeps_first keeps, by simp [umountStart, walkStart, first_point,
      keeps_first keeps], rfl, rfl, rfl⟩
  obtain ⟨_, follows⟩ := ends_refined Follows Follows
    (fun _ _ follows => walk_step_follows umount follows) start
  obtain ⟨last, done, after⟩ := follows final ends
  exact ⟨final, last, ends, done, after, logged⟩

/-- All of mount_umount_filesystems: whatever the text, the allocations that fail
    and the answers of umount, it comes to its end without touching a freed block,
    gives every block back, and makes the calls of the list model, none of them
    for an entry that it has unmounted. -/
theorem umount_filesystems_frees_all (umount : Answers) (calloc : Nat → Bool)
    (strings : Allocator (List UInt8) Path) (nodes : Allocator (List UInt8) (Cell Nat))
    (fopen : Bool) (text : List UInt8) (mounted : Multiset Path) :
    ∃ m last, GetsMountpoints calloc strings nodes fopen text m ∧
      Ends (faulting (walkStep umount)) (walkStart m mounted) (some last) ∧
      freeMountpoints last.entries = some noMounts ∧
      (∀ before node later, last.log = before ++ (node, true) :: later →
        ∀ ok, (node, ok) ∉ later) ∧
      ∃ list final, (list.map MountPoint.address).Nodup ∧
        paths list = getMountpoints fopen calloc text ∧
        Ends (umountBody umount) (umountStart list mounted) final ∧
        last.mounted = final.mounted ∧ last.log = final.log := by
  obtain ⟨m, xs, gets, keeps, listed⟩ := mountpoints_kept calloc strings nodes fopen text
  obtain ⟨final, last, ends, done, ⟨front, back, walks⟩, logged⟩ := walk_kept umount keeps mounted
  have distinct : ((xs.map Entry.point).map MountPoint.address).Nodup := by
    rw [point_nodes]
    exact keeps_nodup keeps
  refine ⟨m, last, gets, done, free_mountpoints_keeps walks.keeps, ?_, xs.map Entry.point, final,
    distinct, ?_, ends, walks.mounted.symm, walks.log.symm⟩
  · rw [← walks.log]
    exact logged.once
  · rw [listed, paths, List.map_map]
    rfl

def busyOnce : Answers := fun log _ _ => decide (log ≠ [])

theorem busy_once_walk {a b : Nat} (apart : b ≠ a) (p q : Path) (mounted : Multiset Path) :
    Ends (umountBody busyOnce) (umountStart [⟨b, p⟩, ⟨a, q⟩] mounted)
      ⟨[], none, (mounted.erase q).erase p, false, [(b, false), (a, true), (b, true)]⟩ := by
  refine ⟨6, ?_⟩
  simp [iterate, umountBody, umountStart, first, nextOf, pathOf, Umount.removeMountpoint, busyOnce,
    apart]
  rfl

def mountA : Mount := diskMount (ascii "/a") (by decide +kernel)
def mountB : Mount := diskMount (ascii "/b") (by decide +kernel)

theorem umount_filesystems_frees_busy : ∃ m last,
    GetsMountpoints (fun _ => true) firstFit firstFit true (mountinfo [mountA, mountB]) m ∧
    Ends (faulting (walkStep busyOnce)) (walkStart m {mountA.path, mountB.path}) (some last) ∧
    freeMountpoints last.entries = some noMounts ∧ last.mounted = 0 ∧
    ∃ a b, last.log = [(b, false), (a, true), (b, true)] := by
  obtain ⟨m, last, gets, ends, freed, _, list, final, distinct, read, walked, left, log⟩ :=
    umount_filesystems_frees_all busyOnce (fun _ => true) firstFit firstFit true
      (mountinfo [mountA, mountB]) {mountA.path, mountB.path}
  have text : getMountpoints true (fun _ => true) (mountinfo [mountA, mountB]) =
      [mountB.path, mountA.path] := by
    decide +kernel
  rw [text] at read
  obtain ⟨⟨b, p⟩, rest, rfl, rfl, later⟩ := List.map_eq_cons_iff.mp read
  obtain ⟨⟨a, q⟩, rest, rfl, rfl, done⟩ := List.map_eq_cons_iff.mp later
  obtain rfl := List.map_eq_nil_iff.mp done
  have apart : b ≠ a := by simpa using distinct
  obtain rfl := ends_unique walked (busy_once_walk apart _ _ _)
  have none : (({mountA.path, mountB.path} : Multiset Path).erase mountA.path).erase
      mountB.path = 0 := by
    decide +kernel
  exact ⟨m, last, gets, ends, freed, left.trans none, a, b, log⟩

end MountCells
