import UNit.InittabParser
import UNit.LinkedCells

/-!
The lists of the inittab as the source builds them: one block for each line
that is tried, linked into its list when the line is an entry and freed when it
is not. The pointer code is followed step by step next to the list model of the
parser. A call that succeeds owns exactly the blocks of its three lists, and a
call that fails has given every block back.
-/
namespace InittabCells
open InittabEntries StdioStream DecimalText InittabParser LoopRuns LinkedCells

abbrev Cells := Heap (Cell InittabEntry)

def behindLoop (order : Int) (h : Cells) : Nat → Nat → Option Nat
  | 0, _ => none
  | fuel + 1, current => do
    let cell ← h.lookup current
    match cell.next with
    | none => some current
    | some next => do
      let following ← h.lookup next
      if following.item.order ≤ order then behindLoop order h fuel next else some current

def addEntryToList (h : Cells) (list : Option Nat) (entry : Nat) :
    Option (Cells × Option Nat) := do
  let new ← h.lookup entry
  match list with
  | none => do
    let h ← setNext h entry none
    some (h, some entry)
  | some first => do
    let head ← h.lookup first
    if head.item.order > new.item.order then do
      let h ← setNext h entry (some first)
      some (h, some entry)
    else do
      let current ← behindLoop new.item.order h h.keys.card first
      let cell ← h.lookup current
      let h ← setNext h entry cell.next
      let h ← setNext h current (some entry)
      some (h, some first)

def freeLoop : Nat → Option Nat → Cells → Option Cells
  | _, none, h => some h
  | 0, some _, _ => none
  | fuel + 1, some p, h => do
    let cell ← h.lookup p
    let h ← release h p
    freeLoop fuel cell.next h

def freeInittabEntryList (list : Option Nat) (h : Cells) : Option Cells :=
  freeLoop h.keys.card list h

structure CellTable where
  heap : Cells
  startupList : Option Nat
  shutdownList : Option Nat
  safeModeEntry : Option Nat

def freeLists (t : CellTable) : Option Cells := do
  let h ← freeInittabEntryList t.startupList t.heap
  let h ← freeInittabEntryList t.shutdownList h
  freeInittabEntryList t.safeModeEntry h

/-- The flag is the result of place_entry. -/
def placeEntry (entry : Nat) (t : CellTable) : Option (Bool × CellTable) := do
  let new ← t.heap.lookup entry
  match new.item.type with
  | .oneShot | .safeOneShot | .service | .safeService => do
    let (heap, list) ← addEntryToList t.heap t.startupList entry
    some (true, { t with heap := heap, startupList := list })
  | .shutdown | .safeShutdown => do
    let (heap, list) ← addEntryToList t.heap t.shutdownList entry
    some (true, { t with heap := heap, shutdownList := list })
  | .safeMode =>
    if t.safeModeEntry = none then do
      let (heap, list) ← addEntryToList t.heap t.safeModeEntry entry
      some (true, { t with heap := heap, safeModeEntry := list })
    else some (false, t)

structure CellRead where
  fp : Stream
  table : CellTable
  error : Bool
  allocations : Nat

def blank : InittabEntry := ⟨[], [], 0, 0, .oneShot⟩

def freed (place : Nat) (st : CellRead) : Option CellRead := do
  let heap ← release st.table.heap place
  some { st with table := { st.table with heap := heap } }

/-- One iteration of read_inittab; none is a fault. -/
def readStep (calloc : Nat → Bool) (allocator : Allocator Nat (Cell InittabEntry))
    (st : CellRead) : Option (CellRead ⊕ CellRead) :=
  if calloc st.allocations then
    let place := allocator.place st.allocations st.table.heap
    let parsed := inittabParseEntry st.fp
    let st := { st with
      fp := parsed.2
      allocations := st.allocations + 1
      table := { st.table with heap := st.table.heap.insert place ⟨none, blank⟩ } }
    match parsed.1 with
    | .ok entry => do
      let heap ← store st.table.heap place ⟨none, entry⟩
      let (placed, table) ← placeEntry place { st.table with heap := heap }
      if placed then some (.inl { st with table := table })
      else (freed place { st with table := table, error := true }).map .inr
    | .error => (freed place { st with error := true }).map .inl
    | .done => (freed place st).map .inr
  else some (.inr { st with error := true })

def readStart (fp : Stream) : CellRead := ⟨fp, ⟨∅, none, none, none⟩, false, 0⟩

/-- What comes behind the loop: the result of read_inittab and the caller's table,
    whose pointers are stale when the lists were freed. -/
def conclude (st : CellRead) : Option (Bool × CellTable) :=
  if st.table.safeModeEntry = none ∨ st.error = true then do
    let heap ← freeLists st.table
    some (false, { st.table with heap := heap })
  else some (true, st.table)

theorem behind_loop_chain {e : InittabEntry} {h : Cells} {fuel : Nat}
    {x : Nat × InittabEntry} {rest : List (Nat × InittabEntry)}
    (chain : Chain h (some x.1) (x :: rest)) (enough : rest.length < fuel) :
    ∃ front y back, x :: rest = front ++ y :: back ∧
      behindLoop e.order h fuel x.1 = some y.1 ∧
      addBehind e ((x :: rest).map Prod.snd) =
        front.map Prod.snd ++ y.2 :: e :: back.map Prod.snd := by
  induction rest generalizing x fuel with
  | nil =>
    obtain ⟨_, next, held, ended⟩ := chain
    have last : next = none := ended
    obtain ⟨fuel, rfl⟩ : ∃ n, fuel = n + 1 := ⟨fuel - 1, by omega⟩
    exact ⟨[], x, [], rfl, by simp [behindLoop, held, last], rfl⟩
  | cons z more ih =>
    obtain ⟨_, next, held, later⟩ := chain
    obtain ⟨fuel, rfl⟩ : ∃ n, fuel = n + 1 := ⟨fuel - 1, by omega⟩
    have link : next = some z.1 := later.1
    subst link
    obtain ⟨following, there⟩ := chain_held later List.mem_cons_self
    by_cases passed : z.2.order ≤ e.order
    · obtain ⟨front, y, back, split, found, added⟩ := ih later (Nat.lt_of_succ_lt_succ enough)
      refine ⟨x :: front, y, back, by rw [split]; rfl, ?_, ?_⟩
      · simp [behindLoop, held, there, passed, found]
      · simp only [List.map_cons] at added ⊢
        simp [addBehind, passed, added]
    · exact ⟨[], x, z :: more, rfl, by simp [behindLoop, held, there, passed],
        by simp [addBehind, passed]⟩

structure Linked (entry : Nat) (e : InittabEntry) (xs ys : List (Nat × InittabEntry))
    (h h' : Cells) (list : Option Nat) : Prop where
  chain : Chain h' list ys
  items : ys.map Prod.snd = InittabParser.addEntryToList (xs.map Prod.snd) e
  cells : (ys.map Prod.fst).Perm (entry :: xs.map Prod.fst)
  keys : h'.keys = h.keys
  frame : ∀ a, a ∉ entry :: xs.map Prod.fst → h'.lookup a = h.lookup a

theorem add_entry_linked {h : Cells} {list : Option Nat} {xs : List (Nat × InittabEntry)}
    {entry : Nat} {next : Option Nat} {e : InittabEntry} (chain : Chain h list xs)
    (held : h.lookup entry = some ⟨next, e⟩) (loose : entry ∉ xs.map Prod.fst) :
    ∃ h' list' ys, addEntryToList h list entry = some (h', list') ∧
      Linked entry e xs ys h h' list' := by
  have front : ∀ p : Option Nat, Chain h p xs →
      Chain (h.insert entry ⟨p, e⟩) (some entry) ((entry, e) :: xs) := by
    intro p chain
    refine ⟨rfl, p, Finmap.lookup_insert h, chain_congr chain ?_⟩
    intro a member
    exact Finmap.lookup_insert_of_ne h (fun same => loose (same ▸ member))
  have frame : ∀ (p : Option Nat) (a : Nat), a ∉ entry :: xs.map Prod.fst →
      (h.insert entry ⟨p, e⟩).lookup a = h.lookup a := by
    intro p a outside
    exact Finmap.lookup_insert_of_ne h (fun same => outside (same ▸ List.mem_cons_self))
  cases xs with
  | nil =>
    obtain rfl := chain
    refine ⟨_, _, _, ?_, front none rfl, rfl, .refl _, keys_insert_held _ held, frame none⟩
    simp [addEntryToList, held, set_next_allocated held]
  | cons x rest =>
    have long := chain_length chain
    obtain ⟨rfl, following, there, later⟩ := chain
    by_cases ahead : x.2.order > e.order
    · refine ⟨_, _, _, ?_, front _ ⟨rfl, following, there, later⟩, ?_, .refl _,
        keys_insert_held _ held, frame _⟩
      · simp [addEntryToList, held, there, ahead, set_next_allocated held]
      · simp [InittabParser.addEntryToList, ahead]
    · have whole : Chain h (some x.1) (x :: rest) := ⟨rfl, following, there, later⟩
      obtain ⟨before, y, back, split, found, added⟩ := behind_loop_chain (e := e) whole
        (show rest.length < h.keys.card by simp at long; omega)
      rw [split] at whole loose
      obtain ⟨link, member, spliced⟩ := chain_spliced e whole loose
      have other : y.1 ≠ entry := fun same => loose (by simp [same])
      have kept : (h.insert entry ⟨link, e⟩).lookup y.1 = some ⟨link, y.2⟩ := by
        rw [Finmap.lookup_insert_of_ne _ other]
        exact member
      refine ⟨_, _, _, ?_, spliced, ?_, ?_, ?_, ?_⟩
      · simp [addEntryToList, held, there, ahead, found, member, set_next_allocated held,
          set_next_allocated kept]
      · simp only [List.map_cons, List.map_append, InittabParser.addEntryToList, if_neg ahead]
        simpa using added.symm
      · rw [split]
        simp only [List.map_append, List.map_cons]
        exact (List.perm_middle.trans (List.perm_middle.cons _)).trans
          ((List.Perm.swap _ _ _).trans (List.perm_middle.symm.cons _))
      · rw [keys_insert_held _ kept, keys_insert_held _ held]
      · intro a outside
        rw [split] at outside
        have apart : a ≠ y.1 := fun same => outside (by simp [same])
        rw [Finmap.lookup_insert_of_ne _ apart]
        exact frame _ a (by rw [split]; exact outside)

theorem free_loop_chain {fuel : Nat} {p : Option Nat} {h : Cells}
    {xs : List (Nat × InittabEntry)} (chain : Chain h p xs) (enough : xs.length ≤ fuel) :
    ∃ h', freeLoop fuel p h = some h' ∧
      (∀ a ∈ xs.map Prod.fst, h'.lookup a = none) ∧
      ∀ a, a ∉ xs.map Prod.fst → h'.lookup a = h.lookup a := by
  induction xs generalizing fuel p h with
  | nil =>
    obtain rfl := chain
    exact ⟨h, by simp [freeLoop], by simp, fun _ _ => rfl⟩
  | cons x rest ih =>
    have distinct := chain_nodup chain
    simp only [List.map_cons, List.nodup_cons] at distinct
    obtain ⟨rfl, next, held, later⟩ := chain
    obtain ⟨fuel, rfl⟩ : ∃ n, fuel = n + 1 := ⟨fuel - 1, by simp at enough; omega⟩
    have tail : Chain (h.erase x.1) next rest := chain_congr later
      (fun a member => Finmap.lookup_erase_ne (fun same => distinct.1 (same ▸ member)))
    obtain ⟨h', done, gone, kept⟩ := ih tail (by simpa using enough)
    refine ⟨h', by simp [freeLoop, held, release_allocated held, done], ?_, ?_⟩
    · intro a member
      rcases List.mem_cons.mp member with rfl | member
      · rw [kept x.1 distinct.1, Finmap.lookup_erase]
      · exact gone a member
    · intro a outside
      simp only [List.map_cons, List.mem_cons, not_or] at outside
      rw [kept a outside.2, Finmap.lookup_erase_ne outside.1]

/-- The three lists, some loose blocks, and nothing else on the heap. -/
structure Shelved (loose : List Nat) (t : CellTable) (xs ys zs : List (Nat × InittabEntry)) :
    Prop where
  startup : Chain t.heap t.startupList xs
  shutdown : Chain t.heap t.shutdownList ys
  safeMode : Chain t.heap t.safeModeEntry zs
  apart : (loose ++ (xs ++ ys ++ zs).map Prod.fst).Nodup
  keys : t.heap.keys = (loose ++ (xs ++ ys ++ zs).map Prod.fst).toFinset

def Holds (loose : List Nat) (t : CellTable) (table : Inittab) : Prop :=
  ∃ xs ys zs, Shelved loose t xs ys zs ∧ xs.map Prod.snd = table.startupList ∧
    ys.map Prod.snd = table.shutdownList ∧ zs.map Prod.snd = table.safeModeEntry.toList

theorem free_lists_empty {t : CellTable} {xs ys zs : List (Nat × InittabEntry)}
    (shelved : Shelved [] t xs ys zs) : freeLists t = some ∅ := by
  have apart := shelved.apart
  simp only [List.nil_append, List.map_append, List.nodup_append, List.mem_append] at apart
  obtain ⟨⟨_, _, first⟩, _, second⟩ := apart
  obtain ⟨h1, done1, gone1, kept1⟩ :=
    free_loop_chain shelved.startup (chain_length shelved.startup)
  have chain2 : Chain h1 t.shutdownList ys := chain_congr shelved.shutdown
    (fun a member => kept1 a (fun other => first a other a member rfl))
  obtain ⟨h2, done2, gone2, kept2⟩ := free_loop_chain chain2 (chain_length chain2)
  have chain3 : Chain h2 t.safeModeEntry zs := by
    refine chain_congr shelved.safeMode ?_
    intro a member
    rw [kept2 a (fun other => second a (Or.inr other) a member rfl),
      kept1 a (fun other => second a (Or.inl other) a member rfl)]
  obtain ⟨h3, done3, gone3, kept3⟩ := free_loop_chain chain3 (chain_length chain3)
  have empty : h3 = ∅ := by
    apply Finmap.ext_lookup
    intro a
    rw [Finmap.lookup_empty]
    by_cases third : a ∈ zs.map Prod.fst
    · exact gone3 a third
    · rw [kept3 a third]
      by_cases middle : a ∈ ys.map Prod.fst
      · exact gone2 a middle
      · rw [kept2 a middle]
        by_cases early : a ∈ xs.map Prod.fst
        · exact gone1 a early
        · rw [kept1 a early, Finmap.lookup_eq_none, ← Finmap.mem_keys, shelved.keys]
          simp only [List.nil_append, List.map_append, List.mem_toFinset, List.mem_append]
          rintro ((one | two) | three)
          · exact early one
          · exact middle two
          · exact third three
  simp [freeLists, freeInittabEntryList, done1, done2, done3, empty]

theorem shelved_again {entry : Nat} {t : CellTable} {h : Cells} {p q r : Option Nat}
    {xs ys zs xs' ys' zs' : List (Nat × InittabEntry)} (shelved : Shelved [entry] t xs ys zs)
    (startup : Chain h p xs') (shutdown : Chain h q ys') (safeMode : Chain h r zs')
    (keys : h.keys = t.heap.keys)
    (cells : ((xs' ++ ys' ++ zs').map Prod.fst).Perm (entry :: (xs ++ ys ++ zs).map Prod.fst)) :
    Shelved [] ⟨h, p, q, r⟩ xs' ys' zs' where
  startup := startup
  shutdown := shutdown
  safeMode := safeMode
  apart := cells.nodup_iff.mpr shelved.apart
  keys := by
    rw [keys, shelved.keys]
    exact (List.toFinset_eq_of_perm _ _ cells).symm

theorem linked_elsewhere {entry : Nat} {e : InittabEntry} {h h' : Cells} {list q : Option Nat}
    {xs xs' ys : List (Nat × InittabEntry)} (linked : Linked entry e xs xs' h h' list)
    (chain : Chain h q ys) (outside : ∀ a ∈ ys.map Prod.fst, a ∉ entry :: xs.map Prod.fst) :
    Chain h' q ys :=
  chain_congr chain (fun a member => linked.frame a (outside a member))

variable {entry : Nat} {t : CellTable} {table : Inittab} {next : Option Nat} {e : InittabEntry}

theorem startup_added (holds : Holds [entry] t table)
    (held : t.heap.lookup entry = some ⟨next, e⟩) :
    ∃ heap list, addEntryToList t.heap t.startupList entry = some (heap, list) ∧
      Holds [] { t with heap := heap, startupList := list }
        { table with startupList := InittabParser.addEntryToList table.startupList e } := by
  obtain ⟨xs, ys, zs, shelved, startup, shutdown, safeMode⟩ := holds
  have apart := shelved.apart
  simp only [List.singleton_append, List.map_append, List.nodup_cons, List.mem_append, not_or,
    List.nodup_append] at apart
  obtain ⟨⟨⟨x, y⟩, z⟩, ⟨_, _, xy⟩, _, xyz⟩ := apart
  obtain ⟨heap, list, xs', added, linked⟩ := add_entry_linked shelved.startup held x
  refine ⟨heap, list, added, xs', ys, zs, ?_, by rw [linked.items, startup], shutdown, safeMode⟩
  refine shelved_again shelved linked.chain (linked_elsewhere linked shelved.shutdown ?_)
    (linked_elsewhere linked shelved.safeMode ?_) linked.keys ?_
  · intro a member
    simp only [List.mem_cons, not_or]
    exact ⟨fun same => y (same ▸ member), fun other => xy a other a member rfl⟩
  · intro a member
    simp only [List.mem_cons, not_or]
    exact ⟨fun same => z (same ▸ member), fun other => xyz a (Or.inl other) a member rfl⟩
  · simp only [List.map_append]
    exact (linked.cells.append_right _).append_right _

theorem shutdown_added (holds : Holds [entry] t table)
    (held : t.heap.lookup entry = some ⟨next, e⟩) :
    ∃ heap list, addEntryToList t.heap t.shutdownList entry = some (heap, list) ∧
      Holds [] { t with heap := heap, shutdownList := list }
        { table with shutdownList := InittabParser.addEntryToList table.shutdownList e } := by
  obtain ⟨xs, ys, zs, shelved, startup, shutdown, safeMode⟩ := holds
  have apart := shelved.apart
  simp only [List.singleton_append, List.map_append, List.nodup_cons, List.mem_append, not_or,
    List.nodup_append] at apart
  obtain ⟨⟨⟨x, y⟩, z⟩, ⟨_, _, xy⟩, _, xyz⟩ := apart
  obtain ⟨heap, list, ys', added, linked⟩ := add_entry_linked shelved.shutdown held y
  refine ⟨heap, list, added, xs, ys', zs, ?_, startup, by rw [linked.items, shutdown], safeMode⟩
  refine shelved_again shelved (linked_elsewhere linked shelved.startup ?_) linked.chain
    (linked_elsewhere linked shelved.safeMode ?_) linked.keys ?_
  · intro a member
    simp only [List.mem_cons, not_or]
    exact ⟨fun same => x (same ▸ member), fun other => xy a member a other rfl⟩
  · intro a member
    simp only [List.mem_cons, not_or]
    exact ⟨fun same => z (same ▸ member), fun other => xyz a (Or.inr other) a member rfl⟩
  · simp only [List.map_append]
    exact ((linked.cells.append_left _).trans List.perm_middle).append_right _

theorem safe_mode_added (holds : Holds [entry] t table)
    (held : t.heap.lookup entry = some ⟨next, e⟩) (first : table.safeModeEntry = none) :
    ∃ heap list, addEntryToList t.heap t.safeModeEntry entry = some (heap, list) ∧
      Holds [] { t with heap := heap, safeModeEntry := list }
        { table with safeModeEntry := some e } := by
  obtain ⟨xs, ys, zs, shelved, startup, shutdown, safeMode⟩ := holds
  have apart := shelved.apart
  simp only [List.singleton_append, List.map_append, List.nodup_cons, List.mem_append, not_or,
    List.nodup_append] at apart
  obtain ⟨⟨⟨x, y⟩, z⟩, _, _, xyz⟩ := apart
  obtain ⟨heap, list, zs', added, linked⟩ := add_entry_linked shelved.safeMode held z
  have single : zs'.map Prod.snd = (some e).toList := by
    rw [linked.items, safeMode, first]
    rfl
  refine ⟨heap, list, added, xs, ys, zs', ?_, startup, shutdown, single⟩
  refine shelved_again shelved (linked_elsewhere linked shelved.startup ?_)
    (linked_elsewhere linked shelved.shutdown ?_) linked.chain linked.keys ?_
  · intro a member
    simp only [List.mem_cons, not_or]
    exact ⟨fun same => x (same ▸ member), fun other => xyz a (Or.inl member) a other rfl⟩
  · intro a member
    simp only [List.mem_cons, not_or]
    exact ⟨fun same => y (same ▸ member), fun other => xyz a (Or.inr member) a other rfl⟩
  · simp only [List.map_append]
    exact (linked.cells.append_left _).trans List.perm_middle

theorem safe_mode_pointer {loose : List Nat} (holds : Holds loose t table) :
    t.safeModeEntry = none ↔ table.safeModeEntry = none := by
  obtain ⟨xs, ys, zs, shelved, _, _, safeMode⟩ := holds
  cases zs with
  | nil =>
    have ended : t.safeModeEntry = none := shelved.safeMode
    cases found : table.safeModeEntry with
    | none => simp [ended]
    | some x => simp [found] at safeMode
  | cons z rest =>
    have first : t.safeModeEntry = some z.1 := shelved.safeMode.1
    cases found : table.safeModeEntry with
    | none => simp [found] at safeMode
    | some x => simp [first]

theorem place_entry_holds (holds : Holds [entry] t table)
    (held : t.heap.lookup entry = some ⟨next, e⟩) :
    match InittabParser.placeEntry e table with
    | some table' => ∃ t', placeEntry entry t = some (true, t') ∧ Holds [] t' table'
    | none => placeEntry entry t = some (false, t) := by
  obtain ⟨heap1, list1, startup, holds1⟩ := startup_added holds held
  obtain ⟨heap2, list2, shutdown, holds2⟩ := shutdown_added holds held
  have pointer := safe_mode_pointer holds
  cases kind : e.type with
  | safeMode =>
    cases found : table.safeModeEntry with
    | some x =>
      have taken : ¬ t.safeModeEntry = none := by
        rw [pointer, found]
        simp
      simp [InittabParser.placeEntry, placeEntry, kind, found, held, taken]
    | none =>
      obtain ⟨heap3, list3, added, holds3⟩ := safe_mode_added holds held found
      simp only [InittabParser.placeEntry, kind, found]
      exact ⟨_, by simp [placeEntry, held, kind, if_pos (pointer.mpr found), added], holds3⟩
  | oneShot | safeOneShot | service | safeService =>
    simp only [InittabParser.placeEntry, kind]
    exact ⟨_, by simp [placeEntry, held, kind, startup], holds1⟩
  | shutdown | safeShutdown =>
    simp only [InittabParser.placeEntry, kind]
    exact ⟨_, by simp [placeEntry, held, kind, shutdown], holds2⟩

structure Agree (st : CellRead) (model : ReadState) : Prop where
  fp : st.fp = model.fp
  error : st.error = model.error
  allocations : st.allocations = model.allocations
  holds : Holds [] st.table model.table

theorem allocated_holds {place : Nat} (item : InittabEntry) (holds : Holds [] t table)
    (unused : place ∉ t.heap) :
    Holds [place] { t with heap := t.heap.insert place ⟨none, item⟩ } table := by
  obtain ⟨xs, ys, zs, shelved, listed⟩ := holds
  have outside : ∀ a ∈ (xs ++ ys ++ zs).map Prod.fst, a ≠ place := by
    rintro a member rfl
    refine unused (Finmap.mem_keys.mp ?_)
    rw [shelved.keys]
    exact List.mem_toFinset.mpr member
  have kept : ∀ list : List (Nat × InittabEntry), list ⊆ xs ++ ys ++ zs →
      ∀ a ∈ list.map Prod.fst,
        (t.heap.insert place ⟨none, item⟩).lookup a = t.heap.lookup a := by
    intro list part a member
    exact Finmap.lookup_insert_of_ne _ (outside a (List.map_subset _ part member))
  refine ⟨xs, ys, zs, ⟨?_, ?_, ?_, ?_, ?_⟩, listed⟩
  · exact chain_congr shelved.startup (kept xs (by simp))
  · exact chain_congr shelved.shutdown (kept ys (by simp))
  · exact chain_congr shelved.safeMode (kept zs (by simp))
  · exact List.nodup_cons.mpr ⟨fun member => outside place member rfl, shelved.apart⟩
  · simp [keys_insert, shelved.keys]

theorem freed_holds {place : Nat} (holds : Holds [place] t table) :
    ∃ heap, release t.heap place = some heap ∧ Holds [] { t with heap := heap } table := by
  obtain ⟨xs, ys, zs, shelved, listed⟩ := holds
  have apart := List.nodup_cons.mp shelved.apart
  have there : place ∈ t.heap := by
    rw [← Finmap.mem_keys, shelved.keys]
    simp
  have kept : ∀ list : List (Nat × InittabEntry), list ⊆ xs ++ ys ++ zs →
      ∀ a ∈ list.map Prod.fst, (t.heap.erase place).lookup a = t.heap.lookup a := by
    intro list part a member
    refine Finmap.lookup_erase_ne ?_
    rintro rfl
    exact apart.1 (List.map_subset _ part member)
  refine ⟨t.heap.erase place, by simp [release, there], xs, ys, zs, ⟨?_, ?_, ?_, apart.2, ?_⟩,
    listed⟩
  · exact chain_congr shelved.startup (kept xs (by simp))
  · exact chain_congr shelved.shutdown (kept ys (by simp))
  · exact chain_congr shelved.safeMode (kept zs (by simp))
  · rw [Finmap.keys_erase, shelved.keys, List.singleton_append, List.toFinset_cons,
      Finset.erase_insert (by simpa using apart.1)]
    rfl

theorem read_step_agrees (calloc : Nat → Bool) (allocator : Allocator Nat (Cell InittabEntry))
    {st : CellRead} {model : ReadState} (agree : Agree st model) :
    (∃ next next', InittabParser.readBody calloc model = .inl next ∧
      readStep calloc allocator st = some (.inl next') ∧ Agree next' next) ∨
    ∃ last last', InittabParser.readBody calloc model = .inr last ∧
      readStep calloc allocator st = some (.inr last') ∧ Agree last' last := by
  obtain ⟨fp, t, error, allocations⟩ := st
  obtain ⟨_, table, _, _⟩ := model
  obtain ⟨rfl, rfl, rfl, holds⟩ := agree
  dsimp only at holds
  have unused := allocator.unused allocations t.heap
  by_cases room : calloc allocations
  · cases parsed : (inittabParseEntry fp).1 with
    | ok entry =>
      have stored := store_allocated (c := (⟨none, entry⟩ : Cell InittabEntry))
        (Finmap.lookup_insert (b := (⟨none, blank⟩ : Cell InittabEntry))
          (a := allocator.place allocations t.heap) t.heap)
      rw [Finmap.insert_insert] at stored
      have loose := allocated_holds entry holds unused
      have placed := place_entry_holds loose (Finmap.lookup_insert t.heap)
      cases outcome : InittabParser.placeEntry entry table with
      | some table' =>
        rw [outcome] at placed
        obtain ⟨t', done, after⟩ := placed
        refine Or.inl ⟨⟨(inittabParseEntry fp).2, table', error, allocations + 1⟩,
          ⟨(inittabParseEntry fp).2, t', error, allocations + 1⟩, ?_, ?_, rfl, rfl, rfl, after⟩
        · simp [InittabParser.readBody, room, parsed, outcome]
        · simp [readStep, room, parsed, stored, done]
      | none =>
        rw [outcome] at placed
        obtain ⟨heap, released, after⟩ := freed_holds loose
        refine Or.inr ⟨⟨(inittabParseEntry fp).2, table, true, allocations + 1⟩,
          ⟨(inittabParseEntry fp).2, { t with heap := heap }, true, allocations + 1⟩, ?_, ?_,
          rfl, rfl, rfl, after⟩
        · simp [InittabParser.readBody, room, parsed, outcome]
        · simp [readStep, freed, room, parsed, stored, placed, released]
    | error =>
      obtain ⟨heap, released, after⟩ := freed_holds (allocated_holds blank holds unused)
      refine Or.inl ⟨⟨(inittabParseEntry fp).2, table, true, allocations + 1⟩,
        ⟨(inittabParseEntry fp).2, { t with heap := heap }, true, allocations + 1⟩, ?_, ?_,
        rfl, rfl, rfl, after⟩
      · simp [InittabParser.readBody, room, parsed]
      · simp [readStep, freed, room, parsed, released]
    | done =>
      obtain ⟨heap, released, after⟩ := freed_holds (allocated_holds blank holds unused)
      refine Or.inr ⟨⟨(inittabParseEntry fp).2, table, error, allocations + 1⟩,
        ⟨(inittabParseEntry fp).2, { t with heap := heap }, error, allocations + 1⟩, ?_, ?_,
        rfl, rfl, rfl, after⟩
      · simp [InittabParser.readBody, room, parsed]
      · simp [readStep, freed, room, parsed, released]
  · refine Or.inr ⟨⟨fp, table, true, allocations⟩, ⟨fp, t, true, allocations⟩, ?_, ?_,
      rfl, rfl, rfl, holds⟩
    · simp [InittabParser.readBody, room]
    · simp [readStep, room]

theorem start_agrees (fp : Stream) : Agree (readStart fp) (InittabParser.readStart fp) :=
  ⟨rfl, rfl, rfl, [], [], [], ⟨rfl, rfl, rfl, List.nodup_nil, by simp [readStart]⟩, rfl, rfl, rfl⟩

theorem conclude_agrees {st : CellRead} {model : ReadState} (agree : Agree st model) :
    ∃ t, conclude st = some ((InittabParser.conclude model).isSome, t) ∧
      (∀ table, InittabParser.conclude model = some table → Holds [] t table) ∧
      (InittabParser.conclude model = none → t.heap = ∅) := by
  have pointer := safe_mode_pointer agree.holds
  by_cases failed : model.table.safeModeEntry = none ∨ model.error = true
  · have below : st.table.safeModeEntry = none ∨ st.error = true := by
      rwa [pointer, agree.error]
    obtain ⟨xs, ys, zs, shelved, _⟩ := agree.holds
    refine ⟨{ st.table with heap := ∅ }, ?_, ?_, fun _ => rfl⟩
    · simp [conclude, below, InittabParser.conclude, failed, free_lists_empty shelved]
    · simp [InittabParser.conclude, failed]
  · have below : ¬ (st.table.safeModeEntry = none ∨ st.error = true) := by
      rwa [pointer, agree.error]
    refine ⟨st.table, ?_, ?_, ?_⟩
    · simp [conclude, below, InittabParser.conclude, failed]
    · simp only [InittabParser.conclude, if_neg failed, Option.some.injEq]
      rintro table rfl
      exact agree.holds
    · simp [InittabParser.conclude, failed]

/-- read_inittab on the heap, for every file, every pattern of failing callocs and
    every allocator: its loop never faults. When it returns, what it returns is
    the model's result; a table it has read owns exactly the blocks of its three
    lists and can be freed whole, and a failed call leaves no block behind. -/
theorem read_inittab_owns_its_lists (calloc : Nat → Bool)
    (allocator : Allocator Nat (Cell InittabEntry)) (fp : Stream) :
    ¬ Ends (faulting (readStep calloc allocator)) (readStart fp) none ∧
    ∀ result, ReadsInittab calloc (some fp) result →
      ∃ last t, Ends (faulting (readStep calloc allocator)) (readStart fp) (some last) ∧
        conclude last = some (result.isSome, t) ∧
        (∀ table, result = some table → Holds [] t table ∧ freeLists t = some ∅) ∧
        (result = none → t.heap = ∅) := by
  obtain ⟨sound, follows⟩ := ends_refined (fun model st => Agree st model)
    (fun final last => Agree last final)
    (fun _ _ agree => read_step_agrees calloc allocator agree) (start_agrees fp)
  refine ⟨sound, ?_⟩
  rintro result ⟨final, done, rfl⟩
  obtain ⟨last, ends, agree⟩ := follows final done
  obtain ⟨t, concluded, good, bad⟩ := conclude_agrees agree
  refine ⟨last, t, ends, concluded, ?_, bad⟩
  intro table same
  have holds := good table same
  obtain ⟨xs, ys, zs, shelved, _⟩ := holds
  exact ⟨good table same, free_lists_empty shelved⟩

def unsortedFile : List UInt8 :=
  ascii "2::<service>::/bin/b\n1::<service>::/bin/a\n::<safe-mode>::/bin/s\n"

def sortedTable : Inittab :=
  ⟨[⟨ascii "/bin/a", [], 1, -1, .service⟩, ⟨ascii "/bin/b", [], 2, -1, .service⟩], [],
    some ⟨ascii "/bin/s", [], -1, -1, .safeMode⟩⟩

theorem read_inittab_owns_unsorted : ∃ last t,
    Ends (faulting (readStep (fun _ => true) firstFit)) (readStart (.opened unsortedFile))
      (some last) ∧
    conclude last = some (true, t) ∧ Holds [] t sortedTable ∧ freeLists t = some ∅ := by
  have computed : (iterate (InittabParser.readBody (fun _ => true)) 5
      (InittabParser.readStart (.opened unsortedFile))).map InittabParser.conclude =
        some (some sortedTable) := by
    decide +kernel
  obtain ⟨final, done, concluded⟩ := Option.map_eq_some_iff.mp computed
  obtain ⟨last, t, ends, returned, holds, _⟩ :=
    (read_inittab_owns_its_lists (fun _ => true) firstFit (.opened unsortedFile)).2
      (some sortedTable) ⟨final, ⟨5, done⟩, concluded⟩
  obtain ⟨owned, freed⟩ := holds sortedTable rfl
  exact ⟨last, t, ends, returned, owned, freed⟩

end InittabCells
