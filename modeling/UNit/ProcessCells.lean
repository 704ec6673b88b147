import UNit.LinkedCells
import UNit.StateMoves

/-!
The list of running processes as the source keeps it: cells linked by pointers,
allocated for each child and freed when it is reaped. The cells are followed
along the history of a run, with an allocator that may hand out any block not
in use. No pointer is ever used after its block was freed, and the cells are
the tracked list of the model.
-/
namespace ProcessCells
open InittabEntries ProcessHistory EventHistory KernelModel InitState ProcessStart StageControl
  MainLoop TrackedChildren StateMoves LinkedCells

structure ProcessList where
  heap : Heap (Cell Process)
  runningProcesses : Option Nat
  deriving DecidableEq

def findProcess (pid : Int) (l : ProcessList) : Option (Option Nat) :=
  search (fun p => p.pid = pid) l.heap l.runningProcesses

def findSafeModeProcess (l : ProcessList) : Option (Option Nat) :=
  search (fun p => p.config.type = .safeMode) l.heap l.runningProcesses

/-- The block is freed before the assertion that it was in the list. -/
def removeProcess (p : Nat) (l : ProcessList) : Option ProcessList :=
  if l.runningProcesses = none then none
  else do
    let (heap, list, removed) ← unlink p l.heap l.runningProcesses
    let heap ← release heap p
    if removed then some ⟨heap, list⟩ else none

def freeLoop : Nat → ProcessList → Option ProcessList
  | fuel, l =>
    match l.runningProcesses with
    | none => some l
    | some p =>
      match fuel with
      | 0 => none
      | fuel + 1 => (removeProcess p l).bind (freeLoop fuel)

def freeProcessList (l : ProcessList) : Option ProcessList := freeLoop l.heap.keys.card l

/-- A block for a child, and what becomes of it when the fork has returned. -/
def addProcess (place : Nat) (p : Process) (l : ProcessList) : Option ProcessList :=
  let heap := l.heap.insert place ⟨none, p⟩
  if 0 < p.pid then do
    let heap ← store heap place ⟨l.runningProcesses, p⟩
    some ⟨heap, some place⟩
  else do
    let heap ← release heap place
    some { l with heap := heap }

def dropProcess (pid : Int) (l : ProcessList) : Option ProcessList := do
  match ← findProcess pid l with
  | none => some l
  | some p => removeProcess p l

/-- What each entry of the history does to the cells. -/
def followEffect (place : Nat) : Effect → ProcessList → Option ProcessList
  | .fork e result, l => addProcess place ⟨e, result⟩ l
  | .placeholder e pid _, l => addProcess place ⟨e, pid⟩ l
  | .reap pid _, l => dropProcess pid l
  | .request _ _, l => some l
  | .record _ _, l => some l
  | .kill _ _, l => some l
  | .pendingDecreased _, l => some l
  | .shutdownCommand _, l => some l

def follow (allocator : Allocator (List Effect) (Cell Process)) :
    List Effect → Option ProcessList
  | [] => some ⟨∅, none⟩
  | effect :: past => do
    let l ← follow allocator past
    followEffect (allocator.place past l.heap) effect l

def FreshChild (past : List Effect) : Effect → Prop
  | .fork _ result => 0 < result → result ∉ (live past).map Process.pid
  | .placeholder _ pid _ => 0 < pid ∧ pid ∉ (live past).map Process.pid
  | _ => True

theorem signal_all_justified {allowed : List Effect → Effect → Prop} (signal : KillSignal)
    (always : ∀ past pid, allowed past (.kill pid signal)) (targets : List Process) (k : Kernel)
    (justified : Justified allowed k.log) :
    Justified allowed (signalAll signal targets k).log := by
  induction targets generalizing k with
  | nil => exact justified
  | cons p rest ih =>
    simp only [signalAll]
    split
    · exact ih _ ⟨always _ _, justified⟩
    · exact ih k justified

theorem free_pid_fresh {s : State} {pid : Int} (held : ListExact s) (free : s.kernel.PidFree pid) :
    pid ∉ (live s.kernel.log).map Process.pid := by
  intro member
  rw [← held.tracked.as_logged] at member
  obtain ⟨p, tracked, rfl⟩ := List.mem_map.mp member
  obtain ⟨c, child, same, _⟩ := (held.tracked.matched p).mp tracked
  exact free.2.2 (List.mem_map.mpr ⟨c, child, same⟩)

theorem move_fresh {s t : State} (held : ListExact s)
    (fresh : Justified FreshChild s.kernel.log) (move : Move s t) :
    Justified FreshChild t.kernel.log := by
  cases move with
  | env moved => exact (env_frame moved).log ▸ fresh
  | retimed same =>
    obtain ⟨_, _, _, _, _, rfl⟩ := same
    exact fresh
  | recounted => exact fresh
  | restaged => exact fresh
  | started entry free _ => exact ⟨fun _ => free_pid_fresh held free, fresh⟩
  | notStarted entry => exact ⟨fun positive => absurd positive (by decide), fresh⟩
  | requested => exact ⟨trivial, trivial, fresh⟩
  | @placed pid free =>
    obtain ⟨pipes, closed, _⟩ := close_previous_pipe_frame s
    rw [closed]
    have positive : 0 < pid := by have := free.1; omega
    exact ⟨⟨positive, free_pid_fresh held free⟩, fresh⟩
  | reaped w =>
    obtain ⟨_, log, shape, noted⟩ := ChildExit.reaped_frame s w
      (ProcessStart.findProcess w.1 s.runningProcesses)
    rw [shape]
    rcases noted with rfl | ⟨_, rfl⟩
    · exact ⟨trivial, fresh⟩
    · exact ⟨trivial, trivial, fresh⟩
  | commanded command =>
    exact signal_all_justified .sigterm (fun _ _ => trivial) _ _ ⟨trivial, fresh⟩
  | killed _ => exact signal_all_justified .sigkill (fun _ _ => trivial) _ _ fresh

theorem run_fresh {table : BootTable} {trace : List (System × Event)} {sys : System}
    (run : InitRun table trace sys) (intact : sys.control.intact) :
    Justified FreshChild sys.state.kernel.log :=
  run_move_rule (fun s => Justified FreshChild s.kernel.log) run intact trivial
    (fun _ _ held fresh move => move_fresh held fresh move)

theorem live_distinct {log : List Effect} (fresh : Justified FreshChild log) :
    ((live log).map Process.pid).Nodup := by
  induction log with
  | nil => exact List.nodup_nil
  | cons effect past ih =>
    have before := ih fresh.2
    cases effect with
    | fork e result =>
      by_cases positive : 0 < result
      · simpa [positive] using ⟨by simpa using fresh.1 positive, before⟩
      · simpa [positive] using before
    | placeholder e pid q => simpa using ⟨by simpa using fresh.1.2, before⟩
    | reap pid status => exact before.sublist (List.filter_sublist.map _)
    | request _ _ => exact before
    | record _ _ => exact before
    | kill _ _ => exact before
    | pendingDecreased _ => exact before
    | shutdownCommand _ => exact before

def Holds (l : ProcessList) (running : List Process) : Prop :=
  ∃ xs, Owns l.heap l.runningProcesses xs ∧ xs.map Prod.snd = running

theorem add_process_holds {place : Nat} {p : Process} {l : ProcessList} {running : List Process}
    (held : Holds l running) (unused : place ∉ l.heap) :
    ∃ l', addProcess place p l = some l' ∧
      Holds l' (if 0 < p.pid then p :: running else running) := by
  obtain ⟨xs, owned, listed⟩ := held
  have stored := store_allocated (c := (⟨l.runningProcesses, p⟩ : Cell Process))
    (Finmap.lookup_insert (b := (⟨none, p⟩ : Cell Process)) (a := place) l.heap)
  have freed := release_allocated
    (Finmap.lookup_insert (b := (⟨none, p⟩ : Cell Process)) (a := place) l.heap)
  by_cases positive : 0 < p.pid
  · refine ⟨⟨l.heap.insert place ⟨l.runningProcesses, p⟩, some place⟩, ?_, ?_⟩
    · simp [addProcess, positive, stored]
    · exact ⟨(place, p) :: xs, owns_pushed owned unused, by simp [positive, listed]⟩
  · have restored : (l.heap.insert place ⟨none, p⟩).erase place = l.heap := by
      apply Finmap.ext_lookup
      intro a
      by_cases same : a = place
      · subst same
        rw [Finmap.lookup_erase, Finmap.lookup_eq_none.mpr unused]
      · rw [Finmap.lookup_erase_ne same, Finmap.lookup_insert_of_ne _ same]
    refine ⟨l, ?_, xs, owned, by simpa [positive] using listed⟩
    simp [addProcess, positive, freed, restored]

theorem remove_process_owns {p : Nat} {l : ProcessList} {xs : List (Nat × Process)}
    (owned : Owns l.heap l.runningProcesses xs) (member : p ∈ xs.map Prod.fst) :
    ∃ l', removeProcess p l = some l' ∧ Owns l'.heap l'.runningProcesses (without p xs) := by
  obtain ⟨heap, list, unlinked, kept⟩ := unlink_chain owned.chain member
  obtain ⟨x, listed, rfl⟩ := List.mem_map.mp member
  obtain ⟨next, held⟩ := chain_held owned.chain listed
  have filled : l.runningProcesses ≠ none := by
    intro empty
    have chain := owned.chain
    rw [empty] at chain
    cases xs with
    | nil => simp at listed
    | cons y rest => exact absurd chain.1 (by simp)
  refine ⟨⟨heap.erase x.1, list⟩, ?_, unlinked_freed owned kept⟩
  simp [removeProcess, filled, unlinked, release_allocated (kept.target.trans held)]

theorem without_found {pid : Int} {xs : List (Nat × Process)} {x : Nat × Process}
    (addresses : (xs.map Prod.fst).Nodup) (pids : ((xs.map Prod.snd).map Process.pid).Nodup)
    (member : x ∈ xs) (found : x.2.pid = pid) :
    (without x.1 xs).map Prod.snd = (xs.map Prod.snd).filter (fun p => p.pid ≠ pid) := by
  rw [List.map_map] at pids
  have same : ∀ y ∈ xs, (y.1 = x.1 ↔ y.2.pid = pid) := by
    intro y listed
    constructor
    · intro equal
      have whole : y = x := List.inj_on_of_nodup_map addresses listed member equal
      rw [whole]
      exact found
    · intro equal
      have whole : y = x := List.inj_on_of_nodup_map pids listed member (equal.trans found.symm)
      rw [whole]
  rw [List.filter_map, without]
  congr 1
  apply List.filter_congr
  intro y listed
  simp [same y listed]

theorem drop_process_holds {pid : Int} {l : ProcessList} {running : List Process}
    (held : Holds l running) (pids : (running.map Process.pid).Nodup) :
    ∃ l', dropProcess pid l = some l' ∧ Holds l' (running.filter (fun p => p.pid ≠ pid)) := by
  obtain ⟨xs, owned, rfl⟩ := held
  have searched : findProcess pid l = some ((xs.find? (fun x => x.2.pid = pid)).map Prod.fst) :=
    search_chain owned.chain
  cases hit : xs.find? (fun x => x.2.pid = pid) with
  | none =>
    refine ⟨l, by simp [dropProcess, searched, hit], xs, owned, ?_⟩
    symm
    refine List.filter_eq_self.mpr ?_
    intro p member
    obtain ⟨x, listed, rfl⟩ := List.mem_map.mp member
    simpa using List.find?_eq_none.mp hit x listed
  | some x =>
    have member := List.mem_of_find?_eq_some hit
    have found : x.2.pid = pid := by simpa using List.find?_some hit
    obtain ⟨l', removed, left⟩ := remove_process_owns owned (List.mem_map_of_mem member)
    refine ⟨l', by simp [dropProcess, searched, hit, removed], without x.1 xs, left, ?_⟩
    exact without_found (chain_nodup owned.chain) pids member found

theorem follow_effect_holds {place : Nat} {effect : Effect} {past : List Effect}
    {l : ProcessList} (held : Holds l (live past)) (unused : place ∉ l.heap)
    (distinct : ((live past).map Process.pid).Nodup) (fresh : FreshChild past effect) :
    ∃ l', followEffect place effect l = some l' ∧ Holds l' (live (effect :: past)) := by
  cases effect with
  | fork e result => exact add_process_holds held unused
  | placeholder e pid q =>
    obtain ⟨l', added, holds⟩ := add_process_holds (p := ⟨e, pid⟩) held unused
    simp only [fresh.1, ↓reduceIte] at holds
    exact ⟨l', added, holds⟩
  | reap pid status => exact drop_process_holds held distinct
  | request _ _ => exact ⟨l, rfl, held⟩
  | record _ _ => exact ⟨l, rfl, held⟩
  | kill _ _ => exact ⟨l, rfl, held⟩
  | pendingDecreased _ => exact ⟨l, rfl, held⟩
  | shutdownCommand _ => exact ⟨l, rfl, held⟩

theorem follow_holds (allocator : Allocator (List Effect) (Cell Process)) {log : List Effect}
    (fresh : Justified FreshChild log) :
    ∃ l, follow allocator log = some l ∧ Holds l (live log) := by
  induction log with
  | nil => exact ⟨⟨∅, none⟩, rfl, [], owns_empty, rfl⟩
  | cons effect past ih =>
    obtain ⟨l, followed, held⟩ := ih fresh.2
    obtain ⟨l', next, holds⟩ := follow_effect_holds held
      (allocator.unused past l.heap) (live_distinct fresh.2) fresh.1
    exact ⟨l', by simp [follow, followed, next], holds⟩

theorem free_loop_owns {fuel : Nat} {l : ProcessList} {xs : List (Nat × Process)}
    (owned : Owns l.heap l.runningProcesses xs) (enough : xs.length ≤ fuel) :
    freeLoop fuel l = some ⟨∅, none⟩ := by
  induction xs generalizing fuel l with
  | nil =>
    obtain ⟨heap, list⟩ := l
    obtain ⟨rfl, rfl⟩ := owns_nothing owned
    simp [freeLoop]
  | cons x rest ih =>
    obtain ⟨fuel, rfl⟩ : ∃ n, fuel = n + 1 := ⟨fuel - 1, by simp at enough; omega⟩
    obtain ⟨l', removed, left⟩ := remove_process_owns owned (p := x.1) (by simp)
    have distinct := chain_nodup owned.chain
    simp only [List.map_cons, List.nodup_cons] at distinct
    rw [without_head distinct.1] at left
    have head : l.runningProcesses = some x.1 := owned.chain.1
    have tail := ih left (by simpa using enough)
    unfold freeLoop
    simp [head, removed, tail]

theorem free_process_list_owns {l : ProcessList} {xs : List (Nat × Process)}
    (owned : Owns l.heap l.runningProcesses xs) : freeProcessList l = some ⟨∅, none⟩ :=
  free_loop_owns owned (chain_length owned.chain)

def processAt (l : ProcessList) (p : Option Nat) : Option Process :=
  p.bind (fun a => (l.heap.lookup a).map Cell.item)

theorem searched_process {l : ProcessList} {xs : List (Nat × Process)}
    (chain : Chain l.heap l.runningProcesses xs) (found : Process → Bool) :
    ∃ p, search found l.heap l.runningProcesses = some p ∧
      processAt l p = (xs.map Prod.snd).find? found := by
  have mapped : (xs.map Prod.snd).find? found = (xs.find? (fun x => found x.2)).map Prod.snd :=
    List.find?_map
  refine ⟨_, search_chain chain, ?_⟩
  rw [mapped]
  cases hit : xs.find? (fun x => found x.2) with
  | none => rfl
  | some x =>
    obtain ⟨next, held⟩ := chain_held chain (List.mem_of_find?_eq_some hit)
    simp [processAt, held]

theorem find_process_model (pid : Int) (running : List Process) :
    ProcessStart.findProcess pid running = running.find? (fun p => p.pid = pid) := by
  induction running with
  | nil => rfl
  | cons p rest ih => by_cases same : p.pid = pid <;> simp [ProcessStart.findProcess, same, ih]

theorem find_safe_mode_process_model (running : List Process) :
    ProcessStart.findSafeModeProcess running =
      running.find? (fun p => p.config.type = .safeMode) := by
  induction running with
  | nil => rfl
  | cons p rest ih =>
    by_cases kind : p.config.type = .safeMode <;>
      simp [ProcessStart.findSafeModeProcess, kind, ih]

/-- In every run and under every allocator the pointer code keeps the tracked
    list: nothing faults, the allocated blocks are the cells of the list, both
    searches find what the model's searches find, and freeing the list leaves
    no block behind. -/
theorem process_cells_follow_run {table : BootTable} {trace : List (System × Event)}
    {sys : System} (run : InitRun table trace sys) (intact : sys.control.intact)
    (allocator : Allocator (List Effect) (Cell Process)) :
    ∃ l xs, follow allocator sys.state.kernel.log = some l ∧
      Owns l.heap l.runningProcesses xs ∧
      xs.map Prod.snd = sys.state.runningProcesses ∧
      (∀ pid, ∃ p, findProcess pid l = some p ∧
        processAt l p = ProcessStart.findProcess pid sys.state.runningProcesses) ∧
      (∃ p, findSafeModeProcess l = some p ∧
        processAt l p = ProcessStart.findSafeModeProcess sys.state.runningProcesses) ∧
      freeProcessList l = some ⟨∅, none⟩ := by
  obtain ⟨l, followed, xs, owned, listed⟩ := follow_holds allocator (run_fresh run intact)
  rw [← (run_exact run intact).tracked.as_logged] at listed
  refine ⟨l, xs, followed, owned, listed, ?_, ?_, free_process_list_owns owned⟩
  · intro pid
    rw [find_process_model, ← listed]
    exact searched_process owned.chain _
  · rw [find_safe_mode_process_model, ← listed]
    exact searched_process owned.chain _

theorem process_cells_follow_crash : ∃ trace sys l xs, InitRun sampleTable trace sys ∧
    follow firstFit sys.state.kernel.log = some l ∧
    Owns l.heap l.runningProcesses xs ∧ (xs.map Prod.snd).map Process.pid = [13, 12, 10] ∧
    freeProcessList l = some ⟨∅, none⟩ := by
  obtain ⟨run, rehearsed, waiting, pids⟩ : ∃ run ∈ rehearse sampleTable sampleBoot
      (.env (.childDies 11 crashed) :: handled .signal (childSignal [(11, crashed)] (-1)) []),
      run.2.control = .waiting ∧
      run.2.state.runningProcesses.map Process.pid = [13, 12, 10] := by
    decide +kernel
  have reached := init_run_of_rehearse rehearsed
  obtain ⟨l, xs, followed, owned, listed, _, _, freed⟩ :=
    process_cells_follow_run reached (waiting_intact waiting) firstFit
  exact ⟨run.1, run.2, l, xs, reached, followed, owned, listed ▸ pids, freed⟩

end ProcessCells
