import UNit.MainLoop

/-!
The tracked list is exact: it holds, without repetition, the children forked by
init that no wait result has named, in the order of their forks. It is kept
equal to what the history says and matched with the kernel's own children, so
a signal sent through it reaches a child of init that is still unreaped.
-/
namespace TrackedChildren
open InittabEntries SafeModeRecord ProcessHistory EventHistory KernelModel InitState ProcessStart
  ChildExit StageControl MainLoop LabelledRuns

structure Tracked (k : Kernel) (running : List Process) : Prop where
  children_nodup : (k.children.map Child.pid).Nodup
  children_legal : ∀ c ∈ k.children, 1 < c.pid ∧ c.pid < 2 ^ 31
  as_logged : running = live k.log
  nodup : (running.map Process.pid).Nodup
  matched : ∀ p : Process, p ∈ running ↔
    ∃ c ∈ k.children, c.pid = p.pid ∧ c.role.config = some p.config

theorem tracked_congr {k k' : Kernel} {running : List Process} (held : Tracked k running)
    (children : k'.children = k.children) (log : live k'.log = live k.log) :
    Tracked k' running where
  children_nodup := children ▸ held.children_nodup
  children_legal := children ▸ held.children_legal
  as_logged := log ▸ held.as_logged
  nodup := held.nodup
  matched := children ▸ held.matched

theorem tracked_legal {k : Kernel} {running : List Process} (held : Tracked k running) :
    ∀ p ∈ running, 1 < p.pid ∧ p.pid < 2 ^ 31 := by
  intro p member
  obtain ⟨c, child, same, _⟩ := (held.matched p).mp member
  exact same ▸ held.children_legal c child

theorem tracked_spawned {k : Kernel} {running : List Process} {pid : Int} {role : Role}
    {entry : InittabEntry} {effect : Effect} (held : Tracked k running) (free : k.PidFree pid)
    (config : role.config = some entry)
    (logged : live (effect :: k.log) = ⟨entry, pid⟩ :: live k.log) :
    Tracked ((k.spawned pid role).note effect) (⟨entry, pid⟩ :: running) where
  children_nodup := by
    simp only [Kernel.note, Kernel.spawned, List.map_cons, List.nodup_cons]
    exact ⟨free.2.2, held.children_nodup⟩
  children_legal := by
    intro c child
    rcases List.mem_cons.mp child with rfl | child
    · exact ⟨free.1, free.2.1⟩
    · exact held.children_legal c child
  as_logged := by
    simp only [Kernel.note, Kernel.spawned, logged, ← held.as_logged]
  nodup := by
    simp only [List.map_cons, List.nodup_cons]
    refine ⟨?_, held.nodup⟩
    intro member
    obtain ⟨p, tracked, same⟩ := List.mem_map.mp member
    obtain ⟨c, child, equal, _⟩ := (held.matched p).mp tracked
    exact free.2.2 (List.mem_map.mpr ⟨c, child, equal.trans same⟩)
  matched := by
    intro p
    simp only [Kernel.note, Kernel.spawned, List.mem_cons, exists_eq_or_imp]
    constructor
    · rintro (rfl | member)
      · exact Or.inl ⟨rfl, config⟩
      · exact Or.inr ((held.matched p).mp member)
    · rintro (⟨same, role_config⟩ | child)
      · left
        rw [config] at role_config
        cases p
        simp_all
      · exact Or.inr ((held.matched p).mpr child)

theorem tracked_waited {k : Kernel} {running : List Process} (held : Tracked k running)
    (pid : Int) (status : WaitStatus) :
    Tracked (k.waited pid status) (running.filter (fun p => p.pid ≠ pid)) where
  children_nodup := by
    refine List.Nodup.sublist ?_ held.children_nodup
    exact List.Sublist.map _ List.filter_sublist
  children_legal := by
    intro c child
    exact held.children_legal c (List.mem_of_mem_filter child)
  as_logged := by simp only [Kernel.waited, live, ← held.as_logged]
  nodup := by
    refine List.Nodup.sublist ?_ held.nodup
    exact List.Sublist.map _ List.filter_sublist
  matched := by
    intro p
    simp only [Kernel.waited, List.mem_filter, held.matched p, decide_eq_true_eq]
    constructor
    · rintro ⟨⟨c, child, same, config⟩, away⟩
      exact ⟨c, ⟨child, same ▸ away⟩, same, config⟩
    · rintro ⟨c, ⟨child, away⟩, same, config⟩
      exact ⟨⟨c, child, same, config⟩, same ▸ away⟩

theorem tracked_died {k : Kernel} {running : List Process} (held : Tracked k running)
    (pid : Int) (status : WaitStatus) : Tracked (k.died pid status) running := by
  have pids : (k.died pid status).children.map Child.pid = k.children.map Child.pid := by
    simp only [Kernel.died, List.map_map]
    apply List.map_congr_left
    intro c _
    simp only [Function.comp_apply]
    split <;> rfl
  have image : ∀ pid' config,
      (∃ c ∈ (k.died pid status).children, c.pid = pid' ∧ c.role.config = config) ↔
      ∃ c ∈ k.children, c.pid = pid' ∧ c.role.config = config := by
    intro pid' config
    simp only [Kernel.died, List.mem_map]
    constructor
    · rintro ⟨_, ⟨c, child, rfl⟩, same, role⟩
      refine ⟨c, child, ?_⟩
      split at same <;> split at role <;> exact ⟨same, role⟩
    · rintro ⟨c, child, same, role⟩
      refine ⟨_, ⟨c, child, rfl⟩, ?_⟩
      split <;> exact ⟨same, role⟩
  refine ⟨pids ▸ held.children_nodup, ?_, held.as_logged, held.nodup, ?_⟩
  · intro c child
    obtain ⟨c', child', same, _⟩ := (image c.pid c.role.config).mp ⟨c, child, rfl, rfl⟩
    exact same ▸ held.children_legal c' child'
  · intro p
    rw [image p.pid (some p.config)]
    exact held.matched p

theorem tracked_adopted {k : Kernel} {running : List Process} {pid : Int}
    (held : Tracked k running) (free : k.PidFree pid) :
    Tracked (k.spawned pid .orphan) running where
  children_nodup := by
    simp only [Kernel.spawned, List.map_cons, List.nodup_cons]
    exact ⟨free.2.2, held.children_nodup⟩
  children_legal := by
    intro c child
    rcases List.mem_cons.mp child with rfl | child
    · exact ⟨free.1, free.2.1⟩
    · exact held.children_legal c child
  as_logged := held.as_logged
  nodup := held.nodup
  matched := by
    intro p
    simp [Kernel.spawned, Role.config, held.matched p]

theorem tracked_env {k k' : Kernel} {running : List Process} {move : EnvMove}
    (held : Tracked k running) (moved : k.env move = some k') : Tracked k' running := by
  cases move with
  | childDies pid status =>
    simp only [Kernel.env, Option.map_eq_some_iff] at moved
    obtain ⟨c, _, rfl⟩ := moved
    refine tracked_congr (tracked_died held pid status) ?_ ?_ <;> cases c.role <;> rfl
  | adopted pid =>
    simp only [Kernel.env] at moved
    split at moved
    · rename_i free
      obtain rfl := Option.some.inj moved
      exact tracked_adopted held free
    · simp at moved
  | placeholderReads pid =>
    obtain ⟨q, _, rfl⟩ := placeholder_reads moved
    exact tracked_congr held rfl rfl

/-- The invariant of the whole state: the list is exact and every kill so far
    named a live child other than the safe-mode process. -/
structure ListExact (s : State) : Prop where
  tracked : Tracked s.kernel s.runningProcesses
  kills : Justified KillOnTarget s.kernel.log

theorem retimed_exact {s s' : State} (same : Retimed s s') (held : ListExact s) :
    ListExact s' := by
  obtain ⟨_, _, _, _, _, rfl⟩ := same
  exact ⟨held.tracked, held.kills⟩

theorem started_exact {s : State} {pid : Int} (held : ListExact s) (entry : InittabEntry)
    (free : s.kernel.PidFree pid) : ListExact (State.started s entry pid) := by
  have positive : 0 < pid := by have := free.1; omega
  refine ⟨tracked_spawned held.tracked free rfl ?_, trivial, held.kills⟩
  simp [positive]

theorem not_started_exact {s : State} (held : ListExact s) (entry : InittabEntry) :
    ListExact (State.notStarted s entry) :=
  ⟨tracked_congr held.tracked rfl (by simp [State.notStarted, Kernel.note]), trivial, held.kills⟩

theorem requested_exact {s : State} (held : ListExact s) (q : Nat) (info : SharedInfo) :
    ListExact (State.requested s q info) := by
  refine ⟨tracked_congr held.tracked rfl ?_, trivial, trivial, held.kills⟩
  simp [State.requested, Kernel.sent, Kernel.note, Kernel.setPipe]

theorem placed_exact {s : State} {pid : Int} (held : ListExact s) (entry : InittabEntry)
    (free : s.kernel.PidFree pid) :
    ListExact (State.placed (closePreviousPipe s) entry pid) := by
  obtain ⟨pipes, closed, _⟩ := close_previous_pipe_frame s
  rw [closed]
  have piped : Tracked ({ s.kernel with pipes := pipes } : Kernel).pipe2 s.runningProcesses :=
    tracked_congr held.tracked rfl rfl
  have unused : ({ s.kernel with pipes := pipes } : Kernel).pipe2.PidFree pid := free
  exact ⟨tracked_spawned piped unused rfl rfl, trivial, held.kills⟩

theorem spawn_entry_exact {answer : SpawnAnswer} {entry : InittabEntry} {has has' : Bool}
    {s s' : State} (held : ListExact s)
    (done : spawnEntry answer entry has s = .ok (has', s')) : ListExact s' := by
  rcases spawn_entry_cases done with ⟨pid, free, _, rfl⟩ | ⟨_, _, q, _, _, _, _, rfl⟩ | ⟨_, _, rfl⟩
  · exact started_exact held entry free
  · exact requested_exact (not_started_exact held entry) q _
  · exact not_started_exact held entry

theorem starts_exact {answer : StartAnswer} {list : List InittabEntry} {s s' : State}
    (held : ListExact s) (starts : Starts answer list s s') : ListExact s' := by
  obtain ⟨_, _, _, final, kept, same⟩ := starts_rule (fun _ _ _ s => ListExact s)
    (fun _ _ _ _ _ _ _ _ held _ done => spawn_entry_exact held done) starts
    (fun _ => ⟨held.tracked, held.kills⟩)
  exact retimed_exact same ⟨kept.tracked, kept.kills⟩

theorem reaped_exact {s : State} (held : ListExact s) (w : Int × WaitStatus)
    (p : Option Process) : ListExact (State.reaped s w p) := by
  have waited := tracked_waited held.tracked w.1 w.2
  cases p with
  | none => exact ⟨waited, trivial, held.kills⟩
  | some p =>
    obtain ⟨pending, log, counted, noted⟩ := decrease_pending_frame
      { s with kernel := s.kernel.waited w.1 w.2 } p
    simp only [State.reaped, counted]
    rcases noted with rfl | rfl
    · exact ⟨waited, trivial, held.kills⟩
    · exact ⟨tracked_congr waited rfl rfl, trivial, trivial, held.kills⟩

theorem reap_one_exact {w : Int × WaitStatus} {r r' : Reaping} {s s' : State}
    (held : ListExact s) (done : reapOne w r s = .ok (r', s')) : ListExact s' := by
  obtain ⟨rfl, _⟩ := reap_one_cases held.tracked.nodup done
  exact reaped_exact held w _

theorem request_exact {answers : List WriteAnswer} {r : Reaping} {s s' : State}
    (held : ListExact s) (done : requestSafeMode answers r s = .ok s') : ListExact s' := by
  rcases request_safe_mode_cases done with ⟨_, rfl⟩ | ⟨_, q, _, _, _, _, rfl⟩
  · exact held
  · exact requested_exact held q _

theorem handle_child_exit_exact {answer : ExitAnswer} {s s' : State} (held : ListExact s)
    (done : handleChildExit answer s = .ok s') : ListExact s' := by
  obtain ⟨r, s1, s2, reaped, requested, restarted⟩ := handle_child_exit_ok done
  have first : ListExact s1 := (reap_loop_rule (fun _ _ s => ListExact s)
    (fun _ _ _ _ _ _ held done => reap_one_exact held done) held reaped).1
  have second := request_exact first requested
  rcases restart_placeholder_cases restarted with ⟨_, rfl⟩ | ⟨_, pid, free, rfl⟩
  · exact second
  · exact placed_exact second _ free

theorem signal_all_observed {A : Type} (observe : List Effect → A)
    (blind : ∀ pid signal past, observe (.kill pid signal :: past) = observe past)
    (signal : KillSignal) (targets : List Process) (k : Kernel) :
    observe (signalAll signal targets k).log = observe k.log := by
  induction targets generalizing k with
  | nil => rfl
  | cons p rest ih =>
    simp only [signalAll]
    split
    · exact (ih (k.note (.kill p.pid signal))).trans (blind p.pid signal k.log)
    · exact ih k

theorem signal_all_kernel (signal : KillSignal) (targets : List Process) (k : Kernel) :
    signalAll signal targets k = { k with log := (signalAll signal targets k).log } := by
  induction targets generalizing k with
  | nil => rfl
  | cons p rest ih =>
    simp only [signalAll]
    split
    · exact ih (k.note (.kill p.pid signal))
    · exact ih k

theorem signal_all_kills (signal : KillSignal) (targets : List Process) (k : Kernel)
    (justified : Justified KillOnTarget k.log)
    (aimed : ∀ p ∈ targets, 0 < p.pid ∧ p ∈ live k.log) :
    Justified KillOnTarget (signalAll signal targets k).log := by
  induction targets generalizing k with
  | nil => exact justified
  | cons p rest ih =>
    have here := aimed p List.mem_cons_self
    have later : ∀ x ∈ rest, 0 < x.pid ∧ x ∈ live k.log :=
      fun x member => aimed x (List.mem_cons_of_mem p member)
    simp only [signalAll]
    split
    · rename_i plain
      exact ih (k.note (.kill p.pid signal))
        ⟨⟨here.1, p, here.2, rfl, plain⟩, justified⟩ later
    · exact ih k justified later

theorem signalled_exact {s : State} (held : ListExact s) (signal : KillSignal) :
    ListExact { s with kernel := signalAll signal s.runningProcesses s.kernel } := by
  have children := congrArg Kernel.children
    (signal_all_kernel signal s.runningProcesses s.kernel)
  have log := signal_all_observed live (fun _ _ _ => rfl) signal s.runningProcesses s.kernel
  refine ⟨tracked_congr held.tracked children log, ?_⟩
  apply signal_all_kills signal _ _ held.kills
  intro p member
  have legal := tracked_legal held.tracked p member
  exact ⟨by omega, held.tracked.as_logged ▸ member⟩

theorem shutdown_cmd_exact {s : State} (held : ListExact s) (answer : TimerAnswer)
    (command : RebootCommand) : ListExact (handleShutdownCmd answer command s) := by
  refine retimed_exact (handle_shutdown_cmd_retimed answer command s) ?_
  have noted : ListExact { s with kernel := s.kernel.note (.shutdownCommand command) } :=
    ⟨tracked_congr held.tracked rfl rfl, trivial, held.kills⟩
  have signalled := signalled_exact noted .sigterm
  exact ⟨signalled.tracked, signalled.kills⟩

theorem expire_exact {s : State} (held : ListExact s) (t : MainloopTimeout) :
    ListExact (expire t s) := by
  rcases expire_cases t s with same | same
  · exact retimed_exact same held
  · exact retimed_exact same (signalled_exact held .sigkill)

theorem maintained_exact {answer : StartAnswer} {s s' : State} (held : ListExact s)
    (done : Maintained answer s s') : ListExact s' := by
  cases done with
  | unchanged same => exact retimed_exact same held
  | started _ _ before starts => exact starts_exact (retimed_exact before held) starts
  | toRun _ _ _ same => exact retimed_exact same ⟨held.tracked, held.kills⟩
  | toClose _ _ _ same => exact retimed_exact same ⟨held.tracked, held.kills⟩
  | toShutdown _ _ starts same =>
    have entering : ListExact { s with currentStage := .shutdown } := ⟨held.tracked, held.kills⟩
    exact retimed_exact same (starts_exact entering starts)
  | straightToClose _ _ _ same => exact retimed_exact same ⟨held.tracked, held.kills⟩

theorem state_step_exact {s s' : State} {event : Event} (held : ListExact s)
    (stepped : StateStep s event s') : ListExact s' := by
  cases stepped with
  | env moved => exact ⟨tracked_env held.tracked moved, (env_frame moved).log ▸ held.kills⟩
  | idle => exact held
  | childExit _ _ done => exact handle_child_exit_exact held done
  | shutdownCmd answer command => exact shutdown_cmd_exact held _ command
  | expired _ => exact expire_exact held _
  | maintained _ done => exact maintained_exact held (stage_maintenance_maintained done)

theorem initial_exact (table : BootTable) : ListExact (State.initial table) := by
  refine ⟨⟨List.nodup_nil, ?_, rfl, List.nodup_nil, ?_⟩, trivial⟩
  · intro c child
    simp [State.initial, Kernel.initial] at child
  · intro p
    simp [State.initial, Kernel.initial]

theorem start_processes_exact {answer : StartAnswer} {list : List InittabEntry} {s s' : State}
    {result : Bool} (held : ListExact s)
    (done : startProcesses answer list s = .ok (result, s')) : ListExact s' := by
  rcases start_processes_cases done with ⟨_, rfl⟩ | starts
  · exact held
  · exact starts_exact held starts

theorem boot_exact {table : BootTable} {answer : BootAnswer} {sys : System}
    (booted : boot table answer = some sys) (intact : sys.control.intact) :
    ListExact sys.state := by
  obtain ⟨s, pid, result, s', watched, free, started, rfl⟩ := boot_intact booted intact
  have ready := placed_exact (retimed_exact watched (initial_exact table))
    table.safeModeEntry free
  have entered : ListExact { State.placed (closePreviousPipe s) table.safeModeEntry pid with
      currentStage := .startup } := ⟨ready.tracked, ready.kills⟩
  have final := start_processes_exact entered started
  exact ⟨final.tracked, final.kills⟩

theorem run_exact {table : BootTable} {trace : List (System × Event)} {sys : System}
    (run : InitRun table trace sys) (intact : sys.control.intact) : ListExact sys.state :=
  init_run_invariant (fun _ _ => True) ListExact run intact (meets_always trace)
    (fun _ _ booted intact => boot_exact booted intact)
    (fun _ _ _ held _ stepped => state_step_exact held stepped)

/-- After every event of every run: no pid twice, positive pids only, exactly
    the children forked by init that no wait result has named, each matched with
    an unreaped child of the kernel, and every kill so far on target. -/
theorem tracked_list_exact {table : BootTable} {trace : List (System × Event)} {sys : System}
    (run : InitRun table trace sys) (intact : sys.control.intact) :
    (sys.state.runningProcesses.map Process.pid).Nodup ∧
    (∀ p ∈ sys.state.runningProcesses, 0 < p.pid) ∧
    sys.state.runningProcesses = live sys.state.kernel.log ∧
    (∀ p : Process, p ∈ sys.state.runningProcesses ↔
      ∃ c ∈ sys.state.kernel.children, c.pid = p.pid ∧ c.role.config = some p.config) ∧
    ∀ later past pid signal, sys.state.kernel.log = later ++ .kill pid signal :: past →
      0 < pid ∧ ∃ p ∈ live past, p.pid = pid ∧ p.config.type ≠ .safeMode := by
  have held := run_exact run intact
  refine ⟨held.tracked.nodup, ?_, held.tracked.as_logged, held.tracked.matched, ?_⟩
  · intro p member
    have legal := tracked_legal held.tracked p member
    omega
  · intro later past pid signal split
    exact justified_iff.mp held.kills later (.kill pid signal) past split

theorem tracked_list_exact_on_shutdown : ∃ trace sys, InitRun sampleTable trace sys ∧
    sys.state.runningProcesses.map Process.pid = [13, 12, 10] ∧
    sys.state.runningProcesses = live sys.state.kernel.log ∧
    ∃ p ∈ live sys.state.kernel.log.tail, p.pid = 12 ∧ p.config.type ≠ .safeMode := by
  obtain ⟨run, rehearsed, waiting, pids, last⟩ : ∃ run ∈ rehearse sampleTable sampleBoot
      (.env (.childDies 11 crashed) :: handled .signal (childSignal [(11, crashed)] (-1)) [] ++
        handled .signal termSignal []),
      run.2.control = .waiting ∧ run.2.state.runningProcesses.map Process.pid = [13, 12, 10] ∧
      run.2.state.kernel.log.head? = some (.kill 12 .sigterm) := by
    decide +kernel
  have reached := init_run_of_rehearse rehearsed
  obtain ⟨_, _, logged, _, kills⟩ := tracked_list_exact reached (waiting_intact waiting)
  obtain ⟨_, target⟩ := kills [] _ 12 .sigterm (List.eq_cons_of_mem_head? last)
  exact ⟨run.1, run.2, reached, pids, logged, target⟩

end TrackedChildren
