import UNit.HaltCauses
import UNit.ProcessCells
import UNit.ShutdownCourse

/-!
The order of the signals init sends. Each accepted shutdown command is followed
at once by SIGTERM to every live child but the safe-mode process, SIGTERM is
sent at no other time, and SIGKILL goes only to a child that has got SIGTERM
since it was forked. The command kept for reboot(2) is the last one accepted.
-/
namespace ShutdownSignals
open InittabEntries ProcessHistory EventHistory KernelModel InitState ProcessStart ChildExit
  StageControl MainLoop LabelledRuns LoopFrames TrackedChildren StateMoves ShutdownCourse
  HaltCauses
open ProcessCells (signal_all_justified free_pid_fresh)

def broadcast (signal : KillSignal) (targets : List Process) : List Effect :=
  ((targets.filter (fun p => p.config.type ≠ .safeMode)).map
    (fun p => .kill p.pid signal)).reverse

/-- The child with this pid was sent SIGTERM since it was forked. -/
@[simp] def warned (pid : Int) : List Effect → Bool
  | [] => false
  | .fork _ result :: past => if result = pid then false else warned pid past
  | .placeholder _ child _ :: past => if child = pid then false else warned pid past
  | .reap child _ :: past => if child = pid then false else warned pid past
  | .kill child .sigterm :: past => if child = pid then true else warned pid past
  | .kill _ .sigkill :: past => warned pid past
  | .request _ _ :: past => warned pid past
  | .record _ _ :: past => warned pid past
  | .pendingDecreased _ :: past => warned pid past
  | .shutdownCommand _ :: past => warned pid past

@[simp] def lastCommand : List Effect → RebootCommand
  | [] => .autoboot
  | .shutdownCommand command :: _ => command
  | .fork _ _ :: past => lastCommand past
  | .placeholder _ _ _ :: past => lastCommand past
  | .reap _ _ :: past => lastCommand past
  | .request _ _ :: past => lastCommand past
  | .record _ _ :: past => lastCommand past
  | .kill _ _ :: past => lastCommand past
  | .pendingDecreased _ :: past => lastCommand past

def KillAllowed (past : List Effect) : Effect → Prop
  | .kill pid .sigkill => warned pid past = true
  | _ => True

def TermAllowed (past : List Effect) : Effect → Prop
  | .kill pid .sigterm => ∃ middle command older,
      past = middle ++ .shutdownCommand command :: older ∧
      .kill pid .sigterm :: middle <:+ broadcast .sigterm (live older)
  | _ => True

def Announced (log : List Effect) : Prop :=
  ∀ later command past, log = later ++ .shutdownCommand command :: past →
    ∃ newer, later = newer ++ broadcast .sigterm (live past)

def isQuiet : Effect → Bool
  | .kill _ _ => false
  | .shutdownCommand _ => false
  | _ => true

theorem signal_all_log (signal : KillSignal) (targets : List Process) (k : Kernel) :
    (signalAll signal targets k).log = broadcast signal targets ++ k.log := by
  induction targets generalizing k with
  | nil => rfl
  | cons p rest ih =>
    simp only [signalAll]
    rw [ih]
    by_cases kind : p.config.type = .safeMode <;> simp [broadcast, kind, Kernel.note]

theorem mem_broadcast {signal : KillSignal} {targets : List Process} {effect : Effect}
    (member : effect ∈ broadcast signal targets) :
    ∃ p ∈ targets, p.config.type ≠ .safeMode ∧ effect = .kill p.pid signal := by
  simp only [broadcast, List.mem_reverse, List.mem_map, List.mem_filter] at member
  obtain ⟨p, ⟨listed, kind⟩, rfl⟩ := member
  exact ⟨p, listed, by simpa using kind, rfl⟩

theorem broadcast_mem {signal : KillSignal} {targets : List Process} {p : Process}
    (member : p ∈ targets) (kind : p.config.type ≠ .safeMode) :
    .kill p.pid signal ∈ broadcast signal targets := by
  simp only [broadcast, List.mem_reverse, List.mem_map, List.mem_filter]
  exact ⟨p, ⟨member, by simpa using kind⟩, rfl⟩

theorem announced_cons {effect : Effect} {log : List Effect} (other : isCommand effect = false)
    (held : Announced log) : Announced (effect :: log) := by
  intro later command past split
  cases later with
  | nil =>
    obtain ⟨rfl, _⟩ := List.cons.inj split
    simp [isCommand] at other
  | cons first later =>
    obtain ⟨rfl, tail⟩ := List.cons.inj split
    obtain ⟨newer, rfl⟩ := held later command past tail
    exact ⟨effect :: newer, rfl⟩

theorem announced_append {effects log : List Effect}
    (others : ∀ e ∈ effects, isCommand e = false) (held : Announced log) :
    Announced (effects ++ log) := by
  induction effects with
  | nil => exact held
  | cons e rest ih =>
    exact announced_cons (others e List.mem_cons_self)
      (ih (fun x member => others x (List.mem_cons_of_mem e member)))

theorem broadcast_no_command {signal : KillSignal} {targets : List Process} :
    ∀ e ∈ broadcast signal targets, isCommand e = false := by
  intro e member
  obtain ⟨p, _, _, rfl⟩ := mem_broadcast member
  rfl

theorem announced_commanded {log : List Effect} (command : RebootCommand)
    (held : Announced log) :
    Announced (broadcast .sigterm (live log) ++ .shutdownCommand command :: log) := by
  intro later other past split
  rcases List.append_eq_append_iff.mp split with ⟨front, rfl, tail⟩ | ⟨middle, broadcasted, tail⟩
  · cases front with
    | nil =>
      obtain ⟨_, rfl⟩ := List.cons.inj tail
      exact ⟨[], by simp⟩
    | cons first front =>
      obtain ⟨rfl, older⟩ := List.cons.inj tail
      obtain ⟨newer, rfl⟩ := held front other past older
      exact ⟨broadcast .sigterm (live log) ++ .shutdownCommand command :: newer, by simp⟩
  · -- The broadcast itself holds no command.
    cases middle with
    | nil =>
      obtain ⟨_, rfl⟩ := List.cons.inj (show
        Effect.shutdownCommand other :: past = .shutdownCommand command :: log from tail)
      exact ⟨[], by simpa using broadcasted.symm⟩
    | cons first middle =>
      obtain ⟨rfl, _⟩ := List.cons.inj tail
      have inside : Effect.shutdownCommand other ∈ broadcast .sigterm (live log) := by
        simp [broadcasted]
      have := broadcast_no_command _ inside
      simp [isCommand] at this

theorem term_broadcast_allowed {log : List Effect} (command : RebootCommand)
    (held : Justified TermAllowed log) {part : List Effect}
    (suffix : part <:+ broadcast .sigterm (live log)) :
    Justified TermAllowed (part ++ .shutdownCommand command :: log) := by
  induction part with
  | nil => exact ⟨trivial, held⟩
  | cons e rest ih =>
    obtain ⟨p, _, _, rfl⟩ := mem_broadcast (suffix.subset List.mem_cons_self)
    have shorter : rest <:+ broadcast .sigterm (live log) :=
      (List.suffix_cons _ rest).trans suffix
    exact ⟨⟨rest, command, log, rfl, suffix⟩, ih shorter⟩

theorem warned_kills {part : List Effect} (pid : Int) (log : List Effect)
    (signals : ∀ e ∈ part, ∃ child, e = .kill child .sigkill) :
    warned pid (part ++ log) = warned pid log := by
  induction part with
  | nil => rfl
  | cons e rest ih =>
    obtain ⟨child, rfl⟩ := signals e List.mem_cons_self
    exact ih (fun x member => signals x (List.mem_cons_of_mem _ member))

theorem warned_signalled {pid : Int} {part log : List Effect}
    (member : .kill pid .sigterm ∈ part)
    (signals : ∀ e ∈ part, ∃ child, e = .kill child .sigterm) :
    warned pid (part ++ log) = true := by
  induction part with
  | nil => simp at member
  | cons e rest ih =>
    obtain ⟨child, rfl⟩ := signals e List.mem_cons_self
    by_cases same : child = pid
    · simp [same]
    · have later : .kill pid .sigterm ∈ rest := by
        rcases List.mem_cons.mp member with equal | later
        · exact absurd (by simpa using equal.symm) same
        · exact later
      simpa [same] using ih later (fun x member => signals x (List.mem_cons_of_mem _ member))

theorem kills_allowed {part log : List Effect} (held : Justified KillAllowed log)
    (ready : ∀ e ∈ part, ∃ pid, e = .kill pid .sigkill ∧ warned pid log = true) :
    Justified KillAllowed (part ++ log) := by
  induction part with
  | nil => exact held
  | cons e rest ih =>
    obtain ⟨pid, rfl, told⟩ := ready e List.mem_cons_self
    have later : ∀ x ∈ rest, ∃ pid, x = .kill pid .sigkill ∧ warned pid log = true :=
      fun x member => ready x (List.mem_cons_of_mem _ member)
    have blind := warned_kills pid log (fun x member => (later x member).imp (fun _ h => h.1))
    exact ⟨blind.trans told, ih later⟩

theorem quiet_allowed (log : List Effect) {part : List Effect}
    (quiet : ∀ e ∈ part, isQuiet e = true) :
    (Justified KillAllowed log → Justified KillAllowed (part ++ log)) ∧
    (Justified TermAllowed log → Justified TermAllowed (part ++ log)) ∧
    (Announced log → Announced (part ++ log)) ∧
    lastCommand (part ++ log) = lastCommand log := by
  induction part with
  | nil => exact ⟨id, id, id, rfl⟩
  | cons e rest ih =>
    have here := quiet e List.mem_cons_self
    obtain ⟨kills, terms, announced, last⟩ :=
      ih (fun x member => quiet x (List.mem_cons_of_mem _ member))
    have plain : isCommand e = false := by cases e <;> simp_all [isQuiet, isCommand]
    refine ⟨fun held => ⟨?_, kills held⟩, fun held => ⟨?_, terms held⟩,
      fun held => announced_cons plain (announced held), ?_⟩
    all_goals cases e <;> simp_all [isQuiet, KillAllowed, TermAllowed]

/-- The signals sent so far are in order, and while processes are terminated
    all of them have been warned. -/
structure Ordered (s : State) : Prop where
  warned : s.currentStage = .termination →
    ∀ p ∈ s.runningProcesses, p.config.type ≠ .safeMode → warned p.pid s.kernel.log = true
  kills : Justified KillAllowed s.kernel.log
  terms : Justified TermAllowed s.kernel.log
  announced : Announced s.kernel.log
  command : s.shutdownCommand = lastCommand s.kernel.log

theorem quiet_ordered {s t : State} (part : List Effect) (held : Ordered s)
    (logged : t.kernel.log = part ++ s.kernel.log) (quiet : ∀ e ∈ part, isQuiet e = true)
    (command : t.shutdownCommand = s.shutdownCommand)
    (warned : t.currentStage = .termination →
      ∀ p ∈ t.runningProcesses, p.config.type ≠ .safeMode → warned p.pid t.kernel.log = true) :
    Ordered t := by
  obtain ⟨kills, terms, announced, last⟩ := quiet_allowed s.kernel.log quiet
  refine ⟨warned, ?_, ?_, ?_, ?_⟩
  · rw [logged]
    exact kills held.kills
  · rw [logged]
    exact terms held.terms
  · rw [logged]
    exact announced held.announced
  · rw [logged, last, command]
    exact held.command

theorem commanded_ordered {s : State} (exact : ListExact s) (held : Ordered s)
    (command : RebootCommand) : Ordered (State.commanded s command) := by
  have logged : (State.commanded s command).kernel.log =
      broadcast .sigterm (live s.kernel.log) ++ .shutdownCommand command :: s.kernel.log := by
    rw [← exact.tracked.as_logged]
    exact signal_all_log .sigterm s.runningProcesses _
  refine ⟨?_, ?_, ?_, ?_, ?_⟩
  · intro _ p member kind
    rw [logged, ← exact.tracked.as_logged]
    refine warned_signalled (broadcast_mem member kind) ?_
    intro e sent
    obtain ⟨q, _, _, rfl⟩ := mem_broadcast sent
    exact ⟨q.pid, rfl⟩
  · exact signal_all_justified .sigterm (fun _ _ => trivial) _ _ ⟨trivial, held.kills⟩
  · rw [logged]
    exact term_broadcast_allowed command held.terms (List.suffix_refl _)
  · rw [logged]
    exact announced_commanded command held.announced
  · exact (signal_all_observed lastCommand (fun _ _ _ => rfl) .sigterm s.runningProcesses
      (s.kernel.note (.shutdownCommand command))).symm

theorem killed_ordered {s : State} (held : Ordered s) (ending : s.currentStage = .termination) :
    Ordered (State.killed s) := by
  have logged : (State.killed s).kernel.log =
      broadcast .sigkill s.runningProcesses ++ s.kernel.log := signal_all_log .sigkill _ _
  have signals : ∀ e ∈ broadcast .sigkill s.runningProcesses,
      ∃ pid, e = .kill pid .sigkill ∧ warned pid s.kernel.log = true := by
    intro e sent
    obtain ⟨p, member, kind, rfl⟩ := mem_broadcast sent
    exact ⟨p.pid, rfl, held.warned ending p member kind⟩
  refine ⟨?_, ?_, ?_, ?_, ?_⟩
  · intro _ p member kind
    rw [logged, warned_kills p.pid _ (fun e sent => (signals e sent).imp (fun _ h => h.1))]
    exact held.warned ending p member kind
  · rw [logged]
    exact kills_allowed held.kills signals
  · exact signal_all_justified .sigkill (fun _ _ => trivial) _ _ held.terms
  · rw [logged]
    exact announced_append broadcast_no_command held.announced
  · rw [show (State.killed s).shutdownCommand = s.shutdownCommand from rfl, held.command]
    exact (signal_all_observed lastCommand (fun _ _ _ => rfl) .sigkill _ _).symm

theorem move_ordered {s t : State} (exact : ListExact s) (held : Ordered s) (move : Move s t) :
    Ordered t := by
  cases move with
  | env moved =>
    refine quiet_ordered [] held (env_frame moved).log (by simp) rfl ?_
    intro ending p member kind
    rw [(env_frame moved).log]
    exact held.warned ending p member kind
  | retimed same =>
    obtain ⟨_, _, _, _, _, rfl⟩ := same
    exact ⟨held.warned, held.kills, held.terms, held.announced, held.command⟩
  | recounted => exact ⟨held.warned, held.kills, held.terms, held.announced, held.command⟩
  | restaged _ _ forward =>
    exact ⟨fun ending => absurd ending forward, held.kills, held.terms, held.announced,
      held.command⟩
  | @started pid entry _ starting =>
    exact quiet_ordered [.fork entry pid] held rfl (by simp [isQuiet]) rfl
      (fun ending => absurd ending starting)
  | notStarted entry =>
    refine quiet_ordered [.fork entry (-1)] held rfl (by simp [isQuiet]) rfl ?_
    intro ending p member kind
    have legal := tracked_legal exact.tracked p member
    have other : (-1 : Int) ≠ p.pid := by omega
    simpa [State.notStarted, Kernel.note, other] using held.warned ending p member kind
  | requested _ info =>
    exact quiet_ordered [_, _] held rfl (by simp [isQuiet]) rfl held.warned
  | @placed pid free =>
    obtain ⟨pipes, closed, _⟩ := close_previous_pipe_frame s
    rw [closed]
    refine quiet_ordered [_] held rfl (by simp [isQuiet]) rfl ?_
    intro ending p member kind
    rcases List.mem_cons.mp member with rfl | older
    · exact absurd s.table.safe_mode_kind kind
    · have other : pid ≠ p.pid := by
        intro same
        refine free_pid_fresh exact free ?_
        rw [← exact.tracked.as_logged, same]
        exact List.mem_map_of_mem older
      have told : warned p.pid s.kernel.log = true := held.warned ending p older kind
      simpa [State.placed, Kernel.note, Kernel.spawned, Kernel.pipe2, Kernel.setPipe, other]
        using told
  | reaped w =>
    obtain ⟨_, log, shape, noted⟩ := reaped_frame s w (findProcess w.1 s.runningProcesses)
    rw [shape]
    have still : s.currentStage = .termination →
        ∀ p ∈ s.runningProcesses.filter (fun q => q.pid ≠ w.1), p.config.type ≠ .safeMode →
          w.1 ≠ p.pid ∧ warned p.pid s.kernel.log = true := by
      intro ending p member kind
      obtain ⟨listed, other⟩ := List.mem_filter.mp member
      exact ⟨fun same => by simp [same] at other, held.warned ending p listed kind⟩
    rcases noted with rfl | ⟨value, rfl⟩
    · refine quiet_ordered [_] held rfl (by simp [isQuiet]) rfl ?_
      intro ending p member kind
      obtain ⟨other, told⟩ := still ending p member kind
      simpa [other] using told
    · refine quiet_ordered [_, _] held rfl (by simp [isQuiet]) rfl ?_
      intro ending p member kind
      obtain ⟨other, told⟩ := still ending p member kind
      simpa [other] using told
  | commanded command => exact commanded_ordered exact held command
  | killed ending => exact killed_ordered held ending

theorem run_ordered {table : BootTable} {trace : List (System × Event)} {sys : System}
    (run : InitRun table trace sys) (intact : sys.control.intact) : Ordered sys.state := by
  refine run_move_rule Ordered run intact ?_
    (fun _ _ exact held move => move_ordered exact held move)
  refine ⟨?_, trivial, trivial, ?_, rfl⟩
  · intro ending
    simp [State.initial] at ending
  · intro later command past split
    simp [State.initial, Kernel.initial] at split

/-- In every run: SIGKILL only for a child warned since its fork, every command
    followed at once by its broadcast, SIGTERM only as part of such a broadcast. -/
theorem signals_in_order {table : BootTable} {trace : List (System × Event)} {sys : System}
    (run : InitRun table trace sys) (intact : sys.control.intact) :
    (∀ later pid past, sys.state.kernel.log = later ++ .kill pid .sigkill :: past →
      warned pid past = true) ∧
    (∀ later command past, sys.state.kernel.log = later ++ .shutdownCommand command :: past →
      ∃ newer, later = newer ++ broadcast .sigterm (live past)) ∧
    ∀ later pid past, sys.state.kernel.log = later ++ .kill pid .sigterm :: past →
      ∃ middle command older, past = middle ++ .shutdownCommand command :: older ∧
        .kill pid .sigterm :: middle <:+ broadcast .sigterm (live older) := by
  have held := run_ordered run intact
  refine ⟨?_, held.announced, ?_⟩
  · intro later pid past split
    exact justified_iff.mp held.kills later (.kill pid .sigkill) past split
  · intro later pid past split
    exact justified_iff.mp held.terms later (.kill pid .sigterm) past split

theorem signals_in_order_for_sample : ∃ trace sys, InitRun sampleTable trace sys ∧
    sys.state.kernel.log.head? = some (.kill 12 .sigkill) ∧
    warned 12 sys.state.kernel.log.tail = true := by
  obtain ⟨run, rehearsed, waiting, last⟩ : ∃ run ∈ rehearse sampleTable sampleBoot
      (handled .signal termSignal [] ++
        [.env (.childDies 11 (.exited 0)), .env (.childDies 13 (.exited 0))] ++
        handled .signal (childSignal [(11, .exited 0), (13, .exited 0)] (-1)) [] ++
        handled (.timeout 2) .expired []),
      run.2.control = .waiting ∧
      run.2.state.kernel.log.head? = some (.kill 12 .sigkill) := by
    decide +kernel
  have reached := init_run_of_rehearse rehearsed
  obtain ⟨kills, _, _⟩ := signals_in_order reached (waiting_intact waiting)
  exact ⟨run.1, run.2, reached, last, kills [] 12 _ (List.eq_cons_of_mem_head? last)⟩

theorem move_log_grows {s t : State} (move : Move s t) :
    ∃ new, t.kernel.log = new ++ s.kernel.log := by
  cases move with
  | env moved => exact ⟨[], (env_frame moved).log⟩
  | retimed same =>
    obtain ⟨_, _, _, _, _, rfl⟩ := same
    exact ⟨[], rfl⟩
  | recounted => exact ⟨[], rfl⟩
  | restaged => exact ⟨[], rfl⟩
  | @started pid entry _ _ => exact ⟨[.fork entry pid], rfl⟩
  | notStarted entry => exact ⟨[.fork entry (-1)], rfl⟩
  | requested _ info => exact ⟨[_, _], rfl⟩
  | placed free =>
    obtain ⟨pipes, closed, _⟩ := close_previous_pipe_frame s
    rw [closed]
    exact ⟨[_], rfl⟩
  | reaped w =>
    obtain ⟨_, log, shape, rfl | ⟨value, rfl⟩⟩ := reaped_frame s w
      (findProcess w.1 s.runningProcesses)
    · rw [shape]
      exact ⟨[_], rfl⟩
    · rw [shape]
      exact ⟨[_, _], rfl⟩
  | commanded command =>
    refine ⟨broadcast .sigterm s.runningProcesses ++ [.shutdownCommand command], ?_⟩
    rw [State.commanded, signal_all_log]
    simp [Kernel.note]
  | killed _ => exact ⟨_, signal_all_log .sigkill s.runningProcesses s.kernel⟩

theorem moves_commanded {s t : State} (moves : Moves s t) (before : Commanded s.kernel.log) :
    Commanded t.kernel.log := by
  induction moves with
  | refl => exact before
  | tail _ move ih =>
    obtain ⟨new, grown⟩ := move_log_grows move
    obtain ⟨command, member⟩ := ih
    exact ⟨command, by rw [grown]; exact List.mem_append_right new member⟩

structure AskedExit (table : BootTable) (s : State) : Prop where
  exact : ListExact s
  course : Course table s
  asked : s.shouldExit = true → Commanded s.kernel.log

theorem step_asked {table : BootTable} {s t : State} {event : Event} (held : AskedExit table s)
    (stepped : StateStep s event t) : AskedExit table t := by
  have course := state_step_course held.course stepped
  refine ⟨state_step_exact held.exact stepped, course, ?_⟩
  have kept : t.shouldExit = s.shouldExit → t.shouldExit = true → Commanded t.kernel.log :=
    fun same exiting => moves_commanded (state_step_moves held.exact stepped)
      (held.asked (same.symm.trans exiting))
  cases stepped with
  | env _ => exact kept rfl
  | idle => exact kept rfl
  | childExit _ _ done =>
    exact kept (reprocessed_undisturbed (handle_child_exit_reprocessed done)).exit
  | shutdownCmd answer command => exact kept (shutdown_cmd_steady _ command s).exit
  | expired _ => exact kept (expire_steady _ s).exit
  | maintained _ done =>
    obtain ⟨u, advanced, ⟨_, rfl⟩ | ⟨closed, rfl⟩⟩ := stage_maintenance_cases done
    · exact kept (advance_stage_frame advanced).1.exit
    · intro _
      have stage := course.stage
      have there : ({ u with shouldExit := true } : State).currentStage = .close := closed
      rw [there] at stage
      exact stage.1

theorem run_asked {table : BootTable} {trace : List (System × Event)} {sys : System}
    (run : InitRun table trace sys) (intact : sys.control.intact) : AskedExit table sys.state := by
  refine init_run_invariant (fun _ _ => True) (AskedExit table) run intact (meets_always trace)
    ?_ (fun _ _ _ held _ stepped => step_asked held stepped)
  intro answer first booted intact
  refine ⟨boot_exact booted intact, boot_course booted intact, ?_⟩
  obtain ⟨_, _, _, _, _, _, _, rfl⟩ := boot_intact booted intact
  intro exiting
  simp at exiting

theorem left_exits {table : BootTable} {trace : List (System × Event)} {sys : System}
    (run : InitRun table trace sys) (left : sys.control = .left) :
    sys.state.shouldExit = true := by
  obtain ⟨answer, first, booted, steps⟩ := run
  cases steps with
  | start =>
    obtain ⟨_, _, _, _, _, _, _, rfl⟩ := boot_intact booted (by simp [Control.intact, left])
    simp at left
  | next _ now =>
    cases step_cases now with
    | env running _ =>
      dsimp only at left
      rw [left] at running
      simp [Control.running] at running
    | ready _ => simp at left
    | eintr _ => simp at left
    | failed _ => simp at left
    | @dispatched _ _ _ _ outcome _ => cases outcome <;> simp [settle] at left
    | posted s queue answer =>
      cases outcome : runPostCallback answer s with
      | error stop => simp [outcome, settle] at left
      | ok t =>
        simp only [outcome, settle, loopHead] at left ⊢
        split at left
        · split at left
          · assumption
          · simp at left
        · simp at left

/-- The argument of reboot(2) at the end of main, which is reached when the loop
    was left and when reading an event has failed. -/
def rebootCall (sys : System) : Option RebootCommand :=
  match sys.control with
  | .left => some sys.state.shutdownCommand
  | .halted .readError => some sys.state.shutdownCommand
  | _ => none

theorem read_error_ordered {table : BootTable} {trace : List (System × Event)} {sys : System}
    (run : InitRun table trace sys) (broken : sys.control = .halted .readError) :
    Ordered sys.state := by
  obtain ⟨answer, first, booted, steps⟩ := run
  rcases halts_for_read_error ⟨answer, first, booted, steps⟩ broken with
    ⟨before, event, earlier, rfl, same⟩
  cases steps with
  | next run now =>
    rw [same]
    exact run_ordered ⟨answer, first, booted, run⟩ (step_from_intact now)

/-- What init hands to reboot(2) is the last command it accepted, or the default
    when it gives up on a read error before any command; in no other way does it
    reboot unasked. -/
theorem reboots_as_commanded {table : BootTable} {trace : List (System × Event)} {sys : System}
    {command : RebootCommand} (run : InitRun table trace sys)
    (reboots : rebootCall sys = some command) :
    command = lastCommand sys.state.kernel.log ∧
      (Commanded sys.state.kernel.log ∨ sys.control = .halted .readError) := by
  unfold rebootCall at reboots
  split at reboots
  · rename_i left
    have intact : sys.control.intact := by simp [Control.intact, left]
    obtain rfl := Option.some.inj reboots
    exact ⟨(run_ordered run intact).command,
      Or.inl ((run_asked run intact).asked (left_exits run left))⟩
  · rename_i broken
    obtain rfl := Option.some.inj reboots
    exact ⟨(read_error_ordered run broken).command, Or.inr broken⟩
  · simp at reboots

theorem reboots_as_commanded_last : ∃ trace sys, InitRun sampleTable trace sys ∧
    rebootCall sys = some .powerOff ∧ lastCommand sys.state.kernel.log = .powerOff := by
  obtain ⟨run, rehearsed, reboots⟩ : ∃ run ∈ rehearse sampleTable sampleBoot
      (handled .signal termSignal [] ++
        handled .signal (.siginfo ⟨.sigusr2, ⟨⟨[], .noneDead⟩, [], ⟨true, true, -1⟩⟩, timerSet⟩) [] ++
        [.env (.childDies 11 (.exited 0)), .env (.childDies 12 (.exited 0)),
          .env (.childDies 13 (.exited 0))] ++
        handled .signal
          (childSignal [(11, .exited 0), (12, .exited 0), (13, .exited 0)] (-1)) [-1]
        ++ handled .signal (childSignal [] (-1)) []),
      rebootCall run.2 = some .powerOff := by
    decide +kernel
  have reached := init_run_of_rehearse rehearsed
  exact ⟨run.1, run.2, reached, reboots, (reboots_as_commanded reached reboots).1.symm⟩

end ShutdownSignals
