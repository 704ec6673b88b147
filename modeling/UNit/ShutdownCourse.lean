import UNit.BatchDispatch
import UNit.SafeModeRequests

/-!
The course of a shutdown. Every shutdown command, whenever it comes, starts the
shutdown over: what was started since the last one is a part of shutdown_list
from its beginning, and all of it when STAGE_CLOSE is reached. Entries of the
startup list are not forked any more after the first command.
-/
namespace ShutdownCourse
open InittabEntries SafeModeRecord ProcessHistory EventHistory KernelModel InitState ProcessStart
  ChildExit StageControl MainLoop LabelledRuns TrackedChildren SafeModeKeeping SafeModeRequests
  LoopFrames BatchDispatch

def isCommand : Effect → Bool
  | .shutdownCommand _ => true
  | _ => false

def isCourse : Effect → Bool
  | .fork _ _ => true
  | .shutdownCommand _ => true
  | _ => false

def Commanded (log : List Effect) : Prop := ∃ command, .shutdownCommand command ∈ log

def sinceCommand (log : List Effect) : List Effect := log.takeWhile (fun e => !isCommand e)

def shutdownAttempts (log : List Effect) : List InittabEntry :=
  attempts isShutdownEntry (sinceCommand log)

theorem shutdown_attempts_fork (e : InittabEntry) (result : Int) (log : List Effect) :
    shutdownAttempts (.fork e result :: log) =
      shutdownAttempts log ++ if isShutdownEntry e then [e] else [] := by
  simp [shutdownAttempts, sinceCommand, isCommand]

theorem shutdown_attempts_command (command : RebootCommand) (log : List Effect) :
    shutdownAttempts (.shutdownCommand command :: log) = [] := by
  simp [shutdownAttempts, sinceCommand, isCommand]

theorem shutdown_attempts_blind {effect : Effect} (other : isCourse effect = false)
    (log : List Effect) : shutdownAttempts (effect :: log) = shutdownAttempts log := by
  cases effect <;> simp_all [isCourse, shutdownAttempts, sinceCommand, isCommand]

theorem commanded_blind {effect : Effect} (other : isCommand effect = false)
    (log : List Effect) : Commanded (effect :: log) ↔ Commanded log := by
  cases effect <;> simp_all [Commanded, isCommand]

theorem course_no_command {effect : Effect} (other : isCourse effect = false) :
    isCommand effect = false := by
  cases effect <;> simp_all [isCourse, isCommand]

/-- A startup entry is forked only before the first command, a shutdown entry
    only after one and as the next of its list. -/
def ForkAllowed (table : BootTable) (past : List Effect) : Effect → Prop
  | .fork e _ => (isStartupEntry e = true → ¬ Commanded past) ∧
      (isShutdownEntry e = true →
        Commanded past ∧ shutdownAttempts past ++ [e] <+: table.shutdownList)
  | _ => True

variable {table : BootTable}

theorem fork_allowed_blind {effect : Effect} (other : isCourse effect = false)
    (log : List Effect) : Justified (ForkAllowed table) (effect :: log) ↔
      Justified (ForkAllowed table) log := by
  cases effect <;> simp_all [isCourse, Justified, ForkAllowed]

def StageCourse (table : BootTable) (remaining : List InittabEntry) (log : List Effect) :
    Stage → Prop
  | .setup => False
  | .startup => ¬ Commanded log ∧ ∀ e ∈ remaining, isStartupEntry e = true
  | .run => ¬ Commanded log
  | .termination => Commanded log ∧ shutdownAttempts log = []
  | .shutdown => Commanded log ∧ shutdownAttempts log ++ remaining = table.shutdownList
  | .close => Commanded log ∧ shutdownAttempts log = table.shutdownList

theorem stage_course_blind {effect : Effect} (other : isCourse effect = false)
    (remaining : List InittabEntry) (log : List Effect) (stage : Stage) :
    StageCourse table remaining (effect :: log) stage ↔
      StageCourse table remaining log stage := by
  cases stage <;> simp only [StageCourse, shutdown_attempts_blind other,
    commanded_blind (course_no_command other)]

structure Course (table : BootTable) (s : State) : Prop where
  same : s.table = table
  log : Justified (ForkAllowed table) s.kernel.log
  stage : StageCourse table s.remaining s.kernel.log s.currentStage

structure SameCourse (s t : State) : Prop where
  table : t.table = s.table
  remaining : t.remaining = s.remaining
  stage : t.currentStage = s.currentStage
  log : ∃ new, t.kernel.log = new ++ s.kernel.log ∧ ∀ effect ∈ new, isCourse effect = false

theorem same_course_refl (s : State) : SameCourse s s :=
  ⟨rfl, rfl, rfl, [], rfl, by simp⟩

theorem same_course_trans {s t u : State} (first : SameCourse s t) (second : SameCourse t u) :
    SameCourse s u := by
  obtain ⟨new, grown, blind⟩ := first.log
  obtain ⟨newer, grown', blind'⟩ := second.log
  refine ⟨second.table.trans first.table, second.remaining.trans first.remaining,
    second.stage.trans first.stage, newer ++ new, ?_, ?_⟩
  · rw [grown', grown, List.append_assoc]
  · intro effect member
    rcases List.mem_append.mp member with late | early
    · exact blind' effect late
    · exact blind effect early

theorem course_log_blind (table : BootTable) {new : List Effect}
    (blind : ∀ effect ∈ new, isCourse effect = false) (log : List Effect)
    (remaining : List InittabEntry) (stage : Stage) :
    (Justified (ForkAllowed table) (new ++ log) ↔ Justified (ForkAllowed table) log) ∧
    (StageCourse table remaining (new ++ log) stage ↔ StageCourse table remaining log stage) := by
  induction new with
  | nil => exact ⟨Iff.rfl, Iff.rfl⟩
  | cons effect rest ih =>
    obtain ⟨here, later⟩ := List.forall_mem_cons.mp blind
    obtain ⟨justified, stages⟩ := ih later
    exact ⟨(fork_allowed_blind here _).trans justified,
      (stage_course_blind here remaining _ stage).trans stages⟩

theorem same_course_kept {s t : State} (same : SameCourse s t) (held : Course table s) :
    Course table t := by
  obtain ⟨new, grown, blind⟩ := same.log
  obtain ⟨justified, stages⟩ :=
    course_log_blind table blind s.kernel.log s.remaining s.currentStage
  refine ⟨same.table.trans held.same, ?_, ?_⟩
  · rw [grown]
    exact justified.mpr held.log
  · rw [same.remaining, same.stage, grown]
    exact stages.mpr held.stage

theorem retimed_course {s t : State} (same : Retimed s t) : SameCourse s t := by
  obtain ⟨_, _, _, _, _, rfl⟩ := same
  exact ⟨rfl, rfl, rfl, [], rfl, by simp⟩

theorem reap_one_course {w : Int × WaitStatus} {r r' : Reaping} {s t : State}
    (done : reapOne w r s = .ok (r', t)) : SameCourse s t := by
  obtain ⟨_, _, _, rfl, rfl | ⟨value, rfl⟩⟩ := reap_one_frame done
  · exact ⟨rfl, rfl, rfl, [.reap w.1 w.2], rfl, by simp [isCourse]⟩
  · exact ⟨rfl, rfl, rfl, [.pendingDecreased value, .reap w.1 w.2], rfl, by simp [isCourse]⟩

theorem requested_course (s : State) (q : Nat) (info : SharedInfo) :
    SameCourse s (State.requested s q info) :=
  ⟨rfl, rfl, rfl, [.record q info, .request q (s.kernel.pipes q).consumed], rfl,
    by simp [isCourse]⟩

theorem placed_course (s : State) (entry : InittabEntry) (pid : Int) :
    SameCourse s (State.placed (closePreviousPipe s) entry pid) := by
  obtain ⟨_, closed, _⟩ := close_previous_pipe_frame s
  rw [closed]
  exact ⟨rfl, rfl, rfl, [.placeholder entry pid s.kernel.pipeCount], rfl, by simp [isCourse]⟩

theorem handle_child_exit_course {answer : ExitAnswer} {s s' : State}
    (done : handleChildExit answer s = .ok s') : SameCourse s s' := by
  obtain ⟨r, t, u, looped, requested, restarted⟩ := handle_child_exit_ok done
  have first : SameCourse s t := (reap_loop_rule (fun _ _ t => SameCourse s t)
    (fun _ _ _ _ _ _ held done => same_course_trans held (reap_one_course done))
    (same_course_refl s) looped).1
  have second : SameCourse s u := by
    rcases request_safe_mode_cases requested with ⟨_, rfl⟩ | ⟨_, q, _, _, _, _, rfl⟩
    · exact first
    · exact same_course_trans first (requested_course t q _)
  rcases restart_placeholder_cases restarted with ⟨_, rfl⟩ | ⟨_, pid, _, rfl⟩
  · exact second
  · exact same_course_trans second (placed_course u _ pid)

theorem signalled_course (signal : KillSignal) (targets : List Process) (s : State) :
    SameCourse s { s with kernel := signalAll signal targets s.kernel } := by
  suffices grows : ∃ new, (signalAll signal targets s.kernel).log = new ++ s.kernel.log ∧
      ∀ effect ∈ new, isCourse effect = false from ⟨rfl, rfl, rfl, grows⟩
  generalize s.kernel = k
  induction targets generalizing k with
  | nil => exact ⟨[], rfl, by simp⟩
  | cons p rest ih =>
    simp only [signalAll]
    split
    · obtain ⟨new, grown, blind⟩ := ih (k.note (.kill p.pid signal))
      refine ⟨new ++ [.kill p.pid signal], ?_, ?_⟩
      · rw [grown, List.append_assoc]
        rfl
      · intro effect member
        rcases List.mem_append.mp member with late | early
        · exact blind effect late
        · simp_all [isCourse]
    · exact ih k

structure Forking (table : BootTable) (list : List InittabEntry) (t : State) : Prop where
  same : t.table = table
  log : Justified (ForkAllowed table) t.kernel.log
  starting : t.currentStage = .startup ∨ t.currentStage = .shutdown
  stage : StageCourse table list t.kernel.log t.currentStage

theorem forking_fork {entry : InittabEntry} {rest : List InittabEntry} {t : State}
    (held : Forking table (entry :: rest) t) (result : Int) :
    Justified (ForkAllowed table) (.fork entry result :: t.kernel.log) ∧
      StageCourse table rest (.fork entry result :: t.kernel.log) t.currentStage := by
  have stage := held.stage
  have going : Commanded (.fork entry result :: t.kernel.log) ↔ Commanded t.kernel.log :=
    commanded_blind rfl t.kernel.log
  rcases held.starting with early | late
  · rw [early] at stage ⊢
    obtain ⟨uncommanded, kinds⟩ := stage
    obtain ⟨kind, kinds⟩ := List.forall_mem_cons.mp kinds
    refine ⟨⟨⟨fun _ => uncommanded, ?_⟩, held.log⟩, going.not.mpr uncommanded, kinds⟩
    intro other
    simp [shutdown_not_startup other] at kind
  · rw [late] at stage ⊢
    obtain ⟨commanded, whole⟩ := stage
    have kind : isShutdownEntry entry = true := by
      apply table.shutdown_kinds entry
      rw [← whole]
      simp
    have further : shutdownAttempts t.kernel.log ++ [entry] ++ rest = table.shutdownList := by
      rw [List.append_assoc]
      exact whole
    refine ⟨⟨⟨?_, fun _ => ⟨commanded, rest, further⟩⟩, held.log⟩, going.mpr commanded, ?_⟩
    · intro other
      simp [shutdown_not_startup kind] at other
    · rw [shutdown_attempts_fork, kind]
      exact further

theorem spawn_entry_forking {answer : SpawnAnswer} {entry : InittabEntry}
    {rest : List InittabEntry} {has has' : Bool} {t t' : State}
    (held : Forking table (entry :: rest) t)
    (done : spawnEntry answer entry has t = .ok (has', t')) : Forking table rest t' := by
  rcases spawn_entry_cases done with ⟨pid, _, _, rfl⟩ | ⟨_, _, q, _, _, _, _, rfl⟩ | ⟨_, _, rfl⟩
  · obtain ⟨log, stage⟩ := forking_fork held pid
    exact ⟨held.same, log, held.starting, stage⟩
  · obtain ⟨log, stage⟩ := forking_fork held (-1)
    have asked : ∀ info, ∀ effect ∈ [Effect.record q info, .request q (t.kernel.pipes q).consumed],
        isCourse effect = false := by simp [isCourse]
    obtain ⟨justified, stages⟩ := course_log_blind table
      (asked (fillSharedInfo entry.processName (-1))) (.fork entry (-1) :: t.kernel.log) rest
      t.currentStage
    exact ⟨held.same, justified.mpr log, held.starting, stages.mpr stage⟩
  · obtain ⟨log, stage⟩ := forking_fork held (-1)
    exact ⟨held.same, log, held.starting, stage⟩

theorem starts_course {answer : StartAnswer} {list : List InittabEntry} {s s' : State}
    (entering : Forking table list { s with pendingFinish := 0 })
    (starts : Starts answer list s s') : Course table s' := by
  obtain ⟨_, _, left, final, kept, retimed⟩ := starts_rule (fun _ _ list t => Forking table list t)
    (fun _ _ _ _ _ _ _ _ held _ done => spawn_entry_forking held done) starts
    (fun _ => entering)
  exact same_course_kept (retimed_course retimed) ⟨kept.same, kept.log, kept.stage⟩

theorem maintained_course {answer : StartAnswer} {s s' : State} (held : Course table s)
    (done : Maintained answer s s') : Course table s' := by
  have stage := held.stage
  cases done with
  | unchanged same => exact same_course_kept (retimed_course same) held
  | started starting settled before starts =>
    refine starts_course ?_ starts
    obtain ⟨_, _, _, _, _, rfl⟩ := before
    exact ⟨held.same, held.log, starting, stage⟩
  | toRun starting settled exhausted same =>
    rw [starting] at stage
    exact same_course_kept (retimed_course same) ⟨held.same, held.log, stage.1⟩
  | toClose starting settled exhausted same =>
    rw [starting] at stage
    obtain ⟨commanded, whole⟩ := stage
    rw [exhausted, List.append_nil] at whole
    exact same_course_kept (retimed_course same) ⟨held.same, held.log, commanded, whole⟩
  | toShutdown ending few starts same =>
    rw [ending] at stage
    obtain ⟨commanded, none⟩ := stage
    refine same_course_kept (retimed_course same) (starts_course ?_ starts)
    refine ⟨held.same, held.log, Or.inr rfl, commanded, ?_⟩
    have fresh : shutdownAttempts s.kernel.log ++ s.table.shutdownList = table.shutdownList := by
      rw [none, held.same]
      rfl
    exact fresh
  | straightToClose ending few empty same =>
    rw [ending] at stage
    obtain ⟨commanded, none⟩ := stage
    refine same_course_kept (retimed_course same) ⟨held.same, held.log, commanded, ?_⟩
    have fresh : shutdownAttempts s.kernel.log = table.shutdownList := by
      rw [none, ← held.same, empty]
    exact fresh

theorem shutdown_cmd_course {s : State} (held : Course table s) (answer : TimerAnswer)
    (command : RebootCommand) : Course table (handleShutdownCmd answer command s) := by
  apply same_course_kept (retimed_course (handle_shutdown_cmd_retimed answer command s))
  have noted : Course table { s with
      remaining := []
      pendingFinish := 0
      currentStage := .termination
      shutdownCommand := command
      postIterationCallback := some .stageMaintenance
      kernel := s.kernel.note (.shutdownCommand command) } :=
    ⟨held.same, ⟨trivial, held.log⟩, ⟨command, List.mem_cons_self⟩,
      shutdown_attempts_command command s.kernel.log⟩
  exact same_course_kept (signalled_course .sigterm s.runningProcesses _) noted

theorem expire_course {s : State} (held : Course table s) (t : MainloopTimeout) :
    Course table (expire t s) := by
  rcases expire_cases t s with same | same
  · exact same_course_kept (retimed_course same) held
  · exact same_course_kept (retimed_course same)
      (same_course_kept (signalled_course .sigkill s.runningProcesses s) held)

theorem state_step_course {s s' : State} {event : Event} (held : Course table s)
    (stepped : StateStep s event s') : Course table s' := by
  cases stepped with
  | @env move k moved =>
    have same : SameCourse s { s with kernel := k } :=
      ⟨rfl, rfl, rfl, [], (env_frame moved).log, by simp⟩
    exact same_course_kept same held
  | idle => exact held
  | childExit _ _ done => exact same_course_kept (handle_child_exit_course done) held
  | shutdownCmd answer command => exact shutdown_cmd_course held _ command
  | expired _ => exact expire_course held _
  | maintained _ done => exact maintained_course held (stage_maintenance_maintained done)

theorem boots_forking {s : State} {pid : Int} (watched : Retimed (State.initial table) s) :
    Forking table table.startupList
      { State.placed (closePreviousPipe s) table.safeModeEntry pid with
        currentStage := .startup, pendingFinish := 0 } := by
  obtain ⟨_, _, _, _, _, rfl⟩ := watched
  refine ⟨rfl, ⟨trivial, trivial⟩, Or.inl rfl, ?_, table.startup_kinds⟩
  simp [Commanded, State.placed, closePreviousPipe, State.retimed, State.initial, Kernel.initial,
    Kernel.note, Kernel.spawned, Kernel.pipe2, Kernel.setPipe]

theorem boot_course {answer : BootAnswer} {sys : System} (booted : boot table answer = some sys)
    (intact : sys.control.intact) : Course table sys.state := by
  obtain ⟨s, pid, result, s', watched, free, started, rfl⟩ := boot_intact booted intact
  have entering : Forking table table.startupList
      { State.placed (closePreviousPipe s) table.safeModeEntry pid with
        currentStage := .startup, pendingFinish := 0 } := boots_forking watched
  have final : Course table s' := by
    rcases start_processes_cases started with ⟨empty, rfl⟩ | starts
    · refine ⟨entering.same, entering.log, ?_⟩
      have stage := entering.stage
      rw [empty] at stage
      obtain ⟨_, _, _, _, _, rfl⟩ := watched
      exact stage
    · exact starts_course entering starts
  exact same_course_kept (retimed_course ⟨_, _, _, _, _, rfl⟩) final

structure CourseEnd (table : BootTable) (s : State) : Prop where
  log : Justified (ForkAllowed table) s.kernel.log
  close : s.currentStage = .close →
    Commanded s.kernel.log ∧ shutdownAttempts s.kernel.log = table.shutdownList

theorem course_end {s : State} (held : Course table s) : CourseEnd table s := by
  refine ⟨held.log, ?_⟩
  intro closed
  have stage := held.stage
  rwa [closed] at stage

theorem request_halted_course {name : List UInt8} {sig : Int} {answers : List WriteAnswer}
    {s : State} {stop : Stop} (failed : startSafeMode name sig answers s = .error stop) :
    SameCourse s stop.state := by
  rcases start_safe_mode_error failed with ⟨same, _⟩ | ⟨q, _, _, _, _, same⟩
  · rw [same]
    exact same_course_refl s
  · rw [same]
    exact ⟨rfl, rfl, rfl, [.request q (s.kernel.pipes q).consumed], rfl, by simp [isCourse]⟩

theorem handle_child_exit_halted_course {answer : ExitAnswer} {s : State} {stop : Stop}
    (exact : ListExact s) (failed : handleChildExit answer s = .error stop) :
    SameCourse s stop.state := by
  have iterates : ∀ (w : Int × WaitStatus) (_rest : List (Int × WaitStatus)) (r : Reaping)
      (t : State) (r' : Reaping) (t' : State), (ListExact t ∧ SameCourse s t) →
      reapOne w r t = .ok (r', t') → ListExact t' ∧ SameCourse s t' :=
    fun _ _ _ _ _ _ held done => ⟨reap_one_exact held.1 done,
      same_course_trans held.2 (reap_one_course done)⟩
  rcases handle_child_exit_error failed with looped | ⟨r, t, looped, ⟨_, halted⟩ | halted⟩
  · have stopped := reap_loop_error (fun _ _ t => ListExact t ∧ SameCourse s t)
      iterates ⟨exact, same_course_refl s⟩ looped
    rcases stopped with ⟨w, _, r, t, ⟨exact, held⟩, stopped⟩ | ⟨_, _, _, ⟨_, held⟩, _⟩
    · obtain ⟨_, _, same⟩ := reap_one_error exact.tracked.nodup stopped
      rw [same]
      exact same_course_trans held ⟨rfl, rfl, rfl, [.reap w.1 w.2], rfl, by simp [isCourse]⟩
    · exact held
  · have held := (reap_loop_rule (fun _ _ t => ListExact t ∧ SameCourse s t)
      iterates ⟨exact, same_course_refl s⟩ looped).1.2
    exact same_course_trans held (request_halted_course halted)
  · obtain ⟨u, requested, _, unmade, same⟩ := halted
    have held := (reap_loop_rule (fun _ _ t => ListExact t ∧ SameCourse s t)
      iterates ⟨exact, same_course_refl s⟩ looped).1.2
    have asked : SameCourse s u := by
      rcases request_safe_mode_cases requested with ⟨_, rfl⟩ | ⟨_, q, _, _, _, _, rfl⟩
      · exact held
      · exact same_course_trans held (requested_course t q _)
    obtain ⟨k, shape, log, _⟩ := setup_safe_mode_failed unmade
    rw [same, shape]
    have last : SameCourse u { u with kernel := k } := ⟨rfl, rfl, rfl, [], log, by simp⟩
    exact same_course_trans asked last

theorem starts_halted_course {answer : StartAnswer} {list : List InittabEntry} {s : State}
    {stop : Stop} (entering : Forking table list { s with pendingFinish := 0 })
    (halted : StartsHalted answer list s stop) : CourseEnd table stop.state := by
  obtain ⟨_, _, entry, rest, t, _, held, _, _, failed⟩ := starts_halted_rule
    (fun _ _ list t => Forking table list t)
    (fun _ _ _ _ _ _ _ _ held _ done => spawn_entry_forking held done) halted
    (fun _ => entering)
  obtain ⟨log, stage⟩ := forking_fork held (-1)
  have tried : Course table { State.notStarted t entry with remaining := rest } :=
    ⟨held.same, log, stage⟩
  have same := request_halted_course failed
  obtain ⟨new, grown, blind⟩ := same.log
  have last : SameCourse { State.notStarted t entry with remaining := rest }
      { stop.state with remaining := rest } :=
    ⟨same.table, rfl, same.stage, new, grown, blind⟩
  have ended := course_end (same_course_kept last tried)
  exact ⟨ended.log, ended.close⟩

theorem maintenance_halted_course {answer : StartAnswer} {s : State} {stop : Stop}
    (held : Course table s) (halted : MaintenanceHalted answer s stop) :
    CourseEnd table stop.state := by
  have stage := held.stage
  cases halted with
  | starting starting settled before halted =>
    refine starts_halted_course ?_ halted
    obtain ⟨_, _, _, _, _, rfl⟩ := before
    exact ⟨held.same, held.log, starting, stage⟩
  | shuttingDown ending few halted =>
    rw [ending] at stage
    obtain ⟨commanded, none⟩ := stage
    have fresh : shutdownAttempts s.kernel.log ++ s.table.shutdownList = table.shutdownList := by
      rw [none, held.same]
      rfl
    refine starts_halted_course ?_ halted
    exact ⟨held.same, held.log, Or.inr rfl, commanded, fresh⟩
  | exitTwice done _ _ assertion =>
    rw [assertion]
    exact course_end (maintained_course held (advance_stage_maintained done))

theorem run_course {trace : List (System × Event)} {sys : System}
    (run : InitRun table trace sys) : CourseEnd table sys.state := by
  refine init_run_outcome (fun _ _ => True) (fun s => ListExact s ∧ Course table s)
    (CourseEnd table) run (meets_always trace)
    (fun _ _ booted intact => ⟨boot_exact booted intact, boot_course booted intact⟩)
    (fun _ _ _ held _ stepped =>
      ⟨state_step_exact held.1 stepped, state_step_course held.2 stepped⟩)
    (fun _ held => course_end held.2) ?_ ?_
  · intro answer first halt booted halted
    obtain ⟨s, pid, stop, watched, _, failed, rfl⟩ := boot_halted booted halted
    exact starts_halted_course (boots_forking watched) failed
  · intro s event s' held _ stopped
    cases stopped with
    | same => exact course_end held.2
    | childExit _ _ failed =>
      exact course_end (same_course_kept (handle_child_exit_halted_course held.1 failed) held.2)
    | maintenance failed =>
      exact maintenance_halted_course held.2 (stage_maintenance_error failed)

def forkedAs (entry : InittabEntry) : Effect → Bool
  | .fork e result => e = entry && 0 < result
  | _ => false

def forks (entry : InittabEntry) (log : List Effect) : Nat := log.countP (forkedAs entry)

theorem forks_le_attempts {entry : InittabEntry} (kind : isShutdownEntry entry = true)
    (log : List Effect) : forks entry log ≤ (attempts isShutdownEntry log).count entry := by
  induction log with
  | nil => exact Nat.le_refl 0
  | cons effect past ih =>
    simp only [forks, List.countP_cons] at ih ⊢
    cases effect with
    | fork e result =>
      simp only [attempts, List.count_append]
      by_cases same : e = entry
      · subst e
        have one : (if forkedAs entry (.fork entry result) = true then 1 else 0) ≤ 1 := by
          split <;> omega
        simp only [kind, ↓reduceIte, List.count_singleton_self]
        omega
      · simp only [forkedAs, same, decide_false, Bool.false_and, Bool.false_eq_true, ↓reduceIte]
        omega
    | _ => simpa [forkedAs] using ih

theorem attempts_within_list {log : List Effect} (held : Justified (ForkAllowed table) log) :
    shutdownAttempts log <+: table.shutdownList := by
  induction log with
  | nil => exact List.nil_prefix
  | cons effect past ih =>
    obtain ⟨allowed, before⟩ := held
    cases effect with
    | fork e result =>
      rw [shutdown_attempts_fork]
      split
      · rename_i kind
        exact (allowed.2 kind).2
      · rw [List.append_nil]
        exact ih before
    | shutdownCommand command =>
      rw [shutdown_attempts_command]
      exact List.nil_prefix
    | _ =>
      rw [shutdown_attempts_blind rfl]
      exact ih before

theorem no_forks_before_command {entry : InittabEntry} {log : List Effect}
    (kind : isShutdownEntry entry = true) (held : Justified (ForkAllowed table) log)
    (uncommanded : ¬ Commanded log) : forks entry log = 0 := by
  apply List.countP_eq_zero.mpr
  intro effect member forked
  obtain ⟨later, past, split⟩ := List.append_of_mem member
  have allowed := justified_iff.mp held later effect past split
  cases effect with
  | fork e result =>
    have same : e = entry := by
      simp only [forkedAs, Bool.and_eq_true, decide_eq_true_eq] at forked
      exact forked.1
    obtain ⟨command, earlier⟩ := (allowed.2 (same ▸ kind)).1
    apply uncommanded
    exact ⟨command, by simp [split, earlier]⟩
  | _ => simp [forkedAs] at forked

/-- In every run and at every moment of it, each shutdown entry has been forked
    at most once since the last shutdown command, and never before the first. -/
theorem shutdown_entries_once_per_command {trace : List (System × Event)} {sys : System}
    (run : InitRun table trace sys) :
    ∀ later past, sys.state.kernel.log = later ++ past → ∀ entry ∈ table.shutdownList,
      forks entry (sinceCommand past) ≤ table.shutdownList.count entry ∧
      (¬ Commanded past → forks entry past = 0) := by
  intro later past split entry member
  have kind := table.shutdown_kinds entry member
  have held : Justified (ForkAllowed table) past := justified_suffix (split ▸ (run_course run).log)
  refine ⟨?_, no_forks_before_command kind held⟩
  calc forks entry (sinceCommand past)
    _ ≤ (shutdownAttempts past).count entry := forks_le_attempts kind _
    _ ≤ table.shutdownList.count entry := (attempts_within_list held).sublist.count_le entry

theorem shutdown_entry_forked_once : ∃ trace sys, InitRun sampleTable trace sys ∧
    ∃ entry ∈ sampleTable.shutdownList, forks entry (sinceCommand sys.state.kernel.log) = 1 ∧
      forks entry (sinceCommand sys.state.kernel.log) ≤ sampleTable.shutdownList.count entry := by
  obtain ⟨run, rehearsed, entry, member, once⟩ :
      ∃ run ∈ rehearse sampleTable sampleBoot (untilShutdown [14]),
      ∃ entry ∈ sampleTable.shutdownList,
        forks entry (sinceCommand run.2.state.kernel.log) = 1 := by
    decide +kernel
  have reached := init_run_of_rehearse rehearsed
  exact ⟨run.1, run.2, reached, entry, member, once,
    (shutdown_entries_once_per_command reached [] _ rfl entry member).1⟩

/-- A second SIGTERM finds the shutdown entry running as 14; when 14 has exited
    the shutdown list is started over. -/
theorem shutdown_entry_forked_twice : ∃ trace sys, InitRun sampleTable trace sys ∧
    ∃ entry ∈ sampleTable.shutdownList, sampleTable.shutdownList.count entry = 1 ∧
      forks entry sys.state.kernel.log = 2 := by
  obtain ⟨run, rehearsed, twice⟩ : ∃ run ∈ rehearse sampleTable sampleBoot
      (untilShutdown [14] ++ handled .signal termSignal [] ++ [.env (.childDies 14 (.exited 0))] ++
        handled .signal (childSignal [(14, .exited 0)] (-1)) [15]),
      ∃ entry ∈ sampleTable.shutdownList, sampleTable.shutdownList.count entry = 1 ∧
        forks entry run.2.state.kernel.log = 2 := by
    decide +kernel
  exact ⟨run.1, run.2, init_run_of_rehearse rehearsed, twice⟩

def OneByOne : Event → Prop
  | .dispatch answer => answer ≠ .failed
  | .epollWait (.ready batch) => batch.length = 1
  | _ => True

instance : (event : Event) → Decidable (OneByOne event)
  | .dispatch answer => inferInstanceAs (Decidable (answer ≠ .failed))
  | .epollWait (.ready batch) => inferInstanceAs (Decidable (batch.length = 1))
  | .epollWait .eintr => .isTrue trivial
  | .epollWait .failed => .isTrue trivial
  | .env _ => .isTrue trivial
  | .postIteration _ => .isTrue trivial

/-- Where the loop is when events come one by one: no event is queued behind
    another, the handler of the queued one is registered, and the loop is told to
    exit only where it ends. -/
def Alone (s : State) : Control → Prop
  | .waiting => s.shouldExit = false
  | .events queue => s.shouldExit = false ∧ ∃ ref, queue = [ref] ∧ Registered s ref
  | .post queue => s.shouldExit = false ∧ queue = []
  | .left => s.currentStage = .close
  | .halted halt => (∃ message, halt = .panic message) ∨ halt = .assertion .epollWait

theorem maintenance_halts_by_panic {answer : StartAnswer} {s : State} {stop : Stop}
    (held : Kept False s) (staying : s.shouldExit = false)
    (failed : stageMaintenance answer s = .error stop) :
    ∃ message, stop.halt = .panic message := by
  obtain ⟨q, fd, _⟩ := held.links.writable
  cases stage_maintenance_error failed with
  | starting _ _ before halted =>
    obtain ⟨_, _, _, _, _, rfl⟩ := before
    exact starts_halted_panics (by simp [State.retimed, fd]) halted
  | shuttingDown _ _ halted => exact starts_halted_panics (by simp [fd]) halted
  | exitTwice done _ exiting =>
    have same := (advance_stage_frame done).1.exit
    simp [same, staying] at exiting

theorem maintenance_alone {answer : StartAnswer} {s s' : State}
    (staying : s.shouldExit = false) (done : stageMaintenance answer s = .ok s') :
    Alone s' (loopHead s' []) := by
  obtain ⟨t, advanced, ⟨_, rfl⟩ | ⟨closed, rfl⟩⟩ := stage_maintenance_cases done
  · have same := (advance_stage_frame advanced).1.exit
    simp [loopHead, same, staying, Alone]
  · simpa [loopHead, Alone] using closed

theorem step_alone {sys next : System} {event : Event} (kept : Kept False sys.state)
    (held : Alone sys.state sys.control) (single : OneByOne event)
    (stepped : step sys event = some next) : Alone next.state next.control := by
  cases step_cases stepped with
  | env running moved =>
    obtain ⟨s, control⟩ := sys
    cases control <;> exact held
  | @ready s batch lawful =>
    obtain ⟨ref, rfl⟩ := List.length_eq_one_iff.mp single
    exact ⟨held, ref, rfl, lawful.2.2.2 ref List.mem_cons_self⟩
  | eintr _ => exact held
  | failed _ => exact Or.inr rfl
  | @dispatched s ref rest answer outcome called =>
    obtain ⟨staying, own, queue, registered⟩ := held
    obtain ⟨rfl, rfl⟩ := List.cons.inj queue
    cases outcome with
    | ok s' => exact ⟨(dispatch_steady called).exit.trans staying, rfl⟩
    | error stop =>
      rcases dispatch_error called with ⟨unread, _⟩ | ⟨unregistered, _⟩ | ⟨_, _, lawful, _, halted⟩
      · exact absurd unread single
      · exact absurd registered unregistered
      · exact Or.inl (handle_child_exit_panics kept lawful halted)
  | posted s queue answer =>
    obtain ⟨staying, rfl⟩ := held
    cases outcome : runPostCallback answer s with
    | ok s' =>
      rcases run_post_callback_cases outcome with ⟨_, same⟩ | ⟨_, maintained⟩
      · obtain rfl := Except.ok.inj same
        have stays : s'.shouldExit = false := staying
        simp [settle, loopHead, stays, Alone]
      · exact maintenance_alone staying maintained
    | error stop =>
      rcases run_post_callback_cases outcome with ⟨_, same⟩ | ⟨_, halted⟩
      · simp at same
      · exact Or.inl (maintenance_halts_by_panic kept staying halted)

theorem boot_alone {answer : BootAnswer} {first : System}
    (booted : boot table answer = some first) : Alone first.state first.control := by
  by_cases intact : first.control.intact
  · obtain ⟨_, _, _, _, _, _, _, rfl⟩ := boot_intact booted intact
    rfl
  · obtain ⟨halt, halted⟩ := halted_of_not_intact intact
    obtain ⟨s, pid, stop, _, _, failed, rfl⟩ := boot_halted booted halted
    exact Or.inl (starts_halted_panics (by simp [State.placed]) failed)

theorem run_alone {trace : List (System × Event)} {sys : System}
    (run : InitRun table trace sys) (single : Meets (fun _ event => OneByOne event) trace) :
    Alone sys.state sys.control := by
  obtain ⟨answer, first, booted, steps⟩ := run
  induction steps with
  | start => exact boot_alone booted
  | next before now ih =>
    obtain ⟨here, earlier⟩ := meets_cons.mp single
    have kept := run_kept ⟨answer, _, booted, before⟩ (step_from_intact now) False.elim
    exact step_alone kept (ih earlier) here now

/-- Shutdown is final and complete. After a shutdown command no startup entry is
    forked. A run without read errors that takes its events one by one leaves the
    loop only in STAGE_CLOSE, else it ends in panic or in a failed epoll_wait.
    STAGE_CLOSE comes only after a command, with the whole shutdown list tried since
    the last one, in ascending order. -/
theorem shutdown_final_and_complete {trace : List (System × Event)} {sys : System}
    (run : InitRun table trace sys) (single : Meets (fun _ event => OneByOne event) trace) :
    (∀ later past e result, sys.state.kernel.log = later ++ .fork e result :: past →
      isStartupEntry e = true → ¬ Commanded past) ∧
    (sys.control = .left → sys.state.currentStage = .close) ∧
    (∀ halt, sys.control = .halted halt →
      (∃ message, halt = .panic message) ∨ halt = .assertion .epollWait) ∧
    (sys.state.currentStage = .close → Commanded sys.state.kernel.log ∧
      shutdownAttempts sys.state.kernel.log = table.shutdownList ∧
      (shutdownAttempts sys.state.kernel.log).Pairwise (fun a b => a.order ≤ b.order)) := by
  have course := run_course run
  have alone := run_alone run single
  refine ⟨?_, ?_, ?_, ?_⟩
  · intro later past e result split
    exact (justified_iff.mp course.log later (.fork e result) past split).1
  · intro left
    rw [left] at alone
    exact alone
  · intro halt halted
    rw [halted] at alone
    exact alone
  · intro closed
    obtain ⟨commanded, whole⟩ := course.close closed
    exact ⟨commanded, whole, whole ▸ table.shutdown_sorted⟩

theorem shutdown_complete_for_sample : ∃ trace sys, InitRun sampleTable trace sys ∧
    sys.control = .left ∧ sys.state.currentStage = .close ∧
    shutdownAttempts sys.state.kernel.log = sampleTable.shutdownList := by
  obtain ⟨run, rehearsed, left, single⟩ : ∃ run ∈ rehearse sampleTable sampleBoot
      (handled .signal termSignal [] ++ untilShutdown [14] ++ [.env (.childDies 14 (.exited 0))] ++
        handled .signal (childSignal [(14, .exited 0)] (-1)) []),
      run.2.control = .left ∧ ∀ x ∈ run.1, OneByOne x.2 := by
    decide +kernel
  have reached := init_run_of_rehearse rehearsed
  obtain ⟨_, closes, _, complete⟩ := shutdown_final_and_complete reached single
  exact ⟨run.1, run.2, reached, left, closes left, (complete (closes left)).2.1⟩

end ShutdownCourse
