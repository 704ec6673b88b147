import UNit.BatchDispatch
import UNit.SafeModeRequests

/-!
Why init halts. The verdict of handle_child_exit is computed from the state it
is called in and the answers of the kernel, without looking at its loop; every
other halt of a run is traced to the step it happened in. The assertions of
remove_process and on the placeholder's pipe never fail.
-/
namespace HaltCauses
open InittabEntries SafeModeRecord ProcessHistory EventHistory KernelModel InitState ProcessStart
  ChildExit StageControl MainLoop LabelledRuns LoopFrames TrackedChildren ReapedBatch
  SafeModeKeeping SafeModeRequests BatchDispatch

def SafeModeLeft (s : State) (results : List (Int × WaitStatus)) : Prop :=
  ∃ p ∈ s.runningProcesses, unreported results p.pid = true ∧ SafeModeKind p.config

instance (s : State) (results : List (Int × WaitStatus)) : Decidable (SafeModeLeft s results) :=
  inferInstanceAs (Decidable
    (∃ p ∈ s.runningProcesses, unreported results p.pid = true ∧ SafeModeKind p.config))

/-- A new placeholder can be made once the reported children are reaped. -/
def PlaceholderMade (answer : SetupAnswer) (s : State) (results : List (Int × WaitStatus)) :
    Prop :=
  answer.pipe2 = true ∧ answer.calloc = true ∧ 1 < answer.fork ∧ answer.fork < 2 ^ 31 ∧
    ∀ c ∈ s.kernel.children, unreported results c.pid = true → c.pid ≠ answer.fork

instance (answer : SetupAnswer) (s : State) (results : List (Int × WaitStatus)) :
    Decidable (PlaceholderMade answer s results) :=
  inferInstanceAs (Decidable (answer.pipe2 = true ∧ answer.calloc = true ∧ 1 < answer.fork ∧
    answer.fork < 2 ^ 31 ∧
    ∀ c ∈ s.kernel.children, unreported results c.pid = true → c.pid ≠ answer.fork))

/-- How handle_child_exit ends, as a function of what it is told. -/
def childExitHalt (answer : ExitAnswer) (pipe : Nat) (s : State) : Option Halt :=
  if s.safeModeOn = true ∧ Reported s.runningProcesses answer.wait.results true SafeModeKind then
    some (.panic "Safe mode process crashed!\n")
  else if answer.wait.last = .failed then
    some (.panic "Won't go anywhere if waitpid() is not working!\n")
  else if Reported s.runningProcesses answer.wait.results true SafeKind ∧
      ¬ SafeModeLeft s answer.wait.results then
    some (.panic "Safe mode required, but safe mode process placeholder not found!\n")
  else if Reported s.runningProcesses answer.wait.results true SafeKind ∧
      (writeLoop (s.kernel.pipes pipe).readOpen answer.write 0).1 = false then
    some (.panic "Couldn't start safe mode!")
  else if Reported s.runningProcesses answer.wait.results true SafeModeKind ∧
      ¬ PlaceholderMade answer.setup s answer.wait.results then
    some (.panic "Can't keep normal execution without safe mode placeholder process\n")
  else none

theorem find_safe_mode_none {running : List Process} :
    findSafeModeProcess running = none ↔ ∀ p ∈ running, p.config.type ≠ .safeMode := by
  induction running with
  | nil => simp [findSafeModeProcess]
  | cons q rest ih =>
    by_cases kind : q.config.type = .safeMode <;> simp [findSafeModeProcess, kind, ih]

theorem start_safe_mode_verdict (name : List UInt8) (sig : Int) (answers : List WriteAnswer)
    {s : State} {q : Nat} (pipe : s.safeModePipeFd = some q) :
    haltOf (startSafeMode name sig answers s) =
      if ∀ p ∈ s.runningProcesses, p.config.type ≠ .safeMode then
        some (.panic "Safe mode required, but safe mode process placeholder not found!\n")
      else if (writeLoop (s.kernel.pipes q).readOpen answers 0).1 = false then
        some (.panic "Couldn't start safe mode!")
      else none := by
  unfold startSafeMode
  split
  · rename_i missing
    rw [if_pos (find_safe_mode_none.mp missing)]
    rfl
  · rename_i p found
    have tracked : ¬ ∀ p ∈ s.runningProcesses, p.config.type ≠ .safeMode := by
      rw [← find_safe_mode_none, found]
      simp
    rw [if_neg tracked, pipe]
    cases wrote : (writeLoop (s.kernel.pipes q).readOpen answers 0).1 <;>
      simp [executeSafeMode, wrote, haltOf]

theorem setup_safe_mode_verdict (answer : SetupAnswer) (entry : InittabEntry) (s : State) :
    (setupSafeMode answer entry s).1 = true ↔
      answer.pipe2 = true ∧ answer.calloc = true ∧ s.kernel.PidFree answer.fork := by
  constructor
  · intro made
    have pipe : answer.pipe2 = true := by
      cases missing : answer.pipe2 with
      | false => simp [setupSafeMode, missing] at made
      | true => rfl
    have calloc : answer.calloc = true := by
      cases missing : answer.calloc with
      | false => simp [setupSafeMode, pipe, missing] at made
      | true => rfl
    refine ⟨pipe, calloc, ?_⟩
    by_contra taken
    have unfree : ¬ (closePreviousPipe s).kernel.pipe2.PidFree answer.fork := by
      obtain ⟨_, closed, _⟩ := close_previous_pipe_frame s
      simpa [Kernel.PidFree, Kernel.pipe2, Kernel.setPipe, closed] using taken
    simp [setupSafeMode, pipe, calloc, Kernel.fork, unfree] at made
  · rintro ⟨pipe, calloc, free⟩
    exact setup_safe_mode_returns entry pipe calloc free

theorem reap_one_crash {w : Int × WaitStatus} {r : Reaping} {s : State} {stop : Stop}
    (distinct : (s.runningProcesses.map Process.pid).Nodup)
    (failed : reapOne w r s = .error stop) :
    stop.halt = .panic "Safe mode process crashed!\n" ∧ s.safeModeOn = true ∧
      w.2.abnormal = true ∧ ∃ p ∈ s.runningProcesses, p.pid = w.1 ∧ SafeModeKind p.config := by
  obtain ⟨panicked, on, _⟩ := reap_one_error distinct failed
  have message := (reap_one_halts failed).resolve_right (by
    obtain ⟨_, same⟩ := panicked
    simp [same])
  refine ⟨message, on, ?_⟩
  simp only [reapOne] at failed
  split at failed
  · simp at failed
  · rename_i p found
    obtain ⟨member, same⟩ := find_process_some found
    split at failed
    · rename_i judged
      unfold judge at judged
      split at judged
      · rename_i lost
        split at judged
        · rename_i kind
          simp only [Bool.and_eq_true] at lost
          exact ⟨lost.2, p, member, same, kind⟩
        · simp at judged
      · simp at judged
    · obtain ⟨pending, log, counted, _⟩ := decrease_pending_frame
        { s with kernel := s.kernel.waited w.1 w.2 } p
      rw [counted] at failed
      simp [untrack, remove_process_found distinct found] at failed

theorem batch_survived {s t : State} {results : List (Int × WaitStatus)} {r : Reaping}
    (held : Batch s results r t) :
    ¬ (s.safeModeOn = true ∧ Reported s.runningProcesses results true SafeModeKind) := by
  rintro ⟨on, reported⟩
  have off := held.flags.placeholder (held.flags.restart.mpr reported)
  simp [on] at off

theorem reap_loop_verdict {s : State} {last : WaitEnd} (taken : List (Int × WaitStatus))
    {rest : List (Int × WaitStatus)}
    (initial : ListExact s) (once : ((taken ++ rest).map Prod.fst).Nodup) {r : Reaping}
    {t : State} (held : Batch s taken r t) :
    haltOf (reapLoop last rest r t) =
      if s.safeModeOn = true ∧ Reported s.runningProcesses (taken ++ rest) true SafeModeKind then
        some (.panic "Safe mode process crashed!\n")
      else if last = .failed then
        some (.panic "Won't go anywhere if waitpid() is not working!\n")
      else none := by
  induction rest generalizing taken r t with
  | nil =>
    rw [List.append_nil, if_neg (batch_survived held)]
    by_cases broken : last = .failed <;> simp [reapLoop, broken, haltOf]
  | cons w rest ih =>
    cases reaped : reapOne w r t with
    | error stop =>
      obtain ⟨halt, on, abnormal, p, member, same, kind⟩ :=
        reap_one_crash held.exact.tracked.nodup reaped
      have before : s.safeModeOn = true := by
        rw [held.frame] at on
        exact on
      rw [held.running] at member
      have reported : Reported s.runningProcesses (taken ++ w :: rest) true SafeModeKind :=
        ⟨w, by simp, abnormal, p, List.mem_of_mem_filter member, same, kind⟩
      rw [if_pos ⟨before, reported⟩]
      simp [reapLoop, reaped, haltOf, halt]
    | ok result =>
      have fresh : w.1 ∉ taken.map Prod.fst := by
        simp only [List.map_append, List.map_cons, List.nodup_append] at once
        intro member
        exact once.2.2 w.1 member w.1 List.mem_cons_self rfl
      have next := ih (taken ++ [w]) (by simpa using once) (batch_step initial held fresh reaped)
      simpa [reapLoop, reaped] using next

theorem placeholder_made_iff (answer : SetupAnswer) {s t : State}
    {results : List (Int × WaitStatus)}
    (children : t.kernel.children =
      s.kernel.children.filter (fun c => unreported results c.pid)) :
    (setupSafeMode answer t.table.safeModeEntry t).1 = true ↔
      PlaceholderMade answer s results := by
  rw [setup_safe_mode_verdict, Kernel.PidFree, children, PlaceholderMade]
  simp only [List.mem_map, List.mem_filter, not_exists, not_and, and_imp]

theorem recovery_verdict {answer : ExitAnswer} {s t : State} {r : Reaping} {q : Nat}
    (pipe : s.safeModePipeFd = some q) (held : Batch s answer.wait.results r t) :
    haltOf (match requestSafeMode answer.write r t with
      | .error stop => .error stop
      | .ok u => restartPlaceholder answer.setup r u) =
      if Reported s.runningProcesses answer.wait.results true SafeKind ∧
          ¬ SafeModeLeft s answer.wait.results then
        some (.panic "Safe mode required, but safe mode process placeholder not found!\n")
      else if Reported s.runningProcesses answer.wait.results true SafeKind ∧
          (writeLoop (s.kernel.pipes q).readOpen answer.write 0).1 = false then
        some (.panic "Couldn't start safe mode!")
      else if Reported s.runningProcesses answer.wait.results true SafeModeKind ∧
          ¬ PlaceholderMade answer.setup s answer.wait.results then
        some (.panic "Can't keep normal execution without safe mode placeholder process\n")
      else none := by
  have there : t.safeModePipeFd = some q := by
    rw [held.frame]
    exact pipe
  have pipes : t.kernel.pipes = s.kernel.pipes := by rw [held.frame]
  have left : (∀ p ∈ t.runningProcesses, p.config.type ≠ .safeMode) ↔
      ¬ SafeModeLeft s answer.wait.results := by
    rw [held.running]
    simp [SafeModeLeft, SafeModeKind]
  have restarted : ∀ u : State, u.kernel.children = t.kernel.children →
      haltOf (restartPlaceholder answer.setup r u) =
        if Reported s.runningProcesses answer.wait.results true SafeModeKind ∧
            ¬ PlaceholderMade answer.setup s answer.wait.results then
          some (.panic "Can't keep normal execution without safe mode placeholder process\n")
        else none := by
    intro u same
    have made := placeholder_made_iff answer.setup (same.trans held.children)
    simp only [← held.flags.restart, ← made]
    unfold restartPlaceholder
    cases asked : r.restartSafeModePlaceholder <;>
      cases done : (setupSafeMode answer.setup u.table.safeModeEntry u).1 <;>
      simp [haltOf, done]
  by_cases asked : r.startSafeProcess = true
  · have reported := held.flags.asked.mp asked
    have verdict := start_safe_mode_verdict r.processName r.signal answer.write there
    rw [pipes] at verdict
    simp only [reported, true_and, requestSafeMode, asked, ↓reduceIte, ← left]
    cases started : startSafeMode r.processName r.signal answer.write t with
    | error stop =>
      rw [started] at verdict
      by_cases missing : ∀ p ∈ t.runningProcesses, p.config.type ≠ .safeMode
      · simpa only [if_pos missing] using verdict
      · by_cases failed : (writeLoop (s.kernel.pipes q).readOpen answer.write 0).1 = false
        · simpa only [if_neg missing, if_pos failed] using verdict
        · simp [if_neg missing, if_neg failed, haltOf] at verdict
    | ok u =>
      rw [started] at verdict
      obtain ⟨p, _, _, _, _, rfl⟩ := start_safe_mode_ok started
      by_cases missing : ∀ p ∈ t.runningProcesses, p.config.type ≠ .safeMode
      · simp [if_pos missing, haltOf] at verdict
      · by_cases failed : (writeLoop (s.kernel.pipes q).readOpen answer.write 0).1 = false
        · simp [if_neg missing, if_pos failed, haltOf] at verdict
        · rw [if_neg missing, if_neg failed]
          exact restarted _ rfl
  · have unreported : ¬ Reported s.runningProcesses answer.wait.results true SafeKind :=
      fun reported => asked (held.flags.asked.mpr reported)
    simp only [unreported, false_and, ↓reduceIte, requestSafeMode, asked]
    exact restarted t rfl

theorem child_exit_verdict {answer : ExitAnswer} {s : State} {q : Nat} (exact : ListExact s)
    (pipe : s.safeModePipeFd = some q) (once : (answer.wait.results.map Prod.fst).Nodup) :
    haltOf (handleChildExit answer s) = childExitHalt answer q s := by
  have verdict : haltOf (reapLoop answer.wait.last answer.wait.results .initial s) = _ :=
    reap_loop_verdict [] exact once (batch_start exact)
  simp only [List.nil_append] at verdict
  unfold handleChildExit childExitHalt
  by_cases crashed : s.safeModeOn = true ∧
      Reported s.runningProcesses answer.wait.results true SafeModeKind
  · simp only [if_pos crashed] at verdict ⊢
    cases looped : reapLoop answer.wait.last answer.wait.results .initial s with
    | error stop =>
      rw [looped] at verdict
      exact verdict
    | ok result => simp [looped, haltOf] at verdict
  · by_cases broken : answer.wait.last = .failed
    · simp only [if_neg crashed, if_pos broken] at verdict ⊢
      cases looped : reapLoop answer.wait.last answer.wait.results .initial s with
      | error stop =>
        rw [looped] at verdict
        exact verdict
      | ok result => simp [looped, haltOf] at verdict
    · simp only [if_neg crashed, if_neg broken] at verdict ⊢
      cases looped : reapLoop answer.wait.last answer.wait.results .initial s with
      | error stop => simp [looped, haltOf] at verdict
      | ok result =>
        exact recovery_verdict pipe (reap_loop_batch exact once looped).1

/-- Wherever a run is, a reaping call halts exactly as its verdict says. -/
theorem child_exit_halts_exactly {table : BootTable} {trace : List (System × Event)}
    {sys : System} (run : InitRun table trace sys) (intact : sys.control.intact)
    (answer : ExitAnswer) (lawful : sys.state.kernel.WaitLawful answer.wait) :
    ∃ q, sys.state.safeModePipeFd = some q ∧
      haltOf (handleChildExit answer sys.state) = childExitHalt answer q sys.state := by
  have held : Kept False sys.state := run_kept run intact False.elim
  obtain ⟨q, pipe, _⟩ := held.links.writable
  exact ⟨q, pipe, child_exit_verdict held.links.exact pipe lawful.once⟩

theorem child_exit_halts_without_write : ∃ trace sys, InitRun sampleTable trace sys ∧
    haltOf (handleChildExit ⟨⟨[(11, crashed)], .noneDead⟩, [.failed], ⟨true, true, 14⟩⟩ sys.state) =
      some (.panic "Couldn't start safe mode!") := by
  obtain ⟨run, rehearsed, waiting, lawful, verdict⟩ : ∃ run ∈ rehearse sampleTable sampleBoot
      [.env (.childDies 11 crashed)], run.2.control = .waiting ∧
      run.2.state.kernel.WaitLawful ⟨[(11, crashed)], .noneDead⟩ ∧
      ∀ q ∈ run.2.state.safeModePipeFd,
        childExitHalt ⟨⟨[(11, crashed)], .noneDead⟩, [.failed], ⟨true, true, 14⟩⟩ q run.2.state =
          some (.panic "Couldn't start safe mode!") := by
    decide +kernel
  have reached := init_run_of_rehearse rehearsed
  obtain ⟨q, pipe, halts⟩ := child_exit_halts_exactly reached (waiting_intact waiting)
    ⟨⟨[(11, crashed)], .noneDead⟩, [.failed], ⟨true, true, 14⟩⟩ lawful
  exact ⟨run.1, run.2, reached, halts.trans (verdict q pipe)⟩

inductive StartFailure (s : State) : Halt → Prop where
  | missing {entry : InittabEntry} {past : List Effect} (safe : isSafeEntry entry = true)
      (logged : s.kernel.log = .fork entry (-1) :: past)
      (none : ∀ p ∈ s.runningProcesses, p.config.type ≠ .safeMode) :
      StartFailure s
        (.panic "Safe mode required, but safe mode process placeholder not found!\n")
  | unwritten {entry : InittabEntry} {past : List Effect} {q : Nat} {consumed : Bool}
      (safe : isSafeEntry entry = true)
      (logged : s.kernel.log = .request q consumed :: .fork entry (-1) :: past) :
      StartFailure s (.panic "Couldn't start safe mode!")

theorem starts_failure {answer : StartAnswer} {list : List InittabEntry} {s : State}
    {stop : Stop} (fd : s.safeModePipeFd ≠ none) (halted : StartsHalted answer list s stop) :
    StartFailure stop.state stop.halt := by
  obtain ⟨_, _, entry, _, t, write, held, _, safe, failed⟩ := starts_halted_rule
    (fun _ _ _ t => Answering s t)
    (fun _ _ _ _ _ _ _ _ held _ done => spawn_entry_answering held done)
    halted (fun _ => answering_start s)
  have current : t.safeModePipeFd ≠ none := held.fd ▸ fd
  unfold startSafeMode at failed
  split at failed
  · rename_i missing
    obtain rfl := Except.error.inj failed
    exact .missing safe rfl (find_safe_mode_none.mp missing)
  · split at failed
    · rename_i closed
      exact absurd closed current
    · rename_i q _
      dsimp only at failed
      split at failed
      · simp at failed
      · rename_i broken
        obtain rfl := Except.error.inj failed
        obtain ⟨count, kernel⟩ := execute_safe_mode_failed (by simpa using broken)
        have logged : (executeSafeMode write q entry.processName (-1)
            (State.notStarted t entry).kernel).2.log =
            .request q (t.kernel.pipes q).consumed :: .fork entry (-1) :: t.kernel.log := by
          rw [kernel]
          rfl
        exact .unwritten safe logged

inductive Cause : System → Event → State → Halt → Prop where
  | epollFailed (s : State) : Cause ⟨s, .waiting⟩ (.epollWait .failed) s (.assertion .epollWait)
  | readFailed (s : State) (queue : List HandlerRef) :
      Cause ⟨s, .events queue⟩ (.dispatch .failed) s .readError
  | handlerFreed {s : State} {ref : HandlerRef} {rest : List HandlerRef} {answer : ReadAnswer}
      (gone : ¬ Registered s ref) :
      Cause ⟨s, .events (ref :: rest)⟩ (.dispatch answer) s .useAfterFree
  | childExit {s t : State} {queue : List HandlerRef} {answer : SignalAnswer} {q : Nat}
      {halt : Halt} (chld : answer.signo = .sigchld) (pipe : s.safeModePipeFd = some q)
      (verdict : childExitHalt answer.exit q s = some halt) :
      Cause ⟨s, .events queue⟩ (.dispatch (.siginfo answer)) t halt
  | starting {s t : State} {queue : List HandlerRef} {answer : StartAnswer} {halt : Halt}
      (failure : StartFailure t halt) : Cause ⟨s, .post queue⟩ (.postIteration answer) t halt
  | exitsAgain {s t : State} {queue : List HandlerRef} {answer : StartAnswer}
      (exiting : s.shouldExit = true) (closing : Closing s) :
      Cause ⟨s, .post queue⟩ (.postIteration answer) t (.assertion .exitOnce)

theorem step_cause {sys next : System} {event : Event} {halt : Halt}
    (kept : Kept False sys.state) (stepped : step sys event = some next)
    (halted : next.control = .halted halt) : Cause sys event next.state halt := by
  obtain ⟨q, pipe, _⟩ := kept.links.writable
  cases step_cases stepped with
  | env _ _ => exact absurd halted (step_from_intact stepped halt)
  | ready _ => simp at halted
  | eintr _ => simp at halted
  | failed s =>
    obtain rfl := Control.halted.inj halted
    exact .epollFailed s
  | @dispatched s ref rest answer outcome called =>
    cases outcome with
    | ok s => simp [settle] at halted
    | error stop =>
      obtain rfl := Control.halted.inj halted
      rcases dispatch_error called with ⟨rfl, rfl⟩ | ⟨gone, rfl⟩ | ⟨info, rfl, lawful, chld, failed⟩
      · exact .readFailed s _
      · exact .handlerFreed gone
      · have verdict := child_exit_verdict kept.links.exact pipe lawful.once
        rw [failed] at verdict
        exact .childExit chld pipe verdict.symm
  | posted s queue answer =>
    cases outcome : runPostCallback answer s with
    | ok t =>
      rw [outcome] at halted
      exact absurd halted (loop_head_running t queue halt)
    | error stop =>
      rw [outcome] at halted
      obtain rfl := Control.halted.inj halted
      rcases run_post_callback_cases outcome with ⟨_, same⟩ | ⟨_, failed⟩
      · simp at same
      · have fd : s.safeModePipeFd ≠ none := by
          rw [show s.safeModePipeFd = some q from pipe]
          simp
        cases stage_maintenance_error failed with
        | starting _ _ before looped =>
          obtain ⟨_, _, _, _, _, rfl⟩ := before
          exact .starting (starts_failure (by exact fd) looped)
        | shuttingDown _ _ looped => exact .starting (starts_failure (by exact fd) looped)
        | exitTwice done closed exiting assertion =>
          subst assertion
          obtain ⟨steady, closes⟩ := advance_stage_frame done
          exact .exitsAgain (steady.exit ▸ exiting) (closes.mp closed)

theorem cause_read_error {before : System} {event : Event} {s : State}
    (cause : Cause before event s .readError) : s = before.state := by
  generalize halted : Halt.readError = halt at cause
  cases cause with
  | epollFailed => simp at halted
  | readFailed => rfl
  | handlerFreed => simp at halted
  | childExit _ _ verdict =>
    subst halted
    unfold childExitHalt at verdict
    repeat' split at verdict
    all_goals simp at verdict
  | starting failure =>
    subst halted
    cases failure
  | exitsAgain => simp at halted

theorem halts_for_read_error {table : BootTable} {trace : List (System × Event)} {sys : System}
    (run : InitRun table trace sys) (halted : sys.control = .halted .readError) :
    ∃ before event earlier, trace = (before, event) :: earlier ∧ sys.state = before.state := by
  obtain ⟨answer, first, booted, steps⟩ := run
  cases steps with
  | start =>
    obtain ⟨s, pid, stop, _, _, failed, rfl⟩ := boot_halted booted halted
    have failure := starts_failure (by simp [State.placed]) failed
    rw [Control.halted.inj halted] at failure
    cases failure
  | next before now =>
    have kept : Kept False _ := run_kept ⟨answer, first, booted, before⟩ (step_from_intact now)
      False.elim
    exact ⟨_, _, _, rfl, cause_read_error (step_cause kept now halted)⟩

/-- A run that has halted did so for a cause: in its last step, or while the
    first processes were started. -/
theorem halts_for_cause {table : BootTable} {trace : List (System × Event)} {sys : System}
    {halt : Halt} (run : InitRun table trace sys) (halted : sys.control = .halted halt) :
    (trace = [] ∧ StartFailure sys.state halt) ∨
    ∃ before event earlier, trace = (before, event) :: earlier ∧
      Cause before event sys.state halt := by
  obtain ⟨answer, first, booted, steps⟩ := run
  cases steps with
  | start =>
    obtain ⟨s, pid, stop, _, _, failed, rfl⟩ := boot_halted booted halted
    obtain rfl := Control.halted.inj halted
    exact Or.inl ⟨rfl, starts_failure (by simp [State.placed]) failed⟩
  | next before now =>
    have kept : Kept False _ := run_kept ⟨answer, first, booted, before⟩ (step_from_intact now)
      False.elim
    exact Or.inr ⟨_, _, _, rfl, step_cause kept now halted⟩

theorem halts_for_missing_placeholder : ∃ trace sys, InitRun sampleTable trace sys ∧
    sys.control = .halted
      (.panic "Safe mode required, but safe mode process placeholder not found!\n") ∧
    ∃ before event earlier, trace = (before, event) :: earlier ∧
      Cause before event sys.state
        (.panic "Safe mode required, but safe mode process placeholder not found!\n") := by
  obtain ⟨run, rehearsed, halted, stepped⟩ : ∃ run ∈ rehearse sampleTable sampleBoot
      [.env (.childDies 10 crashed), .env (.childDies 11 crashed),
        .epollWait (.ready [.signal]),
        .dispatch (childSignal [(10, crashed), (11, crashed)] 14)],
      run.2.control = .halted
        (.panic "Safe mode required, but safe mode process placeholder not found!\n") ∧
      run.1 ≠ [] := by
    decide +kernel
  have reached := init_run_of_rehearse rehearsed
  have cause := (halts_for_cause reached halted).resolve_left (fun none => stepped none.1)
  exact ⟨run.1, run.2, reached, halted, cause⟩

end HaltCauses
