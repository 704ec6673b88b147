import UNit.LabelledRuns
import UNit.StageControl

/-!
The main loop as a labelled transition system. One epoll_wait hands over a
batch of handlers; each is read and called, and after each the post-iteration
callback runs. The events of a batch stay queued whatever the callbacks do, and
should_exit is looked at only when the batch is used up. Any registered handler
may be reported ready and any signal of the mask may be read from it.
-/
namespace MainLoop
open InittabEntries SafeModeRecord ProcessHistory KernelModel InitState ProcessStart ChildExit
  StageControl LabelledRuns

inductive HandlerRef where
  | signal
  | timeout (id : Nat)
  deriving DecidableEq, Repr

def maxEvents : Nat := 8

inductive Control where
  | waiting
  | events (queue : List HandlerRef)
  | post (queue : List HandlerRef)
  | left
  | halted (halt : Halt)
  deriving DecidableEq, Repr

structure System where
  state : State
  control : Control

/-- The signal handler stays registered until the loop is left. -/
def Registered (s : State) : HandlerRef → Prop
  | .signal => True
  | .timeout id => id ∈ s.timeouts.map MainloopTimeout.id

instance (s : State) : (ref : HandlerRef) → Decidable (Registered s ref)
  | .signal => .isTrue trivial
  | .timeout id => inferInstanceAs (Decidable (id ∈ s.timeouts.map MainloopTimeout.id))

inductive EpollAnswer where
  | ready (batch : List HandlerRef)
  | eintr
  | failed
  deriving DecidableEq, Repr

def LawfulBatch (s : State) (batch : List HandlerRef) : Prop :=
  batch ≠ [] ∧ batch.length ≤ maxEvents ∧ batch.Nodup ∧ ∀ ref ∈ batch, Registered s ref

instance (s : State) (batch : List HandlerRef) : Decidable (LawfulBatch s batch) :=
  inferInstanceAs (Decidable (batch ≠ [] ∧ batch.length ≤ maxEvents ∧ batch.Nodup ∧
    ∀ ref ∈ batch, Registered s ref))

inductive ReadAnswer where
  | failed
  | expired
  | siginfo (answer : SignalAnswer)
  deriving DecidableEq, Repr

inductive Event where
  | env (move : EnvMove)
  | epollWait (answer : EpollAnswer)
  | dispatch (answer : ReadAnswer)
  | postIteration (answer : StartAnswer)
  deriving DecidableEq, Repr

def loopHead (s : State) (queue : List HandlerRef) : Control :=
  if queue = [] then (if s.shouldExit then .left else .waiting) else .events queue

def settle (next : State → Control) : Outcome State → System
  | .ok s => ⟨s, next s⟩
  | .error stop => ⟨stop.state, .halted stop.halt⟩

def expire (t : MainloopTimeout) (s : State) : State :=
  let called := runTimeout t.callback s
  if called.1 ≠ .continue then mainloopRemoveTimeout t.id called.2 else called.2

def SignalLawful (s : State) (answer : SignalAnswer) : Prop :=
  answer.signo = .sigchld → s.kernel.WaitLawful answer.exit.wait

instance (s : State) (answer : SignalAnswer) : Decidable (SignalLawful s answer) :=
  inferInstanceAs (Decidable (answer.signo = .sigchld → s.kernel.WaitLawful answer.exit.wait))

def dispatchSignal (answer : ReadAnswer) (s : State) : Option (Outcome State) :=
  match answer with
  | .failed => some (.error ⟨.readError, s⟩)
  | .expired => none
  | .siginfo answer => if SignalLawful s answer then some (signalHandler answer s) else none

def findTimeout (id : Nat) (s : State) : Option MainloopTimeout :=
  s.timeouts.find? (fun t => t.id = id)

def dispatchTimeout (id : Nat) (answer : ReadAnswer) (s : State) : Option (Outcome State) :=
  match findTimeout id s with
  | none => some (.error ⟨.useAfterFree, s⟩)
  | some t =>
    match answer with
    | .failed => some (.error ⟨.readError, s⟩)
    | .expired => some (.ok (expire t s))
    | .siginfo _ => none

def dispatch (ref : HandlerRef) (answer : ReadAnswer) (s : State) : Option (Outcome State) :=
  match ref with
  | .signal => dispatchSignal answer s
  | .timeout id => dispatchTimeout id answer s

def runPostCallback (answer : StartAnswer) (s : State) : Outcome State :=
  match s.postIterationCallback with
  | none => .ok s
  | some .stageMaintenance => stageMaintenance answer s

def Control.running : Control → Bool
  | .waiting => true
  | .events _ => true
  | .post _ => true
  | .left => false
  | .halted _ => false

def stepEnv (sys : System) (move : EnvMove) : Option System :=
  if sys.control.running then
    (sys.state.kernel.env move).map (fun k => { sys with state := { sys.state with kernel := k } })
  else none

def stepEpoll (sys : System) (answer : EpollAnswer) : Option System :=
  match sys.control with
  | .waiting =>
    match answer with
    | .ready batch =>
      if LawfulBatch sys.state batch then some ⟨sys.state, .events batch⟩ else none
    | .eintr => some sys
    | .failed => some ⟨sys.state, .halted (.assertion .epollWait)⟩
  | _ => none

def stepDispatch (sys : System) (answer : ReadAnswer) : Option System :=
  match sys.control with
  | .events (ref :: rest) =>
    (dispatch ref answer sys.state).map (settle (fun _ => .post rest))
  | _ => none

def stepPost (sys : System) (answer : StartAnswer) : Option System :=
  match sys.control with
  | .post queue => some (settle (fun s => loopHead s queue) (runPostCallback answer sys.state))
  | _ => none

def step (sys : System) : Event → Option System
  | .env move => stepEnv sys move
  | .epollWait answer => stepEpoll sys answer
  | .dispatch answer => stepDispatch sys answer
  | .postIteration answer => stepPost sys answer

/-- The answers main gets between mainloop_setup and mainloop_start; the
    watchdog timer is there only if the device was opened. -/
structure BootAnswer where
  watchdog : Option (Nat × TimerAnswer)
  setup : SetupAnswer
  start : StartAnswer
  deriving DecidableEq, Repr

def State.initial (table : BootTable) : State where
  table := table
  remaining := []
  pendingFinish := 0
  runningProcesses := []
  currentStage := .setup
  killTimeout := none
  oneShotTimeout := none
  safeModePipeFd := none
  shutdownCommand := .autoboot
  safeModeOn := false
  shouldExit := true
  postIterationCallback := some .stageMaintenance
  timeouts := []
  timeoutCount := 0
  kernel := .initial

def startWatchdog : Option (Nat × TimerAnswer) → State → State
  | none, s => s
  | some (msec, answer), s => (mainloopAddTimeout answer msec .watchdogFeed s).2

/-- From the start of main to the first epoll_wait; none is an exit before the
    loop, which ends init without a run. -/
def boot (table : BootTable) (answer : BootAnswer) : Option System :=
  let made := setupSafeMode answer.setup table.safeModeEntry
    (startWatchdog answer.watchdog (State.initial table))
  if made.1 then
    match startProcesses answer.start table.startupList
        { made.2 with currentStage := .startup } with
    | .error stop => some ⟨stop.state, .halted stop.halt⟩
    | .ok (_, s) => some ⟨{ s with shouldExit := false }, .waiting⟩
  else none

def InitRun (table : BootTable) (trace : List (System × Event)) (sys : System) : Prop :=
  ∃ answer first, boot table answer = some first ∧ Run step first trace sys

def Control.intact (control : Control) : Prop := ∀ halt, control ≠ .halted halt

theorem halted_of_not_intact {control : Control} (broken : ¬ control.intact) :
    ∃ halt, control = .halted halt := by
  simpa [Control.intact] using broken

theorem waiting_intact {control : Control} (waiting : control = .waiting) : control.intact := by
  intro halt halted
  simp [waiting] at halted

inductive LoopStep : System → Event → System → Prop where
  | env {sys : System} {move : EnvMove} {k : Kernel} (running : sys.control.running = true)
      (moved : sys.state.kernel.env move = some k) :
      LoopStep sys (.env move) { sys with state := { sys.state with kernel := k } }
  | ready {s : State} {batch : List HandlerRef} (lawful : LawfulBatch s batch) :
      LoopStep ⟨s, .waiting⟩ (.epollWait (.ready batch)) ⟨s, .events batch⟩
  | eintr (s : State) : LoopStep ⟨s, .waiting⟩ (.epollWait .eintr) ⟨s, .waiting⟩
  | failed (s : State) :
      LoopStep ⟨s, .waiting⟩ (.epollWait .failed) ⟨s, .halted (.assertion .epollWait)⟩
  | dispatched {s : State} {ref : HandlerRef} {rest : List HandlerRef} {answer : ReadAnswer}
      {outcome : Outcome State} (called : dispatch ref answer s = some outcome) :
      LoopStep ⟨s, .events (ref :: rest)⟩ (.dispatch answer)
        (settle (fun _ => .post rest) outcome)
  | posted (s : State) (queue : List HandlerRef) (answer : StartAnswer) :
      LoopStep ⟨s, .post queue⟩ (.postIteration answer)
        (settle (fun s => loopHead s queue) (runPostCallback answer s))

theorem step_cases {sys sys' : System} {event : Event} (stepped : step sys event = some sys') :
    LoopStep sys event sys' := by
  obtain ⟨s, control⟩ := sys
  cases event with
  | env move =>
    simp only [step, stepEnv] at stepped
    split at stepped
    · rename_i running
      obtain ⟨k, moved, rfl⟩ := Option.map_eq_some_iff.mp stepped
      exact .env running moved
    · simp at stepped
  | epollWait answer =>
    cases control <;> simp only [step, stepEpoll, reduceCtorEq] at stepped
    cases answer with
    | ready batch =>
      dsimp only at stepped
      split at stepped
      · rename_i lawful
        obtain rfl := Option.some.inj stepped
        exact .ready lawful
      · simp at stepped
    | eintr =>
      obtain rfl := Option.some.inj stepped
      exact .eintr s
    | failed =>
      obtain rfl := Option.some.inj stepped
      exact .failed s
  | dispatch answer =>
    simp only [step, stepDispatch] at stepped
    split at stepped
    · obtain ⟨outcome, called, rfl⟩ := Option.map_eq_some_iff.mp stepped
      exact .dispatched called
    · simp at stepped
  | postIteration answer =>
    simp only [step, stepPost] at stepped
    split at stepped
    · obtain rfl := Option.some.inj stepped
      exact .posted s _ answer
    · simp at stepped

theorem step_from_running {sys sys' : System} {event : Event}
    (stepped : step sys event = some sys') : sys.control.running = true := by
  cases step_cases stepped with
  | env running _ => exact running
  | ready _ => rfl
  | eintr _ => rfl
  | failed _ => rfl
  | dispatched _ => rfl
  | posted _ _ _ => rfl

theorem step_from_intact {sys sys' : System} {event : Event}
    (stepped : step sys event = some sys') : sys.control.intact := by
  intro halt halted
  have running := step_from_running stepped
  simp [halted, Control.running] at running

theorem loop_head_running (s : State) (queue : List HandlerRef) (halt : Halt) :
    loopHead s queue ≠ .halted halt := by
  unfold loopHead
  split
  · split <;> simp
  · simp

theorem run_post_callback_cases {answer : StartAnswer} {s : State} {outcome : Outcome State}
    (done : runPostCallback answer s = outcome) :
    (s.postIterationCallback = none ∧ outcome = .ok s) ∨
    (s.postIterationCallback ≠ none ∧ stageMaintenance answer s = outcome) := by
  unfold runPostCallback at done
  split at done
  · rename_i unset
    exact Or.inl ⟨unset, done.symm⟩
  · rename_i callback
    exact Or.inr ⟨by simp [callback], done⟩

inductive StateStep : State → Event → State → Prop where
  | env {s : State} {move : EnvMove} {k : Kernel} (moved : s.kernel.env move = some k) :
      StateStep s (.env move) { s with kernel := k }
  | idle (s : State) (event : Event) : StateStep s event s
  | childExit {s s' : State} {answer : SignalAnswer}
      (lawful : s.kernel.WaitLawful answer.exit.wait) (chld : answer.signo = .sigchld)
      (done : handleChildExit answer.exit s = .ok s') :
      StateStep s (.dispatch (.siginfo answer)) s'
  | shutdownCmd (s : State) (answer : SignalAnswer) (command : RebootCommand) :
      StateStep s (.dispatch (.siginfo answer)) (handleShutdownCmd answer.timer command s)
  | expired {s : State} {t : MainloopTimeout} (registered : t ∈ s.timeouts) :
      StateStep s (.dispatch .expired) (expire t s)
  | maintained {s s' : State} {answer : StartAnswer} (callback : s.postIterationCallback ≠ none)
      (done : stageMaintenance answer s = .ok s') : StateStep s (.postIteration answer) s'

theorem expire_cases (t : MainloopTimeout) (s : State) :
    Retimed s (expire t s) ∨
    Retimed { s with kernel := signalAll .sigkill s.runningProcesses s.kernel } (expire t s) := by
  cases called : t.callback with
  | oneShotTimeoutCb =>
    simp only [expire, called, runTimeout, oneShotTimeoutCb]
    exact Or.inl ⟨_, _, _, _, _, rfl⟩
  | killTimeoutCb =>
    simp only [expire, called, runTimeout, killTimeoutCb]
    by_cases ending : s.currentStage = .termination
    · simp only [ending, ↓reduceIte]
      exact Or.inr ⟨_, _, _, _, _, rfl⟩
    · simp only [ending, ↓reduceIte]
      exact Or.inl ⟨_, _, _, _, _, rfl⟩
  | watchdogFeed =>
    simp only [expire, called, runTimeout]
    exact Or.inl (retimed_refl s)

theorem settle_intact {next : State → Control} {outcome : Outcome State}
    (intact : (settle next outcome).control.intact) :
    ∃ s, outcome = .ok s ∧ settle next outcome = ⟨s, next s⟩ := by
  cases outcome with
  | error stop => exact absurd rfl (intact stop.halt)
  | ok s => exact ⟨s, rfl, rfl⟩

theorem signal_handler_state {answer : SignalAnswer} {s s' : State}
    (lawful : SignalLawful s answer) (done : signalHandler answer s = .ok s') :
    StateStep s (.dispatch (.siginfo answer)) s' := by
  unfold signalHandler at done
  cases signo : answer.signo <;> simp only [signo] at done
  · exact .childExit (lawful signo) signo done
  · obtain rfl := Except.ok.inj done
    exact .shutdownCmd s answer .autoboot
  · obtain rfl := Except.ok.inj done
    exact .shutdownCmd s answer .haltSystem
  · obtain rfl := Except.ok.inj done
    exact .shutdownCmd s answer .powerOff
  · obtain rfl := Except.ok.inj done
    exact .idle s _

theorem find_timeout_some {id : Nat} {s : State} {t : MainloopTimeout}
    (found : findTimeout id s = some t) : t ∈ s.timeouts ∧ t.id = id := by
  have member := List.mem_of_find?_eq_some found
  have same := List.find?_some found
  exact ⟨member, by simpa using same⟩

theorem dispatch_state {ref : HandlerRef} {answer : ReadAnswer} {s s' : State}
    (done : dispatch ref answer s = some (.ok s')) :
    StateStep s (.dispatch answer) s' := by
  cases ref with
  | signal =>
    simp only [dispatch, dispatchSignal] at done
    split at done
    · simp at done
    · simp at done
    · split at done
      · rename_i lawful
        exact signal_handler_state lawful (Option.some.inj done)
      · simp at done
  | timeout id =>
    simp only [dispatch, dispatchTimeout] at done
    split at done
    · simp at done
    · rename_i t found
      split at done
      · simp at done
      · obtain rfl := Except.ok.inj (Option.some.inj done)
        exact .expired (find_timeout_some found).1
      · simp at done

theorem step_state {sys sys' : System} {event : Event} (stepped : step sys event = some sys')
    (intact : sys'.control.intact) : StateStep sys.state event sys'.state := by
  cases step_cases stepped with
  | env _ moved => exact .env moved
  | ready _ => exact .idle _ _
  | eintr _ => exact .idle _ _
  | failed _ => exact .idle _ _
  | dispatched called =>
    obtain ⟨s', rfl, settled⟩ := settle_intact intact
    rw [settled]
    exact dispatch_state called
  | posted s queue answer =>
    obtain ⟨s', done, settled⟩ := settle_intact intact
    rw [settled]
    rcases run_post_callback_cases done with ⟨_, same⟩ | ⟨callback, maintained⟩
    · obtain rfl := Except.ok.inj same
      exact .idle _ _
    · exact .maintained callback maintained

inductive HaltStep : State → Event → State → Prop where
  | same (s : State) (event : Event) : HaltStep s event s
  | childExit {s : State} {answer : SignalAnswer} {stop : Stop}
      (lawful : s.kernel.WaitLawful answer.exit.wait) (chld : answer.signo = .sigchld)
      (failed : handleChildExit answer.exit s = .error stop) :
      HaltStep s (.dispatch (.siginfo answer)) stop.state
  | maintenance {s : State} {answer : StartAnswer} {stop : Stop}
      (failed : stageMaintenance answer s = .error stop) :
      HaltStep s (.postIteration answer) stop.state

theorem dispatch_error {ref : HandlerRef} {answer : ReadAnswer} {s : State} {stop : Stop}
    (failed : dispatch ref answer s = some (.error stop)) :
    (answer = .failed ∧ stop = ⟨.readError, s⟩) ∨
    (¬ Registered s ref ∧ stop = ⟨.useAfterFree, s⟩) ∨
    ∃ info, answer = .siginfo info ∧ s.kernel.WaitLawful info.exit.wait ∧
      info.signo = .sigchld ∧ handleChildExit info.exit s = .error stop := by
  cases ref with
  | signal =>
    simp only [dispatch, dispatchSignal] at failed
    split at failed
    · exact Or.inl ⟨rfl, (Except.error.inj (Option.some.inj failed)).symm⟩
    · simp at failed
    · rename_i info
      split at failed
      · rename_i lawful
        have halted := Option.some.inj failed
        unfold signalHandler at halted
        cases signo : info.signo <;> simp only [signo] at halted
        · exact Or.inr (Or.inr ⟨info, rfl, lawful signo, signo, halted⟩)
        all_goals simp at halted
      · simp at failed
  | timeout id =>
    simp only [dispatch, dispatchTimeout] at failed
    split at failed
    · rename_i absent
      refine Or.inr (Or.inl ⟨?_, (Except.error.inj (Option.some.inj failed)).symm⟩)
      simpa [Registered, findTimeout] using absent
    · split at failed
      · exact Or.inl ⟨rfl, (Except.error.inj (Option.some.inj failed)).symm⟩
      · simp at failed
      · simp at failed

theorem step_halt {sys sys' : System} {event : Event} {halt : Halt}
    (stepped : step sys event = some sys') (halted : sys'.control = .halted halt) :
    HaltStep sys.state event sys'.state := by
  cases step_cases stepped with
  | env _ _ => exact absurd halted (step_from_intact stepped halt)
  | ready _ => simp at halted
  | eintr _ => simp at halted
  | failed _ => exact .same _ _
  | @dispatched s _ _ _ outcome called =>
    cases outcome with
    | ok s => simp [settle] at halted
    | error stop =>
      rcases dispatch_error called with ⟨_, rfl⟩ | ⟨_, rfl⟩ | ⟨info, rfl, lawful, chld, failed⟩
      · exact .same _ _
      · exact .same _ _
      · exact .childExit lawful chld failed
  | posted s queue answer =>
    cases outcome : runPostCallback answer s with
    | ok s' =>
      rw [outcome] at halted
      exact absurd halted (loop_head_running s' queue halt)
    | error stop =>
      rcases run_post_callback_cases outcome with ⟨_, same⟩ | ⟨_, failed⟩
      · simp at same
      · exact .maintenance failed

theorem start_watchdog_retimed (watchdog : Option (Nat × TimerAnswer)) (s : State) :
    Retimed s (startWatchdog watchdog s) := by
  cases watchdog with
  | none => exact retimed_refl s
  | some device =>
    obtain ⟨msec, timer⟩ := device
    simp only [startWatchdog]
    rcases add_timeout_cases timer msec .watchdogFeed s with added | added
    · rw [added]
      exact retimed_refl s
    · rw [added]
      exact ⟨_, _, _, _, _, rfl⟩

theorem boot_cases {table : BootTable} {answer : BootAnswer} {sys : System}
    (booted : boot table answer = some sys) :
    ∃ s pid started, s = startWatchdog answer.watchdog (State.initial table) ∧
      s.kernel.PidFree pid ∧
      started = { State.placed (closePreviousPipe s) table.safeModeEntry pid with
        currentStage := .startup } ∧
      ((∃ stop, startProcesses answer.start table.startupList started = .error stop ∧
          sys = ⟨stop.state, .halted stop.halt⟩) ∨
        ∃ result s', startProcesses answer.start table.startupList started = .ok (result, s') ∧
          sys = ⟨{ s' with shouldExit := false }, .waiting⟩) := by
  unfold boot at booted
  generalize made : setupSafeMode answer.setup table.safeModeEntry
    (startWatchdog answer.watchdog (State.initial table)) = outcome at booted
  obtain ⟨ready, placed⟩ := outcome
  dsimp only at booted
  split at booted
  · rename_i yes
    subst yes
    obtain ⟨pid, free, rfl⟩ := setup_safe_mode_made made
    refine ⟨_, pid, _, rfl, free, rfl, ?_⟩
    split at booted
    · rename_i stop failed
      exact Or.inl ⟨stop, failed, (Option.some.inj booted).symm⟩
    · rename_i result s' started
      exact Or.inr ⟨result, s', started, (Option.some.inj booted).symm⟩
  · simp at booted

theorem boot_intact {table : BootTable} {answer : BootAnswer} {sys : System}
    (booted : boot table answer = some sys) (intact : sys.control.intact) :
    ∃ s pid result s', Retimed (State.initial table) s ∧ s.kernel.PidFree pid ∧
      startProcesses answer.start table.startupList
        { State.placed (closePreviousPipe s) table.safeModeEntry pid with
          currentStage := .startup } = .ok (result, s') ∧
      sys = ⟨{ s' with shouldExit := false }, .waiting⟩ := by
  obtain ⟨s, pid, _, watched, free, rfl, ⟨stop, _, rfl⟩ | ⟨result, s', started, same⟩⟩ :=
    boot_cases booted
  · exact absurd rfl (intact stop.halt)
  · exact ⟨s, pid, result, s', watched ▸ start_watchdog_retimed _ _, free, started, same⟩

theorem boot_halted {table : BootTable} {answer : BootAnswer} {sys : System} {halt : Halt}
    (booted : boot table answer = some sys) (halted : sys.control = .halted halt) :
    ∃ s pid stop, Retimed (State.initial table) s ∧ s.kernel.PidFree pid ∧
      StartsHalted answer.start table.startupList
        { State.placed (closePreviousPipe s) table.safeModeEntry pid with
          currentStage := .startup } stop ∧
      sys = ⟨stop.state, .halted stop.halt⟩ := by
  obtain ⟨s, pid, _, watched, free, rfl, ⟨stop, failed, same⟩ | ⟨_, _, _, rfl⟩⟩ :=
    boot_cases booted
  · exact ⟨s, pid, stop, watched ▸ start_watchdog_retimed _ _, free,
      start_processes_error failed, same⟩
  · simp at halted

theorem init_run_invariant (good : State → Event → Prop) (inv : State → Prop)
    {table : BootTable} {trace : List (System × Event)} {sys : System}
    (run : InitRun table trace sys) (intact : sys.control.intact)
    (meets : Meets (fun sys event => good sys.state event) trace)
    (booted : ∀ answer first, boot table answer = some first → first.control.intact →
      inv first.state)
    (stepped : ∀ s event s', inv s → good s event → StateStep s event s' → inv s') :
    inv sys.state := by
  obtain ⟨answer, first, boots, steps⟩ := run
  refine run_invariant (fun sys => sys.control.intact → inv sys.state)
    steps meets (booted answer first boots) ?_ intact
  intro a event b held good now later
  exact stepped a.state event b.state (held (step_from_intact now)) good (step_state now later)

/-- The same for runs that may have halted: what the invariant implies must also
    hold of the state a halting step leaves behind. -/
theorem init_run_outcome (good : State → Event → Prop) (inv ended : State → Prop)
    {table : BootTable} {trace : List (System × Event)} {sys : System}
    (run : InitRun table trace sys)
    (meets : Meets (fun sys event => good sys.state event) trace)
    (booted : ∀ answer first, boot table answer = some first → first.control.intact →
      inv first.state)
    (stepped : ∀ s event s', inv s → good s event → StateStep s event s' → inv s')
    (implied : ∀ s, inv s → ended s)
    (bootHalted : ∀ answer first halt, boot table answer = some first →
      first.control = .halted halt → ended first.state)
    (halted : ∀ s event s', inv s → good s event → HaltStep s event s' → ended s') :
    ended sys.state := by
  by_cases intact : sys.control.intact
  · exact implied _ (init_run_invariant good inv run intact meets booted stepped)
  · obtain ⟨halt, stopped⟩ := halted_of_not_intact intact
    obtain ⟨answer, first, boots, steps⟩ := run
    cases steps with
    | start => exact bootHalted answer _ halt boots stopped
    | next earlier now =>
      obtain ⟨here, past⟩ := meets_cons.mp meets
      have held := init_run_invariant good inv ⟨answer, first, boots, earlier⟩
        (step_from_intact now) past booted stepped
      exact halted _ _ _ held here (step_halt now stopped)

def rehearse (table : BootTable) (answer : BootAnswer) (events : List Event) :
    Option (List (System × Event) × System) :=
  (boot table answer).bind (fun first => replay step [] first events)

theorem boot_run_of_rehearse {table : BootTable} {answer : BootAnswer} {events : List Event}
    {run : List (System × Event) × System} (rehearsed : run ∈ rehearse table answer events) :
    ∃ first, boot table answer = some first ∧ Run step first run.1 run.2 := by
  simp only [rehearse, Option.mem_def, Option.bind_eq_some_iff] at rehearsed
  obtain ⟨first, booted, replayed⟩ := rehearsed
  exact ⟨first, booted, run_of_replay (Run.start first) replayed⟩

theorem init_run_of_rehearse {table : BootTable} {answer : BootAnswer} {events : List Event}
    {run : List (System × Event) × System} (rehearsed : run ∈ rehearse table answer events) :
    InitRun table run.1 run.2 :=
  ⟨answer, boot_run_of_rehearse rehearsed⟩

def sampleTable : BootTable where
  startupList := [⟨[97], [], 1, -1, .safeService⟩, ⟨[98], [], 1, -1, .safeService⟩,
    ⟨[99], [], 2, -1, .oneShot⟩]
  shutdownList := [⟨[100], [], 3, -1, .shutdown⟩]
  safeModeEntry := ⟨[115], [], -1, -1, .safeMode⟩
  startup_kinds := by decide
  shutdown_kinds := by decide
  safe_mode_kind := rfl
  startup_sorted := by decide
  shutdown_sorted := by decide

def timerSet : TimerAnswer := ⟨true, true, true⟩

def forksAnswered (pids : List Int) : StartAnswer :=
  ⟨pids.map (fun pid => ⟨true, pid, [.wrote sizeofSharedInfo]⟩), timerSet⟩

/-- The placeholder is 10, the services 11 and 12, the one-shot 13; timeout 0
    feeds the watchdog and timeout 1 watches the one-shot. -/
def sampleBoot : BootAnswer :=
  ⟨some (1000, timerSet), ⟨true, true, 10⟩, forksAnswered [11, 12, 13]⟩

def childSignal (results : List (Int × WaitStatus)) (placeholder : Int) : ReadAnswer :=
  .siginfo ⟨.sigchld, ⟨⟨results, .noneDead⟩, [.wrote sizeofSharedInfo],
    ⟨true, true, placeholder⟩⟩, timerSet⟩

def termSignal : ReadAnswer :=
  .siginfo ⟨.sigterm, ⟨⟨[], .noneDead⟩, [], ⟨true, true, -1⟩⟩, timerSet⟩

def handled (ref : HandlerRef) (answer : ReadAnswer) (pids : List Int) : List Event :=
  [.epollWait (.ready [ref]), .dispatch answer, .postIteration (forksAnswered pids)]

def crashed : WaitStatus := .signaled 11 (by decide)

/-- SIGTERM, after which everything but the placeholder exits; the callback then
    forks the shutdown entry, if the answer lets it. -/
def untilShutdown (pids : List Int) : List Event :=
  handled .signal termSignal [] ++
    [.env (.childDies 11 (.exited 0)), .env (.childDies 12 (.exited 0)),
      .env (.childDies 13 (.exited 0))] ++
    handled .signal (childSignal [(11, .exited 0), (12, .exited 0), (13, .exited 0)] (-1)) pids

end MainLoop
