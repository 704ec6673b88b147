import UNit.ChildExit

/-!
The stages of init: progress after each event, shutdown commands, the
TERM and KILL broadcasts and the signal handler.
-/
namespace StageControl
open InittabEntries SafeModeRecord ProcessHistory KernelModel InitState ProcessStart ChildExit

def cancelOneShotTimeout (s : State) : State :=
  match s.oneShotTimeout with
  | none => s
  | some id => { mainloopRemoveTimeout id s with oneShotTimeout := none }

def cancelKillTimeout (s : State) : State :=
  match s.killTimeout with
  | none => s
  | some id => { mainloopRemoveTimeout id s with killTimeout := none }

def continueStarting (answer : StartAnswer) (s : State) : Outcome State :=
  if s.pendingFinish = 0 then
    let s := cancelOneShotTimeout s
    match s.remaining with
    | first :: rest =>
      match startProcesses answer (first :: rest) s with
      | .error stop => .error stop
      | .ok (_, s) => .ok s
    | [] =>
      if s.currentStage = .startup then
        .ok (mainloopSetPostIterationCallback none { s with currentStage := .run })
      else .ok { s with currentStage := .close }
  else .ok s

def atMostOne : List Process → Bool
  | [] => true
  | [_] => true
  | _ :: _ :: _ => false

def beginShutdown (answer : StartAnswer) (s : State) : Outcome State :=
  match s.table.shutdownList with
  | first :: rest =>
    match startProcesses answer (first :: rest) { s with currentStage := .shutdown } with
    | .error stop => .error stop
    | .ok (_, s) => .ok s
  | [] => .ok { s with currentStage := .close }

def continueTermination (answer : StartAnswer) (s : State) : Outcome State :=
  if atMostOne s.runningProcesses then
    match beginShutdown answer s with
    | .error stop => .error stop
    | .ok s => .ok (cancelKillTimeout s)
  else .ok s

def advanceStage (answer : StartAnswer) (s : State) : Outcome State :=
  match s.currentStage with
  | .startup => continueStarting answer s
  | .shutdown => continueStarting answer s
  | .termination => continueTermination answer s
  | .setup => .ok s
  | .run => .ok s
  | .close => .ok s

def stageMaintenance (answer : StartAnswer) (s : State) : Outcome State :=
  match advanceStage answer s with
  | .error stop => .error stop
  | .ok s => if s.currentStage = .close then mainloopExit s else .ok s

/-- kill(2) for every tracked process but the safe-mode one. -/
def signalAll (signal : KillSignal) : List Process → Kernel → Kernel
  | [], k => k
  | p :: rest, k =>
    signalAll signal rest
      (if p.config.type ≠ .safeMode then k.note (.kill p.pid signal) else k)

def oneShotTimeoutCb (s : State) : TimeoutResult × State :=
  (.stop, { s with oneShotTimeout := none })

def killTimeoutCb (s : State) : TimeoutResult × State :=
  let k := if s.currentStage = .termination then
    signalAll .sigkill s.runningProcesses s.kernel else s.kernel
  (.stop, { s with kernel := k, killTimeout := none })

def termRunningProcess (answer : TimerAnswer) (s : State) : State :=
  let s := { s with kernel := signalAll .sigterm s.runningProcesses s.kernel }
  let added := mainloopAddTimeout answer timeoutTerm .killTimeoutCb s
  { added.2 with killTimeout := added.1 }

def handleShutdownCmd (answer : TimerAnswer) (command : RebootCommand) (s : State) : State :=
  let s := { s with
    remaining := []
    pendingFinish := 0
    kernel := s.kernel.note (.shutdownCommand command) }
  let s := cancelOneShotTimeout s
  let s := termRunningProcess answer { s with currentStage := .termination }
  mainloopSetPostIterationCallback (some .stageMaintenance) { s with shutdownCommand := command }

inductive Signo where
  | sigchld
  | sigterm
  | sigusr1
  | sigusr2
  | other
  deriving DecidableEq, Repr

structure SignalAnswer where
  signo : Signo
  exit : ExitAnswer
  timer : TimerAnswer
  deriving DecidableEq, Repr

def signalHandler (answer : SignalAnswer) (s : State) : Outcome State :=
  match answer.signo with
  | .sigchld => handleChildExit answer.exit s
  | .sigterm => .ok (handleShutdownCmd answer.timer .autoboot s)
  | .sigusr1 => .ok (handleShutdownCmd answer.timer .haltSystem s)
  | .sigusr2 => .ok (handleShutdownCmd answer.timer .powerOff s)
  | .other => .ok s

/-- The watchdog is fed through its own descriptor, outside this state. -/
def runTimeout : TimeoutCallback → State → TimeoutResult × State
  | .oneShotTimeoutCb, s => oneShotTimeoutCb s
  | .killTimeoutCb, s => killTimeoutCb s
  | .watchdogFeed, s => (.continue, s)

theorem cancel_one_shot_retimed (s : State) : Retimed s (cancelOneShotTimeout s) := by
  unfold cancelOneShotTimeout
  split
  · exact retimed_refl s
  · exact ⟨_, _, _, _, _, rfl⟩

theorem cancel_kill_retimed (s : State) : Retimed s (cancelKillTimeout s) := by
  unfold cancelKillTimeout
  split
  · exact retimed_refl s
  · exact ⟨_, _, _, _, _, rfl⟩

inductive StageMove (answer : StartAnswer) (s : State) : State → Prop where
  | resting (stage : s.currentStage = .setup ∨ s.currentStage = .run ∨ s.currentStage = .close) :
      StageMove answer s s
  | pending (starting : s.currentStage = .startup ∨ s.currentStage = .shutdown)
      (pending : s.pendingFinish ≠ 0) : StageMove answer s s
  | continued (starting : s.currentStage = .startup ∨ s.currentStage = .shutdown)
      (settled : s.pendingFinish = 0) (due : s.remaining ≠ []) {result : Bool} {t : State}
      (started : startProcesses answer s.remaining (cancelOneShotTimeout s) = .ok (result, t)) :
      StageMove answer s t
  | toRun (starting : s.currentStage = .startup) (settled : s.pendingFinish = 0)
      (exhausted : s.remaining = []) :
      StageMove answer s (mainloopSetPostIterationCallback none
        { cancelOneShotTimeout s with currentStage := .run })
  | toClose (starting : s.currentStage = .shutdown) (settled : s.pendingFinish = 0)
      (exhausted : s.remaining = []) :
      StageMove answer s { cancelOneShotTimeout s with currentStage := .close }
  | waiting (ending : s.currentStage = .termination)
      (many : atMostOne s.runningProcesses = false) : StageMove answer s s
  | toShutdown (ending : s.currentStage = .termination)
      (few : atMostOne s.runningProcesses = true) (due : s.table.shutdownList ≠ [])
      {result : Bool} {t : State}
      (started : startProcesses answer s.table.shutdownList
        { s with currentStage := .shutdown } = .ok (result, t)) :
      StageMove answer s (cancelKillTimeout t)
  | straightToClose (ending : s.currentStage = .termination)
      (few : atMostOne s.runningProcesses = true) (empty : s.table.shutdownList = []) :
      StageMove answer s (cancelKillTimeout { s with currentStage := .close })

theorem continue_starting_moves {answer : StartAnswer} {s s' : State}
    (starting : s.currentStage = .startup ∨ s.currentStage = .shutdown)
    (done : continueStarting answer s = .ok s') : StageMove answer s s' := by
  unfold continueStarting at done
  split at done
  · rename_i settled
    have same : (cancelOneShotTimeout s).remaining = s.remaining ∧
        (cancelOneShotTimeout s).currentStage = s.currentStage := by
      obtain ⟨_, _, _, _, _, shape⟩ := cancel_one_shot_retimed s
      rw [shape]
      exact ⟨rfl, rfl⟩
    dsimp only at done
    split at done
    · rename_i first rest remaining
      have due : s.remaining = first :: rest := same.1.symm.trans remaining
      split at done
      · simp at done
      · rename_i result final started
        obtain rfl := Except.ok.inj done
        rw [← due] at started
        exact .continued starting settled (by simp [due]) started
    · rename_i remaining
      have exhausted : s.remaining = [] := same.1.symm.trans remaining
      split at done
      · rename_i early
        obtain rfl := Except.ok.inj done
        exact .toRun (same.2.symm.trans early) settled exhausted
      · rename_i late
        obtain rfl := Except.ok.inj done
        exact .toClose (starting.resolve_left (fun early => late (same.2.trans early))) settled
          exhausted
  · rename_i pending
    obtain rfl := Except.ok.inj done
    exact .pending starting pending

theorem continue_termination_moves {answer : StartAnswer} {s s' : State}
    (ending : s.currentStage = .termination)
    (done : continueTermination answer s = .ok s') : StageMove answer s s' := by
  unfold continueTermination beginShutdown at done
  split at done
  · rename_i few
    split at done
    · simp at done
    · rename_i middle begun
      obtain rfl := Except.ok.inj done
      split at begun
      · rename_i first rest listed
        split at begun
        · simp at begun
        · rename_i result final started
          obtain rfl := Except.ok.inj begun
          rw [← listed] at started
          exact .toShutdown ending few (by simp [listed]) started
      · rename_i empty
        obtain rfl := Except.ok.inj begun
        exact .straightToClose ending few empty
  · rename_i many
    obtain rfl := Except.ok.inj done
    exact .waiting ending (by simpa using many)

theorem advance_stage_moves {answer : StartAnswer} {s s' : State}
    (done : advanceStage answer s = .ok s') : StageMove answer s s' := by
  unfold advanceStage at done
  split at done
  · rename_i stage
    exact continue_starting_moves (Or.inl stage) done
  · rename_i stage
    exact continue_starting_moves (Or.inr stage) done
  · rename_i stage
    exact continue_termination_moves stage done
  all_goals
    rename_i stage
    obtain rfl := Except.ok.inj done
    exact .resting (by simp [stage])

theorem stage_maintenance_cases {answer : StartAnswer} {s s' : State}
    (done : stageMaintenance answer s = .ok s') :
    ∃ t, advanceStage answer s = .ok t ∧
      ((t.currentStage ≠ .close ∧ s' = t) ∨
        (t.currentStage = .close ∧ s' = { t with shouldExit := true })) := by
  unfold stageMaintenance mainloopExit at done
  split at done
  · simp at done
  · rename_i t advanced
    refine ⟨t, advanced, ?_⟩
    split at done
    · rename_i closed
      split at done
      · simp at done
      · exact Or.inr ⟨closed, (Except.ok.inj done).symm⟩
    · rename_i going
      exact Or.inl ⟨going, (Except.ok.inj done).symm⟩

inductive Maintained (answer : StartAnswer) (s s' : State) : Prop where
  | unchanged (same : Retimed s s')
  | started (starting : s.currentStage = .startup ∨ s.currentStage = .shutdown)
      (settled : s.pendingFinish = 0) {t : State} (before : Retimed s t)
      (starts : Starts answer s.remaining t s')
  | toRun (starting : s.currentStage = .startup) (settled : s.pendingFinish = 0)
      (exhausted : s.remaining = [])
      (same : Retimed { s with currentStage := .run, postIterationCallback := none } s')
  | toClose (starting : s.currentStage = .shutdown) (settled : s.pendingFinish = 0)
      (exhausted : s.remaining = []) (same : Retimed { s with currentStage := .close } s')
  | toShutdown (ending : s.currentStage = .termination)
      (few : atMostOne s.runningProcesses = true) {t : State}
      (starts : Starts answer s.table.shutdownList { s with currentStage := .shutdown } t)
      (same : Retimed t s')
  | straightToClose (ending : s.currentStage = .termination)
      (few : atMostOne s.runningProcesses = true) (empty : s.table.shutdownList = [])
      (same : Retimed { s with currentStage := .close } s')

theorem advance_stage_maintained {answer : StartAnswer} {s s' : State}
    (done : advanceStage answer s = .ok s') : Maintained answer s s' := by
  have cancelled := cancel_one_shot_retimed s
  cases advance_stage_moves done with
  | resting _ => exact .unchanged (retimed_refl s)
  | pending _ _ => exact .unchanged (retimed_refl s)
  | continued starting settled due started =>
    exact .started starting settled cancelled (start_processes_starts due started)
  | toRun starting settled exhausted =>
    obtain ⟨timeouts, count, oneShot, kill, exit, shape⟩ := cancelled
    rw [shape]
    exact .toRun starting settled exhausted ⟨timeouts, count, oneShot, kill, exit, rfl⟩
  | toClose starting settled exhausted =>
    obtain ⟨timeouts, count, oneShot, kill, exit, shape⟩ := cancelled
    rw [shape]
    exact .toClose starting settled exhausted ⟨timeouts, count, oneShot, kill, exit, rfl⟩
  | waiting _ _ => exact .unchanged (retimed_refl s)
  | toShutdown ending few due started =>
    exact .toShutdown ending few (start_processes_starts due started) (cancel_kill_retimed _)
  | straightToClose ending few empty =>
    exact .straightToClose ending few empty (cancel_kill_retimed _)

theorem maintained_retimed {answer : StartAnswer} {s t u : State}
    (done : Maintained answer s t) (later : Retimed t u) : Maintained answer s u := by
  cases done with
  | unchanged same => exact .unchanged (retimed_trans same later)
  | started starting settled before starts =>
    obtain ⟨first, rest, r, listed, looped, retimed⟩ := starts
    exact .started starting settled before
      ⟨first, rest, r, listed, looped, retimed_trans retimed later⟩
  | toRun starting settled exhausted same =>
    exact .toRun starting settled exhausted (retimed_trans same later)
  | toClose starting settled exhausted same =>
    exact .toClose starting settled exhausted (retimed_trans same later)
  | toShutdown ending few starts same =>
    exact .toShutdown ending few starts (retimed_trans same later)
  | straightToClose ending few empty same =>
    exact .straightToClose ending few empty (retimed_trans same later)

theorem stage_maintenance_maintained {answer : StartAnswer} {s s' : State}
    (done : stageMaintenance answer s = .ok s') : Maintained answer s s' := by
  obtain ⟨t, advanced, ⟨_, rfl⟩ | ⟨_, rfl⟩⟩ := stage_maintenance_cases done
  · exact advance_stage_maintained advanced
  · exact maintained_retimed (advance_stage_maintained advanced) ⟨_, _, _, _, _, rfl⟩

inductive MaintenanceHalted (answer : StartAnswer) (s : State) (stop : Stop) : Prop where
  | starting (starting : s.currentStage = .startup ∨ s.currentStage = .shutdown)
      (settled : s.pendingFinish = 0) {t : State} (before : Retimed s t)
      (halted : StartsHalted answer s.remaining t stop)
  | shuttingDown (ending : s.currentStage = .termination)
      (few : atMostOne s.runningProcesses = true)
      (halted : StartsHalted answer s.table.shutdownList { s with currentStage := .shutdown } stop)
  | exitTwice {t : State} (done : advanceStage answer s = .ok t) (closed : t.currentStage = .close)
      (exiting : t.shouldExit = true) (assertion : stop = ⟨.assertion .exitOnce, t⟩)

theorem continue_starting_error {answer : StartAnswer} {s : State} {stop : Stop}
    (starting : s.currentStage = .startup ∨ s.currentStage = .shutdown)
    (failed : continueStarting answer s = .error stop) : MaintenanceHalted answer s stop := by
  unfold continueStarting at failed
  split at failed
  · rename_i settled
    obtain ⟨timeouts, count, oneShot, kill, exit, cancelled⟩ := cancel_one_shot_retimed s
    rw [cancelled] at failed
    dsimp only [State.retimed] at failed
    split at failed
    · rename_i first rest remaining
      split at failed
      · rename_i stopped halted
        obtain rfl := Except.error.inj failed
        refine .starting starting settled ⟨timeouts, count, oneShot, kill, exit, rfl⟩ ?_
        rw [remaining]
        exact start_processes_error halted
      · simp at failed
    · split at failed <;> simp at failed
  · simp at failed

theorem continue_termination_error {answer : StartAnswer} {s : State} {stop : Stop}
    (ending : s.currentStage = .termination)
    (failed : continueTermination answer s = .error stop) : MaintenanceHalted answer s stop := by
  unfold continueTermination beginShutdown at failed
  split at failed
  · rename_i few
    split at failed
    · rename_i stopped begun
      obtain rfl := Except.error.inj failed
      split at begun
      · rename_i first rest listed
        split at begun
        · rename_i stopped halted
          obtain rfl := Except.error.inj begun
          refine .shuttingDown ending few ?_
          rw [listed]
          exact start_processes_error halted
        · simp at begun
      · simp at begun
    · simp at failed
  · simp at failed

theorem stage_maintenance_error {answer : StartAnswer} {s : State} {stop : Stop}
    (failed : stageMaintenance answer s = .error stop) : MaintenanceHalted answer s stop := by
  unfold stageMaintenance at failed
  split at failed
  · rename_i stopped halted
    obtain rfl := Except.error.inj failed
    unfold advanceStage at halted
    split at halted
    · rename_i stage
      exact continue_starting_error (Or.inl stage) halted
    · rename_i stage
      exact continue_starting_error (Or.inr stage) halted
    · rename_i stage
      exact continue_termination_error stage halted
    all_goals simp at halted
  · rename_i t advanced
    split at failed
    · rename_i closed
      unfold mainloopExit at failed
      split at failed
      · rename_i exiting
        obtain rfl := Except.error.inj failed
        exact .exitTwice advanced closed exiting rfl
      · simp at failed
    · simp at failed

theorem handle_shutdown_cmd_retimed (answer : TimerAnswer) (command : RebootCommand)
    (s : State) :
    Retimed { s with
      remaining := []
      pendingFinish := 0
      currentStage := .termination
      shutdownCommand := command
      postIterationCallback := some .stageMaintenance
      kernel := signalAll .sigterm s.runningProcesses
        (s.kernel.note (.shutdownCommand command)) }
      (handleShutdownCmd answer command s) := by
  simp only [handleShutdownCmd, termRunningProcess, mainloopSetPostIterationCallback]
  obtain ⟨timeouts, count, oneShot, kill, exit, cancelled⟩ := cancel_one_shot_retimed
    { s with
      remaining := []
      pendingFinish := 0
      kernel := s.kernel.note (.shutdownCommand command) }
  rw [cancelled]
  dsimp only [State.retimed]
  generalize added : mainloopAddTimeout answer timeoutTerm .killTimeoutCb _ = result
  have frame := add_timeout_cases answer timeoutTerm .killTimeoutCb
    { s with
      remaining := []
      pendingFinish := 0
      currentStage := .termination
      kernel := signalAll .sigterm s.runningProcesses (s.kernel.note (.shutdownCommand command))
      timeouts := timeouts
      timeoutCount := count
      oneShotTimeout := oneShot
      killTimeout := kill
      shouldExit := exit }
  rw [added] at frame
  rcases frame with rfl | rfl
  · exact ⟨_, _, _, _, _, rfl⟩
  · exact ⟨_, _, _, _, _, rfl⟩

end StageControl
