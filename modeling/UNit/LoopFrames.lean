import UNit.MainLoop

/-!
What the callbacks of init leave to the main loop. Starting and reaping
processes touches neither timers nor the exit flag; stage_maintenance and a
shutdown command cancel at most the one-shot or the kill timeout. From this the
loop is seen to be told to exit exactly when STAGE_CLOSE is reached.
-/
namespace LoopFrames
open InittabEntries SafeModeRecord ProcessHistory KernelModel InitState ProcessStart ChildExit
  StageControl MainLoop

structure Undisturbed (s t : State) : Prop where
  timeouts : t.timeouts = s.timeouts
  oneShot : t.oneShotTimeout = s.oneShotTimeout
  kill : t.killTimeout = s.killTimeout
  exit : t.shouldExit = s.shouldExit
  stage : t.currentStage = s.currentStage
  callback : t.postIterationCallback = s.postIterationCallback

theorem undisturbed_refl (s : State) : Undisturbed s s := ⟨rfl, rfl, rfl, rfl, rfl, rfl⟩

def Reprocessed (s t : State) : Prop :=
  ∃ remaining pending running pipe on kernel, t = { s with
    remaining := remaining
    pendingFinish := pending
    runningProcesses := running
    safeModePipeFd := pipe
    safeModeOn := on
    kernel := kernel }

theorem reprocessed_refl (s : State) : Reprocessed s s :=
  ⟨s.remaining, s.pendingFinish, s.runningProcesses, s.safeModePipeFd, s.safeModeOn, s.kernel, rfl⟩

theorem reprocessed_trans {s t u : State} (first : Reprocessed s t) (second : Reprocessed t u) :
    Reprocessed s u := by
  obtain ⟨_, _, _, _, _, _, rfl⟩ := first
  obtain ⟨_, _, _, _, _, _, rfl⟩ := second
  exact ⟨_, _, _, _, _, _, rfl⟩

theorem reprocessed_undisturbed {s t : State} (worked : Reprocessed s t) : Undisturbed s t := by
  obtain ⟨_, _, _, _, _, _, rfl⟩ := worked
  exact ⟨rfl, rfl, rfl, rfl, rfl, rfl⟩

theorem spawn_entry_reprocessed {answer : SpawnAnswer} {entry : InittabEntry} {has has' : Bool}
    {s t : State} (done : spawnEntry answer entry has s = .ok (has', t)) : Reprocessed s t := by
  rcases spawn_entry_cases done with ⟨_, _, _, rfl⟩ | ⟨_, _, _, _, _, _, _, rfl⟩ | ⟨_, _, rfl⟩
  all_goals exact ⟨_, _, _, _, _, _, rfl⟩

theorem start_processes_reprocessed {answer : StartAnswer} {list : List InittabEntry}
    {s s' : State} {result : Bool} (done : startProcesses answer list s = .ok (result, s')) :
    ∃ t, Reprocessed s t ∧ (s' = t ∨ s' = watchOneShots answer.timer t) := by
  cases list with
  | nil =>
    simp only [startProcesses, Except.ok.injEq, Prod.mk.injEq] at done
    exact ⟨s, reprocessed_refl s, Or.inl done.2.symm⟩
  | cons first rest =>
    simp only [startProcesses] at done
    split at done
    · simp at done
    · rename_i r looped
      have entering : Reprocessed s { s with pendingFinish := 0 } := ⟨_, _, _, _, _, _, rfl⟩
      obtain ⟨_, kept⟩ := spawn_loop_rule (fun _ _ _ t => Reprocessed s t)
        (fun _ _ _ _ _ _ _ _ held _ spawned =>
          reprocessed_trans held (spawn_entry_reprocessed spawned)) entering looped
      simp only [Except.ok.injEq, Prod.mk.injEq] at done
      obtain ⟨_, rfl⟩ := done
      refine ⟨{ r.state with remaining := r.entry }, reprocessed_trans kept
        ⟨_, _, _, _, _, _, rfl⟩, ?_⟩
      split
      · exact Or.inr rfl
      · exact Or.inl rfl

theorem reap_one_reprocessed {w : Int × WaitStatus} {r r' : Reaping} {s t : State}
    (done : reapOne w r s = .ok (r', t)) : Reprocessed s t := by
  obtain ⟨_, _, _, rfl, _⟩ := reap_one_frame done
  exact ⟨_, _, _, _, _, _, rfl⟩

theorem placed_reprocessed (s : State) (entry : InittabEntry) (pid : Int) :
    Reprocessed s (State.placed (closePreviousPipe s) entry pid) := by
  obtain ⟨_, closed, _⟩ := close_previous_pipe_frame s
  rw [closed]
  exact ⟨_, _, _, _, _, _, rfl⟩

theorem handle_child_exit_reprocessed {answer : ExitAnswer} {s s' : State}
    (done : handleChildExit answer s = .ok s') : Reprocessed s s' := by
  obtain ⟨r, t, u, looped, requested, restarted⟩ := handle_child_exit_ok done
  have first : Reprocessed s t := (reap_loop_rule (fun _ _ t => Reprocessed s t)
    (fun _ _ _ _ _ _ held done => reprocessed_trans held (reap_one_reprocessed done))
    (reprocessed_refl s) looped).1
  have second : Reprocessed s u := by
    rcases request_safe_mode_cases requested with ⟨_, rfl⟩ | ⟨_, _, _, _, _, _, rfl⟩
    · exact first
    · exact reprocessed_trans first ⟨_, _, _, _, _, _, rfl⟩
  rcases restart_placeholder_cases restarted with ⟨_, rfl⟩ | ⟨_, pid, _, rfl⟩
  · exact second
  · exact reprocessed_trans second (placed_reprocessed u _ pid)

/-- The exit flag is as before, and every timeout but one is still registered. -/
structure Steady (removed : Option Nat) (s t : State) : Prop where
  exit : t.shouldExit = s.shouldExit
  timers : ∀ u ∈ s.timeouts, removed ≠ some u.id → u ∈ t.timeouts

theorem undisturbed_steady {s t : State} (same : Undisturbed s t) (removed : Option Nat) :
    Steady removed s t :=
  ⟨same.exit, fun _ member _ => same.timeouts ▸ member⟩

theorem steady_trans {removed : Option Nat} {s t u : State} (first : Steady removed s t)
    (second : Steady removed t u) : Steady removed s u :=
  ⟨second.exit.trans first.exit,
    fun x member kept => second.timers x (first.timers x member kept) kept⟩

theorem add_timeout_steady (answer : TimerAnswer) (msec : Nat) (callback : TimeoutCallback)
    (s : State) (removed : Option Nat) :
    Steady removed s (mainloopAddTimeout answer msec callback s).2 := by
  rcases add_timeout_cases answer msec callback s with added | added
  · rw [added]
    exact ⟨rfl, fun _ member _ => member⟩
  · rw [added]
    exact ⟨rfl, fun _ member _ => List.mem_cons_of_mem _ member⟩

theorem watch_one_shots_steady (answer : TimerAnswer) (s : State) (removed : Option Nat) :
    Steady removed s (watchOneShots answer s) := by
  have added := add_timeout_steady answer timeoutOneShot .oneShotTimeoutCb s removed
  exact ⟨added.exit, added.timers⟩

theorem remove_timeout_steady (id : Nat) (s : State) :
    Steady (some id) s (mainloopRemoveTimeout id s) := by
  refine ⟨rfl, ?_⟩
  intro u member other
  simp only [mainloopRemoveTimeout, List.mem_filter, decide_eq_true_eq]
  exact ⟨member, fun same => other (by rw [same])⟩

theorem cancel_one_shot_steady (s : State) :
    Steady s.oneShotTimeout s (cancelOneShotTimeout s) := by
  unfold cancelOneShotTimeout
  split
  · exact ⟨rfl, fun _ member _ => member⟩
  · rename_i id handle
    rw [handle]
    have removed := remove_timeout_steady id s
    exact ⟨removed.exit, removed.timers⟩

theorem cancel_kill_steady (s : State) : Steady s.killTimeout s (cancelKillTimeout s) := by
  unfold cancelKillTimeout
  split
  · exact ⟨rfl, fun _ member _ => member⟩
  · rename_i id handle
    rw [handle]
    have removed := remove_timeout_steady id s
    exact ⟨removed.exit, removed.timers⟩

theorem start_processes_steady {answer : StartAnswer} {list : List InittabEntry}
    {s s' : State} {result : Bool} (done : startProcesses answer list s = .ok (result, s'))
    (removed : Option Nat) : Steady removed s s' := by
  obtain ⟨t, worked, rfl | rfl⟩ := start_processes_reprocessed done
  · exact undisturbed_steady (reprocessed_undisturbed worked) removed
  · exact steady_trans (undisturbed_steady (reprocessed_undisturbed worked) removed)
      (watch_one_shots_steady answer.timer t removed)

theorem start_processes_keeps {answer : StartAnswer} {list : List InittabEntry}
    {s s' : State} {result : Bool} (done : startProcesses answer list s = .ok (result, s')) :
    s'.currentStage = s.currentStage ∧ s'.killTimeout = s.killTimeout := by
  obtain ⟨t, worked, alternatives⟩ := start_processes_reprocessed done
  have same := reprocessed_undisturbed worked
  rcases alternatives with rfl | rfl
  · exact ⟨same.stage, same.kill⟩
  · obtain ⟨_, _, oneShot, kill, _, watched⟩ := watch_one_shots_retimed answer.timer t
    refine ⟨by rw [watched]; exact same.stage, ?_⟩
    unfold watchOneShots
    rcases add_timeout_cases answer.timer timeoutOneShot .oneShotTimeoutCb t with added | added
    · rw [added]
      exact same.kill
    · rw [added]
      exact same.kill

def cancelled (s : State) : Option Nat :=
  match s.currentStage with
  | .startup => if s.pendingFinish = 0 then s.oneShotTimeout else none
  | .shutdown => if s.pendingFinish = 0 then s.oneShotTimeout else none
  | .termination => if atMostOne s.runningProcesses then s.killTimeout else none
  | .setup => none
  | .run => none
  | .close => none

/-- The states from which stage_maintenance ends in STAGE_CLOSE. -/
def Closing (s : State) : Prop :=
  s.currentStage = .close ∨
  (s.currentStage = .shutdown ∧ s.pendingFinish = 0 ∧ s.remaining = []) ∨
  (s.currentStage = .termination ∧ atMostOne s.runningProcesses = true ∧
    s.table.shutdownList = [])

instance (s : State) : Decidable (Closing s) :=
  inferInstanceAs (Decidable (s.currentStage = .close ∨
    (s.currentStage = .shutdown ∧ s.pendingFinish = 0 ∧ s.remaining = []) ∨
    (s.currentStage = .termination ∧ atMostOne s.runningProcesses = true ∧
      s.table.shutdownList = [])))

theorem advance_stage_frame {answer : StartAnswer} {s t : State}
    (done : advanceStage answer s = .ok t) :
    Steady (cancelled s) s t ∧ (t.currentStage = .close ↔ Closing s) := by
  have still := undisturbed_steady (undisturbed_refl s) (cancelled s)
  have first := cancel_one_shot_steady s
  obtain ⟨_, _, _, _, _, shape⟩ := cancel_one_shot_retimed s
  have stage : (cancelOneShotTimeout s).currentStage = s.currentStage := by
    rw [shape]
    rfl
  cases advance_stage_moves done with
  | resting resting =>
    refine ⟨still, ?_⟩
    rcases resting with stage | stage | stage <;> simp [Closing, stage]
  | pending starting pending =>
    refine ⟨still, ?_⟩
    rcases starting with early | late <;> simp_all [Closing]
  | continued starting settled due started =>
    have handle : cancelled s = s.oneShotTimeout := by
      rcases starting with early | late <;> simp [cancelled, *]
    rw [handle]
    refine ⟨steady_trans first (start_processes_steady started _), ?_⟩
    rw [(start_processes_keeps started).1, stage]
    rcases starting with early | late <;> simp [Closing, *]
  | toRun starting settled exhausted =>
    have handle : cancelled s = s.oneShotTimeout := by simp [cancelled, starting, settled]
    rw [handle]
    refine ⟨⟨first.exit, first.timers⟩, ?_⟩
    simp [mainloopSetPostIterationCallback, Closing, starting]
  | toClose starting settled exhausted =>
    have handle : cancelled s = s.oneShotTimeout := by simp [cancelled, starting, settled]
    rw [handle]
    refine ⟨⟨first.exit, first.timers⟩, ?_⟩
    simp [Closing, starting, settled, exhausted]
  | waiting ending many =>
    refine ⟨still, ?_⟩
    simp [Closing, ending, many]
  | @toShutdown ending few due _ middle started =>
    have handle : cancelled s = s.killTimeout := by simp [cancelled, ending, few]
    have last := cancel_kill_steady middle
    obtain ⟨_, _, _, _, _, shape⟩ := cancel_kill_retimed middle
    obtain ⟨stage, kill⟩ := start_processes_keeps started
    have start := start_processes_steady started s.killTimeout
    rw [kill] at last
    rw [handle]
    refine ⟨steady_trans ⟨start.exit, start.timers⟩ last, ?_⟩
    rw [shape]
    simp [State.retimed, stage, Closing, ending, due]
  | straightToClose ending few empty =>
    have handle : cancelled s = s.killTimeout := by simp [cancelled, ending, few]
    have last := cancel_kill_steady { s with currentStage := .close }
    obtain ⟨_, _, _, _, _, shape⟩ := cancel_kill_retimed { s with currentStage := .close }
    rw [handle]
    refine ⟨⟨last.exit, last.timers⟩, ?_⟩
    rw [shape]
    simp [State.retimed, Closing, ending, few, empty]

theorem closing_returns {s : State} (answer : StartAnswer) (closing : Closing s) :
    ∃ t, advanceStage answer s = .ok t := by
  rcases closing with closed | ⟨stage, settled, exhausted⟩ | ⟨stage, few, empty⟩
  · exact ⟨s, by simp [advanceStage, closed]⟩
  · obtain ⟨_, _, _, _, _, shape⟩ := cancel_one_shot_retimed s
    refine ⟨{ cancelOneShotTimeout s with currentStage := .close }, ?_⟩
    simp [advanceStage, stage, continueStarting, settled, shape, State.retimed, exhausted]
  · refine ⟨cancelKillTimeout { s with currentStage := .close }, ?_⟩
    simp [advanceStage, stage, continueTermination, few, beginShutdown, empty]

def isShutdownSignal : Signo → Bool
  | .sigterm => true
  | .sigusr1 => true
  | .sigusr2 => true
  | .sigchld => false
  | .other => false

theorem shutdown_cmd_steady (answer : TimerAnswer) (command : RebootCommand) (s : State) :
    Steady s.oneShotTimeout s (handleShutdownCmd answer command s) := by
  let noted := { s with
    remaining := []
    pendingFinish := 0
    kernel := s.kernel.note (.shutdownCommand command) }
  have first : Steady s.oneShotTimeout noted (cancelOneShotTimeout noted) :=
    cancel_one_shot_steady noted
  let ending := { cancelOneShotTimeout noted with currentStage := .termination }
  let signalled := { ending with
    kernel := signalAll .sigterm ending.runningProcesses ending.kernel }
  have second := add_timeout_steady answer timeoutTerm .killTimeoutCb signalled s.oneShotTimeout
  exact steady_trans ⟨first.exit, first.timers⟩ ⟨second.exit, second.timers⟩

theorem expire_steady (t : MainloopTimeout) (s : State) : Steady (some t.id) s (expire t s) := by
  cases called : t.callback with
  | oneShotTimeoutCb =>
    have removed := remove_timeout_steady t.id { s with oneShotTimeout := none }
    simp only [expire, called, runTimeout, oneShotTimeoutCb]
    exact ⟨removed.exit, removed.timers⟩
  | killTimeoutCb =>
    have removed := remove_timeout_steady t.id (killTimeoutCb s).2
    simp only [expire, called, runTimeout]
    exact ⟨removed.exit, removed.timers⟩
  | watchdogFeed =>
    simp only [expire, called, runTimeout]
    exact undisturbed_steady (undisturbed_refl s) _

def dropped (ref : HandlerRef) (answer : ReadAnswer) (s : State) : Option Nat :=
  match ref with
  | .timeout id => some id
  | .signal =>
    match answer with
    | .siginfo answer => if isShutdownSignal answer.signo then s.oneShotTimeout else none
    | .expired => none
    | .failed => none

theorem dispatch_steady {ref : HandlerRef} {answer : ReadAnswer} {s s' : State}
    (done : dispatch ref answer s = some (.ok s')) : Steady (dropped ref answer s) s s' := by
  cases ref with
  | signal =>
    simp only [dispatch, dispatchSignal] at done
    split at done
    · simp at done
    · simp at done
    · rename_i answer
      split at done
      · have handled := Option.some.inj done
        unfold signalHandler at handled
        cases signo : answer.signo <;> simp only [signo] at handled <;>
          simp only [dropped, signo, isShutdownSignal, ↓reduceIte, Bool.false_eq_true]
        · exact undisturbed_steady
            (reprocessed_undisturbed (handle_child_exit_reprocessed handled)) none
        · obtain rfl := Except.ok.inj handled
          exact shutdown_cmd_steady _ _ s
        · obtain rfl := Except.ok.inj handled
          exact shutdown_cmd_steady _ _ s
        · obtain rfl := Except.ok.inj handled
          exact shutdown_cmd_steady _ _ s
        · obtain rfl := Except.ok.inj handled
          exact undisturbed_steady (undisturbed_refl s) none
      · simp at done
  | timeout id =>
    simp only [dispatch, dispatchTimeout] at done
    split at done
    · simp at done
    · rename_i t found
      split at done
      · simp at done
      · obtain rfl := Except.ok.inj (Option.some.inj done)
        have same := (find_timeout_some found).2
        exact same ▸ expire_steady t s
      · simp at done

/-- stage_maintenance sets the exit flag in the closing states and else leaves it. -/
theorem stage_maintenance_frame {answer : StartAnswer} {s s' : State}
    (done : stageMaintenance answer s = .ok s') :
    (∀ u ∈ s.timeouts, cancelled s ≠ some u.id → u ∈ s'.timeouts) ∧
      (¬ Closing s → s'.shouldExit = s.shouldExit) := by
  obtain ⟨t, advanced, ⟨_, rfl⟩ | ⟨closed, rfl⟩⟩ := stage_maintenance_cases done
  · obtain ⟨steady, _⟩ := advance_stage_frame advanced
    exact ⟨steady.timers, fun _ => steady.exit⟩
  · obtain ⟨steady, closes⟩ := advance_stage_frame advanced
    exact ⟨steady.timers, fun open' => absurd (closes.mp closed) open'⟩

end LoopFrames
