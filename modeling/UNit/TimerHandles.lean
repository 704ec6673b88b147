import UNit.KillTimer

/-!
The handles of the timers never dangle. A handle is cleared wherever its timer
is removed, and a timer that expires clears the handle of its kind before the
loop removes it. So what a handle names is registered and has the callback of
that kind. There is at most one timer for the one-shots: the stage that starts
a list begins without one.
-/
namespace TimerHandles
open InittabEntries ProcessHistory KernelModel InitState ProcessStart ChildExit StageControl
  MainLoop LabelledRuns LoopFrames KillTimer

def Registers (timeouts : List MainloopTimeout) (id : Nat) (callback : TimeoutCallback) : Prop :=
  ∃ t ∈ timeouts, t.id = id ∧ t.callback = callback

structure Handled (s : State) : Prop where
  apart : TimersApart s
  oneShot : ∀ id, s.oneShotTimeout = some id ↔ Registers s.timeouts id .oneShotTimeoutCb
  kill : ∀ id, s.killTimeout = some id → Registers s.timeouts id .killTimeoutCb
  ended : s.currentStage = .termination → s.oneShotTimeout = none

section Operations
variable {s t : State} {id : Nat} {callback : TimeoutCallback}

theorem registers_unique {other : TimeoutCallback} (apart : TimersApart s)
    (one : Registers s.timeouts id callback) (two : Registers s.timeouts id other) : callback = other := by
  obtain ⟨t, first, same, rfl⟩ := one
  obtain ⟨u, second, again, rfl⟩ := two
  rw [List.inj_on_of_nodup_map apart.distinct first second (same.trans again.symm)]

theorem registers_removed {gone : Nat} :
    Registers (mainloopRemoveTimeout gone s).timeouts id callback ↔
      id ≠ gone ∧ Registers s.timeouts id callback := by
  simp only [Registers, mainloopRemoveTimeout, List.mem_filter, decide_eq_true_eq]
  constructor
  · rintro ⟨t, ⟨member, other⟩, rfl, kind⟩
    exact ⟨other, t, member, rfl, kind⟩
  · rintro ⟨other, t, member, rfl, kind⟩
    exact ⟨t, ⟨member, other⟩, rfl, kind⟩

theorem handled_congr (held : Handled s) (timeouts : t.timeouts = s.timeouts)
    (count : t.timeoutCount = s.timeoutCount) (oneShot : t.oneShotTimeout = s.oneShotTimeout)
    (kill : t.killTimeout = s.killTimeout) (stage : t.currentStage = s.currentStage) :
    Handled t := by
  obtain ⟨⟨below, distinct, handle⟩, exact, pointed, ended⟩ := held
  constructor
  · constructor
    · rw [timeouts, count]
      exact below
    · rw [timeouts]
      exact distinct
    · rw [oneShot, timeouts, count]
      exact handle
  · rw [oneShot, timeouts]
    exact exact
  · rw [kill, timeouts]
    exact pointed
  · rw [stage, oneShot]
    exact ended

theorem reprocessed_handled (held : Handled s) (worked : Reprocessed s t) : Handled t := by
  obtain ⟨_, _, _, _, _, _, rfl⟩ := worked
  exact handled_congr held rfl rfl rfl rfl rfl

theorem cancel_one_shot_handled (held : Handled s) :
    Handled (cancelOneShotTimeout s) ∧ (cancelOneShotTimeout s).oneShotTimeout = none := by
  obtain ⟨apart, _⟩ := cancel_one_shot_timers held.apart
  unfold cancelOneShotTimeout at apart ⊢
  cases handle : s.oneShotTimeout with
  | none => exact ⟨held, handle⟩
  | some gone =>
    simp only [handle] at apart
    refine ⟨⟨apart, ?_, ?_, fun _ => rfl⟩, rfl⟩
    · intro id
      refine ⟨fun pointed => by simp at pointed, ?_⟩
      intro still
      obtain ⟨other, before⟩ := registers_removed.mp still
      exact absurd (Option.some.inj (((held.oneShot id).mpr before).symm.trans handle)) other
    · intro id killer
      have before := held.kill id killer
      refine registers_removed.mpr ⟨?_, before⟩
      rintro rfl
      have kinds := registers_unique held.apart before ((held.oneShot id).mp handle)
      simp at kinds

theorem cancel_kill_handled (held : Handled s) : Handled (cancelKillTimeout s) := by
  have apart := cancel_kill_timers.1 held.apart
  unfold cancelKillTimeout at apart ⊢
  cases handle : s.killTimeout with
  | none => exact held
  | some gone =>
    simp only [handle] at apart
    refine ⟨apart, ?_, by simp, held.ended⟩
    intro id
    have before := held.oneShot id
    constructor
    · intro pointed
      refine registers_removed.mpr ⟨?_, before.mp pointed⟩
      rintro rfl
      have kinds := registers_unique held.apart (held.kill id handle) (before.mp pointed)
      simp at kinds
    · exact fun still => before.mpr (registers_removed.mp still).2

theorem watch_one_shots_handled (held : Handled s) (none : s.oneShotTimeout = none)
    (starting : s.currentStage ≠ .termination) (answer : TimerAnswer) :
    Handled (watchOneShots answer s) := by
  have apart := (watch_one_shots_timers answer s).1 held.apart
  have unregistered : ∀ id, ¬ Registers s.timeouts id .oneShotTimeoutCb := by
    intro id registered
    rw [(held.oneShot id).mpr registered] at none
    simp at none
  unfold watchOneShots at apart ⊢
  rcases add_timeout_cases answer timeoutOneShot .oneShotTimeoutCb s with added | added
  · rw [added] at apart ⊢
    refine ⟨apart, ?_, held.kill, fun _ => rfl⟩
    intro id
    exact ⟨fun pointed => by simp at pointed, fun still => absurd still (unregistered id)⟩
  · rw [added] at apart ⊢
    refine ⟨apart, ?_, ?_, fun stage => absurd stage starting⟩
    · intro id
      simp only [Option.some.injEq]
      constructor
      · rintro rfl
        exact ⟨_, List.mem_cons_self, rfl, rfl⟩
      · rintro ⟨t, member, rfl, kind⟩
        rcases List.mem_cons.mp member with rfl | before
        · rfl
        · exact absurd ⟨t, before, rfl, kind⟩ (unregistered t.id)
    · intro id pointed
      obtain ⟨t, member, rest⟩ := held.kill id pointed
      exact ⟨t, List.mem_cons_of_mem _ member, rest⟩

theorem start_processes_handled {answer : StartAnswer} {list : List InittabEntry} {result : Bool}
    (held : Handled s) (none : s.oneShotTimeout = none) (starting : s.currentStage ≠ .termination)
    (done : startProcesses answer list s = .ok (result, t)) : Handled t := by
  obtain ⟨u, worked, alternatives⟩ := start_processes_reprocessed done
  have same := reprocessed_undisturbed worked
  have kept := reprocessed_handled held worked
  rcases alternatives with rfl | rfl
  · exact kept
  · exact watch_one_shots_handled kept (same.oneShot.trans none) (by rw [same.stage]; exact starting)
      answer.timer

end Operations

theorem handled_restaged {s : State} (held : Handled s) (stage : Stage)
    (kept : stage = .termination → s.oneShotTimeout = none) :
    Handled { s with currentStage := stage } :=
  ⟨⟨held.apart.below, held.apart.distinct, held.apart.handle⟩, held.oneShot, held.kill, kept⟩

theorem advance_stage_handled {answer : StartAnswer} {s t : State} (held : Handled s)
    (done : advanceStage answer s = .ok t) : Handled t := by
  obtain ⟨cancelled, none⟩ := cancel_one_shot_handled held
  cases advance_stage_moves done with
  | resting _ => exact held
  | pending _ _ => exact held
  | continued starting _ _ started =>
    refine start_processes_handled cancelled none ?_ started
    obtain ⟨_, _, _, _, _, shape⟩ := cancel_one_shot_retimed s
    rw [shape]
    rcases starting with stage | stage <;> simp [State.retimed, stage]
  | toRun _ _ _ =>
    exact handled_congr (handled_restaged cancelled .run (by simp)) rfl rfl rfl rfl rfl
  | toClose _ _ _ => exact handled_restaged cancelled .close (by simp)
  | waiting _ _ => exact held
  | toShutdown ending _ _ started =>
    have entered := handled_restaged held .shutdown (by simp)
    exact cancel_kill_handled
      (start_processes_handled entered (held.ended ending) (by simp) started)
  | straightToClose _ _ _ => exact cancel_kill_handled (handled_restaged held .close (by simp))

theorem expire_shapes (t : MainloopTimeout) (s : State) :
    (t.callback = .oneShotTimeoutCb ∧
      expire t s = mainloopRemoveTimeout t.id { s with oneShotTimeout := none }) ∨
    (t.callback = .killTimeoutCb ∧
      ∃ k, expire t s = mainloopRemoveTimeout t.id { s with kernel := k, killTimeout := none }) ∨
    (t.callback = .watchdogFeed ∧ expire t s = s) := by
  cases called : t.callback with
  | oneShotTimeoutCb => exact Or.inl ⟨rfl, by simp [expire, called, runTimeout, oneShotTimeoutCb]⟩
  | killTimeoutCb =>
    exact Or.inr (Or.inl ⟨rfl, _, by simp [expire, called, runTimeout, killTimeoutCb]; rfl⟩)
  | watchdogFeed => exact Or.inr (Or.inr ⟨rfl, by simp [expire, called, runTimeout]⟩)

theorem expire_handled {s : State} {t : MainloopTimeout} (held : Handled s)
    (registered : t ∈ s.timeouts) : Handled (expire t s) := by
  obtain ⟨apart, _⟩ := expire_timers held.apart registered
  have here : Registers s.timeouts t.id t.callback := ⟨t, registered, rfl, rfl⟩
  rcases expire_shapes t s with ⟨called, shape⟩ | ⟨called, k, shape⟩ | ⟨_, shape⟩
  · rw [called] at here
    rw [shape] at apart ⊢
    have removed : ∀ {id callback}, Registers (mainloopRemoveTimeout t.id s).timeouts id callback ↔
      id ≠ t.id ∧ Registers s.timeouts id callback := registers_removed
    refine ⟨apart, ?_, ?_, fun _ => rfl⟩
    · intro id
      refine ⟨fun pointed => by simp [mainloopRemoveTimeout] at pointed, ?_⟩
      intro still
      obtain ⟨other, before⟩ := removed.mp still
      have pointed := (held.oneShot id).mpr before
      exact absurd (Option.some.inj (pointed.symm.trans ((held.oneShot t.id).mpr here))) other
    · intro id pointed
      have before := held.kill id pointed
      refine removed.mpr ⟨?_, before⟩
      rintro rfl
      have kinds := registers_unique held.apart before here
      simp at kinds
  · rw [called] at here
    rw [shape] at apart ⊢
    have removed : ∀ {id callback}, Registers (mainloopRemoveTimeout t.id s).timeouts id callback ↔
      id ≠ t.id ∧ Registers s.timeouts id callback := registers_removed
    refine ⟨apart, ?_, by simp [mainloopRemoveTimeout], held.ended⟩
    intro id
    have before := held.oneShot id
    constructor
    · intro pointed
      refine removed.mpr ⟨?_, before.mp pointed⟩
      rintro rfl
      have kinds := registers_unique held.apart (before.mp pointed) here
      simp at kinds
    · exact fun still => before.mpr (removed.mp still).2
  · rw [shape]
    exact held

theorem kill_added_handled {s : State} (held : Handled s) (answer : TimerAnswer) :
    Handled { (mainloopAddTimeout answer timeoutTerm .killTimeoutCb s).2 with
      killTimeout := (mainloopAddTimeout answer timeoutTerm .killTimeoutCb s).1 } := by
  have apart := add_timeout_apart held.apart answer timeoutTerm .killTimeoutCb
  rcases add_timeout_cases answer timeoutTerm .killTimeoutCb s with added | added
  · rw [added] at apart ⊢
    exact ⟨⟨apart.below, apart.distinct, apart.handle⟩, held.oneShot, by simp, held.ended⟩
  · rw [added] at apart ⊢
    refine ⟨⟨apart.below, apart.distinct, apart.handle⟩, ?_, ?_, held.ended⟩
    · intro id
      refine (held.oneShot id).trans ⟨?_, ?_⟩
      · rintro ⟨t, member, rest⟩
        exact ⟨t, List.mem_cons_of_mem _ member, rest⟩
      · rintro ⟨t, member, same, kind⟩
        rcases List.mem_cons.mp member with rfl | before
        · simp at kind
        · exact ⟨t, before, same, kind⟩
    · rintro id pointed
      obtain rfl := Option.some.inj pointed
      exact ⟨_, List.mem_cons_self, rfl, rfl⟩

theorem shutdown_cmd_handled {s : State} (held : Handled s) (answer : TimerAnswer)
    (command : RebootCommand) : Handled (handleShutdownCmd answer command s) := by
  let noted : State := { s with
    remaining := []
    pendingFinish := 0
    kernel := s.kernel.note (.shutdownCommand command) }
  have entering : Handled noted := reprocessed_handled held ⟨_, _, _, _, _, _, rfl⟩
  obtain ⟨cancelled, none⟩ := cancel_one_shot_handled entering
  let signalled : State := { cancelOneShotTimeout noted with
    currentStage := .termination
    kernel := signalAll .sigterm (cancelOneShotTimeout noted).runningProcesses
      (cancelOneShotTimeout noted).kernel }
  have ready : Handled signalled := reprocessed_handled
    (handled_restaged cancelled .termination (fun _ => none)) ⟨_, _, _, _, _, _, rfl⟩
  exact handled_congr (kill_added_handled ready answer) rfl rfl rfl rfl rfl

theorem state_step_handled {s t : State} {event : Event} (held : Handled s)
    (stepped : StateStep s event t) : Handled t := by
  cases stepped with
  | env moved => exact reprocessed_handled held ⟨_, _, _, _, _, _, rfl⟩
  | idle => exact held
  | childExit _ _ done => exact reprocessed_handled held (handle_child_exit_reprocessed done)
  | shutdownCmd answer command => exact shutdown_cmd_handled held answer.timer command
  | expired registered => exact expire_handled held registered
  | maintained _ done =>
    obtain ⟨u, advanced, ⟨_, rfl⟩ | ⟨_, rfl⟩⟩ := stage_maintenance_cases done
    · exact advance_stage_handled held advanced
    · exact handled_congr (advance_stage_handled held advanced) rfl rfl rfl rfl rfl

theorem initial_handled (table : BootTable) : Handled (State.initial table) := by
  refine ⟨⟨?_, ?_, ?_⟩, ?_, ?_, ?_⟩
  all_goals simp [State.initial, Registers]

theorem start_watchdog_handled (watchdog : Option (Nat × TimerAnswer)) (table : BootTable) :
    Handled (startWatchdog watchdog (State.initial table)) ∧
      (startWatchdog watchdog (State.initial table)).oneShotTimeout = none := by
  cases watchdog with
  | none => exact ⟨initial_handled table, rfl⟩
  | some given =>
    obtain ⟨msec, answer⟩ := given
    rcases add_timeout_cases answer msec .watchdogFeed (State.initial table) with added | added
    · simp only [startWatchdog, added]
      exact ⟨initial_handled table, rfl⟩
    · simp only [startWatchdog, added]
      refine ⟨⟨⟨?_, ?_, ?_⟩, ?_, ?_, ?_⟩, rfl⟩
      all_goals simp [State.initial, Registers]

theorem boot_handled {table : BootTable} {answer : BootAnswer} {sys : System}
    (booted : boot table answer = some sys) (intact : sys.control.intact) : Handled sys.state := by
  obtain ⟨s, pid, _, watched, _, rfl, ⟨stop, _, rfl⟩ | ⟨result, s', started, rfl⟩⟩ :=
    boot_cases booted
  · exact absurd rfl (intact stop.halt)
  · obtain ⟨ready, none⟩ := start_watchdog_handled answer.watchdog table
    rw [← watched] at ready none
    have worked := placed_reprocessed s table.safeModeEntry pid
    have entered := handled_restaged (reprocessed_handled ready worked) .startup (by simp)
    have kept := start_processes_handled entered
      ((reprocessed_undisturbed worked).oneShot.trans none) (by simp) started
    exact handled_congr kept rfl rfl rfl rfl rfl

theorem run_handled {table : BootTable} {trace : List (System × Event)} {sys : System}
    (run : InitRun table trace sys) (intact : sys.control.intact) : Handled sys.state :=
  init_run_invariant (fun _ _ => True) Handled run intact (meets_always trace)
    (fun _ _ booted intact => boot_handled booted intact)
    (fun _ _ _ held _ stepped => state_step_handled held stepped)

/-- No handle dangles in any run, and the timer for the one-shots is the one its
    handle names. -/
theorem timer_handles_never_dangle {table : BootTable} {trace : List (System × Event)}
    {sys : System} (run : InitRun table trace sys) (intact : sys.control.intact) :
    (sys.state.timeouts.map MainloopTimeout.id).Nodup ∧
    (∀ id, sys.state.oneShotTimeout = some id ↔
      Registers sys.state.timeouts id .oneShotTimeoutCb) ∧
    ∀ id, sys.state.killTimeout = some id → Registers sys.state.timeouts id .killTimeoutCb := by
  have held := run_handled run intact
  exact ⟨held.apart.distinct, held.oneShot, held.kill⟩

theorem timer_handles_never_dangle_after_commands : ∃ trace sys, InitRun sampleTable trace sys ∧
    sys.state.killTimeout = some 3 ∧ Registers sys.state.timeouts 3 .killTimeoutCb := by
  obtain ⟨run, rehearsed, waiting, handle⟩ : ∃ run ∈ rehearse sampleTable sampleBoot
      (handled .signal termSignal [] ++ handled .signal termSignal []),
      run.2.control = .waiting ∧ run.2.state.killTimeout = some 3 := by
    decide +kernel
  have reached := init_run_of_rehearse rehearsed
  obtain ⟨_, _, killers⟩ := timer_handles_never_dangle reached (waiting_intact waiting)
  exact ⟨run.1, run.2, reached, handle, killers 3 handle⟩

end TimerHandles
