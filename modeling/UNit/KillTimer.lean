import Mathlib.Data.List.Nodup
import UNit.LoopFrames

/-!
The timers init keeps handles of. A shutdown command registers a kill timer and
overwrites the handle of the one before, which then stays registered with
nothing pointing to it. As long as no command is handled while a kill timer is
registered, the handle and the registered timer are one and the same.
-/
namespace KillTimer
open InittabEntries ProcessHistory KernelModel InitState ProcessStart ChildExit StageControl
  MainLoop LabelledRuns LoopFrames

def killTimers (s : State) : List Nat :=
  (s.timeouts.filter (fun t => t.callback = .killTimeoutCb)).map MainloopTimeout.id

/-- At most one kill timer is registered, and exactly the one kill_timeout
    points to. -/
structure OneKillTimer (s : State) : Prop where
  single : (killTimers s).length ≤ 1
  pointed : ∀ id, id ∈ killTimers s ↔ s.killTimeout = some id

theorem one_kill_timer_iff {s : State} :
    OneKillTimer s ↔ killTimers s = s.killTimeout.toList := by
  constructor
  · intro held
    have single := held.single
    have pointed := held.pointed
    cases timers : killTimers s with
    | nil =>
      cases handle : s.killTimeout with
      | none => rfl
      | some id => simpa [timers, handle] using pointed id
    | cons id rest =>
      have here : s.killTimeout = some id := (pointed id).mp (by simp [timers])
      have alone : rest = [] := by
        simpa [timers] using single
      simp [here, alone]
  · intro same
    refine ⟨?_, ?_⟩
    · rw [same]
      cases s.killTimeout <;> simp
    · intro id
      rw [same]
      simp

instance (s : State) : Decidable (OneKillTimer s) := decidable_of_iff _ one_kill_timer_iff.symm

structure TimersApart (s : State) : Prop where
  below : ∀ t ∈ s.timeouts, t.id < s.timeoutCount
  distinct : (s.timeouts.map MainloopTimeout.id).Nodup
  handle : ∀ id ∈ s.oneShotTimeout, id < s.timeoutCount ∧
    ∀ t ∈ s.timeouts, t.id = id → t.callback = .oneShotTimeoutCb

theorem kill_timer_registered {s : State} {id : Nat} (timer : id ∈ killTimers s) :
    ∃ t ∈ s.timeouts, t.id = id ∧ t.callback = .killTimeoutCb := by
  simp only [killTimers, List.mem_map, List.mem_filter, decide_eq_true_eq] at timer
  obtain ⟨t, ⟨registered, kind⟩, same⟩ := timer
  exact ⟨t, registered, same, kind⟩

theorem kill_timers_remove (id : Nat) (s : State) :
    killTimers (mainloopRemoveTimeout id s) = (killTimers s).filter (fun x => x ≠ id) := by
  simp only [killTimers, mainloopRemoveTimeout, List.filter_filter, List.filter_map]
  congr 1
  apply List.filter_congr
  intro t _
  simp [Bool.and_comm]

theorem reprocessed_timers {s t : State} (worked : Reprocessed s t) :
    (TimersApart s → TimersApart t) ∧ (OneKillTimer s → OneKillTimer t) := by
  obtain ⟨_, _, _, _, _, _, rfl⟩ := worked
  exact ⟨fun held => ⟨held.below, held.distinct, held.handle⟩,
    fun held => ⟨held.single, held.pointed⟩⟩

theorem remove_timeout_apart {s : State} (held : TimersApart s) (id : Nat) :
    TimersApart (mainloopRemoveTimeout id s) := by
  have fewer : ∀ t ∈ (mainloopRemoveTimeout id s).timeouts, t ∈ s.timeouts :=
    fun t member => List.mem_of_mem_filter member
  refine ⟨fun t member => held.below t (fewer t member),
    held.distinct.sublist (List.filter_sublist.map _), ?_⟩
  intro x handle
  obtain ⟨below, kind⟩ := held.handle x handle
  exact ⟨below, fun t member same => kind t (fewer t member) same⟩

theorem add_timeout_apart {s : State} (held : TimersApart s) (answer : TimerAnswer) (msec : Nat)
    (callback : TimeoutCallback) : TimersApart (mainloopAddTimeout answer msec callback s).2 := by
  rcases add_timeout_cases answer msec callback s with added | added
  · rw [added]
    exact held
  · rw [added]
    refine ⟨?_, ?_, ?_⟩
    · intro t member
      rcases List.mem_cons.mp member with rfl | earlier
      · exact Nat.lt_succ_self _
      · exact Nat.lt_succ_of_lt (held.below t earlier)
    · rw [List.map_cons, List.nodup_cons]
      refine ⟨?_, held.distinct⟩
      intro member
      obtain ⟨t, registered, same⟩ := List.mem_map.mp member
      have below := held.below t registered
      exact absurd same (Nat.ne_of_lt below)
    · intro id handle
      obtain ⟨below, kind⟩ := held.handle id handle
      refine ⟨Nat.lt_succ_of_lt below, ?_⟩
      intro t member same
      rcases List.mem_cons.mp member with rfl | earlier
      · dsimp only at same
        omega
      · exact kind t earlier same

theorem kill_timers_add {s : State} {callback : TimeoutCallback}
    (other : callback ≠ .killTimeoutCb) (answer : TimerAnswer) (msec : Nat) :
    killTimers (mainloopAddTimeout answer msec callback s).2 = killTimers s := by
  rcases add_timeout_cases answer msec callback s with added | added
  · rw [added]
  · rw [added]
    simp [killTimers, other]

theorem watch_one_shots_timers (answer : TimerAnswer) (s : State) :
    (TimersApart s → TimersApart (watchOneShots answer s)) ∧
      (OneKillTimer s → OneKillTimer (watchOneShots answer s)) := by
  constructor
  · intro held
    have added := add_timeout_apart held answer timeoutOneShot .oneShotTimeoutCb
    refine ⟨added.below, added.distinct, ?_⟩
    intro id handle
    rcases add_timeout_cases answer timeoutOneShot .oneShotTimeoutCb s with shape | shape
    · simp [watchOneShots, shape] at handle
    · simp only [watchOneShots, shape, Option.mem_def, Option.some.injEq] at handle ⊢
      subst id
      refine ⟨Nat.lt_succ_self _, ?_⟩
      intro t member same
      rcases List.mem_cons.mp member with rfl | earlier
      · rfl
      · have below := held.below t earlier
        omega
  · intro held
    have same : killTimers (watchOneShots answer s) = killTimers s :=
      kill_timers_add (by decide) answer timeoutOneShot
    have handle : (watchOneShots answer s).killTimeout = s.killTimeout := by
      rcases add_timeout_cases answer timeoutOneShot .oneShotTimeoutCb s with shape | shape
      · simp [watchOneShots, shape]
      · simp [watchOneShots, shape]
    rw [one_kill_timer_iff, same, handle]
    exact one_kill_timer_iff.mp held

theorem one_shot_no_kill_timer {s : State} {id : Nat} (held : TimersApart s)
    (handle : s.oneShotTimeout = some id) : id ∉ killTimers s := by
  intro timer
  obtain ⟨t, registered, same, kind⟩ := kill_timer_registered timer
  have oneShot := (held.handle id handle).2 t registered same
  simp [kind] at oneShot

theorem cancel_one_shot_timers {s : State} (held : TimersApart s) :
    TimersApart (cancelOneShotTimeout s) ∧
      killTimers (cancelOneShotTimeout s) = killTimers s ∧
      (cancelOneShotTimeout s).killTimeout = s.killTimeout ∧
      (cancelOneShotTimeout s).timeoutCount = s.timeoutCount := by
  unfold cancelOneShotTimeout
  split
  · exact ⟨held, rfl, rfl, rfl⟩
  · rename_i id handle
    have removed := remove_timeout_apart held id
    have kept : killTimers (mainloopRemoveTimeout id s) = killTimers s := by
      rw [kill_timers_remove, List.filter_eq_self]
      intro x member
      have away : x ≠ id := by
        rintro rfl
        exact one_shot_no_kill_timer held handle member
      simpa using away
    exact ⟨⟨removed.below, removed.distinct, by simp⟩, kept, rfl, rfl⟩

theorem cancel_kill_timers {s : State} :
    (TimersApart s → TimersApart (cancelKillTimeout s)) ∧
      (OneKillTimer s → OneKillTimer (cancelKillTimeout s)) := by
  unfold cancelKillTimeout
  split
  · exact ⟨id, id⟩
  · rename_i timer handle
    constructor
    · intro held
      have removed := remove_timeout_apart held timer
      exact ⟨removed.below, removed.distinct, removed.handle⟩
    · intro held
      have same := one_kill_timer_iff.mp held
      have none : killTimers (mainloopRemoveTimeout timer s) = [] := by
        rw [kill_timers_remove, same, handle]
        simp
      exact one_kill_timer_iff.mpr none

theorem start_processes_timers {answer : StartAnswer} {list : List InittabEntry} {s s' : State}
    {result : Bool} (done : startProcesses answer list s = .ok (result, s')) :
    (TimersApart s → TimersApart s') ∧ (OneKillTimer s → OneKillTimer s') := by
  obtain ⟨t, worked, rfl | rfl⟩ := start_processes_reprocessed done
  · exact reprocessed_timers worked
  · obtain ⟨apart, single⟩ := reprocessed_timers worked
    obtain ⟨apart', single'⟩ := watch_one_shots_timers answer.timer t
    exact ⟨fun held => apart' (apart held), fun held => single' (single held)⟩

theorem advance_stage_timers {answer : StartAnswer} {s s' : State} (held : TimersApart s)
    (done : advanceStage answer s = .ok s') :
    TimersApart s' ∧ (OneKillTimer s → OneKillTimer s') := by
  obtain ⟨apart, timers, handle, _⟩ := cancel_one_shot_timers held
  have single : OneKillTimer s → OneKillTimer (cancelOneShotTimeout s) := by
    rw [one_kill_timer_iff, one_kill_timer_iff, timers, handle]
    exact id
  cases advance_stage_moves done with
  | resting _ => exact ⟨held, id⟩
  | pending _ _ => exact ⟨held, id⟩
  | continued _ _ _ started =>
    obtain ⟨apart', single'⟩ := start_processes_timers started
    exact ⟨apart' apart, fun one => single' (single one)⟩
  | toRun _ _ _ =>
    exact ⟨⟨apart.below, apart.distinct, apart.handle⟩,
      fun one => ⟨(single one).single, (single one).pointed⟩⟩
  | toClose _ _ _ =>
    exact ⟨⟨apart.below, apart.distinct, apart.handle⟩,
      fun one => ⟨(single one).single, (single one).pointed⟩⟩
  | waiting _ _ => exact ⟨held, id⟩
  | toShutdown _ _ _ started =>
    obtain ⟨apart, single⟩ := start_processes_timers started
    obtain ⟨apart', single'⟩ := cancel_kill_timers
    exact ⟨apart' (apart ⟨held.below, held.distinct, held.handle⟩),
      fun one => single' (single ⟨one.single, one.pointed⟩)⟩
  | straightToClose _ _ _ =>
    obtain ⟨apart', single'⟩ := cancel_kill_timers
    exact ⟨apart' ⟨held.below, held.distinct, held.handle⟩,
      fun one => single' ⟨one.single, one.pointed⟩⟩

theorem stage_maintenance_timers {answer : StartAnswer} {s s' : State} (held : TimersApart s)
    (done : stageMaintenance answer s = .ok s') :
    TimersApart s' ∧ (OneKillTimer s → OneKillTimer s') := by
  obtain ⟨t, advanced, ⟨_, rfl⟩ | ⟨_, rfl⟩⟩ := stage_maintenance_cases done
  · exact advance_stage_timers held advanced
  · obtain ⟨apart, single⟩ := advance_stage_timers held advanced
    exact ⟨⟨apart.below, apart.distinct, apart.handle⟩,
      fun one => ⟨(single one).single, (single one).pointed⟩⟩

theorem expire_timers {s : State} {t : MainloopTimeout} (held : TimersApart s)
    (registered : t ∈ s.timeouts) :
    TimersApart (expire t s) ∧ (OneKillTimer s → OneKillTimer (expire t s)) := by
  have removed := remove_timeout_apart held t.id
  cases called : t.callback with
  | oneShotTimeoutCb =>
    simp only [expire, called, runTimeout, oneShotTimeoutCb]
    refine ⟨⟨removed.below, removed.distinct, by simp [mainloopRemoveTimeout]⟩, ?_⟩
    intro one
    have kept : (killTimers s).filter (fun x => x ≠ t.id) = killTimers s := by
      rw [List.filter_eq_self]
      intro x member
      obtain ⟨u, other, same, kind⟩ := kill_timer_registered member
      have away : x ≠ t.id := by
        rintro rfl
        have equal := List.inj_on_of_nodup_map held.distinct other registered same
        simp [equal, called] at kind
      simpa using away
    exact one_kill_timer_iff.mpr ((kill_timers_remove t.id s).trans
      (kept.trans (one_kill_timer_iff.mp one)))
  | killTimeoutCb =>
    simp only [expire, called, runTimeout, killTimeoutCb]
    refine ⟨⟨removed.below, removed.distinct, removed.handle⟩, ?_⟩
    intro one
    have timer : t.id ∈ killTimers s :=
      List.mem_map_of_mem (List.mem_filter.mpr ⟨registered, by simp [called]⟩)
    have handle := (one.pointed t.id).mp timer
    have none : (killTimers s).filter (fun x => x ≠ t.id) = [] := by
      rw [one_kill_timer_iff.mp one, handle]
      simp
    exact one_kill_timer_iff.mpr ((kill_timers_remove t.id s).trans none)
  | watchdogFeed =>
    simp only [expire, called, runTimeout]
    exact ⟨held, id⟩

theorem shutdown_cmd_timers {s : State} (held : TimersApart s) (answer : TimerAnswer)
    (command : RebootCommand) :
    TimersApart (handleShutdownCmd answer command s) ∧
    ((killTimers (handleShutdownCmd answer command s) = killTimers s ∧
        (handleShutdownCmd answer command s).killTimeout = none) ∨
      (killTimers (handleShutdownCmd answer command s) = s.timeoutCount :: killTimers s ∧
        (handleShutdownCmd answer command s).killTimeout = some s.timeoutCount)) := by
  let noted : State := { s with
    remaining := []
    pendingFinish := 0
    kernel := s.kernel.note (.shutdownCommand command) }
  have entering : TimersApart noted := ⟨held.below, held.distinct, held.handle⟩
  obtain ⟨apart, timers, _, count⟩ := cancel_one_shot_timers entering
  let signalled : State := { cancelOneShotTimeout noted with
    currentStage := .termination
    kernel := signalAll .sigterm (cancelOneShotTimeout noted).runningProcesses
      (cancelOneShotTimeout noted).kernel }
  have ready : TimersApart signalled := ⟨apart.below, apart.distinct, apart.handle⟩
  have added := add_timeout_apart ready answer timeoutTerm .killTimeoutCb
  have same : killTimers signalled = killTimers s := timers
  have counted : signalled.timeoutCount = s.timeoutCount := count
  refine ⟨⟨added.below, added.distinct, added.handle⟩, ?_⟩
  have shape : handleShutdownCmd answer command s =
      { (mainloopAddTimeout answer timeoutTerm .killTimeoutCb signalled).2 with
        killTimeout := (mainloopAddTimeout answer timeoutTerm .killTimeoutCb signalled).1
        shutdownCommand := command
        postIterationCallback := some .stageMaintenance } := rfl
  rw [shape]
  rcases add_timeout_cases answer timeoutTerm .killTimeoutCb signalled with result | result
  · rw [result]
    exact Or.inl ⟨same, rfl⟩
  · rw [result, ← same, ← counted]
    refine Or.inr ⟨?_, rfl⟩
    simp [killTimers]

theorem shutdown_cmd_single_iff {s : State} (held : TimersApart s) (one : OneKillTimer s)
    (answer : TimerAnswer) (command : RebootCommand) :
    OneKillTimer (handleShutdownCmd answer command s) ↔ s.killTimeout = none := by
  have same := one_kill_timer_iff.mp one
  rw [one_kill_timer_iff]
  obtain ⟨_, ⟨timers, handle⟩ | ⟨timers, handle⟩⟩ := shutdown_cmd_timers held answer command
  · rw [timers, handle, same]
    cases s.killTimeout <;> simp
  · rw [timers, handle, same]
    cases s.killTimeout <;> simp

def nextHandler : Control → Option HandlerRef
  | .events (ref :: _) => some ref
  | _ => none

def handlesCommand (sys : System) : Event → Bool
  | .dispatch (.siginfo answer) =>
    decide (nextHandler sys.control = some .signal) && isShutdownSignal answer.signo
  | _ => false

/-- A shutdown signal is handled only when kill_timeout points to no timer. -/
def CommandsApart (sys : System) (event : Event) : Prop :=
  handlesCommand sys event = true → sys.state.killTimeout = none

instance (sys : System) (event : Event) : Decidable (CommandsApart sys event) :=
  inferInstanceAs (Decidable (handlesCommand sys event = true → sys.state.killTimeout = none))

theorem quiet_apart {sys : System} {event : Event} (quiet : handlesCommand sys event = false) :
    CommandsApart sys event := by
  intro command
  simp [quiet] at command

theorem signal_handler_timers {answer : SignalAnswer} {s s' : State} (held : TimersApart s)
    (done : signalHandler answer s = .ok s') :
    TimersApart s' ∧ (OneKillTimer s →
      (OneKillTimer s' ↔ (isShutdownSignal answer.signo = true → s.killTimeout = none))) := by
  have commanded : ∀ command, TimersApart (handleShutdownCmd answer.timer command s) ∧
      (OneKillTimer s → (OneKillTimer (handleShutdownCmd answer.timer command s) ↔
        (True → s.killTimeout = none))) := by
    intro command
    refine ⟨(shutdown_cmd_timers held answer.timer command).1, ?_⟩
    intro one
    rw [shutdown_cmd_single_iff held one answer.timer command]
    simp
  unfold signalHandler at done
  cases signo : answer.signo <;> simp only [signo] at done <;> simp only [isShutdownSignal]
  · obtain ⟨apart, single⟩ := reprocessed_timers (handle_child_exit_reprocessed done)
    exact ⟨apart held, fun one => by simp [single one]⟩
  · obtain rfl := Except.ok.inj done
    exact commanded .autoboot
  · obtain rfl := Except.ok.inj done
    exact commanded .haltSystem
  · obtain rfl := Except.ok.inj done
    exact commanded .powerOff
  · obtain rfl := Except.ok.inj done
    exact ⟨held, fun one => by simp [one]⟩

theorem dispatch_timers {s : State} {ref : HandlerRef} {rest : List HandlerRef}
    {answer : ReadAnswer} {s' : State} (held : TimersApart s)
    (done : dispatch ref answer s = some (.ok s')) :
    TimersApart s' ∧ (OneKillTimer s → (OneKillTimer s' ↔
      CommandsApart ⟨s, .events (ref :: rest)⟩ (.dispatch answer))) := by
  cases ref with
  | signal =>
    simp only [dispatch, dispatchSignal] at done
    split at done
    · simp at done
    · simp at done
    · split at done
      · simpa [CommandsApart, handlesCommand, nextHandler] using
          signal_handler_timers held (Option.some.inj done)
      · simp at done
  | timeout id =>
    simp only [dispatch, dispatchTimeout] at done
    split at done
    · simp at done
    · rename_i t found
      split at done
      · simp at done
      · obtain rfl := Except.ok.inj (Option.some.inj done)
        obtain ⟨apart, single⟩ := expire_timers held (find_timeout_some found).1
        exact ⟨apart, fun one => iff_of_true (single one) (quiet_apart rfl)⟩
      · simp at done

theorem step_timers {sys next : System} {event : Event} (held : TimersApart sys.state)
    (stepped : step sys event = some next) (intact : next.control.intact) :
    TimersApart next.state ∧
      (OneKillTimer sys.state → (OneKillTimer next.state ↔ CommandsApart sys event)) := by
  cases step_cases stepped with
  | env _ _ =>
    exact ⟨⟨held.below, held.distinct, held.handle⟩,
      fun one => iff_of_true ⟨one.single, one.pointed⟩ (quiet_apart rfl)⟩
  | ready _ => exact ⟨held, fun one => iff_of_true one (quiet_apart rfl)⟩
  | eintr _ => exact ⟨held, fun one => iff_of_true one (quiet_apart rfl)⟩
  | failed _ => exact ⟨held, fun one => iff_of_true one (quiet_apart rfl)⟩
  | dispatched called =>
    obtain ⟨s', rfl, settled⟩ := settle_intact intact
    rw [settled]
    exact dispatch_timers held called
  | posted s queue answer =>
    obtain ⟨s', done, settled⟩ := settle_intact intact
    rw [settled]
    rcases run_post_callback_cases done with ⟨_, same⟩ | ⟨_, maintained⟩
    · obtain rfl := Except.ok.inj same
      exact ⟨held, fun one => iff_of_true one (quiet_apart rfl)⟩
    · obtain ⟨apart, single⟩ := stage_maintenance_timers held maintained
      exact ⟨apart, fun one => iff_of_true (single one) (quiet_apart rfl)⟩

theorem halting_apart {sys next : System} {event : Event} (stepped : step sys event = some next)
    (halts : ¬ next.control.intact) : CommandsApart sys event := by
  cases step_cases stepped with
  | @dispatched s ref rest answer outcome called =>
    intro command
    refine absurd ?_ halts
    cases answer with
    | failed => simp [handlesCommand] at command
    | expired => simp [handlesCommand] at command
    | siginfo info =>
      simp only [handlesCommand, nextHandler, Bool.and_eq_true, decide_eq_true_eq,
        Option.some.injEq] at command
      obtain ⟨rfl, shutdown⟩ := command
      simp only [dispatch, dispatchSignal] at called
      split at called
      · obtain rfl := Option.some.inj called
        unfold signalHandler
        cases signo : info.signo <;> simp_all [isShutdownSignal, settle, Control.intact]
      · simp at called
  | env _ _ => exact quiet_apart rfl
  | ready _ => exact quiet_apart rfl
  | eintr _ => exact quiet_apart rfl
  | failed _ => exact quiet_apart rfl
  | posted _ _ _ => exact quiet_apart rfl

theorem boot_timers {table : BootTable} {answer : BootAnswer} {first : System}
    (booted : boot table answer = some first) (intact : first.control.intact) :
    TimersApart first.state ∧ OneKillTimer first.state := by
  obtain ⟨s, pid, _, watched, _, rfl, ⟨stop, _, rfl⟩ | ⟨result, s', started, rfl⟩⟩ :=
    boot_cases booted
  · exact absurd rfl (intact stop.halt)
  · have initial : TimersApart (State.initial table) := ⟨by simp [State.initial],
      by simp [State.initial], by simp [State.initial]⟩
    have fed : TimersApart s ∧ OneKillTimer s := by
      rw [watched, one_kill_timer_iff]
      unfold startWatchdog
      split
      · exact ⟨initial, rfl⟩
      · rename_i msec timer _
        refine ⟨add_timeout_apart initial timer msec .watchdogFeed, ?_⟩
        rw [kill_timers_add (by decide)]
        rcases add_timeout_cases timer msec .watchdogFeed (State.initial table) with added | added
        · rw [added]
          rfl
        · rw [added]
          rfl
    obtain ⟨apart, single⟩ := reprocessed_timers (placed_reprocessed s table.safeModeEntry pid)
    obtain ⟨apart', single'⟩ := start_processes_timers started
    have apart := apart fed.1
    have single := single fed.2
    have final := apart' ⟨apart.below, apart.distinct, apart.handle⟩
    have one := single' ⟨single.single, single.pointed⟩
    exact ⟨⟨final.below, final.distinct, final.handle⟩, ⟨one.single, one.pointed⟩⟩

def ClearedAfter (s : State) : Prop :=
  s.currentStage ≠ .termination → s.killTimeout = none

theorem advance_stage_cleared {answer : StartAnswer} {s s' : State} (held : ClearedAfter s)
    (done : advanceStage answer s = .ok s') : ClearedAfter s' := by
  have kept : (cancelOneShotTimeout s).killTimeout = s.killTimeout := by
    unfold cancelOneShotTimeout
    split
    · rfl
    · rfl
  have clears : ∀ t : State, (cancelKillTimeout t).killTimeout = none := by
    intro t
    unfold cancelKillTimeout
    split
    · assumption
    · rfl
  intro _
  cases advance_stage_moves done with
  | resting stage => exact held (by rcases stage with stage | stage | stage <;> simp [stage])
  | pending starting _ => exact held (by rcases starting with stage | stage <;> simp [stage])
  | continued starting _ _ started =>
    rw [(start_processes_keeps started).2, kept]
    exact held (by rcases starting with stage | stage <;> simp [stage])
  | toRun starting _ _ => exact kept.trans (held (by simp [starting]))
  | toClose starting _ _ => exact kept.trans (held (by simp [starting]))
  | waiting ending _ => contradiction
  | toShutdown _ _ _ _ => exact clears _
  | straightToClose _ _ _ => exact clears _

theorem state_step_cleared {s s' : State} {event : Event} (held : ClearedAfter s)
    (stepped : StateStep s event s') : ClearedAfter s' := by
  cases stepped with
  | env _ => exact held
  | idle => exact held
  | childExit _ _ done =>
    have same := reprocessed_undisturbed (handle_child_exit_reprocessed done)
    intro idle
    rw [same.kill]
    exact held (same.stage ▸ idle)
  | shutdownCmd answer command =>
    intro idle
    obtain ⟨_, _, _, _, _, shape⟩ := handle_shutdown_cmd_retimed answer.timer command s
    simp [shape, State.retimed] at idle
  | @expired t _ =>
    cases called : t.callback with
    | oneShotTimeoutCb =>
      simp only [expire, called, runTimeout, oneShotTimeoutCb]
      exact held
    | killTimeoutCb =>
      simp only [expire, called, runTimeout, killTimeoutCb]
      exact fun _ => rfl
    | watchdogFeed =>
      simp only [expire, called, runTimeout]
      exact held
  | maintained _ done =>
    obtain ⟨t, advanced, ⟨_, rfl⟩ | ⟨_, rfl⟩⟩ := stage_maintenance_cases done
    · exact advance_stage_cleared held advanced
    · have cleared := advance_stage_cleared held advanced
      exact cleared

theorem boot_cleared {table : BootTable} {answer : BootAnswer} {first : System}
    (booted : boot table answer = some first) (intact : first.control.intact) :
    ClearedAfter first.state := by
  obtain ⟨s, pid, _, watched, _, rfl, ⟨stop, _, rfl⟩ | ⟨result, s', started, rfl⟩⟩ :=
    boot_cases booted
  · exact absurd rfl (intact stop.halt)
  · have clear : s.killTimeout = none := by
      rw [watched]
      unfold startWatchdog
      split
      · rfl
      · rename_i msec timer _
        rcases add_timeout_cases timer msec .watchdogFeed (State.initial table) with added | added
        · rw [added]
          rfl
        · rw [added]
          rfl
    have placed := (reprocessed_undisturbed (placed_reprocessed s table.safeModeEntry pid)).kill
    exact fun _ => (start_processes_keeps started).2.trans (placed.trans clear)

theorem run_timers_apart {first sys : System} {trace : List (System × Event)}
    (run : Run step first trace sys)
    (initial : first.control.intact → TimersApart first.state) :
    sys.control.intact → TimersApart sys.state :=
  run_invariant (fun sys => sys.control.intact → TimersApart sys.state) run (meets_always trace)
    initial (fun _ _ _ held _ stepped intact =>
      (step_timers (held (step_from_intact stepped)) stepped intact).1)

theorem run_one_kill_timer_iff {first sys : System} {trace : List (System × Event)}
    (run : Run step first trace sys)
    (initial : first.control.intact → TimersApart first.state ∧ OneKillTimer first.state) :
    ((∀ x ∈ trace, OneKillTimer x.1.state) ∧ (sys.control.intact → OneKillTimer sys.state)) ↔
      ∀ x ∈ trace, CommandsApart x.1 x.2 := by
  induction run with
  | start => simpa using fun intact => (initial intact).2
  | @next u v event past before now ih =>
    have intact := step_from_intact now
    have apart := run_timers_apart before (fun held => (initial held).1) intact
    rw [List.forall_mem_cons, List.forall_mem_cons]
    constructor
    · rintro ⟨⟨here, earlier⟩, later⟩
      refine ⟨?_, ih.mp ⟨earlier, fun _ => here⟩⟩
      by_cases goesOn : v.control.intact
      · exact ((step_timers apart now goesOn).2 here).mp (later goesOn)
      · exact halting_apart now goesOn
    · rintro ⟨here, earlier⟩
      obtain ⟨states, current⟩ := ih.mpr earlier
      refine ⟨⟨current intact, states⟩, ?_⟩
      intro goesOn
      exact ((step_timers apart now goesOn).2 (current intact)).mpr here

/-- In every run: after every event at most one kill timer is registered, and
    exactly the one kill_timeout points to, if and only if every shutdown signal
    is handled while kill_timeout points to none; and then no timer outlives the
    termination phase it was set for. -/
theorem one_kill_timer_holds_iff {table : BootTable} {trace : List (System × Event)}
    {sys : System} (run : InitRun table trace sys) :
    (((∀ x ∈ trace, OneKillTimer x.1.state) ∧ (sys.control.intact → OneKillTimer sys.state)) ↔
      ∀ x ∈ trace, CommandsApart x.1 x.2) ∧
    ((∀ x ∈ trace, CommandsApart x.1 x.2) → sys.control.intact →
      sys.state.currentStage ≠ .termination → killTimers sys.state = []) := by
  obtain ⟨answer, first, booted, steps⟩ := run
  have exact := run_one_kill_timer_iff steps (boot_timers booted)
  refine ⟨exact, ?_⟩
  intro apart intact idle
  have cleared : ClearedAfter sys.state := init_run_invariant (fun _ _ => True) ClearedAfter
    ⟨answer, first, booted, steps⟩ intact (meets_always trace)
    (fun _ _ booted intact => boot_cleared booted intact)
    (fun _ _ _ held _ stepped => state_step_cleared held stepped)
  have one := one_kill_timer_iff.mp ((exact.mpr apart).2 intact)
  rw [one, cleared idle]
  rfl

theorem one_kill_timer_for_one_command : ∃ trace sys, InitRun sampleTable trace sys ∧
    sys.state.currentStage = .shutdown ∧ OneKillTimer sys.state ∧
    ∃ x ∈ trace, killTimers x.1.state = [2] ∧ OneKillTimer x.1.state := by
  obtain ⟨run, rehearsed, waiting, stage, apart, x, member, timers⟩ :
      ∃ run ∈ rehearse sampleTable sampleBoot (untilShutdown [14]),
      run.2.control = .waiting ∧ run.2.state.currentStage = .shutdown ∧
      (∀ x ∈ run.1, CommandsApart x.1 x.2) ∧ ∃ x ∈ run.1, killTimers x.1.state = [2] := by
    decide +kernel
  have reached := init_run_of_rehearse rehearsed
  obtain ⟨states, final⟩ := (one_kill_timer_holds_iff reached).1.mpr apart
  exact ⟨run.1, run.2, reached, stage, final (waiting_intact waiting), x, member, timers,
    states x member⟩

/-- A second shutdown signal while processes are being terminated: two kill
    timers, and when the first expires it clears the handle of the second. -/
theorem second_command_leaks_timer :
    (∃ trace sys, InitRun sampleTable trace sys ∧ sys.control = .waiting ∧
      killTimers sys.state = [3, 2] ∧ sys.state.killTimeout = some 3) ∧
    ∃ trace sys, InitRun sampleTable trace sys ∧ sys.control = .waiting ∧
      killTimers sys.state = [3] ∧ sys.state.killTimeout = none := by
  constructor
  · obtain ⟨run, rehearsed, facts⟩ : ∃ run ∈ rehearse sampleTable sampleBoot
        (handled .signal termSignal [] ++ handled .signal termSignal []),
        run.2.control = .waiting ∧ killTimers run.2.state = [3, 2] ∧
        run.2.state.killTimeout = some 3 := by
      decide +kernel
    exact ⟨run.1, run.2, init_run_of_rehearse rehearsed, facts⟩
  · obtain ⟨run, rehearsed, facts⟩ : ∃ run ∈ rehearse sampleTable sampleBoot
        (handled .signal termSignal [] ++ handled .signal termSignal [] ++
          handled (.timeout 2) .expired []),
        run.2.control = .waiting ∧ killTimers run.2.state = [3] ∧
        run.2.state.killTimeout = none := by
      decide +kernel
    exact ⟨run.1, run.2, init_run_of_rehearse rehearsed, facts⟩

end KillTimer
