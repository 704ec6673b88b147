import UNit.LoopFrames

/-!
The events of one epoll_wait. They are dispatched one after the other whatever
the callbacks have done meanwhile: the batch goes on after the loop was told to
exit, and the event of a timeout stays queued when the timeout is cancelled.
Both go well exactly when nothing is queued behind the event that closes or
cancels.
-/
namespace BatchDispatch
open InittabEntries SafeModeRecord ProcessHistory KernelModel InitState ProcessStart ChildExit
  StageControl MainLoop LabelledRuns LoopFrames

theorem start_safe_mode_halt {name : List UInt8} {sig : Int} {answers : List WriteAnswer}
    {s : State} {stop : Stop} (failed : startSafeMode name sig answers s = .error stop) :
    stop.halt ≠ .assertion .exitOnce := by
  rcases start_safe_mode_error failed with ⟨_, ⟨_, same⟩ | ⟨_, same⟩⟩ | ⟨_, _, _, _, same, _⟩
  all_goals simp [same]

theorem starts_halt {answer : StartAnswer} {list : List InittabEntry} {s : State} {stop : Stop}
    (halted : StartsHalted answer list s stop) : stop.halt ≠ .assertion .exitOnce := by
  obtain ⟨_, _, _, _, _, _, _, _, _, failed⟩ := starts_halted_rule (fun _ _ _ _ => True)
    (fun _ _ _ _ _ _ _ _ _ _ _ => trivial) halted (fun _ => trivial)
  exact start_safe_mode_halt failed

theorem handle_child_exit_halt {answer : ExitAnswer} {s : State} {stop : Stop}
    (failed : handleChildExit answer s = .error stop) : stop.halt ≠ .assertion .exitOnce := by
  rcases handle_child_exit_error failed with looped | ⟨_, _, _, ⟨_, halted⟩ | halted⟩
  · rcases reap_loop_halts looped with same | same | same <;> simp [same]
  · exact start_safe_mode_halt halted
  · obtain ⟨_, _, same, _⟩ := halted
    simp [same]

theorem dispatch_halt_kind {ref : HandlerRef} {answer : ReadAnswer} {s : State} {stop : Stop}
    (failed : dispatch ref answer s = some (.error stop)) :
    stop.halt ≠ .assertion .exitOnce := by
  rcases dispatch_error failed with ⟨_, rfl⟩ | ⟨_, rfl⟩ | ⟨_, _, _, _, halted⟩
  · simp
  · simp
  · exact handle_child_exit_halt halted

/-- The callback runs with the loop already told to exit, where it ends in
    STAGE_CLOSE once more. -/
def ExitsAgain (sys : System) : Event → Prop
  | .postIteration _ => sys.state.postIterationCallback ≠ none ∧
      sys.state.shouldExit = true ∧ Closing sys.state
  | _ => False

instance (sys : System) : (event : Event) → Decidable (ExitsAgain sys event)
  | .postIteration _ => inferInstanceAs (Decidable (sys.state.postIterationCallback ≠ none ∧
      sys.state.shouldExit = true ∧ Closing sys.state))
  | .env _ => .isFalse id
  | .epollWait _ => .isFalse id
  | .dispatch _ => .isFalse id

theorem maintenance_exits_again_iff (answer : StartAnswer) (s : State) :
    (∃ stop, stageMaintenance answer s = .error stop ∧ stop.halt = .assertion .exitOnce) ↔
      s.shouldExit = true ∧ Closing s := by
  constructor
  · rintro ⟨stop, failed, exits⟩
    cases stage_maintenance_error failed with
    | starting _ _ _ halted => exact absurd exits (starts_halt halted)
    | shuttingDown _ _ halted => exact absurd exits (starts_halt halted)
    | exitTwice done closed exiting =>
      obtain ⟨steady, closes⟩ := advance_stage_frame done
      exact ⟨steady.exit ▸ exiting, closes.mp closed⟩
  · rintro ⟨exiting, closing⟩
    obtain ⟨t, done⟩ := closing_returns answer closing
    obtain ⟨steady, closes⟩ := advance_stage_frame done
    refine ⟨⟨.assertion .exitOnce, t⟩, ?_, rfl⟩
    simp [stageMaintenance, done, closes.mpr closing, mainloopExit, steady.exit, exiting]

theorem settle_halted {next : State → Control} {outcome : Outcome State} {halt : Halt}
    (running : ∀ s, next s ≠ .halted halt) :
    (settle next outcome).control = .halted halt ↔
      ∃ stop, outcome = .error stop ∧ stop.halt = halt := by
  cases outcome with
  | ok s => simp [settle, running]
  | error stop => simp [settle]

theorem step_exits_again_iff {sys next : System} {event : Event}
    (stepped : step sys event = some next) :
    next.control = .halted (.assertion .exitOnce) ↔ ExitsAgain sys event := by
  cases step_cases stepped with
  | env _ _ => simp [ExitsAgain, step_from_intact stepped (.assertion .exitOnce)]
  | ready _ => simp [ExitsAgain]
  | eintr _ => simp [ExitsAgain]
  | failed _ => simp [ExitsAgain]
  | dispatched called =>
    rw [settle_halted (by simp)]
    simp only [ExitsAgain, iff_false]
    rintro ⟨stop, rfl, exits⟩
    exact dispatch_halt_kind called exits
  | posted s queue answer =>
    rw [settle_halted (fun s => loop_head_running s _ _)]
    cases callback : s.postIterationCallback with
    | none => simp [runPostCallback, callback, ExitsAgain]
    | some which =>
      simp only [runPostCallback, callback, ExitsAgain, maintenance_exits_again_iff]
      simp

/-- Nothing is queued behind an event after which init reaches STAGE_CLOSE. -/
def ClosesLast (sys : System) : Event → Prop
  | .postIteration _ => sys.state.postIterationCallback ≠ none → Closing sys.state →
      sys.control = .post []
  | _ => True

instance (sys : System) : (event : Event) → Decidable (ClosesLast sys event)
  | .postIteration _ => inferInstanceAs (Decidable (sys.state.postIterationCallback ≠ none →
      Closing sys.state → sys.control = .post []))
  | .env _ => .isTrue trivial
  | .epollWait _ => .isTrue trivial
  | .dispatch _ => .isTrue trivial

theorem step_left_on_exit {sys next : System} {event : Event}
    (held : sys.state.shouldExit = true → sys.control.running = false)
    (last : ClosesLast sys event) (stepped : step sys event = some next) :
    next.state.shouldExit = true → next.control.running = false := by
  -- a step starts inside the loop, so the loop was not told to exit before it
  have unset : ∀ control : Control, sys.state.shouldExit = true → control.running = false := by
    intro control exiting
    have running := step_from_running stepped
    simp [held exiting] at running
  cases step_cases stepped with
  | env _ _ => exact unset _
  | ready _ => exact unset _
  | eintr _ => exact unset _
  | failed _ => exact unset _
  | @dispatched s _ _ _ outcome called =>
    cases outcome with
    | error stop => simp [settle, Control.running]
    | ok s' =>
      intro exiting
      exact unset _ ((dispatch_steady called).exit.symm.trans exiting)
  | posted s queue answer =>
    cases outcome : runPostCallback answer s with
    | error stop => simp [settle, Control.running]
    | ok s' =>
      rcases run_post_callback_cases outcome with ⟨_, same⟩ | ⟨callback, maintained⟩
      · obtain rfl := Except.ok.inj same
        exact unset _
      · intro exiting
        have exits : s'.shouldExit = true := exiting
        by_cases closing : Closing s
        · obtain rfl := Control.post.inj (last callback closing)
          simp [settle, loopHead, exits, Control.running]
        · exact unset _ (((stage_maintenance_frame maintained).2 closing).symm.trans exits)

theorem boot_left_on_exit {table : BootTable} {answer : BootAnswer} {first : System}
    (booted : boot table answer = some first) :
    first.state.shouldExit = true → first.control.running = false := by
  intro exiting
  by_contra running
  have intact : first.control.intact := by
    intro halt halted
    simp [halted, Control.running] at running
  obtain ⟨_, _, _, _, _, _, _, rfl⟩ := boot_intact booted intact
  simp at exiting

theorem boot_no_exit {table : BootTable} {answer : BootAnswer} {first : System}
    (booted : boot table answer = some first) :
    first.control ≠ .halted (.assertion .exitOnce) := by
  intro halted
  obtain ⟨_, _, stop, _, _, failed, rfl⟩ := boot_halted booted halted
  simp only [Control.halted.injEq] at halted
  exact starts_halt failed halted

theorem run_exits_iff {first sys : System} {trace : List (System × Event)}
    (run : Run step first trace sys) (fine : first.control ≠ .halted (.assertion .exitOnce)) :
    sys.control ≠ .halted (.assertion .exitOnce) ↔ ∀ x ∈ trace, ¬ ExitsAgain x.1 x.2 := by
  induction run with
  | start => simp [fine]
  | next before now ih =>
    have earlier := ih.mp (step_from_intact now _)
    rw [Ne, step_exits_again_iff now, List.forall_mem_cons]
    exact ⟨fun here => ⟨here, earlier⟩, And.left⟩

/-- If nothing is ever queued behind an event that closes, the assertion of
    mainloop_exit holds in the whole run. In any run it fails at the step in which
    the callback comes to STAGE_CLOSE again, and at no other. -/
theorem exit_assertion_holds_iff {table : BootTable} {trace : List (System × Event)}
    {sys : System} (run : InitRun table trace sys) :
    (sys.control ≠ .halted (.assertion .exitOnce) ↔ ∀ x ∈ trace, ¬ ExitsAgain x.1 x.2) ∧
    ((∀ x ∈ trace, ClosesLast x.1 x.2) → sys.control ≠ .halted (.assertion .exitOnce)) := by
  obtain ⟨answer, first, booted, steps⟩ := run
  have exact := run_exits_iff steps (boot_no_exit booted)
  refine ⟨exact, ?_⟩
  intro last
  rw [exact]
  intro x member again
  have left := run_invariant_before
    (fun sys => sys.state.shouldExit = true → sys.control.running = false) steps last
    (boot_left_on_exit booted) (fun _ _ _ held last stepped => step_left_on_exit held last stepped)
    x member
  obtain ⟨_, _, _, now⟩ := run_reaches_step steps member
  have running := step_from_running now
  have exiting : x.1.state.shouldExit = true := by
    revert again
    cases x.2 <;> simp_all [ExitsAgain]
  simp [left exiting] at running

theorem exit_assertion_holds_for_sample : ∃ trace sys, InitRun sampleTable trace sys ∧
    sys.state.currentStage = .close ∧ sys.control ≠ .halted (.assertion .exitOnce) := by
  obtain ⟨run, rehearsed, stage, last⟩ : ∃ run ∈ rehearse sampleTable sampleBoot
      (untilShutdown [14] ++ [.env (.childDies 14 (.exited 0))] ++
        handled .signal (childSignal [(14, .exited 0)] (-1)) []),
      run.2.state.currentStage = .close ∧ ∀ x ∈ run.1, ClosesLast x.1 x.2 := by
    decide +kernel
  have reached := init_run_of_rehearse rehearsed
  exact ⟨run.1, run.2, reached, stage, (exit_assertion_holds_iff reached).2 last⟩

/-- The last shutdown process ends while the watchdog is due: its event is still
    dispatched, and the callback asks the loop to exit a second time. -/
theorem exit_assertion_fails_on_watchdog : ∃ trace sys, InitRun sampleTable trace sys ∧
    sys.control = .halted (.assertion .exitOnce) := by
  obtain ⟨run, rehearsed, failed⟩ : ∃ run ∈ rehearse sampleTable sampleBoot
      (untilShutdown [14] ++
        [.env (.childDies 14 (.exited 0)), .epollWait (.ready [.signal, .timeout 0]),
          .dispatch (childSignal [(14, .exited 0)] (-1)), .postIteration (forksAnswered []),
          .dispatch .expired, .postIteration (forksAnswered [])]),
      run.2.control = .halted (.assertion .exitOnce) := by
    decide +kernel
  exact ⟨run.1, run.2, init_run_of_rehearse rehearsed, failed⟩

def queueOf : Control → List HandlerRef
  | .events queue => queue
  | .post queue => queue
  | .waiting => []
  | .left => []
  | .halted _ => []

/-- A timeout is cancelled only while none of its events is queued. -/
def CancelsUnqueued (sys : System) : Event → Prop
  | .dispatch (.siginfo answer) => isShutdownSignal answer.signo = true →
      ∀ id ∈ sys.state.oneShotTimeout, .timeout id ∉ queueOf sys.control
  | .postIteration _ => sys.state.postIterationCallback ≠ none →
      ∀ id ∈ cancelled sys.state, .timeout id ∉ queueOf sys.control
  | _ => True

instance (sys : System) : (event : Event) → Decidable (CancelsUnqueued sys event)
  | .dispatch (.siginfo answer) => inferInstanceAs (Decidable
      (isShutdownSignal answer.signo = true →
        ∀ id ∈ sys.state.oneShotTimeout, .timeout id ∉ queueOf sys.control))
  | .postIteration _ => inferInstanceAs (Decidable (sys.state.postIterationCallback ≠ none →
      ∀ id ∈ cancelled sys.state, .timeout id ∉ queueOf sys.control))
  | .dispatch .failed => .isTrue trivial
  | .dispatch .expired => .isTrue trivial
  | .env _ => .isTrue trivial
  | .epollWait _ => .isTrue trivial

structure Queued (s : State) (queue : List HandlerRef) : Prop where
  nodup : queue.Nodup
  registered : ∀ ref ∈ queue, Registered s ref

theorem queued_nil (s : State) : Queued s [] := ⟨List.nodup_nil, by simp⟩

theorem queued_steady {removed : Option Nat} {s t : State} {queue : List HandlerRef}
    (held : Queued s queue)
    (timers : ∀ u ∈ s.timeouts, removed ≠ some u.id → u ∈ t.timeouts)
    (unqueued : ∀ id ∈ removed, .timeout id ∉ queue) : Queued t queue := by
  refine ⟨held.nodup, ?_⟩
  intro ref member
  cases ref with
  | signal => trivial
  | timeout id =>
    obtain ⟨u, registered, same⟩ := List.mem_map.mp (held.registered _ member)
    have kept : removed ≠ some u.id := by
      intro gone
      exact unqueued u.id gone (same ▸ member)
    exact List.mem_map.mpr ⟨u, timers u registered kept, same⟩

theorem dropped_unqueued {sys : System} {ref : HandlerRef} {rest : List HandlerRef}
    {answer : ReadAnswer} (control : sys.control = .events (ref :: rest))
    (held : Queued sys.state (ref :: rest)) (safe : CancelsUnqueued sys (.dispatch answer)) :
    ∀ id ∈ dropped ref answer sys.state, .timeout id ∉ rest := by
  intro id gone
  cases ref with
  | timeout own =>
    obtain rfl := Option.some.inj gone
    exact (List.nodup_cons.mp held.nodup).1
  | signal =>
    cases answer with
    | failed => simp [dropped] at gone
    | expired => simp [dropped] at gone
    | siginfo answer =>
      simp only [dropped] at gone
      split at gone
      · rename_i command
        have away := safe command id gone
        simp only [control, queueOf] at away
        exact fun later => away (List.mem_cons_of_mem _ later)
      · simp at gone

theorem step_queued {sys next : System} {event : Event}
    (held : Queued sys.state (queueOf sys.control)) (safe : CancelsUnqueued sys event)
    (stepped : step sys event = some next) : Queued next.state (queueOf next.control) := by
  cases step_cases stepped with
  | env _ _ => exact ⟨held.nodup, held.registered⟩
  | ready lawful => exact ⟨lawful.2.2.1, lawful.2.2.2⟩
  | eintr _ => exact held
  | failed _ => exact queued_nil _
  | @dispatched s ref rest _ outcome called =>
    cases outcome with
    | error stop => exact queued_nil _
    | ok s' =>
      have later : Queued s rest := ⟨(List.nodup_cons.mp held.nodup).2,
        fun ref member => held.registered ref (List.mem_cons_of_mem _ member)⟩
      exact queued_steady later (dispatch_steady called).timers (dropped_unqueued rfl held safe)
  | posted s queue answer =>
    cases outcome : runPostCallback answer s with
    | error stop => exact queued_nil _
    | ok s' =>
      have queued : Queued s' queue := by
        rcases run_post_callback_cases outcome with ⟨_, same⟩ | ⟨callback, maintained⟩
        · obtain rfl := Except.ok.inj same
          exact held
        · exact queued_steady held (stage_maintenance_frame maintained).1 (safe callback)
      simp only [settle, loopHead]
      split
      · split <;> exact queued_nil _
      · exact queued

theorem boot_queued {table : BootTable} {answer : BootAnswer} {first : System}
    (booted : boot table answer = some first) : Queued first.state (queueOf first.control) := by
  by_cases intact : first.control.intact
  · obtain ⟨_, _, _, _, _, _, _, rfl⟩ := boot_intact booted intact
    exact queued_nil _
  · obtain ⟨halt, halted⟩ := halted_of_not_intact intact
    rw [halted]
    exact queued_nil _

/-- In every run that cancels no timeout whose event is queued, each event is
    dispatched while its handler is registered. -/
theorem dispatched_handlers_registered {table : BootTable} {trace : List (System × Event)}
    {sys : System} (run : InitRun table trace sys)
    (safe : Meets CancelsUnqueued trace) :
    ∀ x ∈ trace, ∀ ref rest, x.1.control = .events (ref :: rest) →
      Registered x.1.state ref := by
  obtain ⟨answer, first, booted, steps⟩ := run
  intro x member ref rest control
  have held := run_invariant_before (fun sys => Queued sys.state (queueOf sys.control)) steps safe
    (boot_queued booted) (fun _ _ _ held safe stepped => step_queued held safe stepped) x member
  rw [control] at held
  exact held.registered ref List.mem_cons_self

theorem dispatched_handlers_registered_for_timers : ∃ trace sys,
    InitRun sampleTable trace sys ∧
    ∃ x ∈ trace, x.1.control = .events [.timeout 0] ∧ Registered x.1.state (.timeout 0) := by
  obtain ⟨run, rehearsed, safe, x, member, control⟩ : ∃ run ∈ rehearse sampleTable sampleBoot
      [.epollWait (.ready [.timeout 1, .timeout 0]), .dispatch .expired,
        .postIteration (forksAnswered []), .dispatch .expired],
      (∀ x ∈ run.1, CancelsUnqueued x.1 x.2) ∧
      ∃ x ∈ run.1, x.1.control = .events [.timeout 0] := by
    decide +kernel
  have reached := init_run_of_rehearse rehearsed
  exact ⟨run.1, run.2, reached, x, member, control,
    dispatched_handlers_registered reached safe x member _ _ control⟩

/-- A shutdown command and the one-shot timer in one batch: the command frees the
    timeout, and its event is dispatched all the same. -/
theorem freed_timeout_dispatched : ∃ trace sys, InitRun sampleTable trace sys ∧
    sys.control = .halted .useAfterFree ∧
    ∃ x ∈ trace, x.2 = .dispatch .expired ∧ x.1.control = .events [.timeout 1] ∧
      ¬ Registered x.1.state (.timeout 1) := by
  obtain ⟨run, rehearsed, facts⟩ : ∃ run ∈ rehearse sampleTable sampleBoot
      [.epollWait (.ready [.signal, .timeout 1]), .dispatch termSignal,
        .postIteration (forksAnswered []), .dispatch .expired],
      run.2.control = .halted .useAfterFree ∧
      ∃ x ∈ run.1, x.2 = .dispatch .expired ∧ x.1.control = .events [.timeout 1] ∧
        ¬ Registered x.1.state (.timeout 1) := by
    decide +kernel
  exact ⟨run.1, run.2, init_run_of_rehearse rehearsed, facts⟩

end BatchDispatch
