import UNit.SafeModeRequests

/-!
Safe mode and the signals init sends itself. Whether a dead safe process asks
for safe mode is decided from its wait status alone: one that dies of the
SIGTERM of a shutdown command counts as crashed. If safe processes end
abnormally only after init has signalled them, and every fork succeeds, these
deaths are exactly what safe mode is started for.
-/
namespace OrderlyShutdown
open InittabEntries SafeModeRecord ProcessHistory EventHistory KernelModel InitState ProcessStart
  ChildExit StageControl MainLoop LabelledRuns TrackedChildren ReapedBatch SafeModeKeeping
  SafeModeRequests

@[simp] def Failed : List Effect → Prop
  | [] => False
  | effect :: past => SafeFailure past effect ∨ Failed past

def Asked (log : List Effect) : Prop := ∃ q consumed, .request q consumed ∈ log

def isAnswering : Effect → Bool
  | .fork _ _ => true
  | .reap _ _ => true
  | .request _ _ => true
  | _ => false

theorem failed_neutral {effect : Effect} (neutral : isAnswering effect = false)
    (log : List Effect) : Failed (effect :: log) ↔ Failed log := by
  cases effect <;> simp_all [isAnswering, SafeFailure]

theorem asked_other {effect : Effect} (other : ∀ q consumed, effect ≠ .request q consumed)
    (log : List Effect) : Asked (effect :: log) ↔ Asked log := by
  constructor
  · rintro ⟨q, consumed, member⟩
    rcases List.mem_cons.mp member with same | earlier
    · exact absurd same.symm (other q consumed)
    · exact ⟨q, consumed, earlier⟩
  · rintro ⟨q, consumed, member⟩
    exact ⟨q, consumed, List.mem_cons_of_mem _ member⟩

/-- Between two calls of init every failure has been answered, and nothing else. -/
def Answered (log : List Effect) : Prop := Failed log ↔ Asked log

theorem answered_neutral {effect : Effect} (neutral : isAnswering effect = false)
    (log : List Effect) : Answered (effect :: log) ↔ Answered log := by
  have other : ∀ q consumed, effect ≠ .request q consumed := by
    intro q consumed same
    simp [same, isAnswering] at neutral
  rw [Answered, failed_neutral neutral, asked_other other, Answered]

theorem requested_answered {s : State} (q : Nat) (info : SharedInfo)
    (failed : Failed s.kernel.log) : Answered (State.requested s q info).kernel.log := by
  rw [requested_log]
  constructor
  · intro _
    exact ⟨q, (s.kernel.pipes q).consumed, by simp⟩
  · intro _
    exact Or.inr (Or.inr failed)

theorem spawn_entry_request {answer : SpawnAnswer} {entry : InittabEntry} {has has' : Bool}
    {s s' : State} (held : Answered s.kernel.log)
    (done : spawnEntry answer entry has s = .ok (has', s')) : Answered s'.kernel.log := by
  have fork : ∀ result, (¬ SafeFailure s.kernel.log (.fork entry result)) →
      Answered (.fork entry result :: s.kernel.log) := by
    intro result fine
    rw [Answered, Failed, asked_other (by simp)]
    simp only [fine, false_or]
    exact held
  rcases spawn_entry_cases done with ⟨pid, free, _, rfl⟩ | ⟨_, safe, q, _, _, _, _, rfl⟩ |
    ⟨_, plain, rfl⟩
  · have positive : 0 < pid := by have := free.1; omega
    exact fork pid (by simp [SafeFailure, positive])
  · apply requested_answered
    exact Or.inl ⟨safe, by omega⟩
  · exact fork (-1) (by simp [SafeFailure, plain])

structure Judged (s : State) (r : Reaping) (t : State) : Prop where
  exact : ListExact t
  failed : Failed t.kernel.log ↔ Failed s.kernel.log ∨ r.startSafeProcess = true
  asked : Asked t.kernel.log ↔ Asked s.kernel.log

theorem reap_one_judged {w : Int × WaitStatus} {r r' : Reaping} {s t t' : State}
    (held : Judged s r t) (done : reapOne w r t = .ok (r', t')) : Judged s r' t' := by
  have exact := reap_one_exact held.exact done
  obtain ⟨rfl, verdict⟩ := reap_one_cases held.exact.tracked.nodup done
  obtain ⟨_, log, shape, noted⟩ := reaped_frame t w (findProcess w.1 t.runningProcesses)
  have failed : Failed log ↔ SafeFailure t.kernel.log (.reap w.1 w.2) ∨ Failed t.kernel.log := by
    rcases noted with rfl | ⟨value, rfl⟩ <;> simp [SafeFailure]
  have asked : Asked log ↔ Asked t.kernel.log := by
    rcases noted with rfl | ⟨value, rfl⟩
    · exact asked_other (by simp) _
    · exact (asked_other (by simp) _).trans (asked_other (by simp) _)
  have failure : SafeFailure t.kernel.log (.reap w.1 w.2) ↔ w.2.abnormal = true ∧
      ∃ p ∈ t.runningProcesses, p.pid = w.1 ∧ isSafeEntry p.config = true ∧
        p.config.type ≠ .safeMode := by
    rw [held.exact.tracked.as_logged]
    rfl
  refine ⟨exact, ?_, ?_⟩
  · rw [shape]
    dsimp only
    rw [failed, failure, held.failed]
    rcases verdict with ⟨absent, rfl⟩ | ⟨p, found, judged⟩
    · have none := find_process_none absent
      constructor
      · rintro (⟨_, p, tracked, same, _⟩ | earlier)
        · exact absurd same (none p tracked)
        · exact earlier
      · exact Or.inr
    · obtain ⟨tracked, same⟩ := find_process_some found
      have only : ∀ x ∈ t.runningProcesses, x.pid = w.1 → x = p := by
        intro x member named
        exact same_pid_same_process held.exact.tracked.nodup member tracked
          (named.trans same.symm)
      rcases judge_cases judged with ⟨fine, rfl⟩ | ⟨_, kind, _, rfl⟩ | ⟨bad, safe, kind, rfl⟩
      · refine or_iff_right ?_
        rintro ⟨bad, x, member, named, safe, _⟩
        rw [only x member named] at safe
        rcases fine with plain | normal
        · simp [plain] at safe
        · simp [normal] at bad
      · refine or_iff_right ?_
        rintro ⟨_, x, member, named, _, other⟩
        rw [only x member named] at other
        exact other kind
      · constructor
        · intro _
          exact Or.inr rfl
        · intro _
          exact Or.inl ⟨bad, p, tracked, same, safe, kind⟩
  · rw [shape]
    exact asked.trans held.asked

theorem reap_loop_judged {answer : WaitAnswer} {r : Reaping} {s t : State} (exact : ListExact s)
    (looped : reapLoop answer.last answer.results .initial s = .ok (r, t)) : Judged s r t :=
  (reap_loop_rule (fun _ r t => Judged s r t)
    (fun _ _ _ _ _ _ held done => reap_one_judged held done)
    ⟨exact, by simp [Reaping.initial], Iff.rfl⟩ looped).1

theorem request_answered {answers : List WriteAnswer} {r : Reaping} {s t u : State}
    (held : Answered s.kernel.log) (judged : Judged s r t)
    (requested : requestSafeMode answers r t = .ok u) : Answered u.kernel.log := by
  rcases request_safe_mode_cases requested with ⟨quiet, rfl⟩ | ⟨loud, q, _, _, _, _, rfl⟩
  · have none : ¬ r.startSafeProcess = true := by simp [quiet]
    rw [Answered, judged.failed, judged.asked, or_iff_left none]
    exact held
  · exact requested_answered q _ (judged.failed.mpr (Or.inr loud))

theorem placed_answered {s : State} (entry : InittabEntry) (pid : Int) :
    Answered (State.placed (closePreviousPipe s) entry pid).kernel.log ↔
      Answered s.kernel.log := by
  obtain ⟨_, closed, _⟩ := close_previous_pipe_frame s
  rw [closed]
  exact answered_neutral rfl _

theorem child_exit_answered {answer : ExitAnswer} {s s' : State} (exact : ListExact s)
    (held : Answered s.kernel.log) (done : handleChildExit answer s = .ok s') :
    Answered s'.kernel.log := by
  obtain ⟨r, t, u, looped, requested, restarted⟩ := handle_child_exit_ok done
  have asked := request_answered held (reap_loop_judged exact looped) requested
  rcases restart_placeholder_cases restarted with ⟨_, rfl⟩ | ⟨_, pid, _, rfl⟩
  · exact asked
  · exact (placed_answered _ pid).mpr asked

theorem retimed_kernel {s t : State} (same : Retimed s t) : t.kernel = s.kernel := by
  obtain ⟨_, _, _, _, _, rfl⟩ := same
  rfl

theorem starts_answered {answer : StartAnswer} {list : List InittabEntry} {s s' : State}
    (starts : Starts answer list s s') (held : Answered s.kernel.log) :
    Answered s'.kernel.log := by
  obtain ⟨_, _, _, final, kept, same⟩ := starts_rule (fun _ _ _ t => Answered t.kernel.log)
    (fun _ _ _ _ _ _ _ _ held _ done => spawn_entry_request held done) starts
    (fun _ => held)
  rw [retimed_kernel same]
  exact kept

theorem maintained_answered {answer : StartAnswer} {s s' : State} (held : Answered s.kernel.log)
    (done : Maintained answer s s') : Answered s'.kernel.log := by
  cases done with
  | unchanged same => exact retimed_kernel same ▸ held
  | started _ _ before starts => exact starts_answered starts (retimed_kernel before ▸ held)
  | toRun _ _ _ same => exact retimed_kernel same ▸ held
  | toClose _ _ _ same => exact retimed_kernel same ▸ held
  | toShutdown _ _ starts same =>
    rw [retimed_kernel same]
    exact starts_answered starts held
  | straightToClose _ _ _ same => exact retimed_kernel same ▸ held

theorem signalled_answered (signal : KillSignal) (targets : List Process) (k : Kernel) :
    Answered (signalAll signal targets k).log ↔ Answered k.log :=
  iff_of_eq (signal_all_observed Answered
    (fun _ _ _ => propext (answered_neutral rfl _)) signal targets k)

theorem state_step_answered {s s' : State} {event : Event} (exact : ListExact s)
    (held : Answered s.kernel.log) (stepped : StateStep s event s') :
    Answered s'.kernel.log := by
  cases stepped with
  | env moved =>
    have same := (env_frame moved).log
    dsimp only
    rwa [same]
  | idle => exact held
  | childExit _ _ done => exact child_exit_answered exact held done
  | shutdownCmd answer command =>
    rw [retimed_kernel (handle_shutdown_cmd_retimed _ command s), signalled_answered]
    exact (answered_neutral rfl _).mpr held
  | @expired t _ =>
    rcases expire_cases t s with same | same
    · exact retimed_kernel same ▸ held
    · rw [retimed_kernel same, signalled_answered]
      exact held
  | maintained _ done => exact maintained_answered held (stage_maintenance_maintained done)

theorem boots_answered {table : BootTable} {s : State} {pid : Int}
    (watched : Retimed (State.initial table) s) :
    Answered (State.placed (closePreviousPipe s) table.safeModeEntry pid).kernel.log := by
  rw [placed_answered, retimed_kernel watched]
  simp [Answered, Asked, State.initial, Kernel.initial]

theorem boot_answered {table : BootTable} {answer : BootAnswer} {sys : System}
    (booted : boot table answer = some sys) (intact : sys.control.intact) :
    Answered sys.state.kernel.log := by
  obtain ⟨s, pid, result, s', watched, _, started, rfl⟩ := boot_intact booted intact
  have entering : Answered (State.placed (closePreviousPipe s) table.safeModeEntry pid).kernel.log :=
    boots_answered watched
  rcases start_processes_cases started with ⟨_, rfl⟩ | starts
  · exact entering
  · have final := starts_answered starts entering
    exact final

theorem run_answered {table : BootTable} {trace : List (System × Event)} {sys : System}
    (run : InitRun table trace sys) (intact : sys.control.intact) :
    ListExact sys.state ∧ Answered sys.state.kernel.log :=
  init_run_invariant (fun _ _ => True) (fun s => ListExact s ∧ Answered s.kernel.log) run intact
    (meets_always trace)
    (fun _ _ booted intact => ⟨boot_exact booted intact, boot_answered booted intact⟩)
    (fun _ _ _ held _ stepped =>
      ⟨state_step_exact held.1 stepped, state_step_answered held.1 held.2 stepped⟩)

def CallHalt (halt : Halt) : Prop :=
  halt = .panic "Safe mode required, but safe mode process placeholder not found!\n" ∨
    halt = .assertion .pipeFd

def SafeModeCalled (sys : System) : Prop :=
  Asked sys.state.kernel.log ∨ ∃ halt, sys.control = .halted halt ∧ CallHalt halt

theorem reap_loop_no_call {last : WaitEnd} {results : List (Int × WaitStatus)} {r : Reaping}
    {s : State} {stop : Stop} (failed : reapLoop last results r s = .error stop) :
    ¬ CallHalt stop.halt := by
  rcases reap_loop_halts failed with same | same | same <;> simp [same, CallHalt]

theorem start_safe_mode_halted {name : List UInt8} {sig : Int} {answers : List WriteAnswer}
    {s : State} {stop : Stop} (failure : Failed s.kernel.log)
    (failed : startSafeMode name sig answers s = .error stop) :
    Failed stop.state.kernel.log := by
  rcases start_safe_mode_error failed with ⟨same, _⟩ | ⟨q, _, _, _, _, same⟩
  · rwa [same]
  · rw [same]
    exact Or.inr failure

theorem child_exit_called {answer : ExitAnswer} {s : State} {stop : Stop} (exact : ListExact s)
    (held : Answered s.kernel.log) (failed : handleChildExit answer s = .error stop)
    (called : Asked stop.state.kernel.log ∨ CallHalt stop.halt) :
    Failed stop.state.kernel.log := by
  rcases handle_child_exit_error failed with looped | ⟨r, t, looped, ⟨loud, halted⟩ | halted⟩
  · have asked := called.resolve_right (reap_loop_no_call looped)
    have stopped := reap_loop_error (fun _ r t => Judged s r t)
      (fun _ _ _ _ _ _ held done => reap_one_judged held done)
      ⟨exact, by simp [Reaping.initial], Iff.rfl⟩ looped
    rcases stopped with ⟨w, _, r, t, judged, stopped⟩ | ⟨_, _, _, judged, _⟩
    · obtain ⟨_, _, same⟩ := reap_one_error judged.exact.tracked.nodup stopped
      rw [same] at asked ⊢
      have earlier := (asked_other (by simp) _).mp asked
      exact Or.inr (judged.failed.mpr (Or.inl (held.mpr (judged.asked.mp earlier))))
    · exact judged.failed.mpr (Or.inl (held.mpr (judged.asked.mp asked)))
  · have judged := reap_loop_judged exact looped
    exact start_safe_mode_halted (judged.failed.mpr (Or.inr loud)) halted
  · obtain ⟨u, requested, halt, unmade, same⟩ := halted
    have asked : Asked stop.state.kernel.log := called.resolve_right (by simp [halt, CallHalt])
    have answered := request_answered held (reap_loop_judged exact looped) requested
    obtain ⟨k, shape, log, _⟩ := setup_safe_mode_failed unmade
    rw [same, shape] at asked ⊢
    dsimp only at asked ⊢
    rw [log] at asked ⊢
    exact answered.mpr asked

theorem starts_halted_failed {answer : StartAnswer} {list : List InittabEntry} {s : State}
    {stop : Stop} (halted : StartsHalted answer list s stop) : Failed stop.state.kernel.log := by
  obtain ⟨_, _, entry, _, t, _, _, _, safe, failed⟩ := starts_halted_rule (fun _ _ _ _ => True)
    (fun _ _ _ _ _ _ _ _ _ _ _ => trivial) halted (fun _ => trivial)
  have failure : Failed (State.notStarted t entry).kernel.log := Or.inl ⟨safe, by omega⟩
  exact start_safe_mode_halted failure failed

theorem called_failed {table : BootTable} {trace : List (System × Event)} {sys : System}
    (run : InitRun table trace sys) (called : SafeModeCalled sys) :
    Failed sys.state.kernel.log := by
  by_cases intact : sys.control.intact
  · have answered := (run_answered run intact).2
    rcases called with asked | ⟨halt, halted, _⟩
    · exact answered.mpr asked
    · exact absurd halted (intact halt)
  · obtain ⟨halt, stopped⟩ := halted_of_not_intact intact
    have call : Asked sys.state.kernel.log ∨ CallHalt halt := by
      rcases called with asked | ⟨other, halted, call⟩
      · exact Or.inl asked
      · rw [stopped] at halted
        exact Or.inr (Control.halted.inj halted ▸ call)
    obtain ⟨answer, first, booted, steps⟩ := run
    cases steps with
    | start =>
      obtain ⟨_, _, stop, _, _, failed, rfl⟩ := boot_halted booted stopped
      exact starts_halted_failed failed
    | @next t _ event _ before now =>
      obtain ⟨exact, held⟩ := run_answered ⟨answer, first, booted, before⟩ (step_from_intact now)
      cases step_cases now with
      | env _ _ => exact absurd stopped (step_from_intact now halt)
      | ready _ => simp at stopped
      | eintr _ => simp at stopped
      | failed _ =>
        obtain rfl := Control.halted.inj stopped
        exact held.mpr (call.resolve_right (by simp [CallHalt]))
      | @dispatched s _ _ _ outcome handled =>
        cases outcome with
        | ok s' => simp [settle] at stopped
        | error stop =>
          obtain rfl := Control.halted.inj stopped
          rcases dispatch_error handled with ⟨_, rfl⟩ | ⟨_, rfl⟩ | ⟨_, _, _, _, failed⟩
          · exact held.mpr (call.resolve_right (by simp [CallHalt]))
          · exact held.mpr (call.resolve_right (by simp [CallHalt]))
          · exact child_exit_called exact held failed call
      | posted s queue answer =>
        cases outcome : runPostCallback answer s with
        | ok s' =>
          rw [outcome] at stopped
          exact absurd stopped (loop_head_running s' queue halt)
        | error stop =>
          rw [outcome] at stopped call
          obtain rfl := Control.halted.inj stopped
          rcases run_post_callback_cases outcome with ⟨_, same⟩ | ⟨_, failed⟩
          · simp at same
          · cases stage_maintenance_error failed with
            | starting _ _ _ halted => exact starts_halted_failed halted
            | shuttingDown _ _ halted => exact starts_halted_failed halted
            | exitTwice done _ _ assertion =>
              subst assertion
              have answered := maintained_answered held (advance_stage_maintained done)
              exact answered.mpr (call.resolve_right (by simp [CallHalt]))

@[simp] def Signalled (pid : Int) : List Effect → Prop
  | [] => False
  | .kill target _ :: past => target = pid ∨ Signalled pid past
  | .reap gone _ :: past => gone ≠ pid ∧ Signalled pid past
  | .fork _ _ :: past => Signalled pid past
  | .placeholder _ _ _ :: past => Signalled pid past
  | .request _ _ :: past => Signalled pid past
  | .record _ _ :: past => Signalled pid past
  | .pendingDecreased _ :: past => Signalled pid past
  | .shutdownCommand _ :: past => Signalled pid past

instance decideSignalled (pid : Int) : (log : List Effect) → Decidable (Signalled pid log)
  | [] => .isFalse id
  | .kill target _ :: past =>
    have := decideSignalled pid past
    inferInstanceAs (Decidable (target = pid ∨ Signalled pid past))
  | .reap gone _ :: past =>
    have := decideSignalled pid past
    inferInstanceAs (Decidable (gone ≠ pid ∧ Signalled pid past))
  | .fork _ _ :: past => decideSignalled pid past
  | .placeholder _ _ _ :: past => decideSignalled pid past
  | .request _ _ :: past => decideSignalled pid past
  | .record _ _ :: past => decideSignalled pid past
  | .pendingDecreased _ :: past => decideSignalled pid past
  | .shutdownCommand _ :: past => decideSignalled pid past

def SafeChild (log : List Effect) (pid : Int) : Prop :=
  ∃ p ∈ live log, p.pid = pid ∧ SafeKind p.config

instance (log : List Effect) (pid : Int) : Decidable (SafeChild log pid) :=
  inferInstanceAs (Decidable (∃ p ∈ live log, p.pid = pid ∧ SafeKind p.config))

/-- A safe process ends abnormally, between two calls of init or while it reaps
    children, only after init has signalled it. -/
def DiesSignalled (s : State) : Event → Prop
  | .env (.childDies pid status) => status.abnormal = true → SafeChild s.kernel.log pid →
      Signalled pid s.kernel.log
  | .dispatch (.siginfo answer) => answer.signo = .sigchld →
      ∀ w ∈ answer.exit.wait.results, w.2.abnormal = true → SafeChild s.kernel.log w.1 →
        (∃ c ∈ s.kernel.children, c.pid = w.1 ∧ c.status = none) → Signalled w.1 s.kernel.log
  | _ => True

instance (s : State) : (event : Event) → Decidable (DiesSignalled s event)
  | .env (.childDies pid status) => inferInstanceAs (Decidable (status.abnormal = true →
      SafeChild s.kernel.log pid → Signalled pid s.kernel.log))
  | .dispatch (.siginfo answer) => inferInstanceAs (Decidable (answer.signo = .sigchld →
      ∀ w ∈ answer.exit.wait.results, w.2.abnormal = true → SafeChild s.kernel.log w.1 →
        (∃ c ∈ s.kernel.children, c.pid = w.1 ∧ c.status = none) → Signalled w.1 s.kernel.log))
  | .env (.adopted _) => .isTrue trivial
  | .env (.placeholderReads _) => .isTrue trivial
  | .dispatch .failed => .isTrue trivial
  | .dispatch .expired => .isTrue trivial
  | .epollWait _ => .isTrue trivial
  | .postIteration _ => .isTrue trivial

def ReapedSignalled (past : List Effect) : Effect → Prop
  | .reap pid status => status.abnormal = true → SafeChild past pid → Signalled pid past
  | _ => True

structure Warned (k : Kernel) : Prop where
  dead : ∀ c ∈ k.children, ∀ status ∈ c.status, status.abnormal = true →
    SafeChild k.log c.pid → Signalled c.pid k.log
  reaps : Justified ReapedSignalled k.log

theorem warned_congr {k k' : Kernel} (held : Warned k) (children : k'.children = k.children)
    (log : k'.log = k.log) : Warned k' := by
  refine ⟨?_, log ▸ held.reaps⟩
  rw [children, log]
  exact held.dead

def isCensus : Effect → Bool
  | .fork _ _ => true
  | .placeholder _ _ _ => true
  | .reap _ _ => true
  | _ => false

theorem signalled_later {pid : Int} {effect : Effect} {log : List Effect}
    (other : ∀ status, effect ≠ .reap pid status) (signalled : Signalled pid log) :
    Signalled pid (effect :: log) := by
  cases effect with
  | kill target signal => exact Or.inr signalled
  | reap gone status =>
    refine ⟨?_, signalled⟩
    rintro rfl
    exact other status rfl
  | _ => exact signalled

theorem warned_note {k : Kernel} {effect : Effect} (held : Warned k)
    (plain : isCensus effect = false) : Warned (k.note effect) := by
  have same : live (effect :: k.log) = live k.log := by
    cases effect <;> simp_all [isCensus]
  have noReap : ∀ pid status, effect ≠ .reap pid status := by
    intro pid status reap
    simp [reap, isCensus] at plain
  refine ⟨?_, ?_, held.reaps⟩
  · intro c child status died bad safe
    simp only [SafeChild, Kernel.note, same] at safe
    exact signalled_later (noReap c.pid) (held.dead c child status died bad safe)
  · cases effect <;> simp_all [ReapedSignalled, isCensus]

theorem warned_spawned {k : Kernel} {pid : Int} {role : Role} {entry : InittabEntry}
    {effect : Effect} (held : Warned k) (free : k.PidFree pid)
    (noReap : ∀ pid status, effect ≠ .reap pid status)
    (logged : live (effect :: k.log) = ⟨entry, pid⟩ :: live k.log) :
    Warned ((k.spawned pid role).note effect) := by
  refine ⟨?_, ?_, held.reaps⟩
  · intro c child status died bad safe
    rcases List.mem_cons.mp child with rfl | child
    · simp at died
    · obtain ⟨p, alive, same, kind⟩ := safe
      simp only [Kernel.note, Kernel.spawned, logged, List.mem_cons] at alive
      have earlier : p ∈ live k.log := by
        rcases alive with rfl | earlier
        · exact absurd (List.mem_map.mpr ⟨c, child, same.symm⟩) free.2.2
        · exact earlier
      exact signalled_later (noReap c.pid) (held.dead c child status died bad ⟨p, earlier, same, kind⟩)
  · cases effect with
    | reap pid status => exact absurd rfl (noReap pid status)
    | _ => trivial

theorem warned_waited {k : Kernel} {pid : Int} {status : WaitStatus} (held : Warned k)
    (signalled : ReapedSignalled k.log (.reap pid status)) : Warned (k.waited pid status) := by
  refine ⟨?_, signalled, held.reaps⟩
  intro c child status' died bad safe
  obtain ⟨child, other⟩ := List.mem_filter.mp child
  have away : pid ≠ c.pid := Ne.symm (by simpa using other)
  obtain ⟨p, alive, same, kind⟩ := safe
  have earlier : SafeChild k.log c.pid := ⟨p, List.mem_of_mem_filter alive, same, kind⟩
  exact ⟨away, held.dead c child status' died bad earlier⟩

theorem warned_env {k k' : Kernel} {move : EnvMove} (held : Warned k)
    (dies : ∀ pid status, move = .childDies pid status → status.abnormal = true →
      SafeChild k.log pid → Signalled pid k.log)
    (moved : k.env move = some k') : Warned k' := by
  have log := (env_frame moved).log
  cases move with
  | childDies pid status =>
    simp only [Kernel.env, Option.map_eq_some_iff] at moved
    obtain ⟨c, _, rfl⟩ := moved
    have died : Warned (k.died pid status) := by
      refine ⟨?_, held.reaps⟩
      intro x child status' ended bad safe
      simp only [Kernel.died, List.mem_map] at child
      obtain ⟨c', child', rfl⟩ := child
      by_cases same : c'.pid = pid
      · simp only [same, ↓reduceIte, Option.mem_def, Option.some.injEq] at ended safe ⊢
        subst ended
        exact dies pid status rfl bad safe
      · simp only [same, ↓reduceIte] at ended safe ⊢
        exact held.dead c' child' status' ended bad safe
    refine warned_congr died ?_ log
    cases c.role <;> rfl
  | adopted pid =>
    simp only [Kernel.env] at moved
    split at moved
    · obtain rfl := Option.some.inj moved
      refine ⟨?_, held.reaps⟩
      intro c child status died bad safe
      rcases List.mem_cons.mp child with rfl | child
      · simp at died
      · exact held.dead c child status died bad safe
    · simp at moved
  | placeholderReads pid =>
    obtain ⟨q, _, rfl⟩ := placeholder_reads moved
    exact warned_congr held rfl log

theorem requested_warned {s : State} (q : Nat) (info : SharedInfo) (held : Warned s.kernel) :
    Warned (State.requested s q info).kernel :=
  warned_congr (warned_note (warned_note held
    (show isCensus (.request q (s.kernel.pipes q).consumed) = false from rfl))
    (show isCensus (.record q info) = false from rfl)) rfl rfl

theorem not_started_warned {s : State} (entry : InittabEntry) (held : Warned s.kernel) :
    Warned (State.notStarted s entry).kernel := by
  refine ⟨?_, trivial, held.reaps⟩
  intro c child status died bad safe
  exact held.dead c child status died bad
    (by simpa [SafeChild, State.notStarted, Kernel.note] using safe)

theorem placed_warned {s : State} {pid : Int} (entry : InittabEntry) (held : Warned s.kernel)
    (free : s.kernel.PidFree pid) :
    Warned (State.placed (closePreviousPipe s) entry pid).kernel := by
  obtain ⟨pipes, closed, _⟩ := close_previous_pipe_frame s
  rw [closed]
  have piped : Warned ({ s.kernel with pipes := pipes } : Kernel).pipe2 :=
    warned_congr held rfl rfl
  exact warned_spawned piped free (by simp) rfl

theorem spawn_entry_warned {answer : SpawnAnswer} {entry : InittabEntry} {has has' : Bool}
    {s s' : State} (held : Warned s.kernel)
    (done : spawnEntry answer entry has s = .ok (has', s')) : Warned s'.kernel := by
  rcases spawn_entry_cases done with ⟨pid, free, _, rfl⟩ | ⟨_, _, q, _, _, _, _, rfl⟩ |
    ⟨_, _, rfl⟩
  · have positive : 0 < pid := by have := free.1; omega
    have logged : live (.fork entry pid :: s.kernel.log) = ⟨entry, pid⟩ :: live s.kernel.log := by
      simp [positive]
    exact warned_spawned held free (by simp) logged
  · exact requested_warned q _ (not_started_warned entry held)
  · exact not_started_warned entry held

theorem starts_warned {answer : StartAnswer} {list : List InittabEntry} {s s' : State}
    (starts : Starts answer list s s') (held : Warned s.kernel) : Warned s'.kernel := by
  obtain ⟨_, _, _, final, kept, same⟩ := starts_rule (fun _ _ _ t => Warned t.kernel)
    (fun _ _ _ _ _ _ _ _ held _ done => spawn_entry_warned held done) starts
    (fun _ => held)
  rw [retimed_kernel same]
  exact kept

theorem maintained_warned {answer : StartAnswer} {s s' : State} (held : Warned s.kernel)
    (done : Maintained answer s s') : Warned s'.kernel := by
  cases done with
  | unchanged same => exact retimed_kernel same ▸ held
  | started _ _ before starts => exact starts_warned starts (retimed_kernel before ▸ held)
  | toRun _ _ _ same => exact retimed_kernel same ▸ held
  | toClose _ _ _ same => exact retimed_kernel same ▸ held
  | toShutdown _ _ starts same =>
    rw [retimed_kernel same]
    exact starts_warned starts held
  | straightToClose _ _ _ same => exact retimed_kernel same ▸ held

theorem signalled_warned (signal : KillSignal) (targets : List Process) {k : Kernel}
    (held : Warned k) : Warned (signalAll signal targets k) := by
  induction targets generalizing k with
  | nil => exact held
  | cons p rest ih =>
    simp only [signalAll]
    split
    · exact ih (warned_note held rfl)
    · exact ih held

/-- The reaping loop before some of its results: those that are to be judged as
    failures were signalled. -/
structure Judging (rest : List (Int × WaitStatus)) (t : State) : Prop where
  exact : ListExact t
  once : (rest.map Prod.fst).Nodup
  warned : Warned t.kernel
  ahead : ∀ w ∈ rest, ReapedSignalled t.kernel.log (.reap w.1 w.2)

theorem reap_one_judging {w : Int × WaitStatus} {rest : List (Int × WaitStatus)}
    {r r' : Reaping} {t t' : State} (held : Judging (w :: rest) t)
    (done : reapOne w r t = .ok (r', t')) : Judging rest t' := by
  have exact := reap_one_exact held.exact done
  obtain ⟨rfl, _⟩ := reap_one_cases held.exact.tracked.nodup done
  obtain ⟨_, log, shape, noted⟩ := reaped_frame t w (findProcess w.1 t.runningProcesses)
  obtain ⟨fresh, once⟩ := List.nodup_cons.mp held.once
  obtain ⟨here, later⟩ := List.forall_mem_cons.mp held.ahead
  have waited := warned_waited held.warned here
  have ahead : ∀ x ∈ rest, ReapedSignalled (.reap w.1 w.2 :: t.kernel.log) (.reap x.1 x.2) := by
    intro x member bad safe
    have away : w.1 ≠ x.1 := fun same => fresh (same ▸ List.mem_map_of_mem member)
    obtain ⟨p, alive, same, kind⟩ := safe
    exact ⟨away, later x member bad ⟨p, List.mem_of_mem_filter alive, same, kind⟩⟩
  rw [shape] at exact ⊢
  rcases noted with rfl | ⟨value, rfl⟩
  · exact ⟨exact, once, warned_congr waited rfl rfl, ahead⟩
  · have counted : Warned ((t.kernel.waited w.1 w.2).note (.pendingDecreased value)) :=
      warned_note waited rfl
    exact ⟨exact, once, warned_congr counted rfl rfl, ahead⟩

theorem child_exit_judging {answer : SignalAnswer} {s : State} (exact : ListExact s)
    (held : Warned s.kernel) (lawful : s.kernel.WaitLawful answer.exit.wait)
    (chld : answer.signo = .sigchld) (dies : DiesSignalled s (.dispatch (.siginfo answer))) :
    Judging answer.exit.wait.results s := by
  refine ⟨exact, lawful.once, held, ?_⟩
  intro w member bad safe
  obtain ⟨c, child, same, status⟩ := lawful.child w member
  cases ended : c.status with
  | none => exact dies chld w member bad safe ⟨c, child, same, ended⟩
  | some st =>
    have equal : st = w.2 := status st ended
    rw [← same] at safe ⊢
    exact held.dead c child st ended (equal ▸ bad) safe

theorem child_exit_warned {answer : ExitAnswer} {s s' : State}
    (judging : Judging answer.wait.results s) (done : handleChildExit answer s = .ok s') :
    Warned s'.kernel := by
  obtain ⟨r, t, u, looped, requested, restarted⟩ := handle_child_exit_ok done
  have reaped := (reap_loop_rule (fun rest _ t => Judging rest t)
    (fun _ _ _ _ _ _ held done => reap_one_judging held done) judging looped).1.warned
  have asked : Warned u.kernel := by
    rcases request_safe_mode_cases requested with ⟨_, rfl⟩ | ⟨_, q, _, _, _, _, rfl⟩
    · exact reaped
    · exact requested_warned q _ reaped
  rcases restart_placeholder_cases restarted with ⟨_, rfl⟩ | ⟨_, pid, free, rfl⟩
  · exact asked
  · exact placed_warned _ asked free

theorem state_step_warned {s s' : State} {event : Event} (exact : ListExact s)
    (held : Warned s.kernel) (dies : DiesSignalled s event) (stepped : StateStep s event s') :
    Warned s'.kernel := by
  cases stepped with
  | env moved =>
    refine warned_env held ?_ moved
    rintro pid status rfl
    exact dies
  | idle => exact held
  | childExit lawful chld done =>
    exact child_exit_warned (child_exit_judging exact held lawful chld dies) done
  | shutdownCmd answer command =>
    rw [retimed_kernel (handle_shutdown_cmd_retimed _ command s)]
    exact signalled_warned _ _ (warned_note held rfl)
  | @expired t _ =>
    rcases expire_cases t s with same | same
    · exact retimed_kernel same ▸ held
    · rw [retimed_kernel same]
      exact signalled_warned _ _ held
  | maintained _ done => exact maintained_warned held (stage_maintenance_maintained done)

theorem boots_warned {table : BootTable} {s : State} {pid : Int}
    (watched : Retimed (State.initial table) s) (free : s.kernel.PidFree pid) :
    Warned (State.placed (closePreviousPipe s) table.safeModeEntry pid).kernel := by
  apply placed_warned _ _ free
  rw [retimed_kernel watched]
  exact ⟨by simp [State.initial, Kernel.initial], trivial⟩

theorem boot_warned {table : BootTable} {answer : BootAnswer} {sys : System}
    (booted : boot table answer = some sys) (intact : sys.control.intact) :
    Warned sys.state.kernel := by
  obtain ⟨s, pid, result, s', watched, free, started, rfl⟩ := boot_intact booted intact
  have entering := boots_warned watched free
  rcases start_processes_cases started with ⟨_, rfl⟩ | starts
  · exact entering
  · have final := starts_warned starts entering
    exact final

theorem request_halted_reaps {name : List UInt8} {sig : Int} {answers : List WriteAnswer}
    {s : State} {stop : Stop} (held : Justified ReapedSignalled s.kernel.log)
    (failed : startSafeMode name sig answers s = .error stop) :
    Justified ReapedSignalled stop.state.kernel.log := by
  rcases start_safe_mode_error failed with ⟨same, _⟩ | ⟨q, _, _, _, _, same⟩
  · rwa [same]
  · rw [same]
    exact ⟨trivial, held⟩

theorem starts_halted_reaps {answer : StartAnswer} {list : List InittabEntry} {s : State}
    {stop : Stop} (halted : StartsHalted answer list s stop) (held : Warned s.kernel) :
    Justified ReapedSignalled stop.state.kernel.log := by
  obtain ⟨_, _, entry, _, t, _, kept, _, _, failed⟩ := starts_halted_rule
    (fun _ _ _ t => Warned t.kernel)
    (fun _ _ _ _ _ _ _ _ held _ done => spawn_entry_warned held done) halted (fun _ => held)
  exact request_halted_reaps (not_started_warned entry kept).reaps failed

theorem child_exit_halted_reaps {answer : ExitAnswer} {s : State} {stop : Stop}
    (judging : Judging answer.wait.results s) (failed : handleChildExit answer s = .error stop) :
    Justified ReapedSignalled stop.state.kernel.log := by
  rcases handle_child_exit_error failed with looped | ⟨r, t, looped, halted⟩
  · have stopped := reap_loop_error (fun rest _ t => Judging rest t)
      (fun _ _ _ _ _ _ held done => reap_one_judging held done) judging looped
    rcases stopped with ⟨w, _, _, t, held, stopped⟩ | ⟨_, _, _, held, _⟩
    · obtain ⟨_, _, same⟩ := reap_one_error held.exact.tracked.nodup stopped
      rw [same]
      exact ⟨held.ahead w List.mem_cons_self, held.warned.reaps⟩
    · exact held.warned.reaps
  · have reaped := (reap_loop_rule (fun rest _ t => Judging rest t)
      (fun _ _ _ _ _ _ held done => reap_one_judging held done) judging looped).1.warned
    rcases halted with ⟨_, halted⟩ | ⟨u, requested, _, unmade, same⟩
    · exact request_halted_reaps reaped.reaps halted
    · obtain ⟨k, shape, log, _⟩ := setup_safe_mode_failed unmade
      rw [same, shape]
      dsimp only
      rw [log]
      rcases request_safe_mode_cases requested with ⟨_, rfl⟩ | ⟨_, q, _, _, _, _, rfl⟩
      · exact reaped.reaps
      · exact (requested_warned q _ reaped).reaps

theorem run_reaps_signalled {table : BootTable} {trace : List (System × Event)} {sys : System}
    (run : InitRun table trace sys)
    (dies : Meets (fun sys event => DiesSignalled sys.state event) trace) :
    Justified ReapedSignalled sys.state.kernel.log := by
  refine init_run_outcome DiesSignalled (fun s => ListExact s ∧ Warned s.kernel)
    (fun s => Justified ReapedSignalled s.kernel.log) run dies
    (fun _ _ booted intact => ⟨boot_exact booted intact, boot_warned booted intact⟩)
    (fun _ _ _ held dies stepped =>
      ⟨state_step_exact held.1 stepped, state_step_warned held.1 held.2 dies stepped⟩)
    (fun _ held => held.2.reaps) ?_ ?_
  · intro answer first halt booted halted
    obtain ⟨s, pid, stop, watched, free, failed, rfl⟩ := boot_halted booted halted
    exact starts_halted_reaps failed (boots_warned watched free)
  · intro s event s' held dies stopped
    cases stopped with
    | same => exact held.2.reaps
    | childExit lawful chld failed =>
      exact child_exit_halted_reaps (child_exit_judging held.1 held.2 lawful chld dies) failed
    | maintenance failed =>
      cases stage_maintenance_error failed with
      | starting _ _ before halted =>
        exact starts_halted_reaps halted (retimed_kernel before ▸ held.2)
      | shuttingDown _ _ halted => exact starts_halted_reaps halted held.2
      | exitTwice done _ _ assertion =>
        rw [assertion]
        exact (maintained_warned held.2 (advance_stage_maintained done)).reaps

def SignalledDeath (log : List Effect) : Prop :=
  ∃ later pid status past, log = later ++ .reap pid status :: past ∧
    SafeFailure past (.reap pid status) ∧ Signalled pid past

theorem failed_signalled {log : List Effect} (failed : Failed log)
    (reaps : Justified ReapedSignalled log)
    (forked : ∀ e result, .fork e result ∈ log → 0 < result) : SignalledDeath log := by
  induction log with
  | nil => exact failed.elim
  | cons effect past ih =>
    rcases failed with failure | earlier
    · cases effect with
      | fork e result => exact absurd (forked e result List.mem_cons_self) failure.2
      | reap pid status => exact ⟨[], pid, status, past, rfl, failure, reaps.1 failure.1 failure.2⟩
      | _ => exact failure.elim
    · obtain ⟨later, pid, status, before, split, facts⟩ := ih earlier reaps.2
        (fun e result member => forked e result (List.mem_cons_of_mem _ member))
      exact ⟨effect :: later, pid, status, before, by rw [split]; rfl, facts⟩

theorem death_failed {log : List Effect} (death : SignalledDeath log) : Failed log := by
  obtain ⟨later, pid, status, past, rfl, failure, _⟩ := death
  induction later with
  | nil => exact Or.inl failure
  | cons _ _ ih => exact Or.inr ih

/-- If safe processes end abnormally only after init has signalled them and every
    fork succeeds, start_safe_mode is called only after a safe process that init had
    signalled was reaped with an abnormal status, and it is then called unless init
    halts first. -/
theorem safe_mode_only_for_signalled_deaths {table : BootTable} {trace : List (System × Event)}
    {sys : System} (run : InitRun table trace sys)
    (dies : Meets (fun sys event => DiesSignalled sys.state event) trace)
    (forked : ∀ e result, .fork e result ∈ sys.state.kernel.log → 0 < result) :
    (SafeModeCalled sys → SignalledDeath sys.state.kernel.log) ∧
    (sys.control.intact → SignalledDeath sys.state.kernel.log → SafeModeCalled sys) := by
  constructor
  · intro called
    exact failed_signalled (called_failed run called) (run_reaps_signalled run dies) forked
  · intro intact death
    exact Or.inl ((run_answered run intact).2.mp (death_failed death))

def forkFailed : Effect → Bool
  | .fork _ result => !decide (0 < result)
  | _ => false

theorem forks_succeeded {log : List Effect} (all : ∀ effect ∈ log, forkFailed effect = false) :
    ∀ e result, .fork e result ∈ log → 0 < result := by
  intro e result member
  simpa [forkFailed] using all _ member

def terminated : WaitStatus := .signaled 15 (by decide)

def diesOfSigterm : List Event :=
  handled .signal termSignal [] ++ [.env (.childDies 11 terminated)] ++
    handled .signal (childSignal [(11, terminated)] (-1)) []

theorem safe_mode_for_terminated_service : ∃ trace sys, InitRun sampleTable trace sys ∧
    SafeModeCalled sys ∧ SignalledDeath sys.state.kernel.log := by
  obtain ⟨run, rehearsed, asked, dies, forked⟩ :
      ∃ run ∈ rehearse sampleTable sampleBoot diesOfSigterm,
      .request 0 false ∈ run.2.state.kernel.log ∧ (∀ x ∈ run.1, DiesSignalled x.1.state x.2) ∧
      ∀ effect ∈ run.2.state.kernel.log, forkFailed effect = false := by
    decide +kernel
  have reached := init_run_of_rehearse rehearsed
  have called : SafeModeCalled run.2 := Or.inl ⟨0, false, asked⟩
  exact ⟨run.1, run.2, reached, called,
    (safe_mode_only_for_signalled_deaths reached dies (forks_succeeded forked)).1 called⟩

/-- The same run: every death followed a signal of init and every fork succeeded,
    and safe mode is on. -/
theorem orderly_shutdown_starts_safe_mode : ∃ trace sys, InitRun sampleTable trace sys ∧
    (∀ x ∈ trace, DiesSignalled x.1.state x.2) ∧
    (∀ e result, .fork e result ∈ sys.state.kernel.log → 0 < result) ∧
    SafeModeCalled sys ∧ sys.state.safeModeOn = true := by
  obtain ⟨run, rehearsed, asked, on, dies, forked⟩ :
      ∃ run ∈ rehearse sampleTable sampleBoot diesOfSigterm,
      .request 0 false ∈ run.2.state.kernel.log ∧ run.2.state.safeModeOn = true ∧
      (∀ x ∈ run.1, DiesSignalled x.1.state x.2) ∧
      ∀ effect ∈ run.2.state.kernel.log, forkFailed effect = false := by
    decide +kernel
  exact ⟨run.1, run.2, init_run_of_rehearse rehearsed, dies, forks_succeeded forked,
    Or.inl ⟨0, false, asked⟩, on⟩

end OrderlyShutdown
