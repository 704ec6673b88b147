import UNit.SafeModeRequests
import UNit.StateMoves
import UNit.TagSubstitution

/-!
What the safe-mode application is told, over whole runs. The history alone says
what has to be requested: the entry that could not be forked just before, or
what the wait results since the last other event add up to. A request is made
exactly then, and at once; the record says just that, and a pipe holds the
records sent to it and nothing else, so that the application hears of the first
failure its placeholder was told.
-/
namespace SafeModeCauses
open InittabEntries SafeModeRecord ProcessHistory EventHistory KernelModel InitState ProcessStart
  ChildExit StageControl MainLoop LabelledRuns TrackedChildren ReapedBatch StateMoves Cmdline
  DecimalText SafeModeCommand SafeModeRequests

/-- The failed safe processes of the last wait results: the name of the last one
    and the signal of the last one that was killed, or 0. -/
def deceased : List Effect → Option (List UInt8 × Int)
  | .reap pid status :: past =>
    match findProcess pid (live past) with
    | none => deceased past
    | some p =>
      if SafeKind p.config ∧ status.abnormal = true then
        some (p.config.processName,
          if status.wifsignaled then status.wtermsig else ((deceased past).map Prod.snd).getD 0)
      else deceased past
  | .pendingDecreased _ :: past => deceased past
  | _ => none

def due : List Effect → Option SharedInfo
  | .fork entry result :: _ =>
    if isSafeEntry entry = true ∧ ¬ 0 < result then some (fillSharedInfo entry.processName (-1))
    else none
  | past => (deceased past).map (fun d => fillSharedInfo d.1 d.2)

/-- A request is made when one is due, its record says what is due, and as long
    as one is due nothing else happens; only further wait results may come
    first. -/
def Told (past : List Effect) : Effect → Prop
  | .request _ _ => due past ≠ none
  | .record q info => ∃ consumed before, past = .request q consumed :: before ∧
      due before = some info
  | .reap _ _ => deceased past = none → due past = none
  | .pendingDecreased _ => deceased past = none → due past = none
  | _ => due past = none

theorem due_of_deceased {past : List Effect} {name : List UInt8} {sig : Int}
    (gathered : deceased past = some (name, sig)) : due past = some (fillSharedInfo name sig) := by
  unfold due
  split
  · simp [deceased] at gathered
  · rw [gathered, Option.map_some]

theorem due_unforked {entry : InittabEntry} (safe : isSafeEntry entry = true)
    (past : List Effect) : due (.fork entry (-1) :: past) =
      some (fillSharedInfo entry.processName (-1)) := by
  simp [due, safe]

theorem due_reaped {past : List Effect} {pid : Int} {status : WaitStatus} :
    due (.reap pid status :: past) =
      (deceased (.reap pid status :: past)).map (fun d => fillSharedInfo d.1 d.2) := rfl

structure Prompt (log : List Effect) : Prop where
  told : Justified Told log
  settled : due log = none

theorem prompt_kill (pid : Int) (signal : KillSignal) (log : List Effect) :
    Prompt (.kill pid signal :: log) ↔ Prompt log := by
  constructor
  · intro held
    exact ⟨held.told.2, held.told.1⟩
  · intro held
    exact ⟨⟨held.settled, held.told⟩, rfl⟩

theorem prompt_command {log : List Effect} (command : RebootCommand) (held : Prompt log) :
    Prompt (.shutdownCommand command :: log) :=
  ⟨⟨held.settled, held.told⟩, rfl⟩

theorem prompt_placeholder {log : List Effect} (entry : InittabEntry) (pid : Int) (q : Nat)
    (held : Prompt log) : Prompt (.placeholder entry pid q :: log) :=
  ⟨⟨held.settled, held.told⟩, rfl⟩

theorem prompt_forked {log : List Effect} {entry : InittabEntry} {result : Int}
    (held : Prompt log) (fine : isSafeEntry entry = false ∨ 0 < result) :
    Prompt (.fork entry result :: log) := by
  refine ⟨⟨held.settled, held.told⟩, ?_⟩
  rcases fine with plain | forked
  · simp [due, plain]
  · simp [due, forked]

theorem prompt_recorded {log : List Effect} {q : Nat} {consumed : Bool} {info : SharedInfo}
    (told : Justified Told log) (asked : due log = some info) :
    Prompt (.record q info :: .request q consumed :: log) := by
  refine ⟨⟨⟨consumed, log, rfl, asked⟩, ?_, told⟩, rfl⟩
  simp [Told, asked]

section Loop

structure Gathering (r : Reaping) (log : List Effect) : Prop where
  told : Justified Told log
  asked : r.startSafeProcess = true → deceased log = some (r.processName, r.signal)
  quiet : r.startSafeProcess = false → deceased log = none ∧ due log = none ∧ r.signal = 0

theorem gathering_waits {r : Reaping} {log : List Effect} (held : Gathering r log) :
    deceased log = none → due log = none := by
  intro nothing
  cases asked : r.startSafeProcess with
  | false => exact (held.quiet asked).2.1
  | true =>
    rw [held.asked asked] at nothing
    cases nothing

theorem gathering_signal {r : Reaping} {log : List Effect} (held : Gathering r log) :
    ((deceased log).map Prod.snd).getD 0 = r.signal := by
  cases asked : r.startSafeProcess with
  | false =>
    obtain ⟨nothing, _, zero⟩ := held.quiet asked
    rw [nothing, zero]
    rfl
  | true =>
    rw [held.asked asked]
    rfl

theorem gathering_counted {r : Reaping} {log : List Effect} {pid : Int} {status : WaitStatus}
    (value : UInt32) (held : Gathering r (.reap pid status :: log)) :
    Gathering r (.pendingDecreased value :: .reap pid status :: log) :=
  ⟨⟨gathering_waits held, held.told⟩, held.asked,
    fun quiet => ⟨(held.quiet quiet).1, (held.quiet quiet).2.1, (held.quiet quiet).2.2⟩⟩

theorem gathering_passed {r r' : Reaping} {log : List Effect} {pid : Int} {status : WaitStatus}
    (held : Gathering r log) (same : deceased (.reap pid status :: log) = deceased log)
    (asks : r'.startSafeProcess = r.startSafeProcess) (name : r'.processName = r.processName)
    (signal : r'.signal = r.signal) : Gathering r' (.reap pid status :: log) := by
  refine ⟨⟨gathering_waits held, held.told⟩, ?_, ?_⟩
  · intro asked
    rw [same, name, signal]
    exact held.asked (asks ▸ asked)
  · intro quiet
    obtain ⟨nothing, _, zero⟩ := held.quiet (asks ▸ quiet)
    refine ⟨same.trans nothing, ?_, signal.trans zero⟩
    rw [due_reaped, same, nothing, Option.map_none]

theorem gathering_failed {r : Reaping} {log : List Effect} {w : Int × WaitStatus} {p : Process}
    (held : Gathering r log) (found : findProcess w.1 (live log) = some p)
    (safe : SafeKind p.config) (bad : w.2.abnormal = true) :
    Gathering (r.deceased p w.2) (.reap w.1 w.2 :: log) := by
  refine ⟨⟨gathering_waits held, held.told⟩, ?_, by simp [Reaping.deceased]⟩
  intro _
  rw [deceased, found]
  simp only [safe, bad, and_self, ↓reduceIte, gathering_signal held, Reaping.deceased]

theorem gathering_reaped {r r' : Reaping} {s : State} {w : Int × WaitStatus}
    (exact : ListExact s) (held : Gathering r s.kernel.log)
    (verdict : (findProcess w.1 s.runningProcesses = none ∧ r' = r) ∨
      ∃ p, findProcess w.1 s.runningProcesses = some p ∧ judge p w.2 r s = .ok r') :
    Gathering r' (.reap w.1 w.2 :: s.kernel.log) := by
  rw [exact.tracked.as_logged] at verdict
  rcases verdict with ⟨absent, rfl⟩ | ⟨p, found, judged⟩
  · refine gathering_passed held ?_ rfl rfl rfl
    rw [deceased, absent]
  · rcases judge_cases judged with ⟨fine, rfl⟩ | ⟨_, kind, _, rfl⟩ | ⟨bad, safe, kind, rfl⟩
    · refine gathering_passed held ?_ rfl rfl rfl
      have passed : ¬ (SafeKind p.config ∧ w.2.abnormal = true) := by
        rintro ⟨⟨safe, _⟩, bad⟩
        rcases fine with plain | normal
        · simp [plain] at safe
        · simp [normal] at bad
      rw [deceased, found]
      simp only [passed, ↓reduceIte]
    · refine gathering_passed held ?_ rfl rfl rfl
      have passed : ¬ (SafeKind p.config ∧ w.2.abnormal = true) := fun failed => failed.1.2 kind
      rw [deceased, found]
      simp only [passed, ↓reduceIte]
    · exact gathering_failed held found ⟨safe, kind⟩ bad

theorem reap_one_gathering {w : Int × WaitStatus} {r r' : Reaping} {s t : State}
    (exact : ListExact s) (held : Gathering r s.kernel.log)
    (done : reapOne w r s = .ok (r', t)) : Gathering r' t.kernel.log := by
  obtain ⟨rfl, verdict⟩ := reap_one_cases exact.tracked.nodup done
  have reaped := gathering_reaped exact held verdict
  obtain ⟨_, log, shape, noted⟩ := reaped_frame s w (findProcess w.1 s.runningProcesses)
  rw [shape]
  rcases noted with rfl | ⟨value, rfl⟩
  · exact reaped
  · exact gathering_counted value reaped

theorem gathering_start {log : List Effect} (held : Prompt log) :
    Gathering .initial log := by
  have nothing : deceased log = none := by
    by_contra asking
    obtain ⟨⟨name, sig⟩, gathered⟩ := Option.ne_none_iff_exists'.mp asking
    have asked := due_of_deceased gathered
    rw [held.settled] at asked
    cases asked
  exact ⟨held.told, by simp [Reaping.initial], fun _ => ⟨nothing, held.settled, rfl⟩⟩

end Loop

theorem retimed_log {s t : State} (same : Retimed s t) : t.kernel.log = s.kernel.log := by
  obtain ⟨_, _, _, _, _, rfl⟩ := same
  rfl

theorem spawn_entry_prompt {answer : SpawnAnswer} {entry : InittabEntry} {has has' : Bool}
    {s t : State} (held : Prompt s.kernel.log)
    (done : spawnEntry answer entry has s = .ok (has', t)) : Prompt t.kernel.log := by
  rcases spawn_entry_cases done with
    ⟨pid, free, _, rfl⟩ | ⟨_, safe, q, _, _, _, _, rfl⟩ | ⟨_, plain, rfl⟩
  · have positive : 0 < pid := by
      have := free.1
      omega
    exact prompt_forked held (.inr positive)
  · rw [requested_log]
    exact prompt_recorded ⟨held.settled, held.told⟩ (due_unforked safe s.kernel.log)
  · exact prompt_forked held (.inl plain)

theorem starts_prompt {answer : StartAnswer} {list : List InittabEntry} {s t : State}
    (held : Prompt s.kernel.log) (starts : Starts answer list s t) : Prompt t.kernel.log := by
  obtain ⟨_, _, _, final, kept, same⟩ := starts_rule (fun _ _ _ s => Prompt s.kernel.log)
    (fun _ _ _ _ _ _ _ _ held _ done => spawn_entry_prompt held done) starts (fun _ => held)
  rw [retimed_log same]
  exact kept

theorem reap_loop_gathering {last : WaitEnd} {results : List (Int × WaitStatus)} {r : Reaping}
    {s t : State} (exact : ListExact s) (held : Prompt s.kernel.log)
    (looped : reapLoop last results .initial s = .ok (r, t)) : Gathering r t.kernel.log := by
  have both := reap_loop_rule (fun _ r t => ListExact t ∧ Gathering r t.kernel.log)
    (fun _ _ _ _ _ _ held done =>
      ⟨reap_one_exact held.1 done, reap_one_gathering held.1 held.2 done⟩)
    ⟨exact, gathering_start held⟩ looped
  exact both.1.2

theorem request_prompt {answers : List WriteAnswer} {r : Reaping} {s t : State}
    (held : Gathering r s.kernel.log) (done : requestSafeMode answers r s = .ok t) :
    Prompt t.kernel.log := by
  rcases request_safe_mode_cases done with ⟨quiet, rfl⟩ | ⟨asked, q, _, _, _, _, rfl⟩
  · exact ⟨held.told, (held.quiet quiet).2.1⟩
  · rw [requested_log]
    exact prompt_recorded held.told (due_of_deceased (held.asked asked))

theorem placed_prompt {s : State} (entry : InittabEntry) (pid : Int) (held : Prompt s.kernel.log) :
    Prompt (State.placed (closePreviousPipe s) entry pid).kernel.log := by
  obtain ⟨pipes, closed, _⟩ := close_previous_pipe_frame s
  rw [closed]
  exact prompt_placeholder _ _ _ held

theorem handle_child_exit_prompt {answer : ExitAnswer} {s t : State} (exact : ListExact s)
    (held : Prompt s.kernel.log) (done : handleChildExit answer s = .ok t) :
    Prompt t.kernel.log := by
  obtain ⟨r, u, v, looped, requested, restarted⟩ := handle_child_exit_ok done
  have second := request_prompt (reap_loop_gathering exact held looped) requested
  rcases restart_placeholder_cases restarted with ⟨_, rfl⟩ | ⟨_, pid, _, rfl⟩
  · exact second
  · exact placed_prompt _ pid second

theorem signalled_prompt {k : Kernel} (held : Prompt k.log) (signal : KillSignal)
    (targets : List Process) : Prompt (signalAll signal targets k).log := by
  have same := signal_all_observed Prompt
    (fun pid signal past => propext (prompt_kill pid signal past)) signal targets k
  exact same.mpr held

theorem shutdown_cmd_prompt {s : State} (held : Prompt s.kernel.log) (answer : TimerAnswer)
    (command : RebootCommand) : Prompt (handleShutdownCmd answer command s).kernel.log := by
  rw [retimed_log (handle_shutdown_cmd_retimed answer command s)]
  have noted : Prompt (s.kernel.note (.shutdownCommand command)).log := prompt_command command held
  exact signalled_prompt noted .sigterm s.runningProcesses

theorem expire_prompt {s : State} (held : Prompt s.kernel.log) (t : MainloopTimeout) :
    Prompt (expire t s).kernel.log := by
  rcases expire_cases t s with same | same
  · rw [retimed_log same]
    exact held
  · rw [retimed_log same]
    exact signalled_prompt held .sigkill s.runningProcesses

theorem maintained_prompt {answer : StartAnswer} {s t : State} (held : Prompt s.kernel.log)
    (done : Maintained answer s t) : Prompt t.kernel.log := by
  cases done with
  | unchanged same =>
    rw [retimed_log same]
    exact held
  | started _ _ before starts =>
    refine starts_prompt ?_ starts
    rw [retimed_log before]
    exact held
  | toRun _ _ _ same =>
    rw [retimed_log same]
    exact held
  | toClose _ _ _ same =>
    rw [retimed_log same]
    exact held
  | toShutdown _ _ starts same =>
    rw [retimed_log same]
    refine starts_prompt ?_ starts
    exact held
  | straightToClose _ _ _ same =>
    rw [retimed_log same]
    exact held

theorem state_step_prompt {s t : State} {event : Event} (exact : ListExact s)
    (held : Prompt s.kernel.log) (stepped : StateStep s event t) : Prompt t.kernel.log := by
  cases stepped with
  | env moved => exact (env_frame moved).log ▸ held
  | idle => exact held
  | childExit _ _ done => exact handle_child_exit_prompt exact held done
  | shutdownCmd answer command => exact shutdown_cmd_prompt held _ command
  | expired _ => exact expire_prompt held _
  | maintained _ done => exact maintained_prompt held (stage_maintenance_maintained done)

theorem set_up_prompt {table : BootTable} {s : State} {pid : Int}
    (watched : Retimed (State.initial table) s) :
    Prompt (State.placed (closePreviousPipe s) table.safeModeEntry pid).kernel.log := by
  apply placed_prompt
  rw [retimed_log watched]
  exact ⟨trivial, rfl⟩

theorem boot_prompt {table : BootTable} {answer : BootAnswer} {sys : System}
    (booted : boot table answer = some sys) (intact : sys.control.intact) :
    Prompt sys.state.kernel.log := by
  obtain ⟨s, pid, result, t, watched, _, started, rfl⟩ := boot_intact booted intact
  have ready : Prompt (State.placed (closePreviousPipe s) table.safeModeEntry pid).kernel.log :=
    set_up_prompt watched
  have final : Prompt t.kernel.log := by
    rcases start_processes_cases started with ⟨_, rfl⟩ | starts
    · exact ready
    · refine starts_prompt ?_ starts
      exact ready
  exact final

section Halted

theorem start_safe_mode_error_told {name : List UInt8} {sig : Int} {answers : List WriteAnswer}
    {s : State} {stop : Stop} (told : Justified Told s.kernel.log) (asked : due s.kernel.log ≠ none)
    (failed : startSafeMode name sig answers s = .error stop) :
    Justified Told stop.state.kernel.log := by
  rcases start_safe_mode_error failed with ⟨same, _⟩ | ⟨_, _, _, _, _, same⟩
  · rw [same]
    exact told
  · rw [same]
    exact ⟨asked, told⟩

theorem starts_halted_told {answer : StartAnswer} {list : List InittabEntry} {s : State}
    {stop : Stop} (held : Prompt s.kernel.log) (halted : StartsHalted answer list s stop) :
    Justified Told stop.state.kernel.log := by
  obtain ⟨_, _, entry, _, t, _, kept, _, safe, failed⟩ := starts_halted_rule
    (fun _ _ _ t => Prompt t.kernel.log)
    (fun _ _ _ _ _ _ _ _ held _ done => spawn_entry_prompt held done) halted (fun _ => held)
  have told : Justified Told (State.notStarted t entry).kernel.log := ⟨kept.settled, kept.told⟩
  have asked : due (State.notStarted t entry).kernel.log ≠ none := by
    intro nothing
    have wanted := due_unforked safe t.kernel.log
    exact Option.some_ne_none _ (wanted.symm.trans nothing)
  exact start_safe_mode_error_told told asked failed

theorem handle_child_exit_halted_told {answer : ExitAnswer} {s : State} {stop : Stop}
    (exact : ListExact s) (held : Prompt s.kernel.log)
    (failed : handleChildExit answer s = .error stop) : Justified Told stop.state.kernel.log := by
  rcases handle_child_exit_error failed with looped | ⟨r, t, looped, ⟨asked, halted⟩ | halted⟩
  · have stopped := reap_loop_error (fun _ r t => ListExact t ∧ Gathering r t.kernel.log)
      (fun _ _ _ _ _ _ held done =>
        ⟨reap_one_exact held.1 done, reap_one_gathering held.1 held.2 done⟩)
      ⟨exact, gathering_start held⟩ looped
    rcases stopped with ⟨w, _, r, t, loop, stopped⟩ | ⟨_, _, _, loop, _⟩
    · obtain ⟨_, _, same⟩ := reap_one_error loop.1.tracked.nodup stopped
      rw [same]
      exact ⟨gathering_waits loop.2, loop.2.told⟩
    · exact loop.2.told
  · have loop := reap_loop_gathering exact held looped
    refine start_safe_mode_error_told loop.told ?_ halted
    simp [due_of_deceased (loop.asked asked)]
  · obtain ⟨u, requested, _, unmade, same⟩ := halted
    have second := request_prompt (reap_loop_gathering exact held looped) requested
    obtain ⟨k, shape, log, _⟩ := setup_safe_mode_failed unmade
    rw [same, shape]
    exact log.symm ▸ second.told

theorem maintenance_halted_told {answer : StartAnswer} {s : State} {stop : Stop}
    (held : Prompt s.kernel.log) (halted : MaintenanceHalted answer s stop) :
    Justified Told stop.state.kernel.log := by
  cases halted with
  | starting _ _ before halted =>
    refine starts_halted_told ?_ halted
    rw [retimed_log before]
    exact held
  | shuttingDown _ _ halted =>
    refine starts_halted_told ?_ halted
    exact held
  | exitTwice done _ _ assertion =>
    rw [assertion]
    exact (maintained_prompt held (advance_stage_maintained done)).told

end Halted

theorem run_told {table : BootTable} {trace : List (System × Event)} {sys : System}
    (run : InitRun table trace sys) : Justified Told sys.state.kernel.log := by
  refine init_run_outcome (fun _ _ => True) (fun s => ListExact s ∧ Prompt s.kernel.log)
    (fun s => Justified Told s.kernel.log) run (meets_always trace)
    (fun _ _ booted intact => ⟨boot_exact booted intact, boot_prompt booted intact⟩)
    (fun _ _ _ held _ stepped =>
      ⟨state_step_exact held.1 stepped, state_step_prompt held.1 held.2 stepped⟩)
    (fun _ held => held.2.told) ?_ ?_
  · intro answer first halt booted halted
    obtain ⟨s, pid, stop, watched, _, failed, rfl⟩ := boot_halted booted halted
    refine starts_halted_told ?_ failed
    exact set_up_prompt watched
  · intro s event t held _ stopped
    cases stopped with
    | same => exact held.2.told
    | childExit _ _ failed => exact handle_child_exit_halted_told held.1 held.2 failed
    | maintenance failed =>
      exact maintenance_halted_told held.2 (stage_maintenance_error failed)

theorem run_prompt {table : BootTable} {trace : List (System × Event)} {sys : System}
    (run : InitRun table trace sys) (intact : sys.control.intact) :
    Prompt sys.state.kernel.log := by
  have both := init_run_invariant (fun _ _ => True)
    (fun s => ListExact s ∧ Prompt s.kernel.log) run intact (meets_always trace)
    (fun _ _ booted intact => ⟨boot_exact booted intact, boot_prompt booted intact⟩)
    (fun _ _ _ held _ stepped =>
      ⟨state_step_exact held.1 stepped, state_step_prompt held.1 held.2 stepped⟩)
  exact both.2

def recordTo (q : Nat) : Effect → Option SharedInfo
  | .record p info => if p = q then some info else none
  | _ => none

def recordsTo (q : Nat) (log : List Effect) : List SharedInfo := log.filterMap (recordTo q)

/-- A pipe holds the records sent to it, and no reader has taken what was not
    there. -/
structure Stored (s : State) : Prop where
  data : ∀ q, (s.kernel.pipes q).data =
    (recordsTo q s.kernel.log).reverse.flatMap SharedInfo.bytes
  fresh : ∀ q, s.kernel.pipeCount ≤ q → recordsTo q s.kernel.log = []
  current : ∀ q, s.safeModePipeFd = some q → q < s.kernel.pipeCount
  taken : ∀ q, (s.kernel.pipes q).consumed = true →
    sizeofSharedInfo ≤ (s.kernel.pipes q).data.length

theorem env_pipe_count {k k' : Kernel} {move : EnvMove} (moved : k.env move = some k') :
    k'.pipeCount = k.pipeCount := by
  cases move with
  | childDies pid status =>
    obtain ⟨c, _, rfl⟩ := Option.map_eq_some_iff.mp moved
    cases c.role <;> rfl
  | adopted pid =>
    simp only [Kernel.env] at moved
    split at moved
    · obtain rfl := Option.some.inj moved
      rfl
    · cases moved
  | placeholderReads pid =>
    obtain ⟨q, _, rfl⟩ := placeholder_reads moved
    rfl

theorem stored_frame {s t : State} (held : Stored s)
    (log : ∀ q, recordsTo q t.kernel.log = recordsTo q s.kernel.log)
    (pipes : t.kernel.pipes = s.kernel.pipes) (count : t.kernel.pipeCount = s.kernel.pipeCount)
    (fd : t.safeModePipeFd = s.safeModePipeFd) : Stored t := by
  refine ⟨?_, ?_, ?_, ?_⟩
  · intro q
    rw [pipes, log]
    exact held.data q
  · intro q beyond
    rw [log]
    exact held.fresh q (count ▸ beyond)
  · intro q named
    rw [count]
    exact held.current q (fd ▸ named)
  · intro q
    rw [pipes]
    exact held.taken q

theorem env_stored {s : State} {move : EnvMove} {k : Kernel} (held : Stored s)
    (moved : s.kernel.env move = some k) : Stored { s with kernel := k } := by
  have frame := env_frame moved
  refine ⟨?_, ?_, ?_, ?_⟩
  · intro q
    rw [frame.data, frame.log]
    exact held.data q
  · intro q beyond
    rw [frame.log]
    exact held.fresh q (env_pipe_count moved ▸ beyond)
  · intro q current
    rw [env_pipe_count moved]
    exact held.current q current
  · intro q taken
    rw [frame.data]
    rcases frame.consumed q taken with before | whole
    · exact held.taken q before
    · exact whole

section Requested
variable (s : State) (q : Nat) (info : SharedInfo)

theorem requested_records : recordsTo q (State.requested s q info).kernel.log =
    info :: recordsTo q s.kernel.log := by
  rw [requested_log, recordsTo, List.filterMap_cons_some (b := info) (by simp [recordTo]),
    List.filterMap_cons_none rfl]
  rfl

theorem requested_pipe :
    ((State.requested s q info).kernel.pipes q).data = (s.kernel.pipes q).data ++ info.bytes ∧
    ((State.requested s q info).kernel.pipes q).consumed = (s.kernel.pipes q).consumed := by
  refine ⟨sent_data s.kernel q info, ?_⟩
  simp [State.requested, Kernel.sent, Kernel.note, Kernel.setPipe]

theorem requested_other {p : Nat} (other : p ≠ q) :
    recordsTo p (State.requested s q info).kernel.log = recordsTo p s.kernel.log ∧
    (State.requested s q info).kernel.pipes p = s.kernel.pipes p := by
  constructor
  · rw [requested_log, recordsTo, List.filterMap_cons_none (by simp [recordTo, Ne.symm other]),
      List.filterMap_cons_none rfl]
    rfl
  · simp [State.requested, Kernel.sent, Kernel.note, Kernel.setPipe, other]

end Requested

theorem requested_stored {s : State} {q : Nat} (held : Stored s)
    (pipe : s.safeModePipeFd = some q) (info : SharedInfo) :
    Stored (State.requested s q info) := by
  obtain ⟨added, flag⟩ := requested_pipe s q info
  refine ⟨?_, ?_, held.current, ?_⟩
  · intro p
    by_cases same : p = q
    · subst p
      rw [added, requested_records, held.data, List.reverse_cons, List.flatMap_append,
        List.flatMap_singleton]
    · obtain ⟨records, there⟩ := requested_other s q info same
      rw [there, records]
      exact held.data p
  · intro p beyond
    have known := held.current q pipe
    have other : p ≠ q := by
      rintro rfl
      exact absurd known (Nat.not_lt.mpr beyond)
    rw [(requested_other s q info other).1]
    exact held.fresh p beyond
  · intro p
    by_cases same : p = q
    · subst p
      intro taken
      have before := held.taken q (flag ▸ taken)
      rw [added, List.length_append]
      omega
    · rw [(requested_other s q info same).2]
      exact held.taken p

theorem placed_stored {s : State} (entry : InittabEntry) (pid : Int) (held : Stored s) :
    Stored (State.placed (closePreviousPipe s) entry pid) := by
  obtain ⟨pipes, closed, same⟩ := close_previous_pipe_frame s
  rw [closed]
  have log : ∀ q, recordsTo q (.placeholder entry pid s.kernel.pipeCount :: s.kernel.log) =
      recordsTo q s.kernel.log := fun _ => rfl
  have fresh := held.fresh s.kernel.pipeCount (Nat.le_refl _)
  refine ⟨?_, ?_, ?_, ?_⟩
  · intro q
    by_cases new : q = s.kernel.pipeCount
    · subst q
      simp [State.placed, Kernel.note, Kernel.spawned, Kernel.pipe2, Kernel.setPipe, Pipe.fresh,
        log, fresh]
    · have before := held.data q
      simpa [State.placed, Kernel.note, Kernel.spawned, Kernel.pipe2, Kernel.setPipe, new,
        log, (same q).1] using before
  · intro q beyond
    exact held.fresh q (Nat.le_of_succ_le beyond)
  · intro q current
    obtain rfl : s.kernel.pipeCount = q := Option.some.inj current
    exact Nat.lt_succ_self _
  · intro q
    by_cases new : q = s.kernel.pipeCount
    · subst q
      simp [State.placed, Kernel.note, Kernel.spawned, Kernel.pipe2, Kernel.setPipe, Pipe.fresh]
    · have before := held.taken q
      simpa [State.placed, Kernel.note, Kernel.spawned, Kernel.pipe2, Kernel.setPipe, new,
        (same q).1, (same q).2] using before

theorem signalled_stored {s t : State} {k : Kernel} (held : Stored s) (signal : KillSignal)
    (log : ∀ q, recordsTo q k.log = recordsTo q s.kernel.log) (pipes : k.pipes = s.kernel.pipes)
    (count : k.pipeCount = s.kernel.pipeCount) (fd : t.safeModePipeFd = s.safeModePipeFd)
    (kernel : t.kernel = signalAll signal s.runningProcesses k) : Stored t := by
  have shape := signal_all_kernel signal s.runningProcesses k
  refine stored_frame held ?_ ?_ ?_ fd
  · intro q
    have blind := signal_all_observed (recordsTo q) (fun _ _ _ => rfl) signal s.runningProcesses k
    rw [kernel, blind, log]
  · rw [kernel, shape]
    exact pipes
  · rw [kernel, shape]
    exact count

theorem move_stored {s t : State} (held : Stored s) (move : Move s t) : Stored t := by
  cases move with
  | env moved => exact env_stored held moved
  | retimed same =>
    obtain ⟨_, _, _, _, _, rfl⟩ := same
    exact ⟨held.data, held.fresh, held.current, held.taken⟩
  | recounted => exact ⟨held.data, held.fresh, held.current, held.taken⟩
  | restaged => exact ⟨held.data, held.fresh, held.current, held.taken⟩
  | started entry _ _ => exact stored_frame held (fun _ => rfl) rfl rfl rfl
  | notStarted entry => exact stored_frame held (fun _ => rfl) rfl rfl rfl
  | requested pipe info => exact requested_stored held pipe info
  | placed _ => exact placed_stored _ _ held
  | reaped w =>
    obtain ⟨_, log, shape, noted⟩ := reaped_frame s w (findProcess w.1 s.runningProcesses)
    rw [shape]
    refine stored_frame held ?_ rfl rfl rfl
    intro q
    rcases noted with rfl | ⟨_, rfl⟩
    · rfl
    · rfl
  | commanded command =>
    exact signalled_stored (k := s.kernel.note (.shutdownCommand command)) held .sigterm
      (fun _ => rfl) rfl rfl rfl rfl
  | killed _ => exact signalled_stored held .sigkill (fun _ => rfl) rfl rfl rfl rfl

theorem run_stored {table : BootTable} {trace : List (System × Event)} {sys : System}
    (run : InitRun table trace sys) (intact : sys.control.intact) : Stored sys.state := by
  refine run_move_rule Stored run intact ?_ (fun _ _ _ held move => move_stored held move)
  refine ⟨?_, ?_, ?_, ?_⟩ <;>
    simp [State.initial, Kernel.initial, Pipe.absent, recordsTo]

theorem deceased_signal {past : List Effect} {d : List UInt8 × Int}
    (gathered : deceased past = some d) : 0 ≤ d.2 ∧ d.2 < 128 := by
  fun_induction deceased past generalizing d with
  | case1 pid status past absent ih => exact ih gathered
  | case2 pid status past p found failed ih =>
    obtain rfl := Option.some.inj gathered
    cases status with
    | exited code =>
      cases earlier : deceased past with
      | none => simp [WaitStatus.wifsignaled]
      | some other => simpa [WaitStatus.wifsignaled] using ih earlier
    | signaled signo range =>
      simp only [WaitStatus.wifsignaled, WaitStatus.wtermsig, ↓reduceIte]
      omega
  | case3 pid status past p found passed ih => exact ih gathered
  | case4 value past ih => exact ih gathered
  | case5 past _ _ => cases gathered

theorem due_filled {past : List Effect} {info : SharedInfo} (asked : due past = some info) :
    ∃ name sig, info = fillSharedInfo name sig ∧ -2 ^ 31 ≤ sig ∧ sig < 2 ^ 31 := by
  unfold due at asked
  split at asked
  · split at asked
    · obtain rfl := Option.some.inj asked
      exact ⟨_, _, rfl, by decide, by decide⟩
    · cases asked
  · obtain ⟨d, gathered, rfl⟩ := Option.map_eq_some_iff.mp asked
    have range := deceased_signal gathered
    exact ⟨d.1, d.2, rfl, by omega, by omega⟩

theorem received_name (name : List UInt8) (sig : Int) :
    receivedName (fillSharedInfo name sig).bytes =
      (name.take (processNameSize - 1)).takeWhile (fun c => c ≠ 0) := by
  generalize sent : name.take (processNameSize - 1) = text
  have room : text.length < processNameSize := by
    rw [← sent, List.length_take, processNameSize]
    omega
  have filled : (text ++ List.replicate (processNameSize - text.length) 0).length =
      processNameSize := by
    rw [List.length_append, List.length_replicate]
    omega
  obtain ⟨more, rest⟩ : ∃ more, processNameSize - text.length = more + 1 :=
    ⟨processNameSize - text.length - 1, by omega⟩
  rw [receivedName, fillSharedInfo, sent, SharedInfo.bytes, List.take_left' filled,
    Lexer.cString, List.drop_zero, rest, List.replicate_succ, List.takeWhile_append]
  split
  · rename_i all
    have whole := (List.takeWhile_prefix (fun c : UInt8 => decide (c ≠ 0))).eq_of_length all
    rw [List.takeWhile_cons_of_neg (by simp), List.append_nil, whole]
  · rfl

theorem first_record {q : Nat} {log : List Effect} {newer : List SharedInfo} {info : SharedInfo}
    (listed : recordsTo q log = newer ++ [info]) :
    ∃ later past, log = later ++ .record q info :: past ∧ recordsTo q past = [] := by
  obtain ⟨front, back, rfl, _, one⟩ := List.filterMap_eq_append_iff.mp listed
  obtain ⟨between, effect, past, rfl, _, named, rest⟩ := List.filterMap_eq_cons_iff.mp one
  have same : effect = .record q info := by
    cases effect with
    | record p other =>
      simp only [recordTo] at named
      split at named
      · rename_i here
        rw [here, Option.some.inj named]
      · cases named
    | _ => cases named
  exact ⟨front ++ between, past, by simp [same], rest⟩

theorem taken_record {q : Nat} {s : State} {newer : List SharedInfo} {info : SharedInfo}
    (held : Stored s) (whole : info.bytes.length = sizeofSharedInfo)
    (listed : recordsTo q s.kernel.log = newer ++ [info]) :
    (s.kernel.pipes q).data.take sizeofSharedInfo = info.bytes := by
  rw [held.data, listed, List.reverse_append, List.reverse_singleton, List.singleton_append,
    List.flatMap_cons, List.take_left' whole]

/-- In every run a request is made only when the history asks for one, and its
    record says what the history says; unless init has halted, no request is left
    to be made. A placeholder that has taken its record was told of the first
    failure after which its pipe was written to, and this is what its application
    gets for the tags. -/
theorem safe_mode_told {table : BootTable} {trace : List (System × Event)} {sys : System}
    (run : InitRun table trace sys) :
    Justified Told sys.state.kernel.log ∧
    (sys.control.intact → due sys.state.kernel.log = none ∧
      ∀ q, (sys.state.kernel.pipes q).consumed = true →
        ∃ later past consumed name sig,
          sys.state.kernel.log =
            later ++ .record q (fillSharedInfo name sig) :: .request q consumed :: past ∧
          recordsTo q past = [] ∧ due past = some (fillSharedInfo name sig) ∧
          ∀ strdup safeModeCmd contents, parseCmdline strdup safeModeCmd = some contents →
            safeModeExec strdup true safeModeCmd
              ((sys.state.kernel.pipes q).data.take sizeofSharedInfo) =
              some ⟨contents.argStrings.map (substituteTag
                ((name.take (processNameSize - 1)).takeWhile (fun c => c ≠ 0))
                (some (formatInt sig))), contents.envStrings⟩) := by
  have told := run_told run
  refine ⟨told, ?_⟩
  intro intact
  have stored := run_stored run intact
  refine ⟨(run_prompt run intact).settled, ?_⟩
  intro q taken
  have nonempty : recordsTo q sys.state.kernel.log ≠ [] := by
    intro nothing
    have room := stored.taken q taken
    rw [stored.data, nothing, sizeofSharedInfo] at room
    simp [processNameSize] at room
  obtain ⟨newer, info, listed⟩ := (List.eq_nil_or_concat _).resolve_left nonempty
  rw [List.concat_eq_append] at listed
  obtain ⟨later, past, split, unsent⟩ := first_record listed
  obtain ⟨consumed, before, rfl, asked⟩ := justified_iff.mp told later _ past split
  obtain ⟨name, sig, rfl, low, high⟩ := due_filled asked
  refine ⟨later, before, consumed, name, sig, split, unsent, asked, ?_⟩
  intro strdup safeModeCmd contents parsed
  rw [taken_record stored (fill_bytes_length name sig) listed]
  simp only [safeModeExec, parsed, ↓reduceIte, received_name,
    received_signal_sent name ⟨low, high⟩]

theorem safe_mode_told_of_crash : ∃ trace sys, InitRun sampleTable trace sys ∧
    safeModeExec true true (ascii "/bin/rescue <proc> <exitcode>")
      ((sys.state.kernel.pipes 0).data.take sizeofSharedInfo) =
        some ⟨[ascii "/bin/rescue", [97], ascii "11"], []⟩ := by
  obtain ⟨run, rehearsed, waiting, consumed, only⟩ : ∃ run ∈ rehearse sampleTable sampleBoot
      (.env (.childDies 11 crashed) :: handled .signal (childSignal [(11, crashed)] (-1)) [] ++
        [.env (.placeholderReads 10)]),
      run.2.control = .waiting ∧ (run.2.state.kernel.pipes 0).consumed = true ∧
      ∀ e ∈ run.2.state.kernel.log,
        recordTo 0 e = none ∨ recordTo 0 e = some (fillSharedInfo [97] 11) := by
    decide +kernel
  have reached := init_run_of_rehearse rehearsed
  obtain ⟨_, told⟩ := safe_mode_told reached
  obtain ⟨later, past, _, name, sig, split, _, _, executed⟩ :=
    (told (waiting_intact waiting)).2 0 consumed
  obtain ⟨contents, parsed, arguments, environment⟩ :
      ∃ contents, parseCmdline true (ascii "/bin/rescue <proc> <exitcode>") = some contents ∧
        contents.argStrings = [ascii "/bin/rescue", ascii "<proc>", ascii "<exitcode>"] ∧
        contents.envStrings = [] := by
    refine ⟨_, rfl, ?_, ?_⟩ <;> decide +kernel
  have sent : recordTo 0 (.record 0 (fillSharedInfo name sig)) = none ∨
      recordTo 0 (.record 0 (fillSharedInfo name sig)) = some (fillSharedInfo [97] 11) :=
    only _ (by simp [split])
  have same : fillSharedInfo name sig = fillSharedInfo [97] 11 := by
    simpa [recordTo] using sent
  obtain ⟨cut, number⟩ := SharedInfo.mk.inj same
  refine ⟨run.1, run.2, reached, ?_⟩
  rw [executed true _ contents parsed, cut, number, arguments, environment]
  decide +kernel

end SafeModeCauses
