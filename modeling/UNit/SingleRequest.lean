import UNit.SafeModeRequests

/-!
One request for each placeholder, in the runs in which no safe process fails
after a record has been sent. The whole history is bounded then: safe mode is
switched on by the only record there is, and it is written while the pipe is
still empty and unread. The bound also holds of the state in which init halts.
-/
namespace SingleRequest
open InittabEntries SafeModeRecord ProcessHistory EventHistory KernelModel InitState ProcessStart
  ChildExit StageControl MainLoop LabelledRuns TrackedChildren ReapedBatch SafeModeKeeping
  SafeModeRequests

def isRecordTo (q : Nat) : Effect → Bool
  | .record q' _ => q' == q
  | _ => false

def recordCount (q : Nat) (log : List Effect) : Nat := log.countP (isRecordTo q)

/-- At most one record for each pipe, nothing beyond it, and no request to a
    reader that has taken its record. -/
structure SingleRequests (k : Kernel) : Prop where
  once : ∀ q, recordCount q k.log ≤ 1
  bounded : ∀ q, (k.pipes q).data.length ≤ sizeofSharedInfo
  unread : ∀ q consumed, .request q consumed ∈ k.log → consumed = false

/-- A safe process fails only as long as no record was sent. -/
def NoLateFailure (past : List Effect) (effect : Effect) : Prop :=
  SafeFailure past effect → ∀ q info, .record q info ∉ past

def isRecord : Effect → Bool
  | .record _ _ => true
  | _ => false

instance (past : List Effect) (effect : Effect) : Decidable (NoLateFailure past effect) :=
  decidable_of_iff (SafeFailure past effect → ∀ e ∈ past, isRecord e = false) (by
    have none : (∀ e ∈ past, isRecord e = false) ↔ ∀ q info, .record q info ∉ past := by
      constructor
      · intro all q info member
        simpa [isRecord] using all _ member
      · intro absent e member
        cases e with
        | record q info => exact absurd member (absent q info)
        | _ => rfl
    rw [NoLateFailure, none])

def isRequest : Effect → Bool
  | .request _ _ => true
  | .record _ _ => true
  | _ => false

structure LogSingle (on : Bool) (log : List Effect) : Prop where
  silent : on = false → ∀ q info, .record q info ∉ log
  noted : on = true → ∃ q info, .record q info ∈ log
  unread : ∀ q consumed, .request q consumed ∈ log → consumed = false
  once : ∀ q, recordCount q log ≤ 1

structure PipesSingle (on : Bool) (pipes : Nat → Pipe) : Prop where
  empty : on = false → ∀ q, (pipes q).data = []
  taken : ∀ q, (pipes q).consumed = true → sizeofSharedInfo ≤ (pipes q).data.length
  bounded : ∀ q, (pipes q).data.length ≤ sizeofSharedInfo

structure Single (s : State) : Prop where
  log : LogSingle s.safeModeOn s.kernel.log
  pipes : PipesSingle s.safeModeOn s.kernel.pipes

theorem single_requests {s : State} (held : Single s) : SingleRequests s.kernel :=
  ⟨held.log.once, held.pipes.bounded, held.log.unread⟩

theorem log_single_plain {on : Bool} {log : List Effect} {effect : Effect}
    (plain : isRequest effect = false) : LogSingle on (effect :: log) ↔ LogSingle on log := by
  have record : ∀ q info, .record q info ∈ effect :: log ↔ .record q info ∈ log := by
    intro q info
    cases effect <;> simp_all [isRequest]
  have request : ∀ q consumed, .request q consumed ∈ effect :: log ↔
      .request q consumed ∈ log := by
    intro q consumed
    cases effect <;> simp_all [isRequest]
  have count : ∀ q, recordCount q (effect :: log) = recordCount q log := by
    intro q
    cases effect <;> simp_all [isRequest, recordCount, isRecordTo]
  constructor
  · intro held
    exact ⟨fun off q info => by rw [← record]; exact held.silent off q info,
      fun on => by simpa only [record] using held.noted on,
      fun q c member => held.unread q c ((request q c).mpr member),
      fun q => count q ▸ held.once q⟩
  · intro held
    exact ⟨fun off q info => by rw [record]; exact held.silent off q info,
      fun on => by simpa only [record] using held.noted on,
      fun q c member => held.unread q c ((request q c).mp member),
      fun q => (count q).symm ▸ held.once q⟩

theorem pipes_single_frame {on : Bool} {pipes pipes' : Nat → Pipe} (held : PipesSingle on pipes)
    (data : ∀ q, (pipes' q).data = (pipes q).data)
    (consumed : ∀ q, (pipes' q).consumed = true →
      (pipes q).consumed = true ∨ sizeofSharedInfo ≤ (pipes q).data.length) :
    PipesSingle on pipes' := by
  refine ⟨?_, ?_, ?_⟩
  · intro off q
    rw [data]
    exact held.empty off q
  · intro q taken
    rw [data]
    rcases consumed q taken with before | whole
    · exact held.taken q before
    · exact whole
  · intro q
    rw [data]
    exact held.bounded q

theorem pipes_single_kept {on : Bool} {pipes pipes' : Nat → Pipe} (held : PipesSingle on pipes)
    (kept : ∀ q, PipeKept (pipes q) (pipes' q)) : PipesSingle on pipes' := by
  refine ⟨?_, ?_, ?_⟩
  · intro off q
    rcases kept q with ⟨same, _⟩ | ⟨empty, _⟩
    · rw [same]
      exact held.empty off q
    · exact empty
  · intro q taken
    rcases kept q with ⟨same, read⟩ | ⟨_, unread⟩
    · rw [same]
      exact held.taken q (read ▸ taken)
    · simp [unread] at taken
  · intro q
    rcases kept q with ⟨same, _⟩ | ⟨empty, _⟩
    · rw [same]
      exact held.bounded q
    · simp [empty]

theorem untouched {s : State} (held : Single s) (silent : ∀ q info, .record q info ∉ s.kernel.log)
    (q : Nat) : s.safeModeOn = false ∧ (s.kernel.pipes q).data = [] ∧
      (s.kernel.pipes q).consumed = false := by
  have off : s.safeModeOn = false := by
    by_contra on
    obtain ⟨q, info, member⟩ := held.log.noted (by simpa using on)
    exact silent q info member
  have empty := held.pipes.empty off q
  refine ⟨off, empty, ?_⟩
  by_contra taken
  have whole := held.pipes.taken q (by simpa using taken)
  simp [empty, sizeofSharedInfo] at whole

theorem record_count_silent {log : List Effect} (silent : ∀ q info, .record q info ∉ log)
    (q : Nat) : recordCount q log = 0 := by
  simp only [recordCount, List.countP_eq_zero]
  intro effect member
  cases effect with
  | record q' info => exact absurd member (silent q' info)
  | _ => simp [isRecordTo]

theorem requested_single {s : State} {q : Nat} {name : List UInt8} {sig : Int}
    (held : Single s) (silent : ∀ q info, .record q info ∉ s.kernel.log) :
    Single (State.requested s q (fillSharedInfo name sig)) := by
  have still := untouched held silent
  have here : ((State.requested s q (fillSharedInfo name sig)).kernel.pipes q).data.length =
      sizeofSharedInfo := by
    simp only [State.requested, sent_data, (still q).2.1, List.nil_append, fill_bytes_length]
  have other : ∀ q', q' ≠ q →
      (State.requested s q (fillSharedInfo name sig)).kernel.pipes q' = s.kernel.pipes q' := by
    intro q' away
    simp [State.requested, Kernel.sent, Kernel.note, Kernel.setPipe, away]
  constructor
  · rw [requested_log]
    refine ⟨by simp [State.requested], fun _ => ⟨q, _, List.mem_cons_self⟩, ?_, ?_⟩
    · intro q' consumed member
      simp only [List.mem_cons, reduceCtorEq, false_or, Effect.request.injEq] at member
      rcases member with ⟨rfl, rfl⟩ | earlier
      · exact (still q').2.2
      · exact held.log.unread q' consumed earlier
    · intro q'
      have none := record_count_silent silent q'
      rw [recordCount] at none
      by_cases same : q = q'
      · simp [recordCount, isRecordTo, none, same]
      · simp [recordCount, isRecordTo, none, same]
  · refine ⟨by simp [State.requested], ?_, ?_⟩
    · intro q' taken
      by_cases same : q' = q
      · rw [same]
        exact Nat.le_of_eq here.symm
      · rw [other q' same] at taken ⊢
        exact held.pipes.taken q' taken
    · intro q'
      by_cases same : q' = q
      · rw [same]
        exact Nat.le_of_eq here
      · rw [other q' same]
        exact held.pipes.bounded q'

theorem failed_request_single {name : List UInt8} {sig : Int} {answers : List WriteAnswer}
    {s : State} {stop : Stop} (held : Single s)
    (silent : ∀ q info, .record q info ∉ s.kernel.log)
    (failed : startSafeMode name sig answers s = .error stop) :
    SingleRequests stop.state.kernel := by
  rcases start_safe_mode_error failed with ⟨same, _⟩ | ⟨q, count, _, _, _, same⟩
  · rw [same]
    exact single_requests held
  · have still := untouched held silent
    rw [same]
    refine ⟨?_, ?_, ?_⟩
    · intro q'
      have none := record_count_silent silent q'
      rw [recordCount] at none
      simp [Kernel.setPipe, Kernel.note, recordCount, isRecordTo, none]
    · intro q'
      by_cases here : q' = q
      · subst q'
        have length := fill_bytes_length name sig
        simp only [Kernel.setPipe, Function.update_self, (still q).2.1, List.nil_append,
          List.length_take, length]
        omega
      · simp only [Kernel.setPipe, Kernel.note, Function.update_of_ne here]
        exact held.pipes.bounded q'
    · intro q' consumed member
      simp only [Kernel.setPipe, Kernel.note, List.mem_cons, Effect.request.injEq] at member
      rcases member with ⟨rfl, rfl⟩ | earlier
      · exact (still q').2.2
      · exact held.log.unread q' consumed earlier

theorem no_failure_justified {past : List Effect} {effect : Effect}
    (fine : ¬ SafeFailure past effect) :
    Justified NoLateFailure (effect :: past) ↔ Justified NoLateFailure past :=
  ⟨And.right, fun held => ⟨fun failure => absurd failure fine, held⟩⟩

/-- The invariant of a run: what it bounds it bounds if no failure came late. -/
structure Careful (s : State) : Prop where
  exact : ListExact s
  single : Justified NoLateFailure s.kernel.log → Single s

theorem retimed_careful {s s' : State} (same : Retimed s s') (held : Careful s) : Careful s' := by
  have exact := retimed_exact same held.exact
  obtain ⟨_, _, _, _, _, rfl⟩ := same
  refine ⟨exact, ?_⟩
  intro justified
  have single := held.single justified
  exact ⟨single.log, single.pipes⟩

theorem not_started_single {s : State} {entry : InittabEntry} (held : Careful s)
    (justified : Justified NoLateFailure (State.notStarted s entry).kernel.log) :
    Single (State.notStarted s entry) ∧ (isSafeEntry entry = true →
      ∀ q info, .record q info ∉ (State.notStarted s entry).kernel.log) := by
  have single := held.single justified.2
  refine ⟨⟨(log_single_plain rfl).mpr single.log, single.pipes⟩, ?_⟩
  intro safe q info member
  have earlier : .record q info ∈ s.kernel.log := by
    simpa [State.notStarted, Kernel.note] using member
  exact justified.1 ⟨safe, by omega⟩ q info earlier

theorem spawn_entry_careful {answer : SpawnAnswer} {entry : InittabEntry} {has has' : Bool}
    {s s' : State} (held : Careful s)
    (done : spawnEntry answer entry has s = .ok (has', s')) : Careful s' := by
  refine ⟨spawn_entry_exact held.exact done, ?_⟩
  intro justified
  rcases spawn_entry_cases done with ⟨pid, free, _, rfl⟩ | ⟨_, safe, q, _, _, _, _, rfl⟩ |
    ⟨_, _, rfl⟩
  · have single := held.single justified.2
    exact ⟨(log_single_plain rfl).mpr single.log, single.pipes⟩
  · rw [requested_log] at justified
    obtain ⟨single, silent⟩ := not_started_single held justified.2.2
    exact requested_single single (silent safe)
  · exact (not_started_single held justified).1

theorem starts_careful {answer : StartAnswer} {list : List InittabEntry} {s s' : State}
    (held : Careful s) (starts : Starts answer list s s') : Careful s' := by
  have entering : Careful { s with pendingFinish := 0 } :=
    ⟨⟨held.exact.tracked, held.exact.kills⟩,
      fun justified => ⟨(held.single justified).log, (held.single justified).pipes⟩⟩
  obtain ⟨_, _, _, final, kept, same⟩ := starts_rule (fun _ _ _ t => Careful t)
    (fun _ _ _ _ _ _ _ _ held _ done => spawn_entry_careful held done) starts
    (fun _ => entering)
  exact retimed_careful same ⟨⟨kept.exact.tracked, kept.exact.kills⟩,
    fun justified => ⟨(kept.single justified).log, (kept.single justified).pipes⟩⟩

structure CarefulLoop (r : Reaping) (s : State) : Prop where
  careful : Careful s
  first : Justified NoLateFailure s.kernel.log → r.startSafeProcess = true →
    ∀ q info, .record q info ∉ s.kernel.log

theorem waited_single {s : State} {w : Int × WaitStatus} (held : Single s) :
    Single { s with kernel := s.kernel.waited w.1 w.2 } :=
  ⟨(log_single_plain rfl).mpr held.log, held.pipes⟩

theorem reap_one_careful {w : Int × WaitStatus} {r r' : Reaping} {s s' : State}
    (held : CarefulLoop r s) (done : reapOne w r s = .ok (r', s')) : CarefulLoop r' s' := by
  have exact := reap_one_exact held.careful.exact done
  obtain ⟨rfl, verdict⟩ := reap_one_cases held.careful.exact.tracked.nodup done
  obtain ⟨pending, log, shape, noted⟩ := reaped_frame s w (findProcess w.1 s.runningProcesses)
  rw [shape] at exact ⊢
  have plain : ∀ q info, .record q info ∈ log ↔ .record q info ∈ s.kernel.log := by
    intro q info
    rcases noted with rfl | ⟨value, rfl⟩ <;> simp
  have reap : Justified NoLateFailure log →
      NoLateFailure s.kernel.log (.reap w.1 w.2) ∧ Justified NoLateFailure s.kernel.log := by
    intro justified
    rcases noted with rfl | ⟨value, rfl⟩
    · exact justified
    · exact justified.2
  refine ⟨⟨exact, ?_⟩, ?_⟩
  · intro justified
    have single := held.careful.single (reap justified).2
    refine ⟨?_, single.pipes⟩
    rcases noted with rfl | ⟨value, rfl⟩
    · exact (log_single_plain rfl).mpr single.log
    · exact (log_single_plain rfl).mpr ((log_single_plain rfl).mpr single.log)
  · intro justified asked q info
    obtain ⟨fine, past⟩ := reap justified
    rw [plain]
    rcases verdict with ⟨_, rfl⟩ | ⟨p, found, judged⟩
    · exact held.first past asked q info
    · obtain ⟨tracked, same⟩ := find_process_some found
      rcases judge_cases judged with ⟨_, rfl⟩ | ⟨_, _, _, rfl⟩ | ⟨bad, safe, kind, _⟩
      · exact held.first past asked q info
      · exact held.first past asked q info
      · have alive : p ∈ live s.kernel.log := held.careful.exact.tracked.as_logged ▸ tracked
        exact fine ⟨bad, p, alive, same, safe, kind⟩ q info

theorem reap_loop_careful {answer : WaitAnswer} {r : Reaping} {s t : State} (held : Careful s)
    (looped : reapLoop answer.last answer.results .initial s = .ok (r, t)) : CarefulLoop r t :=
  (reap_loop_rule (fun _ r t => CarefulLoop r t)
    (fun _ _ _ _ _ _ held done => reap_one_careful held done)
    ⟨held, by simp [Reaping.initial]⟩ looped).1

theorem placed_single {s : State} {entry : InittabEntry} {pid : Int} (held : Single s) :
    Single (State.placed (closePreviousPipe s) entry pid) := by
  obtain ⟨pipes, closed, unread⟩ := close_previous_pipe_frame s
  have before : PipesSingle s.safeModeOn ({ s.kernel with pipes := pipes } : Kernel).pipes :=
    pipes_single_kept held.pipes (fun q => Or.inl (unread q))
  rw [closed]
  exact ⟨(log_single_plain rfl).mpr held.log, pipes_single_kept before (pipe2_kept _)⟩

theorem request_careful {answers : List WriteAnswer} {r : Reaping} {s s' : State}
    (held : CarefulLoop r s) (done : requestSafeMode answers r s = .ok s') : Careful s' := by
  rcases request_safe_mode_cases done with ⟨_, rfl⟩ | ⟨asked, q, _, _, _, _, rfl⟩
  · exact held.careful
  · refine ⟨requested_exact held.careful.exact q _, ?_⟩
    intro justified
    rw [requested_log] at justified
    exact requested_single (held.careful.single justified.2.2) (held.first justified.2.2 asked)

theorem handle_child_exit_careful {answer : ExitAnswer} {s s' : State} (held : Careful s)
    (done : handleChildExit answer s = .ok s') : Careful s' := by
  obtain ⟨r, t, u, looped, requested, restarted⟩ := handle_child_exit_ok done
  have second := request_careful (reap_loop_careful held looped) requested
  rcases restart_placeholder_cases restarted with ⟨_, rfl⟩ | ⟨_, pid, free, rfl⟩
  · exact second
  · refine ⟨placed_exact second.exact _ free, ?_⟩
    obtain ⟨pipes, closed, _⟩ := close_previous_pipe_frame u
    intro justified
    have past : Justified NoLateFailure u.kernel.log := by
      rw [closed] at justified
      exact justified.2
    exact placed_single (second.single past)

def CarefulEnd (s : State) : Prop :=
  Justified NoLateFailure s.kernel.log → SingleRequests s.kernel

theorem careful_end {s : State} (held : Careful s) : CarefulEnd s :=
  fun justified => single_requests (held.single justified)

theorem start_safe_mode_error_justified {name : List UInt8} {sig : Int}
    {answers : List WriteAnswer} {s : State} {stop : Stop}
    (failed : startSafeMode name sig answers s = .error stop)
    (justified : Justified NoLateFailure stop.state.kernel.log) :
    Justified NoLateFailure s.kernel.log := by
  rcases start_safe_mode_error failed with ⟨same, _⟩ | ⟨_, _, _, _, _, same⟩
  · exact same ▸ justified
  · rw [same] at justified
    exact justified.2

theorem starts_halted_careful {answer : StartAnswer} {list : List InittabEntry} {s : State}
    {stop : Stop} (held : Careful s) (halted : StartsHalted answer list s stop) :
    CarefulEnd stop.state := by
  have entering : Careful { s with pendingFinish := 0 } :=
    ⟨⟨held.exact.tracked, held.exact.kills⟩,
      fun justified => ⟨(held.single justified).log, (held.single justified).pipes⟩⟩
  obtain ⟨_, _, entry, _, t, _, kept, _, safe, failed⟩ := starts_halted_rule
    (fun _ _ _ t => Careful t)
    (fun _ _ _ _ _ _ _ _ held _ done => spawn_entry_careful held done) halted
    (fun _ => entering)
  intro justified
  have past := start_safe_mode_error_justified failed justified
  obtain ⟨single, silent⟩ := not_started_single kept past
  exact failed_request_single single (silent safe) failed

theorem handle_child_exit_halted {answer : ExitAnswer} {s : State} {stop : Stop}
    (held : Careful s) (failed : handleChildExit answer s = .error stop) :
    CarefulEnd stop.state := by
  intro justified
  rcases handle_child_exit_error failed with looped | ⟨r, t, looped, ⟨asked, halted⟩ | halted⟩
  · have stopped := reap_loop_error (fun _ r t => CarefulLoop r t)
      (fun _ _ _ _ _ _ held done => reap_one_careful held done)
      ⟨held, by simp [Reaping.initial]⟩ looped
    rcases stopped with ⟨w, _, r, t, loop, stopped⟩ | ⟨_, _, _, loop, _⟩
    · obtain ⟨_, _, same⟩ := reap_one_error loop.careful.exact.tracked.nodup stopped
      rw [same] at justified ⊢
      exact single_requests (waited_single (loop.careful.single justified.2))
    · exact careful_end loop.careful justified
  · have loop := reap_loop_careful held looped
    have past := start_safe_mode_error_justified halted justified
    exact failed_request_single (loop.careful.single past) (loop.first past asked) halted
  · obtain ⟨u, requested, _, unmade, same⟩ := halted
    have second := request_careful (reap_loop_careful held looped) requested
    obtain ⟨k, shape, log, kept⟩ := setup_safe_mode_failed unmade
    rw [same, shape] at justified ⊢
    have single := second.single (log ▸ justified)
    have after : Single { u with kernel := k } :=
      ⟨log.symm ▸ single.log, pipes_single_kept single.pipes kept⟩
    exact single_requests after

theorem signalled_careful {s : State} (held : Careful s) (signal : KillSignal) :
    Careful { s with kernel := signalAll signal s.runningProcesses s.kernel } := by
  refine ⟨signalled_exact held.exact signal, ?_⟩
  have kernel := signal_all_kernel signal s.runningProcesses s.kernel
  have past := signal_all_observed (Justified NoLateFailure)
    (fun _ _ _ => propext (no_failure_justified (by simp [SafeFailure]))) signal
    s.runningProcesses s.kernel
  have log := signal_all_observed (LogSingle s.safeModeOn)
    (fun _ _ _ => propext (log_single_plain rfl)) signal s.runningProcesses s.kernel
  intro justified
  have single := held.single (past ▸ justified)
  constructor
  · exact log.symm ▸ single.log
  · rw [kernel]
    exact single.pipes

theorem shutdown_cmd_careful {s : State} (held : Careful s) (answer : TimerAnswer)
    (command : RebootCommand) : Careful (handleShutdownCmd answer command s) := by
  refine retimed_careful (handle_shutdown_cmd_retimed answer command s) ?_
  have noted : Careful { s with kernel := s.kernel.note (.shutdownCommand command) } := by
    refine ⟨⟨tracked_congr held.exact.tracked rfl rfl, trivial, held.exact.kills⟩, ?_⟩
    intro justified
    have single := held.single justified.2
    exact ⟨(log_single_plain rfl).mpr single.log, single.pipes⟩
  have signalled := signalled_careful noted .sigterm
  refine ⟨⟨signalled.exact.tracked, signalled.exact.kills⟩, ?_⟩
  intro justified
  have single := signalled.single justified
  exact ⟨single.log, single.pipes⟩

theorem expire_careful {s : State} (held : Careful s) (t : MainloopTimeout) :
    Careful (expire t s) := by
  rcases expire_cases t s with same | same
  · exact retimed_careful same held
  · exact retimed_careful same (signalled_careful held .sigkill)

theorem restaged_careful {s : State} (held : Careful s) (stage : Stage)
    (callback : Option PostCallback) :
    Careful { s with currentStage := stage, postIterationCallback := callback } :=
  ⟨⟨held.exact.tracked, held.exact.kills⟩,
    fun justified => ⟨(held.single justified).log, (held.single justified).pipes⟩⟩

theorem maintained_careful {answer : StartAnswer} {s s' : State} (held : Careful s)
    (done : Maintained answer s s') : Careful s' := by
  cases done with
  | unchanged same => exact retimed_careful same held
  | started _ _ before starts => exact starts_careful (retimed_careful before held) starts
  | toRun _ _ _ same => exact retimed_careful same (restaged_careful held .run none)
  | toClose _ _ _ same =>
    exact retimed_careful same (restaged_careful held .close s.postIterationCallback)
  | toShutdown _ _ starts same =>
    have entering := restaged_careful held .shutdown s.postIterationCallback
    exact retimed_careful same (starts_careful entering starts)
  | straightToClose _ _ _ same =>
    exact retimed_careful same (restaged_careful held .close s.postIterationCallback)

theorem maintenance_halted_careful {answer : StartAnswer} {s : State} {stop : Stop}
    (held : Careful s) (halted : MaintenanceHalted answer s stop) : CarefulEnd stop.state := by
  cases halted with
  | starting _ _ before halted =>
    exact starts_halted_careful (retimed_careful before held) halted
  | shuttingDown _ _ halted =>
    exact starts_halted_careful (restaged_careful held .shutdown s.postIterationCallback) halted
  | exitTwice done _ _ assertion =>
    rw [assertion]
    exact careful_end (maintained_careful held (advance_stage_maintained done))

theorem env_careful {s : State} {move : EnvMove} {k : Kernel} (held : Careful s)
    (moved : s.kernel.env move = some k) : Careful { s with kernel := k } := by
  have frame := env_frame moved
  refine ⟨⟨tracked_env held.exact.tracked moved, frame.log ▸ held.exact.kills⟩, ?_⟩
  intro justified
  have single := held.single (frame.log ▸ justified)
  exact ⟨frame.log ▸ single.log, pipes_single_frame single.pipes frame.data frame.consumed⟩

theorem state_step_careful {s s' : State} {event : Event} (held : Careful s)
    (stepped : StateStep s event s') : Careful s' := by
  cases stepped with
  | env moved => exact env_careful held moved
  | idle => exact held
  | childExit _ _ done => exact handle_child_exit_careful held done
  | shutdownCmd answer command => exact shutdown_cmd_careful held _ command
  | expired _ => exact expire_careful held _
  | maintained _ done => exact maintained_careful held (stage_maintenance_maintained done)

theorem set_up_careful {table : BootTable} {s : State} {pid : Int}
    (watched : Retimed (State.initial table) s) (free : s.kernel.PidFree pid) :
    Careful { State.placed (closePreviousPipe s) table.safeModeEntry pid with
      currentStage := .startup } := by
  have exact := placed_exact (retimed_exact watched (initial_exact table))
    table.safeModeEntry free
  have single : Single s := by
    obtain ⟨_, _, _, _, _, rfl⟩ := watched
    refine ⟨⟨?_, ?_, ?_, ?_⟩, ⟨?_, ?_, ?_⟩⟩ <;>
      simp [State.retimed, State.initial, Kernel.initial, Pipe.absent, recordCount]
  have placed : Single (State.placed (closePreviousPipe s) table.safeModeEntry pid) :=
    placed_single single
  exact ⟨⟨exact.tracked, exact.kills⟩, fun _ => ⟨placed.log, placed.pipes⟩⟩

theorem boot_careful {table : BootTable} {answer : BootAnswer} {sys : System}
    (booted : boot table answer = some sys) (intact : sys.control.intact) :
    Careful sys.state := by
  obtain ⟨s, pid, result, s', watched, free, started, rfl⟩ := boot_intact booted intact
  have ready := set_up_careful watched free
  have final : Careful s' := by
    rcases start_processes_cases started with ⟨_, rfl⟩ | starts
    · exact ready
    · exact starts_careful ready starts
  exact retimed_careful ⟨_, _, _, _, _, rfl⟩ final

/-- In every run, halted or not, in which no safe process fails after a record
    was sent, each placeholder got at most one request. -/
theorem single_request_without_late_failure {table : BootTable}
    {trace : List (System × Event)} {sys : System} (run : InitRun table trace sys)
    (early : Justified NoLateFailure sys.state.kernel.log) : SingleRequests sys.state.kernel := by
  refine init_run_outcome (fun _ _ => True) Careful CarefulEnd run (meets_always trace)
    (fun _ _ booted intact => boot_careful booted intact)
    (fun _ _ _ held _ stepped => state_step_careful held stepped)
    (fun _ held => careful_end held) ?_ ?_ early
  · intro answer first halt booted halted
    obtain ⟨s, pid, stop, watched, free, failed, rfl⟩ := boot_halted booted halted
    exact starts_halted_careful (set_up_careful watched free) failed
  · intro s event s' held _ stopped
    cases stopped with
    | same => exact careful_end held
    | childExit _ _ failed => exact handle_child_exit_halted held failed
    | maintenance failed => exact maintenance_halted_careful held (stage_maintenance_error failed)

theorem single_request_for_two_crashes : ∃ trace sys, InitRun sampleTable trace sys ∧
    (sys.state.kernel.pipes 0).consumed = true ∧ SingleRequests sys.state.kernel := by
  obtain ⟨run, rehearsed, consumed, early⟩ : ∃ run ∈ rehearse sampleTable sampleBoot
      ([.env (.childDies 11 crashed), .env (.childDies 12 crashed)] ++
        handled .signal (childSignal [(11, crashed), (12, crashed)] (-1)) [] ++
        [.env (.placeholderReads 10)]),
      (run.2.state.kernel.pipes 0).consumed = true ∧
      Justified NoLateFailure run.2.state.kernel.log := by
    decide +kernel
  have reached := init_run_of_rehearse rehearsed
  exact ⟨run.1, run.2, reached, consumed, single_request_without_late_failure reached early⟩

/-- The services crash one after the other: two records for one placeholder, or
    a write to a placeholder that has left its pipe, which ends in panic. -/
theorem second_crash_second_request :
    (∃ trace sys, InitRun sampleTable trace sys ∧ recordCount 0 sys.state.kernel.log = 2) ∧
    ∃ trace sys, InitRun sampleTable trace sys ∧ .request 0 true ∈ sys.state.kernel.log ∧
      sys.control = .halted (.panic "Couldn't start safe mode!") := by
  constructor
  · obtain ⟨run, rehearsed, twice⟩ : ∃ run ∈ rehearse sampleTable sampleBoot
        ([.env (.childDies 11 crashed)] ++
          handled .signal (childSignal [(11, crashed)] (-1)) [] ++
          [.env (.childDies 12 crashed)] ++
          handled .signal (childSignal [(12, crashed)] (-1)) []),
        recordCount 0 run.2.state.kernel.log = 2 := by
      decide +kernel
    exact ⟨run.1, run.2, init_run_of_rehearse rehearsed, twice⟩
  · obtain ⟨run, rehearsed, late, panicked⟩ : ∃ run ∈ rehearse sampleTable sampleBoot
        ([.env (.childDies 11 crashed)] ++
          handled .signal (childSignal [(11, crashed)] (-1)) [] ++
          [.env (.placeholderReads 10), .env (.childDies 12 crashed),
            .epollWait (.ready [.signal]), .dispatch (childSignal [(12, crashed)] (-1))]),
        .request 0 true ∈ run.2.state.kernel.log ∧
        run.2.control = .halted (.panic "Couldn't start safe mode!") := by
      decide +kernel
    exact ⟨run.1, run.2, init_run_of_rehearse rehearsed, late, panicked⟩

end SingleRequest
