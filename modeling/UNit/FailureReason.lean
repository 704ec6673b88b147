import UNit.RecordTransfer
import UNit.SafeModeCommand
import UNit.SafeModeRequests

/-!
What safe mode is told about a failure. The record carries the signal that
killed the process. For a process that exited with a code it carries 0: the loop
of handle_child_exit takes over the terminating signal and not the exit status.
-/
namespace FailureReason
open InittabEntries SafeModeRecord ProcessHistory KernelModel InitState ProcessStart ChildExit
  StageControl MainLoop LabelledRuns TrackedChildren ReapedBatch SafeModeKeeping SafeModeRequests
  Cmdline DecimalText SafeModeCommand

def failureReason (status : WaitStatus) : Int :=
  if status.wifsignaled then status.wtermsig else status.wexitstatus.toNat

def carriedSignal (status : WaitStatus) : Int :=
  if status.wifsignaled then status.wtermsig else 0

/-- The wait result of one safe process is the only abnormal one of its kind. -/
def OnlyFailure (running : List Process) (results : List (Int × WaitStatus)) (p : Process)
    (status : WaitStatus) : Prop :=
  (p ∈ running ∧ SafeKind p.config ∧ (p.pid, status) ∈ results ∧ status.abnormal = true) ∧
    ∀ w ∈ results, w.2.abnormal = true → ∀ p' ∈ running, p'.pid = w.1 → SafeKind p'.config →
      w = (p.pid, status)

instance (running : List Process) (results : List (Int × WaitStatus)) (p : Process)
    (status : WaitStatus) : Decidable (OnlyFailure running results p status) :=
  inferInstanceAs (Decidable (_ ∧ _))

/-- Safe mode is told a reason by a record: the placeholder reads it, it is not
    0, and it stands for the tag in whatever command line is executed. -/
structure Told (info : List UInt8) (reason : Int) : Prop where
  carried : receivedSignal info = reason
  nonzero : receivedSignal info ≠ 0
  substituted : ∀ strdup safeModeCmd contents, parseCmdline strdup safeModeCmd = some contents →
    ∃ call, safeModeExec strdup true safeModeCmd info = some call ∧
      ∀ i : Nat, contents.argStrings[i]? = some (ascii "<exitcode>") →
        call.argv[i]? = some (formatInt reason)

theorem carried_fits (status : WaitStatus) :
    -2 ^ 31 ≤ carriedSignal status ∧ carriedSignal status < 2 ^ 31 := by
  cases status with
  | exited code => simp [carriedSignal, WaitStatus.wifsignaled]
  | signaled signo range =>
    have short := range.2
    simp only [carriedSignal, WaitStatus.wifsignaled, WaitStatus.wtermsig, ↓reduceIte]
    omega

theorem reason_nonzero {status : WaitStatus} (bad : status.abnormal = true) :
    failureReason status ≠ 0 := by
  cases status with
  | exited code =>
    simp only [WaitStatus.abnormal, WaitStatus.wifexited, WaitStatus.wexitstatus, Bool.not_true,
      Bool.false_or, bne_iff_ne, ne_eq] at bad
    have positive : code.toNat ≠ 0 := fun zero => bad (UInt8.toNat_inj.mp zero)
    simp only [failureReason, WaitStatus.wifsignaled, WaitStatus.wexitstatus, Bool.false_eq_true,
      ↓reduceIte]
    omega
  | signaled signo range =>
    have positive := range.1
    simp only [failureReason, WaitStatus.wifsignaled, WaitStatus.wtermsig, ↓reduceIte]
    omega

theorem carried_is_reason {status : WaitStatus} (bad : status.abnormal = true) :
    carriedSignal status = failureReason status ↔ status.wifsignaled = true := by
  cases status with
  | exited code =>
    have reason := reason_nonzero bad
    constructor
    · intro same
      exact absurd same.symm reason
    · simp [WaitStatus.wifsignaled]
  | signaled signo range => simp [carriedSignal, failureReason, WaitStatus.wifsignaled]

theorem told_iff {failedProcessCmd : List UInt8} {status : WaitStatus}
    (bad : status.abnormal = true) :
    Told (fillSharedInfo failedProcessCmd (carriedSignal status)).bytes (failureReason status) ↔
      status.wifsignaled = true := by
  have received := received_signal_sent failedProcessCmd (carried_fits status)
  rw [← carried_is_reason bad]
  constructor
  · intro told
    exact received.symm.trans told.carried
  · intro same
    rw [same] at received ⊢
    refine ⟨received, ?_, ?_⟩
    · rw [received]
      exact reason_nonzero bad
    · intro strdup safeModeCmd contents parsed
      have substituted := exitcode_substituted
        (fillSharedInfo failedProcessCmd (failureReason status)).bytes parsed
      rwa [received] at substituted

variable {s t t' : State} {p : Process} {status : WaitStatus} {r r' : Reaping}
variable {results taken : List (Int × WaitStatus)} {w : Int × WaitStatus}

theorem failed_found (held : Batch s taken r t)
    (tracked : p ∈ s.runningProcesses) (fresh : p.pid ∉ taken.map Prod.fst) :
    findProcess p.pid t.runningProcesses = some p := by
  have left : p ∈ t.runningProcesses := by
    rw [held.running, List.mem_filter]
    exact ⟨tracked, by simpa [unreported] using fresh⟩
  cases found : findProcess p.pid t.runningProcesses with
  | none => exact absurd rfl (find_process_none found p left)
  | some x =>
    obtain ⟨member, same⟩ := find_process_some found
    rw [same_pid_same_process held.exact.tracked.nodup member left same]

theorem reap_failed_signal (only : OnlyFailure s.runningProcesses results p status)
    (held : Batch s taken r t) (fresh : p.pid ∉ taken.map Prod.fst)
    (done : reapOne (p.pid, status) r t = .ok (r', t')) :
    r'.signal = if status.wifsignaled then (status.wtermsig : Int) else r.signal := by
  obtain ⟨⟨tracked, ⟨safe, kind⟩, _, bad⟩, _⟩ := only
  have found := failed_found held tracked fresh
  obtain ⟨_, verdict⟩ := reap_one_cases held.exact.tracked.nodup done
  rcases verdict with ⟨absent, _⟩ | ⟨x, again, judged⟩
  · simp [found] at absent
  · obtain rfl : p = x := Option.some.inj (found.symm.trans again)
    rcases judge_cases judged with ⟨plain | normal, _⟩ | ⟨_, other, _, _⟩ | ⟨_, _, _, rfl⟩
    · simp [safe] at plain
    · simp [bad] at normal
    · exact absurd other kind
    · rfl

theorem reap_other_signal (only : OnlyFailure s.runningProcesses results p status)
    (held : Batch s taken r t) (member : w ∈ results) (other : w ≠ (p.pid, status))
    (done : reapOne w r t = .ok (r', t')) : r'.signal = r.signal := by
  obtain ⟨_, verdict⟩ := reap_one_cases held.exact.tracked.nodup done
  rcases verdict with ⟨_, rfl⟩ | ⟨x, found, judged⟩
  · rfl
  · rcases judge_cases judged with ⟨_, rfl⟩ | ⟨_, _, _, rfl⟩ | ⟨bad, safe, kind, rfl⟩
    · rfl
    · rfl
    · obtain ⟨here, same⟩ := find_process_some found
      rw [held.running] at here
      exact absurd (only.2 w member bad x (List.mem_of_mem_filter here) same ⟨safe, kind⟩) other

theorem reap_loop_signal {answer : WaitAnswer} (exact : ListExact s)
    (once : (answer.results.map Prod.fst).Nodup)
    (only : OnlyFailure s.runningProcesses answer.results p status)
    (done : reapLoop answer.last answer.results .initial s = .ok (r, t)) :
    r.signal = carriedSignal status := by
  have loop := reap_loop_batch_rule
    (fun taken r => r.signal = if (p.pid, status) ∈ taken then carriedSignal status else 0)
    exact once (by simp [Reaping.initial]) ?_ done
  · rw [loop.2.1, if_pos only.1.2.2.1]
  · intro taken w r t r' t' held member fresh reaped signal
    by_cases failed : w = (p.pid, status)
    · subst w
      have before : (p.pid, status) ∉ taken := fun earlier =>
        fresh (List.mem_map_of_mem earlier)
      rw [reap_failed_signal only held fresh reaped, signal, if_neg before]
      simp [carriedSignal]
    · have still : (p.pid, status) ∈ taken ++ [w] ↔ (p.pid, status) ∈ taken := by
        simp [Ne.symm failed]
      rw [reap_other_signal only held member failed reaped, signal]
      simp only [still]

theorem only_failure_named (exact : ListExact s)
    (only : OnlyFailure s.runningProcesses results p status) (batch : Batch s results r t)
    (asked : r.startSafeProcess = true) : r.processName = p.config.processName := by
  obtain ⟨⟨tracked, _⟩, single⟩ := only
  obtain ⟨w, member, bad, x, here, same, kind, name⟩ := batch.flags.named asked
  have result := single w member bad x here same kind
  rw [result] at same
  rw [← name, same_pid_same_process exact.tracked.nodup here tracked same]

/-- When a safe process is the only one that failed, the request that answers it
    sends one record, whole, and safe mode is told by it why the process failed
    if and only if a signal killed it. -/
theorem failure_reason_told_iff {table : BootTable} {trace : List (System × Event)}
    {sys : System} (run : InitRun table trace sys) (intact : sys.control.intact)
    {answer : ExitAnswer} (lawful : sys.state.kernel.WaitLawful answer.wait)
    (only : OnlyFailure sys.state.runningProcesses answer.wait.results p status)
    (done : handleChildExit answer sys.state = .ok s) :
    ∃ (q : Nat) (info : SharedInfo) (log : List Effect),
      s.safeModePipeFd = some q ∧ s.kernel.log = .record q info :: log ∧
      (s.kernel.pipes q).data = (sys.state.kernel.pipes q).data ++ info.bytes ∧
      info.processName = p.config.processName.take (processNameSize - 1) ∧
      (∀ chunks transfer,
        Run (RecordTransfer.step info.bytes) RecordTransfer.start chunks transfer →
        transfer.reader = .complete → transfer.info = info.bytes) ∧
      (Told info.bytes (failureReason status) ↔ status.wifsignaled = true) := by
  have held : Kept False sys.state := run_kept run intact False.elim
  have exact := held.links.exact
  obtain ⟨r, t, looped, batch, _, _, outcome⟩ := recovery_cases held lawful.once False.elim done
  obtain ⟨tracked, kind, member, bad⟩ := only.1
  have asked : r.startSafeProcess = true :=
    batch.flags.asked.mpr ⟨_, member, bad, p, tracked, rfl, kind⟩
  rcases outcome with ⟨quiet, _⟩ | ⟨_, _, _, q, fd, rfl⟩ | ⟨quiet, _⟩
  · simp [asked] at quiet
  · rw [only_failure_named exact only batch asked, reap_loop_signal exact lawful.once only looped]
    refine ⟨q, _, _, fd, requested_log t q _, ?_, rfl, ?_, told_iff bad⟩
    · rw [State.requested, sent_data, batch.frame]
    · intro chunks transfer transferred complete
      have whole := fill_bytes_length p.config.processName (carriedSignal status)
      exact (RecordTransfer.complete_record whole
        (RecordTransfer.run_in_step whole transferred) complete).2
  · simp [asked] at quiet

def sampleService : Process := ⟨⟨[97], [], 1, -1, .safeService⟩, 11⟩

def sampleResults (status : WaitStatus) : List (Int × WaitStatus) :=
  [(13, .exited 0), (11, status)]

def sampleDeaths (status : WaitStatus) : List Event :=
  [.env (.childDies 13 (.exited 0)), .env (.childDies 11 status)]

theorem crash_told : ∃ trace sys s, InitRun sampleTable trace sys ∧
    handleChildExit (sampleExit (sampleResults crashed)) sys.state = .ok s ∧
    ∃ q info log, s.kernel.log = .record q info :: log ∧ Told info.bytes 11 := by
  obtain ⟨run, rehearsed, waiting, lawful, only, returns⟩ :
      ∃ run ∈ rehearse sampleTable sampleBoot (sampleDeaths crashed),
      run.2.control = .waiting ∧
      run.2.state.kernel.WaitLawful (sampleExit (sampleResults crashed)).wait ∧
      OnlyFailure run.2.state.runningProcesses (sampleResults crashed) sampleService crashed ∧
      haltOf (handleChildExit (sampleExit (sampleResults crashed)) run.2.state) = none := by
    decide +kernel
  have reached := init_run_of_rehearse rehearsed
  cases outcome : handleChildExit (sampleExit (sampleResults crashed)) run.2.state with
  | error stop => simp [outcome, haltOf] at returns
  | ok s =>
    obtain ⟨q, info, log, _, logged, _, _, _, told⟩ :=
      failure_reason_told_iff reached (waiting_intact waiting) lawful only outcome
    exact ⟨run.1, run.2, s, reached, outcome, q, info, log, logged, told.mpr rfl⟩

def lastRecord (s : State) : Option SharedInfo :=
  match s.kernel.log with
  | .record _ info :: _ => some info
  | _ => none

/-- Exit code 1 instead of the crash: safe mode is started with 0. -/
theorem exit_code_told_as_zero : ∃ trace sys s info, InitRun sampleTable trace sys ∧
    sys.state.kernel.WaitLawful (sampleExit (sampleResults (.exited 1))).wait ∧
    OnlyFailure sys.state.runningProcesses (sampleResults (.exited 1)) sampleService (.exited 1) ∧
    handleChildExit (sampleExit (sampleResults (.exited 1))) sys.state = .ok s ∧
    lastRecord s = some info ∧ receivedSignal info.bytes = 0 ∧
    (safeModeExec true true (ascii "s -c <exitcode>") info.bytes).map ExecCall.argv =
      some [ascii "s", ascii "-c", ascii "0"] ∧
    failureReason (.exited 1) = 1 ∧ ¬ Told info.bytes (failureReason (.exited 1)) := by
  obtain ⟨run, rehearsed, lawful, only, returns, info, sent, zero, argv⟩ :
      ∃ run ∈ rehearse sampleTable sampleBoot (sampleDeaths (.exited 1)),
      run.2.state.kernel.WaitLawful (sampleExit (sampleResults (.exited 1))).wait ∧
      OnlyFailure run.2.state.runningProcesses (sampleResults (.exited 1)) sampleService
        (.exited 1) ∧
      haltOf (handleChildExit (sampleExit (sampleResults (.exited 1))) run.2.state) = none ∧
      ∃ info ∈ lastRecord
        (stateOf (handleChildExit (sampleExit (sampleResults (.exited 1))) run.2.state)),
        receivedSignal info.bytes = 0 ∧
        (safeModeExec true true (ascii "s -c <exitcode>") info.bytes).map ExecCall.argv =
          some [ascii "s", ascii "-c", ascii "0"] := by
    decide +kernel
  cases outcome : handleChildExit (sampleExit (sampleResults (.exited 1))) run.2.state with
  | error stop => simp [outcome, haltOf] at returns
  | ok s =>
    rw [outcome] at sent
    have reason : failureReason (.exited 1) = 1 := rfl
    refine ⟨run.1, run.2, s, info, init_run_of_rehearse rehearsed, lawful, only, outcome, sent,
      zero, argv, reason, ?_⟩
    intro told
    exact told.nonzero zero

end FailureReason
