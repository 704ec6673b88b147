import UNit.SafeModeKeeping

/-!
What is left when init stops terminating processes. The source decides this
from the length of the tracked list, as if a single process could only be the
safe-mode one. That is so until the safe-mode process has ended with code 0;
from then on the last process is another one.
-/
namespace TerminationEnd
open InittabEntries ProcessHistory KernelModel InitState ProcessStart StageControl MainLoop
  LabelledRuns SafeModeKeeping

def LeavesTermination (sys : System) : Event → Prop
  | .postIteration answer => sys.state.currentStage = .termination ∧
      sys.state.postIterationCallback ≠ none ∧
      (stateOf (stageMaintenance answer sys.state)).currentStage ≠ .termination
  | _ => False

instance (sys : System) : (event : Event) → Decidable (LeavesTermination sys event)
  | .postIteration answer => inferInstanceAs (Decidable (sys.state.currentStage = .termination ∧
      sys.state.postIterationCallback ≠ none ∧
      (stateOf (stageMaintenance answer sys.state)).currentStage ≠ .termination))
  | .env _ => .isFalse id
  | .epollWait _ => .isFalse id
  | .dispatch _ => .isFalse id

theorem maintained_leaves {answer : StartAnswer} {s s' : State}
    (ending : s.currentStage = .termination) (leaves : s'.currentStage ≠ .termination)
    (done : Maintained answer s s') : atMostOne s.runningProcesses = true := by
  cases done with
  | unchanged same =>
    obtain ⟨_, _, _, _, _, rfl⟩ := same
    exact absurd ending leaves
  | started starting => simp [ending] at starting
  | toRun starting => simp [ending] at starting
  | toClose starting => simp [ending] at starting
  | toShutdown _ few => exact few
  | straightToClose _ few => exact few

theorem leaves_with_at_most_one {sys : System} {event : Event}
    (leaves : LeavesTermination sys event) : atMostOne sys.state.runningProcesses = true := by
  cases event with
  | postIteration answer =>
    obtain ⟨ending, _, left⟩ := leaves
    cases outcome : stageMaintenance answer sys.state with
    | ok s' =>
      rw [outcome] at left
      exact maintained_leaves ending left (stage_maintenance_maintained outcome)
    | error stop =>
      rw [outcome] at left
      cases stage_maintenance_error outcome with
      | starting starting => simp [ending] at starting
      | shuttingDown _ few => exact few
      | exitTwice done closed =>
        exact maintained_leaves ending (by simp [closed]) (advance_stage_maintained done)
  | _ => exact leaves.elim

theorem last_is_safe_mode_iff {s : State} (held : Kept False s)
    (few : atMostOne s.runningProcesses = true) :
    (∀ p ∈ s.runningProcesses, p.config.type = .safeMode) ↔
      ¬ (SafeModeEnded s.kernel.log ∧ s.runningProcesses.length = 1) := by
  have settled := held.settled
  rw [Settled] at settled
  cases tracked : s.runningProcesses with
  | nil => simp
  | cons p rest =>
    have alone : rest = [] := by
      cases rest with
      | nil => rfl
      | cons q more => simp [tracked, atMostOne] at few
    subst alone
    rw [tracked] at settled
    rcases settled with ⟨one, going⟩ | ⟨zero, ended, _⟩
    · obtain ⟨x, member, kind, _⟩ := safe_mode_single one
      obtain rfl := List.mem_singleton.mp member
      simp [kind, going]
    · have other := safe_mode_count_zero.mp zero p List.mem_cons_self
      simp [other, ended]

/-- In every run: shutdown starts with no process but the safe-mode one, each
    time STAGE_TERMINATION is left, if and only if it is never left with a single
    process after the safe-mode process has ended with code 0. -/
theorem termination_left_clean_iff {table : BootTable} {trace : List (System × Event)}
    {sys : System} (run : InitRun table trace sys) :
    (∀ x ∈ trace, LeavesTermination x.1 x.2 →
      ∀ p ∈ x.1.state.runningProcesses, p.config.type = .safeMode) ↔
    ∀ x ∈ trace, LeavesTermination x.1 x.2 →
      ¬ (SafeModeEnded x.1.state.kernel.log ∧ x.1.state.runningProcesses.length = 1) := by
  obtain ⟨answer, first, booted, steps⟩ := run
  have each : ∀ x ∈ trace, LeavesTermination x.1 x.2 →
      ((∀ p ∈ x.1.state.runningProcesses, p.config.type = .safeMode) ↔
        ¬ (SafeModeEnded x.1.state.kernel.log ∧ x.1.state.runningProcesses.length = 1)) := by
    intro x member leaves
    obtain ⟨earlier, next, before, now⟩ := run_reaches_step steps member
    have held : Kept False x.1.state :=
      run_kept ⟨answer, first, booted, before⟩ (step_from_intact now) False.elim
    exact last_is_safe_mode_iff held (leaves_with_at_most_one leaves)
  constructor
  · intro clean x member leaves
    exact (each x member leaves).mp (clean x member leaves)
  · intro safe x member leaves
    exact (each x member leaves).mpr (safe x member leaves)

theorem termination_left_clean_after_exits : ∃ trace sys, InitRun sampleTable trace sys ∧
    sys.state.currentStage = .shutdown ∧
    ∀ x ∈ trace, LeavesTermination x.1 x.2 →
      ∀ p ∈ x.1.state.runningProcesses, p.config.type = .safeMode := by
  obtain ⟨run, rehearsed, stage, safe⟩ : ∃ run ∈ rehearse sampleTable sampleBoot (untilShutdown [14]),
      run.2.state.currentStage = .shutdown ∧
      ∀ x ∈ run.1, LeavesTermination x.1 x.2 →
        ¬ (SafeModeEnded x.1.state.kernel.log ∧ x.1.state.runningProcesses.length = 1) := by
    decide +kernel
  have reached := init_run_of_rehearse rehearsed
  exact ⟨run.1, run.2, reached, stage, (termination_left_clean_iff reached).mpr safe⟩

/-- Service 11 crashes and safe mode is started; the safe-mode process and
    service 12 exit with code 0. The shutdown command then finds one process left,
    the one-shot 13, and goes on at once. -/
def safeModeEndedFirst : List Event :=
  [.env (.childDies 11 crashed)] ++ handled .signal (childSignal [(11, crashed)] (-1)) [] ++
    [.env (.placeholderReads 10), .env (.childDies 10 (.exited 0)),
      .env (.childDies 12 (.exited 0))] ++
    handled .signal (childSignal [(10, .exited 0), (12, .exited 0)] (-1)) [] ++
    handled .signal termSignal [14]

theorem termination_left_with_one_shot : ∃ trace sys, InitRun sampleTable trace sys ∧
    ∃ x ∈ trace, LeavesTermination x.1 x.2 ∧
      ∃ p ∈ x.1.state.runningProcesses, p.pid = 13 ∧ p.config.type = .oneShot := by
  obtain ⟨run, rehearsed, left⟩ : ∃ run ∈ rehearse sampleTable sampleBoot safeModeEndedFirst,
      ∃ x ∈ run.1, LeavesTermination x.1 x.2 ∧
        ∃ p ∈ x.1.state.runningProcesses, p.pid = 13 ∧ p.config.type = .oneShot := by
    decide +kernel
  exact ⟨run.1, run.2, init_run_of_rehearse rehearsed, left⟩

end TerminationEnd
