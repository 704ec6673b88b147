import Mathlib.Logic.Relation
import UNit.TrackedChildren

/-!
Every reachable state of init is made from the initial one by elementary moves:
a fork noted, a child waited for, a command accepted, a broadcast, a change of
timers. A move carries the condition it is made under, so a property of all
reachable states needs one short case for each move and no case for the
functions that make them.
-/
namespace StateMoves
open InittabEntries SafeModeRecord ProcessHistory EventHistory KernelModel InitState ProcessStart
  ChildExit StageControl MainLoop LabelledRuns TrackedChildren

def State.commanded (s : State) (command : RebootCommand) : State :=
  { s with
    remaining := []
    pendingFinish := 0
    currentStage := .termination
    shutdownCommand := command
    postIterationCallback := some .stageMaintenance
    kernel := signalAll .sigterm s.runningProcesses (s.kernel.note (.shutdownCommand command)) }

def State.killed (s : State) : State :=
  { s with kernel := signalAll .sigkill s.runningProcesses s.kernel }

inductive Move : State → State → Prop where
  | env {s : State} {move : EnvMove} {k : Kernel} (moved : s.kernel.env move = some k) :
      Move s { s with kernel := k }
  | retimed {s t : State} (same : Retimed s t) : Move s t
  | recounted (s : State) (remaining : List InittabEntry) (pending : UInt32) :
      Move s { s with remaining := remaining, pendingFinish := pending }
  | restaged (s : State) (stage : Stage) (callback : Option PostCallback)
      (forward : stage ≠ .termination) :
      Move s { s with currentStage := stage, postIterationCallback := callback }
  | started {s : State} {pid : Int} (entry : InittabEntry) (free : s.kernel.PidFree pid)
      (starting : s.currentStage ≠ .termination) : Move s (State.started s entry pid)
  | notStarted (s : State) (entry : InittabEntry) : Move s (State.notStarted s entry)
  | requested {s : State} {q : Nat} (pipe : s.safeModePipeFd = some q) (info : SharedInfo) :
      Move s (State.requested s q info)
  | placed {s : State} {pid : Int} (free : s.kernel.PidFree pid) :
      Move s (State.placed (closePreviousPipe s) s.table.safeModeEntry pid)
  | reaped (s : State) (w : Int × WaitStatus) :
      Move s (State.reaped s w (findProcess w.1 s.runningProcesses))
  | commanded (s : State) (command : RebootCommand) : Move s (State.commanded s command)
  | killed {s : State} (ending : s.currentStage = .termination) : Move s (State.killed s)

abbrev Moves := Relation.ReflTransGen Move

theorem move_exact {s t : State} (held : ListExact s) (move : Move s t) : ListExact t := by
  cases move with
  | env moved => exact ⟨tracked_env held.tracked moved, (env_frame moved).log ▸ held.kills⟩
  | retimed same => exact retimed_exact same held
  | recounted => exact ⟨held.tracked, held.kills⟩
  | restaged => exact ⟨held.tracked, held.kills⟩
  | started entry free _ => exact started_exact held entry free
  | notStarted entry => exact not_started_exact held entry
  | requested _ info => exact requested_exact held _ info
  | placed free => exact placed_exact held _ free
  | reaped w => exact reaped_exact held w _
  | commanded command =>
    have noted : ListExact { s with kernel := s.kernel.note (.shutdownCommand command) } :=
      ⟨tracked_congr held.tracked rfl rfl, trivial, held.kills⟩
    have signalled := signalled_exact noted .sigterm
    exact ⟨signalled.tracked, signalled.kills⟩
  | killed _ => exact signalled_exact held .sigkill

theorem moves_exact {s t : State} (held : ListExact s) (moves : Moves s t) : ListExact t := by
  induction moves with
  | refl => exact held
  | tail _ move ih => exact move_exact ih move

theorem spawn_entry_moves {answer : SpawnAnswer} {entry : InittabEntry} {has has' : Bool}
    {s t : State} (starting : s.currentStage ≠ .termination)
    (done : spawnEntry answer entry has s = .ok (has', t)) :
    Moves s t ∧ t.currentStage ≠ .termination := by
  rcases spawn_entry_cases done with
    ⟨pid, free, _, rfl⟩ | ⟨_, _, q, _, pipe, _, _, rfl⟩ | ⟨_, _, rfl⟩
  · exact ⟨.single (.started entry free starting), starting⟩
  · have noted : Moves s (State.notStarted s entry) := .single (.notStarted s entry)
    exact ⟨noted.tail (Move.requested (s := State.notStarted s entry) pipe _), starting⟩
  · exact ⟨.single (.notStarted s entry), starting⟩

theorem starts_moves {answer : StartAnswer} {list : List InittabEntry} {s t : State}
    (starting : s.currentStage ≠ .termination) (starts : Starts answer list s t) : Moves s t := by
  have entering : Moves s { s with pendingFinish := 0 } := .single (.recounted s s.remaining 0)
  obtain ⟨_, _, entries, final, ⟨reached, _⟩, same⟩ := starts_rule
    (fun _ _ _ t => Moves s t ∧ t.currentStage ≠ .termination)
    (fun _ _ _ _ _ _ _ _ held _ done =>
      have next := spawn_entry_moves held.2 done
      ⟨held.1.trans next.1, next.2⟩) starts
    (fun _ => ⟨entering, starting⟩)
  exact (reached.tail (.recounted final entries final.pendingFinish)).tail (.retimed same)

theorem handle_child_exit_moves {answer : ExitAnswer} {s t : State} (held : ListExact s)
    (done : handleChildExit answer s = .ok t) : Moves s t := by
  obtain ⟨r, u, v, looped, requested, restarted⟩ := handle_child_exit_ok done
  have first : Moves s u := (reap_loop_rule (fun _ _ u => Moves s u)
    (fun w _ _ a _ b reached done => by
      obtain ⟨rfl, _⟩ := reap_one_cases (moves_exact held reached).tracked.nodup done
      exact reached.tail (.reaped a w))
    .refl looped).1
  have second : Moves s v := by
    rcases request_safe_mode_cases requested with ⟨_, rfl⟩ | ⟨_, _, _, pipe, _, _, rfl⟩
    · exact first
    · exact first.tail (.requested pipe _)
  rcases restart_placeholder_cases restarted with ⟨_, rfl⟩ | ⟨_, _, free, rfl⟩
  · exact second
  · exact second.tail (.placed free)

theorem shutdown_cmd_moves (answer : TimerAnswer) (command : RebootCommand) (s : State) :
    Moves s (handleShutdownCmd answer command s) :=
  (Relation.ReflTransGen.single (.commanded s command)).tail
    (.retimed (handle_shutdown_cmd_retimed answer command s))

theorem expire_moves (t : MainloopTimeout) (s : State) : Moves s (expire t s) := by
  cases called : t.callback with
  | oneShotTimeoutCb =>
    simp only [expire, called, runTimeout, oneShotTimeoutCb]
    exact .single (.retimed ⟨_, _, _, _, _, rfl⟩)
  | killTimeoutCb =>
    simp only [expire, called, runTimeout, killTimeoutCb]
    by_cases ending : s.currentStage = .termination
    · simp only [if_pos ending]
      have killed : Moves s (State.killed s) := .single (.killed ending)
      exact killed.tail (.retimed ⟨_, _, _, _, _, rfl⟩)
    · simp only [if_neg ending]
      exact .single (.retimed ⟨_, _, _, _, _, rfl⟩)
  | watchdogFeed =>
    simp only [expire, called, runTimeout]
    exact .refl

theorem maintained_moves {answer : StartAnswer} {s t : State} (done : Maintained answer s t) :
    Moves s t := by
  cases done with
  | unchanged same => exact .single (.retimed same)
  | @started starting _ u before starts =>
    have going : u.currentStage ≠ .termination := by
      obtain ⟨_, _, _, _, _, rfl⟩ := before
      rcases starting with stage | stage <;> simp [State.retimed, stage]
    exact (Relation.ReflTransGen.single (.retimed before)).trans (starts_moves going starts)
  | toRun _ _ _ same =>
    exact (Relation.ReflTransGen.single (.restaged s .run none (by simp))).tail (.retimed same)
  | toClose _ _ _ same =>
    exact (Relation.ReflTransGen.single
      (.restaged s .close s.postIterationCallback (by simp))).tail (.retimed same)
  | toShutdown _ _ starts same =>
    have entered : Moves s { s with currentStage := .shutdown } :=
      .single (.restaged s .shutdown s.postIterationCallback (by simp))
    exact (entered.trans (starts_moves (by simp) starts)).tail (.retimed same)
  | straightToClose _ _ _ same =>
    exact (Relation.ReflTransGen.single
      (.restaged s .close s.postIterationCallback (by simp))).tail (.retimed same)

theorem state_step_moves {s t : State} {event : Event} (held : ListExact s)
    (stepped : StateStep s event t) : Moves s t := by
  cases stepped with
  | env moved => exact .single (.env moved)
  | idle => exact .refl
  | childExit _ _ done => exact handle_child_exit_moves held done
  | shutdownCmd answer command => exact shutdown_cmd_moves _ command s
  | expired _ => exact expire_moves _ s
  | maintained _ done => exact maintained_moves (stage_maintenance_maintained done)

theorem boot_moves {table : BootTable} {answer : BootAnswer} {sys : System}
    (booted : boot table answer = some sys) (intact : sys.control.intact) :
    Moves (State.initial table) sys.state := by
  obtain ⟨s, pid, result, t, watched, free, started, rfl⟩ := boot_intact booted intact
  have same : s.table = table := by
    obtain ⟨_, _, _, _, _, rfl⟩ := watched
    rfl
  have ready : Moves (State.initial table)
      (State.placed (closePreviousPipe s) table.safeModeEntry pid) := by
    have placed := Move.placed free
    rw [same] at placed
    exact (Relation.ReflTransGen.single (.retimed watched)).tail placed
  have entered := ready.tail (.restaged _ .startup
    (State.placed (closePreviousPipe s) table.safeModeEntry pid).postIterationCallback (by simp))
  have running : Moves (State.initial table) t := by
    rcases start_processes_cases started with ⟨_, rfl⟩ | starts
    · exact entered
    · exact entered.trans (starts_moves (by simp) starts)
  exact running.tail (.retimed ⟨_, _, _, _, _, rfl⟩)

theorem run_moves {table : BootTable} {trace : List (System × Event)} {sys : System}
    (run : InitRun table trace sys) (intact : sys.control.intact) :
    Moves (State.initial table) sys.state := by
  have reached := init_run_invariant (fun _ _ => True)
    (fun s => ListExact s ∧ Moves (State.initial table) s) run intact (meets_always trace)
    (fun _ _ booted intact => ⟨boot_exact booted intact, boot_moves booted intact⟩)
    (fun _ _ _ held _ stepped => ⟨state_step_exact held.1 stepped,
      held.2.trans (state_step_moves held.1 stepped)⟩)
  exact reached.2

/-- What holds at first and survives every move from a state with an exact list
    holds in every state a run reaches. -/
theorem run_move_rule (inv : State → Prop) {table : BootTable} {trace : List (System × Event)}
    {sys : System} (run : InitRun table trace sys) (intact : sys.control.intact)
    (initial : inv (State.initial table))
    (kept : ∀ s t, ListExact s → inv s → Move s t → inv t) : inv sys.state := by
  have reached := run_moves run intact
  generalize sys.state = final at reached ⊢
  have both : ListExact final ∧ inv final := by
    induction reached with
    | refl => exact ⟨initial_exact table, initial⟩
    | tail _ move ih => exact ⟨move_exact ih.1 move, kept _ _ ih.1 ih.2 move⟩
  exact both.2

end StateMoves
