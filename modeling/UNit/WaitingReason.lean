import UNit.LoopFrames
import UNit.StageOrder

/-!
Whom init waits for when it goes back to epoll_wait. In STAGE_TERMINATION there
is always a process to wait for. In the stages that start processes a pass of
start_processes may have started nothing, because every fork failed or memory
ran out at once; nothing but an unrelated event wakes init up then. Apart from
a leftover one-shot, this is the only way to wait for nobody.
-/
namespace WaitingReason
open InittabEntries ProcessHistory KernelModel InitState ProcessStart ChildExit StageControl
  MainLoop LabelledRuns TrackedChildren SafeModeKeeping StageOrder LoopFrames

/-- Whether the answers of calloc and fork start a one-shot of the list before
    memory runs out, given the pids in use. -/
def startsOneShot : List Int → List SpawnAnswer → List InittabEntry → Bool
  | taken, answer :: more, entry :: rest =>
    answer.calloc &&
      if 1 < answer.fork ∧ answer.fork < 2 ^ 31 ∧ answer.fork ∉ taken then
        isOneShotEntry entry || startsOneShot (answer.fork :: taken) more rest
      else startsOneShot taken more rest
  | _, _, _ => false

def memoryLasts : List SpawnAnswer → List InittabEntry → Bool
  | _, [] => true
  | [], _ :: _ => false
  | answer :: more, _ :: rest => answer.calloc && memoryLasts more rest

/-- A pass of start_processes leaves somebody to wait for: a one-shot, or in
    STAGE_STARTUP no entry that remains. -/
def Fruitful (stage : Stage) (taken : List Int) (answer : StartAnswer)
    (list : List InittabEntry) : Prop :=
  startsOneShot taken answer.spawns list = true ∨
    (stage = .startup ∧ memoryLasts answer.spawns list = true)

instance (stage : Stage) (taken : List Int) (answer : StartAnswer) (list : List InittabEntry) :
    Decidable (Fruitful stage taken answer list) :=
  inferInstanceAs (Decidable (startsOneShot taken answer.spawns list = true ∨
    (stage = .startup ∧ memoryLasts answer.spawns list = true)))

def takenPids (k : Kernel) : List Int := k.children.map Child.pid

def passOf (s : State) : List InittabEntry :=
  match s.currentStage with
  | .startup => if s.pendingFinish = 0 then s.remaining else []
  | .shutdown => if s.pendingFinish = 0 then s.remaining else []
  | .termination => if atMostOne s.runningProcesses then s.table.shutdownList else []
  | .setup => []
  | .run => []
  | .close => []

def PassesFruitful (s : State) : Event → Prop
  | .postIteration answer => s.postIterationCallback ≠ none → passOf s ≠ [] →
      Fruitful s.currentStage (takenPids s.kernel) answer (passOf s)
  | _ => True

instance (s : State) : (event : Event) → Decidable (PassesFruitful s event)
  | .postIteration answer => inferInstanceAs (Decidable (s.postIterationCallback ≠ none →
      passOf s ≠ [] → Fruitful s.currentStage (takenPids s.kernel) answer (passOf s)))
  | .env _ => .isTrue trivial
  | .epollWait _ => .isTrue trivial
  | .dispatch _ => .isTrue trivial

def BootFruitful (table : BootTable) (answer : BootAnswer) : Prop :=
  table.startupList ≠ [] →
    Fruitful .startup [answer.setup.fork] answer.start table.startupList

instance (table : BootTable) (answer : BootAnswer) : Decidable (BootFruitful table answer) :=
  inferInstanceAs (Decidable (table.startupList ≠ [] →
    Fruitful .startup [answer.setup.fork] answer.start table.startupList))

theorem spawn_entry_forked {answer : SpawnAnswer} {entry : InittabEntry} {has : Bool} {s : State}
    (free : s.kernel.PidFree answer.fork) : spawnEntry answer entry has s =
      .ok (has || isOneShotEntry entry, State.started s entry answer.fork) := by
  have positive : 0 < answer.fork := by have := free.1; omega
  simp [spawnEntry, spawnExec, Kernel.fork, free, positive, State.started, Kernel.spawned,
    Kernel.note]

theorem spawn_entry_unforked {answer : SpawnAnswer} {entry : InittabEntry} {has has' : Bool}
    {s s' : State} (taken : ¬ s.kernel.PidFree answer.fork)
    (done : spawnEntry answer entry has s = .ok (has', s')) :
    has' = has ∧ takenPids s'.kernel = takenPids s.kernel := by
  simp only [spawnEntry, spawnExec, Kernel.fork, taken, ↓reduceIte,
    show ¬ (0 : Int) < -1 by omega] at done
  split at done
  · split at done
    · simp at done
    · rename_i t started
      simp only [Except.ok.injEq, Prod.mk.injEq] at done
      obtain ⟨rfl, rfl⟩ := done
      obtain ⟨_, _, _, _, _, rfl⟩ := start_safe_mode_ok started
      exact ⟨rfl, rfl⟩
  · simp only [Except.ok.injEq, Prod.mk.injEq] at done
    obtain ⟨rfl, rfl⟩ := done
    exact ⟨rfl, rfl⟩

theorem loop_keeps_flag {answers : List SpawnAnswer} {order : Int} {list : List InittabEntry}
    {s : State} {r : LoopResult} (done : spawnLoop answers order true list s = .ok r) :
    r.hasOneShot = true := by
  obtain ⟨_, kept⟩ := spawn_loop_rule (fun _ has _ _ => has = true)
    (fun _ _ _ _ _ _ _ _ held _ spawned => by
      rcases spawn_entry_cases spawned with ⟨_, _, set, _⟩ | ⟨same, _⟩ | ⟨same, _⟩
      · simp [set, held]
      · exact same.trans held
      · exact same.trans held) rfl done
  exact kept

/-- As long as no one-shot was started the loop follows the list through its
    orders: it ends with a one-shot, out of memory or at the end of the list. -/
theorem loop_fruitful {answers : List SpawnAnswer} {order : Int} {list : List InittabEntry}
    {s : State} {r : LoopResult} (level : ∀ e ∈ list.head?, e.order = order)
    (done : spawnLoop answers order false list s = .ok r) :
    (startsOneShot (takenPids s.kernel) answers list = true → r.hasOneShot = true) ∧
    (memoryLasts answers list = true → r.hasOneShot = true ∨ r.entry = []) := by
  induction list generalizing answers order s with
  | nil =>
    simp only [spawnLoop, Except.ok.injEq] at done
    subst r
    simp [startsOneShot]
  | cons entry rest ih =>
    have here : entry.order = order := level entry rfl
    have following : ∀ e ∈ rest.head?, e.order = nextOrder order false rest := by
      intro e first
      cases rest with
      | nil => simp at first
      | cons next more =>
        obtain rfl := Option.some.inj first
        by_cases same : next.order = order <;> simp [nextOrder, same]
    cases answers with
    | nil => simp [startsOneShot, memoryLasts]
    | cons answer more =>
      cases memory : answer.calloc with
      | false => simp [startsOneShot, memoryLasts, memory]
      | true =>
        simp only [spawnLoop, here, memory, ↓reduceIte] at done
        by_cases free : s.kernel.PidFree answer.fork
        · have pid : 1 < answer.fork ∧ answer.fork < 2 ^ 31 ∧
            answer.fork ∉ takenPids s.kernel := free
          simp only [spawn_entry_forked free, Bool.false_or] at done
          simp only [startsOneShot, memoryLasts, memory, pid, not_false_eq_true, and_self,
            ↓reduceIte, Bool.true_and]
          cases oneShot : isOneShotEntry entry with
          | true =>
            rw [oneShot] at done
            simp [loop_keeps_flag done]
          | false =>
            rw [oneShot] at done
            rw [Bool.false_or]
            exact ih following done
        · have pid : ¬ (1 < answer.fork ∧ answer.fork < 2 ^ 31 ∧
            answer.fork ∉ takenPids s.kernel) := free
          simp only [startsOneShot, memoryLasts, memory, pid, ↓reduceIte, Bool.true_and]
          split at done
          · simp at done
          · rename_i has' s' spawned
            obtain ⟨rfl, same⟩ := spawn_entry_unforked free spawned
            rw [← same]
            exact ih following done

theorem loop_one_shot_tracked {answers : List SpawnAnswer} {order : Int}
    {list : List InittabEntry} {s : State} {r : LoopResult}
    (done : spawnLoop answers order false list s = .ok r) (flagged : r.hasOneShot = true) :
    ∃ p ∈ r.state.runningProcesses, isOneShotEntry p.config = true := by
  obtain ⟨_, kept⟩ := spawn_loop_rule
    (fun _ has _ t => has = true → ∃ p ∈ t.runningProcesses, isOneShotEntry p.config = true)
    (fun _ entry _ _ _ _ _ _ held _ spawned => by
      rcases spawn_entry_cases spawned with ⟨pid, _, rfl, rfl⟩ | ⟨rfl, _, _, _, _, _, _, rfl⟩ |
        ⟨rfl, _, rfl⟩
      · intro set
        rcases Bool.or_eq_true_iff.mp set with earlier | now
        · obtain ⟨p, tracked, oneShot⟩ := held earlier
          exact ⟨p, List.mem_cons_of_mem _ tracked, oneShot⟩
        · exact ⟨⟨entry, pid⟩, List.mem_cons_self, now⟩
      · exact held
      · exact held) (by simp) done
  exact kept flagged

theorem starts_fruitful {answer : StartAnswer} {stage : Stage} {list : List InittabEntry}
    {s s' : State} (starts : Starts answer list s s')
    (fruitful : Fruitful stage (takenPids s.kernel) answer list) :
    (∃ p ∈ s'.runningProcesses, isOneShotEntry p.config = true) ∨
      (stage = .startup ∧ s'.remaining = []) := by
  obtain ⟨first, rest, r, rfl, looped, retimed⟩ := starts
  obtain ⟨_, _, _, _, _, rfl⟩ := retimed
  have level : ∀ e ∈ (first :: rest).head?, e.order = first.order := by simp
  obtain ⟨starting, lasting⟩ := loop_fruitful level looped
  rcases fruitful with started | ⟨early, memory⟩
  · exact Or.inl (loop_one_shot_tracked looped (starting started))
  · rcases lasting memory with flagged | finished
    · exact Or.inl (loop_one_shot_tracked looped flagged)
    · exact Or.inr ⟨early, finished⟩

inductive Advanced (answer : StartAnswer) (s t : State) : Prop where
  | waits (same : t = s)
      (pending : s.currentStage = .startup ∨ s.currentStage = .shutdown → s.pendingFinish ≠ 0)
      (many : s.currentStage = .termination → atMostOne s.runningProcesses = false)
  | passed {u t' : State} (due : passOf s ≠ []) (kernel : u.kernel = s.kernel)
      (starts : Starts answer (passOf s) u t') (same : Retimed t' t)
      (stage : (t.currentStage = .startup ∧ s.currentStage = .startup) ∨
        (t.currentStage = .shutdown ∧ s.currentStage ≠ .startup))
  | finished (stage : t.currentStage = .run ∨ t.currentStage = .close)

theorem advance_stage_advanced {answer : StartAnswer} {s t : State}
    (done : advanceStage answer s = .ok t) : Advanced answer s t := by
  obtain ⟨_, _, _, _, _, shape⟩ := cancel_one_shot_retimed s
  cases advance_stage_moves done with
  | resting stage =>
    refine .waits rfl ?_ ?_
    · rcases stage with stage | stage | stage <;> simp [stage]
    · rcases stage with stage | stage | stage <;> simp [stage]
  | pending starting pending =>
    refine .waits rfl (fun _ => pending) ?_
    intro ending
    simp [ending] at starting
  | continued starting settled due started =>
    have pass : passOf s = s.remaining := by
      rcases starting with early | late
      · simp [passOf, early, settled]
      · simp [passOf, late, settled]
    have starts := start_processes_starts due started
    have stage := (start_processes_keeps started).1
    rw [shape] at stage starts
    rw [← pass] at starts due
    refine .passed due ?_ starts (retimed_refl t) ?_
    · rfl
    · rcases starting with early | late
      · exact Or.inl ⟨stage.trans early, early⟩
      · exact Or.inr ⟨stage.trans late, by simp [late]⟩
  | toRun _ _ _ => exact .finished (Or.inl rfl)
  | toClose _ _ _ => exact .finished (Or.inr rfl)
  | waiting ending many =>
    refine .waits rfl ?_ (fun _ => many)
    intro starting
    simp [ending] at starting
  | @toShutdown ending few due _ final started =>
    have pass : passOf s = s.table.shutdownList := by simp [passOf, ending, few]
    have starts := start_processes_starts due started
    obtain ⟨_, _, _, _, _, shape⟩ := cancel_kill_retimed final
    rw [← pass] at starts due
    refine .passed due ?_ starts (cancel_kill_retimed final) (Or.inr ⟨?_, by simp [ending]⟩)
    · rfl
    · rw [shape]
      exact (start_processes_keeps started).1
  | straightToClose _ _ _ =>
    obtain ⟨_, _, _, _, _, shape⟩ := cancel_kill_retimed { s with currentStage := .close }
    refine .finished (Or.inr ?_)
    rw [shape]
    rfl

/-- Somebody is there to wait for: a counted one-shot where entries are being
    started, any process but the safe-mode one where all are terminated. -/
structure Occupied (s : State) : Prop where
  starting : s.currentStage = .shutdown ∨ (s.currentStage = .startup ∧ s.remaining ≠ []) →
    0 < s.pendingFinish.toNat ∧ ∃ p ∈ live s.kernel.log, isOneShotEntry p.config = true
  ending : s.currentStage = .termination →
    ∃ p ∈ live s.kernel.log, p.config.type ≠ .safeMode

theorem occupied_counted {table : BootTable} {s : State} (kept : Kept False s)
    (held : Ordered True table s)
    (starting : s.currentStage = .startup ∨ s.currentStage = .shutdown) :
    s.pendingFinish.toNat = oneShotCount (live s.kernel.log) := by
  have known : Exact True s.currentStage := starting.imp_right (fun late => ⟨trivial, late⟩)
  rw [held.counted known, ← kept.links.exact.tracked.as_logged]
  exact pending_to_nat kept.links.exact.tracked

theorem one_shot_count_pos {running : List Process} :
    0 < oneShotCount running ↔ ∃ p ∈ running, isOneShotEntry p.config = true := by
  simp [oneShotCount, List.countP_pos_iff]

theorem many_occupied {s : State} (kept : Kept False s)
    (many : atMostOne s.runningProcesses = false) :
    ∃ p ∈ live s.kernel.log, p.config.type ≠ .safeMode := by
  rw [← kept.links.exact.tracked.as_logged]
  by_contra none
  push Not at none
  have all : safeModeCount s.runningProcesses = s.runningProcesses.length := by
    rw [safeModeCount, List.countP_eq_length]
    intro p member
    simp [none p member]
  have few : safeModeCount s.runningProcesses ≤ 1 := by
    rcases kept.settled with ⟨one, _⟩ | ⟨zero, _⟩ <;> omega
  rw [all] at few
  cases tracked : s.runningProcesses with
  | nil => simp [tracked, atMostOne] at many
  | cons p rest =>
    cases rest with
    | nil => simp [tracked, atMostOne] at many
    | cons q more =>
      rw [tracked] at few
      simp at few

theorem advanced_occupied {table : BootTable} {answer : StartAnswer} {s t : State}
    (advanced : Advanced answer s t)
    (fruitful : passOf s ≠ [] → Fruitful s.currentStage (takenPids s.kernel) answer (passOf s))
    (kept : Kept False t) (held : Ordered True table t) : Occupied t := by
  cases advanced with
  | waits same pending many =>
    subst same
    refine ⟨?_, fun ending => many_occupied kept (many ending)⟩
    intro starting
    have stage : t.currentStage = .startup ∨ t.currentStage = .shutdown :=
      starting.elim Or.inr (fun early => Or.inl early.1)
    have counted := occupied_counted kept held stage
    have positive : 0 < t.pendingFinish.toNat := by
      have waits := pending stage
      by_contra zero
      exact waits (UInt32.toNat_inj.mp (by simpa using zero))
    exact ⟨positive, one_shot_count_pos.mp (counted ▸ positive)⟩
  | passed due kernel starts same stage =>
    have left := starts_fruitful starts (kernel ▸ fruitful due)
    have tracked : (t.currentStage = .startup → t.remaining ≠ []) →
        ∃ p ∈ live t.kernel.log, isOneShotEntry p.config = true := by
      intro remains
      obtain ⟨_, _, _, _, _, rfl⟩ := same
      rcases left with started | ⟨early, finished⟩
      · exact kept.links.exact.tracked.as_logged ▸ started
      · rcases stage with ⟨startup, _⟩ | ⟨_, other⟩
        · exact absurd finished (remains startup)
        · exact absurd early other
    have starting : t.currentStage = .startup ∨ t.currentStage = .shutdown :=
      stage.imp And.left And.left
    refine ⟨?_, ?_⟩
    · intro which
      have somebody := tracked (by rcases which with late | ⟨_, remains⟩ <;> simp_all)
      rw [occupied_counted kept held starting]
      exact ⟨one_shot_count_pos.mpr somebody, somebody⟩
    · intro ending
      simp [ending] at starting
  | finished stage =>
    constructor
    · rintro (late | ⟨early, _⟩) <;> simp_all
    · intro ending
      simp [ending] at stage

def Maintaining (s : State) : Prop := s.postIterationCallback = none → s.currentStage = .run

theorem retimed_maintaining {s t : State} (same : Retimed s t) (held : Maintaining s) :
    Maintaining t := by
  obtain ⟨_, _, _, _, _, rfl⟩ := same
  exact held

theorem starts_callback {answer : StartAnswer} {list : List InittabEntry} {s s' : State}
    (starts : Starts answer list s s') :
    s'.postIterationCallback = s.postIterationCallback := by
  obtain ⟨_, _, _, final, kept, retimed⟩ := starts_rule
    (fun _ _ _ t => t.postIterationCallback = s.postIterationCallback)
    (fun _ _ _ _ _ _ _ _ held _ spawned =>
      (reprocessed_undisturbed (spawn_entry_reprocessed spawned)).callback.trans held) starts
    (fun _ => rfl)
  obtain ⟨_, _, _, _, _, rfl⟩ := retimed
  exact kept

theorem maintained_callback {answer : StartAnswer} {s s' : State}
    (done : Maintained answer s s') :
    s'.postIterationCallback = s.postIterationCallback ∨ s'.currentStage = .run := by
  cases done with
  | unchanged same =>
    obtain ⟨_, _, _, _, _, rfl⟩ := same
    exact Or.inl rfl
  | started _ _ before starts =>
    have same := starts_callback starts
    obtain ⟨_, _, _, _, _, rfl⟩ := before
    exact Or.inl same
  | toRun _ _ _ same =>
    obtain ⟨_, _, _, _, _, rfl⟩ := same
    exact Or.inr rfl
  | toClose _ _ _ same =>
    obtain ⟨_, _, _, _, _, rfl⟩ := same
    exact Or.inl rfl
  | toShutdown _ _ starts same =>
    have callback := starts_callback starts
    obtain ⟨_, _, _, _, _, rfl⟩ := same
    exact Or.inl callback
  | straightToClose _ _ _ same =>
    obtain ⟨_, _, _, _, _, rfl⟩ := same
    exact Or.inl rfl

theorem state_step_maintaining {s s' : State} {event : Event} (held : Maintaining s)
    (stepped : StateStep s event s') : Maintaining s' := by
  cases stepped with
  | env _ => exact held
  | idle => exact held
  | childExit _ _ done =>
    obtain ⟨_, _, _, _, _, _, rfl⟩ := handle_child_exit_reprocessed done
    exact held
  | shutdownCmd answer command =>
    apply retimed_maintaining (handle_shutdown_cmd_retimed _ command s)
    intro unset
    simp at unset
  | @expired t _ =>
    rcases expire_cases t s with same | same
    · exact retimed_maintaining same held
    · exact retimed_maintaining same held
  | maintained callback done =>
    intro unset
    rcases maintained_callback (stage_maintenance_maintained done) with same | running
    · exact absurd (same.symm.trans unset) callback
    · exact running

theorem boot_maintaining {table : BootTable} {answer : BootAnswer} {sys : System}
    (booted : boot table answer = some sys) (intact : sys.control.intact) :
    Maintaining sys.state := by
  obtain ⟨s, pid, result, s', watched, _, started, rfl⟩ := boot_intact booted intact
  obtain ⟨t, worked, alternatives⟩ := start_processes_reprocessed started
  obtain ⟨_, _, _, _, _, rfl⟩ := watched
  have callback : t.postIterationCallback ≠ none := by
    rw [(reprocessed_undisturbed worked).callback]
    simp [State.placed, closePreviousPipe, State.retimed, State.initial]
  intro unset
  rcases alternatives with rfl | rfl
  · exact absurd unset callback
  · obtain ⟨_, _, _, _, _, shape⟩ := watch_one_shots_retimed answer.start.timer t
    have same : (watchOneShots answer.start.timer t).postIterationCallback = none := unset
    rw [shape] at same
    exact absurd same callback

theorem run_maintaining {table : BootTable} {trace : List (System × Event)} {sys : System}
    (run : InitRun table trace sys) (intact : sys.control.intact) : Maintaining sys.state :=
  init_run_invariant (fun _ _ => True) Maintaining run intact (meets_always trace)
    (fun _ _ booted intact => boot_maintaining booted intact)
    (fun _ _ _ held _ stepped => state_step_maintaining held stepped)

theorem posted_occupied {table : BootTable} {answer : StartAnswer} {s s' : State}
    (maintaining : Maintaining s) (fruitful : PassesFruitful s (.postIteration answer))
    (kept : Kept False s') (held : Ordered True table s')
    (done : runPostCallback answer s = .ok s') : Occupied s' := by
  rcases run_post_callback_cases done with ⟨unset, same⟩ | ⟨callback, maintained⟩
  · obtain rfl := Except.ok.inj same
    have running := maintaining unset
    constructor <;> simp [running]
  · obtain ⟨t, advanced, ⟨_, rfl⟩ | ⟨closed, rfl⟩⟩ := stage_maintenance_cases maintained
    · exact advanced_occupied (advance_stage_advanced advanced) (fruitful callback) kept held
    · constructor <;> simp [closed]

theorem setup_safe_mode_taken {answer : SetupAnswer} {entry : InittabEntry} {s : State}
    (made : (setupSafeMode answer entry s).1 = true) :
    takenPids (setupSafeMode answer entry s).2.kernel = answer.fork :: takenPids s.kernel ∧
      (setupSafeMode answer entry s).2.remaining = s.remaining := by
  obtain ⟨pipes, closed, _⟩ := close_previous_pipe_frame s
  simp only [setupSafeMode, closed] at made ⊢
  split at made
  · simp at made
  · rename_i piped
    split at made
    · simp at made
    · rename_i memory
      rcases fork_cases ({ s.kernel with pipes := pipes } : Kernel).pipe2 answer.fork
        (.placeholder entry s.kernel.pipeCount) with ⟨free, forked⟩ | ⟨_, forked⟩
      · have positive : ¬ answer.fork < 0 := by have := free.1; omega
        simp only [piped, memory, forked, positive, ↓reduceIte]
        exact ⟨rfl, rfl⟩
      · simp [forked] at made

theorem boot_starts {table : BootTable} {answer : BootAnswer} {first : System}
    (booted : boot table answer = some first) (intact : first.control.intact) :
    ∃ u result s', takenPids u.kernel = [answer.setup.fork] ∧ u.remaining = [] ∧
      u.currentStage = .startup ∧
      startProcesses answer.start table.startupList u = .ok (result, s') ∧
      first.state = { s' with shouldExit := false } := by
  simp only [boot] at booted
  split at booted
  · rename_i made
    obtain ⟨taken, remaining⟩ := setup_safe_mode_taken made
    obtain ⟨_, _, _, _, _, watched⟩ :=
      start_watchdog_retimed answer.watchdog (State.initial table)
    split at booted
    · obtain rfl := Option.some.inj booted
      exact absurd rfl (intact _)
    · rename_i result s' started
      obtain rfl := Option.some.inj booted
      refine ⟨_, result, s', ?_, ?_, ?_, started, rfl⟩
      · rw [watched] at taken ⊢
        exact taken
      · rw [watched] at remaining ⊢
        exact remaining
      · rfl
  · simp at booted

theorem boot_occupied {table : BootTable} {answer : BootAnswer} {first : System}
    (booted : boot table answer = some first) (fruitful : BootFruitful table answer)
    (intact : first.control.intact) : Occupied first.state := by
  obtain ⟨kept, held⟩ : Kept False first.state ∧ Ordered True table first.state :=
    boot_kept_ordered booted intact
  obtain ⟨u, result, s', taken, remaining, early, started, same⟩ := boot_starts booted intact
  have stage : first.state.currentStage = .startup := by
    rw [same]
    exact (start_processes_keeps started).1.trans early
  refine ⟨?_, by simp [stage]⟩
  intro starting
  have remains : s'.remaining ≠ [] := by
    rcases starting with late | ⟨_, remains⟩
    · simp [stage] at late
    · rwa [same] at remains
  cases list : table.startupList with
  | nil =>
    simp only [list, startProcesses, Except.ok.injEq, Prod.mk.injEq] at started
    exact absurd (started.2 ▸ remaining) remains
  | cons entry rest =>
    rw [list] at started
    have passes := fruitful (by simp [list])
    rw [list, ← taken] at passes
    rcases starts_fruitful (start_processes_cons started) passes with somebody | ⟨_, finished⟩
    · have tracked : ∃ p ∈ live first.state.kernel.log, isOneShotEntry p.config = true := by
        rw [← kept.links.exact.tracked.as_logged, same]
        exact somebody
      rw [occupied_counted kept held (Or.inl stage)]
      exact ⟨one_shot_count_pos.mpr tracked, tracked⟩
    · exact absurd finished remains

/-- Init never waits for nobody, in every run that enters STAGE_SHUTDOWN without
    a leftover one-shot and in which every pass of start_processes, the one of main
    included, starts a one-shot or, at startup, comes to the end of its list. -/
theorem waiting_for_somebody {table : BootTable} {answer : BootAnswer} {first sys : System}
    {trace : List (System × Event)} (booted : boot table answer = some first)
    (steps : Run step first trace sys) (started : BootFruitful table answer)
    (assumed : Meets (fun sys event => NoLeftover sys.state event) trace)
    (fruitful : Meets (fun sys event => PassesFruitful sys.state event) trace) :
    sys.control = .waiting → Occupied sys.state := by
  induction steps with
  | start =>
    intro waiting
    exact boot_occupied booted started (waiting_intact waiting)
  | @next t u event earlier before now ih =>
    intro waiting
    obtain ⟨here, past⟩ := meets_cons.mp fruitful
    have run : InitRun table ((t, event) :: earlier) u := ⟨answer, _, booted, .next before now⟩
    have intact := waiting_intact waiting
    have ordered : Kept False u.state ∧ Ordered True table u.state :=
      run_ordered run intact (fun _ => assumed)
    have held := ih (meets_cons.mp assumed).2 past
    cases step_cases now with
    | env running moved =>
      have same := (env_frame moved).log
      have occupied := held waiting
      constructor
      · rw [same]
        exact occupied.starting
      · rw [same]
        exact occupied.ending
    | ready _ => simp at waiting
    | eintr _ => exact held rfl
    | failed _ => simp at waiting
    | dispatched called =>
      obtain ⟨_, _, settled⟩ := settle_intact intact
      simp [settled] at waiting
    | posted s queue answer =>
      obtain ⟨s', done, settled⟩ := settle_intact intact
      rw [settled] at ordered ⊢
      have maintaining := run_maintaining ⟨_, _, booted, before⟩ (step_from_intact now)
      exact posted_occupied maintaining here ordered.1 ordered.2 done

theorem waiting_for_shutdown_entry : ∃ trace sys, InitRun sampleTable trace sys ∧
    sys.control = .waiting ∧ sys.state.currentStage = .shutdown ∧ Occupied sys.state := by
  obtain ⟨run, rehearsed, waiting, stage, started, assumed, fruitful⟩ :
      ∃ run ∈ rehearse sampleTable sampleBoot (untilShutdown [14]),
      run.2.control = .waiting ∧ run.2.state.currentStage = .shutdown ∧
      BootFruitful sampleTable sampleBoot ∧ (∀ x ∈ run.1, NoLeftover x.1.state x.2) ∧
      ∀ x ∈ run.1, PassesFruitful x.1.state x.2 := by
    decide +kernel
  obtain ⟨first, booted, steps⟩ := boot_run_of_rehearse rehearsed
  exact ⟨run.1, run.2, init_run_of_rehearse rehearsed, waiting, stage,
    waiting_for_somebody booted steps started assumed fruitful waiting⟩

/-- The fork of the only shutdown entry fails, or the first calloc of the startup
    list does: init waits, and nothing it has started is there. -/
theorem waiting_for_nobody :
    (∃ trace sys, InitRun sampleTable trace sys ∧ sys.control = .waiting ∧
      sys.state.currentStage = .shutdown ∧ sys.state.pendingFinish = 0 ∧
      ∀ p ∈ live sys.state.kernel.log, p.config.type = .safeMode) ∧
    ∃ trace sys, InitRun sampleTable trace sys ∧ sys.control = .waiting ∧
      sys.state.currentStage = .startup ∧ sys.state.remaining = sampleTable.startupList ∧
      sys.state.remaining ≠ [] ∧ sys.state.pendingFinish = 0 ∧
      ∀ p ∈ live sys.state.kernel.log, p.config.type = .safeMode := by
  constructor
  · obtain ⟨run, rehearsed, facts⟩ :
        ∃ run ∈ rehearse sampleTable sampleBoot (untilShutdown [-1]),
        run.2.control = .waiting ∧ run.2.state.currentStage = .shutdown ∧
        run.2.state.pendingFinish = 0 ∧
        ∀ p ∈ live run.2.state.kernel.log, p.config.type = .safeMode := by
      decide +kernel
    exact ⟨run.1, run.2, init_run_of_rehearse rehearsed, facts⟩
  · obtain ⟨run, rehearsed, facts⟩ :
        ∃ run ∈ rehearse sampleTable { sampleBoot with start := forksAnswered [] } [],
        run.2.control = .waiting ∧ run.2.state.currentStage = .startup ∧
        run.2.state.remaining = sampleTable.startupList ∧ run.2.state.remaining ≠ [] ∧
        run.2.state.pendingFinish = 0 ∧
        ∀ p ∈ live run.2.state.kernel.log, p.config.type = .safeMode := by
      decide +kernel
    exact ⟨run.1, run.2, init_run_of_rehearse rehearsed, facts⟩

end WaitingReason
