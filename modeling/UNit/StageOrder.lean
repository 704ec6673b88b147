import Mathlib.Data.Int.Interval
import UNit.TerminationEnd

/-!
The order in which entries are started and the counter it rests on. While init
starts processes, pending_finish is the number of one-shots it still tracks, so
the next order begins only when none is left. In STAGE_STARTUP this always
holds. In STAGE_SHUTDOWN it holds as long as the stage was not entered with a
one-shot still running, which is what `clean` stands for.
-/
namespace StageOrder
open InittabEntries SafeModeRecord ProcessHistory EventHistory KernelModel InitState ProcessStart
  ChildExit StageControl MainLoop LabelledRuns TrackedChildren ReapedBatch SafeModeKeeping
  TerminationEnd

def oneShotCount (running : List Process) : Nat :=
  running.countP (fun p => isOneShotEntry p.config)

theorem one_shot_count_zero {running : List Process} :
    oneShotCount running = 0 ↔ ∀ p ∈ running, isOneShotEntry p.config = false := by
  simp [oneShotCount, List.countP_eq_zero]

theorem one_shot_count_bound {k : Kernel} {running : List Process} (held : Tracked k running) :
    oneShotCount running < 2 ^ 31 := by
  have inside : (running.map Process.pid).toFinset ⊆ Finset.Ioo 1 (2 ^ 31) := by
    intro pid member
    obtain ⟨p, tracked, same⟩ := List.mem_map.mp (List.mem_toFinset.mp member)
    exact Finset.mem_Ioo.mpr (same ▸ tracked_legal held p tracked)
  have few := Finset.card_le_card inside
  rw [List.toFinset_card_of_nodup held.nodup, Int.card_Ioo, List.length_map] at few
  have most : oneShotCount running ≤ running.length := List.countP_le_length
  omega

theorem pending_to_nat {k : Kernel} {running : List Process} (held : Tracked k running) :
    (UInt32.ofNat (oneShotCount running)).toNat = oneShotCount running := by
  have bound := one_shot_count_bound held
  exact UInt32.toNat_ofNat_of_lt' (by rw [UInt32.size]; omega)

theorem pending_zero {k : Kernel} {running : List Process} (held : Tracked k running)
    (settled : UInt32.ofNat (oneShotCount running) = 0) : oneShotCount running = 0 := by
  rw [← pending_to_nat held, settled]
  rfl

theorem one_shot_count_cons (entry : InittabEntry) (pid : Int) (running : List Process) :
    oneShotCount (⟨entry, pid⟩ :: running) =
      oneShotCount running + if isOneShotEntry entry then 1 else 0 := by
  simp only [oneShotCount, List.countP_cons]

theorem one_shot_count_removed {pid : Int} {running : List Process} {p : Process}
    (distinct : (running.map Process.pid).Nodup) (found : findProcess pid running = some p) :
    oneShotCount running = oneShotCount (running.filter (fun q => q.pid ≠ pid)) +
      if isOneShotEntry p.config then 1 else 0 := by
  have same := (tracked_perm distinct found).countP_eq (fun p => isOneShotEntry p.config)
  simpa only [oneShotCount, List.countP_cons] using same

-- Whether only runs are considered in which no one-shot is left over when
-- STAGE_SHUTDOWN is entered.
variable {clean : Prop}

def Exact (clean : Prop) (stage : Stage) : Prop :=
  stage = .startup ∨ (clean ∧ stage = .shutdown)

/-- What the history says about order and counter. -/
structure Orderly (clean : Prop) (log : List Effect) : Prop where
  startup : Justified (ForkedInOrder isStartupEntry) log
  shutdown : clean → Justified (ForkedInOrder isShutdownEntry) log
  counter : clean → Justified NoWrap log

def isOrdering : Effect → Bool
  | .fork _ _ => true
  | .pendingDecreased _ => true
  | _ => false

theorem orderly_neutral {effect : Effect} {log : List Effect} (neutral : isOrdering effect = false) :
    Orderly clean (effect :: log) ↔ Orderly clean log := by
  have allowed : ∀ kind, ForkedInOrder kind log effect ∧ NoWrap log effect := by
    intro kind
    cases effect <;> simp_all [isOrdering, ForkedInOrder, NoWrap]
  constructor
  · intro held
    exact ⟨held.startup.2, fun holds => (held.shutdown holds).2, fun holds => (held.counter holds).2⟩
  · intro held
    exact ⟨⟨(allowed _).1, held.startup⟩, fun holds => ⟨(allowed _).1, held.shutdown holds⟩,
      fun holds => ⟨(allowed isStartupEntry).2, held.counter holds⟩⟩

structure Ordered (clean : Prop) (table : BootTable) (s : State) : Prop where
  same : s.table = table
  counted : Exact clean s.currentStage →
    s.pendingFinish = UInt32.ofNat (oneShotCount s.runningProcesses)
  log : Orderly clean s.kernel.log
  attempted : ∃ rest, attempts isStartupEntry s.kernel.log ++ rest = table.startupList ∧
    (s.currentStage = .startup → rest = s.remaining) ∧ (s.currentStage = .run → rest = [])
  shuttingDown : s.currentStage = .shutdown → ∀ e ∈ s.remaining, isShutdownEntry e = true
  settled : s.currentStage = .run → oneShotCount s.runningProcesses = 0

theorem ordered_frame {table : BootTable} {s s' : State} (held : Ordered clean table s)
    (same : s'.table = s.table) (stage : s'.currentStage = s.currentStage)
    (remaining : s'.remaining = s.remaining) (pending : s'.pendingFinish = s.pendingFinish)
    (count : oneShotCount s'.runningProcesses = oneShotCount s.runningProcesses)
    (log : Orderly clean s'.kernel.log)
    (attempts : attempts isStartupEntry s'.kernel.log = attempts isStartupEntry s.kernel.log) :
    Ordered clean table s' := by
  refine ⟨same.trans held.same, ?_, log, ?_, ?_, ?_⟩
  · rw [stage, pending, count]
    exact held.counted
  · rw [attempts, stage, remaining]
    exact held.attempted
  · rw [stage, remaining]
    exact held.shuttingDown
  · rw [stage, count]
    exact held.settled

theorem retimed_ordered {table : BootTable} {s s' : State} (same : Retimed s s')
    (held : Ordered clean table s) : Ordered clean table s' := by
  obtain ⟨_, _, _, _, _, rfl⟩ := same
  exact ordered_frame held rfl rfl rfl rfl rfl held.log rfl

theorem requested_ordered {table : BootTable} {s : State} (held : Ordered clean table s)
    (q : Nat) (info : SharedInfo) : Ordered clean table (State.requested s q info) :=
  ordered_frame held rfl rfl rfl rfl rfl
    ((orderly_neutral rfl).mpr ((orderly_neutral rfl).mpr held.log)) rfl

theorem placed_ordered {table : BootTable} {s : State} {entry : InittabEntry} {pid : Int}
    (held : Ordered clean table s) (kind : entry.type = .safeMode) :
    Ordered clean table (State.placed (closePreviousPipe s) entry pid) := by
  obtain ⟨pipes, closed, _⟩ := close_previous_pipe_frame s
  rw [closed]
  refine ordered_frame held rfl rfl rfl rfl ?_ ((orderly_neutral rfl).mpr held.log) rfl
  simp [State.placed, one_shot_count_cons, safe_mode_not_one_shot kind]

theorem counting_stage {s : State} {p : Process} (counts : countsPending s p = true) :
    isOneShotEntry p.config = true ∧ (s.currentStage = .startup ∨ s.currentStage = .shutdown) := by
  simpa [countsPending] using counts

theorem counted_reap_ordered {table : BootTable} {s : State} {w : Int × WaitStatus} {p : Process}
    (exact : ListExact s) (held : Ordered clean table s)
    (found : findProcess w.1 s.runningProcesses = some p) (counts : countsPending s p = true) :
    Ordered clean table (State.reaped s w (some p)) := by
  obtain ⟨kind, stage⟩ := counting_stage counts
  have removed := one_shot_count_removed exact.tracked.nodup found
  have bound := one_shot_count_bound exact.tracked
  simp only [kind, ↓reduceIte] at removed
  have less : Exact clean s.currentStage → s.pendingFinish - 1 =
      UInt32.ofNat (oneShotCount (s.runningProcesses.filter (fun q => q.pid ≠ w.1))) := by
    intro known
    rw [held.counted known, removed, UInt32.ofNat_add]
    exact UInt32.add_sub_cancel _ _
  have before : Orderly clean (s.kernel.waited w.1 w.2).log := (orderly_neutral rfl).mpr held.log
  rw [reaped_counted w counts]
  refine ⟨held.same, less, ?_, held.attempted, held.shuttingDown, ?_⟩
  · refine ⟨⟨trivial, before.startup⟩, fun holds => ⟨trivial, before.shutdown holds⟩, ?_⟩
    intro holds
    have known : Exact clean s.currentStage := stage.imp_right (fun late => ⟨holds, late⟩)
    refine ⟨?_, before.counter holds⟩
    -- the count before was positive, so the counter did not pass below 0
    simp only [NoWrap, less known]
    rw [UInt32.toNat_ofNat_of_lt' (by rw [UInt32.size]; omega)]
    omega
  · intro running
    have settled : s.currentStage = .run := running
    simp [settled] at stage

theorem uncounted_reap_ordered {table : BootTable} {s : State} {w : Int × WaitStatus}
    {p : Process} (exact : ListExact s) (held : Ordered clean table s)
    (found : findProcess w.1 s.runningProcesses = some p) (counts : countsPending s p = false) :
    Ordered clean table (State.reaped s w (some p)) := by
  have removed := one_shot_count_removed exact.tracked.nodup found
  rw [reaped_uncounted w counts]
  refine ⟨held.same, ?_, (orderly_neutral rfl).mpr held.log, held.attempted,
    held.shuttingDown, ?_⟩
  · intro known
    have plain : isOneShotEntry p.config = false := by
      rcases known with early | ⟨_, late⟩ <;> simp_all [countsPending]
    simp only [plain, Bool.false_eq_true, ↓reduceIte, Nat.add_zero] at removed
    simp only [held.counted known, removed]
  · intro running
    have none := held.settled running
    dsimp only
    omega

theorem reaped_ordered {table : BootTable} {s : State} (exact : ListExact s)
    (held : Ordered clean table s) (w : Int × WaitStatus) :
    Ordered clean table (State.reaped s w (findProcess w.1 s.runningProcesses)) := by
  cases found : findProcess w.1 s.runningProcesses with
  | none =>
    refine ordered_frame held rfl rfl rfl rfl ?_ ((orderly_neutral rfl).mpr held.log) rfl
    simp only [State.reaped, filter_untracked found]
  | some p =>
    cases counts : countsPending s p with
    | true => exact counted_reap_ordered exact held found counts
    | false => exact uncounted_reap_ordered exact held found counts

/-- The loop of start_processes between two entries: every one-shot it knows of
    has the current order, and there is none as long as the flag is not set. -/
structure Passing (clean : Prop) (table : BootTable) (order : Int) (has : Bool)
    (list : List InittabEntry) (t : State) : Prop where
  exact : ListExact t
  same : t.table = table
  starting : t.currentStage = .startup ∨ t.currentStage = .shutdown
  counted : Exact clean t.currentStage →
    t.pendingFinish = UInt32.ofNat (oneShotCount t.runningProcesses)
  level : Exact clean t.currentStage →
    ∀ p ∈ t.runningProcesses, isOneShotEntry p.config = true → p.config.order = order
  none : Exact clean t.currentStage → has = false → oneShotCount t.runningProcesses = 0
  log : Orderly clean t.kernel.log
  startup : t.currentStage = .startup →
    attempts isStartupEntry t.kernel.log ++ list = table.startupList
  shutdown : t.currentStage = .shutdown →
    attempts isStartupEntry t.kernel.log <+: table.startupList ∧
      ∀ e ∈ list, isShutdownEntry e = true

variable {table : BootTable} {order : Int} {has : Bool} {entry : InittabEntry}
  {rest : List InittabEntry} {t : State}

theorem passing_startup_kind (held : Passing clean table order has (entry :: rest) t)
    (early : t.currentStage = .startup) : isStartupEntry entry = true := by
  apply table.startup_kinds entry
  rw [← held.startup early]
  simp

theorem passing_fork_orderly (held : Passing clean table order has (entry :: rest) t)
    (here : entry.order = order) (result : Int) :
    Orderly clean (.fork entry result :: t.kernel.log) := by
  have inOrder : Exact clean t.currentStage →
      ∀ kind, ForkedInOrder kind t.kernel.log (.fork entry result) := by
    intro known kind _ p alive oneShot smaller
    have tracked : p ∈ t.runningProcesses := held.exact.tracked.as_logged ▸ alive
    have same := held.level known p tracked oneShot
    omega
  refine ⟨⟨?_, held.log.startup⟩, fun holds => ⟨?_, held.log.shutdown holds⟩,
    fun holds => ⟨trivial, held.log.counter holds⟩⟩
  · rcases held.starting with early | late
    · exact inOrder (Or.inl early) _
    · intro kind
      have other := shutdown_not_startup ((held.shutdown late).2 entry List.mem_cons_self)
      simp [other] at kind
  · rcases held.starting with early | late
    · exact inOrder (Or.inl early) _
    · exact inOrder (Or.inr ⟨holds, late⟩) _

theorem passing_fork_attempts (held : Passing clean table order has (entry :: rest) t)
    (result : Int) :
    (t.currentStage = .startup →
      attempts isStartupEntry (.fork entry result :: t.kernel.log) ++ rest = table.startupList) ∧
    (t.currentStage = .shutdown →
      attempts isStartupEntry (.fork entry result :: t.kernel.log) <+: table.startupList ∧
        ∀ e ∈ rest, isShutdownEntry e = true) := by
  constructor
  · intro early
    have kind := passing_startup_kind held early
    simp only [attempts, kind, ↓reduceIte, List.append_assoc, List.singleton_append]
    exact held.startup early
  · intro late
    obtain ⟨sofar, kinds⟩ := held.shutdown late
    have other := shutdown_not_startup (kinds entry List.mem_cons_self)
    refine ⟨?_, fun e later => kinds e (List.mem_cons_of_mem entry later)⟩
    simpa only [attempts, other, Bool.false_eq_true, ↓reduceIte, List.append_nil] using sofar

theorem next_order_level {has' : Bool} {running : List Process}
    (level : ∀ p ∈ running, isOneShotEntry p.config = true → p.config.order = order)
    (none : has' = false → oneShotCount running = 0) :
    ∀ p ∈ running, isOneShotEntry p.config = true →
      p.config.order = nextOrder order has' rest := by
  intro p tracked oneShot
  cases has' with
  | true =>
    have stays : nextOrder order true rest = order := by
      cases rest <;> simp [nextOrder]
    rw [stays]
    exact level p tracked oneShot
  | false => simp [one_shot_count_zero.mp (none rfl) p tracked] at oneShot

theorem started_passing {pid : Int} (held : Passing clean table order has (entry :: rest) t)
    (here : entry.order = order) (free : t.kernel.PidFree pid) :
    Passing clean table (nextOrder order (has || isOneShotEntry entry) rest)
      (has || isOneShotEntry entry) rest (State.started t entry pid) := by
  have attempts := passing_fork_attempts held pid
  have none : Exact clean t.currentStage → (has || isOneShotEntry entry) = false →
      oneShotCount (⟨entry, pid⟩ :: t.runningProcesses) = 0 := by
    intro known still
    simp only [Bool.or_eq_false_iff] at still
    rw [one_shot_count_cons, held.none known still.1, still.2]
    rfl
  refine ⟨started_exact held.exact entry free, held.same, held.starting, ?_, ?_, none,
    passing_fork_orderly held here pid, attempts.1, attempts.2⟩
  · intro known
    simp only [State.started, one_shot_count_cons, held.counted known]
    cases isOneShotEntry entry <;> simp
  · intro known
    refine next_order_level ?_ (none known)
    intro p member oneShot
    rcases List.mem_cons.mp member with rfl | tracked
    · exact here
    · exact held.level known p tracked oneShot

theorem failed_passing {t' : State} (held : Passing clean table order has (entry :: rest) t)
    (exact : ListExact t') (same : t'.table = t.table)
    (stage : t'.currentStage = t.currentStage) (pending : t'.pendingFinish = t.pendingFinish)
    (running : t'.runningProcesses = t.runningProcesses) (log : Orderly clean t'.kernel.log)
    (attempted : attempts isStartupEntry t'.kernel.log =
      attempts isStartupEntry (.fork entry (-1) :: t.kernel.log)) :
    Passing clean table (nextOrder order has rest) has rest t' := by
  have attempts := passing_fork_attempts held (-1)
  rw [← attempted, ← stage] at attempts
  refine ⟨exact, same.trans held.same, stage ▸ held.starting, ?_, ?_, ?_, log, attempts.1,
    attempts.2⟩
  · rw [stage, pending, running]
    exact held.counted
  · rw [stage, running]
    exact fun known => next_order_level (held.level known) (held.none known)
  · rw [stage, running]
    exact held.none

theorem spawn_entry_passing {answer : SpawnAnswer} {has' : Bool} {t' : State}
    (held : Passing clean table order has (entry :: rest) t) (here : entry.order = order)
    (done : spawnEntry answer entry has t = .ok (has', t')) :
    Passing clean table (nextOrder order has' rest) has' rest t' := by
  have exact := spawn_entry_exact held.exact done
  have log := passing_fork_orderly held here (-1)
  rcases spawn_entry_cases done with ⟨pid, free, rfl, rfl⟩ | ⟨rfl, _, q, _, _, _, _, rfl⟩ |
    ⟨rfl, _, rfl⟩
  · exact started_passing held here free
  · exact failed_passing held exact rfl rfl rfl rfl
      ((orderly_neutral rfl).mpr ((orderly_neutral rfl).mpr log)) rfl
  · exact failed_passing held exact rfl rfl rfl rfl log rfl

theorem passing_ordered {left : List InittabEntry} (kept : Passing clean table order has left t) :
    Ordered clean table { t with remaining := left } := by
  refine ⟨kept.same, kept.counted, kept.log, ?_, fun late => (kept.shutdown late).2, ?_⟩
  · rcases kept.starting with early | late
    · exact ⟨left, kept.startup early, fun _ => rfl, by simp [early]⟩
    · obtain ⟨more, whole⟩ := (kept.shutdown late).1
      exact ⟨more, whole, by simp [late], by simp [late]⟩
  · intro running
    have starting := kept.starting
    simp_all

theorem starts_ordered {answer : StartAnswer} {list : List InittabEntry} {s s' : State}
    (entering : ∀ order, Passing clean table order false list { s with pendingFinish := 0 })
    (starts : Starts answer list s s') : Ordered clean table s' := by
  obtain ⟨_, _, _, _, kept, retimed⟩ := starts_rule (Passing clean table)
    (fun _ _ _ _ _ _ _ _ held here done => spawn_entry_passing held here done) starts entering
  exact retimed_ordered retimed (passing_ordered kept)

theorem passing_enters {list : List InittabEntry} {s : State} (exact : ListExact s)
    (same : s.table = table)
    (starting : s.currentStage = .startup ∨ s.currentStage = .shutdown)
    (none : Exact clean s.currentStage → oneShotCount s.runningProcesses = 0)
    (log : Orderly clean s.kernel.log)
    (startup : s.currentStage = .startup →
      attempts isStartupEntry s.kernel.log ++ list = table.startupList)
    (shutdown : s.currentStage = .shutdown →
      attempts isStartupEntry s.kernel.log <+: table.startupList ∧
        ∀ e ∈ list, isShutdownEntry e = true) (order : Int) :
    Passing clean table order false list { s with pendingFinish := 0 } := by
  refine ⟨⟨exact.tracked, exact.kills⟩, same, starting, ?_, ?_, fun known _ => none known, log,
    startup, shutdown⟩
  · intro known
    simp only [none known]
    rfl
  · intro known p tracked oneShot
    simp [one_shot_count_zero.mp (none known) p tracked] at oneShot

theorem passing_continues {s s' : State} (exact : ListExact s) (held : Ordered clean table s)
    (starting : s.currentStage = .startup ∨ s.currentStage = .shutdown)
    (settled : s.pendingFinish = 0) (before : Retimed s s') (order : Int) :
    Passing clean table order false s.remaining { s' with pendingFinish := 0 } := by
  have exact' := retimed_exact before exact
  obtain ⟨_, _, _, _, _, rfl⟩ := before
  obtain ⟨rest, whole, early, _⟩ := held.attempted
  refine passing_enters exact' held.same starting ?_ held.log ?_ ?_ order
  · intro known
    exact pending_zero exact.tracked ((held.counted known).symm.trans settled)
  · intro stage
    exact early stage ▸ whole
  · intro stage
    exact ⟨⟨rest, whole⟩, held.shuttingDown stage⟩

/-- STAGE_SHUTDOWN is not entered with a one-shot as the last process after the
    safe-mode process has ended. -/
def NoLeftover (s : State) : Event → Prop
  | .postIteration _ => s.currentStage = .termination → s.table.shutdownList ≠ [] →
      SafeModeEnded s.kernel.log → atMostOne s.runningProcesses = true →
      oneShotCount s.runningProcesses = 0
  | _ => True

instance (s : State) : (event : Event) → Decidable (NoLeftover s event)
  | .postIteration _ => inferInstanceAs (Decidable (s.currentStage = .termination →
      s.table.shutdownList ≠ [] → SafeModeEnded s.kernel.log →
      atMostOne s.runningProcesses = true → oneShotCount s.runningProcesses = 0))
  | .env _ => .isTrue trivial
  | .epollWait _ => .isTrue trivial
  | .dispatch _ => .isTrue trivial

theorem none_left {s : State} {answer : StartAnswer} (kept : Kept False s)
    (assumed : NoLeftover s (.postIteration answer)) (ending : s.currentStage = .termination)
    (listed : s.table.shutdownList ≠ []) (few : atMostOne s.runningProcesses = true) :
    oneShotCount s.runningProcesses = 0 := by
  rcases kept.settled with ⟨one, _⟩ | ⟨_, ended, _⟩
  · obtain ⟨p, tracked, kind, _⟩ := safe_mode_single one
    rw [one_shot_count_zero]
    intro x member
    have same : x = p := by
      cases running : s.runningProcesses with
      | nil => simp [running] at tracked
      | cons first rest =>
        cases rest with
        | nil => simp_all
        | cons second more => simp [running, atMostOne] at few
    rw [same]
    exact safe_mode_not_one_shot kind
  · exact assumed ending listed ended few

theorem passing_shuts_down {s : State} {answer : StartAnswer} (kept : Kept False s)
    (held : Ordered clean table s) (assumed : clean → NoLeftover s (.postIteration answer))
    (ending : s.currentStage = .termination) (listed : s.table.shutdownList ≠ [])
    (few : atMostOne s.runningProcesses = true) (order : Int) :
    Passing clean table order false s.table.shutdownList
      { s with currentStage := .shutdown, pendingFinish := 0 } := by
  have entering : ListExact { s with currentStage := .shutdown } :=
    ⟨kept.links.exact.tracked, kept.links.exact.kills⟩
  obtain ⟨rest, whole, _⟩ := held.attempted
  refine passing_enters entering held.same (Or.inr rfl) ?_ held.log (by simp) ?_ order
  · rintro (early | ⟨holds, _⟩)
    · simp at early
    · have none := none_left kept (assumed holds) ending listed few
      exact none
  · intro _
    exact ⟨⟨rest, whole⟩, s.table.shutdown_kinds⟩

theorem restaged_ordered {s s' : State} (held : Ordered clean table s)
    (same : s'.table = s.table) (idle : ¬ (s'.currentStage = .startup ∨
      s'.currentStage = .shutdown ∨ s'.currentStage = .run))
    (log : Orderly clean s'.kernel.log)
    (attempted : attempts isStartupEntry s'.kernel.log = attempts isStartupEntry s.kernel.log) :
    Ordered clean table s' := by
  simp only [not_or] at idle
  obtain ⟨rest, whole, _⟩ := held.attempted
  refine ⟨same.trans held.same, ?_, log, ?_, ?_, ?_⟩
  · rintro (early | ⟨_, late⟩)
    · exact absurd early idle.1
    · exact absurd late idle.2.1
  · exact ⟨rest, attempted ▸ whole, fun early => absurd early idle.1,
      fun running => absurd running idle.2.2⟩
  · intro late
    exact absurd late idle.2.1
  · intro running
    exact absurd running idle.2.2

theorem maintained_ordered {answer : StartAnswer} {s s' : State} (kept : Kept False s)
    (held : Ordered clean table s) (assumed : clean → NoLeftover s (.postIteration answer))
    (done : Maintained answer s s') : Ordered clean table s' := by
  have exact := kept.links.exact
  cases done with
  | unchanged same => exact retimed_ordered same held
  | started starting settled before starts =>
    exact starts_ordered (passing_continues exact held starting settled before) starts
  | toRun starting settled exhausted same =>
    apply retimed_ordered same
    obtain ⟨rest, whole, early, _⟩ := held.attempted
    refine ⟨held.same, ?_, held.log, ?_, ?_, ?_⟩
    · rintro (stage | ⟨_, stage⟩) <;> simp at stage
    · exact ⟨rest, whole, by simp, fun _ => (early starting).trans exhausted⟩
    · intro stage
      simp at stage
    · intro _
      exact pending_zero exact.tracked ((held.counted (Or.inl starting)).symm.trans settled)
  | toClose _ _ _ same =>
    exact retimed_ordered same (restaged_ordered held rfl (by simp) held.log rfl)
  | toShutdown ending few starts same =>
    have listed : s.table.shutdownList ≠ [] := by
      obtain ⟨first, more, _, listed, _⟩ := starts
      simp [listed]
    have entering := passing_shuts_down kept held assumed ending listed few
    exact retimed_ordered same (starts_ordered entering starts)
  | straightToClose _ _ _ same =>
    exact retimed_ordered same (restaged_ordered held rfl (by simp) held.log rfl)

theorem signalled_ordered {s : State} (held : Ordered clean table s) (signal : KillSignal) :
    Ordered clean table { s with kernel := signalAll signal s.runningProcesses s.kernel } := by
  have log := signal_all_observed (Orderly clean) (fun _ _ _ => propext (orderly_neutral rfl))
    signal s.runningProcesses s.kernel
  have attempted := signal_all_observed (attempts isStartupEntry) (fun _ _ _ => rfl) signal
    s.runningProcesses s.kernel
  exact ordered_frame held rfl rfl rfl rfl rfl (log.symm ▸ held.log) attempted

theorem shutdown_cmd_ordered {s : State} (held : Ordered clean table s) (answer : TimerAnswer)
    (command : RebootCommand) : Ordered clean table (handleShutdownCmd answer command s) := by
  apply retimed_ordered (handle_shutdown_cmd_retimed answer command s)
  have noted : Ordered clean table
      { s with kernel := s.kernel.note (.shutdownCommand command) } :=
    ordered_frame held rfl rfl rfl rfl rfl ((orderly_neutral rfl).mpr held.log) rfl
  have signalled := signalled_ordered noted .sigterm
  exact restaged_ordered signalled rfl (by simp) signalled.log rfl

theorem expire_ordered {s : State} (held : Ordered clean table s) (timeout : MainloopTimeout) :
    Ordered clean table (expire timeout s) := by
  rcases expire_cases timeout s with same | same
  · exact retimed_ordered same held
  · exact retimed_ordered same (signalled_ordered held .sigkill)

theorem reap_one_ordered {w : Int × WaitStatus} {r r' : Reaping} {s s' : State}
    (held : ListExact s ∧ Ordered clean table s) (done : reapOne w r s = .ok (r', s')) :
    ListExact s' ∧ Ordered clean table s' := by
  have exact := reap_one_exact held.1 done
  obtain ⟨rfl, _⟩ := reap_one_cases held.1.tracked.nodup done
  exact ⟨exact, reaped_ordered held.1 held.2 w⟩

theorem reap_loop_ordered {answer : WaitAnswer} {r : Reaping} {s s' : State}
    (exact : ListExact s) (held : Ordered clean table s)
    (looped : reapLoop answer.last answer.results .initial s = .ok (r, s')) :
    ListExact s' ∧ Ordered clean table s' :=
  (reap_loop_rule (fun _ _ s => ListExact s ∧ Ordered clean table s)
    (fun _ _ _ _ _ _ held done => reap_one_ordered held done) ⟨exact, held⟩ looped).1

theorem request_ordered {answers : List WriteAnswer} {r : Reaping} {s s' : State}
    (held : Ordered clean table s) (done : requestSafeMode answers r s = .ok s') :
    Ordered clean table s' := by
  rcases request_safe_mode_cases done with ⟨_, rfl⟩ | ⟨_, q, _, _, _, _, rfl⟩
  · exact held
  · exact requested_ordered held q _

theorem handle_child_exit_ordered {answer : ExitAnswer} {s s' : State} (exact : ListExact s)
    (held : Ordered clean table s) (done : handleChildExit answer s = .ok s') :
    Ordered clean table s' := by
  obtain ⟨r, s1, s2, looped, requested, restarted⟩ := handle_child_exit_ok done
  have second := request_ordered (reap_loop_ordered exact held looped).2 requested
  rcases restart_placeholder_cases restarted with ⟨_, rfl⟩ | ⟨_, pid, _, rfl⟩
  · exact second
  · exact placed_ordered second s2.table.safe_mode_kind

theorem state_step_ordered {s s' : State} {event : Event} (kept : Kept False s)
    (held : Ordered clean table s) (assumed : clean → NoLeftover s event)
    (stepped : StateStep s event s') : Ordered clean table s' := by
  cases stepped with
  | env moved =>
    have log := (env_frame moved).log
    exact ordered_frame held rfl rfl rfl rfl rfl (log.symm ▸ held.log)
      (congrArg (attempts isStartupEntry) log)
  | idle => exact held
  | childExit _ _ done => exact handle_child_exit_ordered kept.links.exact held done
  | shutdownCmd answer command => exact shutdown_cmd_ordered held _ command
  | expired _ => exact expire_ordered held _
  | maintained _ done =>
    exact maintained_ordered kept held assumed (stage_maintenance_maintained done)

structure OrderlyEnd (clean : Prop) (table : BootTable) (s : State) : Prop where
  log : Orderly clean s.kernel.log
  attempted : attempts isStartupEntry s.kernel.log <+: table.startupList
  settled : s.currentStage = .run →
    attempts isStartupEntry s.kernel.log = table.startupList ∧
      ∀ p ∈ live s.kernel.log, isOneShotEntry p.config = false

theorem ordered_end {s : State} (exact : ListExact s) (held : Ordered clean table s) :
    OrderlyEnd clean table s := by
  obtain ⟨rest, whole, _, running⟩ := held.attempted
  refine ⟨held.log, ⟨rest, whole⟩, ?_⟩
  intro stage
  rw [running stage, List.append_nil] at whole
  refine ⟨whole, ?_⟩
  rw [← exact.tracked.as_logged]
  exact one_shot_count_zero.mp (held.settled stage)

theorem halted_end {s s' : State} (held : OrderlyEnd clean table s)
    (stage : s'.currentStage = s.currentStage) (log : Orderly clean s'.kernel.log)
    (attempted : attempts isStartupEntry s'.kernel.log = attempts isStartupEntry s.kernel.log)
    (alive : ∀ p ∈ live s'.kernel.log, p ∈ live s.kernel.log) : OrderlyEnd clean table s' := by
  refine ⟨log, attempted ▸ held.attempted, ?_⟩
  intro running
  obtain ⟨whole, none⟩ := held.settled (stage ▸ running)
  exact ⟨attempted ▸ whole, fun p member => none p (alive p member)⟩

theorem request_halted_end {name : List UInt8} {sig : Int} {answers : List WriteAnswer}
    {s : State} {stop : Stop} (held : OrderlyEnd clean table s)
    (failed : startSafeMode name sig answers s = .error stop) :
    OrderlyEnd clean table stop.state := by
  rcases start_safe_mode_error failed with ⟨same, _⟩ | ⟨q, _, _, _, _, same⟩
  · rw [same]
    exact held
  · rw [same]
    exact halted_end held rfl ((orderly_neutral rfl).mpr held.log) rfl (fun _ member => member)

theorem handle_child_exit_halted_end {answer : ExitAnswer} {s : State} {stop : Stop}
    (exact : ListExact s) (held : Ordered clean table s)
    (failed : handleChildExit answer s = .error stop) : OrderlyEnd clean table stop.state := by
  rcases handle_child_exit_error failed with looped | ⟨r, s1, looped, ⟨_, halted⟩ | halted⟩
  · have stopped := reap_loop_error (fun _ _ s => ListExact s ∧ Ordered clean table s)
      (fun _ _ _ _ _ _ held done => reap_one_ordered held done) ⟨exact, held⟩ looped
    rcases stopped with ⟨w, _, r, s1, ⟨exact, held⟩, stopped⟩ | ⟨_, _, _, ⟨exact, held⟩, _⟩
    · obtain ⟨_, _, same⟩ := reap_one_error exact.tracked.nodup stopped
      rw [same]
      refine halted_end (ordered_end exact held) rfl ((orderly_neutral rfl).mpr held.log) rfl ?_
      intro p member
      exact List.mem_of_mem_filter member
    · exact ordered_end exact held
  · obtain ⟨exact, held⟩ := reap_loop_ordered exact held looped
    exact request_halted_end (ordered_end exact held) halted
  · obtain ⟨s2, requested, _, unmade, same⟩ := halted
    obtain ⟨exact, held⟩ := reap_loop_ordered exact held looped
    have second := request_ordered held requested
    have asked := request_exact exact requested
    obtain ⟨k, shape, log, _⟩ := setup_safe_mode_failed unmade
    rw [same, shape]
    refine halted_end (ordered_end asked second) rfl (log.symm ▸ second.log)
      (congrArg (attempts isStartupEntry) log) ?_
    intro p member
    exact log ▸ member

theorem starts_halted_end {answer : StartAnswer} {list : List InittabEntry} {s : State}
    {stop : Stop}
    (entering : ∀ order, Passing clean table order false list { s with pendingFinish := 0 })
    (halted : StartsHalted answer list s stop) : OrderlyEnd clean table stop.state := by
  obtain ⟨order, has, entry, rest, t, write, held, here, _, failed⟩ := starts_halted_rule
    (Passing clean table)
    (fun _ _ _ _ _ _ _ _ held here done => spawn_entry_passing held here done) halted entering
  have log := passing_fork_orderly held here (-1)
  have attempts := passing_fork_attempts held (-1)
  refine request_halted_end ⟨log, ?_, ?_⟩ failed
  · rcases held.starting with early | late
    · exact ⟨rest, attempts.1 early⟩
    · exact (attempts.2 late).1
  · intro running
    have stage : t.currentStage = .run := running
    have starting := held.starting
    simp_all

theorem maintenance_halted_end {answer : StartAnswer} {s : State} {stop : Stop}
    (kept : Kept False s) (held : Ordered clean table s)
    (assumed : clean → NoLeftover s (.postIteration answer))
    (halted : MaintenanceHalted answer s stop) : OrderlyEnd clean table stop.state := by
  cases halted with
  | starting starting settled before halted =>
    exact starts_halted_end (passing_continues kept.links.exact held starting settled before)
      halted
  | shuttingDown ending few halted =>
    have listed : s.table.shutdownList ≠ [] := by
      obtain ⟨first, more, listed, _⟩ := halted
      simp [listed]
    exact starts_halted_end (passing_shuts_down kept held assumed ending listed few) halted
  | exitTwice done _ _ assertion =>
    have maintained := advance_stage_maintained done
    rw [assertion]
    exact ordered_end (maintained_exact kept.links.exact maintained)
      (maintained_ordered kept held assumed maintained)

theorem passing_boots {table : BootTable} {s : State} {pid : Int}
    (watched : Retimed (State.initial table) s) (free : s.kernel.PidFree pid) (order : Int) :
    Passing clean table order false table.startupList
      { State.placed (closePreviousPipe s) table.safeModeEntry pid with
        currentStage := .startup, pendingFinish := 0 } := by
  have kept : Kept False _ := set_up_kept watched free
  have exact := kept.links.exact
  obtain ⟨_, _, _, _, _, rfl⟩ := watched
  have fresh : Orderly clean [] := ⟨trivial, fun _ => trivial, fun _ => trivial⟩
  refine passing_enters exact rfl (Or.inl rfl) ?_ ((orderly_neutral rfl).mpr fresh) ?_ (by simp)
    order
  · intro _
    simp [State.placed, closePreviousPipe, State.retimed, State.initial,
      safe_mode_not_one_shot table.safe_mode_kind, oneShotCount]
  · intro _
    rfl

theorem boot_ordered {table : BootTable} {answer : BootAnswer} {sys : System}
    (booted : boot table answer = some sys) (intact : sys.control.intact) :
    Ordered clean table sys.state := by
  obtain ⟨s, pid, result, s', watched, free, started, rfl⟩ := boot_intact booted intact
  have entering : ∀ order, Passing clean table order false table.startupList _ :=
    passing_boots watched free
  have final : Ordered clean table s' := by
    rcases start_processes_cases started with ⟨empty, rfl⟩ | starts
    · have done := passing_ordered (entering 0)
      rw [empty] at done
      obtain ⟨_, _, _, _, _, rfl⟩ := watched
      exact done
    · exact starts_ordered entering starts
  exact retimed_ordered ⟨_, _, _, _, _, rfl⟩ final

theorem boot_kept_ordered {table : BootTable} {answer : BootAnswer} {sys : System}
    (booted : boot table answer = some sys) (intact : sys.control.intact) :
    Kept False sys.state ∧ Ordered clean table sys.state :=
  ⟨boot_kept booted intact, boot_ordered booted intact⟩

theorem step_kept_ordered {table : BootTable} {s s' : State} {event : Event}
    (held : Kept False s ∧ Ordered clean table s) (assumed : clean → NoLeftover s event)
    (stepped : StateStep s event s') : Kept False s' ∧ Ordered clean table s' :=
  ⟨state_step_kept held.1 False.elim stepped, state_step_ordered held.1 held.2 assumed stepped⟩

theorem run_ordered {table : BootTable} {trace : List (System × Event)} {sys : System}
    (run : InitRun table trace sys) (intact : sys.control.intact)
    (meets : clean → Meets (fun sys event => NoLeftover sys.state event) trace) :
    Kept False sys.state ∧ Ordered clean table sys.state :=
  init_run_invariant (fun s event => clean → NoLeftover s event)
    (fun s => Kept False s ∧ Ordered clean table s) run intact
    (fun x member holds => meets holds x member)
    (fun _ _ booted intact => boot_kept_ordered booted intact)
    (fun _ _ _ held assumed stepped => step_kept_ordered held assumed stepped)

theorem run_orderly {table : BootTable} {trace : List (System × Event)} {sys : System}
    (run : InitRun table trace sys)
    (meets : clean → Meets (fun sys event => NoLeftover sys.state event) trace) :
    OrderlyEnd clean table sys.state := by
  refine init_run_outcome (fun s event => clean → NoLeftover s event)
    (fun s => Kept False s ∧ Ordered clean table s) (OrderlyEnd clean table) run
    (fun x member holds => meets holds x member)
    (fun _ _ booted intact => boot_kept_ordered booted intact)
    (fun _ _ _ held assumed stepped => step_kept_ordered held assumed stepped)
    (fun _ held => ordered_end held.1.links.exact held.2) ?_ ?_
  · intro answer first halt booted halted
    obtain ⟨s, pid, stop, watched, free, failed, rfl⟩ := boot_halted booted halted
    exact starts_halted_end (passing_boots watched free) failed
  · intro s event s' held assumed stopped
    cases stopped with
    | same => exact ordered_end held.1.links.exact held.2
    | childExit _ _ failed => exact handle_child_exit_halted_end held.1.links.exact held.2 failed
    | maintenance failed =>
      exact maintenance_halted_end held.1 held.2 assumed (stage_maintenance_error failed)

/-- Every run forks the startup entries one by one in the order of the list, an
    entry only when no one-shot of a smaller order is live, and reaches STAGE_RUN
    only with every entry tried and every one-shot reaped. -/
theorem startup_in_order {table : BootTable} {trace : List (System × Event)} {sys : System}
    (run : InitRun table trace sys) :
    attempts isStartupEntry sys.state.kernel.log <+: table.startupList ∧
    (∀ later past e result, sys.state.kernel.log = later ++ .fork e result :: past →
      isStartupEntry e = true → ∀ p ∈ live past, isOneShotEntry p.config = true →
        ¬ p.config.order < e.order) ∧
    (sys.state.currentStage = .run →
      attempts isStartupEntry sys.state.kernel.log = table.startupList ∧
        ∀ p ∈ live sys.state.kernel.log, isOneShotEntry p.config = false) := by
  have held : OrderlyEnd False table sys.state := run_orderly run False.elim
  refine ⟨held.attempted, ?_, held.settled⟩
  intro later past e result split
  exact justified_iff.mp held.log.startup later (.fork e result) past split

theorem startup_in_order_to_run : ∃ trace sys, InitRun sampleTable trace sys ∧
    sys.state.currentStage = .run ∧
    attempts isStartupEntry sys.state.kernel.log = sampleTable.startupList := by
  obtain ⟨run, rehearsed, stage⟩ : ∃ run ∈ rehearse sampleTable sampleBoot
      (.env (.childDies 13 (.exited 0)) ::
        handled .signal (childSignal [(13, .exited 0)] (-1)) []),
      run.2.state.currentStage = .run := by
    decide +kernel
  have reached := init_run_of_rehearse rehearsed
  exact ⟨run.1, run.2, reached, stage, ((startup_in_order reached).2.2 stage).1⟩

/-- In every run that enters STAGE_SHUTDOWN without a leftover one-shot the
    counter is exact while init starts processes, it is never decremented at 0,
    and shutdown entries are forked order by order. -/
theorem pending_counter_exact {table : BootTable} {trace : List (System × Event)} {sys : System}
    (run : InitRun table trace sys)
    (assumed : Meets (fun sys event => NoLeftover sys.state event) trace) :
    (sys.control.intact → sys.state.currentStage = .startup ∨ sys.state.currentStage = .shutdown →
      sys.state.pendingFinish.toNat = oneShotCount sys.state.runningProcesses) ∧
    (∀ later past value, sys.state.kernel.log = later ++ .pendingDecreased value :: past →
      value.toNat + 1 < 2 ^ 32) ∧
    ∀ later past e result, sys.state.kernel.log = later ++ .fork e result :: past →
      isShutdownEntry e = true → ∀ p ∈ live past, isOneShotEntry p.config = true →
        ¬ p.config.order < e.order := by
  have held : OrderlyEnd True table sys.state := run_orderly run (fun _ => assumed)
  refine ⟨?_, ?_, ?_⟩
  · intro intact starting
    have ordered : Kept False sys.state ∧ Ordered True table sys.state :=
      run_ordered run intact (fun _ => assumed)
    have known : Exact True sys.state.currentStage := starting.imp_right (fun late => ⟨trivial, late⟩)
    rw [ordered.2.counted known]
    exact pending_to_nat ordered.1.links.exact.tracked
  · intro later past value split
    exact justified_iff.mp (held.log.counter trivial) later (.pendingDecreased value) past split
  · intro later past e result split
    exact justified_iff.mp (held.log.shutdown trivial) later (.fork e result) past split

theorem pending_counter_exact_on_shutdown : ∃ trace sys, InitRun sampleTable trace sys ∧
    sys.state.currentStage = .shutdown ∧ sys.state.pendingFinish = 1 ∧
    oneShotCount sys.state.runningProcesses = 1 := by
  obtain ⟨run, rehearsed, waiting, stage, pending, assumed⟩ :
      ∃ run ∈ rehearse sampleTable sampleBoot (untilShutdown [14]),
      run.2.control = .waiting ∧ run.2.state.currentStage = .shutdown ∧
      run.2.state.pendingFinish = 1 ∧ ∀ x ∈ run.1, NoLeftover x.1.state x.2 := by
    decide +kernel
  have reached := init_run_of_rehearse rehearsed
  have counted := (pending_counter_exact reached assumed).1 (waiting_intact waiting) (Or.inr stage)
  rw [pending] at counted
  exact ⟨run.1, run.2, reached, stage, pending, counted.symm⟩

/-- The shutdown entered with the one-shot 13 left: two one-shots are tracked and
    one is counted, and when both have been reaped the counter has wrapped. -/
theorem pending_counter_wraps :
    (∃ trace sys, InitRun sampleTable trace sys ∧ sys.control.intact ∧
      sys.state.currentStage = .shutdown ∧ sys.state.pendingFinish = 1 ∧
      oneShotCount sys.state.runningProcesses = 2) ∧
    ∃ trace sys, InitRun sampleTable trace sys ∧ sys.control.intact ∧
      sys.state.currentStage = .shutdown ∧ sys.state.runningProcesses = [] ∧
      .pendingDecreased 4294967295 ∈ sys.state.kernel.log := by
  constructor
  · obtain ⟨run, rehearsed, waiting, facts⟩ :
        ∃ run ∈ rehearse sampleTable sampleBoot safeModeEndedFirst,
        run.2.control = .waiting ∧ run.2.state.currentStage = .shutdown ∧
        run.2.state.pendingFinish = 1 ∧ oneShotCount run.2.state.runningProcesses = 2 := by
      decide +kernel
    exact ⟨run.1, run.2, init_run_of_rehearse rehearsed, waiting_intact waiting, facts⟩
  · obtain ⟨run, rehearsed, waiting, facts⟩ :
        ∃ run ∈ rehearse sampleTable sampleBoot (safeModeEndedFirst ++
          [.env (.childDies 13 (.exited 0)), .env (.childDies 14 (.exited 0))] ++
          handled .signal (childSignal [(13, .exited 0), (14, .exited 0)] (-1)) []),
        run.2.control = .waiting ∧ run.2.state.currentStage = .shutdown ∧
        run.2.state.runningProcesses = [] ∧
        .pendingDecreased 4294967295 ∈ run.2.state.kernel.log := by
      decide +kernel
    exact ⟨run.1, run.2, init_run_of_rehearse rehearsed, waiting_intact waiting, facts⟩

end StageOrder
