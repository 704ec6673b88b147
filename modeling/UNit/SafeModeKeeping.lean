import UNit.ReapedBatch

/-!
Safe mode stays available. Until a safe-mode process has ended with code 0
there is exactly one, and init holds the write end of the pipe that very
process was given. The placeholder may die and be replaced any number of times;
what fails is only the replacement of a placeholder that dies together with a
safe process, because the request for safe mode comes first.
-/
namespace SafeModeKeeping
open InittabEntries SafeModeRecord ProcessHistory EventHistory KernelModel InitState ProcessStart
  ChildExit StageControl MainLoop LabelledRuns TrackedChildren ReapedBatch

def safeModeCount (running : List Process) : Nat :=
  running.countP (fun p => p.config.type == .safeMode)

/-- How init and its children hang together through the placeholder's pipe.
    Nothing is written to any pipe before safe mode is on. -/
structure Links (s : State) : Prop where
  exact : ListExact s
  placeholders : ∀ c ∈ s.kernel.children, ∀ e q, c.role = .placeholder e q →
    e.type = .safeMode ∧ s.safeModePipeFd = some q
  entries : ∀ c ∈ s.kernel.children, ∀ e, c.role = .entry e → e.type ≠ .safeMode
  writable : ∃ q, s.safeModePipeFd = some q ∧ (s.kernel.pipes q).writeOpen = true
  quiet : s.safeModeOn = false → ∀ q, (s.kernel.pipes q).data = []
  remaining : ∀ e ∈ s.remaining, e.type ≠ .safeMode

/-- A child that received no whole record through its pipe does not exit with
    code 0 from its wait for one. -/
def PlaceholderServed (s : State) : Event → Prop
  | .dispatch (.siginfo answer) => answer.signo = .sigchld →
      ∀ w ∈ answer.exit.wait.results, w.2.abnormal = false →
        ∀ c ∈ s.kernel.children, c.pid = w.1 → ∀ q ∈ c.role.pipe,
          sizeofSharedInfo ≤ (s.kernel.pipes q).data.length
  | _ => True

instance (s : State) : (event : Event) → Decidable (PlaceholderServed s event)
  | .dispatch (.siginfo answer) => inferInstanceAs (Decidable (answer.signo = .sigchld →
      ∀ w ∈ answer.exit.wait.results, w.2.abnormal = false →
        ∀ c ∈ s.kernel.children, c.pid = w.1 → ∀ q ∈ c.role.pipe,
          sizeofSharedInfo ≤ (s.kernel.pipes q).data.length))
  | .dispatch .failed => .isTrue trivial
  | .dispatch .expired => .isTrue trivial
  | .env _ => .isTrue trivial
  | .epollWait _ => .isTrue trivial
  | .postIteration _ => .isTrue trivial

-- Whether only runs are considered whose placeholders are served before they
-- exit with code 0.
variable {served : Prop}

def Settled (served : Prop) (s : State) : Prop :=
  (safeModeCount s.runningProcesses = 1 ∧ ¬ SafeModeEnded s.kernel.log) ∨
  (safeModeCount s.runningProcesses = 0 ∧ SafeModeEnded s.kernel.log ∧
    (served → s.safeModeOn = true))

structure Kept (served : Prop) (s : State) : Prop where
  links : Links s
  settled : Settled served s

theorem safe_mode_count_zero {running : List Process} :
    safeModeCount running = 0 ↔ ∀ p ∈ running, p.config.type ≠ .safeMode := by
  simp [safeModeCount, List.countP_eq_zero]

theorem safe_mode_single {running : List Process} (one : safeModeCount running = 1) :
    ∃ p ∈ running, p.config.type = .safeMode ∧
      ∀ x ∈ running, x.config.type = .safeMode → x = p := by
  rw [safeModeCount, List.countP_eq_length_filter, List.length_eq_one_iff] at one
  obtain ⟨p, alone⟩ := one
  have member : ∀ x, x ∈ running ∧ x.config.type = .safeMode ↔ x = p := by
    intro x
    have inside := congrArg (fun l => x ∈ l) alone
    simpa using inside
  obtain ⟨tracked, kind⟩ := (member p).mpr rfl
  exact ⟨p, tracked, kind, fun x other same => (member x).mp ⟨other, same⟩⟩

theorem links_frame {s s' : State} (held : Links s) (exact : ListExact s')
    (roles : ∀ c ∈ s'.kernel.children, c.role = .orphan ∨
      ∃ c' ∈ s.kernel.children, c'.role = c.role)
    (fd : s'.safeModePipeFd = s.safeModePipeFd)
    (ends : ∀ q, (s'.kernel.pipes q).writeOpen = (s.kernel.pipes q).writeOpen)
    (quiet : s'.safeModeOn = false → ∀ q, (s'.kernel.pipes q).data = [])
    (remaining : ∀ e ∈ s'.remaining, e.type ≠ .safeMode) : Links s' := by
  refine ⟨exact, ?_, ?_, ?_, quiet, remaining⟩
  · intro c child e q role
    rcases roles c child with orphan | ⟨c', child', same⟩
    · simp [orphan] at role
    · rw [fd]
      exact held.placeholders c' child' e q (same.trans role)
  · intro c child e role
    rcases roles c child with orphan | ⟨c', child', same⟩
    · simp [orphan] at role
    · exact held.entries c' child' e (same.trans role)
  · obtain ⟨q, current, opened⟩ := held.writable
    exact ⟨q, fd.trans current, (ends q).trans opened⟩

theorem retimed_kept {s s' : State} (same : Retimed s s') (held : Kept served s) :
    Kept served s' := by
  obtain ⟨_, _, _, _, _, rfl⟩ := same
  exact ⟨⟨⟨held.links.exact.tracked, held.links.exact.kills⟩, held.links.placeholders,
    held.links.entries, held.links.writable, held.links.quiet, held.links.remaining⟩,
    held.settled⟩

theorem started_kept {s : State} {entry : InittabEntry} {pid : Int} (held : Kept served s)
    (kind : entry.type ≠ .safeMode) (free : s.kernel.PidFree pid) :
    Kept served (State.started s entry pid) := by
  have links := held.links
  refine ⟨⟨started_exact links.exact entry free, ?_, ?_, links.writable, links.quiet,
    links.remaining⟩, ?_⟩
  · intro c child e q role
    rcases List.mem_cons.mp child with rfl | child
    · simp at role
    · exact links.placeholders c child e q role
  · intro c child e role
    rcases List.mem_cons.mp child with rfl | child
    · obtain rfl := Role.entry.inj role
      exact kind
    · exact links.entries c child e role
  · simpa [Settled, State.started, safeModeCount, kind, Kernel.note,
      Kernel.spawned] using held.settled

theorem not_started_kept {s : State} (held : Kept served s) (entry : InittabEntry) :
    Kept served (State.notStarted s entry) :=
  ⟨⟨not_started_exact held.links.exact entry, held.links.placeholders, held.links.entries,
    held.links.writable, held.links.quiet, held.links.remaining⟩, held.settled⟩

theorem sent_write_open (k : Kernel) (q q' : Nat) (info : SharedInfo) :
    ((k.sent q info).pipes q').writeOpen = (k.pipes q').writeOpen := by
  simp only [Kernel.sent, Kernel.note, Kernel.setPipe]
  by_cases same : q' = q
  · rw [same, Function.update_self]
  · rw [Function.update_of_ne same]

theorem requested_kept {s : State} (held : Kept served s) (q : Nat) (info : SharedInfo) :
    Kept served (State.requested s q info) := by
  refine ⟨links_frame held.links (requested_exact held.links.exact q info) ?_ rfl ?_ ?_
    held.links.remaining, ?_⟩
  · intro c child
    exact Or.inr ⟨c, child, rfl⟩
  · intro q'
    exact sent_write_open s.kernel q q' info
  · intro off
    simp [State.requested] at off
  · rcases held.settled with going | ⟨none, ended, _⟩
    · exact Or.inl going
    · exact Or.inr ⟨none, ended, fun _ => rfl⟩

theorem spawn_entry_kept {answer : SpawnAnswer} {entry : InittabEntry} {has has' : Bool}
    {s s' : State} (held : Kept served s) (kind : entry.type ≠ .safeMode)
    (done : spawnEntry answer entry has s = .ok (has', s')) : Kept served s' := by
  rcases spawn_entry_cases done with ⟨pid, free, _, rfl⟩ | ⟨_, _, q, _, _, _, _, rfl⟩ | ⟨_, _, rfl⟩
  · exact started_kept held kind free
  · exact requested_kept (not_started_kept held entry) q _
  · exact not_started_kept held entry

theorem starts_kept {answer : StartAnswer} {list : List InittabEntry} {s s' : State}
    (held : Kept served s) (kinds : ∀ e ∈ list, e.type ≠ .safeMode)
    (starts : Starts answer list s s') : Kept served s' := by
  have entering : Kept served { s with pendingFinish := 0 } := by
    have links := held.links
    exact ⟨⟨⟨links.exact.tracked, links.exact.kills⟩, links.placeholders, links.entries,
      links.writable, links.quiet, links.remaining⟩, held.settled⟩
  have loop := starts_rule (fun _ _ list s => Kept served s ∧ ∀ e ∈ list, e.type ≠ .safeMode) ?_ starts
    (fun _ => ⟨entering, kinds⟩)
  · obtain ⟨_, _, entry, final, ⟨kept, left⟩, same⟩ := loop
    have links := kept.links
    exact retimed_kept same ⟨⟨⟨links.exact.tracked, links.exact.kills⟩, links.placeholders,
      links.entries, links.writable, links.quiet, left⟩, kept.settled⟩
  · rintro answer entry order has rest s has' s' ⟨held, kinds⟩ _ done
    exact ⟨spawn_entry_kept held (kinds entry List.mem_cons_self) done,
      fun e later => kinds e (List.mem_cons_of_mem entry later)⟩

theorem reported_single {running : List Process} {results : List (Int × WaitStatus)}
    {abnormal : Bool} {p : Process} (tracked : p ∈ running) (kind : p.config.type = .safeMode)
    (only : ∀ x ∈ running, x.config.type = .safeMode → x = p) :
    Reported running results abnormal SafeModeKind ↔
      ∃ w ∈ results, w.2.abnormal = abnormal ∧ w.1 = p.pid := by
  constructor
  · rintro ⟨w, member, status, x, other, named, same⟩
    obtain rfl := only x other same
    exact ⟨w, member, status, named.symm⟩
  · rintro ⟨w, member, status, named⟩
    exact ⟨w, member, status, p, tracked, named.symm, kind⟩

theorem left_single {running : List Process} {results : List (Int × WaitStatus)} {p : Process}
    (one : safeModeCount running = 1) (tracked : p ∈ running) (kind : p.config.type = .safeMode)
    (left : unreported results p.pid = true) :
    safeModeCount (running.filter (fun x => unreported results x.pid)) = 1 := by
  have few : safeModeCount (running.filter (fun x => unreported results x.pid)) ≤ 1 :=
    one ▸ List.Sublist.countP_le List.filter_sublist
  have some : safeModeCount (running.filter (fun x => unreported results x.pid)) ≠ 0 := by
    rw [Ne, safe_mode_count_zero]
    intro none
    exact none p (List.mem_filter.mpr ⟨tracked, left⟩) kind
  omega

theorem removed_single {running : List Process} {results : List (Int × WaitStatus)} {p : Process}
    (only : ∀ x ∈ running, x.config.type = .safeMode → x = p)
    (gone : unreported results p.pid = false) :
    safeModeCount (running.filter (fun x => unreported results x.pid)) = 0 := by
  rw [safe_mode_count_zero]
  intro x member same
  obtain ⟨other, left⟩ := List.mem_filter.mp member
  rw [only x other same, gone] at left
  simp at left

theorem single_reported_iff {running : List Process} {results : List (Int × WaitStatus)}
    {p : Process} (tracked : p ∈ running) (kind : p.config.type = .safeMode)
    (only : ∀ x ∈ running, x.config.type = .safeMode → x = p) :
    unreported results p.pid = false ↔
      Reported running results true SafeModeKind ∨ Reported running results false SafeModeKind := by
  have named : unreported results p.pid = false ↔ ∃ w ∈ results, w.1 = p.pid := by
    simp [unreported]
  rw [reported_single tracked kind only, reported_single tracked kind only, named]
  constructor
  · rintro ⟨w, member, same⟩
    cases status : w.2.abnormal with
    | true => exact Or.inl ⟨w, member, status, same⟩
    | false => exact Or.inr ⟨w, member, status, same⟩
  · rintro (⟨w, member, _, same⟩ | ⟨w, member, _, same⟩)
    · exact ⟨w, member, same⟩
    · exact ⟨w, member, same⟩

theorem single_reported_once {running : List Process} {results : List (Int × WaitStatus)}
    {p : Process} (once : (results.map Prod.fst).Nodup) (tracked : p ∈ running)
    (kind : p.config.type = .safeMode) (only : ∀ x ∈ running, x.config.type = .safeMode → x = p)
    (crashed : Reported running results true SafeModeKind) :
    ¬ Reported running results false SafeModeKind := by
  rw [reported_single tracked kind only] at crashed ⊢
  obtain ⟨w, member, bad, same⟩ := crashed
  rintro ⟨x, other, normal, named⟩
  have unique : x = w := List.inj_on_of_nodup_map once other member (named.trans same.symm)
  rw [unique, bad] at normal
  simp at normal

theorem batch_settled {s t : State} {results : List (Int × WaitStatus)} {r : Reaping}
    (held : Settled served s) (once : (results.map Prod.fst).Nodup)
    (exits : served → Reported s.runningProcesses results false SafeModeKind →
      s.safeModeOn = true)
    (batch : Batch s results r t) :
    (r.restartSafeModePlaceholder = false ∧ Settled served t) ∨
    (r.restartSafeModePlaceholder = true ∧ safeModeCount t.runningProcesses = 0 ∧
      ¬ SafeModeEnded t.kernel.log) := by
  have same : t.safeModeOn = s.safeModeOn := by rw [batch.frame]
  have restart := batch.flags.restart
  have kept : ¬ Reported s.runningProcesses results true SafeModeKind →
      r.restartSafeModePlaceholder = false := by
    intro fine
    rw [Bool.eq_false_iff, Ne, restart]
    exact fine
  rw [Settled, batch.ended, batch.running, same]
  rcases held with ⟨one, going⟩ | ⟨zero, ended, on⟩
  · obtain ⟨p, tracked, kind, only⟩ := safe_mode_single one
    have reported : unreported results p.pid = false ↔ _ := single_reported_iff tracked kind only
    by_cases crashed : Reported s.runningProcesses results true SafeModeKind
    · have gone := removed_single only (reported.mpr (Or.inl crashed))
      have ended := single_reported_once once tracked kind only crashed
      exact Or.inr ⟨restart.mpr crashed, gone, not_or.mpr ⟨going, ended⟩⟩
    · refine Or.inl ⟨kept crashed, ?_⟩
      by_cases ended : Reported s.runningProcesses results false SafeModeKind
      · have gone := removed_single only (reported.mpr (Or.inr ended))
        exact Or.inr ⟨gone, Or.inr ended, fun holds => exits holds ended⟩
      · have left : unreported results p.pid = true := by
          rw [← Bool.not_eq_false, reported]
          exact not_or.mpr ⟨crashed, ended⟩
        exact Or.inl ⟨left_single one tracked kind left, not_or.mpr ⟨going, ended⟩⟩
  · have none := safe_mode_count_zero.mp zero
    refine Or.inl ⟨kept ?_, Or.inr ⟨?_, Or.inl ended, on⟩⟩
    · rintro ⟨_, _, _, p, tracked, _, kind⟩
      exact none p tracked kind
    · rw [safe_mode_count_zero]
      intro p member
      exact none p (List.mem_of_mem_filter member)

theorem batch_links {s t : State} {results : List (Int × WaitStatus)} {r : Reaping}
    (held : Links s) (batch : Batch s results r t) : Links t := by
  have frame := batch.frame
  refine links_frame held batch.exact ?_ ?_ ?_ ?_ ?_
  · intro c child
    rw [batch.children] at child
    exact Or.inr ⟨c, List.mem_of_mem_filter child, rfl⟩
  · rw [frame]
  · intro q
    rw [frame]
  · rw [frame]
    exact held.quiet
  · rw [frame]
    exact held.remaining

theorem placed_count {s : State} {entry : InittabEntry} (pid : Int)
    (none : safeModeCount s.runningProcesses = 0) (kind : entry.type = .safeMode) :
    safeModeCount (State.placed (closePreviousPipe s) entry pid).runningProcesses = 1 := by
  obtain ⟨_, closed, _⟩ := close_previous_pipe_frame s
  simp only [closed, State.placed, safeModeCount, List.countP_cons, kind]
  simpa [safeModeCount] using none

theorem placed_kept {s : State} {entry : InittabEntry} {pid : Int} (exact : ListExact s)
    (none : safeModeCount s.runningProcesses = 0) (going : ¬ SafeModeEnded s.kernel.log)
    (placeholders : ∀ c ∈ s.kernel.children, ∀ e q, c.role = .placeholder e q →
      e.type = .safeMode)
    (entries : ∀ c ∈ s.kernel.children, ∀ e, c.role = .entry e → e.type ≠ .safeMode)
    (quiet : ∀ q, (s.kernel.pipes q).data = [])
    (remaining : ∀ e ∈ s.remaining, e.type ≠ .safeMode)
    (kind : entry.type = .safeMode) (free : s.kernel.PidFree pid) :
    Kept served (State.placed (closePreviousPipe s) entry pid) := by
  have placed := placed_exact exact entry free
  have one := placed_count pid none kind
  obtain ⟨pipes, closed, unread⟩ := close_previous_pipe_frame s
  rw [closed] at placed one ⊢
  refine ⟨⟨placed, ?_, ?_, ?_, ?_, remaining⟩, Or.inl ⟨one, going⟩⟩
  · intro c child e q role
    rcases List.mem_cons.mp child with rfl | child
    · obtain ⟨rfl, rfl⟩ := Role.placeholder.inj role
      exact ⟨kind, rfl⟩
    · -- another placeholder would still be tracked
      have tracked := (exact.tracked.matched ⟨e, c.pid⟩).mpr
        ⟨c, child, rfl, by simp [role, Role.config]⟩
      exact absurd (placeholders c child e q role) (safe_mode_count_zero.mp none _ tracked)
  · intro c child e role
    rcases List.mem_cons.mp child with rfl | child
    · simp at role
    · exact entries c child e role
  · exact ⟨_, rfl, by simp [State.placed, Kernel.note, Kernel.spawned, Kernel.pipe2,
      Kernel.setPipe, Pipe.fresh]⟩
  · intro _ q
    simp only [State.placed, Kernel.note, Kernel.spawned, Kernel.pipe2, Kernel.setPipe]
    by_cases same : q = s.kernel.pipeCount
    · simp [same, Pipe.fresh]
    · simp [same, (unread q).1, quiet q]

/-- The two recovery actions after the loop, when they return. Both together
    cannot: the request needs the placeholder that is about to be replaced. -/
theorem recovery_cases {s : State} {answer : ExitAnswer} {s' : State} (held : Kept served s)
    (once : (answer.wait.results.map Prod.fst).Nodup)
    (exits : served → Reported s.runningProcesses answer.wait.results false SafeModeKind →
      s.safeModeOn = true)
    (done : handleChildExit answer s = .ok s') :
    ∃ r t, reapLoop answer.wait.last answer.wait.results .initial s = .ok (r, t) ∧
      Batch s answer.wait.results r t ∧ Links t ∧ answer.wait.last ≠ .failed ∧
      ((r.startSafeProcess = false ∧ r.restartSafeModePlaceholder = false ∧ Settled served t ∧
        s' = t) ∨
      (r.startSafeProcess = true ∧ r.restartSafeModePlaceholder = false ∧ Settled served t ∧
        ∃ q, t.safeModePipeFd = some q ∧
          s' = State.requested t q (fillSharedInfo r.processName r.signal)) ∨
      (r.startSafeProcess = false ∧ r.restartSafeModePlaceholder = true ∧
        safeModeCount t.runningProcesses = 0 ∧ ¬ SafeModeEnded t.kernel.log ∧
        ∃ pid, t.kernel.PidFree pid ∧
          s' = State.placed (closePreviousPipe t) t.table.safeModeEntry pid)) := by
  obtain ⟨r, t, u, looped, requested, restarted⟩ := handle_child_exit_ok done
  obtain ⟨batch, fine⟩ := reap_loop_batch held.links.exact once looped
  refine ⟨r, t, looped, batch, batch_links held.links batch, fine, ?_⟩
  have settled := batch_settled held.settled once exits batch
  rcases request_safe_mode_cases requested with ⟨quiet, rfl⟩ | ⟨asked, q, p, fd, member, kind, rfl⟩
  · rcases restart_placeholder_cases restarted with ⟨still, rfl⟩ | ⟨lost, pid, free, rfl⟩
    · rcases settled with ⟨_, settled⟩ | ⟨lost, _⟩
      · exact Or.inl ⟨quiet, still, settled, rfl⟩
      · simp [still] at lost
    · rcases settled with ⟨still, _⟩ | ⟨_, none, going⟩
      · simp [still] at lost
      · exact Or.inr (Or.inr ⟨quiet, lost, none, going, pid, free, rfl⟩)
  · rcases settled with ⟨still, settled⟩ | ⟨_, none, _⟩
    · rcases restart_placeholder_cases restarted with ⟨_, rfl⟩ | ⟨lost, _⟩
      · exact Or.inr (Or.inl ⟨asked, still, settled, q, fd, rfl⟩)
      · simp [still] at lost
    · exact absurd kind (safe_mode_count_zero.mp none p member)

theorem served_exit {s : State} {answer : SignalAnswer} (held : Links s)
    (assumed : PlaceholderServed s (.dispatch (.siginfo answer)))
    (chld : answer.signo = .sigchld)
    (exited : Reported s.runningProcesses answer.exit.wait.results false SafeModeKind) :
    s.safeModeOn = true := by
  obtain ⟨w, member, normal, p, tracked, named, kind⟩ := exited
  obtain ⟨c, child, same, config⟩ := (held.exact.tracked.matched p).mp tracked
  cases role : c.role with
  | entry e =>
    simp only [role, Role.config, Option.some.injEq] at config
    exact absurd (config ▸ kind) (held.entries c child e role)
  | orphan => simp [role, Role.config] at config
  | placeholder e q =>
    by_contra off
    have whole := assumed chld w member normal c child (same.trans named) q
      (by simp [role, Role.pipe])
    rw [held.quiet (by simpa using off) q] at whole
    simp [sizeofSharedInfo] at whole

theorem handle_child_exit_kept {answer : ExitAnswer} {s s' : State} (held : Kept served s)
    (lawful : s.kernel.WaitLawful answer.wait)
    (exits : served → Reported s.runningProcesses answer.wait.results false SafeModeKind →
      s.safeModeOn = true)
    (done : handleChildExit answer s = .ok s') : Kept served s' := by
  obtain ⟨r, t, _, batch, links, _, outcome⟩ := recovery_cases held lawful.once exits done
  rcases outcome with ⟨_, _, settled, rfl⟩ | ⟨_, _, settled, q, _, rfl⟩ |
    ⟨_, lost, none, going, pid, free, rfl⟩
  · exact ⟨links, settled⟩
  · exact requested_kept ⟨links, settled⟩ q _
  · have off : t.safeModeOn = false := by
      rw [batch.frame]
      exact batch.flags.placeholder lost
    exact placed_kept links.exact none going
      (fun c child e q role => (links.placeholders c child e q role).1) links.entries
      (links.quiet off) links.remaining t.table.safe_mode_kind free

theorem signalled_kept {s : State} (held : Kept served s) (signal : KillSignal) :
    Kept served { s with kernel := signalAll signal s.runningProcesses s.kernel } := by
  have exact := signalled_exact held.links.exact signal
  have kernel := signal_all_kernel signal s.runningProcesses s.kernel
  have ended := signal_all_observed SafeModeEnded (fun _ _ _ => rfl) signal s.runningProcesses
    s.kernel
  refine ⟨links_frame held.links exact ?_ rfl ?_ ?_ held.links.remaining, ?_⟩
  · intro c child
    rw [kernel] at child
    exact Or.inr ⟨c, child, rfl⟩
  · intro q
    rw [kernel]
  · intro off q
    rw [kernel]
    exact held.links.quiet off q
  · simp only [Settled, ended]
    exact held.settled

theorem shutdown_cmd_kept {s : State} (held : Kept served s) (answer : TimerAnswer)
    (command : RebootCommand) : Kept served (handleShutdownCmd answer command s) := by
  refine retimed_kept (handle_shutdown_cmd_retimed answer command s) ?_
  have exact : ListExact { s with kernel := s.kernel.note (.shutdownCommand command) } :=
    ⟨tracked_congr held.links.exact.tracked rfl rfl, trivial, held.links.exact.kills⟩
  have noted : Kept served { s with kernel := s.kernel.note (.shutdownCommand command) } :=
    ⟨⟨exact, held.links.placeholders, held.links.entries, held.links.writable, held.links.quiet,
      held.links.remaining⟩, held.settled⟩
  have signalled := signalled_kept noted .sigterm
  have links := signalled.links
  exact ⟨⟨⟨links.exact.tracked, links.exact.kills⟩, links.placeholders, links.entries,
    links.writable, links.quiet, by simp⟩, signalled.settled⟩

theorem expire_kept {s : State} (held : Kept served s) (t : MainloopTimeout) :
    Kept served (expire t s) := by
  rcases expire_cases t s with same | same
  · exact retimed_kept same held
  · exact retimed_kept same (signalled_kept held .sigkill)

theorem restaged_kept {s : State} (held : Kept served s) (stage : Stage)
    (callback : Option PostCallback) :
    Kept served { s with currentStage := stage, postIterationCallback := callback } :=
  ⟨⟨⟨held.links.exact.tracked, held.links.exact.kills⟩, held.links.placeholders,
    held.links.entries, held.links.writable, held.links.quiet, held.links.remaining⟩,
    held.settled⟩

theorem maintained_kept {answer : StartAnswer} {s s' : State} (held : Kept served s)
    (done : Maintained answer s s') : Kept served s' := by
  cases done with
  | unchanged same => exact retimed_kept same held
  | started _ _ before starts =>
    exact starts_kept (retimed_kept before held) held.links.remaining starts
  | toRun _ _ _ same => exact retimed_kept same (restaged_kept held .run none)
  | toClose _ _ _ same =>
    exact retimed_kept same (restaged_kept held .close s.postIterationCallback)
  | toShutdown _ _ starts same =>
    have entering := restaged_kept held .shutdown s.postIterationCallback
    have kinds : ∀ e ∈ s.table.shutdownList, e.type ≠ .safeMode := fun e member =>
      shutdown_not_safe_mode (s.table.shutdown_kinds e member)
    exact retimed_kept same (starts_kept entering kinds starts)
  | straightToClose _ _ _ same =>
    exact retimed_kept same (restaged_kept held .close s.postIterationCallback)

theorem env_kept {s : State} {move : EnvMove} {k : Kernel} (held : Kept served s)
    (moved : s.kernel.env move = some k) : Kept served { s with kernel := k } := by
  have frame := env_frame moved
  have exact : ListExact { s with kernel := k } :=
    ⟨tracked_env held.links.exact.tracked moved, frame.log ▸ held.links.exact.kills⟩
  refine ⟨links_frame held.links exact ?_ rfl frame.writeOpen ?_ held.links.remaining, ?_⟩
  · intro c child
    rcases frame.roles c child with orphan | ⟨c', child', _, role⟩
    · exact Or.inl orphan
    · exact Or.inr ⟨c', child', role⟩
  · intro off q
    exact (frame.data q).trans (held.links.quiet off q)
  · simp only [Settled, frame.log]
    exact held.settled

theorem state_step_kept {s s' : State} {event : Event} (held : Kept served s)
    (assumed : served → PlaceholderServed s event) (stepped : StateStep s event s') :
    Kept served s' := by
  cases stepped with
  | env moved => exact env_kept held moved
  | idle => exact held
  | childExit lawful chld done =>
    exact handle_child_exit_kept held lawful
      (fun holds => served_exit held.links (assumed holds) chld) done
  | shutdownCmd answer command => exact shutdown_cmd_kept held _ command
  | expired _ => exact expire_kept held _
  | maintained _ done => exact maintained_kept held (stage_maintenance_maintained done)

theorem set_up_kept {table : BootTable} {s : State} {pid : Int}
    (watched : Retimed (State.initial table) s) (free : s.kernel.PidFree pid) :
    Kept served { State.placed (closePreviousPipe s) table.safeModeEntry pid with
      currentStage := .startup } := by
  have exact := retimed_exact watched (initial_exact table)
  obtain ⟨_, _, _, _, _, rfl⟩ := watched
  have kept : Kept served (State.placed _ table.safeModeEntry pid) := placed_kept exact rfl
    (by simp [State.retimed, State.initial, Kernel.initial])
    (by simp [State.retimed, State.initial, Kernel.initial])
    (by simp [State.retimed, State.initial, Kernel.initial]) (fun _ => rfl)
    (by simp [State.retimed, State.initial]) table.safe_mode_kind free
  exact restaged_kept kept .startup _

theorem start_processes_kept {answer : StartAnswer} {list : List InittabEntry} {s s' : State}
    {result : Bool} (held : Kept served s) (kinds : ∀ e ∈ list, e.type ≠ .safeMode)
    (done : startProcesses answer list s = .ok (result, s')) : Kept served s' := by
  rcases start_processes_cases done with ⟨_, rfl⟩ | starts
  · exact held
  · exact starts_kept held kinds starts

theorem boot_kept {table : BootTable} {answer : BootAnswer} {sys : System}
    (booted : boot table answer = some sys) (intact : sys.control.intact) :
    Kept served sys.state := by
  obtain ⟨s, pid, result, s', watched, free, started, rfl⟩ := boot_intact booted intact
  have kinds : ∀ e ∈ table.startupList, e.type ≠ .safeMode := fun e member =>
    startup_not_safe_mode (table.startup_kinds e member)
  have ready : Kept served _ := set_up_kept watched free
  have final := start_processes_kept ready kinds started
  exact retimed_kept ⟨_, _, _, _, _, rfl⟩ final

theorem run_kept {table : BootTable} {trace : List (System × Event)} {sys : System}
    (run : InitRun table trace sys) (intact : sys.control.intact)
    (meets : served → Meets (fun sys event => PlaceholderServed sys.state event) trace) :
    Kept served sys.state :=
  init_run_invariant (fun s event => served → PlaceholderServed s event) (Kept served) run intact
    (fun x member holds => meets holds x member)
    (fun _ _ booted intact => boot_kept booted intact)
    (fun _ _ _ held assumed stepped => state_step_kept held assumed stepped)

/-- Wherever a run is, in particular when it goes back to epoll_wait: with safe
    mode off there is exactly one safe-mode process, and init writes to the pipe
    whose read end that process got; with safe mode on there is at most one. -/
theorem safe_mode_stays_available {table : BootTable} {trace : List (System × Event)}
    {sys : System} (run : InitRun table trace sys) (intact : sys.control.intact)
    (assumed : Meets (fun sys event => PlaceholderServed sys.state event) trace) :
    (sys.state.safeModeOn = false →
      safeModeCount sys.state.runningProcesses = 1 ∧
      ∃ q, sys.state.safeModePipeFd = some q ∧ (sys.state.kernel.pipes q).writeOpen = true ∧
        ∀ p ∈ sys.state.runningProcesses, p.config.type = .safeMode →
          ∃ c ∈ sys.state.kernel.children, c.pid = p.pid ∧ c.role = .placeholder p.config q) ∧
    (sys.state.safeModeOn = true → safeModeCount sys.state.runningProcesses ≤ 1) := by
  have held : Kept True sys.state := run_kept run intact (fun _ => assumed)
  have links := held.links
  constructor
  · intro off
    refine ⟨?_, ?_⟩
    · rcases held.settled with ⟨one, _⟩ | ⟨_, _, on⟩
      · exact one
      · simp [off] at on
    · obtain ⟨q, current, opened⟩ := links.writable
      refine ⟨q, current, opened, ?_⟩
      intro p tracked kind
      obtain ⟨c, child, same, config⟩ := (links.exact.tracked.matched p).mp tracked
      refine ⟨c, child, same, ?_⟩
      cases role : c.role with
      | entry e =>
        simp only [role, Role.config, Option.some.injEq] at config
        exact absurd (config ▸ kind) (links.entries c child e role)
      | orphan => simp [role, Role.config] at config
      | placeholder e q' =>
        simp only [role, Role.config, Option.some.injEq] at config
        have fd := (links.placeholders c child e q' role).2
        rw [current, Option.some.injEq] at fd
        rw [config, fd]
  · intro _
    rcases held.settled with ⟨one, _⟩ | ⟨zero, _⟩ <;> omega

theorem safe_mode_available_after_crash : ∃ trace sys, InitRun sampleTable trace sys ∧
    sys.control = .waiting ∧ sys.state.runningProcesses.map Process.pid = [20, 12, 11] ∧
    safeModeCount sys.state.runningProcesses = 1 := by
  obtain ⟨run, rehearsed, waiting, off, pids, assumed⟩ :
      ∃ run ∈ rehearse sampleTable sampleBoot
        ([.env (.childDies 13 crashed), .env (.childDies 10 crashed)] ++
          handled .signal (childSignal [(10, crashed), (13, crashed)] 20) []),
      run.2.control = .waiting ∧ run.2.state.safeModeOn = false ∧
      run.2.state.runningProcesses.map Process.pid = [20, 12, 11] ∧
      ∀ x ∈ run.1, PlaceholderServed x.1.state x.2 := by
    decide +kernel
  have reached := init_run_of_rehearse rehearsed
  have available := safe_mode_stays_available reached (waiting_intact waiting) assumed
  exact ⟨run.1, run.2, reached, waiting, pids, (available.1 off).1⟩

structure Granted (answer : ExitAnswer) (s : State) : Prop where
  waited : answer.wait.last ≠ .failed
  pipe2 : answer.setup.pipe2 = true
  calloc : answer.setup.calloc = true
  fork : 1 < answer.setup.fork ∧ answer.setup.fork < 2 ^ 31 ∧
    ∀ c ∈ s.kernel.children, c.pid = answer.setup.fork →
      c.pid ∈ answer.wait.results.map Prod.fst
  written : (writeLoop true answer.write 0).1 = true

instance (answer : ExitAnswer) (s : State) : Decidable (Granted answer s) :=
  decidable_of_iff
    (answer.wait.last ≠ .failed ∧ answer.setup.pipe2 = true ∧ answer.setup.calloc = true ∧
      (1 < answer.setup.fork ∧ answer.setup.fork < 2 ^ 31 ∧
        ∀ c ∈ s.kernel.children, c.pid = answer.setup.fork →
          c.pid ∈ answer.wait.results.map Prod.fst) ∧
      (writeLoop true answer.write 0).1 = true)
    ⟨fun ⟨a, b, c, d, e⟩ => ⟨a, b, c, d, e⟩, fun ⟨a, b, c, d, e⟩ => ⟨a, b, c, d, e⟩⟩

theorem granted_fork_free {answer : ExitAnswer} {s t : State} {r : Reaping}
    (granted : Granted answer s) (batch : Batch s answer.wait.results r t) :
    t.kernel.PidFree answer.setup.fork := by
  refine ⟨granted.fork.1, granted.fork.2.1, ?_⟩
  intro taken
  obtain ⟨c, child, same⟩ := List.mem_map.mp taken
  rw [batch.children] at child
  obtain ⟨member, left⟩ := List.mem_filter.mp child
  have reported := granted.fork.2.2 c member same
  simp [unreported, reported] at left

theorem placeholder_restarted {s t : State} {answer : ExitAnswer} {r : Reaping}
    (looped : reapLoop answer.wait.last answer.wait.results .initial s = .ok (r, t))
    (quiet : r.startSafeProcess = false) (lost : r.restartSafeModePlaceholder = true)
    (granted : Granted answer s) (free : t.kernel.PidFree answer.setup.fork) :
    ∃ s', handleChildExit answer s = .ok s' := by
  have made := setup_safe_mode_returns t.table.safeModeEntry granted.pipe2 granted.calloc free
  refine ⟨(setupSafeMode answer.setup t.table.safeModeEntry t).2, ?_⟩
  simp [handleChildExit, looped, requestSafeMode, restartPlaceholder, quiet, lost, made]

/-- A dead placeholder is replaced exactly when no other safe process failed
    with it. -/
theorem dead_placeholder_replaced {table : BootTable} {trace : List (System × Event)}
    {sys : System} (run : InitRun table trace sys) (intact : sys.control.intact)
    (off : sys.state.safeModeOn = false) {answer : ExitAnswer}
    (lawful : sys.state.kernel.WaitLawful answer.wait) (granted : Granted answer sys.state)
    (dead : Reported sys.state.runningProcesses answer.wait.results true SafeModeKind) :
    (∃ s', handleChildExit answer sys.state = .ok s' ∧ safeModeCount s'.runningProcesses = 1) ↔
      ¬ Reported sys.state.runningProcesses answer.wait.results true SafeKind := by
  have held : Kept False sys.state := run_kept run intact False.elim
  constructor
  · rintro ⟨s', done, _⟩ failed
    obtain ⟨r, t, _, batch, _, _, outcome⟩ := recovery_cases held lawful.once False.elim done
    have lost := batch.flags.restart.mpr dead
    have asked := batch.flags.asked.mpr failed
    rcases outcome with ⟨_, still, _⟩ | ⟨_, still, _⟩ | ⟨quiet, _⟩
    · simp [still] at lost
    · simp [still] at lost
    · simp [quiet] at asked
  · intro fine
    obtain ⟨r, t, looped⟩ := reap_loop_returns held.links.exact off granted.waited
    have batch := (reap_loop_batch held.links.exact lawful.once looped).1
    have lost := batch.flags.restart.mpr dead
    have quiet : r.startSafeProcess = false := by
      rw [Bool.eq_false_iff, Ne, batch.flags.asked]
      exact fine
    obtain ⟨s', done⟩ := placeholder_restarted looped quiet lost granted
      (granted_fork_free granted batch)
    refine ⟨s', done, ?_⟩
    obtain ⟨r', t', _, batch', _, _, outcome⟩ := recovery_cases held lawful.once False.elim done
    have lost' := batch'.flags.restart.mpr dead
    rcases outcome with ⟨_, still, _⟩ | ⟨_, still, _⟩ | ⟨_, _, none, _, pid, _, rfl⟩
    · simp [still] at lost'
    · simp [still] at lost'
    · exact placed_count pid none t'.table.safe_mode_kind

def sampleExit (results : List (Int × WaitStatus)) : ExitAnswer :=
  ⟨⟨results, .noneDead⟩, [.wrote sizeofSharedInfo], ⟨true, true, 20⟩⟩

theorem dead_placeholder_replaced_with_one_shot : ∃ trace sys, InitRun sampleTable trace sys ∧
    ∃ s', handleChildExit (sampleExit [(10, crashed), (13, crashed)]) sys.state = .ok s' ∧
      safeModeCount s'.runningProcesses = 1 := by
  obtain ⟨run, rehearsed, waiting, off, lawful, granted, dead, fine⟩ :
      ∃ run ∈ rehearse sampleTable sampleBoot
        [.env (.childDies 13 crashed), .env (.childDies 10 crashed)],
      run.2.control = .waiting ∧ run.2.state.safeModeOn = false ∧
      run.2.state.kernel.WaitLawful (sampleExit [(10, crashed), (13, crashed)]).wait ∧
      Granted (sampleExit [(10, crashed), (13, crashed)]) run.2.state ∧
      Reported run.2.state.runningProcesses [(10, crashed), (13, crashed)] true SafeModeKind ∧
      ¬ Reported run.2.state.runningProcesses [(10, crashed), (13, crashed)] true SafeKind := by
    decide +kernel
  have reached := init_run_of_rehearse rehearsed
  exact ⟨run.1, run.2, reached,
    (dead_placeholder_replaced reached (waiting_intact waiting) off lawful granted dead).mpr fine⟩

/-- The placeholder dies with a safe service: every call would succeed, but the
    request comes before the restart and finds no placeholder. -/
theorem dead_placeholder_lost_with_service : ∃ trace sys, InitRun sampleTable trace sys ∧
    sys.control = .waiting ∧ sys.state.safeModeOn = false ∧
    sys.state.kernel.WaitLawful (sampleExit [(10, crashed), (11, crashed)]).wait ∧
    Granted (sampleExit [(10, crashed), (11, crashed)]) sys.state ∧
    Reported sys.state.runningProcesses [(10, crashed), (11, crashed)] true SafeModeKind ∧
    haltOf (handleChildExit (sampleExit [(10, crashed), (11, crashed)]) sys.state) = some (.panic
      "Safe mode required, but safe mode process placeholder not found!\n") := by
  obtain ⟨run, rehearsed, facts⟩ :
      ∃ run ∈ rehearse sampleTable sampleBoot
        [.env (.childDies 11 crashed), .env (.childDies 10 crashed)],
      run.2.control = .waiting ∧ run.2.state.safeModeOn = false ∧
      run.2.state.kernel.WaitLawful (sampleExit [(10, crashed), (11, crashed)]).wait ∧
      Granted (sampleExit [(10, crashed), (11, crashed)]) run.2.state ∧
      Reported run.2.state.runningProcesses [(10, crashed), (11, crashed)] true SafeModeKind ∧
      haltOf (handleChildExit (sampleExit [(10, crashed), (11, crashed)]) run.2.state) =
        some (.panic "Safe mode required, but safe mode process placeholder not found!\n") := by
    decide +kernel
  exact ⟨run.1, run.2, init_run_of_rehearse rehearsed, facts⟩

end SafeModeKeeping
