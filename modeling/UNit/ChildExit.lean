import UNit.ProcessStart

/-!
Reaping dead children. One call takes every waitpid result in turn, carries its
two decisions out of the loop in flags, and then asks for safe mode and
restarts the placeholder, in this order.
-/
namespace ChildExit
open InittabEntries SafeModeRecord ProcessHistory KernelModel InitState ProcessStart

/-- The locals of handle_child_exit that survive an iteration of its loop. -/
structure Reaping where
  processName : List UInt8
  signal : Int
  startSafeProcess : Bool
  restartSafeModePlaceholder : Bool
  deriving DecidableEq, Repr

def Reaping.initial : Reaping := ⟨[], 0, false, false⟩

/-- The signal of an earlier deceased process stays when the new one was not
    killed by a signal. -/
def Reaping.deceased (r : Reaping) (p : Process) (status : WaitStatus) : Reaping :=
  { r with
    startSafeProcess := true
    processName := p.config.processName
    signal := if status.wifsignaled then status.wtermsig else r.signal }

def judge (p : Process) (status : WaitStatus) (r : Reaping) (s : State) : Outcome Reaping :=
  if isSafeEntry p.config && status.abnormal then
    if p.config.type = .safeMode then
      if s.safeModeOn then .error ⟨.panic "Safe mode process crashed!\n", s⟩
      else .ok { r with restartSafeModePlaceholder := true }
    else .ok (r.deceased p status)
  else .ok r

def countsPending (s : State) (p : Process) : Bool :=
  isOneShotEntry p.config && (s.currentStage == .startup || s.currentStage == .shutdown)

def decreasePending (s : State) (p : Process) : State :=
  if countsPending s p then
    { s with
      pendingFinish := s.pendingFinish - 1
      kernel := s.kernel.note (.pendingDecreased (s.pendingFinish - 1)) }
  else s

def untrack (p : Process) (s : State) : Outcome State :=
  match removeProcess p s.runningProcesses with
  | none => .error ⟨.assertion .removed, s⟩
  | some rest => .ok { s with runningProcesses := rest }

def reapOne (w : Int × WaitStatus) (r : Reaping) (s : State) : Outcome (Reaping × State) :=
  let s := { s with kernel := s.kernel.waited w.1 w.2 }
  match findProcess w.1 s.runningProcesses with
  | none => .ok (r, s)
  | some p =>
    match judge p w.2 r s with
    | .error stop => .error stop
    | .ok r =>
      match untrack p (decreasePending s p) with
      | .error stop => .error stop
      | .ok s => .ok (r, s)

def reapLoop (last : WaitEnd) : List (Int × WaitStatus) → Reaping → State →
    Outcome (Reaping × State)
  | [], r, s =>
    if last = .failed then
      .error ⟨.panic "Won't go anywhere if waitpid() is not working!\n", s⟩
    else .ok (r, s)
  | w :: rest, r, s =>
    match reapOne w r s with
    | .error stop => .error stop
    | .ok (r, s) => reapLoop last rest r s

structure ExitAnswer where
  wait : WaitAnswer
  write : List WriteAnswer
  setup : SetupAnswer
  deriving DecidableEq, Repr

def requestSafeMode (answers : List WriteAnswer) (r : Reaping) (s : State) : Outcome State :=
  if r.startSafeProcess then startSafeMode r.processName r.signal answers s else .ok s

def restartPlaceholder (answer : SetupAnswer) (r : Reaping) (s : State) : Outcome State :=
  if r.restartSafeModePlaceholder then
    let made := setupSafeMode answer s.table.safeModeEntry s
    if made.1 then .ok made.2
    else .error
      ⟨.panic "Can't keep normal execution without safe mode placeholder process\n", made.2⟩
  else .ok s

def handleChildExit (answer : ExitAnswer) (s : State) : Outcome State :=
  match reapLoop answer.wait.last answer.wait.results .initial s with
  | .error stop => .error stop
  | .ok (r, s) =>
    match requestSafeMode answer.write r s with
    | .error stop => .error stop
    | .ok s => restartPlaceholder answer.setup r s

theorem find_process_some {pid : Int} {running : List Process} {p : Process}
    (found : findProcess pid running = some p) : p ∈ running ∧ p.pid = pid := by
  induction running with
  | nil => simp [findProcess] at found
  | cons q rest ih =>
    simp only [findProcess] at found
    split at found
    · rename_i same
      obtain rfl := Option.some.inj found
      exact ⟨List.mem_cons_self, same⟩
    · obtain ⟨member, same⟩ := ih found
      exact ⟨List.mem_cons_of_mem q member, same⟩

theorem find_process_none {pid : Int} {running : List Process}
    (absent : findProcess pid running = none) : ∀ p ∈ running, p.pid ≠ pid := by
  induction running with
  | nil => simp
  | cons q rest ih =>
    simp only [findProcess] at absent
    split at absent
    · simp at absent
    · rename_i other
      intro p member
      rcases List.mem_cons.mp member with rfl | later
      · exact other
      · exact ih absent p later

theorem remove_process_found {pid : Int} {running : List Process} {p : Process}
    (distinct : (running.map Process.pid).Nodup) (found : findProcess pid running = some p) :
    removeProcess p running = some (running.filter (fun q => q.pid ≠ pid)) := by
  induction running with
  | nil => simp [findProcess] at found
  | cons q rest ih =>
    simp only [List.map_cons, List.nodup_cons] at distinct
    by_cases same : q.pid = pid
    · simp only [findProcess, same, ↓reduceIte, Option.some.injEq] at found
      subst p
      have others : rest.filter (fun x => decide (x.pid ≠ pid)) = rest := by
        apply List.filter_eq_self.mpr
        intro x member
        have away : x.pid ≠ q.pid := by
          intro eq
          exact distinct.1 (eq ▸ List.mem_map_of_mem member)
        simpa [same] using away
      simpa [removeProcess, same] using others.symm
    · simp only [findProcess, same, ↓reduceIte] at found
      have away : q ≠ p := by
        intro eq
        exact same (eq ▸ (find_process_some found).2)
      simp [removeProcess, away, ih distinct.2 found, same]

theorem tracked_perm {pid : Int} {running : List Process} {p : Process}
    (distinct : (running.map Process.pid).Nodup) (found : findProcess pid running = some p) :
    running.Perm (p :: running.filter (fun q => q.pid ≠ pid)) := by
  induction running with
  | nil => simp [findProcess] at found
  | cons q rest ih =>
    by_cases same : q.pid = pid
    · have removed := remove_process_found distinct found
      simp only [findProcess, same, ↓reduceIte, Option.some.injEq] at found
      subst p
      simp only [removeProcess, ↓reduceIte, Option.some.injEq] at removed
      rw [← removed]
    · simp only [findProcess, same, ↓reduceIte] at found
      have tail := (ih (List.nodup_cons.mp distinct).2 found).cons q
      have kept : (q :: rest).filter (fun x => decide (x.pid ≠ pid)) =
          q :: rest.filter (fun x => decide (x.pid ≠ pid)) := by
        simp [same]
      rw [kept]
      exact tail.trans (List.Perm.swap p q _)

theorem filter_untracked {pid : Int} {running : List Process}
    (absent : findProcess pid running = none) :
    running.filter (fun q => q.pid ≠ pid) = running := by
  apply List.filter_eq_self.mpr
  intro p member
  simpa using find_process_none absent p member

theorem judge_cases {p : Process} {status : WaitStatus} {r r' : Reaping} {s : State}
    (judged : judge p status r s = .ok r') :
    ((isSafeEntry p.config = false ∨ status.abnormal = false) ∧ r' = r) ∨
    (status.abnormal = true ∧ p.config.type = .safeMode ∧ s.safeModeOn = false ∧
      r' = { r with restartSafeModePlaceholder := true }) ∨
    (status.abnormal = true ∧ isSafeEntry p.config = true ∧ p.config.type ≠ .safeMode ∧
      r' = r.deceased p status) := by
  unfold judge at judged
  split at judged
  · rename_i lost
    simp only [Bool.and_eq_true] at lost
    split at judged
    · rename_i kind
      split at judged
      · simp at judged
      · rename_i off
        exact Or.inr (Or.inl ⟨lost.2, kind, by simpa using off, (Except.ok.inj judged).symm⟩)
    · rename_i kind
      exact Or.inr (Or.inr ⟨lost.2, lost.1, kind, (Except.ok.inj judged).symm⟩)
  · rename_i fine
    refine Or.inl ⟨?_, (Except.ok.inj judged).symm⟩
    cases safe : isSafeEntry p.config <;> simp_all

theorem judge_error {p : Process} {status : WaitStatus} {r : Reaping} {s : State} {stop : Stop}
    (judged : judge p status r s = .error stop) :
    s.safeModeOn = true ∧ stop = ⟨.panic "Safe mode process crashed!\n", s⟩ := by
  unfold judge at judged
  split at judged
  · split at judged
    · split at judged
      · rename_i on
        exact ⟨on, (Except.error.inj judged).symm⟩
      · simp at judged
    · simp at judged
  · simp at judged

theorem judge_kernel {p : Process} {status : WaitStatus} {r r' : Reaping} {s : State} {k : Kernel}
    (judged : judge p status r { s with kernel := k } = .ok r') :
    judge p status r s = .ok r' := by
  rcases judge_cases judged with ⟨fine, rfl⟩ | ⟨abnormal, kind, off, rfl⟩ |
    ⟨abnormal, safe, kind, rfl⟩
  · rcases fine with other | normal
    · simp [judge, other]
    · simp [judge, normal]
  · have off : s.safeModeOn = false := off
    simp [judge, abnormal, kind, off, safe_mode_is_safe kind]
  · simp [judge, abnormal, safe, kind]

def State.reaped (s : State) (w : Int × WaitStatus) (p : Option Process) : State :=
  let waited := { s with kernel := s.kernel.waited w.1 w.2 }
  let counted := match p with
    | none => waited
    | some p => decreasePending waited p
  { counted with runningProcesses := s.runningProcesses.filter (fun q => q.pid ≠ w.1) }

theorem reaped_counted {s : State} {p : Process} (w : Int × WaitStatus)
    (counts : countsPending s p = true) : State.reaped s w (some p) = { s with
      pendingFinish := s.pendingFinish - 1
      runningProcesses := s.runningProcesses.filter (fun q => q.pid ≠ w.1)
      kernel := (s.kernel.waited w.1 w.2).note (.pendingDecreased (s.pendingFinish - 1)) } := by
  have again : countsPending { s with kernel := s.kernel.waited w.1 w.2 } p = true := counts
  simp only [State.reaped, decreasePending, again, ↓reduceIte]

theorem reaped_uncounted {s : State} {p : Process} (w : Int × WaitStatus)
    (counts : countsPending s p = false) : State.reaped s w (some p) = { s with
      runningProcesses := s.runningProcesses.filter (fun q => q.pid ≠ w.1)
      kernel := s.kernel.waited w.1 w.2 } := by
  have again : countsPending { s with kernel := s.kernel.waited w.1 w.2 } p = false := counts
  simp only [State.reaped, decreasePending, again, Bool.false_eq_true, ↓reduceIte]

theorem decrease_pending_frame (s : State) (p : Process) :
    ∃ pending log, decreasePending s p =
        { s with pendingFinish := pending, kernel := { s.kernel with log := log } } ∧
      (log = s.kernel.log ∨ log = .pendingDecreased (s.pendingFinish - 1) :: s.kernel.log) := by
  unfold decreasePending
  split
  · exact ⟨_, _, rfl, Or.inr rfl⟩
  · exact ⟨s.pendingFinish, s.kernel.log, rfl, Or.inl rfl⟩

theorem reaped_frame (s : State) (w : Int × WaitStatus) (p : Option Process) :
    ∃ pending log, State.reaped s w p = { s with
        pendingFinish := pending
        runningProcesses := s.runningProcesses.filter (fun q => q.pid ≠ w.1)
        kernel := { s.kernel with
          children := s.kernel.children.filter (fun c => c.pid ≠ w.1)
          log := log } } ∧
      (log = .reap w.1 w.2 :: s.kernel.log ∨
        ∃ value, log = .pendingDecreased value :: .reap w.1 w.2 :: s.kernel.log) := by
  cases p with
  | none => exact ⟨_, _, rfl, Or.inl rfl⟩
  | some p =>
    obtain ⟨pending, log, counted, noted⟩ := decrease_pending_frame
      { s with kernel := s.kernel.waited w.1 w.2 } p
    refine ⟨pending, log, ?_, ?_⟩
    · simp only [State.reaped]
      rw [counted]
      rfl
    · rcases noted with same | noted
      · exact Or.inl same
      · exact Or.inr ⟨_, noted⟩

theorem reap_one_cases {w : Int × WaitStatus} {r r' : Reaping} {s s' : State}
    (distinct : (s.runningProcesses.map Process.pid).Nodup)
    (done : reapOne w r s = .ok (r', s')) :
    s' = State.reaped s w (findProcess w.1 s.runningProcesses) ∧
    ((findProcess w.1 s.runningProcesses = none ∧ r' = r) ∨
      ∃ p, findProcess w.1 s.runningProcesses = some p ∧ judge p w.2 r s = .ok r') := by
  simp only [reapOne] at done
  split at done
  · rename_i absent
    simp only [Except.ok.injEq, Prod.mk.injEq] at done
    obtain ⟨rfl, rfl⟩ := done
    refine ⟨?_, Or.inl ⟨absent, rfl⟩⟩
    simp only [State.reaped, absent, filter_untracked absent]
  · rename_i p found
    split at done
    · simp at done
    · rename_i r1 judged
      split at done
      · simp at done
      · rename_i s1 unlinked
        simp only [Except.ok.injEq, Prod.mk.injEq] at done
        obtain ⟨rfl, rfl⟩ := done
        refine ⟨?_, Or.inr ⟨p, found, judge_kernel judged⟩⟩
        obtain ⟨pending, log, counted, _⟩ := decrease_pending_frame
          { s with kernel := s.kernel.waited w.1 w.2 } p
        simp only [State.reaped, found]
        rw [counted] at unlinked ⊢
        simp only [untrack, remove_process_found distinct found, Except.ok.injEq] at unlinked
        exact unlinked.symm

theorem reap_one_frame {w : Int × WaitStatus} {r r' : Reaping} {s s' : State}
    (done : reapOne w r s = .ok (r', s')) :
    ∃ pending running log, s' = { s with
        pendingFinish := pending
        runningProcesses := running
        kernel := { s.kernel with
          children := s.kernel.children.filter (fun c => c.pid ≠ w.1)
          log := log } } ∧
      (log = .reap w.1 w.2 :: s.kernel.log ∨
        ∃ value, log = .pendingDecreased value :: .reap w.1 w.2 :: s.kernel.log) := by
  simp only [reapOne] at done
  split at done
  · simp only [Except.ok.injEq, Prod.mk.injEq] at done
    obtain ⟨_, rfl⟩ := done
    exact ⟨_, _, _, rfl, Or.inl rfl⟩
  · rename_i p found
    obtain ⟨pending, log, counted, noted⟩ := decrease_pending_frame
      { s with kernel := s.kernel.waited w.1 w.2 } p
    rw [counted] at done
    split at done
    · simp at done
    · split at done
      · simp at done
      · rename_i u unlinked
        simp only [Except.ok.injEq, Prod.mk.injEq] at done
        obtain ⟨_, rfl⟩ := done
        unfold untrack at unlinked
        split at unlinked
        · simp at unlinked
        · obtain rfl := Except.ok.inj unlinked
          rcases noted with rfl | rfl
          · exact ⟨_, _, _, rfl, Or.inl rfl⟩
          · exact ⟨_, _, _, rfl, Or.inr ⟨_, rfl⟩⟩

theorem reap_one_halts {w : Int × WaitStatus} {r : Reaping} {s : State} {stop : Stop}
    (failed : reapOne w r s = .error stop) :
    stop.halt = .panic "Safe mode process crashed!\n" ∨ stop.halt = .assertion .removed := by
  simp only [reapOne] at failed
  split at failed
  · simp at failed
  · split at failed
    · rename_i judged
      obtain rfl := Except.error.inj failed
      obtain ⟨_, rfl⟩ := judge_error judged
      exact Or.inl rfl
    · split at failed
      · rename_i unlinked
        obtain rfl := Except.error.inj failed
        unfold untrack at unlinked
        split at unlinked
        · obtain rfl := Except.error.inj unlinked
          exact Or.inr rfl
        · simp at unlinked
      · simp at failed

theorem reap_loop_halts {last : WaitEnd} {results : List (Int × WaitStatus)} {r : Reaping}
    {s : State} {stop : Stop} (failed : reapLoop last results r s = .error stop) :
    stop.halt = .panic "Won't go anywhere if waitpid() is not working!\n" ∨
    stop.halt = .panic "Safe mode process crashed!\n" ∨ stop.halt = .assertion .removed := by
  induction results generalizing r s with
  | nil =>
    simp only [reapLoop] at failed
    split at failed
    · obtain rfl := Except.error.inj failed
      exact Or.inl rfl
    · simp at failed
  | cons w rest ih =>
    simp only [reapLoop] at failed
    split at failed
    · rename_i halted
      obtain rfl := Except.error.inj failed
      exact Or.inr (reap_one_halts halted)
    · exact ih failed

/-- A loop invariant of handle_child_exit over the remaining wait results. -/
theorem reap_loop_rule (inv : List (Int × WaitStatus) → Reaping → State → Prop)
    (iteration : ∀ w rest r s r' s', inv (w :: rest) r s → reapOne w r s = .ok (r', s') →
      inv rest r' s')
    {last : WaitEnd} {results : List (Int × WaitStatus)} {r r' : Reaping} {s s' : State}
    (holds : inv results r s) (done : reapLoop last results r s = .ok (r', s')) :
    inv [] r' s' ∧ last ≠ .failed := by
  induction results generalizing r s with
  | nil =>
    simp only [reapLoop] at done
    split at done
    · simp at done
    · rename_i fine
      simp only [Except.ok.injEq, Prod.mk.injEq] at done
      obtain ⟨rfl, rfl⟩ := done
      exact ⟨holds, fine⟩
  | cons w rest ih =>
    simp only [reapLoop] at done
    split at done
    · simp at done
    · rename_i r1 s1 reaped
      exact ih (iteration w rest r s r1 s1 holds reaped) done

theorem reap_loop_error (inv : List (Int × WaitStatus) → Reaping → State → Prop)
    (iteration : ∀ w rest r s r' s', inv (w :: rest) r s → reapOne w r s = .ok (r', s') →
      inv rest r' s')
    {last : WaitEnd} {results : List (Int × WaitStatus)} {r : Reaping} {s : State} {stop : Stop}
    (holds : inv results r s) (failed : reapLoop last results r s = .error stop) :
    (∃ w rest r' s', inv (w :: rest) r' s' ∧ reapOne w r' s' = .error stop) ∨
    (last = .failed ∧ ∃ r' message, inv [] r' stop.state ∧ stop.halt = .panic message) := by
  induction results generalizing r s with
  | nil =>
    simp only [reapLoop] at failed
    split at failed
    · rename_i broken
      obtain rfl := Except.error.inj failed
      exact Or.inr ⟨broken, r, _, holds, rfl⟩
    · simp at failed
  | cons w rest ih =>
    simp only [reapLoop] at failed
    split at failed
    · rename_i stopped halted
      obtain rfl := Except.error.inj failed
      exact Or.inl ⟨w, rest, r, s, holds, halted⟩
    · rename_i r1 s1 reaped
      exact ih (iteration w rest r s r1 s1 holds reaped) failed

theorem reap_one_error {w : Int × WaitStatus} {r : Reaping} {s : State} {stop : Stop}
    (distinct : (s.runningProcesses.map Process.pid).Nodup)
    (failed : reapOne w r s = .error stop) :
    (∃ message, stop.halt = .panic message) ∧ s.safeModeOn = true ∧
      stop.state = { s with kernel := s.kernel.waited w.1 w.2 } := by
  simp only [reapOne] at failed
  split at failed
  · simp at failed
  · rename_i p found
    split at failed
    · rename_i stopped judged
      obtain rfl := Except.error.inj failed
      obtain ⟨on, rfl⟩ := judge_error judged
      exact ⟨⟨_, rfl⟩, on, rfl⟩
    · obtain ⟨pending, log, counted, _⟩ := decrease_pending_frame
        { s with kernel := s.kernel.waited w.1 w.2 } p
      rw [counted] at failed
      simp [untrack, remove_process_found distinct found] at failed

theorem handle_child_exit_error {answer : ExitAnswer} {s : State} {stop : Stop}
    (failed : handleChildExit answer s = .error stop) :
    reapLoop answer.wait.last answer.wait.results .initial s = .error stop ∨
    ∃ r s1, reapLoop answer.wait.last answer.wait.results .initial s = .ok (r, s1) ∧
      ((r.startSafeProcess = true ∧
          startSafeMode r.processName r.signal answer.write s1 = .error stop) ∨
        ∃ s2, requestSafeMode answer.write r s1 = .ok s2 ∧
          stop.halt = .panic
            "Can't keep normal execution without safe mode placeholder process\n" ∧
          (setupSafeMode answer.setup s2.table.safeModeEntry s2).1 = false ∧
          stop.state = (setupSafeMode answer.setup s2.table.safeModeEntry s2).2) := by
  unfold handleChildExit at failed
  split at failed
  · rename_i stopped halted
    obtain rfl := Except.error.inj failed
    exact Or.inl halted
  · rename_i r s1 reaped
    refine Or.inr ⟨r, s1, reaped, ?_⟩
    split at failed
    · rename_i stopped halted
      obtain rfl := Except.error.inj failed
      unfold requestSafeMode at halted
      split at halted
      · rename_i asked
        exact Or.inl ⟨asked, halted⟩
      · simp at halted
    · rename_i s2 requested
      unfold restartPlaceholder at failed
      split at failed
      · dsimp only at failed
        split at failed
        · simp at failed
        · rename_i unmade
          obtain rfl := Except.error.inj failed
          exact Or.inr ⟨s2, requested, rfl, by simpa using unmade, rfl⟩
      · simp at failed

theorem handle_child_exit_ok {answer : ExitAnswer} {s s' : State}
    (done : handleChildExit answer s = .ok s') :
    ∃ r s1 s2, reapLoop answer.wait.last answer.wait.results .initial s = .ok (r, s1) ∧
      requestSafeMode answer.write r s1 = .ok s2 ∧
      restartPlaceholder answer.setup r s2 = .ok s' := by
  unfold handleChildExit at done
  split at done
  · simp at done
  · rename_i r s1 reaped
    split at done
    · simp at done
    · rename_i s2 requested
      exact ⟨r, s1, s2, reaped, requested, done⟩

theorem request_safe_mode_cases {answers : List WriteAnswer} {r : Reaping} {s s' : State}
    (done : requestSafeMode answers r s = .ok s') :
    (r.startSafeProcess = false ∧ s' = s) ∨
    (r.startSafeProcess = true ∧ ∃ q p, s.safeModePipeFd = some q ∧ p ∈ s.runningProcesses ∧
      p.config.type = .safeMode ∧
      s' = State.requested s q (fillSharedInfo r.processName r.signal)) := by
  unfold requestSafeMode at done
  split at done
  · rename_i asked
    exact Or.inr ⟨asked, start_safe_mode_ok done⟩
  · rename_i quiet
    exact Or.inl ⟨by simpa using quiet, (Except.ok.inj done).symm⟩

theorem restart_placeholder_cases {answer : SetupAnswer} {r : Reaping} {s s' : State}
    (done : restartPlaceholder answer r s = .ok s') :
    (r.restartSafeModePlaceholder = false ∧ s' = s) ∨
    (r.restartSafeModePlaceholder = true ∧ ∃ pid, s.kernel.PidFree pid ∧
      s' = State.placed (closePreviousPipe s) s.table.safeModeEntry pid) := by
  unfold restartPlaceholder at done
  split at done
  · rename_i asked
    dsimp only at done
    split at done
    · rename_i made
      obtain rfl := Except.ok.inj done
      exact Or.inr ⟨asked, setup_safe_mode_made (Prod.ext made rfl)⟩
    · simp at done
  · rename_i quiet
    exact Or.inl ⟨by simpa using quiet, (Except.ok.inj done).symm⟩

end ChildExit
