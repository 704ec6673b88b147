import UNit.InitState

/-!
Starting processes: the safe-mode placeholder, the request to it, and the
entries of a list order by order. The answers to calloc, fork, pipe2, write and
the timer calls are inputs; start_processes takes one answer for each entry it
tries, and treats missing answers as an allocation failure.
-/
namespace ProcessStart
open InittabEntries SafeModeRecord ProcessHistory KernelModel InitState

def findProcess (pid : Int) : List Process → Option Process
  | [] => none
  | p :: rest => if p.pid = pid then some p else findProcess pid rest

def findSafeModeProcess : List Process → Option Process
  | [] => none
  | p :: rest => if p.config.type = .safeMode then some p else findSafeModeProcess rest

/-- Unlinks the first node equal to p; none is the failed assert(removed). -/
def removeProcess (p : Process) : List Process → Option (List Process)
  | [] => none
  | q :: rest => if q = p then some rest else (removeProcess p rest).map (q :: ·)

structure SetupAnswer where
  pipe2 : Bool
  calloc : Bool
  fork : Int
  deriving DecidableEq, Repr

def closePreviousPipe (s : State) : State :=
  match s.safeModePipeFd with
  | none => s
  | some q => { s with kernel := s.kernel.closeWrite q }

def setupSafeMode (answer : SetupAnswer) (entry : InittabEntry) (s : State) : Bool × State :=
  let s := closePreviousPipe s
  if !answer.pipe2 then (false, s)
  else
    let q := s.kernel.pipeCount
    let piped := s.kernel.pipe2
    if !answer.calloc then (false, { s with kernel := piped.closePipe q })
    else
      let forked := piped.fork answer.fork (.placeholder entry q)
      if forked.1 < 0 then (false, { s with kernel := forked.2.closePipe q })
      else (true, { s with
        runningProcesses := ⟨entry, forked.1⟩ :: s.runningProcesses
        safeModePipeFd := some q
        kernel := forked.2.note (.placeholder entry forked.1 q) })

def startSafeMode (processName : List UInt8) (signal : Int) (answers : List WriteAnswer)
    (s : State) : Outcome State :=
  match findSafeModeProcess s.runningProcesses with
  | none => .error
      ⟨.panic "Safe mode required, but safe mode process placeholder not found!\n", s⟩
  | some _ =>
    match s.safeModePipeFd with
    | none => .error ⟨.assertion .pipeFd, s⟩
    | some q =>
      let written := executeSafeMode answers q processName signal s.kernel
      if written.1 then .ok { s with kernel := written.2, safeModeOn := true }
      else .error ⟨.panic "Couldn't start safe mode!", { s with kernel := written.2 }⟩

structure SpawnAnswer where
  calloc : Bool
  fork : Int
  write : List WriteAnswer
  deriving DecidableEq, Repr

def spawnExec (answer : SpawnAnswer) (entry : InittabEntry) (k : Kernel) : Int × Kernel :=
  let forked := k.fork answer.fork (.entry entry)
  (forked.1, forked.2.note (.fork entry forked.1))

/-- One iteration of start_processes after its calloc: the new has_one_shot and
    the new state. -/
def spawnEntry (answer : SpawnAnswer) (entry : InittabEntry) (hasOneShot : Bool) (s : State) :
    Outcome (Bool × State) :=
  let spawned := spawnExec answer entry s.kernel
  let s := { s with kernel := spawned.2 }
  if 0 < spawned.1 then
    .ok (hasOneShot || isOneShotEntry entry, { s with
      pendingFinish := if isOneShotEntry entry then s.pendingFinish + 1 else s.pendingFinish
      runningProcesses := ⟨entry, spawned.1⟩ :: s.runningProcesses })
  else if isSafeEntry entry then
    match startSafeMode entry.processName (-1) answer.write s with
    | .error stop => .error stop
    | .ok s => .ok (hasOneShot, s)
  else .ok (hasOneShot, s)

/-- The order the loop goes on with: it moves to the order of the next entry
    unless a one-shot was started. -/
def nextOrder (currentOrder : Int) (hasOneShot : Bool) : List InittabEntry → Int
  | [] => currentOrder
  | entry :: _ =>
    if entry.order ≠ currentOrder ∧ hasOneShot = false then entry.order else currentOrder

structure LoopResult where
  result : Bool
  hasOneShot : Bool
  entry : List InittabEntry
  state : State

def spawnLoop : List SpawnAnswer → Int → Bool → List InittabEntry → State → Outcome LoopResult
  | _, _, hasOneShot, [], s => .ok ⟨true, hasOneShot, [], s⟩
  | answers, currentOrder, hasOneShot, entry :: rest, s =>
    if entry.order = currentOrder then
      match answers with
      | [] => .ok ⟨false, hasOneShot, entry :: rest, s⟩
      | answer :: more =>
        if answer.calloc then
          match spawnEntry answer entry hasOneShot s with
          | .error stop => .error stop
          | .ok (hasOneShot, s) =>
            spawnLoop more (nextOrder currentOrder hasOneShot rest) hasOneShot rest s
        else .ok ⟨false, hasOneShot, entry :: rest, s⟩
    else .ok ⟨true, hasOneShot, entry :: rest, s⟩

structure StartAnswer where
  spawns : List SpawnAnswer
  timer : TimerAnswer
  deriving DecidableEq, Repr

def watchOneShots (answer : TimerAnswer) (s : State) : State :=
  let added := mainloopAddTimeout answer timeoutOneShot .oneShotTimeoutCb s
  { added.2 with oneShotTimeout := added.1 }

def startProcesses (answer : StartAnswer) (list : List InittabEntry) (s : State) :
    Outcome (Bool × State) :=
  match list with
  | [] => .ok (true, s)
  | first :: rest =>
    match spawnLoop answer.spawns first.order false (first :: rest)
        { s with pendingFinish := 0 } with
    | .error stop => .error stop
    | .ok r =>
      let s := { r.state with remaining := r.entry }
      .ok (r.result, if r.hasOneShot then watchOneShots answer.timer s else s)

def State.started (s : State) (entry : InittabEntry) (pid : Int) : State :=
  { s with
    pendingFinish := if isOneShotEntry entry then s.pendingFinish + 1 else s.pendingFinish
    runningProcesses := ⟨entry, pid⟩ :: s.runningProcesses
    kernel := (s.kernel.spawned pid (.entry entry)).note (.fork entry pid) }

def State.notStarted (s : State) (entry : InittabEntry) : State :=
  { s with kernel := s.kernel.note (.fork entry (-1)) }

def State.requested (s : State) (q : Nat) (info : SharedInfo) : State :=
  { s with kernel := s.kernel.sent q info, safeModeOn := true }

def State.placed (s : State) (entry : InittabEntry) (pid : Int) : State :=
  { s with
    runningProcesses := ⟨entry, pid⟩ :: s.runningProcesses
    safeModePipeFd := some s.kernel.pipeCount
    kernel := (s.kernel.pipe2.spawned pid (.placeholder entry s.kernel.pipeCount)).note
      (.placeholder entry pid s.kernel.pipeCount) }

theorem close_previous_pipe_frame (s : State) :
    ∃ pipes, closePreviousPipe s = { s with kernel := { s.kernel with pipes := pipes } } ∧
      ∀ q, (pipes q).data = (s.kernel.pipes q).data ∧
        (pipes q).consumed = (s.kernel.pipes q).consumed := by
  unfold closePreviousPipe
  split
  · exact ⟨s.kernel.pipes, rfl, fun q => ⟨rfl, rfl⟩⟩
  · rename_i previous _
    refine ⟨_, rfl, ?_⟩
    intro q
    by_cases same : q = previous
    · subst q
      simp
    · simp [same]

theorem fork_cases (k : Kernel) (answer : Int) (role : Role) :
    (k.PidFree answer ∧ k.fork answer role = (answer, k.spawned answer role)) ∨
    (¬ k.PidFree answer ∧ k.fork answer role = (-1, k)) := by
  by_cases free : k.PidFree answer
  · exact Or.inl ⟨free, by simp [Kernel.fork, free]⟩
  · exact Or.inr ⟨free, by simp [Kernel.fork, free]⟩

theorem find_safe_mode_some {running : List Process} {p : Process}
    (found : findSafeModeProcess running = some p) :
    p ∈ running ∧ p.config.type = .safeMode := by
  induction running with
  | nil => simp [findSafeModeProcess] at found
  | cons q rest ih =>
    simp only [findSafeModeProcess] at found
    split at found
    · rename_i kind
      obtain rfl := Option.some.inj found
      exact ⟨List.mem_cons_self, kind⟩
    · obtain ⟨member, kind⟩ := ih found
      exact ⟨List.mem_cons_of_mem q member, kind⟩

theorem start_safe_mode_ok {name : List UInt8} {sig : Int} {answers : List WriteAnswer}
    {s s' : State} (done : startSafeMode name sig answers s = .ok s') :
    ∃ q p, s.safeModePipeFd = some q ∧ p ∈ s.runningProcesses ∧ p.config.type = .safeMode ∧
      s' = State.requested s q (fillSharedInfo name sig) := by
  unfold startSafeMode at done
  split at done
  · simp at done
  · rename_i p found
    obtain ⟨member, kind⟩ := find_safe_mode_some found
    split at done
    · simp at done
    · rename_i q pipe
      dsimp only at done
      split at done
      · rename_i written
        refine ⟨q, p, pipe, member, kind, ?_⟩
        rw [execute_safe_mode_sent written] at done
        exact (Except.ok.inj done).symm
      · simp at done

theorem spawn_entry_cases {answer : SpawnAnswer} {entry : InittabEntry} {has has' : Bool}
    {s s' : State} (done : spawnEntry answer entry has s = .ok (has', s')) :
    (∃ pid, s.kernel.PidFree pid ∧ has' = (has || isOneShotEntry entry) ∧
      s' = State.started s entry pid) ∨
    (has' = has ∧ isSafeEntry entry = true ∧ ∃ q p, s.safeModePipeFd = some q ∧
      p ∈ s.runningProcesses ∧ p.config.type = .safeMode ∧
      s' = State.requested (State.notStarted s entry) q
        (fillSharedInfo entry.processName (-1))) ∨
    (has' = has ∧ isSafeEntry entry = false ∧ s' = State.notStarted s entry) := by
  simp only [spawnEntry, spawnExec] at done
  rcases fork_cases s.kernel answer.fork (.entry entry) with ⟨free, forked⟩ | ⟨_, forked⟩
  · rw [forked] at done
    have positive : 0 < answer.fork := by have := free.1; omega
    simp only [positive, ↓reduceIte, Except.ok.injEq, Prod.mk.injEq] at done
    exact Or.inl ⟨answer.fork, free, done.1.symm, done.2.symm⟩
  · rw [forked] at done
    simp only [show ¬ (0 : Int) < -1 by omega, ↓reduceIte] at done
    split at done
    · rename_i safe
      split at done
      · simp at done
      · rename_i state started
        obtain ⟨q, p, pipe, member, kind, eq⟩ := start_safe_mode_ok started
        simp only [Except.ok.injEq, Prod.mk.injEq] at done
        exact Or.inr (Or.inl ⟨done.1.symm, safe, q, p, pipe, member, kind,
          done.2.symm.trans eq⟩)
    · rename_i plain
      simp only [Except.ok.injEq, Prod.mk.injEq] at done
      exact Or.inr (Or.inr ⟨done.1.symm, by simpa using plain, done.2.symm⟩)

/-- A loop invariant of start_processes: it may mention the current order, the
    one-shot flag and the entries still to come. -/
theorem spawn_loop_rule (inv : Int → Bool → List InittabEntry → State → Prop)
    (iteration : ∀ answer entry order has rest s has' s', inv order has (entry :: rest) s →
      entry.order = order → spawnEntry answer entry has s = .ok (has', s') →
      inv (nextOrder order has' rest) has' rest s')
    {answers : List SpawnAnswer} {order : Int} {has : Bool} {list : List InittabEntry}
    {s : State} {r : LoopResult} (holds : inv order has list s)
    (done : spawnLoop answers order has list s = .ok r) :
    ∃ last, inv last r.hasOneShot r.entry r.state := by
  induction list generalizing answers order has s with
  | nil =>
    simp only [spawnLoop, Except.ok.injEq] at done
    subst r
    exact ⟨order, holds⟩
  | cons entry rest ih =>
    unfold spawnLoop at done
    split at done
    · rename_i same
      split at done
      · obtain rfl := Except.ok.inj done
        exact ⟨order, holds⟩
      · rename_i answer more
        split at done
        · split at done
          · simp at done
          · rename_i has' s' spawned
            exact ih (iteration answer entry order has rest s has' s' holds same spawned) done
        · obtain rfl := Except.ok.inj done
          exact ⟨order, holds⟩
    · obtain rfl := Except.ok.inj done
      exact ⟨order, holds⟩

theorem start_safe_mode_error {name : List UInt8} {sig : Int} {answers : List WriteAnswer}
    {s : State} {stop : Stop} (failed : startSafeMode name sig answers s = .error stop) :
    (stop.state = s ∧ ((∃ message, stop.halt = .panic message) ∨
      (s.safeModePipeFd = none ∧ stop.halt = .assertion .pipeFd))) ∨
    ∃ q count message, s.safeModePipeFd = some q ∧ stop.halt = .panic message ∧
      stop.state = { s with
        kernel := (s.kernel.note (.request q (s.kernel.pipes q).consumed)).setPipe q
          { s.kernel.pipes q with
            data := (s.kernel.pipes q).data ++ (fillSharedInfo name sig).bytes.take count } } := by
  unfold startSafeMode at failed
  split at failed
  · obtain rfl := Except.error.inj failed
    exact Or.inl ⟨rfl, Or.inl ⟨_, rfl⟩⟩
  · split at failed
    · rename_i missing
      obtain rfl := Except.error.inj failed
      exact Or.inl ⟨rfl, Or.inr ⟨missing, rfl⟩⟩
    · rename_i q pipe
      dsimp only at failed
      split at failed
      · simp at failed
      · rename_i broken
        obtain rfl := Except.error.inj failed
        obtain ⟨count, kernel⟩ := execute_safe_mode_failed (by simpa using broken)
        exact Or.inr ⟨q, count, _, pipe, rfl, by simp only [kernel]⟩

theorem spawn_entry_error {answer : SpawnAnswer} {entry : InittabEntry} {has : Bool}
    {s : State} {stop : Stop} (failed : spawnEntry answer entry has s = .error stop) :
    isSafeEntry entry = true ∧
      startSafeMode entry.processName (-1) answer.write (State.notStarted s entry) =
        .error stop := by
  simp only [spawnEntry, spawnExec] at failed
  rcases fork_cases s.kernel answer.fork (.entry entry) with ⟨free, forked⟩ | ⟨_, forked⟩
  · rw [forked] at failed
    have positive : 0 < answer.fork := by have := free.1; omega
    simp [positive] at failed
  · rw [forked] at failed
    simp only [show ¬ (0 : Int) < -1 by omega, ↓reduceIte] at failed
    split at failed
    · rename_i safe
      split at failed
      · rename_i stopped halted
        obtain rfl := Except.error.inj failed
        exact ⟨safe, halted⟩
      · simp at failed
    · simp at failed

theorem spawn_loop_error (inv : Int → Bool → List InittabEntry → State → Prop)
    (iteration : ∀ answer entry order has rest s has' s', inv order has (entry :: rest) s →
      entry.order = order → spawnEntry answer entry has s = .ok (has', s') →
      inv (nextOrder order has' rest) has' rest s')
    {answers : List SpawnAnswer} {order : Int} {has : Bool} {list : List InittabEntry}
    {s : State} {stop : Stop} (holds : inv order has list s)
    (failed : spawnLoop answers order has list s = .error stop) :
    ∃ answer entry last has' rest s', inv last has' (entry :: rest) s' ∧ entry.order = last ∧
      spawnEntry answer entry has' s' = .error stop := by
  induction list generalizing answers order has s with
  | nil => simp [spawnLoop] at failed
  | cons entry rest ih =>
    unfold spawnLoop at failed
    split at failed
    · rename_i same
      split at failed
      · simp at failed
      · rename_i answer more
        split at failed
        · split at failed
          · rename_i stopped halted
            obtain rfl := Except.error.inj failed
            exact ⟨answer, entry, order, has, rest, s, holds, same, halted⟩
          · rename_i has' s' spawned
            exact ih (iteration answer entry order has rest s has' s' holds same spawned) failed
        · simp at failed
    · simp at failed

theorem watch_one_shots_retimed (answer : TimerAnswer) (s : State) :
    Retimed s (watchOneShots answer s) := by
  unfold watchOneShots
  rcases add_timeout_cases answer timeoutOneShot .oneShotTimeoutCb s with added | added
  · rw [added]
    exact ⟨_, _, _, _, _, rfl⟩
  · rw [added]
    exact ⟨_, _, _, _, _, rfl⟩

def Starts (answer : StartAnswer) (list : List InittabEntry) (s s' : State) : Prop :=
  ∃ first rest r, list = first :: rest ∧
    spawnLoop answer.spawns first.order false list { s with pendingFinish := 0 } = .ok r ∧
    Retimed { r.state with remaining := r.entry } s'

theorem start_processes_cons {answer : StartAnswer} {first : InittabEntry}
    {rest : List InittabEntry} {s s' : State} {result : Bool}
    (done : startProcesses answer (first :: rest) s = .ok (result, s')) :
    Starts answer (first :: rest) s s' := by
  simp only [startProcesses] at done
  split at done
  · simp at done
  · rename_i r looped
    simp only [Except.ok.injEq, Prod.mk.injEq] at done
    obtain ⟨_, rfl⟩ := done
    refine ⟨first, rest, r, rfl, looped, ?_⟩
    split
    · exact watch_one_shots_retimed _ _
    · exact retimed_refl _

theorem start_processes_cases {answer : StartAnswer} {list : List InittabEntry} {s s' : State}
    {result : Bool} (done : startProcesses answer list s = .ok (result, s')) :
    (list = [] ∧ s' = s) ∨ Starts answer list s s' := by
  cases list with
  | nil =>
    simp only [startProcesses, Except.ok.injEq, Prod.mk.injEq] at done
    exact Or.inl ⟨rfl, done.2.symm⟩
  | cons first rest => exact Or.inr (start_processes_cons done)

theorem start_processes_starts {answer : StartAnswer} {list : List InittabEntry} {s s' : State}
    {result : Bool} (due : list ≠ [])
    (done : startProcesses answer list s = .ok (result, s')) : Starts answer list s s' :=
  (start_processes_cases done).resolve_left (fun none => due none.1)

theorem starts_rule (inv : Int → Bool → List InittabEntry → State → Prop)
    (iteration : ∀ answer entry order has rest s has' s', inv order has (entry :: rest) s →
      entry.order = order → spawnEntry answer entry has s = .ok (has', s') →
      inv (nextOrder order has' rest) has' rest s')
    {answer : StartAnswer} {list : List InittabEntry} {s s' : State}
    (starts : Starts answer list s s')
    (holds : ∀ order, inv order false list { s with pendingFinish := 0 }) :
    ∃ order has entry final, inv order has entry final ∧
      Retimed { final with remaining := entry } s' := by
  obtain ⟨first, rest, r, rfl, looped, retimed⟩ := starts
  obtain ⟨order, kept⟩ := spawn_loop_rule inv iteration (holds first.order) looped
  exact ⟨order, r.hasOneShot, r.entry, r.state, kept, retimed⟩

def StartsHalted (answer : StartAnswer) (list : List InittabEntry) (s : State) (stop : Stop) :
    Prop :=
  ∃ first rest, list = first :: rest ∧
    spawnLoop answer.spawns first.order false list { s with pendingFinish := 0 } = .error stop

theorem start_processes_error {answer : StartAnswer} {list : List InittabEntry} {s : State}
    {stop : Stop} (failed : startProcesses answer list s = .error stop) :
    StartsHalted answer list s stop := by
  cases list with
  | nil => simp [startProcesses] at failed
  | cons first rest =>
    simp only [startProcesses] at failed
    split at failed
    · rename_i stopped halted
      obtain rfl := Except.error.inj failed
      exact ⟨first, rest, rfl, halted⟩
    · simp at failed

theorem starts_halted_rule (inv : Int → Bool → List InittabEntry → State → Prop)
    (iteration : ∀ answer entry order has rest s has' s', inv order has (entry :: rest) s →
      entry.order = order → spawnEntry answer entry has s = .ok (has', s') →
      inv (nextOrder order has' rest) has' rest s')
    {answer : StartAnswer} {list : List InittabEntry} {s : State} {stop : Stop}
    (halted : StartsHalted answer list s stop)
    (holds : ∀ order, inv order false list { s with pendingFinish := 0 }) :
    ∃ order has entry rest s' write, inv order has (entry :: rest) s' ∧ entry.order = order ∧
      isSafeEntry entry = true ∧
      startSafeMode entry.processName (-1) write (State.notStarted s' entry) = .error stop := by
  obtain ⟨first, rest, rfl, looped⟩ := halted
  obtain ⟨answer, entry, last, has, rest, s', kept, same, failed⟩ :=
    spawn_loop_error inv iteration (holds first.order) looped
  obtain ⟨safe, failed⟩ := spawn_entry_error failed
  exact ⟨last, has, entry, rest, s', answer.write, kept, same, safe, failed⟩

theorem setup_safe_mode_made {answer : SetupAnswer} {entry : InittabEntry} {s s' : State}
    (made : setupSafeMode answer entry s = (true, s')) :
    ∃ pid, s.kernel.PidFree pid ∧ s' = State.placed (closePreviousPipe s) entry pid := by
  simp only [setupSafeMode] at made
  split at made
  · simp at made
  · split at made
    · simp at made
    · rcases fork_cases (closePreviousPipe s).kernel.pipe2 answer.fork
        (.placeholder entry (closePreviousPipe s).kernel.pipeCount) with
        ⟨free, forked⟩ | ⟨_, forked⟩
      · rw [forked] at made
        have positive : ¬ answer.fork < 0 := by have := free.1; omega
        simp only [positive, ↓reduceIte, Prod.mk.injEq, true_and] at made
        refine ⟨answer.fork, ?_, made.symm⟩
        obtain ⟨_, closed, _⟩ := close_previous_pipe_frame s
        simpa [Kernel.PidFree, Kernel.pipe2, Kernel.setPipe, closed] using free
      · rw [forked] at made
        simp at made

/-- A pipe is as before, or there is nothing in it that anyone took. -/
def PipeKept (before after : Pipe) : Prop :=
  (after.data = before.data ∧ after.consumed = before.consumed) ∨
  (after.data = [] ∧ after.consumed = false)

theorem pipe2_kept (k : Kernel) (q : Nat) : PipeKept (k.pipes q) (k.pipe2.pipes q) := by
  by_cases same : q = k.pipeCount
  · exact Or.inr (by simp [same, Kernel.pipe2, Kernel.setPipe, Pipe.fresh])
  · exact Or.inl (by simp [same, Kernel.pipe2, Kernel.setPipe])

theorem setup_safe_mode_failed {answer : SetupAnswer} {entry : InittabEntry} {s : State}
    (failed : (setupSafeMode answer entry s).1 = false) :
    ∃ k, (setupSafeMode answer entry s).2 = { s with kernel := k } ∧ k.log = s.kernel.log ∧
      ∀ q, PipeKept (s.kernel.pipes q) (k.pipes q) := by
  obtain ⟨pipes, closed, unread⟩ := close_previous_pipe_frame s
  have opened : ∀ q, PipeKept (s.kernel.pipes q)
      (({ s.kernel with pipes := pipes } : Kernel).pipe2.pipes q) := by
    intro q
    have kept := pipe2_kept { s.kernel with pipes := pipes } q
    rwa [PipeKept, (unread q).1, (unread q).2] at kept
  have shut : ∀ q, PipeKept (s.kernel.pipes q)
      ((({ s.kernel with pipes := pipes } : Kernel).pipe2.closePipe
        s.kernel.pipeCount).pipes q) := by
    intro q
    by_cases same : q = s.kernel.pipeCount
    · exact Or.inr (by simp [same, Kernel.closePipe, Kernel.pipe2, Kernel.setPipe, Pipe.fresh])
    · simpa [Kernel.closePipe, Kernel.setPipe, same] using opened q
  simp only [setupSafeMode, closed] at failed ⊢
  split
  · exact ⟨_, rfl, rfl, fun q => Or.inl (unread q)⟩
  · split
    · exact ⟨_, rfl, rfl, shut⟩
    · rename_i made room
      simp only [made, room] at failed
      rcases fork_cases ({ s.kernel with pipes := pipes } : Kernel).pipe2 answer.fork
        (.placeholder entry s.kernel.pipeCount) with ⟨free, forked⟩ | ⟨_, forked⟩
      · rw [forked] at failed
        have positive : ¬ answer.fork < 0 := by have := free.1; omega
        simp [positive] at failed
      · rw [forked]
        exact ⟨_, rfl, rfl, shut⟩

theorem setup_safe_mode_returns {answer : SetupAnswer} {s : State} (entry : InittabEntry)
    (pipe : answer.pipe2 = true) (calloc : answer.calloc = true)
    (free : s.kernel.PidFree answer.fork) : (setupSafeMode answer entry s).1 = true := by
  have unused : (closePreviousPipe s).kernel.pipe2.PidFree answer.fork := by
    obtain ⟨_, closed, _⟩ := close_previous_pipe_frame s
    simpa [Kernel.PidFree, Kernel.pipe2, Kernel.setPipe, closed] using free
  have positive : ¬ answer.fork < 0 := by have := free.1; omega
  simp [setupSafeMode, pipe, calloc, Kernel.fork, unused, positive]

end ProcessStart
