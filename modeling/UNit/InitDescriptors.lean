import UNit.DescriptorOwners
import UNit.TimerHandles

/-!
The descriptors of init from main to the end of a run. Each timeout has a
timer descriptor that epoll watches, the pipe of the placeholder leaves its
write end behind, and the epoll instance and the signal descriptor stay. The
calls that open and close them are read off next to the steps of the main loop;
the log may be opened by any message in between.
-/
namespace InitDescriptors
open InittabEntries SafeModeRecord ProcessHistory KernelModel InitState ProcessStart ChildExit
  StageControl MainLoop LabelledRuns LoopFrames KillTimer TimerHandles DescriptorOwners

inductive Fixed where
  | inherited (n : Nat)
  | log
  | epoll
  | signal
  | watchdog
  deriving DecidableEq, Repr

/-- The variables of the source that hold descriptors: statics, the cb_data of a
    timeout, both entries of pipefd, and a file that is open for one call. -/
inductive Key where
  | fixed (which : Fixed)
  | file
  | timer (id : Nat)
  | readEnd (q : Nat)
  | writeEnd (q : Nat)
  deriving DecidableEq, Repr

/-- The descriptors of mainloop_remove_timeout. What follows is, in this order, that
    of mainloop_add_timeout, setup_safe_mode, start_processes, handle_child_exit,
    handle_shutdown_cmd, signal_handler, the loop of mainloop_start and
    stage_maintenance. -/
def removeOps (id : Nat) : List (Op Key) := [.unwatch (.timer id), .drop (.timer id)]

def addOps (answer : TimerAnswer) (id : Nat) : List (Op Key) :=
  if !answer.calloc then []
  else if !answer.timerfdCreate then []
  else if !answer.epollCtl then [.acquire (.timer id), .drop (.timer id)]
  else [.acquire (.timer id), .watch (.timer id)]

def cancelOps : Option Nat → List (Op Key)
  | none => []
  | some id => removeOps id

def setupOps (answer : SetupAnswer) (s : State) : List (Op Key) :=
  (match s.safeModePipeFd with
    | none => []
    | some q => [.drop (.writeEnd q)]) ++
  if !answer.pipe2 then []
  else
    let q := s.kernel.pipeCount
    let failed := [.drop (.readEnd q), .drop (.writeEnd q)]
    .pair (.readEnd q) (.writeEnd q) ::
      if !answer.calloc then failed
      else if s.kernel.PidFree answer.fork then [.drop (.readEnd q)]
      else failed

def startOps (answer : StartAnswer) (list : List InittabEntry) (s : State) : List (Op Key) :=
  match list with
  | [] => []
  | first :: rest =>
    match spawnLoop answer.spawns first.order false (first :: rest)
        { s with pendingFinish := 0 } with
    | .error _ => []
    | .ok r => if r.hasOneShot then addOps answer.timer s.timeoutCount else []

def exitOps (answer : ExitAnswer) (s : State) : List (Op Key) :=
  match reapLoop answer.wait.last answer.wait.results .initial s with
  | .error _ => []
  | .ok (r, s) =>
    match requestSafeMode answer.write r s with
    | .error _ => []
    | .ok s => if r.restartSafeModePlaceholder then setupOps answer.setup s else []

def commandOps (answer : TimerAnswer) (s : State) : List (Op Key) :=
  cancelOps s.oneShotTimeout ++ addOps answer s.timeoutCount

def signalOps (answer : SignalAnswer) (s : State) : List (Op Key) :=
  match answer.signo with
  | .sigchld => exitOps answer.exit s
  | .sigterm => commandOps answer.timer s
  | .sigusr1 => commandOps answer.timer s
  | .sigusr2 => commandOps answer.timer s
  | .other => []

def expireOps (id : Nat) (s : State) : List (Op Key) :=
  match findTimeout id s with
  | none => []
  | some t => if (runTimeout t.callback s).1 ≠ .continue then removeOps t.id else []

def maintenanceOps (answer : StartAnswer) (s : State) : List (Op Key) :=
  match s.currentStage with
  | .startup | .shutdown =>
    if s.pendingFinish = 0 then
      cancelOps s.oneShotTimeout ++ startOps answer s.remaining (cancelOneShotTimeout s)
    else []
  | .termination =>
    if atMostOne s.runningProcesses then
      startOps answer s.table.shutdownList { s with currentStage := .shutdown } ++
        cancelOps s.killTimeout
    else []
  | .setup | .run | .close => []

def stepOps (sys : System) (event : Event) : List (Op Key) :=
  match sys.control, event with
  | .events (.signal :: _), .dispatch (.siginfo answer) => signalOps answer sys.state
  | .events (.timeout id :: _), .dispatch .expired => expireOps id sys.state
  | .post _, .postIteration answer =>
    if sys.state.postIterationCallback = none then [] else maintenanceOps answer sys.state
  | _, _ => []

def traceOps : List (System × Event) → List (Op Key)
  | [] => []
  | (sys, event) :: earlier => traceOps earlier ++ stepOps sys event

/-- mainloop_setup and the signalfd of mainloop_add_signal_handler; nothing is
    logged between the two. -/
def loopOwners (o : Owners Key) : Owners Key :=
  acquired (.fixed .signal) (acquired (.fixed .epoll) o)

def fileOps : List (Op Key) := [.acquire .file, .drop .file]

/-- start_watchdog; the device may be opened and closed again before the timeout
    is set. -/
def watchdogOps (opened : Bool) : Option (Nat × TimerAnswer) → List (Op Key)
  | none => if opened then [.acquire (.fixed .watchdog), .drop (.fixed .watchdog)] else []
  | some (_, answer) =>
    .acquire (.fixed .watchdog) :: addOps answer 0 ++
      if answer.calloc && answer.timerfdCreate && answer.epollCtl then []
      else [.drop (.fixed .watchdog)]

/-- main from there to mainloop_start: the signal handler is watched, then come the
    watchdog, the inittab, the placeholder and the first list. -/
def bootOps (table : BootTable) (opened : Bool) (answer : BootAnswer) : List (Op Key) :=
  let s := startWatchdog answer.watchdog (State.initial table)
  [.watch (.fixed .signal)] ++ watchdogOps opened answer.watchdog ++ fileOps ++
  setupOps answer.setup s ++
  startOps answer.start table.startupList
    { (setupSafeMode answer.setup table.safeModeEntry s).2 with currentStage := .startup }

/-- What init does to its descriptors, with the messages it logs in between. -/
inductive Call where
  | op (op : Op Key)
  | logMessage (openLog : Bool)
  deriving DecidableEq, Repr

def callStep (o : Owners Key) : Call → Option (Owners Key)
  | .op op => step o op
  | .logMessage openLog =>
    if openLog = true ∧ o.vars (.fixed .log) = none then step o (.acquire (.fixed .log))
    else some o

def followCalls (o : Owners Key) : List Call → Option (Owners Key)
  | [] => some o
  | call :: calls => (callStep o call).bind (fun o => followCalls o calls)

def opOf : Call → Option (Op Key)
  | .op op => some op
  | .logMessage _ => none

def Holds (fixed : Set Fixed) (s : State) : Key → Prop
  | .fixed which => which ∈ fixed
  | .file => False
  | .timer id => id ∈ s.timeouts.map MainloopTimeout.id
  | .readEnd _ => False
  | .writeEnd q => s.safeModePipeFd = some q

def Watches (s : State) : Key → Prop
  | .fixed which => which = .signal
  | .timer id => id ∈ s.timeouts.map MainloopTimeout.id
  | .file => False
  | .readEnd _ => False
  | .writeEnd _ => False

def keysOf (fixed : Set Fixed) (s : State) : Keys Key := ⟨{k | Holds fixed s k}, {k | Watches s k}⟩

def Leads (fixed : Set Fixed) (s : State) (ops : List (Op Key)) (t : State) : Prop :=
  (keysOf fixed s).Reaches ops (keysOf fixed t)

section Leading
variable {fixed : Set Fixed} {s t u : State} {ops more : List (Op Key)}

theorem keys_ext {a b : Keys Key} (held : ∀ k, k ∈ a.held ↔ k ∈ b.held)
    (watched : ∀ k, k ∈ a.watched ↔ k ∈ b.watched) : a = b :=
  Keys.ext (Set.ext held) (Set.ext watched)

theorem keys_congr (timers : t.timeouts.map MainloopTimeout.id = s.timeouts.map MainloopTimeout.id)
    (pipe : t.safeModePipeFd = s.safeModePipeFd) : keysOf fixed t = keysOf fixed s := by
  refine keys_ext ?_ ?_
  · intro k
    cases k <;> simp [keysOf, Holds, timers, pipe]
  · intro k
    cases k <;> simp [keysOf, Watches, timers]

theorem leads_same (timers : t.timeouts = s.timeouts)
    (pipe : t.safeModePipeFd = s.safeModePipeFd) : Leads fixed s [] t :=
  ⟨trivial, (keys_congr (by rw [timers]) pipe).symm⟩

theorem leads_append (first : Leads fixed s ops t) (second : Leads fixed t more u) :
    Leads fixed s (ops ++ more) u :=
  reaches_append first second

theorem leads_to (first : Leads fixed s ops t) (timers : u.timeouts = t.timeouts)
    (pipe : u.safeModePipeFd = t.safeModePipeFd) : Leads fixed s ops u := by
  have whole := leads_append first (leads_same timers pipe)
  rwa [List.append_nil] at whole

theorem leads_from (first : Leads fixed t ops u) (timers : t.timeouts = s.timeouts)
    (pipe : t.safeModePipeFd = s.safeModePipeFd) : Leads fixed s ops u :=
  leads_append (leads_same timers pipe) first

theorem remove_leads {id : Nat} (registered : id ∈ s.timeouts.map MainloopTimeout.id) :
    Leads fixed s (removeOps id) (mainloopRemoveTimeout id s) := by
  have gone : ∀ x, x ∈ (mainloopRemoveTimeout id s).timeouts.map MainloopTimeout.id ↔
      x ∈ s.timeouts.map MainloopTimeout.id ∧ x ≠ id := by
    intro x
    simp only [mainloopRemoveTimeout, List.mem_map, List.mem_filter, decide_eq_true_eq]
    constructor
    · rintro ⟨t, ⟨member, other⟩, rfl⟩
      exact ⟨⟨t, member, rfl⟩, other⟩
    · rintro ⟨⟨t, member, rfl⟩, other⟩
      exact ⟨t, ⟨member, other⟩, rfl⟩
  refine ⟨⟨registered, ⟨registered, by simp [Keys.after]⟩, trivial⟩, ?_⟩
  refine keys_ext ?_ ?_
  · intro k
    cases k <;> simp [Keys.afterAll, removeOps, Keys.after, keysOf, Holds, gone]
    simp [mainloopRemoveTimeout]
  · intro k
    cases k <;> simp [Keys.afterAll, removeOps, Keys.after, keysOf, Watches, gone]

theorem add_leads (below : ∀ t ∈ s.timeouts, t.id < s.timeoutCount) (answer : TimerAnswer)
    (msec : Nat) (callback : TimeoutCallback) :
    Leads fixed s (addOps answer s.timeoutCount) (mainloopAddTimeout answer msec callback s).2 := by
  have fresh : s.timeoutCount ∉ s.timeouts.map MainloopTimeout.id := by
    intro member
    obtain ⟨t, registered, same⟩ := List.mem_map.mp member
    exact absurd same (Nat.ne_of_lt (below t registered))
  unfold addOps mainloopAddTimeout
  split
  · exact leads_same rfl rfl
  · split
    · exact leads_same rfl rfl
    · split
      · refine ⟨⟨fresh, ⟨Set.mem_insert _ _, fresh⟩, trivial⟩, ?_⟩
        refine keys_ext ?_ (fun _ => Iff.rfl)
        intro k
        simp only [Keys.afterAll, List.foldl_cons, List.foldl_nil, Keys.after, Set.mem_sdiff,
          Set.mem_insert_iff, Set.mem_singleton_iff]
        constructor
        · rintro ⟨rfl | held, other⟩
          · exact absurd rfl other
          · exact held
        · intro held
          refine ⟨Or.inr held, ?_⟩
          rintro rfl
          exact fresh held
      · refine ⟨⟨fresh, ⟨Set.mem_insert _ _, fresh⟩, trivial⟩, keys_ext ?_ ?_⟩
        · intro k
          cases k <;> simp [Keys.afterAll, Keys.after, keysOf, Holds]
        · intro k
          cases k <;> simp [Keys.afterAll, Keys.after, keysOf, Watches]

theorem cancel_one_shot_leads (held : Handled s) :
    Leads fixed s (cancelOps s.oneShotTimeout) (cancelOneShotTimeout s) := by
  unfold cancelOneShotTimeout
  cases handle : s.oneShotTimeout with
  | none => exact leads_same rfl rfl
  | some id =>
    obtain ⟨t, member, rfl, _⟩ := (held.oneShot id).mp handle
    exact leads_to (remove_leads (List.mem_map_of_mem member)) rfl rfl

theorem cancel_kill_leads (held : Handled s) :
    Leads fixed s (cancelOps s.killTimeout) (cancelKillTimeout s) := by
  unfold cancelKillTimeout
  cases handle : s.killTimeout with
  | none => exact leads_same rfl rfl
  | some id =>
    obtain ⟨t, member, rfl, _⟩ := held.kill id handle
    exact leads_to (remove_leads (List.mem_map_of_mem member)) rfl rfl

theorem spawn_loop_frame {answers : List SpawnAnswer} {order : Int} {has : Bool}
    {list : List InittabEntry} {r : LoopResult} (done : spawnLoop answers order has list s = .ok r) :
    Reprocessed s r.state ∧ r.state.safeModePipeFd = s.safeModePipeFd := by
  obtain ⟨_, kept⟩ := spawn_loop_rule
    (fun _ _ _ t => Reprocessed s t ∧ t.safeModePipeFd = s.safeModePipeFd)
    (fun _ _ _ _ _ _ _ _ held _ spawned => by
      refine ⟨reprocessed_trans held.1 (spawn_entry_reprocessed spawned), ?_⟩
      rcases spawn_entry_cases spawned with
        ⟨_, _, _, rfl⟩ | ⟨_, _, _, _, _, _, _, rfl⟩ | ⟨_, _, rfl⟩
      all_goals exact held.2)
    ⟨reprocessed_refl s, rfl⟩ done
  exact kept

theorem start_ops_looped {answer : StartAnswer} {first : InittabEntry} {rest : List InittabEntry}
    {r : LoopResult} (looped : spawnLoop answer.spawns first.order false (first :: rest)
      { s with pendingFinish := 0 } = .ok r) :
    startOps answer (first :: rest) s =
      if r.hasOneShot then addOps answer.timer s.timeoutCount else [] := by
  simp only [startOps, looped]

theorem start_leads {answer : StartAnswer} {list : List InittabEntry} {result : Bool}
    (held : Handled s) (done : startProcesses answer list s = .ok (result, t)) :
    Leads fixed s (startOps answer list s) t := by
  cases list with
  | nil =>
    simp only [startProcesses, Except.ok.injEq, Prod.mk.injEq] at done
    obtain ⟨_, rfl⟩ := done
    exact leads_same rfl rfl
  | cons first rest =>
    simp only [startProcesses] at done
    split at done
    · simp at done
    · rename_i r looped
      obtain ⟨worked, pipe⟩ := spawn_loop_frame looped
      obtain ⟨_, _, _, _, _, _, shape⟩ := worked
      simp only [Except.ok.injEq, Prod.mk.injEq] at done
      obtain ⟨_, rfl⟩ := done
      rw [start_ops_looped looped]
      have timers : r.state.timeouts = s.timeouts := by rw [shape]
      have count : r.state.timeoutCount = s.timeoutCount := by rw [shape]
      split
      · have below : ∀ t ∈ r.state.timeouts, t.id < r.state.timeoutCount := by
          rw [timers, count]
          exact held.apart.below
        have added : Leads fixed { r.state with remaining := r.entry }
            (addOps answer.timer r.state.timeoutCount)
            (mainloopAddTimeout answer.timer timeoutOneShot .oneShotTimeoutCb
              { r.state with remaining := r.entry }).2 :=
          add_leads (s := { r.state with remaining := r.entry }) below answer.timer timeoutOneShot
            .oneShotTimeoutCb
        rw [count] at added
        exact leads_to (leads_from added timers pipe) rfl rfl
      · exact leads_same timers pipe

theorem setup_leads {answer : SetupAnswer} {entry : InittabEntry}
    (made : setupSafeMode answer entry s = (true, t)) : Leads fixed s (setupOps answer s) t := by
  have succeeds : answer.pipe2 = true ∧ answer.calloc = true ∧ s.kernel.PidFree answer.fork := by
    have same : (closePreviousPipe s).kernel.children = s.kernel.children := by
      obtain ⟨_, closed, _⟩ := close_previous_pipe_frame s
      rw [closed]
    simp only [setupSafeMode] at made
    split at made
    · simp at made
    · rename_i piped
      split at made
      · simp at made
      · rename_i enough
        split at made
        · simp at made
        · rename_i forked
          refine ⟨by simpa using piped, by simpa using enough, ?_⟩
          by_contra taken
          have unfree : ¬ (closePreviousPipe s).kernel.pipe2.PidFree answer.fork := by
            simpa [Kernel.PidFree, Kernel.pipe2, Kernel.setPipe, same] using taken
          simp [Kernel.fork, unfree] at forked
  obtain ⟨piped, enough, free⟩ := succeeds
  have timers : t.timeouts = s.timeouts ∧ t.safeModePipeFd = some s.kernel.pipeCount := by
    obtain ⟨pid, _, rfl⟩ := setup_safe_mode_made made
    obtain ⟨_, closed, _⟩ := close_previous_pipe_frame s
    rw [closed]
    exact ⟨rfl, rfl⟩
  have closing : Leads fixed s (match s.safeModePipeFd with
      | none => []
      | some q => [.drop (.writeEnd q)]) { s with safeModePipeFd := none } := by
    cases pipe : s.safeModePipeFd with
    | none => exact leads_same rfl pipe.symm
    | some q =>
      refine ⟨⟨⟨pipe, by simp [keysOf, Watches]⟩, trivial⟩, keys_ext ?_ ?_⟩
      · intro k
        cases k <;> simp [Keys.afterAll, Keys.after, keysOf, Holds, pipe]
        exact fun same => same.symm
      · intro k
        cases k <;> simp [Keys.afterAll, Keys.after, keysOf, Watches]
  have opening : Leads fixed { s with safeModePipeFd := none }
      [.pair (.readEnd s.kernel.pipeCount) (.writeEnd s.kernel.pipeCount),
        .drop (.readEnd s.kernel.pipeCount)] t := by
    refine ⟨⟨⟨?_, ?_⟩, ⟨?_, ?_⟩, trivial⟩, keys_ext ?_ ?_⟩
    · simp [keysOf, Holds]
    · simp [keysOf, Holds]
    · simp [Keys.after]
    · simp [Keys.after, keysOf, Watches]
    · intro k
      cases k <;> simp [Keys.afterAll, Keys.after, keysOf, Holds, timers.1, timers.2]
      exact eq_comm
    · intro k
      cases k <;> simp [Keys.afterAll, Keys.after, keysOf, Watches, timers.1]
  have whole := leads_append closing opening
  simpa only [setupOps, piped, enough, if_pos free, Bool.not_true, Bool.false_eq_true, ↓reduceIte]
    using whole

theorem exit_leads {answer : ExitAnswer} (done : handleChildExit answer s = .ok t) :
    Leads fixed s (exitOps answer s) t := by
  obtain ⟨r, u, v, looped, requested, restarted⟩ := handle_child_exit_ok done
  have reaped : u.timeouts = s.timeouts ∧ u.safeModePipeFd = s.safeModePipeFd :=
    (reap_loop_rule (fun _ _ u => u.timeouts = s.timeouts ∧ u.safeModePipeFd = s.safeModePipeFd)
      (fun _ _ _ _ _ _ held done => by
        obtain ⟨_, _, _, rfl, _⟩ := reap_one_frame done
        exact held) ⟨rfl, rfl⟩ looped).1
  have asked : v.timeouts = u.timeouts ∧ v.safeModePipeFd = u.safeModePipeFd := by
    rcases request_safe_mode_cases requested with ⟨_, rfl⟩ | ⟨_, _, _, _, _, _, rfl⟩
    · exact ⟨rfl, rfl⟩
    · exact ⟨rfl, rfl⟩
  simp only [exitOps, looped, requested]
  unfold restartPlaceholder at restarted
  split at restarted
  · rename_i restart
    simp only [restart, ↓reduceIte]
    dsimp only at restarted
    split at restarted
    · rename_i made
      obtain rfl := Except.ok.inj restarted
      have placed : Leads fixed v (setupOps answer.setup v) _ := setup_leads (Prod.ext made rfl)
      exact leads_from placed (asked.1.trans reaped.1) (asked.2.trans reaped.2)
    · simp at restarted
  · rename_i keep
    obtain rfl := Except.ok.inj restarted
    simp only [keep, Bool.false_eq_true, ↓reduceIte]
    exact leads_same (asked.1.trans reaped.1) (asked.2.trans reaped.2)

theorem command_leads (held : Handled s) (answer : TimerAnswer) (command : RebootCommand) :
    Leads fixed s (commandOps answer s) (handleShutdownCmd answer command s) := by
  let noted : State := { s with
    remaining := []
    pendingFinish := 0
    kernel := s.kernel.note (.shutdownCommand command) }
  have entering : Handled noted := reprocessed_handled held ⟨_, _, _, _, _, _, rfl⟩
  have cancelled : Leads fixed s (cancelOps s.oneShotTimeout) (cancelOneShotTimeout noted) :=
    leads_from (cancel_one_shot_leads entering) rfl rfl
  obtain ⟨apart, _, _, count⟩ := cancel_one_shot_timers entering.apart
  let signalled : State := { cancelOneShotTimeout noted with
    currentStage := .termination
    kernel := signalAll .sigterm (cancelOneShotTimeout noted).runningProcesses
      (cancelOneShotTimeout noted).kernel }
  have added : Leads fixed signalled (addOps answer signalled.timeoutCount)
      (mainloopAddTimeout answer timeoutTerm .killTimeoutCb signalled).2 :=
    add_leads (s := signalled) apart.below answer timeoutTerm .killTimeoutCb
  rw [show signalled.timeoutCount = s.timeoutCount from count] at added
  exact leads_append cancelled (leads_to (leads_from added rfl rfl) rfl rfl)

theorem find_timeout_mem {id : Nat} {m : MainloopTimeout} (found : findTimeout id s = some m) :
    m ∈ s.timeouts ∧ m.id = id :=
  ⟨List.mem_of_find?_eq_some found, by simpa using List.find?_some found⟩

theorem expire_leads {id : Nat} {m : MainloopTimeout} (found : findTimeout id s = some m) :
    Leads fixed s (expireOps id s) (expire m s) := by
  have registered : m.id ∈ s.timeouts.map MainloopTimeout.id :=
    List.mem_map_of_mem (find_timeout_mem found).1
  simp only [expireOps, found]
  rcases expire_shapes m s with ⟨called, shape⟩ | ⟨called, k, shape⟩ | ⟨called, shape⟩
  · rw [shape]
    simp only [called, runTimeout, oneShotTimeoutCb, ne_eq, reduceCtorEq, not_false_eq_true,
      ↓reduceIte]
    exact leads_to (remove_leads registered) rfl rfl
  · rw [shape]
    simp only [called, runTimeout, killTimeoutCb, ne_eq, reduceCtorEq, not_false_eq_true,
      ↓reduceIte]
    exact leads_to (remove_leads registered) rfl rfl
  · rw [shape]
    simp only [called, runTimeout, ne_eq, not_true_eq_false, ↓reduceIte]
    exact leads_same rfl rfl

theorem starting_ops {answer : StartAnswer} (settled : s.pendingFinish = 0)
    (starting : s.currentStage = .startup ∨ s.currentStage = .shutdown) :
    maintenanceOps answer s =
      cancelOps s.oneShotTimeout ++ startOps answer s.remaining (cancelOneShotTimeout s) := by
  rcases starting with stage | stage <;> simp [maintenanceOps, stage, settled]

theorem advance_leads {answer : StartAnswer} (held : Handled s)
    (done : advanceStage answer s = .ok t) : Leads fixed s (maintenanceOps answer s) t := by
  obtain ⟨cancelled, _⟩ := cancel_one_shot_handled held
  have cancelling : Leads fixed s (cancelOps s.oneShotTimeout) (cancelOneShotTimeout s) :=
    cancel_one_shot_leads held
  cases advance_stage_moves done with
  | resting stage =>
    have none : maintenanceOps answer s = [] := by
      rcases stage with stage | stage | stage <;> simp [maintenanceOps, stage]
    rw [none]
    exact leads_same rfl rfl
  | pending starting pending =>
    have none : maintenanceOps answer s = [] := by
      rcases starting with stage | stage <;> simp [maintenanceOps, stage, pending]
    rw [none]
    exact leads_same rfl rfl
  | continued starting settled _ started =>
    rw [starting_ops settled starting]
    exact leads_append cancelling (start_leads cancelled started)
  | toRun starting settled exhausted =>
    rw [starting_ops settled (Or.inl starting), exhausted, startOps, List.append_nil]
    exact leads_to cancelling rfl rfl
  | toClose starting settled exhausted =>
    rw [starting_ops settled (Or.inr starting), exhausted, startOps, List.append_nil]
    exact leads_to cancelling rfl rfl
  | waiting ending many =>
    have none : maintenanceOps answer s = [] := by simp [maintenanceOps, ending, many]
    rw [none]
    exact leads_same rfl rfl
  | @toShutdown ending few _ _ u started =>
    have entered := handled_restaged held .shutdown (by simp)
    have first : Leads fixed s (startOps answer s.table.shutdownList
        { s with currentStage := .shutdown }) u :=
      leads_from (start_leads entered started) rfl rfl
    have kept := start_processes_handled entered (held.ended ending) (by simp) started
    have same : u.killTimeout = s.killTimeout := (start_processes_keeps started).2
    have second : Leads fixed u (cancelOps u.killTimeout) (cancelKillTimeout u) :=
      cancel_kill_leads kept
    rw [same] at second
    have whole := leads_append first second
    simpa only [maintenanceOps, ending, few, ↓reduceIte] using whole
  | straightToClose ending few empty =>
    have closing : Leads fixed s (cancelOps s.killTimeout)
        (cancelKillTimeout { s with currentStage := .close }) :=
      leads_from (cancel_kill_leads (handled_restaged held .close (by simp))) rfl rfl
    simpa only [maintenanceOps, ending, few, empty, startOps, List.nil_append, ↓reduceIte]
      using closing

theorem signal_leads (held : Handled s) {answer : SignalAnswer}
    (done : signalHandler answer s = .ok t) : Leads fixed s (signalOps answer s) t := by
  unfold signalHandler at done
  unfold signalOps
  cases signo : answer.signo with
  | sigchld =>
    simp only [signo] at done ⊢
    exact exit_leads done
  | sigterm =>
    simp only [signo, Except.ok.injEq] at done ⊢
    exact done ▸ command_leads held answer.timer .autoboot
  | sigusr1 =>
    simp only [signo, Except.ok.injEq] at done ⊢
    exact done ▸ command_leads held answer.timer .haltSystem
  | sigusr2 =>
    simp only [signo, Except.ok.injEq] at done ⊢
    exact done ▸ command_leads held answer.timer .powerOff
  | other =>
    simp only [signo, Except.ok.injEq] at done ⊢
    exact leads_same (by rw [done]) (by rw [done])

theorem dispatch_leads (held : Handled s) {ref : HandlerRef} {rest : List HandlerRef}
    {answer : ReadAnswer} (called : dispatch ref answer s = some (.ok t)) :
    Leads fixed s (stepOps ⟨s, .events (ref :: rest)⟩ (.dispatch answer)) t := by
  cases ref with
  | signal =>
    cases answer with
    | failed => simp [dispatch, dispatchSignal] at called
    | expired => simp [dispatch, dispatchSignal] at called
    | siginfo answer =>
      simp only [dispatch, dispatchSignal, Option.ite_none_right_eq_some,
        Option.some.injEq] at called
      exact signal_leads held called.2
  | timeout id =>
    simp only [dispatch, dispatchTimeout] at called
    split at called
    · simp at called
    · rename_i m found
      cases answer with
      | failed => simp at called
      | siginfo _ => simp at called
      | expired =>
        simp only [Option.some.injEq, Except.ok.injEq] at called
        exact called ▸ expire_leads found

theorem post_leads (held : Handled s) {queue : List HandlerRef} {answer : StartAnswer}
    (done : runPostCallback answer s = .ok t) :
    Leads fixed s (stepOps ⟨s, .post queue⟩ (.postIteration answer)) t := by
  simp only [stepOps]
  rcases run_post_callback_cases done with ⟨unset, same⟩ | ⟨callback, maintained⟩
  · obtain rfl := Except.ok.inj same
    rw [if_pos unset]
    exact leads_same rfl rfl
  · rw [if_neg callback]
    obtain ⟨u, advanced, ⟨_, rfl⟩ | ⟨_, rfl⟩⟩ := stage_maintenance_cases maintained
    · exact advance_leads held advanced
    · exact leads_to (advance_leads held advanced) rfl rfl

theorem settle_intact {next : State → Control} {outcome : Outcome State}
    (intact : (settle next outcome).control.intact) :
    ∃ t, outcome = .ok t ∧ (settle next outcome).state = t := by
  cases outcome with
  | ok t => exact ⟨t, rfl, rfl⟩
  | error stop => exact absurd rfl (intact stop.halt)

theorem step_leads {sys next : System} {event : Event} (held : Handled sys.state)
    (stepped : MainLoop.step sys event = some next) (intact : next.control.intact) :
    Leads fixed sys.state (stepOps sys event) next.state := by
  cases MainLoop.step_cases stepped with
  | @env _ move _ running moved =>
    have none : stepOps sys (.env move) = [] := by
      unfold stepOps
      split <;> simp_all
    rw [none]
    exact leads_same rfl rfl
  | ready _ => exact leads_same rfl rfl
  | eintr _ => exact leads_same rfl rfl
  | failed _ => exact leads_same rfl rfl
  | dispatched called =>
    obtain ⟨t, rfl, same⟩ := settle_intact intact
    rw [same]
    exact dispatch_leads held called
  | posted s queue answer =>
    obtain ⟨t, done, same⟩ := settle_intact intact
    rw [same]
    exact post_leads held done

theorem trace_leads {first sys : System} {trace : List (System × Event)}
    (run : Run MainLoop.step first trace sys) (held : Handled first.state)
    (intact : sys.control.intact) :
    Leads fixed first.state (traceOps trace) sys.state ∧ Handled sys.state := by
  induction run with
  | start => exact ⟨leads_same rfl rfl, held⟩
  | next before now ih =>
    obtain ⟨reached, kept⟩ := ih (step_from_intact now)
    exact ⟨leads_append reached (step_leads kept now intact),
      state_step_handled kept (step_state now intact)⟩

end Leading

section Boot
variable {fixed : Set Fixed} {table : BootTable}

def startKeys (fixed : Set Fixed) : Keys Key := ⟨{k | ∃ which ∈ fixed, k = .fixed which}, ∅⟩

theorem file_reaches {keys : Keys Key} (free : Key.file ∉ keys.held)
    (quiet : Key.file ∉ keys.watched) : keys.Reaches fileOps keys := by
  refine ⟨⟨free, ⟨Set.mem_insert _ _, quiet⟩, trivial⟩, keys_ext ?_ (fun _ => Iff.rfl)⟩
  intro k
  simp only [fileOps, Keys.afterAll, List.foldl_cons, List.foldl_nil, Keys.after, Set.mem_sdiff,
    Set.mem_insert_iff, Set.mem_singleton_iff]
  constructor
  · rintro ⟨rfl | held, other⟩
    · exact absurd rfl other
    · exact held
  · intro held
    refine ⟨Or.inr held, ?_⟩
    rintro rfl
    exact free held

theorem loop_owned {o : Owners Key} (start : Owned o (startKeys fixed)) (epoll : .epoll ∉ fixed)
    (signal : .signal ∉ fixed) :
    Owned (loopOwners o) (startKeys (insert .signal (insert .epoll fixed))) := by
  have first := (owned_acquired start (k := .fixed .epoll) (by simp [startKeys, epoll])).2
  have second := (owned_acquired first (k := .fixed .signal)
    (by simp [startKeys, Keys.after, signal])).2
  have same : ((startKeys fixed).after (.acquire (.fixed .epoll))).after
      (.acquire (.fixed .signal)) = startKeys (insert .signal (insert .epoll fixed)) := by
    refine keys_ext ?_ (fun _ => Iff.rfl)
    intro k
    simp only [Keys.after, startKeys, Set.mem_insert_iff, Set.mem_ofPred_eq]
    constructor
    · rintro (rfl | rfl | ⟨which, member, rfl⟩)
      · exact ⟨.signal, Or.inl rfl, rfl⟩
      · exact ⟨.epoll, Or.inr (Or.inl rfl), rfl⟩
      · exact ⟨which, Or.inr (Or.inr member), rfl⟩
    · rintro ⟨which, rfl | rfl | member, rfl⟩
      · exact Or.inl rfl
      · exact Or.inr (Or.inl rfl)
      · exact Or.inr (Or.inr ⟨which, member, rfl⟩)
  rw [same] at second
  exact second

theorem watch_reaches (table : BootTable) (signal : .signal ∈ fixed) :
    (startKeys fixed).Reaches [.watch (.fixed .signal)] (keysOf fixed (State.initial table)) := by
  refine ⟨⟨⟨⟨_, signal, rfl⟩, by simp [startKeys]⟩, trivial⟩, keys_ext ?_ ?_⟩
  · intro k
    cases k <;> simp [Keys.afterAll, Keys.after, startKeys, keysOf, Holds, State.initial]
  · intro k
    cases k <;> simp [Keys.afterAll, Keys.after, startKeys, keysOf, Watches, State.initial]

theorem keys_insert_fixed (which : Fixed) (s : State) :
    (keysOf fixed s).with (.fixed which) = keysOf (insert which fixed) s := by
  refine keys_ext ?_ (fun _ => Iff.rfl)
  intro k
  cases k <;> simp [Keys.with, keysOf, Holds]

theorem drop_fixed (which : Fixed) (quiet : which ≠ .signal) (unheld : which ∉ fixed) (s : State) :
    (keysOf (insert which fixed) s).Reaches [.drop (.fixed which)] (keysOf fixed s) := by
  refine ⟨⟨⟨by simp [keysOf, Holds], by simpa [keysOf, Watches] using quiet⟩, trivial⟩,
    keys_ext ?_ (fun _ => Iff.rfl)⟩
  intro k
  cases k <;> simp [Keys.afterAll, Keys.after, keysOf, Holds]
  rename_i other
  constructor
  · rintro ⟨rfl | member, apart⟩
    · exact absurd rfl apart
    · exact member
  · intro member
    refine ⟨Or.inr member, ?_⟩
    rintro rfl
    exact unheld member

theorem acquire_fixed (which : Fixed) (unheld : which ∉ fixed) (s : State) :
    (keysOf fixed s).Reaches [.acquire (.fixed which)] (keysOf (insert which fixed) s) :=
  ⟨⟨unheld, trivial⟩, keys_insert_fixed which s⟩

theorem watchdog_reaches (opened : Bool) (watchdog : Option (Nat × TimerAnswer))
    (table : BootTable) (unheld : .watchdog ∉ fixed) :
    ∃ kept, (kept = fixed ∨ kept = insert .watchdog fixed) ∧
      (keysOf fixed (State.initial table)).Reaches (watchdogOps opened watchdog)
        (keysOf kept (startWatchdog watchdog (State.initial table))) := by
  have opening := acquire_fixed .watchdog unheld (State.initial table)
  cases watchdog with
  | none =>
    refine ⟨fixed, Or.inl rfl, ?_⟩
    cases opened with
    | false => exact reaches_nil _
    | true => exact reaches_append opening (drop_fixed .watchdog (by decide) unheld _)
  | some given =>
    obtain ⟨msec, answer⟩ := given
    have adding : Leads (insert .watchdog fixed) (State.initial table) (addOps answer 0)
        (startWatchdog (some (msec, answer)) (State.initial table)) :=
      add_leads (s := State.initial table) (by simp [State.initial]) answer msec .watchdogFeed
    have both := reaches_append opening adding
    cases registered : answer.calloc && answer.timerfdCreate && answer.epollCtl with
    | true =>
      refine ⟨insert .watchdog fixed, Or.inr rfl, ?_⟩
      simpa [watchdogOps, registered] using both
    | false =>
      refine ⟨fixed, Or.inl rfl, ?_⟩
      have closing := drop_fixed .watchdog (by decide) unheld
        (startWatchdog (some (msec, answer)) (State.initial table))
      have whole := reaches_append both closing
      simpa [watchdogOps, registered] using whole

end Boot

theorem boot_made {table : BootTable} {answer : BootAnswer} {sys : System}
    (booted : boot table answer = some sys) (intact : sys.control.intact) :
    ∃ s t u result, s = startWatchdog answer.watchdog (State.initial table) ∧
      setupSafeMode answer.setup table.safeModeEntry s = (true, t) ∧
      startProcesses answer.start table.startupList { t with currentStage := .startup } =
        .ok (result, u) ∧ sys.state = { u with shouldExit := false } := by
  unfold boot at booted
  generalize made : setupSafeMode answer.setup table.safeModeEntry
    (startWatchdog answer.watchdog (State.initial table)) = outcome at booted
  obtain ⟨ready, t⟩ := outcome
  dsimp only at booted
  split at booted
  · rename_i yes
    subst yes
    split at booted
    · rename_i stop _
      obtain rfl := Option.some.inj booted
      exact absurd rfl (intact stop.halt)
    · rename_i result u started
      obtain rfl := Option.some.inj booted
      exact ⟨_, t, u, result, rfl, made, started, rfl⟩
  · simp at booted

theorem boot_reaches {fixed : Set Fixed} {table : BootTable} {answer : BootAnswer} {sys : System}
    (booted : boot table answer = some sys) (intact : sys.control.intact) (opened : Bool)
    (signal : .signal ∈ fixed) (unheld : .watchdog ∉ fixed) :
    ∃ kept, (kept = fixed ∨ kept = insert .watchdog fixed) ∧
      (startKeys fixed).Reaches (bootOps table opened answer) (keysOf kept sys.state) := by
  obtain ⟨s, t, u, result, rfl, made, started, last⟩ := boot_made booted intact
  obtain ⟨kept, which, watched⟩ := watchdog_reaches opened answer.watchdog table unheld
  refine ⟨kept, which, ?_⟩
  have ready := (start_watchdog_handled answer.watchdog table).1
  have worked : Reprocessed (startWatchdog answer.watchdog (State.initial table)) t := by
    obtain ⟨pid, _, rfl⟩ := setup_safe_mode_made made
    exact placed_reprocessed _ _ pid
  have entered := handled_restaged (reprocessed_handled ready worked) .startup (by simp)
  have file : (keysOf kept (startWatchdog answer.watchdog (State.initial table))).Reaches fileOps
      (keysOf kept (startWatchdog answer.watchdog (State.initial table))) :=
    file_reaches (by simp [keysOf, Holds]) (by simp [keysOf, Watches])
  have placed : Leads kept (startWatchdog answer.watchdog (State.initial table))
      (setupOps answer.setup (startWatchdog answer.watchdog (State.initial table)))
      { t with currentStage := .startup } :=
    leads_to (setup_leads made) rfl rfl
  have starting : Leads kept { t with currentStage := .startup } (startOps answer.start
      table.startupList { t with currentStage := .startup }) sys.state :=
    leads_to (start_leads entered started) (by rw [last]) (by rw [last])
  have whole := reaches_append (reaches_append (reaches_append
    (reaches_append (watch_reaches table signal) watched) file) placed) starting
  simpa only [bootOps, made] using whole

def lasting : Key → Prop
  | .fixed which => which ≠ .watchdog
  | _ => False

/-- The calls that occur: of the lasting variables none is closed, the log is left
    to the messages, and a write end is opened together with its read end. -/
def ordinary : Op Key → Bool
  | .acquire (.fixed which) => which = .watchdog
  | .acquire (.writeEnd _) => false
  | .acquire _ => true
  | .pair (.readEnd _) (.writeEnd _) => true
  | .pair _ _ => false
  | .drop (.fixed which) => which = .watchdog
  | .drop _ => true
  | .watch (.fixed which) => which = .signal
  | .watch _ => true
  | .unwatch (.fixed _) => false
  | .unwatch _ => true

section Ordinary
variable {op : Op Key}

theorem ordinary_keeps (plain : ordinary op = true) : ∀ k, lasting k → op ≠ .drop k := by
  rintro k lasts rfl
  cases k <;> simp_all [ordinary, lasting]

theorem ordinary_silent (plain : ordinary op = true) : ¬ op.Mentions (.fixed .log) := by
  cases op with
  | pair i j => cases i <;> cases j <;> simp_all [ordinary, Op.Mentions]
  | _ k => cases k <;> simp_all [ordinary, Op.Mentions]

theorem ordinary_second (plain : ordinary op = true) (q : Nat) :
    op ≠ .acquire (.writeEnd q) ∧ ∀ j, op ≠ .pair (.writeEnd q) j := by
  constructor
  · rintro rfl
    simp [ordinary] at plain
  · rintro j rfl
    cases j <;> simp [ordinary] at plain

theorem add_ordinary (answer : TimerAnswer) (id : Nat) : (addOps answer id).all ordinary = true := by
  unfold addOps
  split
  · rfl
  · split
    · rfl
    · split
      · rfl
      · rfl

theorem cancel_ordinary (handle : Option Nat) : (cancelOps handle).all ordinary = true := by
  cases handle <;> rfl

theorem setup_ordinary (answer : SetupAnswer) (s : State) :
    (setupOps answer s).all ordinary = true := by
  simp only [setupOps, List.all_append, Bool.and_eq_true]
  constructor
  · split <;> rfl
  · split
    · rfl
    · split
      · rfl
      · split
        · rfl
        · rfl

theorem start_ordinary (answer : StartAnswer) (list : List InittabEntry) (s : State) :
    (startOps answer list s).all ordinary = true := by
  unfold startOps
  split
  · rfl
  · split
    · rfl
    · split
      · exact add_ordinary _ _
      · rfl

theorem exit_ordinary (answer : ExitAnswer) (s : State) :
    (exitOps answer s).all ordinary = true := by
  unfold exitOps
  split
  · rfl
  · split
    · rfl
    · split
      · exact setup_ordinary _ _
      · rfl

theorem command_ordinary (answer : TimerAnswer) (s : State) :
    (commandOps answer s).all ordinary = true := by
  rw [commandOps, List.all_append, cancel_ordinary, add_ordinary, Bool.and_self]

theorem signal_ordinary (answer : SignalAnswer) (s : State) :
    (signalOps answer s).all ordinary = true := by
  unfold signalOps
  split
  · exact exit_ordinary _ _
  · exact command_ordinary _ _
  · exact command_ordinary _ _
  · exact command_ordinary _ _
  · rfl

theorem expire_ordinary (id : Nat) (s : State) : (expireOps id s).all ordinary = true := by
  unfold expireOps
  split
  · rfl
  · split
    · rfl
    · rfl

theorem maintenance_ordinary (answer : StartAnswer) (s : State) :
    (maintenanceOps answer s).all ordinary = true := by
  have starting : (if s.pendingFinish = 0 then cancelOps s.oneShotTimeout ++
      startOps answer s.remaining (cancelOneShotTimeout s) else []).all ordinary = true := by
    split
    · rw [List.all_append, cancel_ordinary, start_ordinary, Bool.and_self]
    · rfl
  unfold maintenanceOps
  split
  · exact starting
  · exact starting
  · split
    · rw [List.all_append, start_ordinary, cancel_ordinary, Bool.and_self]
    · rfl
  all_goals rfl

theorem step_ordinary (sys : System) (event : Event) : (stepOps sys event).all ordinary = true := by
  unfold stepOps
  split
  · exact signal_ordinary _ _
  · exact expire_ordinary _ _
  · split
    · rfl
    · exact maintenance_ordinary _ _
  · rfl

theorem trace_ordinary (trace : List (System × Event)) : (traceOps trace).all ordinary = true := by
  induction trace with
  | nil => rfl
  | cons last earlier ih =>
    obtain ⟨sys, event⟩ := last
    rw [traceOps, List.all_append, ih, step_ordinary, Bool.and_self]

theorem boot_ordinary (table : BootTable) (opened : Bool) (answer : BootAnswer) :
    (bootOps table opened answer).all ordinary = true := by
  have watchdog : (watchdogOps opened answer.watchdog).all ordinary = true := by
    unfold watchdogOps
    split
    · split <;> rfl
    · rw [List.all_append, List.all_cons, add_ordinary]
      split <;> rfl
  simp only [bootOps, List.all_append, watchdog, setup_ordinary, start_ordinary, Bool.and_true]
  rfl

end Ordinary

structure Sound (o : Owners Key) : Prop where
  sealed : SealedAbove 2 o
  anchored : Anchored lasting 2 o
  zero : Lasting lasting o 0
  writes : ∀ k n, (∃ q, k = .writeEnd q) → o.vars k = some n → 2 < n

theorem step_sound {o o' : Owners Key} {op : Op Key} (sound : Sound o) (plain : ordinary op = true)
    (stepped : DescriptorOwners.step o op = some o') : Sound o' where
  sealed := step_sealed stepped sound.sealed
  anchored := step_anchored stepped (ordinary_keeps plain) sound.anchored
  zero := step_lasting stepped (ordinary_keeps plain) sound.zero
  writes := by
    refine step_seconds stepped sound.anchored ?_ sound.writes
    rintro k ⟨q, rfl⟩
    exact ordinary_second plain q

theorem log_sound {o o' : Owners Key} (sound : Sound o)
    (stepped : DescriptorOwners.step o (.acquire (.fixed .log)) = some o') : Sound o' where
  sealed := step_sealed stepped sound.sealed
  anchored := step_anchored stepped (by simp) sound.anchored
  zero := step_lasting stepped (by simp) sound.zero
  writes := by
    refine step_seconds stepped sound.anchored ?_ sound.writes
    rintro k ⟨q, rfl⟩
    simp

theorem call_sound {o o' : Owners Key} {call : Call} (sound : Sound o)
    (plain : ∀ op ∈ opOf call, ordinary op = true) (called : callStep o call = some o') :
    Sound o' := by
  cases call with
  | op op => exact step_sound sound (plain op rfl) called
  | logMessage openLog =>
    simp only [callStep] at called
    split at called
    · exact log_sound sound called
    · exact Option.some.inj called ▸ sound

theorem calls_sound {calls : List Call} {o o' : Owners Key} (sound : Sound o)
    (plain : (calls.filterMap opOf).all ordinary = true)
    (followed : followCalls o calls = some o') : Sound o' := by
  induction calls generalizing o with
  | nil => exact Option.some.inj followed ▸ sound
  | cons call calls ih =>
    simp only [followCalls, Option.bind_eq_some_iff] at followed
    obtain ⟨o1, called, later⟩ := followed
    simp only [List.all_eq_true, List.mem_filterMap] at plain
    refine ih (call_sound sound ?_ called) ?_ later
    · intro op here
      exact plain op ⟨call, List.mem_cons_self, here⟩
    · simp only [List.all_eq_true, List.mem_filterMap]
      rintro op ⟨other, member, here⟩
      exact plain op ⟨other, List.mem_cons_of_mem _ member, here⟩

theorem loop_sound {fixed : Set Fixed} {o : Owners Key} (start : Owned o (startKeys fixed))
    (closed : SealedAbove 2 o) (unheld : .watchdog ∉ fixed) : Sound (loopOwners o) := by
  have all : ∀ k ∈ (startKeys fixed).held, lasting k := by
    rintro k ⟨which, member, rfl⟩ rfl
    exact unheld member
  obtain ⟨anchored, zero⟩ := two_anchor start all
    (show lasting (.fixed .epoll) ∧ lasting (.fixed .signal) by simp [lasting])
  refine ⟨acquired_sealed (acquired_sealed closed _) _, anchored, zero, ?_⟩
  rintro k n ⟨q, rfl⟩ here
  have none : o.vars (.writeEnd q) = none := owned_unheld start (by simp [startKeys])
  simp [loopOwners, acquired, none] at here

theorem calls_follow {calls : List Call} {ops : List (Op Key)} {o : Owners Key} {keys : Keys Key}
    (made : calls.filterMap opOf = ops) (owned : Owned o keys) (allowed : keys.AllowsAll ops)
    (plain : ops.all ordinary = true) :
    ∃ o', followCalls o calls = some o' ∧
      (Owned o' (keys.afterAll ops) ∨ Owned o' ((keys.afterAll ops).with (.fixed .log))) := by
  induction calls generalizing o keys ops with
  | nil =>
    obtain rfl : ops = [] := made.symm
    exact ⟨o, rfl, Or.inl owned⟩
  | cons call calls ih =>
    cases call with
    | op op =>
      obtain rfl : ops = op :: calls.filterMap opOf := made.symm
      obtain ⟨o1, stepped, kept⟩ := step_owned owned allowed.1
      simp only [List.all_cons, Bool.and_eq_true] at plain
      obtain ⟨o2, followed, last⟩ := ih rfl kept allowed.2 plain.2
      exact ⟨o2, by simp [followCalls, callStep, stepped, followed], last⟩
    | logMessage openLog =>
      replace made : calls.filterMap opOf = ops := made
      by_cases opens : openLog = true ∧ o.vars (.fixed .log) = none
      · have fresh : Key.fixed .log ∉ keys.held := by
          rw [owned.held, opens.2]
          simp
        obtain ⟨stepped, kept⟩ := owned_acquired owned fresh
        have silent : ∀ op ∈ ops, ¬ op.Mentions (.fixed .log) :=
          fun op member => ordinary_silent (List.all_eq_true.mp plain op member)
        obtain ⟨allows, after⟩ := @all_with Key keys ops (.fixed .log) silent
        obtain ⟨o2, followed, last⟩ := ih made kept (allows.mpr allowed) plain
        refine ⟨o2, by simp [followCalls, callStep, opens, stepped, followed], Or.inr ?_⟩
        have idle : (keys.after (.acquire (.fixed .log))).afterAll ops =
            (keys.afterAll ops).with (.fixed .log) := after
        rw [idle] at last
        rcases last with one | two
        · exact one
        · simpa [Keys.with] using two
      · obtain ⟨o2, followed, last⟩ := ih made owned allowed plain
        exact ⟨o2, by simp [followCalls, callStep, opens, followed], last⟩

def Inherits (fixed : Set Fixed) : Prop := ∀ which ∈ fixed, which = .log ∨ ∃ n, which = .inherited n

theorem run_first_intact {first sys : System} {trace : List (System × Event)}
    (run : Run MainLoop.step first trace sys) (intact : sys.control.intact) :
    first.control.intact := by
  induction run with
  | start => exact intact
  | next _ now ih => exact ih (step_from_intact now)

theorem run_reaches {table : BootTable} {answer : BootAnswer} {first sys : System}
    {trace : List (System × Event)} (booted : boot table answer = some first)
    (run : Run MainLoop.step first trace sys) (intact : sys.control.intact) (fixed : Set Fixed)
    (opened : Bool) (signal : .signal ∈ fixed) (unheld : .watchdog ∉ fixed) :
    ∃ kept, (kept = fixed ∨ kept = insert .watchdog fixed) ∧
      (startKeys fixed).Reaches (bootOps table opened answer ++ traceOps trace)
        (keysOf kept sys.state) := by
  have early := run_first_intact run intact
  obtain ⟨kept, which, reached⟩ := boot_reaches booted early opened signal unheld
  exact ⟨kept, which, reaches_append reached (trace_leads run (boot_handled booted early) intact).1⟩

theorem run_ordinary (table : BootTable) (opened : Bool) (answer : BootAnswer)
    (trace : List (System × Event)) :
    (bootOps table opened answer ++ traceOps trace).all ordinary = true := by
  rw [List.all_append, boot_ordinary, trace_ordinary, Bool.and_self]

theorem inherits_unheld {fixed : Set Fixed} (inherits : Inherits fixed) :
    .epoll ∉ fixed ∧ .signal ∉ fixed ∧ .watchdog ∉ fixed := by
  refine ⟨fun member => ?_, fun member => ?_, fun member => ?_⟩
  all_goals simpa using inherits _ member

section Following
variable {table : BootTable} {answer : BootAnswer} {first sys : System}
variable {trace : List (System × Event)} {o : Owners Key} {fixed : Set Fixed} {opened : Bool}
variable {calls : List Call}

theorem run_calls_follow (booted : boot table answer = some first)
    (run : Run MainLoop.step first trace sys) (intact : sys.control.intact)
    (start : Owned o (startKeys fixed)) (inherits : Inherits fixed)
    (made : calls.filterMap opOf = bootOps table opened answer ++ traceOps trace) :
    ∃ o' kept, followCalls (loopOwners o) calls = some o' ∧ Owned o' (keysOf kept sys.state) ∧
      insert .signal (insert .epoll fixed) ⊆ kept ∧
      kept ⊆ fixed ∪ {.log, .epoll, .signal, .watchdog} := by
  obtain ⟨epoll, signal, watchdog⟩ := inherits_unheld inherits
  obtain ⟨kept, which, allowed, reached⟩ := run_reaches booted run intact
    (insert .signal (insert .epoll fixed)) opened (Set.mem_insert _ _) (by simpa using watchdog)
  obtain ⟨o', followed, last⟩ := calls_follow made (loop_owned start epoll signal) allowed
    (run_ordinary table opened answer trace)
  have inside : insert .signal (insert .epoll fixed) ⊆ kept ∧
      kept ⊆ fixed ∪ {.log, .epoll, .signal, .watchdog} := by
    rcases which with rfl | rfl
    · refine ⟨subset_rfl, ?_⟩
      rintro x (rfl | rfl | member) <;> simp [*]
    · refine ⟨Set.subset_insert _ _, ?_⟩
      rintro x (rfl | rfl | rfl | member) <;> simp [*]
  rw [reached, keys_insert_fixed] at last
  rcases last with exact | withLog
  · exact ⟨o', kept, followed, exact, inside⟩
  · exact ⟨o', insert .log kept, followed, withLog, inside.1.trans (Set.subset_insert _ _),
      Set.insert_subset (by simp) inside.2⟩

theorem run_calls_sound (start : Owned o (startKeys fixed)) (inherits : Inherits fixed)
    (closed : SealedAbove 2 o)
    (made : calls.filterMap opOf = bootOps table opened answer ++ traceOps trace)
    {before : List Call} (part : before <+: calls) {o' : Owners Key}
    (followed : followCalls (loopOwners o) before = some o') : Sound o' := by
  obtain ⟨rest, rfl⟩ := part
  refine calls_sound (loop_sound start closed (inherits_unheld inherits).2.2) ?_ followed
  have plain := run_ordinary table opened answer trace
  rw [← made, List.filterMap_append, List.all_append, Bool.and_eq_true] at plain
  exact plain.1

/-- The whole descriptor table of init until its main loop is left, with any
    messages logged in between: no call closes or watches something it should not,
    and what is open is what the state of the run says. -/
theorem init_descriptors_exact (booted : boot table answer = some first)
    (run : Run MainLoop.step first trace sys) (intact : sys.control.intact)
    (start : Owned o (startKeys fixed)) (inherits : Inherits fixed) (closed : SealedAbove 2 o)
    (made : calls.filterMap opOf = bootOps table opened answer ++ traceOps trace) :
    ∃ o' kept, followCalls (loopOwners o) calls = some o' ∧
      Owned o' (keysOf kept sys.state) ∧
      insert .signal (insert .epoll fixed) ⊆ kept ∧
      kept ⊆ fixed ∪ {.log, .epoll, .signal, .watchdog} ∧
      SealedAbove 2 o' ∧
      (∀ q n, o'.vars (.writeEnd q) = some n → 2 < n) ∧
      ∀ n, o'.vars (.fixed .watchdog) = some n → 0 < n := by
  obtain ⟨o', kept, followed, owned, least, most⟩ :=
    run_calls_follow booted run intact start inherits made
  have sound := run_calls_sound start inherits closed made (List.prefix_refl calls) followed
  refine ⟨o', kept, followed, owned, least, most, sound.sealed,
    fun q n => sound.writes _ n ⟨q, rfl⟩, ?_⟩
  intro n here
  refine Nat.pos_of_ne_zero ?_
  rintro rfl
  exact lasting_apart owned sound.zero here rfl

end Following

def nothingOpen : Owners Key := ⟨⟨[]⟩, fun _ => none, fun _ => none⟩

theorem nothing_open_owned : Owned nothingOpen (startKeys ∅) := by
  refine ⟨?_, ?_, ?_, ?_⟩
  all_goals simp [nothingOpen, startKeys, DescriptorTable.Table.get]

theorem init_descriptors_exact_for_restart : ∃ trace sys calls o',
    InitRun sampleTable trace sys ∧ followCalls (loopOwners nothingOpen) calls = some o' ∧
    o'.vars (.writeEnd 0) = none ∧ ∃ n, o'.vars (.writeEnd 1) = some n ∧ 2 < n := by
  obtain ⟨run, rehearsed, waiting, pipe⟩ : ∃ run ∈ rehearse sampleTable sampleBoot
      (.env (.childDies 10 crashed) :: handled .signal (childSignal [(10, crashed)] 14) []),
      run.2.control = .waiting ∧ run.2.state.safeModePipeFd = some 1 := by
    decide +kernel
  obtain ⟨first, booted, steps⟩ := boot_run_of_rehearse rehearsed
  let calls := Call.logMessage true ::
    (bootOps sampleTable false sampleBoot ++ traceOps run.1).map Call.op
  have made : calls.filterMap opOf = bootOps sampleTable false sampleBoot ++ traceOps run.1 := by
    have plain : ∀ ops : List (Op Key), (ops.map Call.op).filterMap opOf = ops := by
      intro ops
      rw [List.filterMap_map]
      exact List.filterMap_some
    exact plain _
  obtain ⟨o', kept, followed, owned, _, _, _, writes, _⟩ := init_descriptors_exact booted steps
    (waiting_intact waiting) nothing_open_owned (fun _ member => absurd member (by simp))
    (by simp [SealedAbove, nothingOpen, DescriptorTable.Table.get]) made
  have gone : o'.vars (.writeEnd 0) = none :=
    owned_unheld owned (by simp [keysOf, Holds, pipe])
  obtain ⟨n, here⟩ := owned_number (k := .writeEnd 1) owned (by simp [keysOf, Holds, pipe])
  exact ⟨run.1, run.2, calls, o', ⟨sampleBoot, first, booted, steps⟩, followed, gone, n, here,
    writes 1 n here⟩

end InitDescriptors
