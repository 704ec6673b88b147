import UNit.SafeModeKeeping

/-!
Requests to the safe-mode placeholder. Every failure of a safe process ends in
panic or in a whole record that names a failed process. That a placeholder gets
one request only holds as long as no safe process fails after the first
record: safe mode being on is not looked at before the next request is made.
-/
namespace SafeModeRequests
open InittabEntries SafeModeRecord ProcessHistory EventHistory KernelModel InitState ProcessStart
  ChildExit StageControl MainLoop LabelledRuns TrackedChildren ReapedBatch SafeModeKeeping

/-- One whole record and nothing else went into the current pipe, with the name
    as far as a record holds it. -/
def RecordAdded (s s' : State) (name : List UInt8) : Prop :=
  ∃ (q : Nat) (info : SharedInfo), s'.safeModePipeFd = some q ∧
    info.processName = name.take (processNameSize - 1) ∧
    info.bytes.length = sizeofSharedInfo ∧
    (s'.kernel.pipes q).data = (s.kernel.pipes q).data ++ info.bytes

/-- The same for one record after the other, one for each name. -/
def RecordsAdded (s s' : State) (names : List (List UInt8)) : Prop :=
  ∃ (q : Nat) (infos : List SharedInfo), s'.safeModePipeFd = some q ∧
    infos.map SharedInfo.processName = names.map (List.take (processNameSize - 1)) ∧
    (∀ info ∈ infos, info.bytes.length = sizeofSharedInfo) ∧
    (s'.kernel.pipes q).data = (s.kernel.pipes q).data ++ infos.flatMap SharedInfo.bytes

/-- What a call of handle_child_exit that returns has done: it answered the
    failures of safe processes, and every child dead at its start is reaped and
    no longer tracked; only a placeholder forked by the call may reuse its pid. -/
structure ExitAnswered (results : List (Int × WaitStatus)) (s s' : State) : Prop where
  answered : Reported s.runningProcesses results true SafeKind →
    s'.safeModeOn = true ∧ ∃ name,
      Reported s.runningProcesses results true (fun e => SafeKind e ∧ e.processName = name) ∧
      RecordAdded s s' name
  reaped : ∃ later, s'.kernel.log = later ++ s.kernel.log ∧
    ∀ c ∈ s.kernel.children, ∀ status ∈ c.status, .reap c.pid status ∈ later ∧
      ∀ p ∈ s'.runningProcesses, p.pid = c.pid → ∃ q, .placeholder p.config p.pid q ∈ later

def unforkedEntry : Effect → Option InittabEntry
  | .fork entry result => if isSafeEntry entry = true ∧ ¬ 0 < result then some entry else none
  | _ => none

def unforkedSafe (log : List Effect) : List InittabEntry := (log.filterMap unforkedEntry).reverse

/-- A call of start_processes that returns has added a record for each safe entry
    it could not fork, and no other. -/
def StartAnswered (s s' : State) : Prop :=
  ∃ later, s'.kernel.log = later ++ s.kernel.log ∧
    (unforkedSafe later ≠ [] → s'.safeModeOn = true) ∧
    RecordsAdded s s' ((unforkedSafe later).map InittabEntry.processName)

theorem sent_data (k : Kernel) (q : Nat) (info : SharedInfo) :
    ((k.sent q info).pipes q).data = (k.pipes q).data ++ info.bytes := by
  simp [Kernel.sent, Kernel.note, Kernel.setPipe]

theorem requested_log (s : State) (q : Nat) (info : SharedInfo) :
    (State.requested s q info).kernel.log =
      .record q info :: .request q (s.kernel.pipes q).consumed :: s.kernel.log := rfl

theorem requested_adds_record {s t : State} {q : Nat} {name : List UInt8} (sig : Int)
    (fd : t.safeModePipeFd = some q) (pipes : t.kernel.pipes = s.kernel.pipes) :
    RecordAdded s (State.requested t q (fillSharedInfo name sig)) name := by
  refine ⟨q, fillSharedInfo name sig, fd, rfl, fill_bytes_length name sig, ?_⟩
  simp only [State.requested, sent_data, pipes]

theorem batch_removes_dead {s t : State} {answer : WaitAnswer} {r : Reaping}
    (lawful : s.kernel.WaitLawful answer) (fine : answer.last ≠ .failed)
    (batch : Batch s answer.results r t) :
    ∃ later, t.kernel.log = later ++ s.kernel.log ∧
      ∀ c ∈ s.kernel.children, ∀ status ∈ c.status, .reap c.pid status ∈ later ∧
        ∀ p ∈ t.runningProcesses, p.pid ≠ c.pid := by
  obtain ⟨later, grown, all⟩ := batch.reaps
  refine ⟨later, grown, ?_⟩
  intro c child status died
  have taken := lawful.exhaustive fine c child status died
  refine ⟨all _ taken, ?_⟩
  intro p member same
  rw [batch.running] at member
  have left := (List.mem_filter.mp member).2
  have named : p.pid ∈ answer.results.map Prod.fst := same ▸ List.mem_map_of_mem taken
  simp [unreported, named] at left

theorem handle_child_exit_answered {answer : ExitAnswer} {s s' : State} (held : Kept False s)
    (lawful : s.kernel.WaitLawful answer.wait) (done : handleChildExit answer s = .ok s') :
    ExitAnswered answer.wait.results s s' := by
  obtain ⟨r, t, _, batch, _, fine, outcome⟩ := recovery_cases held lawful.once False.elim done
  obtain ⟨later, grown, dead⟩ := batch_removes_dead lawful fine batch
  have asked := batch.flags.asked
  rcases outcome with ⟨quiet, _, _, rfl⟩ | ⟨loud, _, _, q, fd, rfl⟩ |
    ⟨quiet, _, _, _, pid, _, rfl⟩
  · constructor
    · intro failed
      simp [asked.mpr failed] at quiet
    · refine ⟨later, grown, ?_⟩
      intro c child status died
      obtain ⟨reaped, gone⟩ := dead c child status died
      exact ⟨reaped, fun p member same => absurd same (gone p member)⟩
  · constructor
    · intro _
      refine ⟨rfl, r.processName, batch.flags.named loud, ?_⟩
      exact requested_adds_record r.signal fd (by rw [batch.frame])
    · refine ⟨[.record q (fillSharedInfo r.processName r.signal),
        .request q (t.kernel.pipes q).consumed] ++ later, ?_, ?_⟩
      · rw [requested_log, grown]
        rfl
      · intro c child status died
        obtain ⟨reaped, gone⟩ := dead c child status died
        exact ⟨List.mem_append_right _ reaped, fun p member same => absurd same (gone p member)⟩
  · constructor
    · intro failed
      simp [asked.mpr failed] at quiet
    · obtain ⟨pipes, closed, _⟩ := close_previous_pipe_frame t
      rw [closed]
      refine ⟨.placeholder t.table.safeModeEntry pid t.kernel.pipeCount :: later, ?_, ?_⟩
      · simp only [State.placed, Kernel.note, Kernel.spawned, Kernel.pipe2, Kernel.setPipe, grown,
          List.cons_append]
      · intro c child status died
        obtain ⟨reaped, gone⟩ := dead c child status died
        refine ⟨List.mem_cons_of_mem _ reaped, ?_⟩
        intro p member same
        simp only [State.placed, List.mem_cons] at member
        rcases member with rfl | member
        · exact ⟨_, List.mem_cons_self⟩
        · exact absurd same (gone p member)

theorem start_safe_mode_panics {name : List UInt8} {sig : Int} {answers : List WriteAnswer}
    {s : State} {stop : Stop} (fd : s.safeModePipeFd ≠ none)
    (failed : startSafeMode name sig answers s = .error stop) :
    ∃ message, stop.halt = .panic message := by
  rcases start_safe_mode_error failed with ⟨_, panicked | ⟨missing, _⟩⟩ |
    ⟨_, _, message, _, same, _⟩
  · exact panicked
  · exact absurd missing fd
  · exact ⟨message, same⟩

theorem handle_child_exit_panics {answer : ExitAnswer} {s : State} {stop : Stop}
    (held : Kept False s) (lawful : s.kernel.WaitLawful answer.wait)
    (failed : handleChildExit answer s = .error stop) :
    ∃ message, stop.halt = .panic message := by
  rcases handle_child_exit_error failed with looped | ⟨r, t, looped, ⟨_, halted⟩ | halted⟩
  · have stopped := reap_loop_error (fun _ _ t => ListExact t)
      (fun _ _ _ _ _ _ held done => reap_one_exact held done) held.links.exact looped
    rcases stopped with ⟨w, _, r, t, exact, stopped⟩ | ⟨_, _, message, _, same⟩
    · exact (reap_one_error exact.tracked.nodup stopped).1
    · exact ⟨message, same⟩
  · have batch := (reap_loop_batch held.links.exact lawful.once looped).1
    obtain ⟨q, fd, _⟩ := (batch_links held.links batch).writable
    exact start_safe_mode_panics (by simp [fd]) halted
  · obtain ⟨_, _, same, _⟩ := halted
    exact ⟨_, same⟩

def failureRecord (entry : InittabEntry) : SharedInfo := fillSharedInfo entry.processName (-1)

structure Answering (s t : State) : Prop where
  fd : t.safeModePipeFd = s.safeModePipeFd
  answered : ∃ later, t.kernel.log = later ++ s.kernel.log ∧
    (unforkedSafe later ≠ [] → t.safeModeOn = true) ∧
    ∀ q, s.safeModePipeFd = some q → (t.kernel.pipes q).data =
      (s.kernel.pipes q).data ++ ((unforkedSafe later).map failureRecord).flatMap SharedInfo.bytes

theorem answering_start (s : State) : Answering s { s with pendingFinish := 0 } :=
  ⟨rfl, [], rfl, fun failed => absurd rfl failed, fun _ _ => (List.append_nil _).symm⟩

theorem unforked_plain {entry : InittabEntry} {result : Int} (later : List Effect)
    (plain : isSafeEntry entry = false ∨ 0 < result) :
    unforkedSafe (.fork entry result :: later) = unforkedSafe later := by
  have other : unforkedEntry (.fork entry result) = none := by
    refine if_neg ?_
    rintro ⟨safe, failed⟩
    rcases plain with unsafeEntry | positive
    · simp [unsafeEntry] at safe
    · exact failed positive
  rw [unforkedSafe, List.filterMap_cons_none other, unforkedSafe]

theorem unforked_safe {entry : InittabEntry} (later : List Effect) (q : Nat) (consumed : Bool)
    (info : SharedInfo) (safe : isSafeEntry entry = true) :
    unforkedSafe (.record q info :: .request q consumed :: .fork entry (-1) :: later) =
      unforkedSafe later ++ [entry] := by
  have some : unforkedEntry (.fork entry (-1)) = some entry := if_pos ⟨safe, by omega⟩
  rw [unforkedSafe, List.filterMap_cons_none rfl, List.filterMap_cons_none rfl,
    List.filterMap_cons_some some, List.reverse_cons, unforkedSafe]

theorem answering_plain {s t t' : State} {entry : InittabEntry} {result : Int}
    (held : Answering s t) (fd : t'.safeModePipeFd = t.safeModePipeFd)
    (on : t'.safeModeOn = t.safeModeOn) (pipes : t'.kernel.pipes = t.kernel.pipes)
    (log : t'.kernel.log = .fork entry result :: t.kernel.log)
    (plain : isSafeEntry entry = false ∨ 0 < result) : Answering s t' := by
  obtain ⟨later, logged, started, data⟩ := held.answered
  refine ⟨fd.trans held.fd, .fork entry result :: later, ?_, ?_, ?_⟩
  · rw [log, logged, List.cons_append]
  · rw [unforked_plain later plain, on]
    exact started
  · rw [unforked_plain later plain, pipes]
    exact data

theorem spawn_entry_answering {answer : SpawnAnswer} {entry : InittabEntry} {has has' : Bool}
    {s t t' : State} (held : Answering s t)
    (done : spawnEntry answer entry has t = .ok (has', t')) : Answering s t' := by
  rcases spawn_entry_cases done with ⟨pid, free, _, rfl⟩ | ⟨_, safe, q, _, fd, _, _, rfl⟩ |
    ⟨_, plain, rfl⟩
  · have positive : 0 < pid := by have := free.1; omega
    exact answering_plain held rfl rfl rfl rfl (Or.inr positive)
  · obtain ⟨later, logged, _, data⟩ := held.answered
    have current : s.safeModePipeFd = some q := held.fd.symm.trans fd
    refine ⟨held.fd, [.record q (failureRecord entry),
      .request q (t.kernel.pipes q).consumed, .fork entry (-1)] ++ later, ?_, fun _ => rfl, ?_⟩
    · rw [requested_log]
      simp only [State.notStarted, Kernel.note, logged]
      rfl
    · intro q' same
      obtain rfl : q = q' := Option.some.inj (current.symm.trans same)
      have before := data q current
      have added : ((State.requested (State.notStarted t entry) q
          (failureRecord entry)).kernel.pipes q).data =
          (t.kernel.pipes q).data ++ (failureRecord entry).bytes :=
        sent_data (State.notStarted t entry).kernel q (failureRecord entry)
      simp only [List.cons_append, List.nil_append, unforked_safe later q _ _ safe,
        List.map_append, List.map_singleton, List.flatMap_append, List.flatMap_singleton]
      rw [← List.append_assoc, ← before]
      exact added
  · exact answering_plain held rfl rfl rfl rfl (Or.inl plain)

theorem answering_answered {s t : State} (held : Answering s t) (fd : s.safeModePipeFd ≠ none) :
    StartAnswered s t := by
  obtain ⟨later, logged, started, data⟩ := held.answered
  obtain ⟨q, current⟩ := Option.ne_none_iff_exists'.mp fd
  refine ⟨later, logged, started, q, (unforkedSafe later).map failureRecord,
    held.fd.trans current, ?_, ?_, data q current⟩
  · rw [List.map_map, List.map_map]
    rfl
  · intro info member
    obtain ⟨entry, _, rfl⟩ := List.mem_map.mp member
    exact fill_bytes_length entry.processName (-1)

theorem start_processes_answered {answer : StartAnswer} {list : List InittabEntry} {s s' : State}
    {result : Bool} (fd : s.safeModePipeFd ≠ none)
    (done : startProcesses answer list s = .ok (result, s')) : StartAnswered s s' := by
  rcases start_processes_cases done with ⟨_, rfl⟩ | starts
  · exact answering_answered ⟨rfl, (answering_start s').answered⟩ fd
  · obtain ⟨_, _, _, final, kept, same⟩ := starts_rule (fun _ _ _ t => Answering s t)
      (fun _ _ _ _ _ _ _ _ held _ done => spawn_entry_answering held done)
      starts (fun _ => answering_start s)
    obtain ⟨_, _, _, _, _, rfl⟩ := same
    exact answering_answered ⟨kept.fd, kept.answered⟩ fd

theorem starts_halted_panics {answer : StartAnswer} {list : List InittabEntry} {s : State}
    {stop : Stop} (fd : s.safeModePipeFd ≠ none) (halted : StartsHalted answer list s stop) :
    ∃ message, stop.halt = .panic message := by
  obtain ⟨_, _, entry, _, t, _, held, _, _, halted⟩ := starts_halted_rule
    (fun _ _ _ t => Answering s t)
    (fun _ _ _ _ _ _ _ _ held _ done => spawn_entry_answering held done)
    halted (fun _ => answering_start s)
  have current : (State.notStarted t entry).safeModePipeFd ≠ none := held.fd ▸ fd
  exact start_safe_mode_panics current halted

/-- No failure of a safe process is lost. Wherever a run is, init has a pipe to
    a placeholder, and a reaping call ends in panic or answers the failures it
    was told; so does every call of start_processes made with such a pipe, which
    setup_safe_mode provides before the first one. -/
theorem safe_failures_answered {table : BootTable} {trace : List (System × Event)}
    {sys : System} (run : InitRun table trace sys) (intact : sys.control.intact) :
    sys.state.safeModePipeFd ≠ none ∧
    (∀ answer : ExitAnswer, sys.state.kernel.WaitLawful answer.wait →
      (∀ stop, handleChildExit answer sys.state = .error stop →
        ∃ message, stop.halt = .panic message) ∧
      ∀ s', handleChildExit answer sys.state = .ok s' →
        ExitAnswered answer.wait.results sys.state s') ∧
    (∀ answer entry s s', setupSafeMode answer entry s = (true, s') →
      s'.safeModePipeFd ≠ none) ∧
    ∀ answer list s, s.safeModePipeFd ≠ none →
      (∀ stop, startProcesses answer list s = .error stop →
        ∃ message, stop.halt = .panic message) ∧
      ∀ result s', startProcesses answer list s = .ok (result, s') → StartAnswered s s' := by
  have held : Kept False sys.state := run_kept run intact False.elim
  obtain ⟨q, fd, _⟩ := held.links.writable
  refine ⟨by simp [fd], ?_, ?_, ?_⟩
  · intro answer lawful
    exact ⟨fun stop failed => handle_child_exit_panics held lawful failed,
      fun s' done => handle_child_exit_answered held lawful done⟩
  · intro answer entry s s' made
    obtain ⟨pid, _, rfl⟩ := setup_safe_mode_made made
    simp [State.placed]
  · intro answer list s current
    exact ⟨fun stop failed => starts_halted_panics current (start_processes_error failed),
      fun result s' done => start_processes_answered current done⟩

theorem safe_failure_answered_for_service : ∃ trace sys, InitRun sampleTable trace sys ∧
    ∃ s', handleChildExit (sampleExit [(13, .exited 0), (11, crashed)]) sys.state = .ok s' ∧
      s'.safeModeOn = true ∧ RecordAdded sys.state s' [97] := by
  obtain ⟨run, rehearsed, waiting, lawful, failed, returns, named⟩ :
      ∃ run ∈ rehearse sampleTable sampleBoot
        [.env (.childDies 13 (.exited 0)), .env (.childDies 11 crashed)],
      run.2.control = .waiting ∧
      run.2.state.kernel.WaitLawful (sampleExit [(13, .exited 0), (11, crashed)]).wait ∧
      Reported run.2.state.runningProcesses [(13, .exited 0), (11, crashed)] true SafeKind ∧
      haltOf (handleChildExit (sampleExit [(13, .exited 0), (11, crashed)]) run.2.state) = none ∧
      ∀ p ∈ run.2.state.runningProcesses, p.pid = 11 → p.config.processName = [97] := by
    decide +kernel
  have reached := init_run_of_rehearse rehearsed
  obtain ⟨_, exits, _⟩ := safe_failures_answered reached (waiting_intact waiting)
  cases outcome : handleChildExit (sampleExit [(13, .exited 0), (11, crashed)]) run.2.state with
  | error stop => simp [outcome, haltOf] at returns
  | ok s' =>
    obtain ⟨on, name, who, added⟩ := ((exits _ lawful).2 s' outcome).answered failed
    obtain ⟨w, member, bad, p, tracked, same, _, called⟩ := who
    refine ⟨run.1, run.2, reached, s', outcome, on, ?_⟩
    simp only [sampleExit, List.mem_cons, List.not_mem_nil, or_false] at member
    rcases member with rfl | rfl
    · simp [WaitStatus.abnormal, WaitStatus.wifexited, WaitStatus.wexitstatus] at bad
    · rw [named p tracked same] at called
      exact called ▸ added

end SafeModeRequests
