import UNit.Cmdline
import UNit.OpenFiles

/-!
The standard descriptors of a process that init starts. init runs with 0, 1 and
2 closed, so that what the child opens for them can itself get these numbers;
safe_dup first takes every source above them.
-/
namespace ChildStdio
open DescriptorTable OpenFiles Cmdline

def stdinFileno : Nat := 0
def stdoutFileno : Nat := 1
def stderrFileno : Nat := 2

/-- What fcntl, dup2 and the rest answer; the log may be opened for a message
    about a failure. -/
structure DupAnswer where
  succeeds : Bool
  openLog : Bool
  deriving DecidableEq, Repr

/-- The result, the descriptor as the caller has it then, and the files. -/
def safeDup (answer : DupAnswer) (fd : Nat) (files : Files) : Bool × Nat × Files :=
  if fd ≤ stderrFileno then
    match if answer.succeeds then files.fds.dupFrom fd (stderrFileno + 1) else none with
    | none => (false, fd, logMessage answer.openLog files)
    | some (tmpfd, fds) => (true, tmpfd, { files with fds := fds }.close fd)
  else (true, fd, files)

def dup2 (answer : DupAnswer) (old new : Nat) (files : Files) : Option Files :=
  if answer.succeeds then (files.fds.dup2 old new).map (fun fds => { files with fds := fds })
  else none

structure StdioAnswers where
  openNull : DupAnswer
  dupNull : DupAnswer
  logFd : Bool
  openOut : Bool
  dupOut : DupAnswer
  dup2In : DupAnswer
  dup2Out : DupAnswer
  dup2Err : DupAnswer
  deriving DecidableEq, Repr

def closeAll (fds : List Nat) (files : Files) : Files := fds.foldl Files.close files

def setupStdio (a : StdioAnswers) (files : Files) : Bool × Files :=
  if !a.openNull.succeeds then (false, logMessage a.openNull.openLog files)
  else
    let opened := files.open .null false
    match safeDup a.dupNull opened.1 opened.2 with
    | (false, nullFd, files) => (false, closeAll [nullFd] files)
    | (true, nullFd, files) =>
      match logFd a.logFd files with
      | (none, files) => (false, closeAll [nullFd] (logMessage a.openOut files))
      | (some out, files) =>
        match safeDup a.dupOut out files with
        | (false, outFd, files) => (false, closeAll [outFd, nullFd] files)
        | (true, outFd, files) =>
          match dup2 a.dup2In nullFd stdinFileno files with
          | none => (false, closeAll [outFd, nullFd] (logMessage a.dup2In.openLog files))
          | some files =>
            match dup2 a.dup2Out outFd stdoutFileno files with
            | none => (false, closeAll [stdinFileno, outFd, nullFd]
                (logMessage a.dup2Out.openLog files))
            | some files =>
              match dup2 a.dup2Err outFd stderrFileno files with
              | none => (false, closeAll [stdoutFileno, stdinFileno, outFd, nullFd]
                  (logMessage a.dup2Err.openLog files))
              | some files => (true, closeAll [outFd, nullFd] files)

inductive OpenAnswer where
  | opened
  | eio
  | failed
  deriving DecidableEq, Repr

def openConsole (terminal : List UInt8) : Nat → List OpenAnswer → Files → Option Nat × Files
  | 0, _, files => (none, files)
  | _ + 1, [], files => (none, files)
  | times + 1, answer :: answers, files =>
    match answer with
    | .opened =>
      let opened := files.open (.terminal terminal) true
      (some opened.1, opened.2)
    | .eio => openConsole terminal times answers files
    | .failed => (none, files)

structure SttyAnswers where
  attempts : List OpenAnswer
  openLog : Bool
  dupTty : DupAnswer
  dup2In : DupAnswer
  dup2Out : DupAnswer
  dup2Err : DupAnswer
  resetConsole : Bool
  deriving DecidableEq, Repr

def setupStty (a : SttyAnswers) (terminal : List UInt8) (files : Files) : Bool × Files :=
  match openConsole terminal 10 a.attempts files with
  | (none, files) => (false, logMessage a.openLog files)
  | (some tty, files) =>
    match safeDup a.dupTty tty files with
    | (false, tty, files) => (false, closeAll [tty] files)
    | (true, tty, files) =>
      match dup2 a.dup2In tty stdinFileno files with
      | none => (false, closeAll [tty] (logMessage a.dup2In.openLog files))
      | some files =>
        match dup2 a.dup2Out tty stdoutFileno files with
        | none => (false, closeAll [stdinFileno, tty] (logMessage a.dup2Out.openLog files))
        | some files =>
          match dup2 a.dup2Err tty stderrFileno files with
          | none => (false, closeAll [stdoutFileno, stdinFileno, tty]
              (logMessage a.dup2Err.openLog files))
          | some files =>
            if a.resetConsole then (true, closeAll [tty] files)
            else (false, closeAll [stderrFileno, stdoutFileno, stdinFileno, tty] files)

def logMessages (answers : List Bool) (files : Files) : Files :=
  answers.foldl (fun files openLog => logMessage openLog files) files

structure ChildAnswers where
  strdup : Bool
  parseLog : List Bool
  setsid : Bool
  setaffinity : Bool
  stdio : StdioAnswers
  stty : SttyAnswers
  setctty : Bool
  deriving DecidableEq, Repr

/-- What the child hands to execvpe, with the files it has open; none where it
    returns before. -/
def setupChild (a : ChildAnswers) (command console : List UInt8) (coreId : Int) (files : Files) :
    Option (CmdlineContents × Files) :=
  let files := logMessages a.parseLog files
  match parseCmdline a.strdup command with
  | none => none
  | some contents =>
    if !a.setsid then none
    else if 0 ≤ coreId ∧ a.setaffinity = false then none
    else if console ≠ [] then
      match setupStty a.stty console files with
      | (false, _) => none
      | (true, files) => if a.setctty then some (contents, files) else none
    else
      match setupStdio a.stdio files with
      | (false, _) => none
      | (true, files) => some (contents, files)

def ClosedOnExec (files : Files) (but : List Nat) : Prop :=
  ∀ n, stderrFileno < n → n ∉ but → ∀ d, files.fds.get n = some d → d.cloexec = true

variable {files files' : Files} {fd k : Nat} {answer : DupAnswer}

structure Taken (fd k : Nat) (files files' : Files) : Prop where
  above : stderrFileno < k
  same : ∃ d cloexec, files.fds.get fd = some d ∧ files'.fds.get k = some ⟨d.object, cloexec⟩
  placed : k = fd ∨ fd ≤ stderrFileno ∧ files.fds.get k = none ∧ files'.fds.get fd = none
  frame : ∀ n, n ≠ fd → n ≠ k → files'.fds.get n = files.fds.get n
  logFd : files'.logFd = files.logFd

theorem safe_dup_taken {d : Descriptor Object} (stands : files.fds.get fd = some d)
    (called : safeDup answer fd files = (true, k, files')) : Taken fd k files files' := by
  unfold safeDup at called
  split at called
  · rename_i low
    split at called
    · simp at called
    · rename_i tmpfd fds duplicated
      simp only [Prod.mk.injEq, true_and] at called
      obtain ⟨rfl, rfl⟩ := called
      split at duplicated
      · simp only [Table.dupFrom, stands, Option.map_some, Option.some.injEq,
          Prod.mk.injEq] at duplicated
        obtain ⟨rfl, rfl⟩ := duplicated
        obtain ⟨above, free⟩ := lowest_spec files.fds (stderrFileno + 1)
        have other : files.fds.lowest (stderrFileno + 1) ≠ fd := by omega
        refine ⟨above, ⟨d, false, stands, ?_⟩, .inr ⟨low, free, ?_⟩, ?_, rfl⟩
        · simp only [Files.close, get_close, other, ↓reduceIte, get_put]
        · simp only [Files.close, get_close, ↓reduceIte]
        · intro n notFd notK
          simp only [Files.close, get_close, notFd, ↓reduceIte, get_put, notK]
      · simp at duplicated
  · rename_i high
    simp only [Prod.mk.injEq, true_and] at called
    obtain ⟨rfl, rfl⟩ := called
    exact ⟨by omega, ⟨d, d.cloexec, stands, stands⟩, .inl rfl, fun _ _ _ => rfl, rfl⟩

theorem dup2_spec {old new : Nat} {d : Descriptor Object} (stands : files.fds.get old = some d)
    (other : old ≠ new) (called : dup2 answer old new files = some files') :
    ∀ n, files'.fds.get n = if n = new then some ⟨d.object, false⟩ else files.fds.get n := by
  unfold dup2 at called
  split at called
  · simp only [Table.dup2, stands, other, Option.map_some, ↓reduceIte,
      Option.some.injEq] at called
    rw [← called]
    intro n
    exact get_put files.fds new n _
  · simp at called

theorem close_all_get (fds : List Nat) (files : Files) (n : Nat) :
    (closeAll fds files).fds.get n = if n ∈ fds then none else files.fds.get n := by
  induction fds generalizing files with
  | nil => simp [closeAll]
  | cons fd fds ih =>
    have first : (closeAll (fd :: fds) files).fds.get n =
        (closeAll fds (files.close fd)).fds.get n := rfl
    rw [first, ih]
    simp only [Files.close, get_close, List.mem_cons]
    by_cases here : n = fd
    · simp [here]
    · simp [here]

def survivors (files : Files) (n : Nat) : Option Object :=
  (files.fds.exec.get n).map Descriptor.object

def standard (stdin stdout stderr : Object) (n : Nat) : Option Object :=
  if n = stdinFileno then some stdin
  else if n = stdoutFileno then some stdout
  else if n = stderrFileno then some stderr
  else none

theorem duplicated_survivors {one two three : Files} {in' out err : Nat} {a b c : DupAnswer}
    {stdin stdout stderr : Descriptor Object} {sources : List Nat}
    (closed : ClosedOnExec files sources) (high : ∀ fd ∈ sources, stderrFileno < fd)
    (used : in' ∈ sources ∧ out ∈ sources ∧ err ∈ sources)
    (stands : files.fds.get in' = some stdin ∧ files.fds.get out = some stdout ∧
      files.fds.get err = some stderr)
    (first : dup2 a in' stdinFileno files = some one)
    (second : dup2 b out stdoutFileno one = some two)
    (third : dup2 c err stderrFileno two = some three) :
    ∀ n, survivors (closeAll sources three) n =
      standard stdin.object stdout.object stderr.object n := by
  have above := fun fd member => (show 2 < fd from high fd member)
  obtain ⟨usedIn, usedOut, usedErr⟩ := used
  obtain ⟨standsIn, standsOut, standsErr⟩ := stands
  have inHigh := above in' usedIn
  have outHigh := above out usedOut
  have errHigh := above err usedErr
  have onOne := dup2_spec standsIn (by simp only [stdinFileno]; omega) first
  have outOne : one.fds.get out = some stdout := by
    rw [onOne, if_neg (by simp only [stdinFileno]; omega), standsOut]
  have onTwo := dup2_spec outOne (by simp only [stdoutFileno]; omega) second
  have errTwo : two.fds.get err = some stderr := by
    rw [onTwo, if_neg (by simp only [stdoutFileno]; omega), onOne,
      if_neg (by simp only [stdinFileno]; omega), standsErr]
  have onThree := dup2_spec errTwo (by simp only [stderrFileno]; omega) third
  have free : ∀ n, n ≤ 2 → n ∉ sources := fun n low member => absurd (above n member) (by omega)
  have apart : stdinFileno ≠ stdoutFileno ∧ stdinFileno ≠ stderrFileno ∧
      stdoutFileno ≠ stderrFileno := by decide
  intro n
  simp only [survivors, get_exec, close_all_get, onThree, onTwo, onOne, standard]
  have cases : n = stdinFileno ∨ n = stdoutFileno ∨ n = stderrFileno ∨ 2 < n := by
    simp only [stdinFileno, stdoutFileno, stderrFileno]
    omega
  rcases cases with rfl | rfl | rfl | big
  · simp [free stdinFileno (by decide), apart]
  · simp [free stdoutFileno (by decide), apart, apart.1.symm]
  · simp [free stderrFileno (by decide), apart.2.1.symm, apart.2.2.symm]
  · have others : n ≠ stdinFileno ∧ n ≠ stdoutFileno ∧ n ≠ stderrFileno := by
      simp only [stdinFileno, stdoutFileno, stderrFileno]
      omega
    simp only [others, ↓reduceIte]
    split
    · rfl
    · rename_i source
      cases here : files.fds.get n with
      | none => rfl
      | some d =>
        have flag := closed n big source d here
        simp [flag]

theorem taken_closed {but : List Nat} (taken : Taken fd k files files')
    (closed : ClosedOnExec files (fd :: but)) : ClosedOnExec files' (k :: but) := by
  intro n high excepted d here
  obtain ⟨notK, notBut⟩ : n ≠ k ∧ n ∉ but := by simpa using excepted
  have notFd : n ≠ fd := by
    rintro rfl
    rcases taken.placed with same | ⟨low, _, _⟩
    · exact notK same.symm
    · omega
  rw [taken.frame n notFd notK] at here
  exact closed n high (by simp [notFd, notBut]) d here

theorem taken_keeps {n : Nat} {d : Descriptor Object} (taken : Taken fd k files files')
    (other : n ≠ fd) (stands : files.fds.get n = some d) : files'.fds.get n = some d := by
  have notK : n ≠ k := by
    rintro rfl
    rcases taken.placed with same | ⟨_, free, _⟩
    · exact other same
    · simp [free] at stands
  rw [taken.frame n other notK, stands]

theorem taken_object {d : Descriptor Object} (taken : Taken fd k files files')
    (stands : files.fds.get fd = some d) :
    ∃ cloexec, files'.fds.get k = some ⟨d.object, cloexec⟩ := by
  obtain ⟨d', cloexec, same, moved⟩ := taken.same
  obtain rfl := Option.some.inj (stands.symm.trans same)
  exact ⟨cloexec, moved⟩

theorem taken_log_kept {d : Descriptor Object} (taken : Taken fd k files files')
    (stands : files.fds.get fd = some d) (other : d.object ≠ .log) (kept : LogKept files) :
    LogKept files' := by
  intro log static
  rw [taken.logFd] at static
  obtain ⟨cloexec, there⟩ := kept log static
  refine ⟨cloexec, taken_keeps taken ?_ there⟩
  rintro rfl
  obtain rfl := Option.some.inj (stands.symm.trans there)
  exact other rfl

theorem open_closed {but : List Nat} (closed : ClosedOnExec files but) (object : Object)
    (cloexec : Bool) :
    ClosedOnExec (files.open object cloexec).2 ((files.open object cloexec).1 :: but) := by
  obtain ⟨_, now, _⟩ := open_spec files object cloexec
  intro n high excepted d here
  obtain ⟨other, notBut⟩ : n ≠ (files.open object cloexec).1 ∧ n ∉ but := by
    simpa using excepted
  rw [now, if_neg other] at here
  exact closed n high notBut d here

theorem open_log_kept (kept : LogKept files) (object : Object) (cloexec : Bool) :
    LogKept (files.open object cloexec).2 := by
  obtain ⟨free, now, same⟩ := open_spec files object cloexec
  intro log static
  rw [same] at static
  obtain ⟨flag, there⟩ := kept log static
  refine ⟨flag, ?_⟩
  rw [now, if_neg, there]
  rintro rfl
  simp [free] at there

theorem log_fd_closed {openLog : Bool} {but : List Nat} (kept : LogKept files)
    (closed : ClosedOnExec files but) (called : logFd openLog files = (some fd, files')) :
    ClosedOnExec files' but := by
  obtain ⟨⟨cloexec, there, before⟩, frame, _⟩ := log_fd_spec kept called
  intro n high excepted d here
  by_cases log : n = fd
  · subst log
    rcases before with same | ⟨_, flag⟩
    · rw [same] at here
      exact closed n high excepted d here
    · obtain rfl := Option.some.inj (there.symm.trans here)
      exact flag
  · rw [frame n log] at here
    exact closed n high excepted d here

theorem log_fd_keeps {openLog : Bool} {n : Nat} {d : Descriptor Object} (kept : LogKept files)
    (stands : files.fds.get n = some d) (other : d.object ≠ .log)
    (called : logFd openLog files = (some fd, files')) :
    n ≠ fd ∧ files'.fds.get n = some d := by
  obtain ⟨⟨cloexec, there, before⟩, frame, _⟩ := log_fd_spec kept called
  have notLog : n ≠ fd := by
    rintro rfl
    rcases before with same | ⟨free, _⟩
    · rw [same, stands] at there
      obtain rfl := Option.some.inj there
      exact other rfl
    · simp [free] at stands
  exact ⟨notLog, by rw [frame n notLog, stands]⟩

theorem setup_stdio_steps {a : StdioAnswers} (done : setupStdio a files = (true, files')) :
    ∃ nullFd second log third outFd fourth one two three,
      safeDup a.dupNull (files.open .null false).1 (files.open .null false).2 =
        (true, nullFd, second) ∧
      logFd a.logFd second = (some log, third) ∧
      safeDup a.dupOut log third = (true, outFd, fourth) ∧
      dup2 a.dup2In nullFd stdinFileno fourth = some one ∧
      dup2 a.dup2Out outFd stdoutFileno one = some two ∧
      dup2 a.dup2Err outFd stderrFileno two = some three ∧
      files' = closeAll [outFd, nullFd] three := by
  simp only [setupStdio] at done
  split at done
  · simp at done
  · split at done
    · simp at done
    · rename_i nullFd second nullDuped
      split at done
      · simp at done
      · rename_i log third logOpen
        split at done
        · simp at done
        · rename_i outFd fourth outDuped
          split at done
          · simp at done
          · rename_i one first
            split at done
            · simp at done
            · rename_i two second
              split at done
              · simp at done
              · rename_i three third
                exact ⟨_, _, _, _, _, _, _, _, _, nullDuped, logOpen, outDuped, first, second,
                  third, (Prod.mk.inj done).2.symm⟩

theorem setup_stdio_survivors {a : StdioAnswers} (kept : LogKept files)
    (closed : ClosedOnExec files []) (done : setupStdio a files = (true, files')) :
    ∀ n, survivors files' n = standard .null .log .log n := by
  obtain ⟨nullFd, second, log, third, outFd, fourth, one, two, three, nullDuped, logOpen,
    outDuped, firstDup, secondDup, thirdDup, rfl⟩ := setup_stdio_steps done
  have placed : (files.open .null false).2.fds.get (files.open .null false).1 =
      some ⟨.null, false⟩ := by
    rw [(open_spec files .null false).2.1, if_pos rfl]
  have nullTaken := safe_dup_taken placed nullDuped
  obtain ⟨_, nullSecond⟩ := taken_object nullTaken placed
  have secondClosed := taken_closed nullTaken (open_closed closed .null false)
  have secondKept := taken_log_kept nullTaken placed (by simp) (open_log_kept kept .null false)
  -- The log can be opened at a number that safe_dup has just freed.
  obtain ⟨⟨_, logThird, _⟩, _, _⟩ := log_fd_spec secondKept logOpen
  obtain ⟨apart, nullThird⟩ := log_fd_keeps secondKept nullSecond (by simp) logOpen
  have thirdClosed := log_fd_closed secondKept secondClosed logOpen
  have outTaken := safe_dup_taken logThird outDuped
  obtain ⟨_, outFourth⟩ := taken_object outTaken logThird
  have nullFourth := taken_keeps outTaken apart nullThird
  have fourthClosed : ClosedOnExec fourth [outFd, nullFd] := by
    refine taken_closed outTaken ?_
    intro n high excepted
    exact thirdClosed n high (fun member => excepted (List.mem_cons_of_mem log member))
  refine duplicated_survivors fourthClosed ?_ (by simp) ⟨nullFourth, outFourth, outFourth⟩
    firstDup secondDup thirdDup
  intro fd member
  rcases List.mem_pair.mp member with rfl | rfl
  · exact outTaken.above
  · exact nullTaken.above

theorem open_console_spec {terminal : List UInt8} {times : Nat} {answers : List OpenAnswer}
    {tty : Nat} (called : openConsole terminal times answers files = (some tty, files')) :
    (tty, files') = files.open (.terminal terminal) true := by
  induction times generalizing answers with
  | zero => simp [openConsole] at called
  | succ times ih =>
    cases answers with
    | nil => simp [openConsole] at called
    | cons answer answers =>
      cases answer with
      | opened =>
        simp only [openConsole, Prod.mk.injEq, Option.some.injEq] at called
        exact Prod.ext called.1.symm called.2.symm
      | eio => exact ih called
      | failed => simp [openConsole] at called

theorem setup_stty_steps {a : SttyAnswers} {terminal : List UInt8}
    (done : setupStty a terminal files = (true, files')) :
    ∃ opened first tty second one two three,
      openConsole terminal 10 a.attempts files = (some opened, first) ∧
      safeDup a.dupTty opened first = (true, tty, second) ∧
      dup2 a.dup2In tty stdinFileno second = some one ∧
      dup2 a.dup2Out tty stdoutFileno one = some two ∧
      dup2 a.dup2Err tty stderrFileno two = some three ∧
      files' = closeAll [tty] three := by
  simp only [setupStty] at done
  split at done
  · simp at done
  · rename_i opened first consoleOpen
    split at done
    · simp at done
    · rename_i tty second duped
      split at done
      · simp at done
      · rename_i one firstDup
        split at done
        · simp at done
        · rename_i two secondDup
          split at done
          · simp at done
          · rename_i three thirdDup
            split at done
            · exact ⟨_, _, _, _, _, _, _, consoleOpen, duped, firstDup, secondDup, thirdDup,
                (Prod.mk.inj done).2.symm⟩
            · simp at done

theorem setup_stty_survivors {a : SttyAnswers} {terminal : List UInt8}
    (closed : ClosedOnExec files []) (done : setupStty a terminal files = (true, files')) :
    ∀ n, survivors files' n =
      standard (.terminal terminal) (.terminal terminal) (.terminal terminal) n := by
  obtain ⟨opened, first, tty, second, one, two, three, consoleOpen, duped, firstDup, secondDup,
    thirdDup, rfl⟩ := setup_stty_steps done
  have now := open_console_spec consoleOpen
  have placed : first.fds.get opened = some ⟨.terminal terminal, true⟩ := by
    have stands := (open_spec files (.terminal terminal) true).2.1 opened
    rw [← now] at stands
    simpa using stands
  have firstClosed := open_closed closed (.terminal terminal) true
  rw [← now] at firstClosed
  have taken := safe_dup_taken placed duped
  obtain ⟨_, stands⟩ := taken_object taken placed
  refine duplicated_survivors (taken_closed taken firstClosed) ?_ (by simp)
    ⟨stands, stands, stands⟩ firstDup secondDup thirdDup
  intro fd member
  rw [List.mem_singleton.mp member]
  exact taken.above

theorem log_messages_ready (answers : List Bool) (kept : LogKept files)
    (closed : ClosedOnExec files []) :
    LogKept (logMessages answers files) ∧ ClosedOnExec (logMessages answers files) [] := by
  induction answers generalizing files with
  | nil => exact ⟨kept, closed⟩
  | cons openLog answers ih =>
    have now : ClosedOnExec (logMessage openLog files) [] := by
      rcases log_message_cases openLog files with same | ⟨fd, called⟩
      · rwa [same]
      · exact log_fd_closed kept closed called
    exact ih (log_message_kept openLog kept) now

/-- A process that init starts has exactly its three standard descriptors behind
    exec, whatever numbers were free when it was set up. -/
theorem started_descriptors (files : Files) (kept : LogKept files)
    (closed : ClosedOnExec files []) :
    (∀ a files', setupStdio a files = (true, files') →
      ∀ n, survivors files' n = standard .null .log .log n) ∧
    (∀ a terminal files', setupStty a terminal files = (true, files') →
      ∀ n, survivors files' n =
        standard (.terminal terminal) (.terminal terminal) (.terminal terminal) n) ∧
    ∀ a command console coreId contents files',
      setupChild a command console coreId files = some (contents, files') →
      ∀ n, survivors files' n = if console = [] then standard .null .log .log n
        else standard (.terminal console) (.terminal console) (.terminal console) n := by
  refine ⟨fun a files' done => setup_stdio_survivors kept closed done,
    fun a terminal files' done => setup_stty_survivors closed done, ?_⟩
  intro a command console coreId contents files' executed n
  obtain ⟨laterKept, laterClosed⟩ := log_messages_ready a.parseLog kept closed
  simp only [setupChild] at executed
  generalize logMessages a.parseLog files = later at laterKept laterClosed executed
  split at executed
  · simp at executed
  · split at executed
    · simp at executed
    · split at executed
      · simp at executed
      · split at executed
        · rename_i given
          rw [if_neg given]
          split at executed
          · simp at executed
          · rename_i set done
            split at executed
            · obtain rfl := (Prod.mk.inj (Option.some.inj executed)).2
              exact setup_stty_survivors laterClosed done n
            · simp at executed
        · rename_i blank
          rw [if_pos (Classical.not_not.mp blank)]
          split at executed
          · simp at executed
          · rename_i set done
            obtain rfl := (Prod.mk.inj (Option.some.inj executed)).2
            exact setup_stdio_survivors laterKept laterClosed done n

def granted : DupAnswer := ⟨true, true⟩

def logAtZero : Files := ⟨⟨[some ⟨.log, true⟩]⟩, some 0⟩

theorem started_descriptors_with_log_at_zero : ∃ files',
    setupStdio ⟨granted, granted, true, true, granted, granted, granted, granted⟩ logAtZero =
      (true, files') ∧
    ∀ n, survivors files' n = standard .null .log .log n := by
  have kept : LogKept logAtZero := by
    rintro fd static
    obtain rfl := Option.some.inj static
    exact ⟨true, rfl⟩
  have closed : ClosedOnExec logAtZero [] := by
    intro n high _ d here
    have none : logAtZero.fds.get n = none := by
      simp only [logAtZero, Table.get, List.getD_eq_getElem?_getD]
      rw [List.getElem?_eq_none (by simp only [List.length_singleton]; omega)]
      rfl
    simp [none] at here
  have succeeds : (setupStdio ⟨granted, granted, true, true, granted, granted, granted, granted⟩
      logAtZero).1 = true := by decide
  exact ⟨_, Prod.ext succeeds rfl, (started_descriptors logAtZero kept closed).1 _ _
    (Prod.ext succeeds rfl)⟩

end ChildStdio
