import UNit.ChildStdio
import UNit.InitDescriptors

/-!
The descriptors of the processes init forks. A child starts with a copy of the
table of init at that moment, in which the numbers up to 2 are taken by
whatever was opened first. Since the loop holds two descriptors for good, a pipe
never has both of its ends there; so the placeholder can give its standard
descriptors their numbers and then close the write end.
-/
namespace ChildDescriptors
open InittabEntries ProcessHistory KernelModel InitState MainLoop LabelledRuns DescriptorTable
  OpenFiles ChildStdio DescriptorOwners InitDescriptors

/-- The child branch of setup_safe_mode: the number its read end has then, and the
    files; none where it exits. -/
def placeholder (dup : DupAnswer) (stdio : StdioAnswers) (pipefd : Nat × Nat) (files : Files) :
    Option (Nat × Files) :=
  match safeDup dup pipefd.1 files with
  | (false, _, _) => none
  | (true, readFd, files) =>
    match setupStdio stdio files with
    | (false, _) => none
    | (true, files) => some (readFd, files.close pipefd.2)

variable {files files' : Files}

structure Arranged (files files' : Files) : Prop where
  stdin : files'.fds.get stdinFileno = some ⟨.null, false⟩
  stdout : files'.fds.get stdoutFileno = some ⟨.log, false⟩
  stderr : files'.fds.get stderrFileno = some ⟨.log, false⟩
  closed : ∀ but, ClosedOnExec files but → ClosedOnExec files' but
  keeps : ∀ n d, stderrFileno < n → files.fds.get n = some d → d.object ≠ .null →
    d.object ≠ .log → files'.fds.get n = some d
  origin : ∀ n d, files'.fds.get n = some d → d.object = .null ∨ d.object = .log ∨
    files.fds.get n = some d

theorem taken_origin {fd k n : Nat} {d : Descriptor Object} (taken : Taken fd k files files')
    (stands : files'.fds.get n = some d) :
    n = k ∨ n ≠ fd ∧ files.fds.get n = some d := by
  by_cases here : n = k
  · exact Or.inl here
  · refine Or.inr ?_
    have apart : n ≠ fd := by
      rintro rfl
      rcases taken.placed with same | ⟨_, _, gone⟩
      · exact here same.symm
      · simp [gone] at stands
    exact ⟨apart, by rw [← taken.frame n apart here]; exact stands⟩

theorem duplicated_get {one two three : Files} {nullFd outFd : Nat} {a b c : DupAnswer}
    {stdin out : Descriptor Object} (high : stderrFileno < nullFd ∧ stderrFileno < outFd)
    (stands : files.fds.get nullFd = some stdin ∧ files.fds.get outFd = some out)
    (first : dup2 a nullFd stdinFileno files = some one)
    (second : dup2 b outFd stdoutFileno one = some two)
    (third : dup2 c outFd stderrFileno two = some three) (n : Nat) :
    (closeAll [outFd, nullFd] three).fds.get n =
      if n = stdinFileno then some ⟨stdin.object, false⟩
      else if n = stdoutFileno ∨ n = stderrFileno then some ⟨out.object, false⟩
      else if n = outFd ∨ n = nullFd then none
      else files.fds.get n := by
  obtain ⟨nullHigh, outHigh⟩ := high
  obtain ⟨zeroth, firstOne, last⟩ : stdinFileno = 0 ∧ stdoutFileno = 1 ∧ stderrFileno = 2 :=
    ⟨rfl, rfl, rfl⟩
  have onOne := dup2_spec stands.1 (by omega) first
  have outOne : one.fds.get outFd = some out := by
    rw [onOne, if_neg (by omega), stands.2]
  have onTwo := dup2_spec outOne (by omega) second
  have outTwo : two.fds.get outFd = some out := by
    rw [onTwo, if_neg (by omega), outOne]
  have onThree := dup2_spec outTwo (by omega) third
  rw [close_all_get, onThree, onTwo, onOne]
  simp only [List.mem_cons, List.not_mem_nil, or_false]
  by_cases zero : n = stdinFileno
  · rw [if_neg (by omega), if_neg (by omega), if_neg (by omega), if_pos zero, if_pos zero]
  · by_cases low : n = stdoutFileno ∨ n = stderrFileno
    · rcases low with here | here
      · rw [if_neg (by omega), if_neg (by omega), if_pos here, if_neg zero, if_pos (Or.inl here)]
      · rw [if_neg (by omega), if_pos here, if_neg zero, if_pos (Or.inr here)]
    · by_cases source : n = outFd ∨ n = nullFd
      · rw [if_pos source, if_neg zero, if_neg low, if_pos source]
      · rw [if_neg source, if_neg (by omega), if_neg (by omega), if_neg zero, if_neg zero,
          if_neg low, if_neg source]

theorem setup_stdio_arranged {a : StdioAnswers} (kept : LogKept files)
    (done : setupStdio a files = (true, files')) : Arranged files files' := by
  obtain ⟨nullFd, second, log, third, outFd, fourth, one, two, three, nullDuped, logOpen,
    outDuped, firstDup, secondDup, thirdDup, rfl⟩ := setup_stdio_steps done
  obtain ⟨free, opened, _⟩ := open_spec files .null false
  have placed : (files.open .null false).2.fds.get (files.open .null false).1 =
      some ⟨.null, false⟩ := by
    rw [opened, if_pos rfl]
  have nullTaken := safe_dup_taken placed nullDuped
  obtain ⟨_, nullSecond⟩ := taken_object nullTaken placed
  have secondKept := taken_log_kept nullTaken placed (by simp) (open_log_kept kept .null false)
  obtain ⟨⟨_, logThird, _⟩, logFrame, _⟩ := log_fd_spec secondKept logOpen
  obtain ⟨apart, nullThird⟩ := log_fd_keeps secondKept nullSecond (by simp) logOpen
  have outTaken := safe_dup_taken logThird outDuped
  obtain ⟨_, outFourth⟩ := taken_object outTaken logThird
  have nullFourth := taken_keeps outTaken apart nullThird
  have final := duplicated_get ⟨nullTaken.above, outTaken.above⟩ ⟨nullFourth, outFourth⟩ firstDup
    secondDup thirdDup
  have above : ∀ n, stderrFileno < n → ¬ n = stdinFileno ∧
      ¬ (n = stdoutFileno ∨ n = stderrFileno) := by
    intro n high
    have values : stdinFileno = 0 ∧ stdoutFileno = 1 ∧ stderrFileno = 2 := ⟨rfl, rfl, rfl⟩
    omega
  refine ⟨by rw [final, if_pos rfl], ?_, ?_, ?_, ?_, ?_⟩
  · rw [final, if_neg (by decide), if_pos (Or.inl rfl)]
  · rw [final, if_neg (by decide), if_pos (Or.inr rfl)]
  · intro but closed
    have secondClosed := taken_closed nullTaken (open_closed closed .null false)
    have thirdClosed := log_fd_closed secondKept secondClosed logOpen
    have fourthClosed : ClosedOnExec fourth (outFd :: nullFd :: but) := by
      refine taken_closed outTaken ?_
      intro n high excepted
      exact thirdClosed n high (fun member => excepted (List.mem_cons_of_mem log member))
    intro n high excepted d here
    rw [final, if_neg (above n high).1, if_neg (above n high).2] at here
    split at here
    · simp at here
    · rename_i source
      refine fourthClosed n high ?_ d here
      simp only [List.mem_cons, not_or]
      exact ⟨fun same => source (Or.inl same), fun same => source (Or.inr same), excepted⟩
  · intro n d high stands notNull notLog
    have early : (files.open .null false).2.fds.get n = some d := by
      rw [opened, if_neg, stands]
      rintro rfl
      simp [free] at stands
    have other : n ≠ (files.open .null false).1 := by
      rintro rfl
      simp [free] at stands
    have inSecond := taken_keeps nullTaken other early
    obtain ⟨notLogFd, inThird⟩ := log_fd_keeps secondKept inSecond notLog logOpen
    have inFourth := taken_keeps outTaken notLogFd inThird
    have source : ¬ (n = outFd ∨ n = nullFd) := by
      rintro (rfl | rfl)
      · obtain rfl := Option.some.inj (outFourth.symm.trans inFourth)
        exact notLog rfl
      · obtain rfl := Option.some.inj (nullFourth.symm.trans inFourth)
        exact notNull rfl
    rw [final, if_neg (above n high).1, if_neg (above n high).2, if_neg source]
    exact inFourth
  · intro n d here
    rw [final] at here
    split at here
    · exact Or.inl (by rw [← Option.some.inj here])
    · split at here
      · exact Or.inr (Or.inl (by rw [← Option.some.inj here]))
      · split at here
        · simp at here
        · rename_i source
          obtain ⟨notOut, notNull⟩ := not_or.mp source
          obtain ⟨notLog, inThird⟩ := (taken_origin outTaken here).resolve_left notOut
          rw [logFrame n notLog] at inThird
          obtain ⟨notOpened, early⟩ := (taken_origin nullTaken inThird).resolve_left notNull
          rw [opened, if_neg notOpened] at early
          exact Or.inr (Or.inr early)

/-- A placeholder that waits for its record: the standard descriptors, the read end
    above them, no write end, and nothing else that would survive exec. -/
structure Waits (files : Files) (w : Nat) (reader : Object) (readFd : Nat) (files' : Files) :
    Prop where
  stdin : files'.fds.get stdinFileno = some ⟨.null, false⟩
  stdout : files'.fds.get stdoutFileno = some ⟨.log, false⟩
  stderr : files'.fds.get stderrFileno = some ⟨.log, false⟩
  above : stderrFileno < readFd
  reads : ∃ cloexec, files'.fds.get readFd = some ⟨reader, cloexec⟩
  closed : ClosedOnExec files' [readFd]
  origin : ∀ n d, files'.fds.get n = some d → d.object = .null ∨ d.object = .log ∨
    d.object = reader ∨ n ≠ w ∧ files.fds.get n = some d

theorem placeholder_waits {dup : DupAnswer} {stdio : StdioAnswers} {r w readFd : Nat}
    {reader writer : Descriptor Object} (kept : LogKept files) (closed : ClosedOnExec files [])
    (ends : files.fds.get r = some reader ∧ files.fds.get w = some writer) (apart : r ≠ w)
    (pipe : reader.object ≠ .null ∧ reader.object ≠ .log) (high : stderrFileno < w)
    (done : placeholder dup stdio (r, w) files = some (readFd, files')) :
    Waits files w reader.object readFd files' := by
  simp only [placeholder] at done
  split at done
  · simp at done
  · rename_i readFd' first duped
    split at done
    · simp at done
    · rename_i second arranged
      simp only [Option.some.injEq, Prod.mk.injEq] at done
      obtain ⟨rfl, rfl⟩ := done
      have taken := safe_dup_taken ends.1 duped
      obtain ⟨cloexec, moved⟩ := taken_object taken ends.1
      have firstKept := taken_log_kept taken ends.1 pipe.2 kept
      have firstClosed : ClosedOnExec first [readFd'] :=
        taken_closed taken (fun n above _ => closed n above (by simp))
      have stands := taken_keeps taken apart.symm ends.2
      have other : readFd' ≠ w := by
        rintro rfl
        rcases taken.placed with same | ⟨_, free, _⟩
        · exact apart same.symm
        · simp [free] at ends
      obtain ⟨stdin, stdout, stderr, closing, keeps, origin⟩ :=
        setup_stdio_arranged firstKept arranged
      have low : stdinFileno ≠ w ∧ stdoutFileno ≠ w ∧ stderrFileno ≠ w := by
        have values : stdinFileno = 0 ∧ stdoutFileno = 1 ∧ stderrFileno = 2 := ⟨rfl, rfl, rfl⟩
        omega
      have final : ∀ n, (second.close w).fds.get n = if n = w then none else second.fds.get n :=
        get_close second.fds w
      refine ⟨?_, ?_, ?_, taken.above, ⟨cloexec, ?_⟩, ?_, ?_⟩
      · rw [final, if_neg low.1, stdin]
      · rw [final, if_neg low.2.1, stdout]
      · rw [final, if_neg low.2.2, stderr]
      · rw [final, if_neg other]
        exact keeps readFd' _ taken.above moved pipe.1 pipe.2
      · intro n above excepted d here
        rw [final] at here
        split at here
        · simp at here
        · exact closing [readFd'] firstClosed n above excepted d here
      · intro n d here
        rw [final] at here
        split at here
        · simp at here
        · rename_i notWrite
          rcases origin n d here with null | log | early
          · exact Or.inl null
          · exact Or.inr (Or.inl log)
          · rcases taken_origin taken early with rfl | ⟨_, before⟩
            · refine Or.inr (Or.inr (Or.inl ?_))
              rw [moved] at early
              rw [← Option.some.inj early]
            · exact Or.inr (Or.inr (Or.inr ⟨notWrite, before⟩))

theorem waits_survivors {w readFd : Nat} {reader : Object}
    (waits : Waits files w reader readFd files') :
    ∀ n, survivors (files'.close readFd) n = standard .null .log .log n := by
  intro n
  have values : stdinFileno = 0 ∧ stdoutFileno = 1 ∧ stderrFileno = 2 := ⟨rfl, rfl, rfl⟩
  have above := waits.above
  have final : (files'.close readFd).fds.get n = if n = readFd then none else files'.fds.get n :=
    get_close files'.fds readFd n
  rw [survivors, get_exec, final, standard]
  by_cases zero : n = stdinFileno
  · rw [if_neg (by omega), if_pos zero, zero, waits.stdin]
    rfl
  · rw [if_neg zero]
    by_cases one : n = stdoutFileno
    · rw [if_neg (by omega), if_pos one, one, waits.stdout]
      rfl
    · rw [if_neg one]
      by_cases two : n = stderrFileno
      · rw [if_neg (by omega), if_pos two, two, waits.stderr]
        rfl
      · rw [if_neg two]
        by_cases reading : n = readFd
        · rw [if_pos reading]
          rfl
        · rw [if_neg reading]
          cases stands : files'.fds.get n with
          | none => rfl
          | some d =>
            have flag := waits.closed n (by omega) (by simp [reading]) d stands
            simp [flag]

def object : Key → Object
  | .fixed .log => .log
  | .fixed .watchdog => .watchdog
  | .fixed .epoll => .other 4
  | .fixed .signal => .other 5
  | .fixed (.inherited n) => .other (8 * n + 3)
  | .file => .other 6
  | .timer id => .other (8 * id + 2)
  | .readEnd q => .other (8 * q)
  | .writeEnd q => .other (8 * q + 1)

def described (d : Descriptor Key) : Descriptor Object := ⟨object d.object, d.cloexec⟩

def childFiles (o : Owners Key) : Files :=
  ⟨⟨o.fds.slots.map (fun slot => slot.map described)⟩, o.vars (.fixed .log)⟩

theorem child_get (o : Owners Key) (n : Nat) :
    (childFiles o).fds.get n = (o.fds.get n).map described := by
  simp only [childFiles, Table.get, List.getD_eq_getElem?_getD, List.getElem?_map]
  cases o.fds.slots[n]? <;> simp

theorem write_end_object {k : Key} {q : Nat} (same : object k = object (.writeEnd q)) :
    k = .writeEnd q := by
  cases k with
  | fixed which =>
    cases which <;> simp only [object, Object.other.injEq, reduceCtorEq] at same <;> omega
  | file => simp only [object, Object.other.injEq] at same; omega
  | timer id => simp only [object, Object.other.injEq] at same; omega
  | readEnd p => simp only [object, Object.other.injEq] at same; omega
  | writeEnd p =>
    simp only [object, Object.other.injEq] at same
    obtain rfl : p = q := by omega
    rfl

theorem child_ready {o : Owners Key} {keys : Keys Key} (owned : Owned o keys)
    (closed : SealedAbove 2 o) : LogKept (childFiles o) ∧ ClosedOnExec (childFiles o) [] := by
  constructor
  · intro fd static
    obtain ⟨cloexec, stands⟩ := (owned.table (.fixed .log) fd).mp static
    exact ⟨cloexec, by rw [child_get, stands]; rfl⟩
  · intro n high _ d here
    rw [child_get] at here
    obtain ⟨own, stands, rfl⟩ := Option.map_eq_some_iff.mp here
    exact closed n own high stands

section Runs
variable {table : BootTable} {answer : BootAnswer} {first sys : System}
variable {trace : List (System × Event)} {o : Owners Key} {fixed : Set Fixed} {opened : Bool}
variable {calls before : List Call}

theorem part_owned (booted : boot table answer = some first)
    (run : Run MainLoop.step first trace sys) (intact : sys.control.intact)
    (start : Owned o (startKeys fixed)) (inherits : Inherits fixed)
    (made : calls.filterMap opOf = bootOps table opened answer ++ traceOps trace)
    (part : before <+: calls) :
    ∃ o' keys, followCalls (loopOwners o) before = some o' ∧ Owned o' keys := by
  obtain ⟨rest, rfl⟩ := part
  obtain ⟨epoll, signal, watchdog⟩ := inherits_unheld inherits
  obtain ⟨kept, _, allowed, _⟩ := run_reaches booted run intact
    (insert .signal (insert .epoll fixed)) opened (Set.mem_insert _ _) (by simpa using watchdog)
  have plain := run_ordinary table opened answer trace
  rw [← made, List.filterMap_append] at allowed plain
  rw [List.all_append, Bool.and_eq_true] at plain
  obtain ⟨o', followed, last⟩ := calls_follow rfl (loop_owned start epoll signal)
    ((allows_append _ _ _).mp allowed).1 plain.1
  rcases last with one | two
  · exact ⟨o', _, followed, one⟩
  · exact ⟨o', _, followed, two⟩

/-- The children of init at any moment of any run. A process of an entry gets
    exactly its standard descriptors. A placeholder, forked while both ends of
    its pipe are open, waits with the read end above its standard descriptors
    and without a write end, and hands the standard ones to the application. -/
theorem children_get_their_descriptors (booted : boot table answer = some first)
    (run : Run MainLoop.step first trace sys) (intact : sys.control.intact)
    (start : Owned o (startKeys fixed)) (inherits : Inherits fixed) (closed : SealedAbove 2 o)
    (made : calls.filterMap opOf = bootOps table opened answer ++ traceOps trace)
    (part : before <+: calls) :
    ∃ o', followCalls (loopOwners o) before = some o' ∧
      (∀ a files', setupStdio a (childFiles o') = (true, files') →
        ∀ n, survivors files' n = standard .null .log .log n) ∧
      (∀ a terminal files', setupStty a terminal (childFiles o') = (true, files') →
        ∀ n, survivors files' n =
          standard (.terminal terminal) (.terminal terminal) (.terminal terminal) n) ∧
      ∀ q r w, o'.vars (.readEnd q) = some r → o'.vars (.writeEnd q) = some w →
        ∀ dup stdio readFd files',
          placeholder dup stdio (r, w) (childFiles o') = some (readFd, files') →
          Waits (childFiles o') w (object (.readEnd q)) readFd files' ∧
          (∀ n cloexec, files'.fds.get n ≠ some ⟨object (.writeEnd q), cloexec⟩) ∧
          ∀ n, survivors (files'.close readFd) n = standard .null .log .log n := by
  obtain ⟨o', keys, followed, owned⟩ := part_owned booted run intact start inherits made part
  have sound := run_calls_sound start inherits closed made part followed
  obtain ⟨kept, sealed⟩ := child_ready owned sound.sealed
  refine ⟨o', followed, fun a files' done => setup_stdio_survivors kept sealed done,
    fun a terminal files' done => setup_stty_survivors sealed done, ?_⟩
  intro q r w reads writes dup stdio readFd files' done
  obtain ⟨rc, standsR⟩ := (owned.table (.readEnd q) r).mp reads
  obtain ⟨wc, standsW⟩ := (owned.table (.writeEnd q) w).mp writes
  have ends : (childFiles o').fds.get r = some ⟨object (.readEnd q), rc⟩ ∧
      (childFiles o').fds.get w = some ⟨object (.writeEnd q), wc⟩ := by
    rw [child_get, child_get, standsR, standsW]
    exact ⟨rfl, rfl⟩
  have apart : r ≠ w := by
    rintro rfl
    have same := owned_apart owned reads writes
    simp at same
  have waits := placeholder_waits kept sealed ends apart (by simp [object])
    (sound.writes _ w ⟨q, rfl⟩ writes) done
  refine ⟨waits, ?_, waits_survivors waits⟩
  intro n cloexec here
  rcases waits.origin n _ here with null | log | reader | ⟨notWrite, earlier⟩
  · simp [object] at null
  · simp [object] at log
  · have same := write_end_object (k := .readEnd q) reader.symm
    simp at same
  · rw [child_get] at earlier
    obtain ⟨own, stands, same⟩ := Option.map_eq_some_iff.mp earlier
    have write : own.object = .writeEnd q :=
      write_end_object (congrArg Descriptor.object same)
    have there : o'.vars (.writeEnd q) = some n :=
      (owned.table (.writeEnd q) n).mpr ⟨own.cloexec, by rw [stands, ← write]⟩
    exact notWrite (Option.some.inj (there.symm.trans writes))

end Runs

def unwatchedBoot : BootAnswer := ⟨none, ⟨true, true, 10⟩, forksAnswered [11, 12, 13]⟩

def unwatchedCalls : List Call := (bootOps sampleTable false unwatchedBoot).map Call.op

def stdioGranted : StdioAnswers :=
  ⟨granted, granted, true, true, granted, granted, granted, granted⟩

/-- init without standard descriptors and without a watchdog forks its placeholder:
    the read end has number 2 and is moved out of the way. -/
theorem children_get_their_descriptors_at_two : ∃ o' readFd files',
    followCalls (loopOwners nothingOpen) (unwatchedCalls.take 4) = some o' ∧
    o'.vars (.readEnd 0) = some 2 ∧ o'.vars (.writeEnd 0) = some 3 ∧
    placeholder granted stdioGranted (2, 3) (childFiles o') = some (readFd, files') ∧
    2 < readFd ∧ ∀ n, survivors (files'.close readFd) n = standard .null .log .log n := by
  obtain ⟨run, rehearsed, waiting, none⟩ : ∃ run ∈ rehearse sampleTable unwatchedBoot [],
      run.2.control = .waiting ∧ run.1.length = 0 := by
    decide +kernel
  obtain ⟨first, booted, steps⟩ := boot_run_of_rehearse rehearsed
  have made : unwatchedCalls.filterMap opOf =
      bootOps sampleTable false unwatchedBoot ++ traceOps run.1 := by
    rw [List.length_eq_zero_iff.mp none, unwatchedCalls, List.filterMap_map, traceOps, List.append_nil]
    exact List.filterMap_some
  obtain ⟨o', followed, _, _, waits⟩ := children_get_their_descriptors booted steps
    (waiting_intact waiting) nothing_open_owned (fun _ member => absurd member (by simp))
    (by simp [SealedAbove, nothingOpen, Table.get]) made (List.take_prefix 4 unwatchedCalls)
  have reads : (followCalls (loopOwners nothingOpen) (unwatchedCalls.take 4)).map
      (fun o => (o.vars (.readEnd 0), o.vars (.writeEnd 0),
        (placeholder granted stdioGranted (2, 3) (childFiles o)).isSome)) =
      some (some 2, some 3, true) := by
    decide +kernel
  simp only [followed, Option.map_some, Option.some.injEq, Prod.mk.injEq] at reads
  obtain ⟨r, w, placed⟩ := reads
  obtain ⟨⟨readFd, files'⟩, placed⟩ := Option.isSome_iff_exists.mp placed
  obtain ⟨waiting, _, survive⟩ := waits 0 2 3 r w granted stdioGranted readFd files' placed
  exact ⟨o', readFd, files', followed, r, w, placed, waiting.above, survive⟩

end ChildDescriptors
