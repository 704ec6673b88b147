import UNit.LabelledRuns
import UNit.SafeModeRecord

/-!
The transfer of the record through the pipe: the write loop of
execute_safe_mode in process 1 and the read loop of safe_mode_wait in the
placeholder, in any interleaving. A call moves as many bytes as its answer says
and the other side allows; a read waits while the pipe is empty and its write
end is open.
-/
namespace RecordTransfer
open LabelledRuns SafeModeRecord

inductive WriterStatus where
  | writing
  | sent
  | failed
  deriving DecidableEq, Repr

/-- The reader leaves its loop towards exec with a complete record. -/
inductive ReaderStatus where
  | reading
  | complete
  | failed
  deriving DecidableEq, Repr

structure Transfer where
  written : Nat
  writer : WriterStatus
  writeOpen : Bool
  pipe : List UInt8
  info : List UInt8
  readSoFar : Nat
  reader : ReaderStatus
  deriving DecidableEq, Repr

inductive ReadAnswer where
  | got (count : Nat)
  | eintr
  | failed
  deriving DecidableEq, Repr

/-- The write end is closed by its owner or with the end of its owner. -/
inductive Event where
  | write (answer : WriteAnswer)
  | close
  | read (answer : ReadAnswer)
  deriving DecidableEq, Repr

def start : Transfer where
  written := 0
  writer := .writing
  writeOpen := true
  pipe := []
  info := List.replicate sizeofSharedInfo 0
  readSoFar := 0
  reader := .reading

def writeStep (bytes : List UInt8) (st : Transfer) : WriteAnswer → Transfer
  | .eintr => st
  | .failed => { st with writer := .failed }
  | .wrote count =>
    let size := min count (sizeofSharedInfo - st.written)
    if size = 0 then { st with writer := .failed }
    else
      { st with
        pipe := st.pipe ++ (bytes.drop st.written).take size
        written := st.written + size
        writer := if st.written + size = sizeofSharedInfo then .sent else .writing }

def storeAt (info : List UInt8) (offset : Nat) (chunk : List UInt8) : List UInt8 :=
  info.take offset ++ (chunk ++ info.drop (offset + chunk.length))

def readStep (st : Transfer) : ReadAnswer → Option Transfer
  | .eintr => some st
  | .failed => some { st with reader := .failed }
  | .got count =>
    let size := min count (min (sizeofSharedInfo - st.readSoFar) st.pipe.length)
    if st.pipe = [] then
      if st.writeOpen then none else some { st with reader := .failed }
    else if size = 0 then none
    else some
      { st with
        pipe := st.pipe.drop size
        info := storeAt st.info st.readSoFar (st.pipe.take size)
        readSoFar := st.readSoFar + size
        reader := if st.readSoFar + size = sizeofSharedInfo then .complete else .reading }

def step (bytes : List UInt8) (st : Transfer) : Event → Option Transfer
  | .write answer =>
    if st.writer = .writing ∧ st.writeOpen = true then some (writeStep bytes st answer) else none
  | .close => some { st with writeOpen := false }
  | .read answer => if st.reader = .reading then readStep st answer else none

/-- What is written is what the reader has and the pipe holds, and both are
    the front of the record. -/
structure InStep (bytes : List UInt8) (st : Transfer) : Prop where
  length : st.info.length = sizeofSharedInfo
  counted : st.readSoFar + st.pipe.length = st.written
  front : st.info.take st.readSoFar ++ st.pipe = bytes.take st.written
  writing : st.writer = .writing → st.written < sizeofSharedInfo
  bounded : st.written ≤ sizeofSharedInfo
  sent : st.writer = .sent → st.written = sizeofSharedInfo
  failed : st.writer = .failed → st.written < sizeofSharedInfo
  reading : st.reader = .reading → st.readSoFar < sizeofSharedInfo
  complete : st.reader = .complete → st.readSoFar = sizeofSharedInfo

variable {bytes : List UInt8} {st next : Transfer}

theorem start_in_step : InStep bytes start := by
  constructor <;> simp [start, sizeofSharedInfo]

theorem store_at_front {info chunk : List UInt8} {offset : Nat} (inside : offset ≤ info.length) :
    (storeAt info offset chunk).take (offset + chunk.length) = info.take offset ++ chunk := by
  have counted : (info.take offset).length = offset := by
    rw [List.length_take]
    omega
  have whole : (info.take offset ++ chunk).length = offset + chunk.length := by
    rw [List.length_append, counted]
  rw [storeAt, ← List.append_assoc, ← whole, List.take_left]

theorem store_at_length {info chunk : List UInt8} {offset : Nat}
    (inside : offset + chunk.length ≤ info.length) :
    (storeAt info offset chunk).length = info.length := by
  simp only [storeAt, List.length_append, List.length_take, List.length_drop]
  omega

theorem write_step_in_step (whole : bytes.length = sizeofSharedInfo) (inStep : InStep bytes st)
    (writing : st.writer = .writing) (answer : WriteAnswer) :
    InStep bytes (writeStep bytes st answer) := by
  have room := inStep.writing writing
  have failing : InStep bytes { st with writer := .failed } :=
    { inStep with
      writing := fun other => by simp at other
      sent := fun other => by simp at other
      failed := fun _ => room }
  cases answer with
  | eintr => exact inStep
  | failed => exact failing
  | wrote count =>
    simp only [writeStep]
    split
    · exact failing
    · rename_i moved
      generalize size : min count (sizeofSharedInfo - st.written) = k at moved
      have chunk : ((bytes.drop st.written).take k).length = k := by
        rw [List.length_take, List.length_drop, whole]
        omega
      refine ⟨inStep.length, ?_, ?_, ?_, ?_, ?_, ?_, inStep.reading, inStep.complete⟩
      · have counted := inStep.counted
        simp only [List.length_append, chunk]
        omega
      · rw [List.take_add, ← inStep.front, List.append_assoc]
      · intro unfinished
        split at unfinished
        · simp at unfinished
        · simp only
          omega
      · simp only
        omega
      · intro finished
        split at finished
        · assumption
        · simp at finished
      · intro failed
        split at failed <;> simp at failed

theorem read_step_in_step (inStep : InStep bytes st) (reading : st.reader = .reading)
    {answer : ReadAnswer} (read : readStep st answer = some next) : InStep bytes next := by
  have failing : InStep bytes { st with reader := .failed } :=
    { inStep with
      reading := fun other => by simp at other
      complete := fun other => by simp at other }
  cases answer with
  | eintr =>
    obtain rfl := Option.some.inj read
    exact inStep
  | failed =>
    obtain rfl := Option.some.inj read
    exact failing
  | got count =>
    simp only [readStep] at read
    split at read
    · split at read
      · simp at read
      · obtain rfl := Option.some.inj read
        exact failing
    · split at read
      · simp at read
      · rename_i moved
        generalize size : min count (min (sizeofSharedInfo - st.readSoFar) st.pipe.length) = k
          at moved read
        obtain rfl := Option.some.inj read
        have room := inStep.reading reading
        have length := inStep.length
        have counted := inStep.counted
        have chunk : (st.pipe.take k).length = k := by
          rw [List.length_take]
          omega
        have stored : (storeAt st.info st.readSoFar (st.pipe.take k)).take
            (st.readSoFar + (st.pipe.take k).length) = _ := store_at_front (by omega)
        rw [chunk] at stored
        refine ⟨?_, ?_, ?_, inStep.writing, inStep.bounded, inStep.sent, inStep.failed, ?_, ?_⟩
        · rw [← length]
          exact store_at_length (by omega)
        · simp only [List.length_drop]
          omega
        · rw [stored, List.append_assoc, List.take_append_drop, inStep.front]
        · intro unfinished
          split at unfinished
          · simp at unfinished
          · simp only
            omega
        · intro finished
          split at finished
          · assumption
          · simp at finished

theorem step_in_step (whole : bytes.length = sizeofSharedInfo) (inStep : InStep bytes st)
    {e : Event} (now : step bytes st e = some next) : InStep bytes next := by
  cases e with
  | write answer =>
    simp only [step] at now
    split at now
    · rename_i able
      obtain rfl := Option.some.inj now
      exact write_step_in_step whole inStep able.1 answer
    · simp at now
  | close =>
    obtain rfl := Option.some.inj now
    exact { inStep with }
  | read answer =>
    simp only [step] at now
    split at now
    · rename_i reading
      exact read_step_in_step inStep reading now
    · simp at now

theorem run_in_step (whole : bytes.length = sizeofSharedInfo) {trace : List (Transfer × Event)}
    (run : Run (step bytes) start trace st) : InStep bytes st :=
  run_invariant (InStep bytes) run (meets_always trace) start_in_step
    fun _ _ _ holds _ now => step_in_step whole holds now

theorem complete_record (whole : bytes.length = sizeofSharedInfo) (inStep : InStep bytes st)
    (complete : st.reader = .complete) : st.writer = .sent ∧ st.info = bytes := by
  have read := inStep.complete complete
  have counted := inStep.counted
  have bounded := inStep.bounded
  have all : st.written = sizeofSharedInfo := by omega
  have drained : st.pipe = [] := List.eq_nil_of_length_eq_zero (by omega)
  constructor
  · cases status : st.writer with
    | sent => rfl
    | writing => exact absurd (inStep.writing status) (by omega)
    | failed => exact absurd (inStep.failed status) (by omega)
  · have front := inStep.front
    rwa [drained, List.append_nil, read, all, ← inStep.length, List.take_length, inStep.length,
      ← whole, List.take_length] at front

/-- Without a read error the reader fails only at the end of a pipe whose
    writer has not sent the record and will not. -/
def FailedAtEnd (st : Transfer) : Prop :=
  st.reader = .failed → st.written < sizeofSharedInfo ∧ st.writeOpen = false

theorem step_failed_at_end (inStep : InStep bytes st) (atEnd : FailedAtEnd st) {e : Event}
    (noError : e ≠ .read .failed) (now : step bytes st e = some next) : FailedAtEnd next := by
  cases e with
  | write answer =>
    simp only [step] at now
    split at now
    · rename_i able
      obtain rfl := Option.some.inj now
      intro failed
      have same : (writeStep bytes st answer).reader = st.reader := by
        cases answer <;> simp only [writeStep]
        split <;> rfl
      exact absurd (atEnd (same.symm.trans failed)).2 (by simp [able.2])
    · simp at now
  | close =>
    obtain rfl := Option.some.inj now
    exact fun failed => ⟨(atEnd failed).1, rfl⟩
  | read answer =>
    simp only [step] at now
    split at now
    · rename_i reading
      cases answer with
      | eintr =>
        obtain rfl := Option.some.inj now
        exact atEnd
      | failed => exact absurd rfl noError
      | got count =>
        simp only [readStep] at now
        split at now
        · rename_i empty
          split at now
          · simp at now
          · rename_i closed
            obtain rfl := Option.some.inj now
            have room := inStep.reading reading
            have counted := inStep.counted
            rw [empty, List.length_nil] at counted
            have short : st.written < sizeofSharedInfo := by omega
            exact fun _ => ⟨short, by simpa using closed⟩
        · split at now
          · simp at now
          · obtain rfl := Option.some.inj now
            intro failed
            simp only at failed
            split at failed <;> simp at failed
    · simp at now

def untilLeft (bytes : List UInt8) : List Event → Transfer → Option Transfer
  | [], st => some st
  | e :: events, st =>
    if st.reader = .reading then (step bytes st e).bind (untilLeft bytes events) else some st

def isDataRead : Event → Bool
  | .read (.got count) => count ≠ 0
  | .read .eintr => false
  | .read .failed => false
  | .write _ => false
  | .close => false

def Afterwards (e : Event) : Prop := e = .close ∨ e = .read .eintr ∨ isDataRead e = true

theorem data_read_progress (inStep : InStep bytes st) (sent : st.writer = .sent)
    (reading : st.reader = .reading) {e : Event} (moves : isDataRead e = true) :
    ∃ next, step bytes st e = some next ∧ next.writer = .sent ∧ next.reader ≠ .failed ∧
      st.readSoFar < next.readSoFar := by
  obtain ⟨count, rfl, positive⟩ : ∃ count, e = .read (.got count) ∧ count ≠ 0 := by
    cases e with
    | write _ => simp [isDataRead] at moves
    | close => simp [isDataRead] at moves
    | read answer => cases answer <;> simp_all [isDataRead]
  have all := inStep.sent sent
  have counted := inStep.counted
  have room := inStep.reading reading
  have some : st.pipe ≠ [] := by
    intro empty
    rw [empty, List.length_nil] at counted
    omega
  have moved : min count (min (sizeofSharedInfo - st.readSoFar) st.pipe.length) ≠ 0 := by omega
  simp only [step, reading, ↓reduceIte, readStep, some, moved]
  refine ⟨_, rfl, sent, ?_, by simp only; omega⟩
  simp only
  split <;> simp

theorem read_loop_completes (whole : bytes.length = sizeofSharedInfo) (inStep : InStep bytes st)
    (sent : st.writer = .sent) (unfailed : st.reader ≠ .failed) (events : List Event)
    (kinds : ∀ e ∈ events, Afterwards e)
    (enough : sizeofSharedInfo ≤ st.readSoFar + events.countP isDataRead) :
    ∃ last, untilLeft bytes events st = some last ∧ last.reader = .complete ∧ last.info = bytes := by
  induction events generalizing st with
  | nil =>
    cases status : st.reader with
    | failed => exact absurd status unfailed
    | complete => exact ⟨st, rfl, status, (complete_record whole inStep status).2⟩
    | reading =>
      have room := inStep.reading status
      rw [List.countP_nil] at enough
      omega
  | cons e events ih =>
    have later := fun a member => kinds a (List.mem_cons_of_mem e member)
    cases status : st.reader with
    | failed => exact absurd status unfailed
    | complete =>
      exact ⟨st, by simp [untilLeft, status], status, (complete_record whole inStep status).2⟩
    | reading =>
      rw [List.countP_cons] at enough
      rcases kinds e List.mem_cons_self with rfl | rfl | moves
      · have closed : InStep bytes { st with writeOpen := false } := { inStep with }
        rw [untilLeft, if_pos status, step, Option.bind_some]
        exact ih closed sent unfailed later (by simpa [isDataRead] using enough)
      · simp only [untilLeft, status, ↓reduceIte, step, readStep, Option.bind_some]
        exact ih inStep sent unfailed later (by simpa [isDataRead] using enough)
      · obtain ⟨next, now, stillSent, stillGood, progress⟩ :=
          data_read_progress inStep sent status moves
        simp only [untilLeft, status, ↓reduceIte, now, Option.bind_some]
        rw [if_pos moves] at enough
        exact ih (step_in_step whole inStep now) stillSent stillGood later (by omega)

def writeAll (bytes : List UInt8) : List WriteAnswer → Transfer → Transfer
  | [], st => st
  | answer :: answers, st =>
    if st.writer = .writing then writeAll bytes answers (writeStep bytes st answer) else st

theorem write_loop_is_writer (answers : List WriteAnswer) {written : Nat}
    (here : st.written = written) (writing : st.writer = .writing)
    (room : written < sizeofSharedInfo) :
    writeLoop true answers written =
      (decide ((writeAll bytes answers st).writer = .sent), (writeAll bytes answers st).written) := by
  induction answers generalizing st written with
  | nil => simp [writeLoop, writeAll, writing, here, Nat.ne_of_lt room]
  | cons answer answers ih =>
    have stopped : ∀ {other : Transfer}, other.writer ≠ .writing →
        writeAll bytes answers other = other := by
      intro other left
      cases answers <;> simp [writeAll, left]
    simp only [writeLoop, Nat.ne_of_lt room, ↓reduceIte, writeAll, writing]
    cases answer with
    | eintr => exact ih here writing room
    | failed =>
      rw [writeStep, stopped (by simp)]
      simp [here]
    | wrote count =>
      simp only [writeStep, here]
      split
      · rw [stopped (by simp)]
        simp
      · by_cases full : written + min count (sizeofSharedInfo - written) = sizeofSharedInfo
        · rw [stopped (by simp [full])]
          cases answers <;> simp [writeLoop, full]
        · simp only [full, ↓reduceIte]
          exact ih rfl rfl (by omega)

theorem write_all_run (answers : List WriteAnswer) {trace : List (Transfer × Event)}
    {first : Transfer} (before : Run (step bytes) first trace st) (opened : st.writeOpen = true) :
    ∃ later, Run (step bytes) first later (writeAll bytes answers st) := by
  induction answers generalizing trace st with
  | nil => exact ⟨trace, before⟩
  | cons answer answers ih =>
    rw [writeAll]
    split
    · rename_i writing
      have now : step bytes st (.write answer) = some (writeStep bytes st answer) := by
        simp [step, writing, opened]
      have same : (writeStep bytes st answer).writeOpen = st.writeOpen := by
        cases answer <;> simp only [writeStep]
        split <;> rfl
      exact ih (.next before now) (same.trans opened)
    · exact ⟨trace, before⟩

def record (failedProcessCmd : List UInt8) (sig : Int) : List UInt8 :=
  (fillSharedInfo failedProcessCmd sig).bytes

/-- The placeholder goes on to exec only with the record that was sent, whole;
    and if all of it has been sent and no read fails, the read loop is left with
    it as soon as enough reads are not interrupted. -/
theorem record_survives_any_chunking (failedProcessCmd : List UInt8) (sig : Int)
    {trace : List (Transfer × Event)} {st : Transfer}
    (run : Run (step (record failedProcessCmd sig)) start trace st) :
    (st.reader = .complete → st.writer = .sent ∧ st.info = record failedProcessCmd sig) ∧
    (st.writer = .sent → Meets (fun _ e => e ≠ .read .failed) trace →
      ∀ events : List Event, (∀ e ∈ events, Afterwards e) →
        sizeofSharedInfo ≤ st.readSoFar + events.countP isDataRead →
        ∃ last, untilLeft (record failedProcessCmd sig) events st = some last ∧
          last.reader = .complete ∧ last.info = record failedProcessCmd sig) := by
  have whole : (record failedProcessCmd sig).length = sizeofSharedInfo :=
    fill_bytes_length failedProcessCmd sig
  have inStep : InStep (record failedProcessCmd sig) st := run_in_step whole run
  refine ⟨complete_record whole inStep, fun sent noError events kinds enough => ?_⟩
  have atEnd : InStep (record failedProcessCmd sig) st ∧ FailedAtEnd st :=
    run_invariant (fun st => InStep (record failedProcessCmd sig) st ∧ FailedAtEnd st) run noError
      ⟨start_in_step, by simp [FailedAtEnd, start]⟩
      fun a e b holds good now =>
        ⟨step_in_step whole holds.1 now, step_failed_at_end holds.1 holds.2 good now⟩
  have unfailed : st.reader ≠ .failed := by
    intro failed
    have short := (atEnd.2 failed).1
    have all := inStep.sent sent
    omega
  exact read_loop_completes whole inStep sent unfailed events kinds enough

def chunkedEvents : List Event :=
  [.read .eintr, .write (.wrote 1000), .read (.got 7), .write .eintr, .write (.wrote 500),
    .read (.got 1000), .close]

theorem record_survives_in_chunks :
    ∃ trace st, Run (step (record [97, 98] 11)) start trace st ∧ st.writer = .sent ∧
      st.readSoFar = 1007 ∧ st.reader = .reading ∧
      ∃ last, untilLeft (record [97, 98] 11) (List.replicate 21 (.read (.got 1))) st = some last ∧
        last.reader = .complete ∧ last.info = record [97, 98] 11 := by
  have able : (replay (step (record [97, 98] 11)) [] start chunkedEvents).any (fun run =>
      run.2.writer = .sent ∧ run.2.readSoFar = 1007 ∧ run.2.reader = .reading ∧
        run.1.all (fun x => x.2 ≠ .read .failed)) = true := by decide +kernel
  obtain ⟨⟨trace, st⟩, replayed, facts⟩ := (Option.any_eq_true _ _).mp able
  simp only [decide_eq_true_eq, List.all_eq_true] at facts
  obtain ⟨sent, read, reading, noError⟩ := facts
  have run := run_of_replay (Run.start start) replayed
  refine ⟨trace, st, run, sent, read, reading, ?_⟩
  apply (record_survives_any_chunking [97, 98] 11 run).2 sent noError
  · intro e member
    obtain rfl := List.eq_of_mem_replicate member
    exact .inr (.inr rfl)
  · rw [read, List.countP_replicate]
    decide

end RecordTransfer
