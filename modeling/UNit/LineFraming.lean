import UNit.InittabReading

/-!
The framing of lines. Each call of inittab_next_line with a zeroed buffer
answers for the next line that is not passed over, and leaves the stream right
behind it. A line that is too big has one answer, however long it is.
-/
namespace LineFraming
open LoopRuns DecimalText Lexer StdioStream InittabLines InittabParser InittabReading

inductive Frame where
  | line (text : List UInt8)
  | tooBig
  | eof
  | error
  deriving DecidableEq, Repr

/-- What the caller sees of one call: the result, and the C string in the buffer
    where there is one. -/
def observe : NextLineResult × Reading → Frame
  | (.ok, st) => .line (cString st.buf 0)
  | (.tooBig, _) => .tooBig
  | (.eof, _) => .eof
  | (.error, _) => .error

def calls : Nat → Stream → List Frame
  | 0, _ => []
  | n + 1, s =>
    let answer := inittabNextLine ⟨s, zeroed⟩
    observe answer :: calls n answer.2.stream

/-- What a line stands for; a comment that is too big counts as such. -/
def frameOf (line : List UInt8) : Option Frame :=
  if lineSize < line.length then some .tooBig
  else if line = [] ∨ line.head? = some hashMark then none
  else some (.line line)

def frames (content : List UInt8) : List Frame := (content.splitOn newline).filterMap frameOf

theorem frames_last {line : List UInt8} (clean : newline ∉ line) :
    frames line = (frameOf line).toList := by
  rw [frames, List.splitOn_eq_singleton clean]
  cases found : frameOf line <;> simp [found]

theorem frames_line {line : List UInt8} (clean : newline ∉ line) (rest : List UInt8) :
    frames (line ++ newline :: rest) = (frameOf line).toList ++ frames rest := by
  rw [frames, List.splitOn_append_cons_self_of_not_mem clean, frames]
  cases found : frameOf line <;> simp [found]

def GoesOn (s : Stream) (later : List Frame) : Prop :=
  (∃ rest, s = .opened rest ∧ 0 ∉ rest ∧ frames rest = later) ∨ (s = drained ∧ later = [])

def Answers (content buf : List UInt8) : Prop :=
  let answer := inittabNextLine ⟨.opened content, buf⟩
  match frames content with
  | [] => observe answer = .eof ∧ answer.2.stream = drained
  | frame :: later => observe answer = frame ∧ GoesOn answer.2.stream later

theorem stored_line {line : List UInt8} (clean : 0 ∉ line) (buf : List UInt8) :
    cString (storeString buf line) 0 = line := by
  rw [cString, List.drop_zero, storeString]
  exact c_string_ended clean

theorem passed_over_iff {line : List UInt8} (clean : 0 ∉ line) :
    PassedOver line ↔ line = [] ∨ line.head? = some hashMark := by
  cases line with
  | nil => simp [PassedOver]
  | cons c rest =>
    have other : ¬ c = 0 := fun zero => clean (by simp [zero])
    simp [PassedOver, other]

theorem frame_of_long {line : List UInt8} (long : lineSize < line.length) :
    frameOf line = some .tooBig := by
  simp [frameOf, long]

theorem frame_of_passed {line : List UInt8} (fits : line.length ≤ lineSize) (clean : 0 ∉ line)
    (skipped : PassedOver line) : frameOf line = none := by
  rw [frameOf, if_neg (Nat.not_lt.mpr fits), if_pos ((passed_over_iff clean).mp skipped)]

theorem frame_of_entry {line : List UInt8} (fits : line.length ≤ lineSize) (clean : 0 ∉ line)
    (entry : ¬ PassedOver line) : frameOf line = some (.line line) := by
  rw [frameOf, if_neg (Nat.not_lt.mpr fits), if_neg (fun passed =>
    entry ((passed_over_iff clean).mpr passed))]

theorem long_line_starts {line chunk more : List UInt8} {c : UInt8} (clean : 0 ∉ line)
    (split : line = chunk ++ c :: more) (full : chunk.length = lineSize) : chunk.headD 0 ≠ 0 := by
  obtain ⟨first, others, rfl⟩ := List.exists_cons_of_ne_nil (full_nonempty full)
  intro zero
  exact clean (by simp [split, ← show first = 0 from zero])

theorem line_answers {line rest buf : List UInt8} (clean : newline ∉ line) (text : 0 ∉ line)
    (others : 0 ∉ rest) (quiet : PassedOver buf)
    (later : ∀ buf, PassedOver buf → Answers rest buf) :
    Answers (line ++ newline :: rest) buf := by
  simp only [Answers, frames_line clean]
  by_cases long : lineSize < line.length
  · obtain ⟨chunk, c, more, split, full, chunkClean, inside, moreClean⟩ :=
      long_line_split long clean
    have starts := long_line_starts text split full
    rw [frame_of_long long]
    have answer : inittabNextLine ⟨.opened (line ++ newline :: rest), buf⟩ =
        (.tooBig, ⟨.opened rest, storeString buf chunk⟩) := by
      rw [split, List.append_assoc, List.cons_append]
      refine (outcome_done (body_too_big chunkClean buf full inside starts)).trans ?_
      rw [discard_terminated moreClean]
    rw [answer]
    exact ⟨rfl, .inl ⟨rest, rfl, others, rfl⟩⟩
  · have fits : line.length ≤ lineSize := Nat.le_of_not_lt long
    by_cases skipped : PassedOver line
    · rw [frame_of_passed fits text skipped]
      have same : inittabNextLine ⟨.opened (line ++ newline :: rest), buf⟩ =
          inittabNextLine ⟨.opened rest, leaves buf line⟩ :=
        outcome_next (body_passes_over clean quiet fits skipped)
      rw [same, Option.toList_none, List.nil_append]
      exact later (leaves buf line) (leaves_passed_over quiet skipped)
    · rw [frame_of_entry fits text skipped]
      have answer : inittabNextLine ⟨.opened (line ++ newline :: rest), buf⟩ =
          (.ok, ⟨.opened rest, storeString buf line⟩) :=
        outcome_done (body_entry clean buf fits skipped)
      rw [answer]
      exact ⟨congrArg Frame.line (stored_line text buf), .inl ⟨rest, rfl, others, rfl⟩⟩

theorem last_answers {line buf : List UInt8} (clean : newline ∉ line) (text : 0 ∉ line) :
    Answers line buf := by
  simp only [Answers, frames_last clean]
  by_cases long : lineSize < line.length
  · obtain ⟨chunk, c, more, split, full, chunkClean, inside, moreClean⟩ :=
      long_line_split long clean
    have starts := long_line_starts text split full
    rw [frame_of_long long]
    have answer : inittabNextLine ⟨.opened line, buf⟩ =
        (.tooBig, ⟨drained, storeString buf chunk⟩) := by
      rw [split]
      refine (outcome_done (body_too_big chunkClean buf full inside starts)).trans ?_
      rw [discard_unterminated moreClean]
    rw [answer]
    exact ⟨rfl, .inr ⟨rfl, rfl⟩⟩
  · have fits : line.length ≤ lineSize := Nat.le_of_not_lt long
    by_cases skipped : PassedOver line
    · rw [frame_of_passed fits text skipped]
      by_cases empty : line = []
      · subst empty
        have answer : inittabNextLine ⟨.opened [], buf⟩ = (.eof, ⟨drained, buf⟩) :=
          outcome_done (body_at_end buf rfl rfl)
        rw [answer]
        exact ⟨rfl, rfl⟩
      · have answer : inittabNextLine ⟨.opened line, buf⟩ =
            (.eof, ⟨drained, storeString buf line⟩) :=
          (outcome_next (body_last_passed_over clean buf empty fits skipped)).trans
            (outcome_done (body_at_end _ rfl rfl))
        rw [answer]
        exact ⟨rfl, rfl⟩
    · rw [frame_of_entry fits text skipped]
      have answer : inittabNextLine ⟨.opened line, buf⟩ =
          (.ok, ⟨drained, storeString buf line⟩) :=
        outcome_done (body_last_entry clean buf fits skipped)
      rw [answer]
      exact ⟨congrArg Frame.line (stored_line text buf), .inr ⟨rfl, rfl⟩⟩

theorem content_answers (content : List UInt8) (text : 0 ∉ content) {buf : List UInt8}
    (quiet : PassedOver buf) : Answers content buf := by
  induction counted : content.length using Nat.strongRecOn generalizing content buf with
  | ind n ih =>
    by_cases several : newline ∈ content
    · obtain ⟨line, rest, rfl, clean⟩ := List.eq_append_cons_of_mem several
      simp only [List.mem_append, List.mem_cons, not_or] at text
      refine line_answers clean text.1 text.2.2 quiet ?_
      intro buf quiet
      exact ih rest.length (by rw [← counted]; simp; omega) rest text.2.2 quiet rfl
    · exact last_answers several text

theorem calls_at_end (n : Nat) : calls n drained = List.replicate n .eof := by
  induction n with
  | zero => rfl
  | succ n ih =>
    have answer : inittabNextLine ⟨drained, zeroed⟩ = (.eof, ⟨drained, zeroed⟩) :=
      outcome_done (body_at_end zeroed rfl rfl)
    rw [calls, answer, List.replicate_succ]
    exact congrArg (List.cons Frame.eof) ih

/-- The calls answer for the lines of the file in their order, and then for its
    end. -/
theorem calls_frame_lines (content : List UInt8) (text : 0 ∉ content) (n : Nat) :
    calls n (.opened content) = (frames content ++ List.replicate n Frame.eof).take n := by
  induction n generalizing content with
  | zero => simp [calls]
  | succ n ih =>
    have answers := content_answers content text zeroed_passed_over
    simp only [Answers] at answers
    rw [calls]
    cases all : frames content with
    | nil =>
      rw [all] at answers
      obtain ⟨seen, ended⟩ := answers
      simp only [seen, ended, calls_at_end]
      simp [List.replicate_succ]
    | cons frame later =>
      rw [all] at answers
      obtain ⟨seen, next⟩ := answers
      have rest : calls n (inittabNextLine ⟨.opened content, zeroed⟩).2.stream =
          (later ++ List.replicate n Frame.eof).take n := by
        rcases next with ⟨rest, opened, clean, same⟩ | ⟨ended, nothing⟩
        · rw [opened, ih rest clean, same]
        · rw [ended, nothing, calls_at_end]
          simp
      simp only [seen, rest, List.cons_append, List.take_succ_cons, List.take_append,
        List.take_replicate]
      congr 3
      omega

theorem calls_frame_lines_for_comment :
    calls 4 (.opened (ascii "a\n" ++ (hashMark :: List.replicate lineSize 32) ++
      ascii "\n\n#c\nb")) = [.line (ascii "a"), .tooBig, .line (ascii "b"), .eof] := by
  refine (calls_frame_lines _ ?_ 4).trans ?_
  · decide +kernel
  · decide +kernel

end LineFraming
