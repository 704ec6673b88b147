import Mathlib.Data.List.DropRight
import UNit.InittabReading

/-!
The end of the inittab. A call of inittab_parse_entry that meets the end of the
file while it looks for a line returns RESULT_DONE. A call that has found a line
and meets the end of the file behind it leaves the stream at its end, and every
later call returns RESULT_ERROR: the loop of read_inittab goes on for ever.
-/
namespace InittabEnd
open DecimalText InittabEntries InittabLines InittabParser InittabReading LoopRuns StdioStream

def unterminated (text : List UInt8) : List UInt8 := text.rtakeWhile (fun c => c ≠ newline)

/-- Such bytes in which a search for a line finds none: nothing, a short
    comment, or a short line that starts with a NUL; a long line that starts
    with a NUL is passed over in pieces. -/
inductive ClosedEnd : List UInt8 → Prop
  | short {line : List UInt8} : line.length ≤ lineSize → PassedOver line → ClosedEnd line
  | long {chunk rest : List UInt8} {c : UInt8} : chunk.length = lineSize → chunk.headD 0 = 0 →
      ClosedEnd rest → ClosedEnd (chunk ++ c :: rest)

theorem unterminated_behind (front rest : List UInt8) :
    unterminated (front ++ newline :: rest) = unterminated rest := by
  have stop : ∀ back more : List UInt8,
      (back ++ newline :: more).takeWhile (fun c => c ≠ newline) =
        back.takeWhile (fun c => c ≠ newline) := by
    intro back more
    induction back with
    | nil => simp
    | cons c back ih =>
      by_cases other : c = newline
      · simp [other]
      · simpa [other] using ih
  simp only [unterminated, List.rtakeWhile, List.reverse_append, List.reverse_cons,
    List.append_assoc, List.singleton_append, stop]

theorem unterminated_clean {line : List UInt8} (clean : newline ∉ line) :
    unterminated line = line := by
  apply List.rtakeWhile_eq_self_iff.mpr
  intro c member
  have other : c ≠ newline := fun same => clean (same ▸ member)
  simpa using other

theorem closed_short_iff {line : List UInt8} (fits : line.length ≤ lineSize) :
    ClosedEnd line ↔ PassedOver line := by
  constructor
  · rintro (⟨_, skipped⟩ | ⟨full, _, _⟩)
    · exact skipped
    · simp only [List.length_append, List.length_cons] at fits
      omega
  · exact .short fits

theorem closed_long_iff {chunk rest : List UInt8} {c : UInt8} (full : chunk.length = lineSize) :
    ClosedEnd (chunk ++ c :: rest) ↔ chunk.headD 0 = 0 ∧ ClosedEnd rest := by
  constructor
  · intro closed
    generalize whole : chunk ++ c :: rest = line at closed
    cases closed with
    | short fits _ =>
      rw [← whole, List.length_append, List.length_cons] at fits
      omega
    | @long chunk' rest' c' full' nul later =>
      obtain ⟨rfl, tails⟩ := List.append_inj whole (full.trans full'.symm)
      obtain ⟨_, rfl⟩ := List.cons.inj tails
      exact ⟨nul, later⟩
  · rintro ⟨nul, later⟩
    exact .long full nul later

theorem first_piece (text : List UInt8) :
    (∃ line rest, newline ∉ line ∧ line.length ≤ lineSize ∧ text = line ++ newline :: rest) ∨
    (newline ∉ text ∧ text.length ≤ lineSize) ∨
    ∃ chunk c rest, newline ∉ chunk ∧ chunk.length = lineSize ∧ c ≠ newline ∧
      text = chunk ++ c :: rest := by
  by_cases terminated : newline ∈ text
  · obtain ⟨line, rest, rfl, clean⟩ := List.eq_append_cons_of_mem terminated
    by_cases fits : line.length ≤ lineSize
    · exact .inl ⟨line, rest, clean, fits, rfl⟩
    · obtain ⟨chunk, c, more, rfl, full, chunkClean, inside, _⟩ :=
        long_line_split (Nat.lt_of_not_le fits) clean
      exact .inr (.inr ⟨chunk, c, more ++ newline :: rest, chunkClean, full, inside, by simp⟩)
  · by_cases fits : text.length ≤ lineSize
    · exact .inr (.inl ⟨terminated, fits⟩)
    · obtain ⟨chunk, c, more, rfl, full, chunkClean, inside, _⟩ :=
        long_line_split (Nat.lt_of_not_le fits) terminated
      exact .inr (.inr ⟨chunk, c, more, chunkClean, full, inside, rfl⟩)

inductive LineFound (text : List UInt8) : NextLineResult → Stream → Prop
  | none : ClosedEnd (unterminated text) → LineFound text .eof drained
  | inside {result : NextLineResult} {front rest : List UInt8} :
      result = .ok ∨ result = .tooBig → text = front ++ newline :: rest →
      LineFound text result (.opened rest)
  | last {result : NextLineResult} : result = .ok ∨ result = .tooBig →
      ¬ ClosedEnd (unterminated text) → LineFound text result drained

theorem line_found_behind {front rest : List UInt8} {result : NextLineResult} {s : Stream}
    (found : LineFound rest result s) : LineFound (front ++ newline :: rest) result s := by
  have same := unterminated_behind front rest
  cases found with
  | none closed => exact .none (by rwa [same])
  | inside kind split => exact .inside kind (by rw [split, ← List.cons_append, ← List.append_assoc])
  | last kind unclosed => exact .last kind (by rwa [same])

theorem line_found_piece {chunk rest : List UInt8} {c : UInt8} (full : chunk.length = lineSize)
    (clean : newline ∉ chunk) (other : c ≠ newline) (nul : chunk.headD 0 = 0)
    {result : NextLineResult} {s : Stream} (found : LineFound rest result s) :
    LineFound (chunk ++ c :: rest) result s := by
  have closed : ClosedEnd (unterminated (chunk ++ c :: rest)) ↔ ClosedEnd (unterminated rest) := by
    by_cases terminated : newline ∈ rest
    · obtain ⟨front, back, rfl⟩ := List.append_of_mem terminated
      rw [unterminated_behind, ← List.cons_append, ← List.append_assoc, unterminated_behind]
    · have whole : newline ∉ chunk ++ c :: rest := by
        simp only [List.mem_append, List.mem_cons, not_or]
        exact ⟨clean, Ne.symm other, terminated⟩
      rw [unterminated_clean whole, unterminated_clean terminated, closed_long_iff full]
      simp only [nul, true_and]
  cases found with
  | none later => exact .none (closed.mpr later)
  | inside kind split => exact .inside kind (by rw [split, ← List.cons_append, ← List.append_assoc])
  | last kind unclosed => exact .last kind fun later => unclosed (closed.mp later)

theorem too_big_found {chunk rest : List UInt8} {c : UInt8} (full : chunk.length = lineSize)
    (clean : newline ∉ chunk) (other : c ≠ newline) (some : chunk.headD 0 ≠ 0) :
    LineFound (chunk ++ c :: rest) .tooBig (discardLine (.opened rest)) := by
  by_cases terminated : newline ∈ rest
  · obtain ⟨front, back, rfl, frontClean⟩ := List.eq_append_cons_of_mem terminated
    rw [discard_terminated frontClean]
    have split : chunk ++ c :: (front ++ newline :: back) =
        (chunk ++ c :: front) ++ newline :: back := by simp
    exact .inside (.inr rfl) split
  · rw [discard_unterminated terminated]
    have whole : newline ∉ chunk ++ c :: rest := by
      simp only [List.mem_append, List.mem_cons, not_or]
      exact ⟨clean, Ne.symm other, terminated⟩
    refine .last (.inr rfl) ?_
    rw [unterminated_clean whole, closed_long_iff full]
    exact fun closed => some closed.1

theorem last_line_found {line buf : List UInt8} (clean : newline ∉ line)
    (fits : line.length ≤ lineSize) :
    LineFound line (inittabNextLine ⟨.opened line, buf⟩).1
      (inittabNextLine ⟨.opened line, buf⟩).2.stream := by
  have closed : ClosedEnd (unterminated line) ↔ PassedOver line := by
    rw [unterminated_clean clean, closed_short_iff fits]
  by_cases skipped : PassedOver line
  · have ended : ∀ (s : Stream) buf', s.rest = [] → s.broken = false →
        inittabNextLine ⟨s, buf'⟩ = (.eof, ⟨drained, buf'⟩) :=
      fun s buf' empty whole => outcome_done (body_at_end buf' empty whole)
    by_cases empty : line = []
    · subst empty
      rw [ended _ buf rfl rfl]
      exact .none (closed.mpr skipped)
    · have goesOn : inittabNextLine ⟨.opened line, buf⟩ =
          inittabNextLine ⟨drained, storeString buf line⟩ :=
        outcome_next (body_last_passed_over clean buf empty fits skipped)
      rw [goesOn, ended drained _ rfl rfl]
      exact .none (closed.mpr skipped)
  · have answer : inittabNextLine ⟨.opened line, buf⟩ = _ :=
      outcome_done (body_last_entry clean buf fits skipped)
    rw [answer]
    exact .last (.inl rfl) fun later => skipped (closed.mp later)

theorem next_line_found (text : List UInt8) {buf : List UInt8} (quiet : PassedOver buf) :
    LineFound text (inittabNextLine ⟨.opened text, buf⟩).1
      (inittabNextLine ⟨.opened text, buf⟩).2.stream := by
  induction counted : text.length using Nat.strong_induction_on generalizing text buf with
  | h n ih =>
    rcases first_piece text with ⟨line, rest, clean, fits, rfl⟩ | ⟨clean, fits⟩ |
      ⟨chunk, c, rest, clean, full, other, rfl⟩
    · have shorter : rest.length < n := by
        rw [← counted, List.length_append, List.length_cons]
        omega
      by_cases skipped : PassedOver line
      · have goesOn : inittabNextLine ⟨.opened (line ++ newline :: rest), buf⟩ = _ :=
          outcome_next (body_passes_over clean quiet fits skipped)
        rw [goesOn]
        exact line_found_behind (ih rest.length shorter rest (leaves_passed_over quiet skipped) rfl)
      · have answer : inittabNextLine ⟨.opened (line ++ newline :: rest), buf⟩ = _ :=
          outcome_done (body_entry clean buf fits skipped)
        rw [answer]
        exact .inside (.inl rfl) rfl
    · exact last_line_found clean fits
    · have shorter : rest.length < n := by
        rw [← counted, List.length_append, List.length_cons]
        omega
      by_cases nul : chunk.headD 0 = 0
      · have goesOn : inittabNextLine ⟨.opened (chunk ++ c :: rest), buf⟩ = _ :=
          outcome_next (body_long_nul clean buf full nul)
        have some : chunk ≠ [] := by
          rintro rfl
          simp [lineSize] at full
        have quiet' : PassedOver (storeString buf chunk) := .inr (by rw [store_head some, nul])
        rw [goesOn]
        exact line_found_piece full clean other nul (ih rest.length shorter rest quiet' rfl)
      · have answer : inittabNextLine ⟨.opened (chunk ++ c :: rest), buf⟩ = _ :=
          outcome_done (body_too_big clean buf full other nul)
        rw [answer]
        exact too_big_found full clean other nul

theorem parse_entry_found (text : List UInt8) :
    ((inittabParseEntry (.opened text)).1 = .done ∧ ClosedEnd (unterminated text)) ∨
    ((inittabParseEntry (.opened text)).1 ≠ .done ∧ ∃ rest, rest.length < text.length ∧
      unterminated rest = unterminated text ∧ (inittabParseEntry (.opened text)).2 = .opened rest) ∨
    ((inittabParseEntry (.opened text)).1 ≠ .done ∧ ¬ ClosedEnd (unterminated text) ∧
      (inittabParseEntry (.opened text)).2 = drained) := by
  have call : inittabParseEntry (.opened text) = parseLine (inittabNextLine ⟨.opened text, zeroed⟩) :=
    rfl
  have found := next_line_found text zeroed_passed_over
  rw [call]
  generalize inittabNextLine ⟨.opened text, zeroed⟩ = answer at found
  obtain ⟨result, st⟩ := answer
  have going : result = .ok ∨ result = .tooBig → (parseLine (result, st)).1 ≠ .done ∧
      (parseLine (result, st)).2 = st.stream := by
    rintro (rfl | rfl)
    · exact ⟨of_entry_ne_done _, rfl⟩
    · exact ⟨by simp [parseLine], rfl⟩
  simp only at found
  generalize left : st.stream = s at found going
  cases found with
  | none closed => exact .inl ⟨rfl, closed⟩
  | @inside _ front rest kind split =>
    refine .inr (.inl ⟨(going kind).1, rest, ?_, ?_, (going kind).2⟩)
    · rw [split, List.length_append, List.length_cons]
      omega
    · rw [split, unterminated_behind]
  | last kind unclosed => exact .inr (.inr ⟨(going kind).1, unclosed, (going kind).2⟩)

def calls : Nat → Stream → List ParseResult
  | 0, _ => []
  | n + 1, fp => (inittabParseEntry fp).1 :: calls n (inittabParseEntry fp).2

def isSafeModeResult : ParseResult → Bool
  | .ok entry => isSafeModeEntry entry
  | .error => false
  | .done => false

def SafeModeTwice (text : List UInt8) : Prop :=
  ∃ n, 2 ≤ (calls n (.opened text)).countP isSafeModeResult

def safeModes (table : Inittab) : Nat := if table.safeModeEntry = none then 0 else 1

theorem safe_modes_le (table : Inittab) : safeModes table ≤ 1 := by
  unfold safeModes
  split <;> omega

theorem place_entry_counts {entry : InittabEntry} {table table' : Inittab}
    (placed : placeEntry entry table = some table') :
    safeModes table' = safeModes table + [ParseResult.ok entry].countP isSafeModeResult := by
  cases type : entry.type
  case safeMode =>
    cases safe : table.safeModeEntry with
    | none =>
      simp only [placeEntry, type, safe, Option.some.injEq] at placed
      subst placed
      simp [safeModes, safe, isSafeModeResult, isSafeModeEntry, type]
    | some e => simp [placeEntry, type, safe] at placed
  all_goals
    simp only [placeEntry, type, Option.some.injEq] at placed
    subst placed
    simp [safeModes, isSafeModeResult, isSafeModeEntry, type]

theorem place_entry_room {entry : InittabEntry} {table : Inittab}
    (room : safeModes table + [ParseResult.ok entry].countP isSafeModeResult ≤ 1) :
    ∃ table', placeEntry entry table = some table' := by
  cases type : entry.type
  case safeMode =>
    cases safe : table.safeModeEntry with
    | none => simp [placeEntry, type, safe]
    | some e => simp [safeModes, safe, isSafeModeResult, isSafeModeEntry, type] at room
  all_goals simp [placeEntry, type]

section Loop
variable {calloc : Nat → Bool} {st next : ReadState}

theorem read_body_next (goesOn : readBody calloc st = .inl next) :
    next.fp = (inittabParseEntry st.fp).2 ∧ next.allocations = st.allocations + 1 ∧
      (inittabParseEntry st.fp).1 ≠ .done ∧
      safeModes next.table =
        safeModes st.table + [(inittabParseEntry st.fp).1].countP isSafeModeResult := by
  simp only [readBody] at goesOn
  split at goesOn
  · split at goesOn
    · rename_i entry parsed
      split at goesOn
      · rename_i table placed
        obtain rfl := Sum.inl.inj goesOn
        exact ⟨rfl, rfl, by simp [parsed], by rw [parsed]; exact place_entry_counts placed⟩
      · simp at goesOn
    · rename_i parsed
      obtain rfl := Sum.inl.inj goesOn
      exact ⟨rfl, rfl, by simp [parsed], by simp [parsed, isSafeModeResult]⟩
    · simp at goesOn
  · simp at goesOn

theorem read_body_stays (allocated : calloc st.allocations = true)
    (more : (inittabParseEntry st.fp).1 ≠ .done)
    (room : safeModes st.table + [(inittabParseEntry st.fp).1].countP isSafeModeResult ≤ 1) :
    ∃ next, readBody calloc st = .inl next := by
  simp only [readBody, allocated, ↓reduceIte]
  cases parsed : (inittabParseEntry st.fp).1 with
  | done => exact absurd parsed more
  | error => exact ⟨_, rfl⟩
  | ok entry =>
    rw [parsed] at room
    obtain ⟨table', placed⟩ := place_entry_room room
    simp [placed]

def Finishes (calloc : Nat → Bool) (st : ReadState) : Prop := ∃ last, Ends (readBody calloc) st last

theorem finishes_of_next (later : ∀ next, readBody calloc st = .inl next → Finishes calloc next) :
    Finishes calloc st := by
  cases body : readBody calloc st with
  | inl next =>
    obtain ⟨last, done⟩ := later next body
    exact ⟨last, (ends_next_iff body last).mpr done⟩
  | inr last => exact ⟨last, ends_done body⟩

theorem finishes_unallocated (k : Nat) (failed : calloc (st.allocations + k) = false) :
    Finishes calloc st := by
  induction k generalizing st with
  | zero =>
    apply finishes_of_next
    intro next goesOn
    simp only [Nat.add_zero] at failed
    simp [readBody, failed] at goesOn
  | succ k ih =>
    apply finishes_of_next
    intro next goesOn
    apply ih
    rw [(read_body_next goesOn).2.1, Nat.add_right_comm]
    exact failed

theorem finishes_closed {text : List UInt8} (here : st.fp = .opened text)
    (closed : ClosedEnd (unterminated text)) : Finishes calloc st := by
  induction counted : text.length using Nat.strong_induction_on generalizing text st with
  | h n ih =>
    apply finishes_of_next
    intro next goesOn
    obtain ⟨left, _, more, _⟩ := read_body_next goesOn
    rw [here] at left more
    rcases parse_entry_found text with ⟨done, _⟩ | ⟨_, rest, shorter, same, behind⟩ | ⟨_, unclosed, _⟩
    · exact absurd done more
    · exact ih rest.length (by omega) (left.trans behind) (by rwa [same]) rfl
    · exact absurd closed unclosed

theorem finishes_twice (n : Nat)
    (twice : 2 ≤ safeModes st.table + (calls n st.fp).countP isSafeModeResult) :
    Finishes calloc st := by
  induction n generalizing st with
  | zero =>
    have single := safe_modes_le st.table
    simp only [calls, List.countP_nil] at twice
    omega
  | succ n ih =>
    apply finishes_of_next
    intro next goesOn
    obtain ⟨left, _, _, counts⟩ := read_body_next goesOn
    apply ih
    rw [left, counts, Nat.add_assoc, ← List.countP_append]
    exact twice

/-- A loop that cannot be left: the end of the file has been missed or will be,
    and no second entry for safe mode comes before it. -/
def Stuck (st : ReadState) : Prop :=
  (∀ n, safeModes st.table + (calls n st.fp).countP isSafeModeResult ≤ 1) ∧
    (st.fp = drained ∨ ∃ text, st.fp = .opened text ∧ ¬ ClosedEnd (unterminated text))

theorem stuck_stays (allocated : ∀ i, calloc i = true) (stuck : Stuck st) :
    ∃ next, readBody calloc st = .inl next ∧ Stuck next := by
  obtain ⟨single, place⟩ := stuck
  have behind : (inittabParseEntry st.fp).1 ≠ .done ∧
      ((inittabParseEntry st.fp).2 = drained ∨ ∃ text, (inittabParseEntry st.fp).2 = .opened text ∧
        ¬ ClosedEnd (unterminated text)) := by
    rcases place with here | ⟨text, here, unclosed⟩
    · rw [here]
      exact ⟨by simp [inittabParseEntry, drained], .inl rfl⟩
    · rw [here]
      rcases parse_entry_found text with ⟨_, closed⟩ | ⟨more, rest, _, same, left⟩ | ⟨more, _, left⟩
      · exact absurd closed unclosed
      · exact ⟨more, .inr ⟨rest, left, by rwa [same]⟩⟩
      · exact ⟨more, .inl left⟩
  obtain ⟨next, goesOn⟩ := read_body_stays (allocated st.allocations) behind.1 (single 1)
  obtain ⟨left, _, _, counts⟩ := read_body_next goesOn
  refine ⟨next, goesOn, ?_, by rw [left]; exact behind.2⟩
  intro n
  rw [left, counts, Nat.add_assoc, ← List.countP_append]
  exact single (n + 1)

end Loop

/-- read_inittab returns exactly if an allocation fails, or a second entry for
    safe mode is accepted, or the end of the file is found in a search for a
    line. -/
theorem read_inittab_returns_iff (calloc : Nat → Bool) (text : List UInt8) :
    (∃ result, ReadsInittab calloc (some (.opened text)) result) ↔
      (∃ i, calloc i = false) ∨ SafeModeTwice text ∨ ClosedEnd (unterminated text) := by
  have returns : (∃ result, ReadsInittab calloc (some (.opened text)) result) ↔
      Finishes calloc (readStart (.opened text)) := by
    constructor
    · rintro ⟨result, last, done, _⟩
      exact ⟨last, done⟩
    · rintro ⟨last, done⟩
      exact ⟨_, last, done, rfl⟩
  rw [returns]
  constructor
  · rintro ⟨last, done⟩
    by_contra endless
    push Not at endless
    obtain ⟨allocated, once, unclosed⟩ := endless
    have stuck : Stuck (readStart (.opened text)) := by
      refine ⟨fun n => ?_, .inr ⟨text, rfl, unclosed⟩⟩
      have fewer : ¬ 2 ≤ (calls n (.opened text)).countP isSafeModeResult :=
        fun twice => once ⟨n, twice⟩
      simp only [readStart, safeModes, ↓reduceIte]
      omega
    exact never_ends Stuck (fun st => stuck_stays fun i => by simpa using allocated i) stuck last done
  · rintro (⟨i, failed⟩ | ⟨n, twice⟩ | closed)
    · exact finishes_unallocated i (by simpa [readStart] using failed)
    · exact finishes_twice n (by simpa [readStart, safeModes] using twice)
    · exact finishes_closed rfl closed

theorem calls_drained (n : Nat) : (calls n drained).countP isSafeModeResult = 0 := by
  induction n with
  | zero => rfl
  | succ n ih =>
    have call : inittabParseEntry drained = (.error, drained) := rfl
    simpa [calls, call, isSafeModeResult] using ih

def unendedFile : List UInt8 := ascii "::<safe-mode>::/bin/rescue"

/-- The entry is accepted and the end of the file has been met: from then on
    every call is an error. -/
theorem unended_file_read_for_ever :
    ¬ ∃ last, Ends (readBody fun _ => true) (readStart (.opened unendedFile)) last := by
  have clean : newline ∉ unendedFile := by decide
  have unclosed : ¬ ClosedEnd (unterminated unendedFile) := by
    rw [unterminated_clean clean, closed_short_iff (by decide)]
    decide
  have stream : (inittabParseEntry (.opened unendedFile)).2 = drained := by decide +kernel
  have single : ∀ n, (calls n (.opened unendedFile)).countP isSafeModeResult ≤ 1 := by
    intro n
    cases n with
    | zero => exact Nat.zero_le 1
    | succ n =>
      rw [calls, stream, List.countP_cons, calls_drained]
      split <;> omega
  have stuck : Stuck (readStart (.opened unendedFile)) :=
    ⟨fun n => by simpa [readStart, safeModes] using single n, .inr ⟨_, rfl, unclosed⟩⟩
  rintro ⟨last, done⟩
  exact never_ends Stuck (fun st => stuck_stays fun _ => rfl) stuck last done

end InittabEnd
