import UNit.LoopRuns
import UNit.StdioStream

/-!
Reading the lines of an inittab. Comments and empty lines are passed over
inside one call, and all of them are read into the buffer the entry goes into:
a line ends with its NUL there, and behind it stands what longer lines before
it have left. An empty line leaves the buffer alone, so that its first byte is
still the one of the comment before it.
-/
namespace InittabLines
open LoopRuns StdioStream

def lineSize : Nat := 4095
def bufferLen : Nat := lineSize + 1
def newline : UInt8 := 10
def hashMark : UInt8 := 35

inductive NextLineResult where
  | ok
  | tooBig
  | eof
  | error
  deriving DecidableEq, Repr

def scanLine (s : Stream) : Scanned × Stream := fscanfUntil newline lineSize s

/-- What fscanf stores: the bytes of the item and a NUL, or nothing. -/
def storeString (buf bytes : List UInt8) : List UInt8 :=
  bytes ++ 0 :: buf.drop (bytes.length + 1)

def store (buf : List UInt8) : Scanned → List UInt8
  | .item bytes => storeString buf bytes
  | .eof => buf
  | .mismatch => buf

/-- discard_line: the loop ends with the line or with the file. -/
def discardBody (s : Stream) : Stream ⊕ Stream :=
  let c := fgetc (scanLine s).2
  if c.1 = some newline ∨ c.1 = none then .inr c.2 else .inl c.2

theorem discard_shrinks (s next : Stream) (goesOn : discardBody s = .inl next) :
    next.rest.length < s.rest.length := by
  simp only [discardBody] at goesOn
  split at goesOn
  · simp at goesOn
  · rename_i inside
    push Not at inside
    obtain ⟨c, read⟩ := Option.ne_none_iff_exists'.mp inside.2
    have less := fgetc_shrinks read
    have whole : (scanLine s).2.rest.length ≤ s.rest.length := scan_rest_le s
    obtain rfl := Sum.inl.inj goesOn
    omega

def discardLine (s : Stream) : Stream :=
  outcome discardBody (fun s => s.rest.length) discard_shrinks s

structure Reading where
  stream : Stream
  buf : List UInt8
  deriving DecidableEq, Repr

def nextLineBody (st : Reading) : Reading ⊕ (NextLineResult × Reading) :=
  let scanned := scanLine st.stream
  let buf := store st.buf scanned.1
  let c := fgetc scanned.2
  let ended := c.1 = some newline ∨ c.1 = none
  if scanned.1 = .eof then .inr (if c.2.eof then .eof else .error, ⟨c.2, buf⟩)
  else if buf.headD 0 = hashMark ∧ ended then .inl ⟨c.2, buf⟩
  else if buf.headD 0 = 0 then .inl ⟨c.2, buf⟩
  else if ¬ ended then .inr (.tooBig, ⟨discardLine c.2, buf⟩)
  else .inr (.ok, ⟨c.2, buf⟩)

theorem next_line_shrinks (st next : Reading) (goesOn : nextLineBody st = .inl next) :
    next.stream.rest.length < st.stream.rest.length := by
  simp only [nextLineBody] at goesOn
  split at goesOn
  · simp at goesOn
  · rename_i more
    have less := scan_fgetc_shrinks st.stream more
    split at goesOn
    · obtain rfl := Sum.inl.inj goesOn
      exact less
    · split at goesOn
      · obtain rfl := Sum.inl.inj goesOn
        exact less
      · split at goesOn <;> simp at goesOn

def inittabNextLine (st : Reading) : NextLineResult × Reading :=
  outcome nextLineBody (fun st => st.stream.rest.length) next_line_shrinks st

def drained : Stream := ⟨[], true, false⟩

/-- A line that is passed over: a comment, an empty line or one that starts
    with a NUL. -/
def PassedOver (line : List UInt8) : Prop := line.headD 0 = hashMark ∨ line.headD 0 = 0

instance (line : List UInt8) : Decidable (PassedOver line) :=
  inferInstanceAs (Decidable (_ ∨ _))

def leaves (buf line : List UInt8) : List UInt8 := if line = [] then buf else storeString buf line

theorem store_head {line : List UInt8} (nonempty : line ≠ []) (buf : List UInt8) :
    (storeString buf line).headD 0 = line.headD 0 := by
  cases line with
  | nil => exact absurd rfl nonempty
  | cons _ _ => rfl

theorem leaves_passed_over {buf line : List UInt8} (quiet : PassedOver buf)
    (skipped : PassedOver line) : PassedOver (leaves buf line) := by
  unfold leaves
  split
  · exact quiet
  · rename_i nonempty
    simpa only [PassedOver, store_head nonempty buf] using skipped

theorem not_passed_over_nonempty {line : List UInt8} (entry : ¬ PassedOver line) : line ≠ [] := by
  rintro rfl
  simp [PassedOver] at entry

theorem full_nonempty {line : List UInt8} (full : line.length = lineSize) : line ≠ [] := by
  rintro rfl
  simp [lineSize] at full

section Lines
variable {line rest : List UInt8} {c : UInt8} (clean : newline ∉ line)
include clean

theorem scan_terminated (nonempty : line ≠ []) (fits : line.length ≤ lineSize) :
    scanLine (.opened (line ++ newline :: rest)) = (.item line, .opened (newline :: rest)) := by
  have scanned := scan_item (s := Stream.opened (line ++ newline :: rest)) rfl clean nonempty fits
    (.inr (.inl rfl))
  simpa [scanLine, Stream.opened] using scanned

theorem scan_unterminated (nonempty : line ≠ []) (fits : line.length ≤ lineSize) :
    (scanLine (.opened line)).1 = .item line ∧
      fgetc (scanLine (.opened line)).2 = (none, drained) := by
  have whole : (Stream.opened line).rest = line ++ [] := by simp [Stream.opened]
  have scanned := scan_item whole clean nonempty fits (.inl rfl)
  rw [scanLine, scanned]
  refine ⟨rfl, ?_⟩
  by_cases short : line.length < lineSize <;>
    simp [short, fgetc, Stream.exhausted, Stream.opened, drained]

theorem scan_full (full : line.length = lineSize) :
    scanLine (.opened (line ++ c :: rest)) = (.item line, .opened (c :: rest)) := by
  have nonempty := full_nonempty full
  have scanned := scan_item (s := Stream.opened (line ++ c :: rest)) rfl clean nonempty
    (Nat.le_of_eq full) (.inr (.inr full))
  simpa [scanLine, Stream.opened] using scanned

theorem body_passes_over {buf : List UInt8} (quiet : PassedOver buf)
    (fits : line.length ≤ lineSize) (skipped : PassedOver line) :
    nextLineBody ⟨.opened (line ++ newline :: rest), buf⟩ =
      .inl ⟨.opened rest, leaves buf line⟩ := by
  by_cases empty : line = []
  · subst empty
    have scanned : scanLine (.opened ([] ++ newline :: rest)) =
        (.mismatch, .opened (newline :: rest)) := scan_at_stop _ rest rfl
    simp only [nextLineBody, scanned, store, leaves, fgetc_opened]
    rcases quiet with first | first <;> simp only [first] <;> simp [hashMark]
  · have scanned : scanLine (.opened (line ++ newline :: rest)) = _ :=
      scan_terminated clean empty fits
    have first := store_head empty buf
    rcases skipped with comment | nul
    · simp [-List.headD_eq_head?_getD, nextLineBody, scanned, fgetc_opened, store, first, comment,
        leaves, empty]
    · simp [-List.headD_eq_head?_getD, nextLineBody, scanned, fgetc_opened, store, first, nul,
        leaves, empty, hashMark]

theorem body_entry (buf : List UInt8) (fits : line.length ≤ lineSize)
    (entry : ¬ PassedOver line) :
    nextLineBody ⟨.opened (line ++ newline :: rest), buf⟩ =
      .inr (.ok, ⟨.opened rest, storeString buf line⟩) := by
  have nonempty := not_passed_over_nonempty entry
  have scanned : scanLine (.opened (line ++ newline :: rest)) = _ :=
    scan_terminated clean nonempty fits
  have first := store_head nonempty buf
  simp only [PassedOver, not_or] at entry
  simp [-List.headD_eq_head?_getD, nextLineBody, scanned, fgetc_opened, store, first, entry.1,
    entry.2]

theorem body_last_passed_over (buf : List UInt8) (nonempty : line ≠ [])
    (fits : line.length ≤ lineSize) (skipped : PassedOver line) :
    nextLineBody ⟨.opened line, buf⟩ = .inl ⟨drained, storeString buf line⟩ := by
  obtain ⟨scanned, last⟩ := scan_unterminated clean nonempty fits
  have first := store_head nonempty buf
  rcases skipped with comment | nul
  · simp [-List.headD_eq_head?_getD, nextLineBody, scanned, last, store, first, comment]
  · simp [-List.headD_eq_head?_getD, nextLineBody, scanned, last, store, first, nul, hashMark]

theorem body_last_entry (buf : List UInt8) (fits : line.length ≤ lineSize)
    (entry : ¬ PassedOver line) :
    nextLineBody ⟨.opened line, buf⟩ = .inr (.ok, ⟨drained, storeString buf line⟩) := by
  have nonempty := not_passed_over_nonempty entry
  obtain ⟨scanned, last⟩ := scan_unterminated clean nonempty fits
  have first := store_head nonempty buf
  simp only [PassedOver, not_or] at entry
  simp [-List.headD_eq_head?_getD, nextLineBody, scanned, last, store, first, entry.1, entry.2]

theorem body_long_nul (buf : List UInt8) (full : line.length = lineSize)
    (nul : line.headD 0 = 0) :
    nextLineBody ⟨.opened (line ++ c :: rest), buf⟩ =
      .inl ⟨.opened rest, storeString buf line⟩ := by
  have nonempty := full_nonempty full
  have scanned : scanLine (.opened (line ++ c :: rest)) = _ := scan_full clean full
  have first := store_head nonempty buf
  simp [-List.headD_eq_head?_getD, nextLineBody, scanned, fgetc_opened, store, first, nul, hashMark]

theorem body_too_big (buf : List UInt8) (full : line.length = lineSize) (inside : c ≠ newline)
    (some : line.headD 0 ≠ 0) :
    nextLineBody ⟨.opened (line ++ c :: rest), buf⟩ =
      .inr (.tooBig, ⟨discardLine (.opened rest), storeString buf line⟩) := by
  have nonempty := full_nonempty full
  have scanned : scanLine (.opened (line ++ c :: rest)) = _ := scan_full clean full
  have first := store_head nonempty buf
  simp [-List.headD_eq_head?_getD, nextLineBody, scanned, fgetc_opened, store, first, inside, some]

end Lines

theorem body_at_end (buf : List UInt8) {s : Stream} (empty : s.rest = [])
    (whole : s.broken = false) : nextLineBody ⟨s, buf⟩ = .inr (.eof, ⟨drained, buf⟩) := by
  have scanned : scanLine s = (.eof, s.exhausted) := scan_at_end empty
  simp [-List.headD_eq_head?_getD, nextLineBody, scanned, store, fgetc, Stream.exhausted, empty,
    whole, drained]

theorem long_line_split {line : List UInt8} (long : lineSize < line.length)
    (clean : newline ∉ line) :
    ∃ chunk c more, line = chunk ++ c :: more ∧ chunk.length = lineSize ∧ newline ∉ chunk ∧
      c ≠ newline ∧ newline ∉ more := by
  have whole := List.take_append_drop lineSize line
  have counted : (line.take lineSize).length = lineSize := by
    rw [List.length_take]
    omega
  cases behind : line.drop lineSize with
  | nil =>
    have := List.drop_eq_nil_iff.mp behind
    omega
  | cons c more =>
    rw [behind] at whole
    rw [← whole] at clean
    simp only [List.mem_append, List.mem_cons, not_or] at clean
    exact ⟨_, c, more, whole.symm, counted, clean.1, Ne.symm clean.2.1, clean.2.2⟩

theorem discard_body_full {line rest : List UInt8} {c : UInt8} (clean : newline ∉ line)
    (full : line.length = lineSize) (inside : c ≠ newline) :
    discardBody (.opened (line ++ c :: rest)) = .inl (.opened rest) := by
  simp [discardBody, scan_full clean full, fgetc_opened, inside]

theorem discard_body_terminated {line rest : List UInt8} (clean : newline ∉ line)
    (fits : line.length ≤ lineSize) :
    discardBody (.opened (line ++ newline :: rest)) = .inr (.opened rest) := by
  by_cases empty : line = []
  · subst empty
    have scanned : scanLine (.opened ([] ++ newline :: rest)) =
        (.mismatch, .opened (newline :: rest)) := scan_at_stop _ rest rfl
    simp only [discardBody, scanned, fgetc_opened]
    simp
  · simp [discardBody, scan_terminated clean empty fits, fgetc_opened]

theorem discard_body_unterminated {line : List UInt8} (clean : newline ∉ line)
    (fits : line.length ≤ lineSize) : discardBody (.opened line) = .inr drained := by
  by_cases empty : line = []
  · subst empty
    have scanned : scanLine (.opened []) = (.eof, drained) := scan_at_end rfl
    simp [discardBody, scanned, fgetc, drained, Stream.exhausted]
  · simp [discardBody, scan_unterminated clean empty fits]

theorem discard_pieces {tail : List UInt8} {final : Stream}
    (last : ∀ line : List UInt8, newline ∉ line → line.length ≤ lineSize →
      discardBody (.opened (line ++ tail)) = .inr final)
    {line : List UInt8} (clean : newline ∉ line) :
    discardLine (.opened (line ++ tail)) = final := by
  induction counted : line.length using Nat.strong_induction_on generalizing line with
  | h n ih =>
    by_cases fits : line.length ≤ lineSize
    · exact outcome_done (last line clean fits)
    · obtain ⟨chunk, c, more, rfl, full, chunk_clean, inside, more_clean⟩ :=
        long_line_split (Nat.lt_of_not_le fits) clean
      have shorter : more.length < n := by
        simp only [List.length_append, List.length_cons] at counted
        omega
      rw [List.append_assoc, List.cons_append]
      exact (outcome_next (discard_body_full chunk_clean full inside)).trans
        (ih more.length shorter more_clean rfl)

theorem discard_terminated {line rest : List UInt8} (clean : newline ∉ line) :
    discardLine (.opened (line ++ newline :: rest)) = .opened rest :=
  discard_pieces (fun _ clean fits => discard_body_terminated clean fits) clean

theorem discard_unterminated {line : List UInt8} (clean : newline ∉ line) :
    discardLine (.opened line) = drained := by
  have pieces : discardLine (.opened (line ++ [])) = drained := by
    apply discard_pieces _ clean
    intro piece clean fits
    rw [List.append_nil]
    exact discard_body_unterminated clean fits
  rwa [List.append_nil] at pieces

end InittabLines
