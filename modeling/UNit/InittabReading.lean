import UNit.InittabParser

/-!
What the loop of read_inittab makes of a file: it depends on the results of the
calls of inittab_parse_entry only. The accepted entries are filed as the stable
sort of each kind, so that a table that is read can be booted from. For a file
of lines that end with a newline the results are known line by line, with the
bytes the lines before have left in the buffer.
-/
namespace InittabReading
open InittabEntries InittabLines InittabParser LoopRuns StableSort StdioStream

theorem add_behind_eq {current entry : InittabEntry} (rest : List InittabEntry)
    (behind : current.order ≤ entry.order) :
    addBehind entry (current :: rest) =
      insertBehind InittabEntry.order entry (current :: rest) := by
  induction rest generalizing current with
  | nil => simp [addBehind, insertBehind, behind]
  | cons next rest ih =>
    by_cases further : next.order ≤ entry.order
    · rw [addBehind, if_pos further, ih further]
      simp [insertBehind, behind]
    · simp [addBehind, insertBehind, behind, further]

theorem add_entry_eq (list : List InittabEntry) (entry : InittabEntry) :
    addEntryToList list entry = insertBehind InittabEntry.order entry list := by
  cases list with
  | nil => rfl
  | cons first rest =>
    by_cases greater : first.order > entry.order
    · simp [addEntryToList, insertBehind, greater, not_le.mpr greater]
    · rw [addEntryToList, if_neg greater]
      exact add_behind_eq rest (not_lt.mp greater)

def isSafeModeEntry (entry : InittabEntry) : Bool := entry.type == .safeMode

def tableOf (entries : List InittabEntry) : Inittab where
  startupList := stableSort InittabEntry.order (entries.filter isStartupEntry)
  shutdownList := stableSort InittabEntry.order (entries.filter isShutdownEntry)
  safeModeEntry := (entries.filter isSafeModeEntry).head?

theorem table_of_nil : tableOf [] = ⟨[], [], none⟩ := by
  simp [tableOf, stableSort]

theorem place_entry_of (entries : List InittabEntry) (entry : InittabEntry) :
    placeEntry entry (tableOf entries) =
      if entry.type = .safeMode ∧ entries.filter isSafeModeEntry ≠ [] then none
      else some (tableOf (entries ++ [entry])) := by
  cases type : entry.type
  case safeMode =>
    cases safe : entries.filter isSafeModeEntry <;>
      simp [placeEntry, type, tableOf, safe, List.filter_append, isStartupEntry, isShutdownEntry,
        isSafeModeEntry]
  all_goals
    simp [placeEntry, type, tableOf, add_entry_eq, List.filter_append, isStartupEntry,
      isShutdownEntry, isSafeModeEntry, stable_sort_snoc]

def Filed (table : Inittab) : Prop :=
  ∃ entries, table = tableOf entries ∧ (entries.filter isSafeModeEntry).length ≤ 1

theorem single_kept {entries : List InittabEntry} {entry : InittabEntry}
    (single : (entries.filter isSafeModeEntry).length ≤ 1)
    (free : ¬ (entry.type = .safeMode ∧ entries.filter isSafeModeEntry ≠ [])) :
    ((entries ++ [entry]).filter isSafeModeEntry).length ≤ 1 := by
  by_cases safe : entry.type = .safeMode
  · have none : entries.filter isSafeModeEntry = [] := by
      by_contra some
      exact free ⟨safe, some⟩
    simp [List.filter_append, none, isSafeModeEntry, safe]
  · simpa [List.filter_append, isSafeModeEntry, safe] using single

theorem place_entry_filed {entry : InittabEntry} {table table' : Inittab} (filed : Filed table)
    (placed : placeEntry entry table = some table') : Filed table' := by
  obtain ⟨entries, rfl, single⟩ := filed
  rw [place_entry_of] at placed
  split at placed
  · simp at placed
  · rename_i free
    obtain rfl := Option.some.inj placed
    exact ⟨entries ++ [entry], rfl, single_kept single free⟩

theorem read_body_filed {calloc : Nat → Bool} {st : ReadState} (filed : Filed st.table) :
    (∀ next, readBody calloc st = .inl next → Filed next.table) ∧
      ∀ last, readBody calloc st = .inr last → Filed last.table := by
  simp only [readBody]
  split
  · split
    · split
      · rename_i placed
        refine ⟨fun next goesOn => ?_, fun last left => by simp at left⟩
        obtain rfl := Sum.inl.inj goesOn
        exact place_entry_filed filed placed
      · refine ⟨fun next goesOn => by simp at goesOn, fun last left => ?_⟩
        obtain rfl := Sum.inr.inj left
        exact filed
    · refine ⟨fun next goesOn => ?_, fun last left => by simp at left⟩
      obtain rfl := Sum.inl.inj goesOn
      exact filed
    · refine ⟨fun next goesOn => by simp at goesOn, fun last left => ?_⟩
      obtain rfl := Sum.inr.inj left
      exact filed
  · refine ⟨fun next goesOn => by simp at goesOn, fun last left => ?_⟩
    obtain rfl := Sum.inr.inj left
    exact filed

theorem read_filed {calloc : Nat → Bool} {file : Option Stream} {table : Inittab}
    (read : ReadsInittab calloc file (some table)) : Filed table ∧ table.safeModeEntry ≠ none := by
  cases file with
  | none => simp [ReadsInittab] at read
  | some fp =>
    obtain ⟨st, done, concluded⟩ := read
    have empty : Filed (readStart fp).table := ⟨[], table_of_nil.symm, Nat.zero_le 1⟩
    have filed : Filed st.table := ends_rule (fun st => Filed st.table) (fun st => Filed st.table)
      (fun s next holds => (read_body_filed holds).1 next)
      (fun s last holds => (read_body_filed holds).2 last) empty done
    simp only [conclude] at concluded
    split at concluded
    · simp at concluded
    · rename_i good
      obtain rfl := Option.some.inj concluded
      exact ⟨filed, fun none => good (.inl none)⟩

theorem read_inittab_boots {calloc : Nat → Bool} {file : Option Stream} {table : Inittab}
    (read : ReadsInittab calloc file (some table)) :
    ∃ boot : BootTable, boot.startupList = table.startupList ∧
      boot.shutdownList = table.shutdownList ∧ some boot.safeModeEntry = table.safeModeEntry := by
  obtain ⟨⟨entries, rfl, single⟩, present⟩ := read_filed read
  obtain ⟨safe, found⟩ := Option.ne_none_iff_exists'.mp present
  have kind : safe ∈ entries.filter isSafeModeEntry := List.mem_of_head? found
  have sorted : ∀ (kinds : InittabEntry → Bool), ∀ e ∈ stableSort InittabEntry.order
      (entries.filter kinds), kinds e = true := fun kinds e member =>
    (List.mem_filter.mp ((List.mergeSort_perm _ _).mem_iff.mp member)).2
  refine ⟨⟨_, _, safe, sorted isStartupEntry, sorted isShutdownEntry, ?_,
    stable_sort_ascending _, stable_sort_ascending _⟩, rfl, rfl, found.symm⟩
  simpa [isSafeModeEntry] using (List.mem_filter.mp kind).2

/-- Successive calls of inittab_parse_entry give these results and then
    RESULT_DONE. -/
inductive Yields : Stream → List ParseResult → Prop
  | done {fp : Stream} : (inittabParseEntry fp).1 = .done → Yields fp []
  | next {fp : Stream} {results : List ParseResult} : (inittabParseEntry fp).1 ≠ .done →
      Yields (inittabParseEntry fp).2 results → Yields fp ((inittabParseEntry fp).1 :: results)

theorem yields_unique {fp : Stream} {results others : List ParseResult} (one : Yields fp results)
    (two : Yields fp others) : results = others := by
  induction one generalizing others with
  | done done =>
    cases two with
    | done _ => rfl
    | next more _ => exact absurd done more
  | next more _ ih =>
    cases two with
    | done done => exact absurd done more
    | next _ later => rw [ih later]

/-- What read_inittab makes of such results from a table, an error flag and a
    number of allocations on. -/
def tally (calloc : Nat → Bool) : List ParseResult → Inittab → Bool → Nat → Option Inittab
  | [], table, error, n =>
    if calloc n = false ∨ table.safeModeEntry = none ∨ error = true then none else some table
  | .ok entry :: results, table, error, n =>
    if calloc n then
      match placeEntry entry table with
      | some table => tally calloc results table error (n + 1)
      | none => none
    else none
  | .error :: results, table, _, n =>
    if calloc n then tally calloc results table true (n + 1) else none
  | .done :: _, table, error, n =>
    if calloc n = false ∨ table.safeModeEntry = none ∨ error = true then none else some table

theorem concludes_left {calloc : Nat → Bool} {st last : ReadState}
    (left : readBody calloc st = .inr last) (result : Option Inittab) :
    Concludes calloc st result ↔ result = conclude last := by
  constructor
  · rintro ⟨other, done, rfl⟩
    rw [(ends_done_iff left other).mp done]
  · rintro rfl
    exact ⟨last, ends_done left, rfl⟩

theorem concludes_next {calloc : Nat → Bool} {st next : ReadState}
    (goesOn : readBody calloc st = .inl next) (result : Option Inittab) :
    Concludes calloc st result ↔ Concludes calloc next result := by
  simp only [Concludes, ends_next_iff goesOn]

theorem concludes_unallocated {calloc : Nat → Bool} {st : ReadState}
    (failed : calloc st.allocations = false) (result : Option Inittab) :
    Concludes calloc st result ↔ result = none := by
  have left : readBody calloc st = .inr { st with error := true } := by simp [readBody, failed]
  rw [concludes_left left]
  simp [conclude]

theorem yields_tally {calloc : Nat → Bool} {fp : Stream} {results : List ParseResult}
    (yields : Yields fp results) (table : Inittab) (error : Bool) (n : Nat)
    (result : Option Inittab) :
    Concludes calloc ⟨fp, table, error, n⟩ result ↔
      result = tally calloc results table error n := by
  induction yields generalizing table error n with
  | @done fp done =>
    cases allocated : calloc n with
    | false =>
      rw [concludes_unallocated allocated]
      simp [tally, allocated]
    | true =>
      have left : readBody calloc ⟨fp, table, error, n⟩ =
          .inr ⟨(inittabParseEntry fp).2, table, error, n + 1⟩ := by
        simp [readBody, allocated, done]
      rw [concludes_left left]
      simp [tally, conclude, allocated]
  | @next fp results more later ih =>
    cases allocated : calloc n with
    | false =>
      rw [concludes_unallocated allocated]
      cases (inittabParseEntry fp).1 <;> simp [tally, allocated]
    | true =>
      cases parsed : (inittabParseEntry fp).1 with
      | done => exact absurd parsed more
      | error =>
        have goesOn : readBody calloc ⟨fp, table, error, n⟩ =
            .inl ⟨(inittabParseEntry fp).2, table, true, n + 1⟩ := by
          simp [readBody, allocated, parsed]
        rw [concludes_next goesOn, ih]
        simp [tally, allocated]
      | ok entry =>
        cases placed : placeEntry entry table with
        | none =>
          have left : readBody calloc ⟨fp, table, error, n⟩ =
              .inr ⟨(inittabParseEntry fp).2, table, true, n + 1⟩ := by
            simp [readBody, allocated, parsed, placed]
          rw [concludes_left left]
          simp [tally, conclude, allocated, placed]
        | some table' =>
          have goesOn : readBody calloc ⟨fp, table, error, n⟩ =
              .inl ⟨(inittabParseEntry fp).2, table', error, n + 1⟩ := by
            simp [readBody, allocated, parsed, placed]
          rw [concludes_next goesOn, ih]
          simp [tally, allocated, placed]

/-- Entries that are all accepted are filed in the order of the file, up to a
    second one for safe mode. -/
theorem tally_accepted {calloc : Nat → Bool} (allocated : ∀ i, calloc i = true)
    (entries : List InittabEntry) (filed : List InittabEntry) (n : Nat)
    (single : (filed.filter isSafeModeEntry).length ≤ 1) :
    tally calloc (entries.map .ok) (tableOf filed) false n =
      if ((filed ++ entries).filter isSafeModeEntry).length = 1 then some (tableOf (filed ++ entries))
      else none := by
  induction entries generalizing filed n with
  | nil =>
    simp only [List.map_nil, List.append_nil, tally, allocated, tableOf]
    cases safe : filed.filter isSafeModeEntry with
    | nil => simp
    | cons e more =>
      have last : more = [] := by simpa [safe] using single
      simp [last]
  | cons entry entries ih =>
    simp only [List.map_cons, tally, allocated, ↓reduceIte, place_entry_of]
    by_cases second : entry.type = .safeMode ∧ filed.filter isSafeModeEntry ≠ []
    · have first := List.length_pos_iff.mpr second.2
      have isSafe : isSafeModeEntry entry = true := by simp [isSafeModeEntry, second.1]
      have many : ((filed ++ entry :: entries).filter isSafeModeEntry).length ≠ 1 := by
        simp only [List.filter_append, List.filter_cons, isSafe, ↓reduceIte, List.length_append,
          List.length_cons]
        omega
      rw [if_pos second, if_neg many]
    · have still := single_kept single second
      have whole : filed ++ entry :: entries = (filed ++ [entry]) ++ entries := by simp
      rw [if_neg second, whole]
      exact ih (filed ++ [entry]) (n + 1) still

def textOf (lines : List (List UInt8)) : List UInt8 := lines.flatMap (fun line => line ++ [newline])

def ShortLine (line : List UInt8) : Prop := newline ∉ line ∧ line.length ≤ lineSize

def lineResults : List UInt8 → List (List UInt8) → List ParseResult
  | _, [] => []
  | buf, line :: lines =>
    if PassedOver line then lineResults (leaves buf line) lines
    else .ofEntry (entryOfBytes (storeString buf line)) :: lineResults zeroed lines

theorem zeroed_passed_over : PassedOver zeroed := .inr (by rfl)

theorem zeroed_length : zeroed.length = bufferLen := List.length_replicate

theorem store_length {buf line : List UInt8} (whole : buf.length = bufferLen)
    (short : ShortLine line) : (storeString buf line).length = bufferLen := by
  have fits := short.2
  simp only [storeString, List.length_append, List.length_cons, List.length_drop, whole, bufferLen]
  omega

theorem leaves_length {buf line : List UInt8} (whole : buf.length = bufferLen)
    (short : ShortLine line) : (leaves buf line).length = bufferLen := by
  unfold leaves
  split
  · exact whole
  · exact store_length whole short

def YieldsFrom (st : Reading) (results : List ParseResult) : Prop :=
  let answer := parseLine (inittabNextLine st)
  (answer.1 = .done ∧ results = []) ∨
    ∃ later, answer.1 ≠ .done ∧ Yields answer.2 later ∧ results = answer.1 :: later

theorem yields_from {fp : Stream} {results : List ParseResult} (unread : fp.eof = false)
    (pending : YieldsFrom ⟨fp, zeroed⟩ results) : Yields fp results := by
  have call : inittabParseEntry fp = parseLine (inittabNextLine ⟨fp, zeroed⟩) := by
    simp [inittabParseEntry, unread]
  simp only [YieldsFrom, ← call] at pending
  rcases pending with ⟨done, rfl⟩ | ⟨later, more, yields, rfl⟩
  · exact .done done
  · exact .next more yields

theorem of_entry_ne_done (entry : Option InittabEntry) : ParseResult.ofEntry entry ≠ .done := by
  cases entry <;> simp [ParseResult.ofEntry]

theorem lines_yield_from {lines : List (List UInt8)} (short : ∀ line ∈ lines, ShortLine line)
    {buf : List UInt8} (quiet : PassedOver buf) (whole : buf.length = bufferLen) :
    YieldsFrom ⟨.opened (textOf lines), buf⟩ (lineResults buf lines) := by
  induction lines generalizing buf with
  | nil =>
    have ended : inittabNextLine ⟨.opened [], buf⟩ = (.eof, ⟨drained, buf⟩) :=
      outcome_done (body_at_end buf rfl rfl)
    refine .inl ⟨?_, rfl⟩
    simp [textOf, ended, parseLine]
  | cons line lines ih =>
    have here := short line List.mem_cons_self
    have behind := fun l member => short l (List.mem_cons_of_mem line member)
    have text : textOf (line :: lines) = line ++ newline :: textOf lines := by simp [textOf]
    rw [text]
    by_cases skipped : PassedOver line
    · have goesOn : inittabNextLine ⟨.opened (line ++ newline :: textOf lines), buf⟩ =
          inittabNextLine ⟨.opened (textOf lines), leaves buf line⟩ :=
        outcome_next (body_passes_over here.1 quiet here.2 skipped)
      rw [YieldsFrom, goesOn, lineResults, if_pos skipped]
      exact ih behind (leaves_passed_over quiet skipped) (leaves_length whole here)
    · have answer : inittabNextLine ⟨.opened (line ++ newline :: textOf lines), buf⟩ =
          (.ok, ⟨.opened (textOf lines), storeString buf line⟩) :=
        outcome_done (body_entry here.1 buf here.2 skipped)
      have parsed := parse_fields_eq (store_length whole here)
      rw [YieldsFrom, answer, lineResults, if_neg skipped]
      refine .inr ⟨lineResults zeroed lines, of_entry_ne_done _, ?_, ?_⟩
      · exact yields_from rfl (ih behind zeroed_passed_over zeroed_length)
      · rw [parseLine, parsed]

theorem lines_yield {lines : List (List UInt8)} (short : ∀ line ∈ lines, ShortLine line) :
    Yields (.opened (textOf lines)) (lineResults zeroed lines) :=
  yields_from rfl (lines_yield_from short zeroed_passed_over zeroed_length)

/-- read_inittab on a file of such lines returns, with one result. -/
theorem lines_read {calloc : Nat → Bool} {lines : List (List UInt8)}
    (short : ∀ line ∈ lines, ShortLine line) (result : Option Inittab) :
    ReadsInittab calloc (some (.opened (textOf lines))) result ↔
      result = tally calloc (lineResults zeroed lines) ⟨[], [], none⟩ false 0 :=
  yields_tally (lines_yield short) _ _ _ result

end InittabReading
