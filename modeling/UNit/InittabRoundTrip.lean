import UNit.InittabReading

/-!
Every well-formed inittab is read back. The line of an entry has all its five
fields, so nothing of what comments have left in the buffer is looked at.
-/
namespace InittabRoundTrip
open DecimalText InittabEntries InittabLines InittabParser InittabReading Lexer StableSort StdioStream

def writtenNumber (n : Int) : List UInt8 := if n = -1 then [] else decimal n.toNat

def writtenLine (e : InittabEntry) : List UInt8 :=
  writtenNumber e.order ++ colon :: (writtenNumber e.coreId ++ colon :: (typeTag e.type ++
    colon :: (e.cttyPath ++ colon :: e.processName)))

def Number (n : Int) : Prop := 0 ≤ n ∧ n ≤ int32Max

instance (n : Int) : Decidable (Number n) := inferInstanceAs (Decidable (_ ∧ _))

structure Writable (e : InittabEntry) : Prop where
  order : Number e.order ∨ e.order = -1 ∧ e.type = .safeMode
  coreId : Number e.coreId ∨ e.coreId = -1
  cttyPath_fits : e.cttyPath.length ≤ 255
  cttyPath_plain : colon ∉ e.cttyPath
  process_some : e.processName ≠ []
  no_nul : 0 ∉ e.cttyPath ∧ 0 ∉ e.processName
  no_newline : newline ∉ e.cttyPath ∧ newline ∉ e.processName
  line_fits : (writtenLine e).length ≤ lineSize

inductive FileLine where
  | entry (e : InittabEntry) (writable : Writable e)
  | comment (text : List UInt8) (clean : newline ∉ text) (fits : text.length < lineSize)
  | empty

def FileLine.bytes : FileLine → List UInt8
  | .entry e _ => writtenLine e
  | .comment text _ _ => hashMark :: text
  | .empty => []

def entriesOf : List FileLine → List InittabEntry
  | [] => []
  | .entry e _ :: file => e :: entriesOf file
  | .comment _ _ _ :: file => entriesOf file
  | .empty :: file => entriesOf file

theorem digit_plain {c : UInt8} (digit : isDigit c = true) :
    c ≠ colon ∧ c ≠ 0 ∧ c ≠ newline ∧ c ≠ hashMark := by
  refine ⟨?_, ?_, ?_, ?_⟩ <;> (rintro rfl; revert digit; decide)

theorem written_number_plain {n : Int} {c : UInt8} (plain : ∀ d, isDigit d = true → d ≠ c) :
    c ∉ writtenNumber n := by
  unfold writtenNumber
  split
  · exact List.not_mem_nil
  · exact fun member => plain c (decimal_digits c member) rfl

theorem type_tag_plain (type : EntryType) :
    colon ∉ typeTag type ∧ 0 ∉ typeTag type ∧ newline ∉ typeTag type := by
  cases type <;> decide

theorem type_of_tag (type : EntryType) : typeOfField (typeTag type) = some type := by
  cases type <;> decide

theorem number_of_written {n : Int} (number : Number n ∨ n = -1) :
    numberOf (writtenNumber n) = some n := by
  by_cases blank : n = -1
  · subst blank
    rfl
  · obtain ⟨positive, small⟩ := number.resolve_right blank
    have value : ((n.toNat : Nat) : Int) = n := Int.toNat_of_nonneg positive
    have fits : ((n.toNat : Nat) : Int) ≤ longMax := by
      simp only [int32Max, longMax] at small ⊢
      omega
    have inRange : ¬ (n > int32Max ∨ n < int32Min) := by
      simp only [int32Max, int32Min] at small ⊢
      omega
    simp only [numberOf, writtenNumber, if_neg blank, decimal_ne_nil, ↓reduceIte, safeStrtoi32,
      strtol_decimal fits, value, inRange]
    simp [positive]

theorem written_number_fields (n : Int) : Plain (writtenNumber n) :=
  ⟨written_number_plain fun _ digit => (digit_plain digit).1,
    written_number_plain fun _ digit => (digit_plain digit).2.1⟩

theorem written_fields {e : InittabEntry} (writable : Writable e) :
    entryOfFields (writtenNumber e.order) (writtenNumber e.coreId) (typeTag e.type) e.cttyPath
      e.processName = some e := by
  have order := number_of_written (writable.order.imp_right And.left)
  have coreId := number_of_written writable.coreId
  have short : e.cttyPath.length < cttyPathSize := by
    have fits := writable.cttyPath_fits
    simp only [cttyPathSize]
    omega
  have process : e.processName ≠ [] ∧ e.processName.length < processNameSize := by
    refine ⟨writable.process_some, ?_⟩
    have fits := writable.line_fits
    simp only [writtenLine, List.length_append, List.length_cons, lineSize] at fits
    simp only [processNameSize]
    omega
  have placed : ¬ (e.order = -1 ∧ e.type ≠ .safeMode) := by
    rintro ⟨blank, other⟩
    rcases writable.order with number | ⟨_, safe⟩
    · exact absurd number.1 (by omega)
    · exact other safe
  simp only [entryOfFields, order, coreId, type_of_tag, Option.bind_eq_bind, Option.bind_some,
    placed, ↓reduceIte, cttyPathOf, short, processOf, process, ne_eq, not_false_eq_true, and_self]

theorem written_entry {e : InittabEntry} (writable : Writable e) (left : List UInt8) :
    entryOfBytes (writtenLine e ++ 0 :: left) = some e := by
  have type := type_tag_plain e.type
  simp only [writtenLine, List.append_assoc, List.cons_append]
  rw [entry_of_complete (written_number_fields e.order) (written_number_fields e.coreId)
    ⟨type.1, type.2.1⟩ ⟨writable.cttyPath_plain, writable.no_nul.1⟩ writable.no_nul.2 left]
  exact written_fields writable

theorem written_line_short {e : InittabEntry} (writable : Writable e) :
    ShortLine (writtenLine e) := by
  refine ⟨?_, writable.line_fits⟩
  have number : ∀ n, newline ∉ writtenNumber n := fun n =>
    written_number_plain fun _ digit => (digit_plain digit).2.2.1
  have mark : newline ≠ colon := by decide
  simp only [writtenLine, List.mem_append, List.mem_cons, not_or]
  exact ⟨number _, mark, number _, mark, (type_tag_plain e.type).2.2, mark,
    writable.no_newline.1, mark, writable.no_newline.2⟩

theorem written_line_entry (e : InittabEntry) : ¬ PassedOver (writtenLine e) := by
  have first : ∀ rest, ¬ PassedOver (writtenNumber e.order ++ colon :: rest) := by
    intro rest
    cases number : writtenNumber e.order with
    | nil => simp [PassedOver, colon, hashMark]
    | cons c digits =>
      have marks : ∀ d, (∀ b, isDigit b = true → b ≠ d) → c ≠ d := by
        rintro d plain rfl
        have absent : c ∉ writtenNumber e.order := written_number_plain plain
        simp [number] at absent
      have some : c ≠ 0 := marks 0 fun _ digit => (digit_plain digit).2.1
      have other : c ≠ hashMark := marks hashMark fun _ digit => (digit_plain digit).2.2.2
      simp [PassedOver, some, other]
  exact first _

theorem file_lines_short (file : List FileLine) :
    ∀ line ∈ file.map FileLine.bytes, ShortLine line := by
  intro line member
  obtain ⟨fileLine, _, rfl⟩ := List.mem_map.mp member
  cases fileLine with
  | entry e writable => exact written_line_short writable
  | comment text clean fits =>
    refine ⟨?_, fits⟩
    simp only [FileLine.bytes, List.mem_cons, not_or]
    exact ⟨by decide, clean⟩
  | empty => exact ⟨List.not_mem_nil, Nat.zero_le _⟩

theorem file_results (file : List FileLine) (buf : List UInt8) :
    lineResults buf (file.map FileLine.bytes) = (entriesOf file).map .ok := by
  induction file generalizing buf with
  | nil => rfl
  | cons line file ih =>
    cases line with
    | entry e writable =>
      rw [List.map_cons, FileLine.bytes, lineResults, if_neg (written_line_entry e), storeString,
        written_entry writable, ih]
      rfl
    | comment text clean fits =>
      rw [List.map_cons, lineResults, if_pos (.inl rfl), ih]
      rfl
    | empty =>
      rw [List.map_cons, lineResults, if_pos (.inr rfl), ih]
      rfl

/-- read_inittab returns on every well-formed inittab. It returns true if there
    is exactly one entry for safe mode, and the table holds the entries. -/
theorem read_inittab_round_trip (calloc : Nat → Bool) (allocated : ∀ i, calloc i = true)
    (file : List FileLine) :
    ∃ result, (∀ other, ReadsInittab calloc
        (some (.opened (textOf (file.map FileLine.bytes)))) other ↔ other = result) ∧
      (result.isSome = true ↔ ((entriesOf file).filter isSafeModeEntry).length = 1) ∧
      ∀ table, result = some table →
        table.startupList =
          stableSort InittabEntry.order ((entriesOf file).filter isStartupEntry) ∧
        table.shutdownList =
          stableSort InittabEntry.order ((entriesOf file).filter isShutdownEntry) ∧
        ∃ safe, table.safeModeEntry = some safe ∧
          (entriesOf file).filter isSafeModeEntry = [safe] := by
  have tallied := tally_accepted allocated (entriesOf file) [] 0 (Nat.zero_le 1)
  rw [table_of_nil, List.nil_append] at tallied
  refine ⟨_, fun other => lines_read (file_lines_short file) other, ?_, ?_⟩
  · rw [file_results, tallied]
    split <;> simp_all
  · intro table read
    rw [file_results, tallied] at read
    split at read
    · rename_i single
      obtain rfl := Option.some.inj read
      obtain ⟨safe, only⟩ := List.length_eq_one_iff.mp single
      exact ⟨rfl, rfl, safe, by simp [tableOf, only], only⟩
    · simp at read

def shellEntry : InittabEntry := ⟨ascii "/bin/sh -l", ascii "/dev/tty1", 1, -1, .service⟩
def rescueEntry : InittabEntry := ⟨ascii "/bin/rescue <proc>", [], -1, 0, .safeMode⟩

theorem shell_writable : Writable shellEntry := by
  constructor <;> decide

theorem rescue_writable : Writable rescueEntry := by
  constructor <;> decide

def sampleFile : List FileLine :=
  [.comment (ascii " boot") (by decide) (by decide), .entry shellEntry shell_writable, .empty,
    .entry rescueEntry rescue_writable]

theorem sample_inittab_read :
    sampleFile.map FileLine.bytes = [ascii "# boot", ascii "1::<service>:/dev/tty1:/bin/sh -l", [],
      ascii ":0:<safe-mode>::/bin/rescue <proc>"] ∧
    ReadsInittab (fun _ => true) (some (.opened (textOf (sampleFile.map FileLine.bytes))))
      (some ⟨[shellEntry], [], some rescueEntry⟩) := by
  obtain ⟨result, read, success, filed⟩ :=
    read_inittab_round_trip (fun _ => true) (fun _ => rfl) sampleFile
  obtain ⟨table, rfl⟩ := Option.isSome_iff_exists.mp (success.mpr (by decide))
  obtain ⟨startup, shutdown, safe, taken, only⟩ := filed table rfl
  have isSafe : safe = rescueEntry := by
    have alone : (entriesOf sampleFile).filter isSafeModeEntry = [rescueEntry] := by decide
    rw [alone] at only
    exact (List.cons.inj only).1.symm
  have started : (entriesOf sampleFile).filter isStartupEntry = [shellEntry] := by decide
  have stopped : (entriesOf sampleFile).filter isShutdownEntry = [] := by decide
  refine ⟨by decide, (read _).mpr ?_⟩
  obtain ⟨startupList, shutdownList, safeModeEntry⟩ := table
  simp only [started, stableSort, List.mergeSort_singleton] at startup
  simp only [stopped, stableSort, List.mergeSort_nil] at shutdown
  simp only [isSafe] at taken
  rw [startup, shutdown, taken]

end InittabRoundTrip
