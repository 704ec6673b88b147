import UNit.InittabReading

/-!
What comments leave behind. A comment is read into the buffer of the entry that
follows it, and the lexer works on the whole buffer: a line that has too few
fields goes on behind its NUL, in the bytes of the comment. Comments are inert
exactly if they complete no such line.
-/
namespace CommentResidue
open DecimalText InittabEntries InittabLines InittabParser InittabReading Lexer StdioStream

def Comment (line : List UInt8) : Prop := line.head? = some hashMark

instance (line : List UInt8) : Decidable (Comment line) := inferInstanceAs (Decidable (_ = _))

inductive Pruned : List (List UInt8) → List (List UInt8) → Prop
  | nil : Pruned [] []
  | keep {lines kept : List (List UInt8)} (line : List UInt8) :
      Pruned lines kept → Pruned (line :: lines) (line :: kept)
  | delete {lines kept : List (List UInt8)} (line : List UInt8) :
      Comment line → Pruned lines kept → Pruned (line :: lines) kept

def PlainLine (line : List UInt8) : Prop := ShortLine line ∧ 0 ∉ line

def entryLines (lines : List (List UInt8)) : List (List UInt8) :=
  lines.filter (fun line => ¬ PassedOver line)

def ownResult (line : List UInt8) : ParseResult :=
  (inittabParseEntry (.opened (line ++ [newline]))).1

/-- No deletion of comments changes what read_inittab returns, and each entry
    line is accepted or rejected, and its fields are filled, as if it were
    alone. -/
def CommentsInert (lines : List (List UInt8)) : Prop :=
  ∀ kept, Pruned lines kept →
    (∀ calloc result, ReadsInittab calloc (some (.opened (textOf kept))) result ↔
      ReadsInittab calloc (some (.opened (textOf lines))) result) ∧
    Yields (.opened (textOf kept)) ((entryLines kept).map ownResult)

def residue (block : List (List UInt8)) : List UInt8 := block.foldl leaves zeroed

/-- A line with fewer than four ':' that becomes an entry with the bytes behind
    its NUL. -/
def Completed (buf line : List UInt8) : Prop :=
  line.count colon < 4 ∧ (entryOfBytes (storeString buf line)).isSome = true

def NoneCompleted (lines : List (List UInt8)) : Prop :=
  ∀ before block line after kept, lines = before ++ (block ++ line :: after) →
    (∀ l ∈ block, PassedOver l) → ¬ PassedOver line → Pruned block kept →
    ¬ Completed (residue kept) line

theorem comment_passed_over {line : List UInt8} (comment : Comment line) : PassedOver line := by
  left
  rw [List.headD_eq_head?_getD, comment]
  rfl

theorem pruned_refl (lines : List (List UInt8)) : Pruned lines lines := by
  induction lines with
  | nil => exact .nil
  | cons line lines ih => exact .keep line ih

theorem pruned_append {lines kept more moreKept : List (List UInt8)} (first : Pruned lines kept)
    (second : Pruned more moreKept) : Pruned (lines ++ more) (kept ++ moreKept) := by
  induction first with
  | nil => exact second
  | keep line _ ih => exact .keep line ih
  | delete line comment _ ih => exact .delete line comment ih

theorem pruned_mem {lines kept : List (List UInt8)} (pruned : Pruned lines kept)
    {line : List UInt8} (member : line ∈ kept) : line ∈ lines := by
  induction pruned with
  | nil => exact member
  | keep other _ ih =>
    rcases List.mem_cons.mp member with rfl | later
    · exact List.mem_cons_self
    · exact List.mem_cons_of_mem other (ih later)
  | delete other _ _ ih => exact List.mem_cons_of_mem other (ih member)

theorem entry_lines_skip {line : List UInt8} (skipped : PassedOver line)
    (lines : List (List UInt8)) : entryLines (line :: lines) = entryLines lines :=
  List.filter_cons_of_neg (by simpa using skipped)

theorem entry_lines_take {line : List UInt8} (entry : ¬ PassedOver line)
    (lines : List (List UInt8)) : entryLines (line :: lines) = line :: entryLines lines :=
  List.filter_cons_of_pos (by simpa using entry)

theorem pruned_entry_lines {lines kept : List (List UInt8)} (pruned : Pruned lines kept) :
    entryLines kept = entryLines lines := by
  induction pruned with
  | nil => rfl
  | keep line _ ih =>
    by_cases skipped : PassedOver line
    · rw [entry_lines_skip skipped, entry_lines_skip skipped, ih]
    · rw [entry_lines_take skipped, entry_lines_take skipped, ih]
  | delete line comment _ ih => rw [entry_lines_skip (comment_passed_over comment), ih]

theorem own_result {line : List UInt8} (short : ShortLine line) (entry : ¬ PassedOver line) :
    ownResult line = .ofEntry (entryOfBytes (storeString zeroed line)) := by
  have answer : inittabNextLine ⟨.opened (line ++ [newline]), zeroed⟩ =
      (.ok, ⟨.opened [], storeString zeroed line⟩) :=
    LoopRuns.outcome_done (body_entry short.1 zeroed short.2 entry)
  have parsed := parse_fields_eq (store_length zeroed_length short)
  simp [ownResult, inittabParseEntry, Stream.opened] at answer ⊢
  rw [answer, parseLine, parsed]

theorem first_colon (line : List UInt8) (some : 0 < line.count colon) :
    ∃ field rest, line = field ++ colon :: rest ∧ colon ∉ field ∧
      rest.count colon + 1 = line.count colon := by
  obtain ⟨field, rest, rfl, clean⟩ := List.eq_append_cons_of_mem (List.count_pos_iff.mp some)
  refine ⟨field, rest, rfl, clean, ?_⟩
  rw [List.count_append, List.count_cons_self, List.count_eq_zero.mpr clean]
  omega

theorem five_fields {line : List UInt8} (counted : 4 ≤ line.count colon) :
    ∃ f₁ f₂ f₃ f₄ f₅,
      line = f₁ ++ colon :: (f₂ ++ colon :: (f₃ ++ colon :: (f₄ ++ colon :: f₅))) ∧
      colon ∉ f₁ ∧ colon ∉ f₂ ∧ colon ∉ f₃ ∧ colon ∉ f₄ := by
  obtain ⟨f₁, rest₁, rfl, plain₁, left₁⟩ := first_colon line (by omega)
  obtain ⟨f₂, rest₂, rfl, plain₂, left₂⟩ := first_colon rest₁ (by omega)
  obtain ⟨f₃, rest₃, rfl, plain₃, left₃⟩ := first_colon rest₂ (by omega)
  obtain ⟨f₄, f₅, rfl, plain₄, _⟩ := first_colon rest₃ (by omega)
  exact ⟨f₁, f₂, f₃, f₄, f₅, rfl, plain₁, plain₂, plain₃, plain₄⟩

theorem stored_fields {f₁ f₂ f₃ f₄ f₅ : List UInt8}
    (clean : 0 ∉ f₁ ++ colon :: (f₂ ++ colon :: (f₃ ++ colon :: (f₄ ++ colon :: f₅))))
    (delimited : colon ∉ f₁ ∧ colon ∉ f₂ ∧ colon ∉ f₃ ∧ colon ∉ f₄) (buf : List UInt8) :
    entryOfBytes (storeString buf (f₁ ++ colon :: (f₂ ++ colon :: (f₃ ++ colon :: (f₄ ++
      colon :: f₅))))) = entryOfFields f₁ f₂ f₃ f₄ f₅ := by
  simp only [List.mem_append, List.mem_cons, not_or] at clean
  obtain ⟨clean₁, _, clean₂, _, clean₃, _, clean₄, _, clean₅⟩ := clean
  obtain ⟨plain₁, plain₂, plain₃, plain₄⟩ := delimited
  have decided := entry_of_complete ⟨plain₁, clean₁⟩ ⟨plain₂, clean₂⟩ ⟨plain₃, clean₃⟩
    ⟨plain₄, clean₄⟩ clean₅
  simp only [storeString, List.append_assoc, List.cons_append, decided]

theorem complete_line_alone {line : List UInt8} (clean : 0 ∉ line)
    (counted : 4 ≤ line.count colon) (buf buf' : List UInt8) :
    entryOfBytes (storeString buf line) = entryOfBytes (storeString buf' line) := by
  obtain ⟨_, _, _, _, _, rfl, delimited⟩ := five_fields counted
  rw [stored_fields clean delimited, stored_fields clean delimited]

theorem short_line_rejected {line : List UInt8} (clean : 0 ∉ line)
    (short : line.count colon < 4) (n : Nat) :
    entryOfBytes (line ++ 0 :: List.replicate n 0) = none := by
  by_contra some
  obtain ⟨e, accepted⟩ := Option.ne_none_iff_exists'.mp some
  obtain ⟨order, coreId, type, cttyPath, process, c₁, c₂, c₃, c₄, rest, whole, ends₁, ends₂, ends₃,
    ends₄, processClean, fields⟩ := entry_of_bytes_some accepted
  obtain ⟨c, more, rfl⟩ := List.exists_cons_of_ne_nil (process_needed fields)
  have some : c ≠ 0 := fun zero => processClean (by simp [zero])
  have split : line ++ 0 :: List.replicate n 0 =
      (order ++ c₁ :: (coreId ++ c₂ :: (type ++ c₃ :: (cttyPath ++ [c₄])))) ++
        c :: (more ++ 0 :: rest) := by
    rw [whole]
    simp
  rcases List.append_eq_append_iff.mp split with ⟨front, inFields, zeros⟩ | ⟨rest', inLine, _⟩
  · have member : c ∈ 0 :: List.replicate n 0 := by simp [zeros]
    rcases List.mem_cons.mp member with rfl | later
    · exact some rfl
    · exact some (List.eq_of_mem_replicate later)
  · have ends : ∀ {d : UInt8}, d = colon ∨ d = 0 → d ∈ line → d = colon := by
      rintro d (mark | rfl) member
      · exact mark
      · exact absurd member clean
    obtain rfl := ends ends₁ (by simp [inLine])
    obtain rfl := ends ends₂ (by simp [inLine])
    obtain rfl := ends ends₃ (by simp [inLine])
    obtain rfl := ends ends₄ (by simp [inLine])
    rw [inLine] at short
    simp only [List.count_append, List.count_cons_self, List.count_nil] at short
    omega

theorem own_result_iff {line : List UInt8} (plain : PlainLine line) (entry : ¬ PassedOver line)
    (buf : List UInt8) :
    .ofEntry (entryOfBytes (storeString buf line)) = ownResult line ↔ ¬ Completed buf line := by
  rw [own_result plain.1 entry]
  by_cases short : line.count colon < 4
  · have alone : entryOfBytes (storeString zeroed line) = none := by
      rw [storeString, zeroed, List.drop_replicate]
      exact short_line_rejected plain.2 short _
    rw [alone]
    cases found : entryOfBytes (storeString buf line) <;>
      simp [Completed, short, found, ParseResult.ofEntry]
  · have same := complete_line_alone plain.2 (Nat.le_of_not_lt short) buf zeroed
    simp [same, Completed, short]

theorem residue_snoc (block : List (List UInt8)) (line : List UInt8) :
    residue (block ++ [line]) = leaves (residue block) line := by
  simp [residue]

theorem none_completed_suffix (before : List (List UInt8)) {lines : List (List UInt8)}
    (none : NoneCompleted (before ++ lines)) : NoneCompleted lines := by
  rintro front block line after kept rfl
  exact none (before ++ front) block line after kept (by simp)

theorem pruned_results {lines kept : List (List UInt8)} (pruned : Pruned lines kept)
    (plain : ∀ line ∈ lines, PlainLine line) (block blockKept : List (List UInt8))
    (passed : ∀ line ∈ block, PassedOver line) (thinned : Pruned block blockKept)
    (none : NoneCompleted (block ++ lines)) :
    lineResults (residue blockKept) kept = (entryLines kept).map ownResult := by
  induction pruned generalizing block blockKept with
  | nil => rfl
  | @keep lines kept line pruned ih =>
    have behind := fun l member => plain l (List.mem_cons_of_mem line member)
    by_cases skipped : PassedOver line
    · rw [lineResults, if_pos skipped, entry_lines_skip skipped, ← residue_snoc]
      apply ih behind (block ++ [line]) (blockKept ++ [line])
      · intro l member
        rcases List.mem_append.mp member with earlier | here
        · exact passed l earlier
        · obtain rfl := List.mem_singleton.mp here
          exact skipped
      · exact pruned_append thinned (.keep line .nil)
      · simpa using none
    · have own := (own_result_iff (plain line List.mem_cons_self) skipped (residue blockKept)).mpr
        (none [] block line lines blockKept rfl passed skipped thinned)
      rw [lineResults, if_neg skipped, entry_lines_take skipped, List.map_cons, own]
      have fresh : lineResults (residue []) kept = (entryLines kept).map ownResult := by
        apply ih behind [] [] (fun _ member => absurd member List.not_mem_nil) .nil
        exact none_completed_suffix (block ++ [line]) (by simpa using none)
      exact congrArg _ fresh
  | @delete lines kept line comment pruned ih =>
    have behind := fun l member => plain l (List.mem_cons_of_mem line member)
    apply ih behind (block ++ [line]) blockKept
    · intro l member
      rcases List.mem_append.mp member with earlier | here
      · exact passed l earlier
      · obtain rfl := List.mem_singleton.mp here
        exact comment_passed_over comment
    · simpa using pruned_append thinned (.delete line comment .nil)
    · simpa using none

theorem pruned_plain {lines kept : List (List UInt8)} (pruned : Pruned lines kept)
    (plain : ∀ line ∈ lines, PlainLine line) : ∀ line ∈ kept, ShortLine line :=
  fun line member => (plain line (pruned_mem pruned member)).1

theorem inert_of_none_completed {lines : List (List UInt8)}
    (plain : ∀ line ∈ lines, PlainLine line) (none : NoneCompleted lines) :
    CommentsInert lines := by
  have results : ∀ kept, Pruned lines kept →
      lineResults zeroed kept = (entryLines kept).map ownResult := fun kept pruned =>
    pruned_results pruned plain [] [] (fun _ member => absurd member List.not_mem_nil) .nil none
  intro kept pruned
  have short := pruned_plain pruned plain
  constructor
  · intro calloc result
    have same : lineResults zeroed kept = lineResults zeroed lines := by
      rw [results kept pruned, results lines (pruned_refl lines), pruned_entry_lines pruned]
    rw [lines_read short, lines_read (pruned_plain (pruned_refl lines) plain), same]
  · rw [← results kept pruned]
    exact lines_yield short

def bufferAfter : List UInt8 → List (List UInt8) → List UInt8
  | buf, [] => buf
  | buf, line :: lines =>
    if PassedOver line then bufferAfter (leaves buf line) lines else bufferAfter zeroed lines

theorem line_results_append (buf : List UInt8) (lines more : List (List UInt8)) :
    lineResults buf (lines ++ more) =
      lineResults buf lines ++ lineResults (bufferAfter buf lines) more := by
  induction lines generalizing buf with
  | nil => rfl
  | cons line lines ih =>
    simp only [List.cons_append, lineResults, bufferAfter]
    split
    · exact ih _
    · rw [ih, List.cons_append]

theorem line_results_length (buf : List UInt8) (lines : List (List UInt8)) :
    (lineResults buf lines).length = (entryLines lines).length := by
  induction lines generalizing buf with
  | nil => rfl
  | cons line lines ih =>
    rw [lineResults]
    split
    · rename_i skipped
      rw [ih, entry_lines_skip skipped]
    · rename_i entry
      rw [entry_lines_take entry, List.length_cons, List.length_cons, ih]

theorem buffer_after_block {block : List (List UInt8)} (passed : ∀ l ∈ block, PassedOver l) :
    bufferAfter zeroed block = residue block := by
  have from_buffer : ∀ buf, bufferAfter buf block = block.foldl leaves buf := by
    induction block with
    | nil => exact fun _ => rfl
    | cons line block ih =>
      intro buf
      rw [bufferAfter, if_pos (passed line List.mem_cons_self)]
      exact ih (fun l member => passed l (List.mem_cons_of_mem line member)) _
  exact from_buffer zeroed

def bare (lines : List (List UInt8)) : List (List UInt8) := lines.filter (fun line => ¬ Comment line)

theorem pruned_bare (lines : List (List UInt8)) : Pruned lines (bare lines) := by
  induction lines with
  | nil => exact .nil
  | cons line lines ih =>
    by_cases comment : Comment line
    · rw [bare, List.filter_cons_of_neg (by simpa using comment)]
      exact .delete line comment ih
    · rw [bare, List.filter_cons_of_pos (by simpa using comment)]
      exact .keep line ih

theorem bare_leaves_nothing {lines : List (List UInt8)} (plain : ∀ line ∈ lines, PlainLine line) :
    bufferAfter zeroed (bare lines) = zeroed := by
  induction lines with
  | nil => rfl
  | cons line lines ih =>
    have later := ih fun l member => plain l (List.mem_cons_of_mem line member)
    by_cases comment : Comment line
    · rw [bare, List.filter_cons_of_neg (by simpa using comment)]
      exact later
    · rw [bare, List.filter_cons_of_pos (by simpa using comment), bufferAfter]
      split
      · rename_i skipped
        have empty : line = [] := by
          cases line with
          | nil => rfl
          | cons c rest =>
            rcases skipped with mark | nul
            · exact absurd (congrArg some mark) comment
            · have clean := (plain (c :: rest) List.mem_cons_self).2
              exact absurd (List.mem_cons.mpr (.inl nul.symm)) clean
        rw [empty, leaves, if_pos rfl]
        exact later
      · exact later

theorem passed_over_results {block : List (List UInt8)} (passed : ∀ l ∈ block, PassedOver l)
    (buf : List UInt8) : lineResults buf block = [] ∧ entryLines block = [] := by
  have none : entryLines block = [] := by
    apply List.filter_eq_nil_iff.mpr
    intro line member
    simpa using passed line member
  exact ⟨List.eq_nil_of_length_eq_zero (by rw [line_results_length, none]; rfl), none⟩

theorem none_completed_of_inert {lines : List (List UInt8)}
    (plain : ∀ line ∈ lines, PlainLine line) (inert : CommentsInert lines) :
    NoneCompleted lines := by
  rintro before block line after kept rfl passed entry thinned
  have pruned : Pruned (before ++ (block ++ line :: after)) (bare before ++ (kept ++ line :: after)) :=
    pruned_append (pruned_bare before) (pruned_append thinned (pruned_refl _))
  have passedKept : ∀ l ∈ kept, PassedOver l := fun l member => passed l (pruned_mem thinned member)
  have fresh : bufferAfter zeroed (bare before) = zeroed :=
    bare_leaves_nothing fun l member => plain l (List.mem_append_left _ member)
  have results := yields_unique (lines_yield (pruned_plain pruned plain)) (inert _ pruned).2
  have none := passed_over_results passedKept zeroed
  have lined : entryLines (bare before ++ (kept ++ line :: after)) =
      entryLines (bare before) ++ line :: entryLines after := by
    rw [← entry_lines_take entry, ← List.nil_append (entryLines (line :: after)), ← none.2]
    simp only [entryLines, List.filter_append]
  rw [line_results_append, fresh, line_results_append, buffer_after_block passedKept, none.1,
    lineResults, if_neg entry, lined, List.map_append, List.nil_append] at results
  have counted : (lineResults zeroed (bare before)).length =
      ((entryLines (bare before)).map ownResult).length := by
    rw [line_results_length, List.length_map]
  have own := (List.cons.inj (List.append_inj results counted).2).1
  exact (own_result_iff (plain line (by simp)) entry (residue kept)).mp own

/-- Comments are inert exactly if no choice of the comments in front of an
    entry line completes it. -/
theorem comments_inert_iff (lines : List (List UInt8)) (plain : ∀ line ∈ lines, PlainLine line) :
    CommentsInert lines ↔ NoneCompleted lines :=
  ⟨none_completed_of_inert plain, inert_of_none_completed plain⟩

theorem none_completed_of_complete {lines : List (List UInt8)}
    (complete : ∀ line ∈ lines, PassedOver line ∨ 4 ≤ line.count colon) : NoneCompleted lines := by
  rintro before block line after kept rfl _ entry _ ⟨short, _⟩
  rcases complete line (by simp) with skipped | enough
  · exact entry skipped
  · omega

theorem comments_inert_before_complete_lines :
    CommentsInert [ascii "# xxx<one-shot>::/bin/sh", ascii "1:2:<service>::/bin/getty", [],
      ascii "::<safe-mode>::/bin/rescue"] :=
  (comments_inert_iff _ (by unfold PlainLine ShortLine; decide)).mpr
    (none_completed_of_complete (by decide))

def trickyLines : List (List UInt8) :=
  [ascii "#xxx<one-shot>::/bin/sh", ascii "1:2", ascii "::<safe-mode>::/bin/rescue"]

def trickyTable : Inittab :=
  ⟨[⟨ascii "/bin/sh", [], 1, 2, .oneShot⟩], [], some ⟨ascii "/bin/rescue", [], -1, -1, .safeMode⟩⟩

/-- The comment completes the line "1:2" to an entry; without the comment the
    line is an error and read_inittab fails. -/
theorem comment_completes_entry :
    Pruned trickyLines trickyLines.tail ∧
    ReadsInittab (fun _ => true) (some (.opened (textOf trickyLines))) (some trickyTable) ∧
    ReadsInittab (fun _ => true) (some (.opened (textOf trickyLines.tail))) none ∧
    ¬ CommentsInert trickyLines := by
  have short : ∀ line ∈ trickyLines, ShortLine line := by
    unfold ShortLine
    decide
  have pruned : Pruned trickyLines trickyLines.tail := .delete _ rfl (pruned_refl _)
  have accepted : some trickyTable = tally (fun _ => true) (lineResults zeroed trickyLines)
      ⟨[], [], none⟩ false 0 := by decide +kernel
  have rejected : ReadsInittab (fun _ => true) (some (.opened (textOf trickyLines.tail))) none :=
    (lines_read (fun line member => short line (List.mem_of_mem_tail member)) none).mpr
      (by decide +kernel)
  refine ⟨pruned, (lines_read short _).mpr accepted, rejected, ?_⟩
  intro inert
  have failed := ((inert _ pruned).1 (fun _ => true) none).mp rejected
  rw [lines_read short none, ← accepted] at failed
  exact absurd failed (Option.some_ne_none trickyTable).symm

end CommentResidue
