import UNit.CommentResidue

/-!
The grammar of inittab entries. A line is an entry exactly when it splits at
its first four ':' into an order, a core, a type tag, a controlling terminal
and a process. A field that is missing is noticed only behind the terminator of
the line, where the zeroed buffer makes all fields blank.
-/
namespace InittabGrammar
open LoopRuns DecimalText Lexer StdioStream InittabEntries InittabLines InittabParser
open CommentResidue InittabReading

def Numeral (field : List UInt8) (n : Int) : Prop :=
  ∃ blanks sign digits, field = blanks ++ (sign ++ digits) ∧
    (∀ c ∈ blanks, isSpace c = true) ∧ (sign = [] ∨ sign = [43] ∨ sign = [45]) ∧
    digits ≠ [] ∧ (∀ c ∈ digits, isDigit c = true) ∧
    n = if sign = [45] then -(valueFrom 0 digits : Int) else valueFrom 0 digits

/-- An empty number field stands for -1. -/
def NumberField (field : List UInt8) (n : Int) : Prop :=
  (field = [] ∧ n = -1) ∨ (Numeral field n ∧ 0 ≤ n ∧ n ≤ 2 ^ 31 - 1)

/-- The line splits at its first four ':' into f₁, f₂, f₃ and the last two
    fields of this entry. -/
structure Splits (line f₁ f₂ f₃ : List UInt8) (e : InittabEntry) : Prop where
  whole : line = f₁ ++ colon :: (f₂ ++ colon :: (f₃ ++ colon :: (e.cttyPath ++
    colon :: e.processName)))
  delimited : colon ∉ f₁ ∧ colon ∉ f₂ ∧ colon ∉ f₃ ∧ colon ∉ e.cttyPath

def Grammar (line : List UInt8) (e : InittabEntry) : Prop :=
  ∃ f₁ f₂ f₃, Splits line f₁ f₂ f₃ e ∧ NumberField f₁ e.order ∧ NumberField f₂ e.coreId ∧
    f₃ = typeTag e.type ∧ (f₁ = [] → e.type = .safeMode) ∧ e.cttyPath.length ≤ 255 ∧
    e.processName ≠ []

theorem numeral_start {sign digits : List UInt8} (signs : sign = [] ∨ sign = [43] ∨ sign = [45])
    (some : digits ≠ []) (all : ∀ c ∈ digits, isDigit c = true) :
    (sign ++ digits).dropWhile isSpace = sign ++ digits ∧
      takeSign (sign ++ digits) = (decide (sign = [45]), digits) := by
  obtain ⟨c, rest, rfl⟩ := List.exists_cons_of_ne_nil some
  have first := all c List.mem_cons_self
  rcases signs with rfl | rfl | rfl
  · have unsigned : c ≠ 45 ∧ c ≠ 43 := by
      constructor <;> (rintro rfl; simp [isDigit] at first)
    constructor
    · rw [List.nil_append, List.dropWhile_cons_of_neg (by simp [digit_not_space first])]
    · simp [takeSign, unsigned.1, unsigned.2]
  · exact ⟨List.dropWhile_cons_of_neg (by decide), by simp [takeSign]⟩
  · exact ⟨List.dropWhile_cons_of_neg (by decide), by simp [takeSign]⟩

theorem strtol_numeral {field : List UInt8} {n : Int} (numeral : Numeral field n)
    (low : longMin ≤ n) (high : n ≤ longMax) : strtol field = ⟨n, [], false⟩ := by
  obtain ⟨blanks, sign, digits, rfl, blank, signs, some, all, value⟩ := numeral
  obtain ⟨start, signed⟩ := numeral_start signs some all
  have trimmed : (blanks ++ (sign ++ digits)).dropWhile isSpace = sign ++ digits := by
    rw [List.dropWhile_append_of_pos blank, start]
  have taken : digits.takeWhile isDigit = digits := List.takeWhile_eq_self_iff.mpr all
  have left : digits.dropWhile isDigit = [] := List.dropWhile_eq_nil_iff.mpr all
  simp only [strtol, trimmed, signed, taken, left, some, ↓reduceIte, decide_eq_true_eq, ← value]
  rw [if_neg (Int.not_lt.mpr high), if_neg (Int.not_lt.mpr low)]

theorem take_sign_split (rest : List UInt8) : ∃ sign : List UInt8,
    (sign = [] ∨ sign = [43] ∨ sign = [45]) ∧ rest = sign ++ (takeSign rest).2 ∧
      ((takeSign rest).1 = true ↔ sign = [45]) := by
  cases rest with
  | nil => exact ⟨[], by simp [takeSign]⟩
  | cons c rest =>
    by_cases minus : c = 45
    · exact ⟨[45], by simp [takeSign, minus]⟩
    · by_cases plus : c = 43
      · exact ⟨[43], by simp [takeSign, plus]⟩
      · exact ⟨[], by simp [takeSign, minus, plus]⟩

theorem numeral_of_strtol {field : List UInt8} (some : field ≠ [])
    (complete : (strtol field).endPtr = []) (fits : (strtol field).erange = false) :
    Numeral field (strtol field).value := by
  have whole := List.takeWhile_append_dropWhile (p := isSpace) (l := field)
  obtain ⟨sign, signs, split, negative⟩ := take_sign_split (field.dropWhile isSpace)
  simp only [strtol] at complete fits ⊢
  generalize takeSign (field.dropWhile isSpace) = signed at complete fits split negative ⊢
  by_cases nothing : signed.2.takeWhile isDigit = []
  · rw [if_pos nothing] at complete
    exact absurd complete some
  · rw [if_neg nothing] at complete fits ⊢
    generalize value : (if signed.1 = true then -(valueFrom 0 (signed.2.takeWhile isDigit) : Int)
      else valueFrom 0 (signed.2.takeWhile isDigit)) = v at complete fits ⊢
    have digits : signed.2.dropWhile isDigit = [] := by
      split at complete
      · exact complete
      · split at complete <;> exact complete
    have all := List.takeWhile_append_dropWhile (p := isDigit) (l := signed.2)
    rw [digits, List.append_nil] at all
    refine ⟨field.takeWhile isSpace, sign, signed.2, by rw [← split, whole],
      fun c member => List.mem_takeWhile_imp member, signs, all ▸ nothing,
      fun c member => List.mem_takeWhile_imp (all.symm ▸ member), ?_⟩
    rw [all] at value
    split at fits
    · simp at fits
    · rename_i high
      split at fits
      · simp at fits
      · rename_i low
        rw [if_neg high, if_neg low, ← value]
        simp only [negative]

theorem number_of_iff (field : List UInt8) (n : Int) :
    numberOf field = some n ↔ NumberField field n := by
  by_cases empty : field = []
  · have noNumeral : ¬ Numeral [] n := by
      rintro ⟨blanks, sign, digits, split, _, _, some, _, _⟩
      simp only [List.nil_eq, List.append_eq_nil_iff] at split
      exact some split.2.2
    subst empty
    simp [numberOf, NumberField, noNumeral, eq_comm]
  · simp only [numberOf, NumberField, empty, false_and, false_or, ↓reduceIte]
    constructor
    · intro found
      cases converted : safeStrtoi32 field with
      | none => simp [converted] at found
      | some m =>
        simp only [converted] at found
        split at found
        · simp at found
        · rename_i low
          obtain rfl := Option.some.inj found
          simp only [safeStrtoi32] at converted
          split at converted
          · simp at converted
          · rename_i fine
            simp only [not_or, Classical.not_not, Bool.not_eq_true] at fine
            obtain ⟨⟨fits, complete⟩, high, _⟩ := fine
            have value : (strtol field).value = m := Option.some.inj converted
            have numeral := numeral_of_strtol empty complete fits
            rw [value] at numeral high
            exact ⟨numeral, Int.not_lt.mp low, by simpa [int32Max] using high⟩
    · rintro ⟨numeral, low, high⟩
      have converted := strtol_numeral numeral (by simp only [longMin]; omega)
        (by simp only [longMax]; omega)
      have inRange : ¬ (n > int32Max ∨ n < int32Min) := by
        simp only [int32Max, int32Min]
        omega
      simp [safeStrtoi32, converted, inRange, Int.not_lt.mpr low]

theorem type_of_iff (field : List UInt8) (type : EntryType) :
    typeOfField field = some type ↔ field = typeTag type := by
  constructor
  · intro found
    simp only [typeOfField] at found
    split at found
    · simp at found
    · simp only [typeOf] at found
      repeat' split at found
      all_goals first
        | (obtain rfl := Option.some.inj found; assumption)
        | simp at found
  · rintro rfl
    cases type <;> decide +kernel

theorem number_field_blank {field : List UInt8} {n : Int} (number : NumberField field n) :
    n = -1 ↔ field = [] := by
  rcases number with ⟨rfl, rfl⟩ | ⟨numeral, low, _⟩
  · simp
  · obtain ⟨blanks, sign, digits, rfl, _, _, some, _, _⟩ := numeral
    constructor
    · intro minus
      omega
    · intro nothing
      exact absurd (List.append_eq_nil_iff.mp (List.append_eq_nil_iff.mp nothing).2).2 some

theorem ctty_path_of_iff (field path : List UInt8) :
    cttyPathOf field = some path ↔ field.length ≤ 255 ∧ field = path := by
  have bound : field.length < cttyPathSize ↔ field.length ≤ 255 := by
    simp only [cttyPathSize]
    omega
  simp [cttyPathOf, bound]

theorem process_of_iff (field process : List UInt8) :
    processOf field = some process ↔
      (field ≠ [] ∧ field.length < processNameSize) ∧ field = process := by
  simp [processOf]

theorem entry_of_fields_iff (f₁ f₂ f₃ f₄ f₅ : List UInt8) (e : InittabEntry) :
    entryOfFields f₁ f₂ f₃ f₄ f₅ = some e ↔
      NumberField f₁ e.order ∧ NumberField f₂ e.coreId ∧ f₃ = typeTag e.type ∧
      (f₁ = [] → e.type = .safeMode) ∧ (f₄.length ≤ 255 ∧ f₄ = e.cttyPath) ∧
      (f₅ ≠ [] ∧ f₅.length < processNameSize) ∧ f₅ = e.processName := by
  constructor
  · intro found
    simp only [entryOfFields, Option.bind_eq_bind, Option.bind_eq_some_iff] at found
    obtain ⟨order, isOrder, coreId, isCore, type, isType, found⟩ := found
    split at found
    · simp at found
    · rename_i placed
      obtain ⟨path, isPath, found⟩ := Option.bind_eq_some_iff.mp found
      obtain ⟨process, isProcess, made⟩ := Option.bind_eq_some_iff.mp found
      obtain rfl := Option.some.inj made
      have number := (number_of_iff f₁ order).mp isOrder
      refine ⟨number, (number_of_iff f₂ coreId).mp isCore, (type_of_iff f₃ type).mp isType, ?_,
        (ctty_path_of_iff f₄ path).mp isPath, (process_of_iff f₅ process).mp isProcess⟩
      intro blank
      by_contra other
      exact placed ⟨(number_field_blank number).mpr blank, other⟩
  · rintro ⟨number, core, tag, blank, path, process⟩
    have placed : ¬ (e.order = -1 ∧ e.type ≠ .safeMode) := by
      rintro ⟨minus, other⟩
      exact other (blank ((number_field_blank number).mp minus))
    simp only [entryOfFields, (number_of_iff f₁ _).mpr number, (number_of_iff f₂ _).mpr core,
      (type_of_iff f₃ _).mpr tag, (ctty_path_of_iff f₄ _).mpr path,
      (process_of_iff f₅ _).mpr process, Option.bind_eq_bind, Option.bind_some, placed, ↓reduceIte]

theorem entry_of_line {line : List UInt8} (clean : 0 ∉ line) (fits : line.length ≤ lineSize)
    (e : InittabEntry) :
    entryOfBytes (storeString zeroed line) = some e ↔ Grammar line e := by
  constructor
  · intro accepted
    have counted : 4 ≤ line.count colon := by
      by_contra short
      have rejected : entryOfBytes (storeString zeroed line) = none := by
        rw [storeString, zeroed, List.drop_replicate]
        exact short_line_rejected clean (by omega) _
      simp [rejected] at accepted
    obtain ⟨f₁, f₂, f₃, f₄, f₅, rfl, delimited⟩ := five_fields counted
    rw [stored_fields clean delimited, entry_of_fields_iff] at accepted
    obtain ⟨order, core, tag, blank, ⟨path, rfl⟩, ⟨process, _⟩, rfl⟩ := accepted
    exact ⟨f₁, f₂, f₃, ⟨rfl, delimited⟩, order, core, tag, blank, path, process⟩
  · rintro ⟨f₁, f₂, f₃, ⟨rfl, delimited⟩, order, core, tag, blank, path, process⟩
    have room : e.processName.length < processNameSize := by
      simp only [List.length_append, List.length_cons, lineSize] at fits
      simp only [processNameSize]
      omega
    rw [stored_fields clean delimited, entry_of_fields_iff]
    exact ⟨order, core, tag, blank, ⟨path, rfl⟩, ⟨process, room⟩, rfl⟩

def BeginsWith (content line : List UInt8) : Prop :=
  content = line ∨ ∃ rest, content = line ++ newline :: rest

/-- The first line of a file is accepted exactly when it is in the grammar, as
    the entry that the grammar says, and is an error otherwise. -/
theorem parse_entry_grammar (line content : List UInt8)
    (length : 1 ≤ line.length ∧ line.length ≤ 4095) (clean : 0 ∉ line ∧ newline ∉ line)
    (entry : line.head? ≠ some hashMark) (first : BeginsWith content line) :
    (∀ e, (inittabParseEntry (.opened content)).1 = .ok e ↔ Grammar line e) ∧
    ((∀ e, ¬ Grammar line e) → (inittabParseEntry (.opened content)).1 = .error) := by
  have notPassed : ¬ PassedOver line := by
    obtain ⟨c, rest, rfl⟩ := List.exists_cons_of_length_pos length.1
    rintro (comment | nul)
    · exact entry (congrArg some comment)
    · exact clean.1 (by simpa using Or.inl (Eq.symm nul))
  have answer : ∃ s, inittabNextLine ⟨.opened content, zeroed⟩ =
      (.ok, ⟨s, storeString zeroed line⟩) := by
    rcases first with rfl | ⟨rest, rfl⟩
    · exact ⟨drained, outcome_done (body_last_entry clean.2 zeroed length.2 notPassed)⟩
    · exact ⟨.opened rest, outcome_done (body_entry clean.2 zeroed length.2 notPassed)⟩
  have parsed : (inittabParseEntry (.opened content)).1 =
      .ofEntry (entryOfBytes (storeString zeroed line)) := by
    obtain ⟨s, answer⟩ := answer
    rw [← parse_fields_eq (store_length zeroed_length ⟨clean.2, length.2⟩)]
    simp only [inittabParseEntry, Stream.opened, Bool.false_eq_true, ↓reduceIte] at answer ⊢
    rw [answer, parseLine]
  have accepted := entry_of_line clean.1 length.2
  rw [parsed]
  cases found : entryOfBytes (storeString zeroed line) with
  | none =>
    simp only [found, reduceCtorEq, false_iff] at accepted
    simp [ParseResult.ofEntry, accepted]
  | some e =>
    simp only [found, Option.some.injEq] at accepted
    refine ⟨?_, fun none => absurd ((accepted e).mp rfl) (none e)⟩
    intro other
    simp [ParseResult.ofEntry, accepted]

theorem parse_entry_grammar_for_service :
    (inittabParseEntry (.opened (ascii " +7::<service>:/dev/tty1:/bin/sh -c a:b\n#"))).1 =
      .ok ⟨ascii "/bin/sh -c a:b", ascii "/dev/tty1", 7, -1, .service⟩ := by
  refine ((parse_entry_grammar (ascii " +7::<service>:/dev/tty1:/bin/sh -c a:b")
    (ascii " +7::<service>:/dev/tty1:/bin/sh -c a:b\n#") (by decide +kernel) (by decide +kernel)
    (by decide +kernel) (.inr ⟨ascii "#", by decide +kernel⟩)).1 _).mpr ?_
  refine ⟨ascii " +7", [], ascii "<service>", ⟨by decide +kernel, by decide +kernel⟩, .inr ?_,
    .inl ⟨rfl, rfl⟩, rfl, by decide +kernel, by decide +kernel, by decide +kernel⟩
  exact ⟨⟨[32], [43], [55], by decide +kernel⟩, by decide, by decide⟩

end InittabGrammar
