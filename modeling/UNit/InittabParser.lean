import UNit.DecimalText
import UNit.InittabEntries
import UNit.InittabLines
import UNit.Lexer
import UNit.StableSort

/-!
Parsing the inittab: one entry from one line, and the loop of read_inittab over
the whole file. The lexer is given the whole buffer, not the length of the
line. An error of an entry does not end the loop; calloc is an input, asked
once for each entry. What is only logged is left out.
-/
namespace InittabParser
open DecimalText InittabEntries InittabLines Lexer LoopRuns StdioStream

def colon : UInt8 := 58
def int32Max : Int := 2 ^ 31 - 1
def int32Min : Int := -2 ^ 31
def cttyPathSize : Nat := 256
def processNameSize : Nat := 4096

def safeStrtoi32 (s : List UInt8) : Option Int :=
  let l := strtol s
  if (l.erange = true ∨ l.endPtr ≠ []) ∨ (l.value > int32Max ∨ l.value < int32Min) then none
  else some l.value

def typeTag : EntryType → List UInt8
  | .oneShot => ascii "<one-shot>"
  | .safeOneShot => ascii "<safe-one-shot>"
  | .service => ascii "<service>"
  | .safeService => ascii "<safe-service>"
  | .shutdown => ascii "<shutdown>"
  | .safeShutdown => ascii "<safe-shutdown>"
  | .safeMode => ascii "<safe-mode>"

def typeOf (tag : List UInt8) : Option EntryType :=
  if tag = typeTag .oneShot then some .oneShot
  else if tag = typeTag .safeOneShot then some .safeOneShot
  else if tag = typeTag .service then some .service
  else if tag = typeTag .safeService then some .safeService
  else if tag = typeTag .shutdown then some .shutdown
  else if tag = typeTag .safeShutdown then some .safeShutdown
  else if tag = typeTag .safeMode then some .safeMode
  else none

/-- The fields order and core_id: -1 when blank, a number that is not negative
    otherwise. -/
def numberField (lexer : LexerData) : Option (Int × LexerData) :=
  match nextToken lexer colon false false with
  | (.blank, _, lexer) => some (-1, lexer)
  | (.tokenEnd, _, _) => none
  | (_, token, lexer) =>
    match safeStrtoi32 (cString lexer.buf (token.getD 0)) with
    | none => none
    | some n => if n < 0 then none else some (n, lexer)

def typeField (lexer : LexerData) : Option (EntryType × LexerData) :=
  match nextToken lexer colon false false with
  | (.ok, token, lexer) =>
    match typeOf (cString lexer.buf (token.getD 0)) with
    | none => none
    | some type => some (type, lexer)
  | _ => none

def cttyPathField (lexer : LexerData) : Option (List UInt8 × LexerData) :=
  match nextToken lexer colon false false with
  | (.ok, token, lexer) =>
    let path := cString lexer.buf (token.getD 0)
    if path.length < cttyPathSize then some (path, lexer) else none
  | (.blank, _, lexer) => some ([], lexer)
  | _ => none

def processField (lexer : LexerData) : Option (List UInt8 × LexerData) :=
  match nextToken lexer 0 false false with
  | (.ok, token, lexer) =>
    let process := cString lexer.buf (token.getD 0)
    if process.length < processNameSize then some (process, lexer) else none
  | _ => none

def parseFields (buf : List UInt8) : Option InittabEntry := do
  let (order, lexer) ← numberField (initLexer buf bufferLen)
  let (coreId, lexer) ← numberField lexer
  let (type, lexer) ← typeField lexer
  if order = -1 ∧ type ≠ .safeMode then none
  else
    let (cttyPath, lexer) ← cttyPathField lexer
    let (processName, _) ← processField lexer
    some ⟨processName, cttyPath, order, coreId, type⟩

inductive ParseResult where
  | ok (entry : InittabEntry)
  | error
  | done
  deriving DecidableEq, Repr

def ParseResult.ofEntry : Option InittabEntry → ParseResult
  | none => .error
  | some entry => .ok entry

def zeroed : List UInt8 := List.replicate bufferLen 0

def parseLine : NextLineResult × Reading → ParseResult × Stream
  | (.tooBig, st) => (.error, st.stream)
  | (.error, st) => (.error, st.stream)
  | (.eof, st) => (.done, st.stream)
  | (.ok, st) => (.ofEntry (parseFields st.buf), st.stream)

/-- The file is open; an end of file that an earlier call has met is an error. -/
def inittabParseEntry (fp : Stream) : ParseResult × Stream :=
  if fp.eof then (.error, fp) else parseLine (inittabNextLine ⟨fp, zeroed⟩)

def addBehind (entry : InittabEntry) : List InittabEntry → List InittabEntry
  | [] => [entry]
  | [current] => [current, entry]
  | current :: next :: rest =>
    if next.order ≤ entry.order then current :: addBehind entry (next :: rest)
    else current :: entry :: next :: rest

def addEntryToList (list : List InittabEntry) (entry : InittabEntry) : List InittabEntry :=
  match list with
  | [] => [entry]
  | first :: rest =>
    if first.order > entry.order then entry :: first :: rest else addBehind entry (first :: rest)

structure Inittab where
  startupList : List InittabEntry
  shutdownList : List InittabEntry
  safeModeEntry : Option InittabEntry
  deriving DecidableEq, Repr

/-- None where place_entry returns false. -/
def placeEntry (entry : InittabEntry) (table : Inittab) : Option Inittab :=
  match entry.type with
  | .oneShot | .safeOneShot | .service | .safeService =>
    some { table with startupList := addEntryToList table.startupList entry }
  | .shutdown | .safeShutdown =>
    some { table with shutdownList := addEntryToList table.shutdownList entry }
  | .safeMode =>
    match table.safeModeEntry with
    | some _ => none
    | none => some { table with safeModeEntry := some entry }

structure ReadState where
  fp : Stream
  table : Inittab
  error : Bool
  allocations : Nat
  deriving DecidableEq, Repr

def readBody (calloc : Nat → Bool) (st : ReadState) : ReadState ⊕ ReadState :=
  if calloc st.allocations then
    let parsed := inittabParseEntry st.fp
    let st := { st with fp := parsed.2, allocations := st.allocations + 1 }
    match parsed.1 with
    | .ok entry =>
      match placeEntry entry st.table with
      | some table => .inl { st with table := table }
      | none => .inr { st with error := true }
    | .error => .inl { st with error := true }
    | .done => .inr st
  else .inr { st with error := true }

def readStart (fp : Stream) : ReadState := ⟨fp, ⟨[], [], none⟩, false, 0⟩

/-- What comes behind the loop: none where read_inittab returns false; it has
    freed its lists then. -/
def conclude (st : ReadState) : Option Inittab :=
  if st.table.safeModeEntry = none ∨ st.error = true then none else some st.table

def Concludes (calloc : Nat → Bool) (st : ReadState) (result : Option Inittab) : Prop :=
  ∃ last, Ends (readBody calloc) st last ∧ conclude last = result

/-- A call of read_inittab returns with this result. The file is none if it
    cannot be opened. -/
def ReadsInittab (calloc : Nat → Bool) (file : Option Stream) (result : Option Inittab) : Prop :=
  match file with
  | none => result = none
  | some fp => Concludes calloc (readStart fp) result

def numberOf (field : List UInt8) : Option Int :=
  if field = [] then some (-1)
  else match safeStrtoi32 field with
    | none => none
    | some n => if n < 0 then none else some n

def typeOfField (field : List UInt8) : Option EntryType := if field = [] then none else typeOf field

def cttyPathOf (field : List UInt8) : Option (List UInt8) :=
  if field.length < cttyPathSize then some field else none

def processOf (field : List UInt8) : Option (List UInt8) :=
  if field ≠ [] ∧ field.length < processNameSize then some field else none

def entryOfFields (order coreId type cttyPath process : List UInt8) : Option InittabEntry := do
  let order ← numberOf order
  let coreId ← numberOf coreId
  let type ← typeOfField type
  if order = -1 ∧ type ≠ .safeMode then none
  else
    let cttyPath ← cttyPathOf cttyPath
    let processName ← processOf process
    some ⟨processName, cttyPath, order, coreId, type⟩

def entryOfBytes (bytes : List UInt8) : Option InittabEntry := do
  let (order, bytes) ← nextField colon bytes
  let (coreId, bytes) ← nextField colon bytes
  let (type, bytes) ← nextField colon bytes
  let (cttyPath, bytes) ← nextField colon bytes
  let (process, _) ← nextField 0 bytes
  entryOfFields order coreId type cttyPath process

def Before (lexer : LexerData) (bytes : List UInt8) : Prop :=
  lexer.size = lexer.buf.length ∧ lexer.buf.drop lexer.pos = bytes

def Reads {A : Type} (field : LexerData → Option (A × LexerData)) (delim : UInt8)
    (judge : List UInt8 → Option A) : Prop :=
  ∀ lexer bytes, Before lexer bytes →
    match nextField delim bytes with
    | none => field lexer = none
    | some (text, rest) => ∃ lexer', Before lexer' rest ∧
        field lexer = (judge text).map (fun a => (a, lexer'))

theorem reads_of {A : Type} {field : LexerData → Option (A × LexerData)} {delim : UInt8}
    {judge : List UInt8 → Option A}
    (ended : ∀ lexer token lexer', nextToken lexer delim false false = (.tokenEnd, token, lexer') →
      field lexer = none)
    (judged : ∀ lexer lexer', nextToken lexer delim false false =
        (if cString lexer'.buf lexer.pos = [] then .blank else .ok, some lexer.pos, lexer') →
      field lexer = (judge (cString lexer'.buf lexer.pos)).map (fun a => (a, lexer'))) :
    Reads field delim judge := by
  rintro ⟨buf, size, pos⟩ bytes ⟨whole, left⟩
  simp only at whole left
  subst whole left
  split
  · rename_i nothing
    have last := next_token_end false nothing
    generalize token : nextToken ⟨buf, buf.length, pos⟩ delim false false = answer at last
    obtain ⟨result, pointer, lexer'⟩ := answer
    obtain rfl := last
    exact ended _ pointer lexer' token
  · rename_i text rest found
    obtain ⟨buf', pos', token, string, left⟩ := next_token_field false found
    subst string
    exact ⟨⟨buf', buf'.length, pos'⟩, ⟨rfl, left⟩, judged _ _ token⟩

theorem number_field_reads : Reads numberField colon numberOf := by
  apply reads_of
  · intro lexer token lexer' last
    simp [numberField, last]
  · intro lexer lexer' token
    simp only [numberField, token, numberOf]
    by_cases empty : cString lexer'.buf lexer.pos = []
    · simp [empty]
    · simp only [empty, ↓reduceIte, Option.getD_some]
      cases safeStrtoi32 (cString lexer'.buf lexer.pos) with
      | none => rfl
      | some n => by_cases negative : n < 0 <;> simp [negative]

theorem type_field_reads : Reads typeField colon typeOfField := by
  apply reads_of
  · intro lexer token lexer' last
    simp [typeField, last]
  · intro lexer lexer' token
    simp only [typeField, token, typeOfField]
    by_cases empty : cString lexer'.buf lexer.pos = []
    · simp [empty]
    · simp only [empty, ↓reduceIte, Option.getD_some]
      cases typeOf (cString lexer'.buf lexer.pos) <;> rfl

theorem ctty_path_field_reads : Reads cttyPathField colon cttyPathOf := by
  apply reads_of
  · intro lexer token lexer' last
    simp [cttyPathField, last]
  · intro lexer lexer' token
    simp only [cttyPathField, token, cttyPathOf]
    by_cases empty : cString lexer'.buf lexer.pos = []
    · simp [empty, cttyPathSize]
    · simp only [empty, ↓reduceIte, Option.getD_some]
      split <;> rfl

theorem process_field_reads : Reads processField 0 processOf := by
  apply reads_of
  · intro lexer token lexer' last
    simp [processField, last]
  · intro lexer lexer' token
    simp only [processField, token, processOf]
    by_cases empty : cString lexer'.buf lexer.pos = []
    · simp [empty]
    · simp only [empty, ↓reduceIte, Option.getD_some, ne_eq, not_false_eq_true, true_and]
      split <;> rfl

theorem reads_bind {A B : Type} {field : LexerData → Option (A × LexerData)} {delim : UInt8}
    {judge : List UInt8 → Option A} (reads : Reads field delim judge) {lexer : LexerData}
    {bytes : List UInt8} (before : Before lexer bytes) {next : A × LexerData → Option B}
    {next' : List UInt8 × List UInt8 → Option B}
    (rejected : ∀ text rest, judge text = none → next' (text, rest) = none)
    (accepted : ∀ text rest lexer' a, Before lexer' rest → judge text = some a →
      next (a, lexer') = next' (text, rest)) :
    (field lexer >>= next) = (nextField delim bytes >>= next') := by
  have answer := reads lexer bytes before
  split at answer
  · rename_i nothing
    rw [answer, nothing]
    rfl
  · rename_i text rest found
    obtain ⟨lexer', later, read⟩ := answer
    rw [read, found]
    cases judged : judge text with
    | none => exact (rejected text rest judged).symm
    | some a => exact accepted text rest lexer' a later judged

theorem parse_fields_eq {buf : List UInt8} (whole : buf.length = bufferLen) :
    parseFields buf = entryOfBytes buf := by
  have start : Before (initLexer buf bufferLen) buf := ⟨whole.symm, rfl⟩
  unfold parseFields entryOfBytes
  apply reads_bind number_field_reads start
  · intro orderText rest wrong
    simp [entryOfFields, wrong]
  intro orderText rest lexer order before isOrder
  apply reads_bind number_field_reads before
  · intro coreText rest wrong
    simp [entryOfFields, wrong]
  intro coreText rest lexer coreId before isCore
  apply reads_bind type_field_reads before
  · intro typeText rest wrong
    simp [entryOfFields, wrong]
  intro typeText rest lexer type before isType
  by_cases misplaced : order = -1 ∧ type ≠ .safeMode
  · simp [entryOfFields, isOrder, isCore, isType, misplaced]
  simp only [misplaced, ↓reduceIte]
  apply reads_bind ctty_path_field_reads before
  · intro pathText rest wrong
    simp [entryOfFields, wrong]
  intro pathText rest lexer cttyPath before isPath
  apply reads_bind process_field_reads before
  · intro processText rest wrong
    simp [entryOfFields, wrong]
  intro processText rest lexer process before isProcess
  simp [entryOfFields, isOrder, isCore, isType, misplaced, isPath, isProcess]

def Plain (field : List UInt8) : Prop := colon ∉ field ∧ 0 ∉ field

theorem entry_of_complete {order coreId type cttyPath process : List UInt8} (isOrder : Plain order)
    (isCore : Plain coreId) (isType : Plain type) (isPath : Plain cttyPath)
    (isProcess : 0 ∉ process) (left : List UInt8) :
    entryOfBytes (order ++ colon :: (coreId ++ colon :: (type ++ colon :: (cttyPath ++
      colon :: (process ++ 0 :: left))))) = entryOfFields order coreId type cttyPath process := by
  simp only [entryOfBytes, next_field_ended isOrder.1 isOrder.2 (.inl rfl),
    next_field_ended isCore.1 isCore.2 (.inl rfl), next_field_ended isType.1 isType.2 (.inl rfl),
    next_field_ended isPath.1 isPath.2 (.inl rfl), next_field_ended isProcess isProcess (.inl rfl),
    Option.bind_eq_bind, Option.bind_some]

theorem field_bind {B : Type} {delim : UInt8} {bytes : List UInt8}
    {next : List UInt8 × List UInt8 → Option B} {b : B}
    (found : (nextField delim bytes >>= next) = some b) :
    ∃ field c rest, bytes = field ++ c :: rest ∧ (c = delim ∨ c = 0) ∧ 0 ∉ field ∧
      next (field, rest) = some b := by
  obtain ⟨⟨field, rest⟩, first, later⟩ := Option.bind_eq_some_iff.mp found
  obtain ⟨_, clean, c, whole, ends⟩ := next_field_some first
  exact ⟨field, c, rest, whole, ends, clean, later⟩

theorem entry_of_bytes_some {bytes : List UInt8} {e : InittabEntry}
    (accepted : entryOfBytes bytes = some e) :
    ∃ order coreId type cttyPath process c₁ c₂ c₃ c₄ rest,
      bytes = order ++ c₁ :: (coreId ++ c₂ :: (type ++ c₃ :: (cttyPath ++ c₄ ::
        (process ++ 0 :: rest)))) ∧
      (c₁ = colon ∨ c₁ = 0) ∧ (c₂ = colon ∨ c₂ = 0) ∧ (c₃ = colon ∨ c₃ = 0) ∧
      (c₄ = colon ∨ c₄ = 0) ∧ 0 ∉ process ∧
      entryOfFields order coreId type cttyPath process = some e := by
  obtain ⟨order, c₁, rest₁, rfl, ends₁, _, next₁⟩ := field_bind accepted
  obtain ⟨coreId, c₂, rest₂, rfl, ends₂, _, next₂⟩ := field_bind next₁
  obtain ⟨type, c₃, rest₃, rfl, ends₃, _, next₃⟩ := field_bind next₂
  obtain ⟨cttyPath, c₄, rest₄, rfl, ends₄, _, next₄⟩ := field_bind next₃
  obtain ⟨process, c₅, rest, rfl, ends₅, clean, fields⟩ := field_bind next₄
  obtain rfl : c₅ = 0 := ends₅.elim id id
  exact ⟨_, _, _, _, _, _, _, _, _, _, rfl, ends₁, ends₂, ends₃, ends₄, clean, fields⟩

theorem process_needed {order coreId type cttyPath process : List UInt8} {e : InittabEntry}
    (accepted : entryOfFields order coreId type cttyPath process = some e) : process ≠ [] := by
  rintro rfl
  simp [entryOfFields, processOf] at accepted

end InittabParser
