import Mathlib.Data.List.TakeWhile
import UNit.LoopRuns

/-!
The lexer of inittab lines and command lines. It works on one buffer: a token
is a pointer into it, ended by a NUL that replaces its delimiter, and removed
quotes are closed up by moving the rest of the buffer. A pointer is an offset
into the buffer.
-/
namespace Lexer
open LoopRuns

structure LexerData where
  buf : List UInt8
  size : Nat
  pos : Nat
  deriving DecidableEq, Repr

inductive TokenResult where
  | ok
  | blank
  | unfinishedQuote
  | tokenEnd
  deriving DecidableEq, Repr

def initLexer (buf : List UInt8) (size : Nat) : LexerData := ⟨buf, size, 0⟩

def cString (buf : List UInt8) (pointer : Nat) : List UInt8 :=
  (buf.drop pointer).takeWhile (fun c => c ≠ 0)

def memmove (buf : List UInt8) (dest src n : Nat) : List UInt8 :=
  buf.take dest ++ ((buf.drop src).take n ++ buf.drop (dest + n))

/-- The locals of next_token that its loop changes, with the lexer. -/
structure Scanning where
  lexer : LexerData
  quoting : Bool
  quote : UInt8
  quoteStart : Nat
  deriving DecidableEq, Repr

def Scanning.advance (st : Scanning) : Scanning :=
  { st with lexer := { st.lexer with pos := st.lexer.pos + 1 } }

/-- The ending quote is removed first, then the starting one. The position goes
    back by two and then on by one; size_t wraps in between where it has to. -/
def Scanning.closeUp (st : Scanning) : Scanning :=
  let quoteEnd := st.lexer.pos
  let buf := memmove st.lexer.buf quoteEnd (quoteEnd + 1) (st.lexer.size - quoteEnd - 1)
  let size := st.lexer.size - 1
  let buf := memmove buf st.quoteStart (st.quoteStart + 1) (size - st.quoteStart - 1)
  { st with lexer := ⟨buf, size - 1, quoteEnd + 1 - 2⟩ }

def isQuote (c : UInt8) : Bool := c == 39 || c == 34

def scanBody (delim : UInt8) (quoted removeQuotes : Bool) (st : Scanning) :
    Scanning ⊕ Scanning :=
  let c := st.lexer.buf.getD st.lexer.pos 0
  if st.lexer.pos < st.lexer.size ∧ c ≠ 0 then
    if !st.quoting then
      if c = delim then .inr st
      else if isQuote c && quoted then
        .inl { st with quote := c, quoting := true, quoteStart := st.lexer.pos }.advance
      else .inl st.advance
    else if c = st.quote then
      let finished := { st with quote := 0, quoting := false }
      .inl (if removeQuotes then finished.closeUp else finished.advance)
    else .inl st.advance
  else .inr st

theorem scan_shrinks (delim : UInt8) (quoted removeQuotes : Bool) (st next : Scanning)
    (goesOn : scanBody delim quoted removeQuotes st = .inl next) :
    next.lexer.size - next.lexer.pos < st.lexer.size - st.lexer.pos := by
  simp only [scanBody] at goesOn
  split at goesOn
  · rename_i inside
    have advanced : ∀ other : Scanning, other.lexer = st.lexer →
        other.advance.lexer.size - other.advance.lexer.pos < st.lexer.size - st.lexer.pos := by
      intro other same
      simp only [Scanning.advance, same]
      omega
    split at goesOn
    · split at goesOn
      · simp at goesOn
      · split at goesOn
        · obtain rfl := Sum.inl.inj goesOn
          exact advanced _ rfl
        · obtain rfl := Sum.inl.inj goesOn
          exact advanced _ rfl
    · split at goesOn
      · obtain rfl := Sum.inl.inj goesOn
        split
        · simp only [Scanning.closeUp]
          omega
        · exact advanced _ rfl
      · obtain rfl := Sum.inl.inj goesOn
        exact advanced _ rfl
  · simp at goesOn

def scan (delim : UInt8) (quoted removeQuotes : Bool) (st : Scanning) : Scanning :=
  outcome (scanBody delim quoted removeQuotes) (fun st => st.lexer.size - st.lexer.pos)
    (scan_shrinks delim quoted removeQuotes) st

def nextToken (lexer : LexerData) (delim : UInt8) (quoted removeQuotes : Bool) :
    TokenResult × Option Nat × LexerData :=
  let st := scan delim quoted removeQuotes ⟨lexer, false, 0, 0⟩
  let result : TokenResult :=
    if st.quoting then .unfinishedQuote
    else if st.lexer.size ≤ st.lexer.pos then .tokenEnd
    else if st.lexer.pos = lexer.pos then .blank
    else .ok
  if result = .tokenEnd then (result, none, st.lexer)
  else (result, some lexer.pos, { st.lexer with
    buf := st.lexer.buf.set st.lexer.pos 0
    pos := st.lexer.pos + 1 })

theorem scan_left {delim : UInt8} {quoted removeQuotes : Bool} {st last : Scanning}
    (left : scanBody delim quoted removeQuotes st = .inr last) : last = st := by
  simp only [scanBody] at left
  split at left
  · split at left
    · split at left
      · exact (Sum.inr.inj left).symm
      · split at left <;> simp at left
    · split at left <;> simp at left
  · exact (Sum.inr.inj left).symm

theorem scan_size_le (delim : UInt8) (quoted removeQuotes : Bool) (st : Scanning) :
    (scan delim quoted removeQuotes st).lexer.size - (scan delim quoted removeQuotes st).lexer.pos ≤
      st.lexer.size - st.lexer.pos := by
  have ended : Ends (scanBody delim quoted removeQuotes) st (scan delim quoted removeQuotes st) :=
    outcome_ends st
  refine ends_rule (fun now => now.lexer.size - now.lexer.pos ≤ st.lexer.size - st.lexer.pos)
    (fun last => last.lexer.size - last.lexer.pos ≤ st.lexer.size - st.lexer.pos) ?_ ?_
    (Nat.le_refl _) ended
  · intro now next small goesOn
    have less := scan_shrinks delim quoted removeQuotes now next goesOn
    omega
  · intro now last small left
    rw [scan_left left]
    exact small

theorem next_token_takes {lexer lexer' : LexerData} {delim : UInt8} {quoted removeQuotes : Bool}
    {result : TokenResult} {token : Option Nat} (complete : result = .ok ∨ result = .blank)
    (found : nextToken lexer delim quoted removeQuotes = (result, token, lexer')) :
    lexer'.size - lexer'.pos < lexer.size - lexer.pos := by
  have less := scan_size_le delim quoted removeQuotes ⟨lexer, false, 0, 0⟩
  simp only [nextToken] at found
  generalize scan delim quoted removeQuotes ⟨lexer, false, 0, 0⟩ = st at found less
  by_cases quoting : st.quoting = true
  · simp only [quoting, ↓reduceIte, reduceCtorEq, Prod.mk.injEq] at found
    rcases complete with rfl | rfl <;> simp at found
  · by_cases beyond : st.lexer.size ≤ st.lexer.pos
    · simp only [quoting, beyond, Bool.false_eq_true, ↓reduceIte, Prod.mk.injEq] at found
      rcases complete with rfl | rfl <;> simp at found
    · have other : (if st.lexer.pos = lexer.pos then TokenResult.blank else .ok) ≠ .tokenEnd := by
        split <;> simp
      simp only [quoting, beyond, other, Bool.false_eq_true, ↓reduceIte, Prod.mk.injEq] at found
      simp only at less
      rw [← found.2.2]
      simp only
      omega

theorem next_token_shrinks {lexer lexer' : LexerData} {delim : UInt8} {quoted removeQuotes : Bool}
    {token : Option Nat}
    (found : nextToken lexer delim quoted removeQuotes = (.ok, token, lexer')) :
    lexer'.size - lexer'.pos < lexer.size - lexer.pos :=
  next_token_takes (.inl rfl) found

def fieldOf (delim : UInt8) (bytes : List UInt8) : List UInt8 :=
  bytes.takeWhile (fun c => c ≠ delim ∧ c ≠ 0)

theorem field_no_nul {delim : UInt8} {bytes : List UInt8} : 0 ∉ fieldOf delim bytes := by
  intro member
  have := List.mem_takeWhile_imp member
  simp at this

theorem drop_cons_facts {buf more : List UInt8} {pos : Nat} {c : UInt8}
    (rest : buf.drop pos = c :: more) :
    pos < buf.length ∧ buf.getD pos 0 = c ∧ buf.drop (pos + 1) = more := by
  have first : (buf.drop pos).head? = some c := by simp [rest]
  rw [List.head?_drop] at first
  refine ⟨(List.getElem?_eq_some_iff.mp first).1, by simp [first], ?_⟩
  rw [← List.tail_drop, rest]
  rfl

theorem scan_plain (delim : UInt8) (removeQuotes : Bool) (buf : List UInt8) (pos : Nat) :
    scan delim false removeQuotes ⟨⟨buf, buf.length, pos⟩, false, 0, 0⟩ =
      ⟨⟨buf, buf.length, pos + (fieldOf delim (buf.drop pos)).length⟩, false, 0, 0⟩ := by
  generalize rest : buf.drop pos = bytes
  induction bytes generalizing pos with
  | nil =>
    have beyond : ¬ pos < buf.length := by
      have := List.drop_eq_nil_iff.mp rest
      omega
    apply outcome_done
    simp [scanBody, beyond, fieldOf]
  | cons c more ih =>
    obtain ⟨inside, here, following⟩ := drop_cons_facts rest
    by_cases ends : c = 0 ∨ c = delim
    · have stopped : fieldOf delim (c :: more) = [] := by
        rcases ends with rfl | rfl <;> simp [fieldOf]
      rw [stopped]
      apply outcome_done
      simp only [scanBody, here]
      rcases ends with rfl | rfl <;> simp
    · push Not at ends
      have counted : (fieldOf delim (c :: more)).length = (fieldOf delim more).length + 1 := by
        simp [fieldOf, ends.1, ends.2]
      have goesOn : scanBody delim false removeQuotes ⟨⟨buf, buf.length, pos⟩, false, 0, 0⟩ =
          .inl ⟨⟨buf, buf.length, pos + 1⟩, false, 0, 0⟩ := by
        simp only [scanBody, here]
        simp [inside, ends.1, ends.2, Scanning.advance]
      rw [counted, ← Nat.add_assoc, Nat.add_right_comm, ← ih (pos + 1) following]
      exact outcome_next goesOn

/-- A token without quoting: the field in front of the next delimiter or NUL,
    unless the buffer ends before it. -/
theorem next_token_plain (delim : UInt8) (removeQuotes : Bool) (buf : List UInt8) (pos : Nat) :
    nextToken ⟨buf, buf.length, pos⟩ delim false removeQuotes =
      let last := pos + (fieldOf delim (buf.drop pos)).length
      if buf.length ≤ last then (.tokenEnd, none, ⟨buf, buf.length, last⟩)
      else (if fieldOf delim (buf.drop pos) = [] then .blank else .ok, some pos,
        ⟨buf.set last 0, buf.length, last + 1⟩) := by
  simp only [nextToken, scan_plain]
  generalize fieldOf delim (buf.drop pos) = field
  by_cases ends : buf.length ≤ pos + field.length
  · simp [ends]
  · cases field with
    | nil => simp_all [Nat.not_le.mpr]
    | cons _ _ => simp_all [Nat.not_le.mpr]

def nextField (delim : UInt8) (bytes : List UInt8) : Option (List UInt8 × List UInt8) :=
  let field := fieldOf delim bytes
  if field.length = bytes.length then none else some (field, bytes.drop (field.length + 1))

theorem next_field_some {delim : UInt8} {bytes field rest : List UInt8}
    (found : nextField delim bytes = some (field, rest)) :
    field = fieldOf delim bytes ∧ 0 ∉ field ∧
      ∃ c, bytes = field ++ c :: rest ∧ (c = delim ∨ c = 0) := by
  simp only [nextField] at found
  split at found
  · simp at found
  · rename_i short
    have lead : fieldOf delim bytes <+: bytes := List.takeWhile_prefix _
    have clean : 0 ∉ fieldOf delim bytes := field_no_nul
    obtain ⟨same, behind⟩ := Prod.mk.inj (Option.some.inj found)
    refine ⟨same.symm, same ▸ clean, ?_⟩
    rw [same] at lead behind short
    obtain ⟨more, rfl⟩ := lead
    cases more with
    | nil => simp at short
    | cons c more =>
      refine ⟨c, ?_, ?_⟩
      · simp only [List.drop_append, List.drop_eq_nil_of_le (Nat.le_succ _), List.nil_append,
          Nat.add_sub_cancel_left, List.drop_succ_cons, List.drop_zero] at behind
        rw [behind]
      · by_contra inside
        push Not at inside
        have all : ∀ b ∈ field, decide (b ≠ delim ∧ b ≠ 0) = true := by
          intro b member
          have taken : b ∈ fieldOf delim (field ++ c :: more) := by
            rw [same]
            exact member
          simpa using List.mem_takeWhile_imp taken
        rw [fieldOf, List.takeWhile_append_of_pos all] at same
        simp [inside.1, inside.2] at same

theorem next_field_ended {delim c : UInt8} {field rest : List UInt8} (undelimited : delim ∉ field)
    (clean : 0 ∉ field) (ends : c = delim ∨ c = 0) :
    nextField delim (field ++ c :: rest) = some (field, rest) := by
  have inside : ∀ b ∈ field, decide (b ≠ delim ∧ b ≠ 0) = true := by
    intro b member
    have other : b ≠ delim := fun same => undelimited (same ▸ member)
    have some : b ≠ 0 := fun same => clean (same ▸ member)
    simp [other, some]
  have taken : fieldOf delim (field ++ c :: rest) = field := by
    rw [fieldOf, List.takeWhile_append_of_pos inside]
    rcases ends with rfl | rfl <;> simp
  simp [nextField, taken]

theorem c_string_ended {field rest : List UInt8} (clean : 0 ∉ field) :
    (field ++ 0 :: rest).takeWhile (fun c => c ≠ 0) = field := by
  have others : ∀ c ∈ field, decide (c ≠ 0) = true := by
    intro c member
    have other : c ≠ 0 := fun same => clean (same ▸ member)
    simpa using other
  rw [List.takeWhile_append_of_pos others]
  simp

theorem next_token_field (removeQuotes : Bool) {delim : UInt8} {buf : List UInt8} {pos : Nat}
    {field rest : List UInt8} (found : nextField delim (buf.drop pos) = some (field, rest)) :
    ∃ buf' pos', nextToken ⟨buf, buf.length, pos⟩ delim false removeQuotes =
        (if field = [] then .blank else .ok, some pos, ⟨buf', buf'.length, pos'⟩) ∧
      cString buf' pos = field ∧ buf'.drop pos' = rest := by
  obtain ⟨same, clean, c, whole, _⟩ := next_field_some found
  have token := next_token_plain delim removeQuotes buf pos
  rw [← same] at token
  have length : buf.length - pos = field.length + (rest.length + 1) := by
    rw [← List.length_drop, whole]
    simp
  have inside : ¬ buf.length ≤ pos + field.length := by omega
  simp only [inside, ↓reduceIte] at token
  refine ⟨buf.set (pos + field.length) 0, pos + field.length + 1, ?_, ?_, ?_⟩
  · rw [token, List.length_set]
  · have ended : (buf.set (pos + field.length) 0).drop pos = field ++ 0 :: rest := by
      rw [List.drop_set, if_neg (by omega), Nat.add_sub_cancel_left, whole]
      simp
    rw [cString, ended]
    exact c_string_ended clean
  · rw [List.drop_set_of_lt (by omega), Nat.add_assoc, ← List.drop_drop, whole]
    simp

theorem next_token_end (removeQuotes : Bool) {delim : UInt8} {buf : List UInt8} {pos : Nat}
    (none : nextField delim (buf.drop pos) = none) :
    (nextToken ⟨buf, buf.length, pos⟩ delim false removeQuotes).1 = .tokenEnd := by
  have token := next_token_plain delim removeQuotes buf pos
  have all : (fieldOf delim (buf.drop pos)).length = buf.length - pos := by
    simp only [nextField] at none
    split at none
    · rename_i all
      rw [all, List.length_drop]
    · simp at none
  rw [all] at token
  simp only [show buf.length ≤ pos + (buf.length - pos) by omega, ↓reduceIte] at token
  rw [token]

end Lexer
