import Mathlib.Algebra.Group.Nat.Defs
import UNit.LabelledRuns
import UNit.Lexer

/-!
The accesses of next_token to its buffer. The loop is run once more on the
numbers of a size_t, which wrap, and with a record of every byte it reads or
writes and of every memmove. While quotes are removed the position goes back
and the size gets smaller; what keeps the loop inside of the buffer is the NUL
at the end of it, which moves down with the rest.
-/
namespace LexerBounds
open LoopRuns LabelledRuns Lexer

def sizeMax : Nat := 2 ^ 64 - 1

def addSize (a b : Nat) : Nat := (a + b) % 2 ^ 64
def subSize (a b : Nat) : Nat := (a + 2 ^ 64 - b) % 2 ^ 64

/-- The memmoves close up the byte of a quote in a buffer of some size. -/
inductive Access where
  | read (pos : Nat)
  | write (pos : Nat)
  | closeUp (size quote : Nat)
  deriving DecidableEq, Repr

def closeLength (size quote : Nat) : Nat := subSize (subSize size quote) 1

def Access.Safe (n : Nat) : Access → Prop
  | .read pos => pos < n
  | .write pos => pos < n
  | .closeUp size quote => quote + 1 ≤ size ∧ quote + closeLength size quote ≤ n ∧
      addSize quote 1 + closeLength size quote ≤ n

structure Call where
  delim : UInt8
  quoted : Bool
  removeQuotes : Bool
  deriving DecidableEq, Repr

structure Traced where
  now : Scanning
  accesses : List Access
  deriving DecidableEq, Repr

def advanceSize (st : Scanning) : Scanning :=
  { st with lexer := { st.lexer with pos := addSize st.lexer.pos 1 } }

def closeUpSize (st : Scanning) : Scanning :=
  let quoteEnd := st.lexer.pos
  let buf := memmove st.lexer.buf quoteEnd (addSize quoteEnd 1) (closeLength st.lexer.size quoteEnd)
  let size := subSize st.lexer.size 1
  let buf := memmove buf st.quoteStart (addSize st.quoteStart 1) (closeLength size st.quoteStart)
  { st with lexer := ⟨buf, subSize size 1, subSize quoteEnd 2⟩ }

def tracedBody (c : Call) (st : Traced) : Traced ⊕ Traced :=
  let now := st.now
  if now.lexer.pos < now.lexer.size then
    let byte := now.lexer.buf.getD now.lexer.pos 0
    let accesses := st.accesses ++ [.read now.lexer.pos]
    if byte = 0 then .inr ⟨now, accesses⟩
    else if !now.quoting then
      if byte = c.delim then .inr ⟨now, accesses⟩
      else if isQuote byte && c.quoted then
        .inl ⟨advanceSize { now with quote := byte, quoting := true, quoteStart := now.lexer.pos },
          accesses⟩
      else .inl ⟨advanceSize now, accesses⟩
    else if byte = now.quote then
      let finished := { now with quote := 0, quoting := false }
      if c.removeQuotes then
        .inl ⟨advanceSize (closeUpSize finished), accesses ++
          [.closeUp now.lexer.size now.lexer.pos,
            .closeUp (subSize now.lexer.size 1) now.quoteStart]⟩
      else .inl ⟨advanceSize finished, accesses⟩
    else .inl ⟨advanceSize now, accesses⟩
  else .inr st

structure Called where
  result : TokenResult
  token : Option Nat
  lexer : LexerData
  accesses : List Access
  deriving DecidableEq, Repr

def returned (start : Nat) (st : Traced) : Called :=
  let lexer := st.now.lexer
  let result : TokenResult :=
    if st.now.quoting then .unfinishedQuote
    else if lexer.size ≤ lexer.pos then .tokenEnd
    else if lexer.pos = start then .blank
    else .ok
  if result = .tokenEnd then ⟨result, none, lexer, st.accesses⟩
  else ⟨result, some start,
    { lexer with buf := lexer.buf.set lexer.pos 0, pos := addSize lexer.pos 1 },
    st.accesses ++ [.write lexer.pos]⟩

/-- A call of next_token; none if its loop is still not left after as many
    iterations as the buffer has bytes, and one more. -/
def tracedCall (c : Call) (lexer : LexerData) : Option Called :=
  (iterate (tracedBody c) (lexer.size + 1) ⟨⟨lexer, false, 0, 0⟩, []⟩).map (returned lexer.pos)

def step (lexer : LexerData) (c : Call) : Option LexerData :=
  (tracedCall c lexer).map Called.lexer

structure InBounds (n : Nat) (lexer : LexerData) : Prop where
  length : lexer.buf.length = n
  size : lexer.size ≤ n
  pos : lexer.pos ≤ lexer.size
  nonempty : 1 ≤ lexer.size
  ended : lexer.buf[lexer.size - 1]? = some 0

structure Bounded (n start : Nat) (front : List UInt8) (st : Scanning) : Prop where
  length : st.lexer.buf.length = n
  size : st.lexer.size ≤ n
  pos : st.lexer.pos < st.lexer.size
  ended : st.lexer.buf[st.lexer.size - 1]? = some 0
  begun : start ≤ st.lexer.pos
  quote : st.quoting = true → start ≤ st.quoteStart ∧ st.quoteStart < st.lexer.pos
  kept : st.lexer.buf.take start = front

section Arithmetic

theorem add_size {a b : Nat} (fits : a + b ≤ sizeMax) : addSize a b = a + b := by
  rw [addSize, Nat.mod_eq_of_lt]
  simp only [sizeMax] at fits
  omega

theorem sub_size {a b : Nat} (fits : a ≤ sizeMax) (less : b ≤ a) : subSize a b = a - b := by
  have lower : a - b < 2 ^ 64 := by
    simp only [sizeMax] at fits
    omega
  rw [subSize, Nat.sub_add_comm less, Nat.add_mod_right, Nat.mod_eq_of_lt lower]

/-- Two back and one on, through a wrap where the quotes begin the buffer. -/
theorem back_and_on {a : Nat} (fits : a ≤ sizeMax) (positive : 1 ≤ a) :
    addSize (subSize a 2) 1 = a + 1 - 2 := by
  simp only [sizeMax] at fits
  simp only [addSize, subSize]
  omega

theorem close_length {size quote : Nat} (fits : size ≤ sizeMax) (less : quote + 1 ≤ size) :
    closeLength size quote = size - quote - 1 := by
  rw [closeLength, sub_size fits (by omega), sub_size (by omega) (by omega)]

end Arithmetic

section Moves
variable {buf : List UInt8} {quote length : Nat}

theorem memmove_length (inside : quote + 1 + length ≤ buf.length) :
    (memmove buf quote (quote + 1) length).length = buf.length := by
  simp only [memmove, List.length_append, List.length_take, List.length_drop]
  omega

theorem memmove_front {start : Nat} (behind : start ≤ quote)
    (inside : quote + 1 + length ≤ buf.length) :
    (memmove buf quote (quote + 1) length).take start = buf.take start := by
  have long : start ≤ (buf.take quote).length := by
    rw [List.length_take]
    omega
  rw [memmove, List.take_append_of_le_length long, List.take_take, Nat.min_eq_left behind]

theorem memmove_moved {i : Nat} (lower : quote ≤ i) (upper : i < quote + length)
    (inside : quote + 1 + length ≤ buf.length) :
    (memmove buf quote (quote + 1) length)[i]? = buf[i + 1]? := by
  have first : (buf.take quote).length = quote := by
    rw [List.length_take]
    omega
  have second : ((buf.drop (quote + 1)).take length).length = length := by
    rw [List.length_take, List.length_drop]
    omega
  rw [memmove, List.getElem?_append_right (by omega), List.getElem?_append_left (by omega), first,
    List.getElem?_take_of_lt (by omega), List.getElem?_drop]
  congr 1
  omega

end Moves

section Iterations
variable {n start : Nat} {front : List UInt8} {st : Scanning}

theorem bounded_unended (bounded : Bounded n start front st)
    (visible : st.lexer.buf.getD st.lexer.pos 0 ≠ 0) : st.lexer.pos + 1 < st.lexer.size := by
  have pos := bounded.pos
  by_contra last
  have here : st.lexer.pos = st.lexer.size - 1 := by omega
  rw [List.getD_eq_getElem?_getD, here, bounded.ended] at visible
  simp at visible

theorem advance_bounded (small : n ≤ sizeMax) (bounded : Bounded n start front st)
    (visible : st.lexer.buf.getD st.lexer.pos 0 ≠ 0) (other : Scanning)
    (same : other.lexer = st.lexer)
    (quote : other.quoting = true → start ≤ other.quoteStart ∧ other.quoteStart ≤ st.lexer.pos) :
    advanceSize other = other.advance ∧ Bounded n start front other.advance := by
  have inside := bounded_unended bounded visible
  have size := bounded.size
  have begun := bounded.begun
  constructor
  · rw [advanceSize, Scanning.advance, same, add_size (by omega)]
  · refine ⟨?_, ?_, ?_, ?_, ?_, ?_, ?_⟩
    · simpa only [Scanning.advance, same] using bounded.length
    · simpa only [Scanning.advance, same] using bounded.size
    · simpa only [Scanning.advance, same] using inside
    · simpa only [Scanning.advance, same] using bounded.ended
    · simp only [Scanning.advance, same]
      omega
    · intro quoting
      have placed := quote quoting
      simp only [Scanning.advance, same]
      omega
    · simpa only [Scanning.advance, same] using bounded.kept

theorem close_up_safe (small : n ≤ sizeMax) (bounded : Bounded n start front st)
    (visible : st.lexer.buf.getD st.lexer.pos 0 ≠ 0) (quoting : st.quoting = true) :
    (Access.closeUp st.lexer.size st.lexer.pos).Safe n ∧
      (Access.closeUp (subSize st.lexer.size 1) st.quoteStart).Safe n := by
  have inside := bounded_unended bounded visible
  have size := bounded.size
  have placed := bounded.quote quoting
  have less : subSize st.lexer.size 1 = st.lexer.size - 1 := sub_size (by omega) (by omega)
  simp only [Access.Safe, less]
  rw [close_length (by omega) (by omega), close_length (by omega) (by omega),
    add_size (by omega), add_size (by omega)]
  omega

theorem close_up_bounded (small : n ≤ sizeMax) (bounded : Bounded n start front st)
    (visible : st.lexer.buf.getD st.lexer.pos 0 ≠ 0) (quoting : st.quoting = true) :
    advanceSize (closeUpSize { st with quote := 0, quoting := false }) =
      ({ st with quote := 0, quoting := false } : Scanning).closeUp ∧
    Bounded n start front ({ st with quote := 0, quoting := false } : Scanning).closeUp := by
  have inside := bounded_unended bounded visible
  have size := bounded.size
  have begun := bounded.begun
  have placed := bounded.quote quoting
  have whole := bounded.length
  constructor
  · have less : subSize st.lexer.size 1 = st.lexer.size - 1 := sub_size (by omega) (by omega)
    have least : subSize (st.lexer.size - 1) 1 = st.lexer.size - 1 - 1 :=
      sub_size (by omega) (by omega)
    have back := back_and_on (a := st.lexer.pos) (by omega) (by omega)
    simp only [advanceSize, closeUpSize, Scanning.closeUp, less, least, back]
    rw [close_length (by omega) (by omega), close_length (by omega) (by omega),
      add_size (by omega), add_size (by omega)]
  · -- Both memmoves end in front of where the NUL was, and bring it down.
    have first : st.lexer.pos + 1 + (st.lexer.size - st.lexer.pos - 1) ≤ st.lexer.buf.length := by
      omega
    have moved := memmove_length first
    generalize closed : memmove st.lexer.buf st.lexer.pos (st.lexer.pos + 1)
      (st.lexer.size - st.lexer.pos - 1) = buf at moved
    have second : st.quoteStart + 1 + (st.lexer.size - 1 - st.quoteStart - 1) ≤ buf.length := by
      omega
    have ended : buf[st.lexer.size - 2]? = some 0 := by
      rw [← closed, memmove_moved (by omega) (by omega) first, ← bounded.ended]
      congr 1
      omega
    simp only [Scanning.closeUp, closed]
    refine ⟨?_, ?_, ?_, ?_, ?_, ?_, ?_⟩
    · simp only
      rw [memmove_length second, moved, whole]
    · simp only
      omega
    · simp only
      omega
    · simp only
      rw [memmove_moved (by omega) (by omega) second, ← ended]
      congr 1
      omega
    · simp only
      omega
    · simp
    · simp only
      rw [memmove_front (by omega) second, ← closed, memmove_front (by omega) first]
      exact bounded.kept

end Iterations

def AllSafe (n : Nat) (accesses : List Access) : Prop := ∀ a ∈ accesses, a.Safe n

theorem all_safe_append {n : Nat} {accesses more : List Access} (safe : AllSafe n accesses)
    (others : AllSafe n more) : AllSafe n (accesses ++ more) := by
  intro a member
  rcases List.mem_append.mp member with earlier | later
  · exact safe a earlier
  · exact others a later

section Calls
variable {n start : Nat} {front : List UInt8}

def GoesOn (n start : Nat) (front : List UInt8) (c : Call) (st next : Traced) : Prop :=
  scanBody c.delim c.quoted c.removeQuotes st.now = .inl next.now ∧
    Bounded n start front next.now ∧ AllSafe n next.accesses

def Stops (n start : Nat) (front : List UInt8) (c : Call) (st last : Traced) : Prop :=
  scanBody c.delim c.quoted c.removeQuotes st.now = .inr last.now ∧
    Bounded n start front last.now ∧ AllSafe n last.accesses

theorem traced_iteration (small : n ≤ sizeMax) (c : Call) {st : Traced}
    (bounded : Bounded n start front st.now) (safe : AllSafe n st.accesses) :
    (∃ next, tracedBody c st = .inl next ∧ GoesOn n start front c st next) ∨
    ∃ last, tracedBody c st = .inr last ∧ Stops n start front c st last := by
  have pos := bounded.pos
  have reads : AllSafe n (st.accesses ++ [.read st.now.lexer.pos]) := by
    refine all_safe_append safe ?_
    intro a member
    rw [List.mem_singleton.mp member]
    exact Nat.lt_of_lt_of_le pos bounded.size
  unfold tracedBody GoesOn Stops scanBody
  simp only [pos, ↓reduceIte, true_and]
  by_cases visible : st.now.lexer.buf.getD st.now.lexer.pos 0 = 0
  · rw [if_pos visible, if_neg (by simpa using visible)]
    exact .inr ⟨_, rfl, rfl, bounded, reads⟩
  · rw [if_neg visible, if_pos visible]
    cases quoting : st.now.quoting with
    | false =>
      simp only [Bool.not_false, ↓reduceIte]
      split
      · exact .inr ⟨_, rfl, rfl, bounded, reads⟩
      · split
        · obtain ⟨same, later⟩ := advance_bounded small bounded visible
            { st.now with
              quote := st.now.lexer.buf.getD st.now.lexer.pos 0
              quoting := true
              quoteStart := st.now.lexer.pos } rfl (fun _ => ⟨bounded.begun, Nat.le_refl _⟩)
          exact .inl ⟨_, rfl, by rw [same], by rwa [same], reads⟩
        · obtain ⟨same, later⟩ := advance_bounded small bounded visible st.now rfl
            (by simp [quoting])
          exact .inl ⟨_, rfl, by rw [same], by rwa [same], reads⟩
    | true =>
      have placed := bounded.quote quoting
      simp only [Bool.not_true, Bool.false_eq_true, ↓reduceIte]
      split
      · cases c.removeQuotes with
        | true =>
          obtain ⟨same, later⟩ := close_up_bounded small bounded visible quoting
          obtain ⟨first, second⟩ := close_up_safe small bounded visible quoting
          refine .inl ⟨_, rfl, by simp [same], by simpa [same] using later, ?_⟩
          refine all_safe_append reads ?_
          intro a member
          rcases List.mem_pair.mp member with rfl | rfl
          · exact first
          · exact second
        | false =>
          obtain ⟨same, later⟩ := advance_bounded small bounded visible
            { st.now with quote := 0, quoting := false } rfl (by simp)
          exact .inl ⟨_, rfl, by simp [same], by simpa [same] using later, reads⟩
      · obtain ⟨same, later⟩ := advance_bounded small bounded visible st.now rfl
          (fun _ => ⟨placed.1, Nat.le_of_lt placed.2⟩)
        exact .inl ⟨_, rfl, by rw [same], by rwa [same], reads⟩

theorem traced_loop (small : n ≤ sizeMax) (c : Call) {st : Scanning}
    (bounded : Bounded n start front st) {fuel : Nat}
    (enough : st.lexer.size - st.lexer.pos < fuel) :
    ∃ last, iterate (tracedBody c) fuel ⟨st, []⟩ = some last ∧
      last.now = scan c.delim c.quoted c.removeQuotes st ∧
      Bounded n start front last.now ∧ AllSafe n last.accesses := by
  refine iterate_measured (fun m (now : Traced) => m = now.now.lexer.size - now.now.lexer.pos ∧
    scan c.delim c.quoted c.removeQuotes now.now = scan c.delim c.quoted c.removeQuotes st ∧
    Bounded n start front now.now ∧ AllSafe n now.accesses)
    (fun last : Traced => last.now = scan c.delim c.quoted c.removeQuotes st ∧
      Bounded n start front last.now ∧ AllSafe n last.accesses) ?_
    ⟨rfl, rfl, bounded, by simp [AllSafe]⟩ enough
  rintro m now ⟨rfl, same, bounded, safe⟩
  rcases traced_iteration small c bounded safe with
    ⟨next, body, goesOn, later, safely⟩ | ⟨last, body, left, stopped, safely⟩
  · have less := scan_shrinks _ _ _ _ _ goesOn
    have onward : scan c.delim c.quoted c.removeQuotes now.now =
        scan c.delim c.quoted c.removeQuotes next.now := outcome_next goesOn
    exact .inl ⟨_, next, body, less, rfl, onward.symm.trans same, later, safely⟩
  · have ended : scan c.delim c.quoted c.removeQuotes now.now = last.now := outcome_done left
    exact .inr ⟨last, body, ended.symm.trans same, stopped, safely⟩

theorem returned_token (small : n ≤ sizeMax) {st : Traced}
    (bounded : Bounded n start front st.now) :
    ∃ result, result ≠ .tokenEnd ∧ result = (if st.now.quoting then .unfinishedQuote
        else if st.now.lexer.size ≤ st.now.lexer.pos then .tokenEnd
        else if st.now.lexer.pos = start then .blank else TokenResult.ok) ∧
      returned start st = ⟨result, some start,
        { st.now.lexer with
          buf := st.now.lexer.buf.set st.now.lexer.pos 0
          pos := st.now.lexer.pos + 1 }, st.accesses ++ [.write st.now.lexer.pos]⟩ := by
  have pos := bounded.pos
  have size := bounded.size
  have inside : ¬ st.now.lexer.size ≤ st.now.lexer.pos := by omega
  have onward : addSize st.now.lexer.pos 1 = st.now.lexer.pos + 1 := add_size (by omega)
  generalize kind : (if st.now.quoting then TokenResult.unfinishedQuote
    else if st.now.lexer.size ≤ st.now.lexer.pos then .tokenEnd
    else if st.now.lexer.pos = start then .blank else .ok) = result
  have other : result ≠ .tokenEnd := by
    rw [← kind, if_neg inside]
    split
    · simp
    · split <;> simp
  refine ⟨result, other, rfl, ?_⟩
  simp only [returned, kind, other, ↓reduceIte, onward]

theorem token_ended (small : n ≤ sizeMax) {st : Traced} (bounded : Bounded n start front st.now)
    (safe : AllSafe n st.accesses) :
    AllSafe n (returned start st).accesses ∧ InBounds n (returned start st).lexer ∧
      (returned start st).lexer.buf.take start = front := by
  obtain ⟨result, _, _, form⟩ := returned_token small bounded
  have pos := bounded.pos
  have whole := bounded.length
  have size := bounded.size
  have begun := bounded.begun
  rw [form]
  refine ⟨all_safe_append safe ?_, ⟨?_, size, pos, ?_, ?_⟩, ?_⟩
  · intro a member
    rw [List.mem_singleton.mp member]
    exact Nat.lt_of_lt_of_le pos size
  · rw [List.length_set]
    exact bounded.length
  · simp only
    omega
  · rw [List.getElem?_set]
    split
    · rw [if_pos (by omega)]
    · exact bounded.ended
  · rw [List.take_set_of_le begun]
    exact bounded.kept

theorem returned_next_token (small : n ≤ sizeMax) {lexer : LexerData} {c : Call} {st : Traced}
    (bounded : Bounded n lexer.pos front st.now)
    (same : st.now = scan c.delim c.quoted c.removeQuotes ⟨lexer, false, 0, 0⟩) :
    ((returned lexer.pos st).result, (returned lexer.pos st).token, (returned lexer.pos st).lexer) =
      nextToken lexer c.delim c.quoted c.removeQuotes := by
  obtain ⟨result, other, kind, form⟩ := returned_token small bounded
  rw [form]
  simp only [nextToken, ← same, ← kind, other, ↓reduceIte]

structure Correct (n : Nat) (c : Call) (lexer : LexerData) (called : Called) : Prop where
  model : (called.result, called.token, called.lexer) =
    nextToken lexer c.delim c.quoted c.removeQuotes
  safe : AllSafe n called.accesses
  bounds : InBounds n called.lexer
  kept : called.lexer.buf.take lexer.pos = lexer.buf.take lexer.pos
  ended : lexer.pos = lexer.size → called.result = .tokenEnd ∧ called.lexer = lexer
  taken : lexer.pos < lexer.size →
    called.lexer.size - called.lexer.pos < lexer.size - lexer.pos

theorem call_at_end {lexer : LexerData} (bounds : InBounds n lexer) (all : lexer.pos = lexer.size)
    (c : Call) : ∃ called, tracedCall c lexer = some called ∧ Correct n c lexer called := by
  have stopped : scan c.delim c.quoted c.removeQuotes ⟨lexer, false, 0, 0⟩ =
      ⟨lexer, false, 0, 0⟩ := by
    apply outcome_done
    simp [scanBody, all]
  refine ⟨⟨.tokenEnd, none, lexer, []⟩, ?_, ?_, ?_, bounds, rfl, fun _ => ⟨rfl, rfl⟩, ?_⟩
  · simp [tracedCall, iterate, tracedBody, all, returned]
  · simp [nextToken, stopped, all]
  · simp [AllSafe]
  · omega

theorem call_inside (small : n ≤ sizeMax) {lexer : LexerData} (bounds : InBounds n lexer)
    (more : lexer.pos < lexer.size) (c : Call) :
    ∃ called, tracedCall c lexer = some called ∧ Correct n c lexer called := by
  have begins : Bounded n lexer.pos (lexer.buf.take lexer.pos) ⟨lexer, false, 0, 0⟩ :=
    ⟨bounds.length, bounds.size, more, bounds.ended, Nat.le_refl _, by simp, rfl⟩
  obtain ⟨last, done, same, bounded, safe⟩ :=
    traced_loop small c begins (Nat.lt_succ_of_le (Nat.sub_le lexer.size lexer.pos))
  obtain ⟨safely, later, kept⟩ := token_ended small bounded safe
  refine ⟨returned lexer.pos last, by rw [tracedCall, done, Option.map_some],
    returned_next_token small bounded same, safely, later, kept, ?_, ?_⟩
  · omega
  · intro _
    obtain ⟨result, _, _, form⟩ := returned_token small bounded
    have less := scan_size_le c.delim c.quoted c.removeQuotes ⟨lexer, false, 0, 0⟩
    have inside := bounded.pos
    rw [← same] at less
    rw [form]
    simp only at less ⊢
    omega

theorem call_correct (small : n ≤ sizeMax) {lexer : LexerData} (bounds : InBounds n lexer)
    (c : Call) : ∃ called, tracedCall c lexer = some called ∧ Correct n c lexer called := by
  rcases Nat.lt_or_eq_of_le bounds.pos with more | all
  · exact call_inside small bounds more c
  · exact call_at_end bounds all c

end Calls

structure Buffer where
  bytes : List UInt8
  ended : bytes.getLast? = some 0
  fits : bytes.length ≤ sizeMax

theorem init_in_bounds (buf : Buffer) :
    InBounds buf.bytes.length (initLexer buf.bytes buf.bytes.length) := by
  have last := buf.ended
  rw [List.getLast?_eq_getElem?] at last
  have some : 1 ≤ buf.bytes.length := by
    by_contra none
    have empty : buf.bytes = [] := List.eq_nil_of_length_eq_zero (by omega)
    simp [empty] at last
  exact ⟨rfl, Nat.le_refl _, Nat.zero_le _, some, last⟩

theorem calls_in_bounds (buf : Buffer) {trace : List (LexerData × Call)} {lexer : LexerData}
    (run : Run step (initLexer buf.bytes buf.bytes.length) trace lexer) :
    InBounds buf.bytes.length lexer ∧
      (lexer.pos = lexer.size ∨ lexer.size - lexer.pos + trace.length ≤ buf.bytes.length) := by
  induction run with
  | start => exact ⟨init_in_bounds buf, .inr (by simp [initLexer])⟩
  | @next t u c trace before now ih =>
    obtain ⟨bounds, counted⟩ := ih
    obtain ⟨called, made, correct⟩ := call_correct buf.fits bounds c
    simp only [step, made, Option.map_some, Option.some.injEq] at now
    subst now
    refine ⟨correct.bounds, ?_⟩
    rcases Nat.lt_or_eq_of_le bounds.pos with more | all
    · have less := correct.taken more
      rw [List.length_cons]
      omega
    · rw [(correct.ended all).2]
      exact .inl all

/-- Whatever the calls before it were, a call of next_token returns. It stays
    inside of the buffer and leaves alone what is in front of it, and after as
    many calls as the buffer has bytes there are no more tokens. -/
theorem next_token_stays_inside (buf : Buffer) {trace : List (LexerData × Call)}
    {lexer : LexerData} (run : Run step (initLexer buf.bytes buf.bytes.length) trace lexer)
    (c : Call) :
    ∃ called, tracedCall c lexer = some called ∧
      (∀ a ∈ called.accesses, a.Safe buf.bytes.length) ∧
      (called.lexer.pos ≤ called.lexer.size ∧ called.lexer.size ≤ buf.bytes.length ∧
        called.lexer.buf.length = buf.bytes.length ∧
        called.lexer.buf[called.lexer.size - 1]? = some 0) ∧
      called.lexer.buf.take lexer.pos = lexer.buf.take lexer.pos ∧
      (buf.bytes.length ≤ trace.length → called.result = .tokenEnd) := by
  obtain ⟨bounds, counted⟩ := calls_in_bounds buf run
  obtain ⟨called, made, correct⟩ := call_correct buf.fits bounds c
  refine ⟨called, made, correct.safe, ⟨correct.bounds.pos, correct.bounds.size,
    correct.bounds.length, correct.bounds.ended⟩, correct.kept, ?_⟩
  intro many
  have below := bounds.pos
  have all : lexer.pos = lexer.size := by omega
  exact (correct.ended all).1

def quotedBuffer : Buffer where
  bytes := [39, 39, 97, 32, 98, 0]
  ended := by decide
  fits := by decide

theorem quoted_buffer_read : ∃ trace lexer, trace.length = 6 ∧
    Run step (initLexer quotedBuffer.bytes quotedBuffer.bytes.length) trace lexer ∧
    ∃ called, tracedCall ⟨32, true, true⟩ lexer = some called ∧ called.result = .tokenEnd ∧
      called.lexer.buf.length = 6 := by
  have able : (replay step [] (initLexer quotedBuffer.bytes quotedBuffer.bytes.length)
      (List.replicate 6 ⟨32, true, true⟩)).any (fun run => run.1.length = 6) = true := by
    decide +kernel
  obtain ⟨⟨trace, lexer⟩, replayed, counted⟩ := (Option.any_eq_true _ _).mp able
  have six : trace.length = 6 := by simpa using counted
  have run := run_of_replay (Run.start _) replayed
  obtain ⟨called, made, _, ⟨_, _, whole, _⟩, _, ending⟩ :=
    next_token_stays_inside quotedBuffer run ⟨32, true, true⟩
  exact ⟨trace, lexer, six, run, called, made, ending (by rw [six]; decide), whole⟩

example : (tracedCall ⟨32, true, true⟩ (initLexer quotedBuffer.bytes 6)).map Called.accesses =
    some [.read 0, .read 1, .closeUp 6 1, .closeUp 5 0, .read 0, .read 1, .write 1] := by
  decide +kernel

end LexerBounds
