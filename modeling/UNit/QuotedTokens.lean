import UNit.Lexer
import UNit.QuotedSplit

/-!
Tokens with quotes. The bytes a call of next_token has in front of it are cut
at the first delimiter outside of quotes. With quotes removed the rest of the
buffer moves down over them, but nothing in front of the token is touched: what
earlier calls have returned stays what it was.
-/
namespace QuotedTokens
open LoopRuns Lexer QuotedSplit

/-- What a lexer has left: the bytes in front of the terminator, or nothing any
    more. In front of them stand the tokens read so far, with their NULs. -/
def Left (lexer : LexerData) (front : List UInt8) : Option (List UInt8) → Prop
  | some rest => 0 ∉ rest ∧ ∃ junk, lexer =
      ⟨front ++ (rest ++ 0 :: junk), front.length + (rest.length + 1), front.length⟩
  | none => ∃ junk, lexer = ⟨front ++ junk, front.length, front.length⟩

theorem left_init {line : List UInt8} (clean : 0 ∉ line) :
    Left (initLexer (line ++ [0]) (line.length + 1)) [] (some line) :=
  ⟨clean, [], by simp [initLexer]⟩

theorem memmove_closes (front rest junk : List UInt8) (c : UInt8) :
    memmove (front ++ c :: (rest ++ 0 :: junk)) front.length (front.length + 1)
      (rest.length + 1) = front ++ (rest ++ 0 :: 0 :: junk) := by
  have behind : (front ++ c :: (rest ++ 0 :: junk)).drop (front.length + 1) =
      rest ++ 0 :: junk := by
    rw [← List.drop_drop, List.drop_left, List.drop_one, List.tail_cons]
  have last : (front ++ c :: (rest ++ 0 :: junk)).drop (front.length + (rest.length + 1)) =
      0 :: junk := by
    rw [← List.drop_drop, List.drop_left, List.drop_succ_cons, List.drop_left]
  have moved : (rest ++ 0 :: junk).take (rest.length + 1) = rest ++ [0] := by
    rw [List.take_append, List.take_of_length_le (by omega)]
    simp
  rw [memmove, List.take_left, behind, last, moved]
  simp

variable {removeQuotes : Bool} {delim : UInt8} {front : List UInt8}

/-- The token as it stands in the buffer so far, and as it will be once its
    quotes are closed. -/
inductive TokenSoFar (removeQuotes : Bool) (base : Nat) (st : Scanning) :
    Option UInt8 → List UInt8 → List UInt8 → Prop where
  | outside (text : List UInt8) (quoting : st.quoting = false) :
      TokenSoFar removeQuotes base st none text text
  | inside (before inner : List UInt8) {raw text : List UInt8} (quoting : st.quoting = true)
      (opened : st.quoteStart = base + before.length)
      (stands : raw = before ++ st.quote :: inner)
      (closed : text = before ++ if removeQuotes then inner else st.quote :: inner) :
      TokenSoFar removeQuotes base st (some st.quote) raw text

def scanned (front raw rest junk : List UInt8) : LexerData :=
  ⟨front ++ (raw ++ (rest ++ 0 :: junk)), front.length + (raw.length + (rest.length + 1)),
    front.length + raw.length⟩

theorem scanned_facts (front raw rest junk : List UInt8) (c : UInt8) :
    (scanned front raw (c :: rest) junk).pos < (scanned front raw (c :: rest) junk).size ∧
    (scanned front raw (c :: rest) junk).buf.getD (scanned front raw (c :: rest) junk).pos 0 = c ∧
    { scanned front raw (c :: rest) junk with
      pos := (scanned front raw (c :: rest) junk).pos + 1 } =
      scanned front (raw ++ [c]) rest junk := by
  refine ⟨?_, ?_, ?_⟩
  · simp only [scanned]
    omega
  · simp [scanned, List.getD_eq_getElem?_getD]
  · simp only [scanned, List.append_assoc, List.cons_append, List.nil_append, List.length_append,
      List.length_cons, List.length_nil]
    congr 1
    omega

theorem close_up_scanned {st : Scanning} (front before inner rest junk : List UInt8) (k : UInt8)
    (opened : st.quoteStart = front.length + before.length)
    (here : st.lexer = scanned front (before ++ k :: inner) (k :: rest) junk) :
    st.closeUp.lexer = scanned front (before ++ inner) rest (0 :: 0 :: junk) := by
  have first : memmove (scanned front (before ++ k :: inner) (k :: rest) junk).buf
      (front ++ (before ++ k :: inner)).length ((front ++ (before ++ k :: inner)).length + 1)
      (rest.length + 1) = (front ++ before) ++ k :: ((inner ++ rest) ++ 0 :: 0 :: junk) := by
    have closed := memmove_closes (front ++ (before ++ k :: inner)) rest junk k
    simpa [scanned] using closed
  have second := memmove_closes (front ++ before) (inner ++ rest) (0 :: junk) k
  have ending : (scanned front (before ++ k :: inner) (k :: rest) junk).pos =
      (front ++ (before ++ k :: inner)).length := by
    simp [scanned]
  have behind : (scanned front (before ++ k :: inner) (k :: rest) junk).size -
      (front ++ (before ++ k :: inner)).length - 1 = rest.length + 1 := by
    simp only [scanned, List.length_append, List.length_cons]
    omega
  have moved : (scanned front (before ++ k :: inner) (k :: rest) junk).size - 1 -
      (front ++ before).length - 1 = (inner ++ rest).length + 1 := by
    simp only [scanned, List.length_append, List.length_cons]
    omega
  rw [← List.length_append] at opened
  rw [Scanning.closeUp, here]
  simp only [opened, ending, behind, moved, first, second]
  simp only [scanned, List.append_assoc, List.length_append, List.length_cons]
  congr 1
  omega

def kept (removeQuotes : Bool) (delim : UInt8) (q : Option UInt8) (piece : List UInt8) :
    List UInt8 :=
  if removeQuotes then unquote isQuote delim q piece else piece

def behind (delim : UInt8) : Option (List UInt8) → List UInt8
  | none => []
  | some rest => delim :: rest

def Scans (removeQuotes : Bool) (delim : UInt8) (front : List UInt8) (st : Scanning)
    (q : Option UInt8) (rest text : List UInt8) : Prop :=
  let token := cut isQuote delim q rest
  let last := scan delim true removeQuotes st
  if openAfter isQuote delim q token.1 = none then
    last.quoting = false ∧ ∃ junk, last.lexer =
      scanned front (text ++ kept removeQuotes delim q token.1) (behind delim token.2) junk
  else last.quoting = true

theorem scans_next {st next : Scanning} {q : Option UInt8} {c : UInt8} {rest text : List UInt8}
    (goesOn : scanBody delim true removeQuotes st = .inl next)
    (inside : ¬ (q = none ∧ c = delim))
    (later : Scans removeQuotes delim front next (follow isQuote delim q c) rest
      (text ++ if removeQuotes = true ∧ follow isQuote delim q c ≠ q then [] else [c])) :
    Scans removeQuotes delim front st q (c :: rest) text := by
  have same : scan delim true removeQuotes st = scan delim true removeQuotes next :=
    outcome_next goesOn
  have token : cut isQuote delim q (c :: rest) =
      (c :: (cut isQuote delim (follow isQuote delim q c) rest).1,
        (cut isQuote delim (follow isQuote delim q c) rest).2) := by
    simp [cut, inside]
  have first : ∀ piece, kept removeQuotes delim q (c :: piece) =
      (if removeQuotes = true ∧ follow isQuote delim q c ≠ q then [] else [c]) ++
        kept removeQuotes delim (follow isQuote delim q c) piece := by
    intro piece
    cases removeQuotes with
    | false => simp [kept]
    | true =>
      by_cases still : follow isQuote delim q c = q
      · simp [kept, unquote, still]
      · simp [kept, unquote, still]
  simp only [Scans, same, token, first, ← List.append_assoc]
  exact later

theorem scan_body_at {st : Scanning} {raw rest junk : List UInt8} {c : UInt8} (visible : c ≠ 0)
    (here : st.lexer = scanned front raw (c :: rest) junk) :
    scanBody delim true removeQuotes st =
      if st.quoting = false then
        if c = delim then .inr st
        else if isQuote c then
          .inl { st with quote := c, quoting := true, quoteStart := st.lexer.pos }.advance
        else .inl st.advance
      else if c = st.quote then
        let finished := { st with quote := 0, quoting := false }
        .inl (if removeQuotes then finished.closeUp else finished.advance)
      else .inl st.advance := by
  obtain ⟨inside, current, _⟩ := scanned_facts front raw rest junk c
  rw [← here] at inside current
  simp only [scanBody, current]
  simp [inside, visible]

theorem advance_scanned {st : Scanning} {raw rest junk : List UInt8} {c : UInt8}
    (here : st.lexer = scanned front raw (c :: rest) junk) :
    st.advance.lexer = scanned front (raw ++ [c]) rest junk := by
  have advanced := (scanned_facts front raw rest junk c).2.2
  rwa [← here] at advanced

def GoesOn (removeQuotes : Bool) (delim : UInt8) (front : List UInt8) (st : Scanning)
    (q : Option UInt8) (c : UInt8) (rest text : List UInt8) : Prop :=
  ∃ next raw junk, scanBody delim true removeQuotes st = .inl next ∧
    TokenSoFar removeQuotes front.length next (follow isQuote delim q c) raw
      (text ++ if removeQuotes = true ∧ follow isQuote delim q c ≠ q then [] else [c]) ∧
    next.lexer = scanned front raw rest junk

theorem goes_on_outside {st : Scanning} {rest text junk : List UInt8} {c : UInt8} (visible : c ≠ 0)
    (quoting : st.quoting = false) (here : st.lexer = scanned front text (c :: rest) junk)
    (inside : c ≠ delim) : GoesOn removeQuotes delim front st none c rest text := by
  have taken : scanBody delim true removeQuotes st = _ := scan_body_at visible here
  simp only [quoting, inside, ↓reduceIte] at taken
  by_cases opens : isQuote c = true
  · -- An opening quote stays in the buffer until its section is closed.
    rw [if_pos opens] at taken
    have opened : follow isQuote delim none c = some c := by simp [follow, opens, inside]
    have start : st.lexer.pos = front.length + text.length := by simp [here, scanned]
    refine ⟨_, text ++ [c], junk, taken, opened ▸ ?_, advance_scanned here⟩
    exact .inside text [] rfl start rfl (by cases removeQuotes <;> simp [Scanning.advance])
  · rw [if_neg opens] at taken
    have plain : follow isQuote delim none c = none := by simp [follow, opens]
    refine ⟨_, text ++ [c], junk, taken, ?_, advance_scanned here⟩
    have later : st.advance.quoting = false := quoting
    simpa [plain] using TokenSoFar.outside (text ++ [c]) later

theorem goes_on_inside {st : Scanning} {raw rest text junk : List UInt8} {c : UInt8}
    (visible : c ≠ 0) (here : st.lexer = scanned front raw (c :: rest) junk)
    (before inner : List UInt8) (quoting : st.quoting = true)
    (opened : st.quoteStart = front.length + before.length)
    (stands : raw = before ++ st.quote :: inner)
    (ended : text = before ++ if removeQuotes then inner else st.quote :: inner) :
    GoesOn removeQuotes delim front st (some st.quote) c rest text := by
  have taken : scanBody delim true removeQuotes st = _ := scan_body_at visible here
  simp only [quoting, Bool.true_eq_false, ↓reduceIte] at taken
  by_cases closes : c = st.quote
  · rw [if_pos closes] at taken
    have closed : follow isQuote delim (some st.quote) c = none := by
      simp [follow, closes]
    cases removeQuotes with
    | true =>
      rw [stands, closes] at here
      have shut : ({ st with quote := 0, quoting := false } : Scanning).closeUp.lexer =
          scanned front (before ++ inner) rest (0 :: 0 :: junk) :=
        close_up_scanned front before inner rest junk st.quote opened here
      refine ⟨_, before ++ inner, 0 :: 0 :: junk, taken, closed ▸ ?_, shut⟩
      simpa [ended] using TokenSoFar.outside (before ++ inner) rfl
    | false =>
      refine ⟨_, raw ++ [c], junk, taken, closed ▸ ?_, advance_scanned here⟩
      simpa [stands, ended] using TokenSoFar.outside (raw ++ [c]) rfl
  · rw [if_neg closes] at taken
    have still : follow isQuote delim (some st.quote) c = some st.quote := by
      simp [follow, closes]
    refine ⟨_, raw ++ [c], junk, taken, ?_, advance_scanned here⟩
    simp only [still, ne_eq, not_true_eq_false, and_false, ↓reduceIte]
    refine .inside before (inner ++ [c]) quoting opened ?_ ?_
    · simp [stands, Scanning.advance]
    · cases removeQuotes <;> simp [ended, Scanning.advance]

theorem scans_stopped {st : Scanning} {rest text junk : List UInt8} (quoting : st.quoting = false)
    (stopped : scan delim true removeQuotes st = st)
    (whole : (cut isQuote delim none rest).1 = [])
    (here : st.lexer =
      scanned front text (behind delim (cut isQuote delim none rest).2) junk) :
    Scans removeQuotes delim front st none rest text := by
  simp only [Scans, stopped, whole, openAfter, List.foldl_nil, ↓reduceIte]
  refine ⟨quoting, junk, ?_⟩
  cases removeQuotes <;> simpa [kept, unquote] using here

theorem scan_at_end (delim : UInt8) (quoted removeQuotes : Bool) {st : Scanning}
    {front raw junk : List UInt8} (here : st.lexer = scanned front raw [] junk) :
    scan delim quoted removeQuotes st = st := by
  apply outcome_done
  have ended : st.lexer.buf.getD st.lexer.pos 0 = 0 := by
    rw [here]
    simp [scanned, List.getD_eq_getElem?_getD]
  simp only [scanBody, ended]
  simp

theorem scan_token {st : Scanning} {q : Option UInt8} {raw rest text junk : List UInt8}
    (clean : 0 ∉ rest) (sofar : TokenSoFar removeQuotes front.length st q raw text)
    (here : st.lexer = scanned front raw rest junk) :
    Scans removeQuotes delim front st q rest text := by
  induction rest generalizing st q raw text junk with
  | nil =>
    have stopped := scan_at_end delim true removeQuotes here
    cases sofar with
    | outside text quoting => exact scans_stopped quoting stopped rfl here
    | inside before inner quoting =>
      simpa [Scans, stopped, cut, openAfter] using quoting
  | cons c rest ih =>
    obtain ⟨zero, others⟩ : 0 ≠ c ∧ 0 ∉ rest := by simpa using clean
    cases sofar with
    | outside text quoting =>
      by_cases ends : c = delim
      · have stopped : scan delim true removeQuotes st = st := by
          apply outcome_done
          rw [scan_body_at zero.symm here, if_pos quoting, if_pos ends]
        exact scans_stopped quoting stopped (by simp [cut, ends])
          (by simpa [cut, ends, behind] using here)
      · obtain ⟨next, raw, junk, taken, later, there⟩ :=
          goes_on_outside zero.symm quoting here ends
        exact scans_next taken (fun both => ends both.2) (ih others later there)
    | inside before inner quoting opened stands ended =>
      obtain ⟨next, raw, junk, taken, later, there⟩ :=
        goes_on_inside zero.symm here before inner quoting opened stands ended
      exact scans_next taken (by simp) (ih others later there)

theorem left_ended (delim : UInt8) (front text junk : List UInt8) (more : Option (List UInt8))
    (clean : ∀ rest, more = some rest → 0 ∉ rest) :
    Left { scanned front text (behind delim more) junk with
      buf := (scanned front text (behind delim more) junk).buf.set (front.length + text.length) 0
      pos := front.length + text.length + 1 } (front ++ (text ++ [0])) more := by
  have ended : ∀ (c : UInt8) (rest : List UInt8),
      (front ++ (text ++ c :: rest)).set (front.length + text.length) 0 =
        front ++ (text ++ [0]) ++ rest := by
    intro c rest
    rw [← List.append_assoc, ← List.length_append, List.set_append_right _ _ (Nat.le_refl _)]
    simp
  cases more with
  | none =>
    refine ⟨junk, ?_⟩
    simp only [scanned, behind, List.nil_append, ended, List.length_append, List.length_cons,
      List.length_nil]
    congr 1
  | some rest =>
    refine ⟨clean rest rfl, junk, ?_⟩
    simp only [scanned, behind, List.cons_append, ended, List.length_append, List.length_cons,
      List.length_nil]
    congr 1
    omega

/-- The bytes up to the first delimiter outside of quotes are the next token. It
    stands in front of all that is left, its pointer is where they began. -/
theorem next_token_quoted (removeQuotes : Bool) (delim : UInt8) {lexer : LexerData}
    {front rest : List UInt8} (left : Left lexer front (some rest)) :
    let token := cut isQuote delim none rest
    let text := kept removeQuotes delim none token.1
    if openAfter isQuote delim none token.1 = none then
      ∃ lexer', nextToken lexer delim true removeQuotes =
          (if text = [] then .blank else .ok, some front.length, lexer') ∧
        Left lexer' (front ++ (text ++ [0])) token.2
    else (nextToken lexer delim true removeQuotes).1 = .unfinishedQuote := by
  intro token text
  obtain ⟨clean, junk, rfl⟩ := left
  generalize started : (⟨⟨front ++ (rest ++ 0 :: junk), front.length + (rest.length + 1),
    front.length⟩, false, 0, 0⟩ : Scanning) = st
  have here : st.lexer = scanned front [] rest junk := by simp [← started, scanned]
  have scans : Scans removeQuotes delim front st none rest [] :=
    scan_token clean (.outside [] (by rw [← started])) here
  simp only [Scans] at scans
  split
  · rename_i closed
    rw [if_pos closed] at scans
    obtain ⟨quoting, junk', lexer'⟩ := scans
    have place : (scan delim true removeQuotes st).lexer.pos = front.length + text.length := by
      rw [lexer']
      rfl
    have inside : ¬ (scan delim true removeQuotes st).lexer.size ≤ front.length + text.length := by
      rw [lexer']
      simp only [scanned, List.nil_append, text, token]
      omega
    refine ⟨_, ?_, left_ended delim front text junk' token.2
      (fun later found zero => clean (mem_of_mem_cut found zero))⟩
    have nothing : front.length + text.length = front.length ↔ text = [] := by
      rw [← List.length_eq_zero_iff]
      omega
    simp only [nextToken, started, quoting, place, inside, nothing, Bool.false_eq_true, ↓reduceIte]
    rw [lexer']
    split <;> rfl
  · rename_i unfinished
    rw [if_neg unfinished] at scans
    simp [nextToken, started, scans]

theorem left_buf {lexer : LexerData} {front : List UInt8} {left : Option (List UInt8)}
    (ahead : Left lexer front left) : ∃ tail, lexer.buf = front ++ tail := by
  cases left with
  | none =>
    obtain ⟨junk, rfl⟩ := ahead
    exact ⟨junk, rfl⟩
  | some rest =>
    obtain ⟨_, junk, rfl⟩ := ahead
    exact ⟨rest ++ 0 :: junk, rfl⟩

theorem token_string {lexer : LexerData} {front text : List UInt8} {left : Option (List UInt8)}
    (ahead : Left lexer (front ++ (text ++ [0])) left) (clean : 0 ∉ text) :
    cString lexer.buf front.length = text := by
  obtain ⟨tail, buf⟩ := left_buf ahead
  rw [cString, buf, List.append_assoc, List.append_assoc, List.drop_left, List.singleton_append]
  exact c_string_ended clean

theorem next_token_none (delim : UInt8) {quoted : Bool} (removeQuotes : Bool) {lexer : LexerData}
    {front : List UInt8} (left : Left lexer front none) :
    nextToken lexer delim quoted removeQuotes = (.tokenEnd, none, lexer) := by
  obtain ⟨junk, rfl⟩ := left
  have stopped : scan delim quoted removeQuotes ⟨⟨front ++ junk, front.length, front.length⟩,
      false, 0, 0⟩ = ⟨⟨front ++ junk, front.length, front.length⟩, false, 0, 0⟩ := by
    apply outcome_done
    simp [scanBody]
  simp [nextToken, stopped]

end QuotedTokens
