import UNit.QuotedTokens

/-!
Tokens with their quotes left in. Nothing is moved in the buffer then, and the
calls of next_token up to TOKEN_END take the text apart at its delimiters, with
nothing lost: joined with the delimiter the tokens are the text again.
-/
namespace TokenSplitting
open LoopRuns Lexer QuotedSplit QuotedTokens

def quotes (quoted : Bool) (c : UInt8) : Bool := isQuote c && quoted

structure Token where
  result : TokenResult
  text : List UInt8
  deriving DecidableEq, Repr

structure Tokenising where
  lexer : LexerData
  tokens : List Token
  deriving DecidableEq, Repr

def tokensBody (delim : UInt8) (quoted : Bool) (st : Tokenising) : Tokenising ⊕ List Token :=
  match nextToken st.lexer delim quoted false with
  | (.tokenEnd, _, _) => .inr st.tokens
  | (result, token, lexer) =>
    .inl ⟨lexer, st.tokens ++ [⟨result, cString lexer.buf (token.getD 0)⟩]⟩

def resultOf (quoted : Bool) (delim : UInt8) (piece : List UInt8) : TokenResult :=
  if openAfter (quotes quoted) delim none piece ≠ none then .unfinishedQuote
  else if piece = [] then .blank
  else .ok

def Agrees (st : Scanning) : Option UInt8 → Prop
  | none => st.quoting = false
  | some k => st.quoting = true ∧ st.quote = k

variable {quoted : Bool} {delim : UInt8} {front : List UInt8}

theorem kept_step {st : Scanning} {q : Option UInt8} {raw rest junk : List UInt8} {c : UInt8}
    (visible : c ≠ 0) (here : st.lexer = scanned front raw (c :: rest) junk) (agrees : Agrees st q)
    (inside : ¬ (q = none ∧ c = delim)) :
    ∃ next, scanBody delim quoted false st = .inl next ∧
      next.lexer = scanned front (raw ++ [c]) rest junk ∧
      Agrees next (follow (quotes quoted) delim q c) := by
  obtain ⟨bounded, current, _⟩ := scanned_facts front raw rest junk c
  rw [← here] at bounded current
  cases q with
  | none =>
    have quoting : st.quoting = false := agrees
    have other : c ≠ delim := by simpa using inside
    by_cases opens : isQuote c = true ∧ quoted = true
    · refine ⟨{ st with quote := c, quoting := true, quoteStart := st.lexer.pos }.advance, ?_,
        advance_scanned here, ?_⟩
      · simp only [scanBody, current]
        simp [bounded, visible, quoting, other, opens.1, opens.2]
      · simp [follow, quotes, opens.1, opens.2, other, Agrees, Scanning.advance]
    · refine ⟨st.advance, ?_, advance_scanned here, ?_⟩
      · simp only [scanBody, current]
        simp [bounded, visible, quoting, other, opens]
      · simp [follow, quotes, opens, Agrees, Scanning.advance, quoting]
  | some k =>
    obtain ⟨quoting, rfl⟩ : st.quoting = true ∧ st.quote = k := agrees
    by_cases closes : c = st.quote
    · refine ⟨({ st with quote := 0, quoting := false } : Scanning).advance, ?_,
        advance_scanned here, ?_⟩
      · simp only [scanBody, current]
        simp [bounded, visible, quoting, ← closes]
      · simp [follow, closes, Agrees, Scanning.advance]
    · refine ⟨st.advance, ?_, advance_scanned here, ?_⟩
      · simp only [scanBody, current]
        simp [bounded, visible, quoting, closes]
      · simp [follow, closes, Agrees, Scanning.advance, quoting]

theorem scan_kept {st : Scanning} {q : Option UInt8} {raw rest junk : List UInt8}
    (clean : 0 ∉ rest) (here : st.lexer = scanned front raw rest junk) (agrees : Agrees st q) :
    (scan delim quoted false st).lexer =
      scanned front (raw ++ (cut (quotes quoted) delim q rest).1)
        (behind delim (cut (quotes quoted) delim q rest).2) junk ∧
    Agrees (scan delim quoted false st)
      (openAfter (quotes quoted) delim q (cut (quotes quoted) delim q rest).1) := by
  induction rest generalizing st q raw with
  | nil =>
    rw [scan_at_end delim quoted false here]
    exact ⟨by simpa [cut, behind] using here, agrees⟩
  | cons c rest ih =>
    obtain ⟨zero, others⟩ : 0 ≠ c ∧ 0 ∉ rest := by simpa using clean
    by_cases ends : q = none ∧ c = delim
    · obtain ⟨rfl, rfl⟩ := ends
      have quoting : st.quoting = false := agrees
      have stopped : scan c quoted false st = st := by
        apply outcome_done
        obtain ⟨bounded, current, _⟩ := scanned_facts front raw rest junk c
        rw [← here] at bounded current
        simp only [scanBody, current]
        simp [bounded, zero.symm, quoting]
      rw [stopped]
      exact ⟨by simpa [cut, behind] using here, by simpa [cut, openAfter] using agrees⟩
    · obtain ⟨next, goesOn, there, later⟩ :=
        @kept_step quoted delim front st q raw rest junk c zero.symm here agrees ends
      have same : scan delim quoted false st = scan delim quoted false next :=
        outcome_next goesOn
      rw [same]
      have rest := ih others there later
      simpa [cut, ends, openAfter] using rest

theorem next_token_kept (quoted : Bool) (delim : UInt8) {lexer : LexerData} {rest : List UInt8}
    (left : Left lexer front (some rest)) :
    ∃ lexer', nextToken lexer delim quoted false =
        (resultOf quoted delim (cut (quotes quoted) delim none rest).1, some front.length,
          lexer') ∧
      Left lexer' (front ++ ((cut (quotes quoted) delim none rest).1 ++ [0]))
        (cut (quotes quoted) delim none rest).2 := by
  obtain ⟨clean, junk, rfl⟩ := left
  generalize started : (⟨⟨front ++ (rest ++ 0 :: junk), front.length + (rest.length + 1),
    front.length⟩, false, 0, 0⟩ : Scanning) = st
  have here : st.lexer = scanned front [] rest junk := by simp [← started, scanned]
  obtain ⟨lexer', agrees⟩ := @scan_kept quoted delim front st none [] rest junk clean here
    (by simp [Agrees, ← started])
  have cleanly : ∀ later, (cut (quotes quoted) delim none rest).2 = some later → 0 ∉ later :=
    fun later found zero => clean (mem_of_mem_cut found zero)
  rw [List.nil_append] at lexer'
  generalize cut (quotes quoted) delim none rest = token at lexer' agrees cleanly
  refine ⟨_, ?_, left_ended delim front token.1 junk token.2 cleanly⟩
  have place : (scan delim quoted false st).lexer.pos = front.length + token.1.length := by
    rw [lexer']
    rfl
  have inside : ¬ (scan delim quoted false st).lexer.size ≤ front.length + token.1.length := by
    rw [lexer']
    simp only [scanned]
    omega
  have nothing : front.length + token.1.length = front.length ↔ token.1 = [] := by
    rw [← List.length_eq_zero_iff]
    omega
  cases opened : openAfter (quotes quoted) delim none token.1 with
  | none =>
    have quoting : (scan delim quoted false st).quoting = false := by
      rwa [opened] at agrees
    simp only [nextToken, started, quoting, place, inside, nothing, resultOf, opened,
      Bool.false_eq_true, ↓reduceIte, ne_eq, not_true_eq_false]
    rw [lexer']
    split <;> rfl
  | some k =>
    rw [opened] at agrees
    simp only [nextToken, started, agrees.1, place, resultOf, opened, ↓reduceIte, ne_eq,
      reduceCtorEq, not_false_eq_true]
    rw [lexer']

theorem tokens_of_left (quoted : Bool) (delim : UInt8) (left : Option (List UInt8))
    {lexer : LexerData} (ahead : Left lexer front left) (tokens : List Token) :
    Ends (tokensBody delim quoted) ⟨lexer, tokens⟩
      (tokens ++ (piecesLeft (quotes quoted) delim left).map
        (fun piece => ⟨resultOf quoted delim piece, piece⟩)) := by
  induction left using left_rule (quotes quoted) delim generalizing lexer front tokens with
  | ended =>
    apply ends_done
    simp [tokensBody, next_token_none delim false ahead, piecesLeft]
  | next rest ih =>
    obtain ⟨lexer', called, later⟩ := next_token_kept quoted delim ahead
    have clean : 0 ∉ (cut (quotes quoted) delim none rest).1 :=
      fun zero => ahead.1 (cut_subset none rest zero)
    have text := token_string later clean
    rw [pieces_left_some]
    generalize cut (quotes quoted) delim none rest = token at called later text ih
    have goesOn : tokensBody delim quoted ⟨lexer, tokens⟩ =
        .inl ⟨lexer', tokens ++ [⟨resultOf quoted delim token.1, token.1⟩]⟩ := by
      have other : resultOf quoted delim token.1 ≠ .tokenEnd := by
        unfold resultOf
        split
        · simp
        · split <;> simp
      simp only [tokensBody, called]
      cases result : resultOf quoted delim token.1 with
      | tokenEnd => exact absurd result other
      | ok => simp [text]
      | blank => simp [text]
      | unfinishedQuote => simp [text]
    have others := ih later (tokens ++ [⟨resultOf quoted delim token.1, token.1⟩])
    rw [List.append_assoc, List.singleton_append] at others
    rw [ends_next_iff goesOn, List.map_cons]
    exact others

theorem tokens_pieces (quoted : Bool) (delim : UInt8) {s : List UInt8} (clean : 0 ∉ s) :
    Ends (tokensBody delim quoted) ⟨initLexer (s ++ [0]) (s.length + 1), []⟩
      ((pieces (quotes quoted) delim none s).map
        (fun piece => ⟨resultOf quoted delim piece, piece⟩)) := by
  simpa [piecesLeft] using tokens_of_left quoted delim (some s) (left_init clean) []

theorem open_unquoted (text : List UInt8) : openAfter (quotes false) delim none text = none := by
  induction text with
  | nil => rfl
  | cons c text ih => simpa [openAfter, follow, quotes] using ih

theorem whole_unquoted {text : List UInt8} (whole : Whole (quotes false) delim none text) :
    delim ∉ text := by
  induction text with
  | nil => simp
  | cons c text ih =>
    obtain ⟨other, later⟩ := whole_cons.mp whole
    have still : follow (quotes false) delim none c = none := by simp [follow, quotes]
    rw [still] at later
    simpa [eq_comm] using And.intro other (ih later)

theorem quotes_true : quotes true = isQuote := by
  funext c
  simp [quotes]

theorem result_of_ok {piece : List UInt8} (ok : resultOf quoted delim piece = .ok) :
    piece ≠ [] ∧ openAfter (quotes quoted) delim none piece = none := by
  unfold resultOf at ok
  split at ok
  · simp at ok
  · rename_i closed
    split at ok
    · simp at ok
    · rename_i some
      exact ⟨some, by simpa using closed⟩

theorem result_of_blank {piece : List UInt8} (blank : resultOf quoted delim piece = .blank) :
    piece = [] := by
  unfold resultOf at blank
  split at blank
  · simp at blank
  · split at blank
    · assumption
    · simp at blank

theorem result_of_unfinished {piece : List UInt8} :
    resultOf quoted delim piece = .unfinishedQuote ↔
      openAfter (quotes quoted) delim none piece ≠ none := by
  unfold resultOf
  split
  · simp_all
  · split <;> simp_all

theorem unfinished_token_iff (s : List UInt8) :
    (∃ t ∈ (pieces (quotes quoted) delim none s).map
        (fun piece => (⟨resultOf quoted delim piece, piece⟩ : Token)),
      t.result = .unfinishedQuote) ↔
    quoted = true ∧ openAfter isQuote delim none s ≠ none := by
  have found : (∃ piece ∈ pieces (quotes quoted) delim none s,
      resultOf quoted delim piece = .unfinishedQuote) ↔
      openAfter (quotes quoted) delim none s ≠ none := by
    simp only [result_of_unfinished, open_piece_iff]
  simp only [List.mem_map, exists_exists_and_eq_and, found]
  cases quoted with
  | true => simp [quotes_true]
  | false => simp [open_unquoted]

/-- The text is split without loss: what the calls return, joined with the
    delimiter, is the text. A complete token is not empty and has no delimiter
    and no open quote outside of the quotes the calls look for; a quote that is
    not closed is found with the last token. -/
theorem tokens_lossless (s : List UInt8) (clean : 0 ∉ s) (delim : UInt8) (quoted : Bool) :
    ∃ tokens, Ends (tokensBody delim quoted) ⟨initLexer (s ++ [0]) (s.length + 1), []⟩ tokens ∧
      [delim].intercalate (tokens.map Token.text) = s ∧
      (∀ t ∈ tokens, t.result = .ok → t.text ≠ [] ∧
        (quoted = true → Closed isQuote delim t.text) ∧ (quoted = false → delim ∉ t.text)) ∧
      (∀ t ∈ tokens, t.result = .blank → t.text = []) ∧
      (∀ before t after, tokens = before ++ t :: after → t.result = .unfinishedQuote →
        after = []) ∧
      ((∃ t ∈ tokens, t.result = .unfinishedQuote) ↔
        quoted = true ∧ openAfter isQuote delim none s ≠ none) := by
  refine ⟨_, tokens_pieces quoted delim clean, ?_, ?_, ?_, ?_, ?_⟩
  · rw [List.map_map]
    exact (congrArg _ (List.map_id _)).trans (join_pieces s)
  · intro t member ok
    obtain ⟨piece, inside, rfl⟩ := List.mem_map.mp member
    obtain ⟨some, closed⟩ := result_of_ok ok
    have whole := pieces_each_whole s piece inside
    refine ⟨some, ?_, ?_⟩
    · rintro rfl
      rw [quotes_true] at whole closed
      exact ⟨whole, closed⟩
    · rintro rfl
      exact whole_unquoted whole
  · intro t member blank
    obtain ⟨piece, _, rfl⟩ := List.mem_map.mp member
    exact result_of_blank blank
  · intro before t after split unfinished
    obtain ⟨first, second, both, _, more⟩ := List.map_eq_append_iff.mp split
    obtain ⟨piece, last, rfl, rfl, rfl⟩ := List.map_eq_cons_iff.mp more
    rw [open_piece_last both (result_of_unfinished.mp unfinished), List.map_nil]
  · exact unfinished_token_iff s

theorem tokens_lossless_for_open_quote :
    ∃ tokens, Ends (tokensBody 44 true) ⟨initLexer [44, 97, 39, 44, 39, 44, 34, 44, 0] 9, []⟩
        tokens ∧
      [44].intercalate (tokens.map Token.text) = [44, 97, 39, 44, 39, 44, 34, 44] ∧
      ∃ t ∈ tokens, t.result = .unfinishedQuote := by
  obtain ⟨tokens, ends, joined, _, _, _, unfinished⟩ :=
    tokens_lossless [44, 97, 39, 44, 39, 44, 34, 44] (by decide) 44 true
  exact ⟨tokens, ends, joined, unfinished.mpr (by decide)⟩

end TokenSplitting
