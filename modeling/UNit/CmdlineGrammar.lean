import UNit.Cmdline
import UNit.DecimalText
import UNit.QuotedTokens

/-!
The grammar of command lines. The strings of a command line are its pieces
between spaces outside of quotes, without those quotes. The parse accepts the
lines whose strings are environment variables, a program and arguments that fit
the arrays, and the pointers it has stored are these strings at its end,
although the buffer has been moved under them.
-/
namespace CmdlineGrammar
open LoopRuns DecimalText Lexer Cmdline QuotedSplit QuotedTokens

def hasEquals (text : List UInt8) : Bool := equals ∈ text

def stringsLeft (left : Option (List UInt8)) : List (List UInt8) :=
  (piecesLeft isQuote space left).map (unquote isQuote space none)

def strings (line : List UInt8) : List (List UInt8) :=
  (pieces isQuote space none line).map (unquote isQuote space none)

/-- Pointers in front of the bytes that are left: what is there later does not
    change the strings they point at. -/
def Stored (front : List UInt8) (pointers : List Nat) (texts : List (List UInt8)) : Prop :=
  ∀ tail, pointers.map (cString (front ++ tail)) = texts

variable {front : List UInt8} {pointers : List Nat} {texts : List (List UInt8)}

theorem stored_nil (front : List UInt8) : Stored front [] [] := by
  intro tail
  rfl

theorem stored_grows (stored : Stored front pointers texts) (more : List UInt8) :
    Stored (front ++ more) pointers texts := by
  intro tail
  rw [List.append_assoc]
  exact stored (more ++ tail)

theorem stored_here (front : List UInt8) {text : List UInt8} (clean : 0 ∉ text) :
    Stored (front ++ (text ++ [0])) [front.length] [text] := by
  intro tail
  simp only [List.map_cons, List.map_nil, cString, List.append_assoc, List.drop_left,
    List.singleton_append]
  rw [c_string_ended clean]

theorem stored_add {others : List Nat} {more : List (List UInt8)}
    (stored : Stored front pointers texts) (added : Stored front others more) :
    Stored front (pointers ++ others) (texts ++ more) := by
  intro tail
  rw [List.map_append, stored tail, added tail]

theorem stored_length (stored : Stored front pointers texts) : pointers.length = texts.length := by
  rw [← stored [], List.length_map]

theorem next_string {lexer : LexerData} {front rest : List UInt8}
    (left : Left lexer front (some rest)) :
    ∃ text more, stringsLeft (some rest) = text :: stringsLeft more ∧ 0 ∉ text ∧
      more = (cut isQuote space none rest).2 ∧
      ((ClosedLeft isQuote space (some rest) ↔ ClosedLeft isQuote space more) ∧
        (∃ lexer', nextToken lexer space true true =
            (if text = [] then .blank else .ok, some front.length, lexer') ∧
          Left lexer' (front ++ (text ++ [0])) more) ∨
      ¬ ClosedLeft isQuote space (some rest) ∧
        (nextToken lexer space true true).1 = .unfinishedQuote) := by
  have token := next_token_quoted true space left
  simp only [kept, ↓reduceIte] at token
  refine ⟨unquote isQuote space none (cut isQuote space none rest).1,
    (cut isQuote space none rest).2, by simp [stringsLeft, pieces_left_some], ?_, rfl, ?_⟩
  · intro zero
    exact left.1 (cut_subset none rest ((unquote_sublist none _).subset zero))
  · rw [closed_left_some]
    split at token
    · rename_i closed
      exact .inl ⟨by simp [closed], token⟩
    · rename_i unfinished
      exact .inr ⟨by simp [unfinished], token⟩

def ArgsFit (left : Option (List UInt8)) (stored : Nat) : Prop :=
  ClosedLeft isQuote space left ∧ [] ∉ stringsLeft left ∧
    stored + (stringsLeft left).length ≤ argsMax - 1

theorem arg_loop (left : Option (List UInt8)) {lexer : LexerData} {front : List UInt8}
    {args env : List Nat} {argTexts envTexts : List (List UInt8)} (ahead : Left lexer front left)
    (argsStored : Stored front args argTexts) (envStored : Stored front env envTexts)
    (room : argTexts.length ≤ argsMax - 1) :
    (ArgsFit left argTexts.length ∧
      ∃ st, outcome argBody Parsing.left arg_shrinks ⟨lexer, args, env⟩ = some st ∧
        st.args.map (cString st.lexer.buf) = argTexts ++ stringsLeft left ∧
        st.env.map (cString st.lexer.buf) = envTexts) ∨
    (¬ ArgsFit left argTexts.length ∧
      outcome argBody Parsing.left arg_shrinks ⟨lexer, args, env⟩ = none) := by
  induction left using left_rule isQuote space generalizing lexer front args argTexts with
  | ended =>
    have left : argBody ⟨lexer, args, env⟩ = .inr (some ⟨lexer, args, env⟩) := by
      simp [argBody, next_token_none space true ahead]
    refine .inl ⟨⟨trivial, by simp [stringsLeft, piecesLeft], by simpa [stringsLeft, piecesLeft]⟩,
      ⟨lexer, args, env⟩, outcome_done left, ?_⟩
    obtain ⟨junk, rfl⟩ := ahead
    exact ⟨by simpa [stringsLeft, piecesLeft] using argsStored junk, envStored junk⟩
  | next rest ih =>
    obtain ⟨text, more, all, clean, rfl, called⟩ := next_string ahead
    have counted := stored_length argsStored
    simp only [ArgsFit, all, List.mem_cons, List.length_cons, not_or]
    rcases called with ⟨closed, lexer', token, later⟩ | ⟨unfinished, token⟩
    · by_cases blank : text = []
      · refine .inr ⟨by simp [blank], outcome_done ?_⟩
        simp [argBody, token, blank]
      · by_cases full : argTexts.length < argsMax - 1
        · have goesOn : argBody ⟨lexer, args, env⟩ =
              .inl ⟨lexer', args ++ [front.length], env⟩ := by
            simp [argBody, token, blank, addArg, addPointer, counted, full]
          have added := stored_add (stored_grows argsStored _) (stored_here front clean)
          have rest := ih later added (stored_grows envStored _) (by simp; omega)
          rw [outcome_next goesOn]
          simp only [ArgsFit, List.length_append, List.length_singleton, List.append_assoc,
            List.singleton_append] at rest
          have nonempty : ¬ [] = text := fun nothing => blank nothing.symm
          simpa only [closed, nonempty, not_false_eq_true, true_and, Nat.add_assoc,
            Nat.add_comm 1] using rest
        · refine .inr ⟨by omega, outcome_done ?_⟩
          simp [argBody, token, blank, addArg, addPointer, counted, full]
    · refine .inr ⟨by simp [unfinished], outcome_done ?_⟩
      simp only [argBody]
      split
      · rename_i same
        simp [same] at token
      · rename_i same
        simp [same] at token
      · rfl

def EnvFits (left : Option (List UInt8)) (stored : Nat) : Prop :=
  ClosedLeft isQuote space left ∧ [] ∉ stringsLeft left ∧
    (stringsLeft left).dropWhile hasEquals ≠ [] ∧
    stored + ((stringsLeft left).takeWhile hasEquals).length ≤ envMax - 1

structure ProgramFound (left : Option (List UInt8)) (envTexts : List (List UInt8))
    (program : Nat) (st : Parsing) (front text : List UInt8) (more : Option (List UInt8)) :
    Prop where
  others : (stringsLeft left).dropWhile hasEquals = text :: stringsLeft more
  closed : ClosedLeft isQuote space left ↔ ClosedLeft isQuote space more
  nonempty : [] ∉ (stringsLeft left).takeWhile hasEquals ∧ text ≠ []
  ahead : Left st.lexer front more
  noArgs : st.args = []
  env : Stored front st.env (envTexts ++ (stringsLeft left).takeWhile hasEquals)
  first : Stored front [program] [text]
  room : envTexts.length + ((stringsLeft left).takeWhile hasEquals).length ≤ envMax - 1

section
variable {left more : Option (List UInt8)} {text : List UInt8} {envTexts : List (List UInt8)}

theorem program_found_behind {program : Nat} {st : Parsing} {front first : List UInt8}
    {last : Option (List UInt8)} (all : stringsLeft left = text :: stringsLeft more)
    (closed : ClosedLeft isQuote space left ↔ ClosedLeft isQuote space more) (nonempty : text ≠ [])
    (assigns : hasEquals text = true)
    (found : ProgramFound more (envTexts ++ [text]) program st front first last) :
    ProgramFound left envTexts program st front first last := by
  have taken : (stringsLeft left).takeWhile hasEquals =
      text :: (stringsLeft more).takeWhile hasEquals := by
    rw [all, List.takeWhile_cons_of_pos assigns]
  refine ⟨?_, closed.trans found.closed, ?_, found.ahead, found.noArgs, ?_, found.first, ?_⟩
  · rw [all, List.dropWhile_cons_of_pos assigns, found.others]
  · simpa [taken, nonempty.symm] using found.nonempty
  · simpa [taken] using found.env
  · have fits := found.room
    simp only [taken, List.length_append, List.length_cons, List.length_nil] at fits ⊢
    omega

theorem program_found_here {lexer : LexerData} {front : List UInt8} {env : List Nat}
    (all : stringsLeft left = text :: stringsLeft more)
    (closed : ClosedLeft isQuote space left ↔ ClosedLeft isQuote space more) (nonempty : text ≠ [])
    (clean : 0 ∉ text) (plain : ¬ hasEquals text = true)
    (ahead : Left lexer (front ++ (text ++ [0])) more) (envStored : Stored front env envTexts)
    (room : envTexts.length ≤ envMax - 1) :
    ProgramFound left envTexts front.length ⟨lexer, [], env⟩ (front ++ (text ++ [0])) text
      more := by
  have nothing : (stringsLeft left).takeWhile hasEquals = [] := by
    rw [all, List.takeWhile_cons_of_neg plain]
  refine ⟨?_, closed, by simp [nothing, nonempty], ahead, rfl, ?_, stored_here front clean, ?_⟩
  · rw [all, List.dropWhile_cons_of_neg plain]
  · simpa [nothing] using stored_grows envStored _
  · simpa [nothing] using room

theorem env_fits_behind (all : stringsLeft left = text :: stringsLeft more)
    (closed : ClosedLeft isQuote space left ↔ ClosedLeft isQuote space more)
    (assigns : hasEquals text = true) {stored : Nat} (fits : EnvFits left stored) :
    EnvFits more (stored + 1) := by
  obtain ⟨shut, nonempty, others, fit⟩ := fits
  simp only [all, List.mem_cons, not_or, List.takeWhile_cons_of_pos assigns,
    List.dropWhile_cons_of_pos assigns, List.length_cons] at nonempty others fit
  exact ⟨closed.mp shut, nonempty.2, others, by omega⟩

end

theorem env_loop (left : Option (List UInt8)) {lexer : LexerData} {front : List UInt8}
    {env : List Nat} {envTexts : List (List UInt8)} (ahead : Left lexer front left)
    (envStored : Stored front env envTexts) (room : envTexts.length ≤ envMax - 1) :
    (∃ program st front' text more,
      outcome envBody Parsing.left env_shrinks ⟨lexer, [], env⟩ = some (program, st) ∧
        ProgramFound left envTexts program st front' text more) ∨
    (¬ EnvFits left envTexts.length ∧
      outcome envBody Parsing.left env_shrinks ⟨lexer, [], env⟩ = none) := by
  induction left using left_rule isQuote space generalizing lexer front env envTexts with
  | ended =>
    refine .inr ⟨by simp [EnvFits, stringsLeft, piecesLeft], outcome_done ?_⟩
    simp [envBody, next_token_none space true ahead]
  | next rest ih =>
    obtain ⟨text, more, all, clean, rfl, called⟩ := next_string ahead
    have counted := stored_length envStored
    rcases called with ⟨closed, lexer', token, later⟩ | ⟨unfinished, token⟩
    · by_cases blank : text = []
      · refine .inr ⟨by simp [EnvFits, all, blank], outcome_done ?_⟩
        simp [envBody, token, blank]
      · have pointed := token_string later clean
        by_cases assigns : hasEquals text = true
        · by_cases full : envTexts.length < envMax - 1
          · have goesOn : envBody ⟨lexer, [], env⟩ =
                .inl ⟨lexer', [], env ++ [front.length]⟩ := by
              have contained : equals ∈ text := by simpa [hasEquals] using assigns
              simp [envBody, token, blank, pointed, contained, addEnv, addPointer, counted, full]
            have added := stored_add (stored_grows envStored _) (stored_here front clean)
            rw [outcome_next goesOn]
            rcases ih later added (by simp; omega) with
              ⟨program, st, front', first, more, ended, found⟩ | ⟨unfit, ended⟩
            · exact .inl ⟨program, st, front', first, more, ended,
                program_found_behind all closed blank assigns found⟩
            · refine .inr ⟨fun fits => unfit ?_, ended⟩
              simpa using env_fits_behind all closed assigns fits
          · refine .inr ⟨?_, outcome_done ?_⟩
            · simp only [EnvFits, all, List.takeWhile_cons_of_pos assigns, List.length_cons]
              omega
            · have contained : equals ∈ text := by simpa [hasEquals] using assigns
              simp [envBody, token, blank, pointed, contained, addEnv, addPointer, counted, full]
        · have contained : equals ∉ text := by simpa [hasEquals] using assigns
          have stops : envBody ⟨lexer, [], env⟩ =
              .inr (some (front.length, ⟨lexer', [], env⟩)) := by
            simp [envBody, token, blank, pointed, contained]
          exact .inl ⟨front.length, ⟨lexer', [], env⟩, front ++ (text ++ [0]), text,
            (cut isQuote space none rest).2, outcome_done stops,
            program_found_here all closed blank clean assigns later envStored room⟩
    · refine .inr ⟨by simp [EnvFits, unfinished], outcome_done ?_⟩
      simp only [envBody]
      split
      · rename_i same
        simp [same] at token
      · rfl

def Filled (slots : Nat) (freeable : List UInt8) (pointers : List Nat)
    (texts : List (List UInt8)) : Prop :=
  pointers.map (cString freeable) = texts ∧ pointers.length < slots

/-- The line is in the grammar: no quote is open at its end, no string is empty,
    and behind the leading strings with '=' there is a program. -/
def Accepted (line : List UInt8) : Prop :=
  openAfter isQuote space none line = none ∧ [] ∉ strings line ∧
    (strings line).dropWhile hasEquals ≠ [] ∧
    ((strings line).takeWhile hasEquals).length ≤ envMax - 1 ∧
    ((strings line).dropWhile hasEquals).length ≤ argsMax - 1

theorem parse_cmdline_outcome {line : List UInt8} (clean : 0 ∉ line) :
    (Accepted line ∧ ∃ contents, parseCmdline true line = some contents ∧
      Filled envMax contents.freeable contents.env ((strings line).takeWhile hasEquals) ∧
      Filled argsMax contents.freeable contents.args ((strings line).dropWhile hasEquals)) ∨
    (¬ Accepted line ∧ parseCmdline true line = none) := by
  have all : stringsLeft (some line) = strings line := rfl
  rcases env_loop (some line) (left_init clean) (stored_nil []) (by simp) with
    ⟨program, st, front, text, more, ended, found⟩ | ⟨unfit, ended⟩
  · have others : (strings line).dropWhile hasEquals = text :: stringsLeft more := found.others
    have split : (strings line).takeWhile hasEquals ++ text :: stringsLeft more = strings line := by
      rw [← others, List.takeWhile_append_dropWhile]
    have envRoom : ((strings line).takeWhile hasEquals).length ≤ envMax - 1 := by
      simpa [all] using found.room
    have accepted : Accepted line ↔ ArgsFit more 1 := by
      have envNonempty : [] ∉ (strings line).takeWhile hasEquals := found.nonempty.1
      have nonempty : [] ∉ strings line ↔ [] ∉ stringsLeft more := by
        rw [← split, List.mem_append, List.mem_cons]
        simp [envNonempty, found.nonempty.2.symm]
      have closed : openAfter isQuote space none line = none ↔ ClosedLeft isQuote space more :=
        found.closed
      rw [Accepted, ArgsFit, closed, nonempty, others, List.length_cons, Nat.add_comm 1]
      simp [envRoom]
    have started : parseCmdline true line =
        (outcome argBody Parsing.left arg_shrinks ⟨st.lexer, [program], st.env⟩).map
          (fun st => ⟨st.args, st.env, st.lexer.buf⟩) := by
      have first : addArg [] program = some [program] := by simp [addArg, addPointer, argsMax]
      simp only [parseCmdline, ended, found.noArgs, first, ↓reduceIte]
      cases outcome argBody Parsing.left arg_shrinks ⟨st.lexer, [program], st.env⟩ <;> rfl
    rw [accepted, started]
    rcases arg_loop more found.ahead found.first found.env (by simp [argsMax]) with
      ⟨fits, last, ended, args, env⟩ | ⟨unfit, ended⟩
    · refine .inl ⟨fits, ⟨last.args, last.env, last.lexer.buf⟩, by rw [ended]; rfl, ⟨env, ?_⟩,
        ?_, ?_⟩
      · rw [← List.length_map (f := cString last.lexer.buf), env, all, List.nil_append]
        exact Nat.lt_of_le_of_lt envRoom (by decide)
      · rw [args, others]
        rfl
      · rw [← List.length_map (f := cString last.lexer.buf), args, List.length_append]
        exact Nat.lt_of_le_of_lt fits.2.2 (by decide)
    · exact .inr ⟨unfit, by rw [ended]; rfl⟩
  · refine .inr ⟨fun accepted => unfit ?_, ?_⟩
    · obtain ⟨closed, nonempty, others, fit, _⟩ := accepted
      exact ⟨closed, nonempty, others, by simpa [all] using fit⟩
    · simp [parseCmdline, ended]

instance (line : List UInt8) : Decidable (Accepted line) :=
  inferInstanceAs (Decidable (_ ∧ _ ∧ _ ∧ _ ∧ _))

/-- The parse is its grammar. Removing quotes moves the buffer, but the strings
    that were stored before are still there when all is parsed. -/
theorem parse_cmdline_grammar (line : List UInt8) (clean : 0 ∉ line) :
    ((∃ contents, parseCmdline true line = some contents) ↔ Accepted line) ∧
    ∀ contents, parseCmdline true line = some contents →
      Filled envMax contents.freeable contents.env ((strings line).takeWhile hasEquals) ∧
      Filled argsMax contents.freeable contents.args ((strings line).dropWhile hasEquals) := by
  rcases parse_cmdline_outcome clean with ⟨accepted, found, parsed, env, args⟩ | ⟨rejected, failed⟩
  · refine ⟨⟨fun _ => accepted, fun _ => ⟨found, parsed⟩⟩, ?_⟩
    intro contents same
    obtain rfl : found = contents := Option.some.inj (parsed.symm.trans same)
    exact ⟨env, args⟩
  · simp [failed, rejected]

theorem parse_cmdline_grammar_for_quotes :
    ∃ contents, parseCmdline true (ascii "A='x \"y\"' run a\"b c\"'d'") = some contents ∧
      Filled envMax contents.freeable contents.env [ascii "A=x \"y\""] ∧
      Filled argsMax contents.freeable contents.args [ascii "run", ascii "ab cd"] := by
  obtain ⟨accepts, filled⟩ :=
    parse_cmdline_grammar (ascii "A='x \"y\"' run a\"b c\"'d'") (by decide +kernel)
  obtain ⟨contents, parsed⟩ := accepts.mpr (by decide +kernel)
  obtain ⟨env, args⟩ := filled contents parsed
  have envStrings : (strings (ascii "A='x \"y\"' run a\"b c\"'d'")).takeWhile hasEquals =
      [ascii "A=x \"y\""] := by decide +kernel
  have argStrings : (strings (ascii "A='x \"y\"' run a\"b c\"'d'")).dropWhile hasEquals =
      [ascii "run", ascii "ab cd"] := by decide +kernel
  exact ⟨contents, parsed, envStrings ▸ env, argStrings ▸ args⟩

end CmdlineGrammar
