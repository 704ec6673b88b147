import Mathlib.Data.List.SplitBy
import UNit.CmdlineGrammar

/-!
Argument vectors that are written as a command line. Every string is put in
quotes, a run of apostrophes in the other ones. They are read back, unless an
argument is empty: behind its quotes next_token is where it began, and takes the
token for a blank one.
-/
namespace CmdlineRoundTrip
open DecimalText Lexer Cmdline QuotedSplit CmdlineGrammar

def apostrophe : UInt8 := 39
def doubleQuote : UInt8 := 34

def quoteRun (run : List UInt8) : List UInt8 :=
  let quote := if apostrophe ∈ run then doubleQuote else apostrophe
  quote :: (run ++ [quote])

def sameRun (first second : UInt8) : Bool := (first == apostrophe) == (second == apostrophe)

def quoted (text : List UInt8) : List UInt8 :=
  if text = [] then [apostrophe, apostrophe] else (text.splitBy sameRun).flatMap quoteRun

def quotedLine (env : List (List UInt8)) (program : List UInt8) (args : List (List UInt8)) :
    List UInt8 :=
  [space].intercalate ((env ++ program :: args).map quoted)

theorem run_of_chain {run : List UInt8} (chain : run.IsChain (fun a b => sameRun a b)) :
    apostrophe ∉ run ∨ ∀ c ∈ run, c = apostrophe := by
  induction run with
  | nil => simp
  | cons c run ih =>
    cases run with
    | nil =>
      by_cases same : c = apostrophe
      · simp [same]
      · exact .inl (by simpa using Ne.symm same)
    | cons next run =>
      rw [List.isChain_cons_cons] at chain
      have both : c = apostrophe ↔ next = apostrophe := by
        have equal : (c == apostrophe) = (next == apostrophe) := beq_iff_eq.mp chain.1
        rw [← beq_iff_eq, equal, beq_iff_eq]
      rcases ih chain.2 with others | all
      · have other : next ≠ apostrophe := fun same => others (by simp [same])
        exact .inl (by simpa [Ne.symm (both.not.mpr other)] using others)
      · refine .inr ?_
        intro d member
        rcases List.mem_cons.mp member with rfl | later
        · exact both.mpr (all next List.mem_cons_self)
        · exact all d later

theorem quote_run_closed {run : List UInt8} (chain : run.IsChain (fun a b => sameRun a b)) :
    Closed isQuote space (quoteRun run) ∧ unquote isQuote space none (quoteRun run) = run := by
  by_cases inside : apostrophe ∈ run
  · have free : doubleQuote ∉ run := by
      rcases run_of_chain chain with others | all
      · exact absurd inside others
      · intro member
        exact absurd (all doubleQuote member) (by decide)
    simp only [quoteRun, inside, ↓reduceIte]
    exact section_closed (by decide) (by decide) free
  · simp only [quoteRun, inside, ↓reduceIte]
    exact section_closed (by decide) (by decide) inside

theorem quote_runs_closed {runs : List (List UInt8)}
    (chains : ∀ run ∈ runs, run.IsChain (fun a b => sameRun a b)) :
    Closed isQuote space (runs.flatMap quoteRun) ∧
      unquote isQuote space none (runs.flatMap quoteRun) = runs.flatten := by
  induction runs with
  | nil => exact ⟨⟨rfl, rfl⟩, rfl⟩
  | cons run runs ih =>
    obtain ⟨first, same⟩ := quote_run_closed (chains run List.mem_cons_self)
    obtain ⟨later, others⟩ :=
      ih (fun other member => chains other (List.mem_cons_of_mem run member))
    obtain ⟨closed, split⟩ := closed_append first later
    rw [List.flatMap_cons, List.flatten_cons]
    exact ⟨closed, by rw [split, same, others]⟩

theorem quoted_closed (text : List UInt8) :
    Closed isQuote space (quoted text) ∧ unquote isQuote space none (quoted text) = text := by
  by_cases nothing : text = []
  · subst nothing
    exact section_closed (by decide) (by decide) List.not_mem_nil
  · have chains : ∀ run ∈ text.splitBy sameRun, run.IsChain (fun a b => sameRun a b) :=
      fun run member => List.isChain_of_mem_splitBy member
    have runs := quote_runs_closed chains
    rw [List.flatten_splitBy] at runs
    simpa [quoted, nothing] using runs

theorem quoted_line_strings (env : List (List UInt8)) (program : List UInt8)
    (args : List (List UInt8)) :
    strings (quotedLine env program args) = env ++ program :: args ∧
      openAfter isQuote space none (quotedLine env program args) = none := by
  generalize vector : env ++ program :: args = texts
  have some : texts.map quoted ≠ [] := by simp [← vector]
  have closed : ∀ piece ∈ texts.map quoted, Closed isQuote space piece := by
    intro piece member
    obtain ⟨text, _, rfl⟩ := List.mem_map.mp member
    exact (quoted_closed text).1
  have unquoted : unquote isQuote space none ∘ quoted = id := by
    funext text
    exact (quoted_closed text).2
  rw [strings, quotedLine, vector, pieces_join some closed, List.map_map, unquoted, List.map_id]
  exact ⟨rfl, open_join closed⟩

theorem quote_run_mem {run : List UInt8} {c : UInt8} (member : c ∈ quoteRun run) :
    c ∈ run ∨ c = apostrophe ∨ c = doubleQuote := by
  simp only [quoteRun] at member
  split at member
  · rcases List.mem_cons.mp member with first | later
    · exact .inr (.inr first)
    · rcases List.mem_append.mp later with inside | last
      · exact .inl inside
      · exact .inr (.inr (List.mem_singleton.mp last))
  · rcases List.mem_cons.mp member with first | later
    · exact .inr (.inl first)
    · rcases List.mem_append.mp later with inside | last
      · exact .inl inside
      · exact .inr (.inl (List.mem_singleton.mp last))

theorem quoted_clean {text : List UInt8} (clean : 0 ∉ text) : 0 ∉ quoted text := by
  intro zero
  simp only [quoted] at zero
  split at zero
  · exact absurd zero (by decide)
  · obtain ⟨run, among, member⟩ := List.mem_flatMap.mp zero
    rcases quote_run_mem member with inside | quote
    · refine clean ?_
      rw [← List.flatten_splitBy sameRun text]
      exact List.mem_flatten.mpr ⟨run, among, inside⟩
    · exact absurd quote (by decide)

/-- An environment, a program and its arguments that fit the arrays. Arguments
    may be empty. -/
structure ArgumentVector (env : List (List UInt8)) (program : List UInt8)
    (args : List (List UInt8)) : Prop where
  clean : ∀ text ∈ env ++ program :: args, 0 ∉ text
  assigns : ∀ text ∈ env, equals ∈ text
  named : program ≠ []
  plain : equals ∉ program
  envRoom : env.length ≤ envMax - 1
  argRoom : (program :: args).length ≤ argsMax - 1

instance (env : List (List UInt8)) (program : List UInt8) (args : List (List UInt8)) :
    Decidable (ArgumentVector env program args) :=
  decidable_of_iff ((∀ text ∈ env ++ program :: args, 0 ∉ text) ∧ (∀ text ∈ env, equals ∈ text) ∧
      program ≠ [] ∧ equals ∉ program ∧ env.length ≤ envMax - 1 ∧
      (program :: args).length ≤ argsMax - 1)
    ⟨fun ⟨a, b, c, d, e, f⟩ => ⟨a, b, c, d, e, f⟩, fun ⟨a, b, c, d, e, f⟩ => ⟨a, b, c, d, e, f⟩⟩

def ReadBack (env : List (List UInt8)) (program : List UInt8) (args : List (List UInt8)) : Prop :=
  ∃ contents, parseCmdline true (quotedLine env program args) = some contents ∧
    Filled envMax contents.freeable contents.env env ∧
    Filled argsMax contents.freeable contents.args (program :: args)

theorem quoted_vector_read_back_iff (env : List (List UInt8)) (program : List UInt8)
    (args : List (List UInt8)) (vector : ArgumentVector env program args) :
    ReadBack env program args ↔ [] ∉ args := by
  obtain ⟨texts, closed⟩ := quoted_line_strings env program args
  have clean : 0 ∉ quotedLine env program args := by
    intro zero
    rcases mem_join zero with mark | ⟨piece, member, inside⟩
    · exact absurd mark (by decide)
    · obtain ⟨text, among, rfl⟩ := List.mem_map.mp member
      exact quoted_clean (vector.clean text among) inside
  have assigns : ∀ text ∈ env, hasEquals text = true := by
    simpa [hasEquals] using vector.assigns
  have plain : ¬ hasEquals program = true := by simpa [hasEquals] using vector.plain
  have taken : (strings (quotedLine env program args)).takeWhile hasEquals = env := by
    rw [texts, List.takeWhile_append_of_pos assigns, List.takeWhile_cons_of_neg plain,
      List.append_nil]
  have dropped : (strings (quotedLine env program args)).dropWhile hasEquals = program :: args := by
    rw [texts, List.dropWhile_append_of_pos assigns, List.dropWhile_cons_of_neg plain]
  have accepted : Accepted (quotedLine env program args) ↔ [] ∉ args := by
    have assigned : [] ∉ env := fun member => absurd (vector.assigns [] member) List.not_mem_nil
    have room : args.length + 1 ≤ argsMax - 1 := vector.argRoom
    rw [Accepted, taken, dropped, texts]
    simp [closed, assigned, vector.named.symm, vector.envRoom, room]
  rw [← accepted]
  rcases parse_cmdline_outcome clean with ⟨fits, contents, parsed, filled⟩ | ⟨unfit, failed⟩
  · rw [taken, dropped] at filled
    exact ⟨fun _ => fits, fun _ => ⟨contents, parsed, filled⟩⟩
  · refine ⟨?_, fun fits => absurd fits unfit⟩
    rintro ⟨contents, parsed, _⟩
    simp [failed] at parsed

theorem quotes_read_back : ReadBack [ascii "A= x"] (ascii "it's") [ascii "'\"'", ascii "a b"] :=
  (quoted_vector_read_back_iff [ascii "A= x"] (ascii "it's") [ascii "'\"'", ascii "a b"]
    (by decide +kernel)).mpr (by decide +kernel)

/-- An empty argument is not read back. -/
theorem empty_argument_rejected : ArgumentVector [] (ascii "echo") [[]] ∧
    parseCmdline true (quotedLine [] (ascii "echo") [[]]) = none ∧
    ¬ ReadBack [] (ascii "echo") [[]] := by
  have failed : parseCmdline true (quotedLine [] (ascii "echo") [[]]) = none := by decide +kernel
  refine ⟨by decide +kernel, failed, ?_⟩
  rintro ⟨contents, parsed, _⟩
  simp [failed] at parsed

end CmdlineRoundTrip
