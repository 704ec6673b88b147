import UNit.Lexer

/-!
Command lines: environment variables, the program and its arguments. The
tokens are pointers into one duplicate of the command line, and are read as
strings after the whole parse.
-/
namespace Cmdline
open Lexer LoopRuns

def argsMax : Nat := 128
def envMax : Nat := 128
def space : UInt8 := 32
def equals : UInt8 := 61

/-- The arrays are zeroed before the parse, so the slots that are taken are the
    first ones. The duplicate is what the pointers point into. -/
structure CmdlineContents where
  args : List Nat
  env : List Nat
  freeable : List UInt8
  deriving DecidableEq, Repr

/-- The first slot that is NULL, if it is not the last one. -/
def addPointer (slots : Nat) (pointers : List Nat) (p : Nat) : Option (List Nat) :=
  if pointers.length < slots - 1 then some (pointers ++ [p]) else none

def addEnv (env : List Nat) (token : Nat) : Option (List Nat) := addPointer envMax env token
def addArg (args : List Nat) (token : Nat) : Option (List Nat) := addPointer argsMax args token

structure Parsing where
  lexer : LexerData
  args : List Nat
  env : List Nat
  deriving DecidableEq, Repr

def Parsing.left (st : Parsing) : Nat := st.lexer.size - st.lexer.pos

def envBody (st : Parsing) : Parsing ⊕ Option (Nat × Parsing) :=
  match nextToken st.lexer space true true with
  | (.ok, token, lexer) =>
    let token := token.getD 0
    if equals ∈ cString lexer.buf token then
      match addEnv st.env token with
      | some env => .inl { st with lexer := lexer, env := env }
      | none => .inr none
    else .inr (some (token, { st with lexer := lexer }))
  | _ => .inr none

def argBody (st : Parsing) : Parsing ⊕ Option Parsing :=
  match nextToken st.lexer space true true with
  | (.ok, token, lexer) =>
    match addArg st.args (token.getD 0) with
    | some args => .inl { st with lexer := lexer, args := args }
    | none => .inr none
  | (.tokenEnd, _, lexer) => .inr (some { st with lexer := lexer })
  | _ => .inr none

theorem env_shrinks (st next : Parsing) (goesOn : envBody st = .inl next) :
    next.left < st.left := by
  simp only [envBody] at goesOn
  split at goesOn
  · rename_i token lexer found
    split at goesOn
    · split at goesOn
      · obtain rfl := Sum.inl.inj goesOn
        exact next_token_shrinks found
      · simp at goesOn
    · simp at goesOn
  · simp at goesOn

theorem arg_shrinks (st next : Parsing) (goesOn : argBody st = .inl next) :
    next.left < st.left := by
  simp only [argBody] at goesOn
  split at goesOn
  · rename_i token lexer found
    split at goesOn
    · obtain rfl := Sum.inl.inj goesOn
      exact next_token_shrinks found
    · simp at goesOn
  · simp at goesOn
  · simp at goesOn

/-- None where parse_cmdline returns false; strdup is an input. -/
def parseCmdline (strdup : Bool) (cmdline : List UInt8) : Option CmdlineContents :=
  if strdup then
    let dup := cmdline ++ [0]
    match outcome envBody Parsing.left env_shrinks ⟨initLexer dup (cmdline.length + 1), [], []⟩ with
    | none => none
    | some (program, st) =>
      match addArg st.args program with
      | none => none
      | some args =>
        match outcome argBody Parsing.left arg_shrinks { st with args := args } with
        | none => none
        | some st => some ⟨st.args, st.env, st.lexer.buf⟩
  else none

def CmdlineContents.argStrings (contents : CmdlineContents) : List (List UInt8) :=
  contents.args.map (cString contents.freeable)

def CmdlineContents.envStrings (contents : CmdlineContents) : List (List UInt8) :=
  contents.env.map (cString contents.freeable)

end Cmdline
