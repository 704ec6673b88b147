import Mathlib.Data.List.TakeDrop
import UNit.RecordTransfer
import UNit.SafeModeCommand

/-!
What the safe-mode command gets of the process that failed. Its command line
goes through two arrays on the way: the entry of the inittab holds 4096 bytes,
the record for the placeholder 1024. The tags are substituted in place, in one
pass over the parsed arguments, so that what was put in for a tag is not looked
at again.
-/
namespace TagSubstitution
open Lexer Cmdline DecimalText SafeModeRecord SafeModeCommand LabelledRuns LoopRuns RecordTransfer

structure ProcessString where
  text : List UInt8
  clean : 0 ∉ text
  fits : text.length < 4096

/-- The argument vector as it is documented: the tags are substituted, each at
    its own place, and everything else is passed on. -/
structure Delivered (process : List UInt8) (sig : Int) (args argv : List (List UInt8)) :
    Prop where
  length : argv.length = args.length
  proc : ∀ i : Nat, args[i]? = some (ascii "<proc>") → argv[i]? = some process
  exitcode : ∀ i : Nat, args[i]? = some (ascii "<exitcode>") → argv[i]? = some (formatInt sig)
  other : ∀ (i : Nat) arg, args[i]? = some arg → arg ≠ ascii "<proc>" →
    arg ≠ ascii "<exitcode>" → argv[i]? = some arg

section Loop

variable (processName : List UInt8) (signalStr : Option (List UInt8))

def tagBody (st : Nat × List (List UInt8)) :
    (Nat × List (List UInt8)) ⊕ List (List UInt8) :=
  match st.2[st.1]? with
  | none => .inr st.2
  | some arg => .inl (st.1 + 1, st.2.set st.1 (substituteTag processName signalStr arg))

theorem tag_loop_from (front back : List (List UInt8)) :
    Ends (tagBody processName signalStr) (front.length, front ++ back)
      (front ++ back.map (substituteTag processName signalStr)) := by
  induction back generalizing front with
  | nil =>
    apply ends_done
    simp [tagBody]
  | cons arg back ih =>
    have goesOn : tagBody processName signalStr (front.length, front ++ arg :: back) =
        .inl (front.length + 1, front ++ substituteTag processName signalStr arg :: back) := by
      simp [tagBody]
    rw [ends_next_iff goesOn]
    -- What is substituted joins the part the index has passed.
    have later := ih (front ++ [substituteTag processName signalStr arg])
    simpa using later

theorem safe_mode_exec_loop {strdup asprintf : Bool} {safeModeCmd info : List UInt8}
    {contents : CmdlineContents} {call : ExecCall}
    (parsed : parseCmdline strdup safeModeCmd = some contents)
    (executed : safeModeExec strdup asprintf safeModeCmd info = some call) :
    Ends (tagBody (receivedName info)
      (if asprintf then some (formatInt (receivedSignal info)) else none))
      (0, contents.argStrings) call.argv := by
  simp only [safeModeExec, parsed, Option.some.injEq] at executed
  rw [← executed]
  exact tag_loop_from _ _ [] contents.argStrings

end Loop

theorem c_string_padded {text : List UInt8} (clean : 0 ∉ text) {count : Nat}
    (terminated : 0 < count) : cString (text ++ List.replicate count 0) 0 = text := by
  obtain ⟨more, rfl⟩ : ∃ more, count = more + 1 := ⟨count - 1, by omega⟩
  have inside : ∀ c ∈ text, decide (c ≠ 0) = true := by
    intro c member
    exact decide_eq_true fun zero => clean (zero ▸ member)
  rw [cString, List.drop_zero, List.takeWhile_append_of_pos inside, List.replicate_succ,
    List.takeWhile_cons_of_neg (by simp), List.append_nil]

theorem received_name_sent {failedProcessCmd : List UInt8} (clean : 0 ∉ failedProcessCmd)
    (sig : Int) : receivedName (record failedProcessCmd sig) =
      failedProcessCmd.take (processNameSize - 1) := by
  generalize sent : failedProcessCmd.take (processNameSize - 1) = name
  have room : name.length < processNameSize := by
    rw [← sent, List.length_take, processNameSize]
    omega
  have filled : (name ++ List.replicate (processNameSize - name.length) 0).length =
      processNameSize := by
    rw [List.length_append, List.length_replicate]
    omega
  have free : 0 ∉ name := by
    rw [← sent]
    exact fun member => clean (List.mem_of_mem_take member)
  rw [receivedName, record, fillSharedInfo, sent, SharedInfo.bytes, List.take_left' filled]
  exact c_string_padded free (by omega)

theorem substituted_at {name text : List UInt8} {args : List (List UInt8)} {i : Nat}
    {arg : List UInt8} (there : args[i]? = some arg) :
    (args.map (substituteTag name (some text)))[i]? =
      some (substituteTag name (some text) arg) := by
  rw [List.getElem?_map, there, Option.map_some]

theorem substituted_delivered_iff (name process : List UInt8) (sig : Int)
    (args : List (List UInt8)) :
    Delivered process sig args (args.map (substituteTag name (some (formatInt sig)))) ↔
      name = process ∨ ascii "<proc>" ∉ args := by
  have asked : substituteTag name (some (formatInt sig)) (ascii "<proc>") = name := if_pos rfl
  constructor
  · intro delivered
    by_cases member : ascii "<proc>" ∈ args
    · obtain ⟨i, tag⟩ := List.mem_iff_getElem?.mp member
      have wanted := delivered.proc i tag
      rw [substituted_at tag, asked] at wanted
      exact .inl (Option.some.inj wanted)
    · exact .inr member
  · intro good
    refine ⟨List.length_map _, ?_, ?_, ?_⟩
    · intro i tag
      rw [substituted_at tag, asked]
      rcases good with rfl | free
      · rfl
      · exact absurd (List.mem_of_getElem? tag) free
    · intro i tag
      rw [substituted_at tag, substitute_exitcode]
    · intro i arg there noProc noExitcode
      rw [substituted_at there, substituteTag, if_neg noProc, if_neg noExitcode]

/-- Behind every complete transfer the command gets the whole process string
    exactly if the record has room for it or no argument asks for it. -/
theorem tags_delivered_iff {strdup : Bool} {safeModeCmd : List UInt8}
    {contents : CmdlineContents} (parsed : parseCmdline strdup safeModeCmd = some contents)
    (process : ProcessString) {sig : Int} (fits : -2 ^ 31 ≤ sig ∧ sig < 2 ^ 31)
    {trace : List (Transfer × Event)} {st : Transfer}
    (run : Run (step (record process.text sig)) start trace st)
    (complete : st.reader = .complete) :
    (∃ call, safeModeExec strdup true safeModeCmd st.info = some call ∧
      Delivered process.text sig contents.argStrings call.argv) ↔
      process.text.length < processNameSize ∨ ascii "<proc>" ∉ contents.argStrings := by
  have whole : (record process.text sig).length = sizeofSharedInfo :=
    fill_bytes_length process.text sig
  have info := (complete_record whole (run_in_step whole run) complete).2
  have signal : receivedSignal (record process.text sig) = sig :=
    received_signal_sent process.text fits
  have room : process.text.take (processNameSize - 1) = process.text ↔
      process.text.length < processNameSize := by
    rw [List.take_eq_self_iff, processNameSize]
    omega
  rw [info, ← room, ← substituted_delivered_iff _ _ sig]
  simp only [safeModeExec, parsed, ↓reduceIte, signal, received_name_sent process.clean,
    Option.some.injEq, exists_eq_left']

theorem moved_at_once {bytes : List UInt8} (whole : bytes.length = sizeofSharedInfo) :
    ∃ trace st, Run (step bytes) start trace st ∧ st.reader = .complete := by
  have filled : bytes ≠ [] := by
    intro none
    simp [none, sizeofSharedInfo] at whole
  have wrote : step bytes start (.write (.wrote sizeofSharedInfo)) =
      some { start with pipe := bytes, written := sizeofSharedInfo, writer := .sent } := by
    simp [step, start, writeStep, ← whole, filled]
  have got : ∃ st, step bytes
      { start with pipe := bytes, written := sizeofSharedInfo, writer := .sent }
      (.read (.got sizeofSharedInfo)) = some st ∧ st.reader = .complete := by
    simp [step, start, readStep, ← whole, filled]
  obtain ⟨st, now, complete⟩ := got
  exact ⟨_, st, .next (.next (.start start) wrote) now, complete⟩

def longProcess : ProcessString where
  text := List.replicate 1024 97
  clean := by decide +kernel
  fits := by decide +kernel

def taggedProcess : ProcessString where
  text := ascii "<exitcode> <proc>"
  clean := by decide +kernel
  fits := by decide +kernel

theorem long_process_cut : ¬ ∀ (safeModeCmd : List UInt8) (contents : CmdlineContents)
    (process : ProcessString) (sig : Int) (trace : List (Transfer × Event)) (st : Transfer),
    parseCmdline true safeModeCmd = some contents → -2 ^ 31 ≤ sig ∧ sig < 2 ^ 31 →
    Run (step (record process.text sig)) start trace st → st.reader = .complete →
    ∃ call, safeModeExec true true safeModeCmd st.info = some call ∧
      Delivered process.text sig contents.argStrings call.argv := by
  intro claimed
  have whole : (record longProcess.text 11).length = sizeofSharedInfo :=
    fill_bytes_length longProcess.text 11
  obtain ⟨trace, st, run, complete⟩ := moved_at_once whole
  obtain ⟨contents, parsed⟩ : ∃ contents, parseCmdline true (ascii "m <proc>") = some contents :=
    Option.isSome_iff_exists.mp (by decide +kernel)
  have args : contents.argStrings = [ascii "m", ascii "<proc>"] := by
    have evaluated : (parseCmdline true (ascii "m <proc>")).map CmdlineContents.argStrings =
        some [ascii "m", ascii "<proc>"] := by decide +kernel
    rw [parsed] at evaluated
    exact Option.some.inj evaluated
  obtain ⟨call, executed, delivered⟩ :=
    claimed _ contents longProcess 11 trace st parsed (by decide) run complete
  rw [(complete_record whole (run_in_step whole run) complete).2] at executed
  have cut : (safeModeExec true true (ascii "m <proc>") (record longProcess.text 11)).map
      ExecCall.argv = some [ascii "m", List.replicate 1023 97] := by decide +kernel
  rw [executed] at cut
  have wanted := delivered.proc 1 (by rw [args]; rfl)
  rw [Option.some.inj cut] at wanted
  have lengths := congrArg List.length (Option.some.inj wanted)
  rw [longProcess, List.length_replicate, List.length_replicate] at lengths
  exact absurd lengths (by decide)

theorem tagged_process_delivered : ∃ (contents : CmdlineContents)
    (trace : List (Transfer × Event)) (st : Transfer) (call : ExecCall),
    parseCmdline true (ascii "m <proc> <exitcode> <proc>") = some contents ∧
    contents.argStrings = [ascii "m", ascii "<proc>", ascii "<exitcode>", ascii "<proc>"] ∧
    Run (step (record taggedProcess.text 11)) start trace st ∧ st.reader = .complete ∧
    safeModeExec true true (ascii "m <proc> <exitcode> <proc>") st.info = some call ∧
    Delivered taggedProcess.text 11 contents.argStrings call.argv := by
  have whole : (record taggedProcess.text 11).length = sizeofSharedInfo :=
    fill_bytes_length taggedProcess.text 11
  obtain ⟨trace, st, run, complete⟩ := moved_at_once whole
  obtain ⟨contents, parsed⟩ :
      ∃ contents, parseCmdline true (ascii "m <proc> <exitcode> <proc>") = some contents :=
    Option.isSome_iff_exists.mp (by decide +kernel)
  have args : (parseCmdline true (ascii "m <proc> <exitcode> <proc>")).map
      CmdlineContents.argStrings =
      some [ascii "m", ascii "<proc>", ascii "<exitcode>", ascii "<proc>"] := by decide +kernel
  rw [parsed] at args
  obtain ⟨call, executed, delivered⟩ :=
    (tags_delivered_iff parsed taggedProcess (by decide) run complete).mpr
      (.inl (by decide +kernel))
  exact ⟨contents, trace, st, call, parsed, Option.some.inj args, run, complete, executed,
    delivered⟩

end TagSubstitution
