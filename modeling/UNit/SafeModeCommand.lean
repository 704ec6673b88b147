import UNit.Cmdline
import UNit.DecimalText
import UNit.SafeModeRecord

/-!
The placeholder behind its read loop: what it takes from the record, and the
safe-mode command line with the tags substituted, as it is passed to execvpe.
-/
namespace SafeModeCommand
open Lexer Cmdline DecimalText SafeModeRecord

def wordOf : List UInt8 → Nat
  | [] => 0
  | b :: rest => b.toNat + 2 ^ 8 * wordOf rest

def receivedName (info : List UInt8) : List UInt8 := cString (info.take processNameSize) 0

def intOf (word : Nat) : Int := if word < 2 ^ 31 then word else word - 2 ^ 32

def receivedSignal (info : List UInt8) : Int := intOf (wordOf (info.drop processNameSize))

/-- The text of the signal is NULL when asprintf fails; the tag stays then. -/
def substituteTag (processName : List UInt8) (signalStr : Option (List UInt8))
    (arg : List UInt8) : List UInt8 :=
  if arg = ascii "<proc>" then processName
  else if arg = ascii "<exitcode>" then signalStr.getD arg
  else arg

structure ExecCall where
  argv : List (List UInt8)
  envp : List (List UInt8)
  deriving DecidableEq, Repr

/-- None where the placeholder exits without a call of execvpe. -/
def safeModeExec (strdup asprintf : Bool) (safeModeCmd info : List UInt8) : Option ExecCall :=
  match parseCmdline strdup safeModeCmd with
  | none => none
  | some contents =>
    let signalStr := if asprintf then some (formatInt (receivedSignal info)) else none
    some ⟨contents.argStrings.map (substituteTag (receivedName info) signalStr),
      contents.envStrings⟩

theorem int_of_int_bytes {n : Int} (fits : -2 ^ 31 ≤ n ∧ n < 2 ^ 31) :
    intOf (wordOf (intBytes n)) = n := by
  have word : (wordOf (intBytes n) : Int) = n % 2 ^ 32 := by
    simp only [intBytes, wordOf, UInt8.toNat_ofNat']
    omega
  unfold intOf
  split <;> omega

theorem signal_behind_name (info : SharedInfo)
    (fits : info.processName.length ≤ processNameSize) :
    info.bytes.drop processNameSize = intBytes info.signal := by
  have name : (info.processName ++
      List.replicate (processNameSize - info.processName.length) 0).length = processNameSize := by
    rw [List.length_append, List.length_replicate]
    omega
  rw [SharedInfo.bytes, List.drop_append_of_le_length (Nat.le_of_eq name.symm),
    List.drop_eq_nil_of_le (Nat.le_of_eq name), List.nil_append]

theorem received_signal_sent (failedProcessCmd : List UInt8) {sig : Int}
    (fits : -2 ^ 31 ≤ sig ∧ sig < 2 ^ 31) :
    receivedSignal (fillSharedInfo failedProcessCmd sig).bytes = sig := by
  have short : (fillSharedInfo failedProcessCmd sig).processName.length ≤ processNameSize := by
    rw [fillSharedInfo, List.length_take]
    exact Nat.le_trans (Nat.min_le_left _ _) (Nat.sub_le _ _)
  rw [receivedSignal, signal_behind_name _ short]
  exact int_of_int_bytes fits

theorem substitute_exitcode (processName text : List UInt8) :
    substituteTag processName (some text) (ascii "<exitcode>") = text := by
  have other : ascii "<exitcode>" ≠ ascii "<proc>" := by decide
  rw [substituteTag, if_neg other, if_pos rfl, Option.getD_some]

theorem exitcode_substituted {strdup : Bool} {safeModeCmd : List UInt8}
    {contents : CmdlineContents} (info : List UInt8)
    (parsed : parseCmdline strdup safeModeCmd = some contents) :
    ∃ call, safeModeExec strdup true safeModeCmd info = some call ∧
      ∀ i : Nat, contents.argStrings[i]? = some (ascii "<exitcode>") →
        call.argv[i]? = some (formatInt (receivedSignal info)) := by
  refine ⟨⟨contents.argStrings.map (substituteTag (receivedName info)
    (some (formatInt (receivedSignal info)))), contents.envStrings⟩, ?_, ?_⟩
  · simp only [safeModeExec, parsed, ↓reduceIte]
  · intro i tag
    rw [List.getElem?_map, tag, Option.map_some, substitute_exitcode]

end SafeModeCommand
