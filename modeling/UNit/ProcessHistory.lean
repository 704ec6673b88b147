import UNit.EventHistory
import UNit.InittabEntries
import UNit.SafeModeRecord

/-!
The observable history of init, newest first: forks with their result, wait
results, kills, requests to the safe-mode placeholder and accepted shutdown
commands. What has been forked and not yet waited for is computed from the
history alone, independently of the list init keeps.
-/
namespace ProcessHistory
open InittabEntries SafeModeRecord EventHistory

/-- Wait statuses as WIFEXITED and the other macros read them. A terminating
    signal is never 0 and has seven bits. -/
inductive WaitStatus where
  | exited (code : UInt8)
  | signaled (signo : Nat) (range : 0 < signo ∧ signo < 128)
  deriving DecidableEq, Repr

def WaitStatus.wifexited : WaitStatus → Bool
  | .exited _ => true
  | .signaled _ _ => false

def WaitStatus.wexitstatus : WaitStatus → UInt8
  | .exited code => code
  | .signaled _ _ => 0

def WaitStatus.wifsignaled : WaitStatus → Bool
  | .exited _ => false
  | .signaled _ _ => true

def WaitStatus.wtermsig : WaitStatus → Nat
  | .exited _ => 0
  | .signaled signo _ => signo

def WaitStatus.abnormal (status : WaitStatus) : Bool :=
  !status.wifexited || status.wexitstatus != 0

structure Process where
  config : InittabEntry
  pid : Int
  deriving DecidableEq, Repr

inductive KillSignal where
  | sigterm
  | sigkill
  deriving DecidableEq, Repr

inductive RebootCommand where
  | autoboot
  | haltSystem
  | powerOff
  deriving DecidableEq, Repr

/-- A request notes whether its pipe's reader had already taken a record. -/
inductive Effect where
  | fork (entry : InittabEntry) (result : Int)
  | placeholder (entry : InittabEntry) (pid : Int) (pipe : Nat)
  | reap (pid : Int) (status : WaitStatus)
  | request (pipe : Nat) (consumed : Bool)
  | record (pipe : Nat) (info : SharedInfo)
  | kill (pid : Int) (signal : KillSignal)
  | pendingDecreased (value : UInt32)
  | shutdownCommand (command : RebootCommand)
  deriving DecidableEq, Repr

@[simp] def live : List Effect → List Process
  | [] => []
  | .fork e result :: past => if 0 < result then ⟨e, result⟩ :: live past else live past
  | .placeholder e pid _ :: past => ⟨e, pid⟩ :: live past
  | .reap pid _ :: past => (live past).filter (fun p => p.pid ≠ pid)
  | .request _ _ :: past => live past
  | .record _ _ :: past => live past
  | .kill _ _ :: past => live past
  | .pendingDecreased _ :: past => live past
  | .shutdownCommand _ :: past => live past

@[simp] def attempts (kind : InittabEntry → Bool) : List Effect → List InittabEntry
  | [] => []
  | .fork e _ :: past => attempts kind past ++ (if kind e then [e] else [])
  | .placeholder _ _ _ :: past => attempts kind past
  | .reap _ _ :: past => attempts kind past
  | .request _ _ :: past => attempts kind past
  | .record _ _ :: past => attempts kind past
  | .kill _ _ :: past => attempts kind past
  | .pendingDecreased _ :: past => attempts kind past
  | .shutdownCommand _ :: past => attempts kind past

@[simp] def SafeModeEnded : List Effect → Prop
  | [] => False
  | .reap pid status :: past =>
      (status.abnormal = false ∧ ∃ p ∈ live past, p.pid = pid ∧ p.config.type = .safeMode) ∨
        SafeModeEnded past
  | .fork _ _ :: past => SafeModeEnded past
  | .placeholder _ _ _ :: past => SafeModeEnded past
  | .request _ _ :: past => SafeModeEnded past
  | .record _ _ :: past => SafeModeEnded past
  | .kill _ _ :: past => SafeModeEnded past
  | .pendingDecreased _ :: past => SafeModeEnded past
  | .shutdownCommand _ :: past => SafeModeEnded past

instance decideSafeModeEnded : (log : List Effect) → Decidable (SafeModeEnded log)
  | [] => .isFalse id
  | .reap pid status :: past =>
    have := decideSafeModeEnded past
    inferInstanceAs (Decidable ((status.abnormal = false ∧
      ∃ p ∈ live past, p.pid = pid ∧ p.config.type = .safeMode) ∨ SafeModeEnded past))
  | .fork _ _ :: past => decideSafeModeEnded past
  | .placeholder _ _ _ :: past => decideSafeModeEnded past
  | .request _ _ :: past => decideSafeModeEnded past
  | .record _ _ :: past => decideSafeModeEnded past
  | .kill _ _ :: past => decideSafeModeEnded past
  | .pendingDecreased _ :: past => decideSafeModeEnded past
  | .shutdownCommand _ :: past => decideSafeModeEnded past

/-- A safe process that was lost: it could not be forked, or it was tracked,
    is not the safe-mode process and did not exit with code 0. -/
def SafeFailure (past : List Effect) : Effect → Prop
  | .fork e result => isSafeEntry e = true ∧ ¬ 0 < result
  | .reap pid status => status.abnormal = true ∧
      ∃ p ∈ live past, p.pid = pid ∧ isSafeEntry p.config = true ∧ p.config.type ≠ .safeMode
  | _ => False

instance (past : List Effect) : (effect : Effect) → Decidable (SafeFailure past effect)
  | .fork e result => inferInstanceAs (Decidable (isSafeEntry e = true ∧ ¬ 0 < result))
  | .reap pid status => inferInstanceAs (Decidable (status.abnormal = true ∧
      ∃ p ∈ live past, p.pid = pid ∧ isSafeEntry p.config = true ∧ p.config.type ≠ .safeMode))
  | .placeholder _ _ _ => .isFalse id
  | .request _ _ => .isFalse id
  | .record _ _ => .isFalse id
  | .kill _ _ => .isFalse id
  | .pendingDecreased _ => .isFalse id
  | .shutdownCommand _ => .isFalse id

def ForkedInOrder (kind : InittabEntry → Bool) (past : List Effect) : Effect → Prop
  | .fork e _ => kind e = true →
      ∀ p ∈ live past, isOneShotEntry p.config = true → ¬ p.config.order < e.order
  | _ => True

def KillOnTarget (past : List Effect) : Effect → Prop
  | .kill pid _ => 0 < pid ∧ ∃ p ∈ live past, p.pid = pid ∧ p.config.type ≠ .safeMode
  | _ => True

def NoWrap (_past : List Effect) : Effect → Prop
  | .pendingDecreased value => value.toNat + 1 < 2 ^ 32
  | _ => True

end ProcessHistory
