import UNit.KernelModel

/-!
The static data of init and its main loop, the ways a call can end for good,
and the registration of timeouts. A timeout is named by a number that is never
used again, so a stale pointer stays distinguishable from a live one.
-/
namespace InitState
open InittabEntries ProcessHistory KernelModel

inductive Stage where
  | setup
  | startup
  | run
  | termination
  | shutdown
  | close
  deriving DecidableEq, Repr

inductive TimeoutCallback where
  | oneShotTimeoutCb
  | killTimeoutCb
  | watchdogFeed
  deriving DecidableEq, Repr

inductive TimeoutResult where
  | stop
  | continue
  deriving DecidableEq, Repr

/-- The interval of the timer, which is also its first expiry. -/
structure Timespec where
  tvSec : Nat
  tvNsec : Nat
  deriving DecidableEq, Repr

structure MainloopTimeout where
  id : Nat
  callback : TimeoutCallback
  interval : Timespec
  deriving DecidableEq, Repr

inductive PostCallback where
  | stageMaintenance
  deriving DecidableEq, Repr

structure State where
  table : BootTable
  remaining : List InittabEntry
  pendingFinish : UInt32
  runningProcesses : List Process
  currentStage : Stage
  killTimeout : Option Nat
  oneShotTimeout : Option Nat
  /-- 0 in the source until the first pipe; a write end is never 0. -/
  safeModePipeFd : Option Nat
  shutdownCommand : RebootCommand
  safeModeOn : Bool
  shouldExit : Bool
  postIterationCallback : Option PostCallback
  timeouts : List MainloopTimeout
  timeoutCount : Nat
  kernel : Kernel

inductive Assertion where
  | exitOnce
  | epollWait
  | removed
  | pipeFd
  deriving DecidableEq, Repr

/-- Ways init stops: panic, a failed assertion, a callback through a freed
    handler, or the main loop giving up on a read error. -/
inductive Halt where
  | panic (message : String)
  | assertion (which : Assertion)
  | useAfterFree
  | readError
  deriving DecidableEq, Repr

structure Stop where
  halt : Halt
  state : State

abbrev Outcome (A : Type) := Except Stop A

def haltOf {A : Type} : Outcome A → Option Halt
  | .ok _ => none
  | .error stop => some stop.halt

def stateOf : Outcome State → State
  | .ok s => s
  | .error stop => stop.state

def timeoutTerm : Nat := 3000
def timeoutOneShot : Nat := 3000

structure TimerAnswer where
  calloc : Bool
  timerfdCreate : Bool
  epollCtl : Bool
  deriving DecidableEq, Repr

def itimerspec (msec : Nat) : Timespec := ⟨msec / 1000, msec % 1000 * 1000000⟩

def mainloopAddTimeout (answer : TimerAnswer) (msec : Nat) (callback : TimeoutCallback)
    (s : State) : Option Nat × State :=
  if !answer.calloc then (none, s)
  else if !answer.timerfdCreate then (none, s)
  else if !answer.epollCtl then (none, s)
  else (some s.timeoutCount,
    { s with
      timeouts := ⟨s.timeoutCount, callback, itimerspec msec⟩ :: s.timeouts
      timeoutCount := s.timeoutCount + 1 })

def mainloopRemoveTimeout (id : Nat) (s : State) : State :=
  { s with timeouts := s.timeouts.filter (fun t => t.id ≠ id) }

def mainloopSetPostIterationCallback (callback : Option PostCallback) (s : State) : State :=
  { s with postIterationCallback := callback }

def mainloopExit (s : State) : Outcome State :=
  if s.shouldExit then .error ⟨.assertion .exitOnce, s⟩ else .ok { s with shouldExit := true }

/-- The same state with other timers and another exit flag; what init does with
    processes does not look at these. -/
def State.retimed (s : State) (timeouts : List MainloopTimeout) (timeoutCount : Nat)
    (oneShotTimeout killTimeout : Option Nat) (shouldExit : Bool) : State :=
  { s with
    timeouts := timeouts
    timeoutCount := timeoutCount
    oneShotTimeout := oneShotTimeout
    killTimeout := killTimeout
    shouldExit := shouldExit }

def Retimed (s s' : State) : Prop :=
  ∃ timeouts timeoutCount oneShotTimeout killTimeout shouldExit,
    s' = s.retimed timeouts timeoutCount oneShotTimeout killTimeout shouldExit

theorem retimed_refl (s : State) : Retimed s s :=
  ⟨s.timeouts, s.timeoutCount, s.oneShotTimeout, s.killTimeout, s.shouldExit, rfl⟩

theorem retimed_trans {s t u : State} (first : Retimed s t) (second : Retimed t u) :
    Retimed s u := by
  obtain ⟨_, _, _, _, _, rfl⟩ := first
  obtain ⟨timeouts, count, oneShot, kill, exit, rfl⟩ := second
  exact ⟨timeouts, count, oneShot, kill, exit, rfl⟩

theorem add_timeout_cases (answer : TimerAnswer) (msec : Nat) (callback : TimeoutCallback)
    (s : State) :
    mainloopAddTimeout answer msec callback s = (none, s) ∨
    mainloopAddTimeout answer msec callback s = (some s.timeoutCount,
      { s with
        timeouts := ⟨s.timeoutCount, callback, itimerspec msec⟩ :: s.timeouts
        timeoutCount := s.timeoutCount + 1 }) := by
  unfold mainloopAddTimeout
  split
  · exact Or.inl rfl
  · split
    · exact Or.inl rfl
    · split
      · exact Or.inl rfl
      · exact Or.inr rfl

end InitState
