import Mathlib.Logic.Function.Basic
import UNit.ProcessHistory

/-!
The part of the kernel init depends on: its unreaped children and the pipes of
the safe-mode placeholders. Every choice of the kernel is an input. A fork
answered with a pid that is not free fails, so no assumption on the answers is
needed; wait results and the moves of other processes are checked for
lawfulness instead. Moves of other processes happen between calls of init.
-/
namespace KernelModel
open InittabEntries SafeModeRecord ProcessHistory

/-- What a child of process 1 is: a process of an entry, a safe-mode
    placeholder holding the read end of a pipe, or an adopted orphan. -/
inductive Role where
  | entry (config : InittabEntry)
  | placeholder (config : InittabEntry) (pipe : Nat)
  | orphan
  deriving DecidableEq, Repr

def Role.config : Role → Option InittabEntry
  | .entry config => some config
  | .placeholder config _ => some config
  | .orphan => none

def Role.pipe : Role → Option Nat
  | .placeholder _ q => some q
  | _ => none

structure Child where
  pid : Int
  role : Role
  status : Option WaitStatus
  deriving DecidableEq, Repr

structure Pipe where
  data : List UInt8
  readOpen : Bool
  writeOpen : Bool
  consumed : Bool
  deriving DecidableEq, Repr

def Pipe.fresh : Pipe := ⟨[], true, true, false⟩
def Pipe.absent : Pipe := ⟨[], false, false, false⟩

structure Kernel where
  children : List Child
  pipes : Nat → Pipe
  pipeCount : Nat
  log : List Effect

def Kernel.initial : Kernel := ⟨[], fun _ => .absent, 0, []⟩

/-- pid_t is a 32-bit int, process 1 is init itself, and an unreaped child
    keeps its pid. -/
def Kernel.PidFree (k : Kernel) (pid : Int) : Prop :=
  1 < pid ∧ pid < 2 ^ 31 ∧ pid ∉ k.children.map Child.pid

instance (k : Kernel) (pid : Int) : Decidable (k.PidFree pid) :=
  inferInstanceAs (Decidable (1 < pid ∧ pid < 2 ^ 31 ∧ pid ∉ k.children.map Child.pid))

def Kernel.note (k : Kernel) (effect : Effect) : Kernel := { k with log := effect :: k.log }

def Kernel.spawned (k : Kernel) (pid : Int) (role : Role) : Kernel :=
  { k with children := ⟨pid, role, none⟩ :: k.children }

def Kernel.fork (k : Kernel) (answer : Int) (role : Role) : Int × Kernel :=
  if k.PidFree answer then (answer, k.spawned answer role) else (-1, k)

def Kernel.setPipe (k : Kernel) (q : Nat) (pipe : Pipe) : Kernel :=
  { k with pipes := Function.update k.pipes q pipe }

def Kernel.pipe2 (k : Kernel) : Kernel :=
  { k.setPipe k.pipeCount .fresh with pipeCount := k.pipeCount + 1 }

def Kernel.closeWrite (k : Kernel) (q : Nat) : Kernel :=
  k.setPipe q { k.pipes q with writeOpen := false }

def Kernel.closePipe (k : Kernel) (q : Nat) : Kernel :=
  k.setPipe q { k.pipes q with readOpen := false, writeOpen := false }

def Kernel.waited (k : Kernel) (pid : Int) (status : WaitStatus) : Kernel :=
  { k with
    children := k.children.filter (fun c => c.pid ≠ pid)
    log := .reap pid status :: k.log }

def Kernel.sent (k : Kernel) (q : Nat) (info : SharedInfo) : Kernel :=
  (((k.note (.request q (k.pipes q).consumed)).setPipe q
    { k.pipes q with data := (k.pipes q).data ++ info.bytes }).note (.record q info))

def executeSafeMode (answers : List WriteAnswer) (pipeFd : Nat)
    (failedProcessCmd : List UInt8) (sig : Int) (k : Kernel) : Bool × Kernel :=
  let info := fillSharedInfo failedProcessCmd sig
  let pipe := k.pipes pipeFd
  let outcome := writeLoop pipe.readOpen answers 0
  let k := (k.note (.request pipeFd pipe.consumed)).setPipe pipeFd
    { pipe with data := pipe.data ++ info.bytes.take outcome.2 }
  if outcome.1 then (true, k.note (.record pipeFd info)) else (false, k)

theorem execute_safe_mode_sent {answers : List WriteAnswer} {q : Nat} {name : List UInt8}
    {sig : Int} {k : Kernel} (done : (executeSafeMode answers q name sig k).1 = true) :
    (executeSafeMode answers q name sig k).2 = k.sent q (fillSharedInfo name sig) := by
  simp only [executeSafeMode] at done ⊢
  split at done
  · rename_i complete
    have whole := writeLoop_complete complete
    have all : (fillSharedInfo name sig).bytes.take sizeofSharedInfo =
        (fillSharedInfo name sig).bytes := by
      rw [← fill_bytes_length name sig, List.take_length]
    simp only [complete, ↓reduceIte, whole, all, Kernel.sent]
  · simp at done

theorem execute_safe_mode_failed {answers : List WriteAnswer} {q : Nat} {name : List UInt8}
    {sig : Int} {k : Kernel} (failed : (executeSafeMode answers q name sig k).1 = false) :
    ∃ count, (executeSafeMode answers q name sig k).2 =
      (k.note (.request q (k.pipes q).consumed)).setPipe q
        { k.pipes q with
          data := (k.pipes q).data ++ (fillSharedInfo name sig).bytes.take count } := by
  simp only [executeSafeMode] at failed ⊢
  split at failed
  · simp at failed
  · rename_i incomplete
    simp only [incomplete, Bool.false_eq_true, ↓reduceIte]
    exact ⟨_, rfl⟩

/-- The results of one series of waitpid calls, up to the one that is not a pid. -/
inductive WaitEnd where
  | noneDead
  | echild
  | failed
  deriving DecidableEq, Repr

structure WaitAnswer where
  results : List (Int × WaitStatus)
  last : WaitEnd
  deriving DecidableEq, Repr

/-- waitpid returns each child once, with the status it died with, and reports
    0 or ECHILD only when no dead child is left. A child may die meanwhile. -/
structure Kernel.WaitLawful (k : Kernel) (answer : WaitAnswer) : Prop where
  once : (answer.results.map Prod.fst).Nodup
  child : ∀ w ∈ answer.results, ∃ c ∈ k.children, c.pid = w.1 ∧ ∀ st ∈ c.status, st = w.2
  exhaustive : answer.last ≠ .failed →
    ∀ c ∈ k.children, ∀ st ∈ c.status, (c.pid, st) ∈ answer.results
  childless : answer.last = .echild →
    ∀ c ∈ k.children, c.pid ∈ answer.results.map Prod.fst

instance (k : Kernel) (answer : WaitAnswer) : Decidable (k.WaitLawful answer) :=
  decidable_of_iff
    ((answer.results.map Prod.fst).Nodup ∧
      (∀ w ∈ answer.results, ∃ c ∈ k.children, c.pid = w.1 ∧ ∀ st ∈ c.status, st = w.2) ∧
      (answer.last ≠ .failed → ∀ c ∈ k.children, ∀ st ∈ c.status, (c.pid, st) ∈ answer.results) ∧
      (answer.last = .echild → ∀ c ∈ k.children, c.pid ∈ answer.results.map Prod.fst))
    ⟨fun ⟨a, b, c, d⟩ => ⟨a, b, c, d⟩, fun ⟨a, b, c, d⟩ => ⟨a, b, c, d⟩⟩

inductive EnvMove where
  | childDies (pid : Int) (status : WaitStatus)
  | adopted (pid : Int)
  | placeholderReads (pid : Int)
  deriving DecidableEq, Repr

def Kernel.closeRead (k : Kernel) : Role → Kernel
  | .placeholder _ q => k.setPipe q { k.pipes q with readOpen := false }
  | _ => k

def Kernel.died (k : Kernel) (pid : Int) (status : WaitStatus) : Kernel :=
  { k with
    children := k.children.map (fun c => if c.pid = pid then { c with status := some status } else c) }

/-- The placeholder takes one whole record and closes its end of the pipe
    before it executes the safe-mode application. -/
def Kernel.recordTaken (k : Kernel) : Role → Option Kernel
  | .placeholder _ q =>
    if (k.pipes q).readOpen ∧ sizeofSharedInfo ≤ (k.pipes q).data.length then
      some (k.setPipe q { k.pipes q with readOpen := false, consumed := true })
    else none
  | _ => none

def Kernel.alive (k : Kernel) (pid : Int) : Option Child :=
  k.children.find? (fun c => c.pid = pid ∧ c.status = none)

def Kernel.env (k : Kernel) : EnvMove → Option Kernel
  | .childDies pid status => (k.alive pid).map (fun c => (k.died pid status).closeRead c.role)
  | .adopted pid => if k.PidFree pid then some (k.spawned pid .orphan) else none
  | .placeholderReads pid => (k.alive pid).bind (fun c => k.recordTaken c.role)

theorem placeholder_reads {k k' : Kernel} {pid : Int}
    (moved : k.env (.placeholderReads pid) = some k') :
    ∃ q, sizeofSharedInfo ≤ (k.pipes q).data.length ∧
      k' = k.setPipe q { k.pipes q with readOpen := false, consumed := true } := by
  simp only [Kernel.env, Option.bind_eq_some_iff] at moved
  obtain ⟨c, _, taken⟩ := moved
  unfold Kernel.recordTaken at taken
  split at taken
  · split at taken
    · rename_i whole
      exact ⟨_, whole.2, (Option.some.inj taken).symm⟩
    · simp at taken
  · simp at taken

theorem died_child {k : Kernel} {pid : Int} {status : WaitStatus} {c : Child}
    (child : c ∈ (k.died pid status).children) :
    ∃ c' ∈ k.children, c'.pid = c.pid ∧ c'.role = c.role := by
  simp only [Kernel.died, List.mem_map] at child
  obtain ⟨c', member, rfl⟩ := child
  refine ⟨c', member, ?_⟩
  split <;> exact ⟨rfl, rfl⟩

theorem set_pipe_same (k : Kernel) (q : Nat) (pipe : Pipe) : (k.setPipe q pipe).pipes q = pipe := by
  simp [Kernel.setPipe]

theorem set_pipe_other {k : Kernel} {q q' : Nat} (pipe : Pipe) (other : q' ≠ q) :
    (k.setPipe q pipe).pipes q' = k.pipes q' := by
  simp [Kernel.setPipe, other]

structure EnvFrame (k k' : Kernel) : Prop where
  log : k'.log = k.log
  roles : ∀ c ∈ k'.children, c.role = .orphan ∨ ∃ c' ∈ k.children, c'.pid = c.pid ∧ c'.role = c.role
  data : ∀ q, (k'.pipes q).data = (k.pipes q).data
  writeOpen : ∀ q, (k'.pipes q).writeOpen = (k.pipes q).writeOpen
  consumed : ∀ q, (k'.pipes q).consumed = true →
    (k.pipes q).consumed = true ∨ sizeofSharedInfo ≤ (k.pipes q).data.length

theorem env_frame_set_pipe {k : Kernel} {q : Nat} {pipe : Pipe}
    (data : pipe.data = (k.pipes q).data) (writeOpen : pipe.writeOpen = (k.pipes q).writeOpen)
    (consumed : pipe.consumed = true →
      (k.pipes q).consumed = true ∨ sizeofSharedInfo ≤ (k.pipes q).data.length) :
    EnvFrame k (k.setPipe q pipe) := by
  have here := set_pipe_same k q pipe
  refine ⟨rfl, fun c child => Or.inr ⟨c, child, rfl, rfl⟩, ?_, ?_, ?_⟩
  · intro q'
    by_cases same : q' = q
    · rw [same, here, data]
    · rw [set_pipe_other pipe same]
  · intro q'
    by_cases same : q' = q
    · rw [same, here, writeOpen]
    · rw [set_pipe_other pipe same]
  · intro q'
    by_cases same : q' = q
    · rw [same, here]
      exact consumed
    · rw [set_pipe_other pipe same]
      exact Or.inl

theorem env_frame {k k' : Kernel} {move : EnvMove} (moved : k.env move = some k') :
    EnvFrame k k' := by
  cases move with
  | childDies pid status =>
    simp only [Kernel.env, Option.map_eq_some_iff] at moved
    obtain ⟨c, _, rfl⟩ := moved
    have died : EnvFrame k (k.died pid status) :=
      ⟨rfl, fun c child => Or.inr (died_child child), fun _ => rfl, fun _ => rfl,
        fun _ => Or.inl⟩
    cases role : c.role with
    | placeholder config q =>
      have closed : EnvFrame (k.died pid status) ((k.died pid status).setPipe q
          { (k.died pid status).pipes q with readOpen := false }) :=
        env_frame_set_pipe rfl rfl Or.inl
      exact ⟨closed.log, died.roles, closed.data, closed.writeOpen, closed.consumed⟩
    | entry config => exact died
    | orphan => exact died
  | adopted pid =>
    simp only [Kernel.env] at moved
    split at moved
    · obtain rfl := Option.some.inj moved
      refine ⟨rfl, ?_, fun _ => rfl, fun _ => rfl, fun _ => Or.inl⟩
      intro c child
      rcases List.mem_cons.mp child with rfl | child
      · exact Or.inl rfl
      · exact Or.inr ⟨c, child, rfl, rfl⟩
    · simp at moved
  | placeholderReads pid =>
    obtain ⟨q, whole, rfl⟩ := placeholder_reads moved
    exact env_frame_set_pipe rfl rfl (fun _ => Or.inr whole)

end KernelModel
