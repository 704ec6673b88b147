import UNit.DescriptorTable

/-!
The open files of a process of init, with the descriptor that log.c keeps. A
message that is logged opens the log file if it is not open yet, so that it can
take any number that is free at that moment.
-/
namespace OpenFiles
open DescriptorTable

inductive Object where
  | null
  | log
  | terminal (path : List UInt8)
  | watchdog
  | timer
  | other (id : Nat)
  deriving DecidableEq, Repr

/-- The static descriptor of the log is none while it is -1. -/
structure Files where
  fds : Table Object
  logFd : Option Nat
  deriving DecidableEq, Repr

def Files.close (files : Files) (fd : Nat) : Files := { files with fds := files.fds.close fd }

def Files.open (files : Files) (object : Object) (cloexec : Bool) : Nat × Files :=
  let opened := files.fds.opened object cloexec
  (opened.1, { files with fds := opened.2 })

def logFd (openLog : Bool) (files : Files) : Option Nat × Files :=
  match files.logFd with
  | some fd => (some fd, files)
  | none =>
    if openLog then
      let opened := files.open .log true
      (some opened.1, { opened.2 with logFd := some opened.1 })
    else (none, files)

def logMessage (openLog : Bool) (files : Files) : Files := (logFd openLog files).2

def LogKept (files : Files) : Prop :=
  ∀ fd, files.logFd = some fd → ∃ cloexec, files.fds.get fd = some ⟨.log, cloexec⟩

theorem open_spec (files : Files) (object : Object) (cloexec : Bool) :
    files.fds.get (files.open object cloexec).1 = none ∧
    (∀ n, (files.open object cloexec).2.fds.get n =
      if n = (files.open object cloexec).1 then some ⟨object, cloexec⟩ else files.fds.get n) ∧
    (files.open object cloexec).2.logFd = files.logFd := by
  refine ⟨(lowest_spec files.fds 0).2, ?_, rfl⟩
  intro n
  exact get_put files.fds _ n _

theorem log_fd_spec {openLog : Bool} {files files' : Files} {fd : Nat} (kept : LogKept files)
    (called : logFd openLog files = (some fd, files')) :
    (∃ cloexec, files'.fds.get fd = some ⟨.log, cloexec⟩ ∧
      (files'.fds.get fd = files.fds.get fd ∨ files.fds.get fd = none ∧ cloexec = true)) ∧
    (∀ n, n ≠ fd → files'.fds.get n = files.fds.get n) ∧ files'.logFd = some fd := by
  unfold logFd at called
  split at called
  · rename_i known static
    simp only [Prod.mk.injEq, Option.some.injEq] at called
    obtain ⟨rfl, rfl⟩ := called
    obtain ⟨cloexec, stands⟩ := kept known static
    exact ⟨⟨cloexec, stands, .inl rfl⟩, fun _ _ => rfl, static⟩
  · split at called
    · obtain ⟨free, now, _⟩ := open_spec files .log true
      simp only [Prod.mk.injEq, Option.some.injEq] at called
      obtain ⟨rfl, rfl⟩ := called
      refine ⟨⟨true, ?_, .inr ⟨free, rfl⟩⟩, ?_, rfl⟩
      · simp only [now, ↓reduceIte]
      · intro n other
        simp only [now, other, ↓reduceIte]
    · simp at called

theorem log_message_cases (openLog : Bool) (files : Files) :
    logMessage openLog files = files ∨
      ∃ fd, logFd openLog files = (some fd, logMessage openLog files) := by
  unfold logMessage logFd
  split
  · exact .inl rfl
  · split
    · exact .inr ⟨_, rfl⟩
    · exact .inl rfl

theorem log_message_kept (openLog : Bool) {files : Files} (kept : LogKept files) :
    LogKept (logMessage openLog files) := by
  rcases log_message_cases openLog files with same | ⟨fd, called⟩
  · rwa [same]
  · obtain ⟨⟨cloexec, stands, _⟩, _, static⟩ := log_fd_spec kept called
    intro log now
    obtain rfl := Option.some.inj (static.symm.trans now)
    exact ⟨cloexec, stands⟩

end OpenFiles
