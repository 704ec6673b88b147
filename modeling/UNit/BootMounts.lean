import UNit.Fstab
import UNit.MountTree

/-!
What is mounted at boot: the system's own filesystems, row by row, and then the
ones of the fstab. A row that is not fatal may fail, and a filesystem that is
busy is there already. The rows are in an order in which nothing is mounted
below a mount point before that one has been mounted.
-/
namespace BootMounts
open DecimalText MountOptions Fstab MountTree

structure SystemMount where
  source : Option (List UInt8)
  target : List UInt8
  fstype : List UInt8
  options : Option (List UInt8)
  flags : Flags
  fatal : Bool
  deriving DecidableEq, Repr

def systemTable : List SystemMount :=
  [⟨none, ascii "/sys", ascii "sysfs", none, msNosuid ||| msNoexec ||| msNodev, true⟩,
    ⟨none, ascii "/proc", ascii "proc", none, msNosuid ||| msNoexec ||| msNodev, true⟩,
    ⟨none, ascii "/dev", ascii "devtmpfs", some (ascii "mode=0755"), msNosuid ||| msStrictatime,
      true⟩,
    ⟨none, ascii "/dev/pts", ascii "devpts", some (ascii "mode=0620"), msNosuid ||| msNoexec, true⟩,
    ⟨none, ascii "/dev/shm", ascii "tmpfs", some (ascii "mode=1777"),
      msNosuid ||| msNodev ||| msStrictatime, true⟩,
    ⟨none, ascii "/run", ascii "tmpfs", some (ascii "mode=0755"),
      msNosuid ||| msNodev ||| msStrictatime, true⟩,
    ⟨none, ascii "/tmp", ascii "tmpfs", none, 0, true⟩,
    ⟨none, ascii "/sys/kernel/debug", ascii "debugfs", none, 0, false⟩,
    ⟨none, ascii "/sys/kernel/security", ascii "securityfs", none,
      msNosuid ||| msNoexec ||| msNodev, false⟩]

inductive MountAnswer where
  | mounted
  | ebusy
  | failed
  deriving DecidableEq, Repr

structure SystemAnswers where
  mkdir : MkdirAnswer
  mount : MountAnswer

def SystemMount.mountCall (mnt : SystemMount) : Call :=
  .mount (mnt.source.getD (ascii "none")) mnt.target mnt.fstype mnt.flags mnt.options

/-- One iteration of mount_system_filesystems: whether the loop goes on, and the
    calls that were made. -/
def mountSystem (answers : SystemAnswers) (mnt : SystemMount) : Bool × List Call :=
  if answers.mkdir = .failed ∧ mnt.fatal = true then (false, [.mkdir mnt.target])
  else
    let calls := [.mkdir mnt.target, mnt.mountCall]
    if answers.mount = .failed ∧ mnt.fatal = true then (false, calls) else (true, calls)

def systemLoop (answers : Nat → SystemAnswers) : Nat → List SystemMount → Bool × List Call
  | _, [] => (true, [])
  | n, mnt :: rest =>
    let made := mountSystem (answers n) mnt
    if made.1 then
      let later := systemLoop answers (n + 1) rest
      (later.1, made.2 ++ later.2)
    else made

def mountSystemFilesystems (answers : Nat → SystemAnswers) : Bool × List Call :=
  systemLoop answers 0 systemTable

def mountMountFilesystems (answers : Nat → SystemAnswers) (entryAnswers : Nat → Answers)
    (fstab : Option (List Mntent)) : Bool × List Call :=
  let system := mountSystemFilesystems answers
  if system.1 then
    let entries := mountFstabFilesystems entryAnswers fstab
    (entries.1, system.2 ++ entries.2.flatMap Prod.snd)
  else system

theorem system_targets : systemTable.map SystemMount.target = Mountinfo.mountTable := rfl

def Fine (answers : SystemAnswers) (mnt : SystemMount) : Prop :=
  mnt.fatal = true → answers.mkdir ≠ .failed ∧ answers.mount ≠ .failed

theorem mount_system_fine (answers : SystemAnswers) (mnt : SystemMount) :
    (mountSystem answers mnt).1 = true ↔ Fine answers mnt := by
  unfold mountSystem Fine
  split
  · rename_i unmade
    simp [unmade.1, unmade.2]
  · rename_i made
    dsimp only
    split
    · rename_i unmounted
      simp [unmounted.1, unmounted.2]
    · rename_i mounted
      simp only [true_iff]
      intro fatal
      exact ⟨fun failed => made ⟨failed, fatal⟩, fun failed => mounted ⟨failed, fatal⟩⟩

theorem mount_system_calls (answers : SystemAnswers) (mnt : SystemMount) :
    (mountSystem answers mnt).2 = [.mkdir mnt.target, mnt.mountCall] ∨
    ((mountSystem answers mnt).2 = [.mkdir mnt.target] ∧ (mountSystem answers mnt).1 = false) := by
  unfold mountSystem
  split
  · exact .inr ⟨rfl, rfl⟩
  · dsimp only
    split
    · exact .inl rfl
    · exact .inl rfl

theorem fine_calls {answers : SystemAnswers} {mnt : SystemMount}
    (fine : (mountSystem answers mnt).1 = true) :
    (mountSystem answers mnt).2 = [.mkdir mnt.target, mnt.mountCall] := by
  rcases mount_system_calls answers mnt with both | ⟨_, stopped⟩
  · exact both
  · rw [fine] at stopped
    cases stopped

section Rows
variable (answers : Nat → SystemAnswers)

theorem system_loop_goes_on {n : Nat} {mnt : SystemMount} {rest : List SystemMount}
    (fine : (mountSystem (answers n) mnt).1 = true) :
    systemLoop answers n (mnt :: rest) = ((systemLoop answers (n + 1) rest).1,
      .mkdir mnt.target :: mnt.mountCall :: (systemLoop answers (n + 1) rest).2) := by
  simp [systemLoop, fine, fine_calls fine]

theorem system_loop_stops {n : Nat} {mnt : SystemMount} {rest : List SystemMount}
    (failed : (mountSystem (answers n) mnt).1 = false) :
    systemLoop answers n (mnt :: rest) = mountSystem (answers n) mnt := by
  simp [systemLoop, failed]

theorem system_loop_true (n : Nat) (rows : List SystemMount) :
    (systemLoop answers n rows).1 = true ↔
      ∀ (k : Nat) (mnt : SystemMount), rows[k]? = some mnt → Fine (answers (n + k)) mnt := by
  induction rows generalizing n with
  | nil => simp [systemLoop]
  | cons first rest ih =>
    cases goes : (mountSystem (answers n) first).1 with
    | true =>
      have fine := (mount_system_fine (answers n) first).mp goes
      rw [system_loop_goes_on answers goes, ih]
      constructor
      · intro all k mnt listed
        cases k with
        | zero =>
          obtain rfl : first = mnt := by simpa using listed
          exact fine
        | succ k =>
          have later := all k mnt (by simpa using listed)
          rwa [show n + 1 + k = n + (k + 1) by omega] at later
      · intro all k mnt listed
        have later := all (k + 1) mnt (by simpa using listed)
        rwa [show n + (k + 1) = n + 1 + k by omega] at later
    | false =>
      rw [system_loop_stops answers goes, goes]
      constructor
      · intro impossible
        cases impossible
      · intro all
        have fine := (mount_system_fine (answers n) first).mpr (all 0 first rfl)
        rw [goes] at fine
        cases fine

theorem system_loop_calls {n : Nat} {rows : List SystemMount}
    (whole : (systemLoop answers n rows).1 = true) :
    ∀ mnt ∈ rows, mnt.mountCall ∈ (systemLoop answers n rows).2 := by
  induction rows generalizing n with
  | nil => simp
  | cons first rest ih =>
    have goes : (mountSystem (answers n) first).1 = true :=
      (mount_system_fine _ _).mpr ((system_loop_true answers n _).mp whole 0 first rfl)
    rw [system_loop_goes_on answers goes] at whole ⊢
    intro mnt member
    rcases List.mem_cons.mp member with rfl | later
    · simp
    · exact List.mem_cons_of_mem _ (List.mem_cons_of_mem _ (ih whole mnt later))

theorem behind_mkdir {dir : List UInt8} {calls before later : List Call}
    {source target fstype : List UInt8} {flags : Flags} {data : Option (List UInt8)}
    (same : .mkdir dir :: calls = before ++ .mount source target fstype flags data :: later) :
    ∃ front, before = .mkdir dir :: front ∧
      calls = front ++ .mount source target fstype flags data :: later := by
  cases before with
  | nil => cases (List.cons.inj same).1
  | cons call front =>
    obtain ⟨rfl, rest⟩ := List.cons.inj same
    exact ⟨front, rfl, rest⟩

/-- The rows in front of this one have made their calls of mount and were fine. -/
def Preceded (n : Nat) (rows : List SystemMount) (before : List Call) (k : Nat) : Prop :=
  ∀ (j : Nat) (row : SystemMount), j < k → rows[j]? = some row →
    row.mountCall ∈ before ∧ Fine (answers (n + j)) row

theorem preceded_next {n k : Nat} {first : SystemMount} {rest : List SystemMount}
    {before : List Call} (goes : (mountSystem (answers n) first).1 = true)
    (earlier : Preceded answers (n + 1) rest before k) :
    Preceded answers n (first :: rest) (.mkdir first.target :: first.mountCall :: before)
      (k + 1) := by
  intro j row early known
  cases j with
  | zero =>
    obtain rfl : first = row := by simpa using known
    exact ⟨by simp, (mount_system_fine _ _).mp goes⟩
  | succ j =>
    obtain ⟨called, fine⟩ := earlier j row (by omega) (by simpa using known)
    rw [show n + 1 + j = n + (j + 1) by omega] at fine
    exact ⟨List.mem_cons_of_mem _ (List.mem_cons_of_mem _ called), fine⟩

theorem system_loop_split {n : Nat} {rows : List SystemMount} {before later : List Call}
    {source target fstype : List UInt8} {flags : Flags} {data : Option (List UInt8)}
    (made : (systemLoop answers n rows).2 =
      before ++ .mount source target fstype flags data :: later) :
    ∃ k mnt, rows[k]? = some mnt ∧ mnt.target = target ∧
      Preceded answers n rows before k := by
  induction rows generalizing n before with
  | nil => simp [systemLoop] at made
  | cons first rest ih =>
    have own : first.mountCall = .mount source target fstype flags data →
        ∃ k mnt, (first :: rest)[k]? = some mnt ∧ mnt.target = target ∧
          Preceded answers n (first :: rest) before k := by
      intro same
      simp only [SystemMount.mountCall, Call.mount.injEq] at same
      exact ⟨0, first, rfl, same.2.1, fun j _ early => absurd early (Nat.not_lt_zero j)⟩
    cases goes : (mountSystem (answers n) first).1 with
    | true =>
      rw [system_loop_goes_on answers goes] at made
      obtain ⟨front, rfl, calls⟩ := behind_mkdir made
      cases front with
      | nil => exact own (List.cons.inj calls).1
      | cons call front =>
        obtain ⟨rfl, behind⟩ := List.cons.inj calls
        obtain ⟨k, mnt, listed, placed, earlier⟩ := ih behind
        exact ⟨k + 1, mnt, by simpa using listed, placed, preceded_next answers goes earlier⟩
    | false =>
      rw [system_loop_stops answers goes] at made
      rcases mount_system_calls (answers n) first with both | ⟨one, _⟩
      · rw [both] at made
        obtain ⟨front, rfl, calls⟩ := behind_mkdir made
        cases front with
        | nil => exact own (List.cons.inj calls).1
        | cons call front =>
          have ended := (List.cons.inj calls).2
          simp at ended
      · rw [one] at made
        obtain ⟨front, _, calls⟩ := behind_mkdir made
        simp at calls

end Rows

def SystemMount.path (mnt : SystemMount) : Umount.Path := mnt.target

theorem rows_nested : ∀ i j : Fin systemTable.length,
    Below (systemTable.get i).path (systemTable.get j).path → i < j := by
  decide +kernel

theorem nested_later {i j : Nat} {row mnt : SystemMount} (first : systemTable[i]? = some row)
    (second : systemTable[j]? = some mnt) (below : Below row.target mnt.target) : i < j := by
  obtain ⟨low, here⟩ := List.getElem?_eq_some_iff.mp first
  obtain ⟨high, there⟩ := List.getElem?_eq_some_iff.mp second
  refine rows_nested ⟨i, low⟩ ⟨j, high⟩ ?_
  rw [List.get_eq_getElem, List.get_eq_getElem, here, there]
  exact below

section Boot
variable (answers : Nat → SystemAnswers) (entryAnswers : Nat → Answers)
variable (fstab : Option (List Mntent))

theorem system_true_iff : (mountSystemFilesystems answers).1 = true ↔
    ∀ (k : Nat) (mnt : SystemMount), systemTable[k]? = some mnt → Fine (answers k) mnt := by
  have rows := system_loop_true answers 0 systemTable
  simp only [Nat.zero_add] at rows
  exact rows

theorem boot_goes_on (whole : (mountSystemFilesystems answers).1 = true) :
    mountMountFilesystems answers entryAnswers fstab =
      ((mountFstabFilesystems entryAnswers fstab).1, (mountSystemFilesystems answers).2 ++
        (mountFstabFilesystems entryAnswers fstab).2.flatMap Prod.snd) := by
  simp [mountMountFilesystems, whole]

theorem boot_stops (failed : (mountSystemFilesystems answers).1 = false) :
    mountMountFilesystems answers entryAnswers fstab = mountSystemFilesystems answers := by
  simp [mountMountFilesystems, failed]

/-- Everything below the target of a row waits for the row. -/
def RowsFirst (target : List UInt8) (before : List Call) : Prop :=
  ∀ (k : Nat) (row : SystemMount), systemTable[k]? = some row → Below row.target target →
    row.mountCall ∈ before ∧ Fine (answers k) row

theorem system_rows_first {before later : List Call} {source target fstype : List UInt8}
    {flags : Flags} {data : Option (List UInt8)} (made : (mountSystemFilesystems answers).2 =
      before ++ .mount source target fstype flags data :: later) :
    RowsFirst answers target before := by
  intro k row listed below
  obtain ⟨j, mnt, known, rfl, earlier⟩ := system_loop_split answers made
  have found := earlier k row (nested_later listed known below) listed
  rwa [Nat.zero_add] at found

theorem all_rows_first (whole : (mountSystemFilesystems answers).1 = true)
    (target : List UInt8) (more : List Call) :
    RowsFirst answers target ((mountSystemFilesystems answers).2 ++ more) := by
  intro k row listed _
  have called := system_loop_calls answers whole row (List.mem_of_getElem? listed)
  exact ⟨List.mem_append_left _ called, (system_true_iff answers).mp whole k row listed⟩

/-- Mounting succeeds exactly when no fatal row has failed and the fstab went
    through. Whatever the answers are, no filesystem is mounted below the target
    of a row unless that row was mounted before, and fatal rows successfully. -/
theorem boot_mounts_in_order :
    ((mountMountFilesystems answers entryAnswers fstab).1 = true ↔
      (∀ (k : Nat) (mnt : SystemMount), systemTable[k]? = some mnt → Fine (answers k) mnt) ∧
        (mountFstabFilesystems entryAnswers fstab).1 = true) ∧
    ∀ (before later : List Call) (source target fstype : List UInt8) (flags : Flags)
      (data : Option (List UInt8)),
      (mountMountFilesystems answers entryAnswers fstab).2 =
        before ++ .mount source target fstype flags data :: later →
      RowsFirst answers target before := by
  rw [← system_true_iff]
  cases whole : (mountSystemFilesystems answers).1 with
  | false =>
    rw [boot_stops answers entryAnswers fstab whole, whole]
    refine ⟨by simp, ?_⟩
    intro before later source target fstype flags data made
    exact system_rows_first answers made
  | true =>
    rw [boot_goes_on answers entryAnswers fstab whole]
    refine ⟨by simp, ?_⟩
    intro before later source target fstype flags data made
    -- the call is one of a row, or one of the fstab behind all rows
    rcases List.append_eq_append_iff.mp made with ⟨front, rfl, _⟩ | ⟨back, split, rest⟩
    · exact all_rows_first answers whole target front
    · cases back with
      | nil =>
        have every := all_rows_first answers whole target []
        rwa [split, List.append_nil, List.append_nil] at every
      | cons call back =>
        obtain ⟨rfl, _⟩ := List.cons.inj rest
        exact system_rows_first answers split

end Boot

def sampleAnswers (_ : Nat) : SystemAnswers := ⟨.eexist, .mounted⟩
def sampleEntryAnswers (_ : Nat) : Answers := ⟨true, fun _ => true, .made, true⟩

def sampleFstab : List Mntent := [⟨ascii "/dev/sda1", ascii "/run/data", ascii "ext4", ascii "ro"⟩]

theorem boot_mounts_below_run :
    (mountMountFilesystems sampleAnswers sampleEntryAnswers (some sampleFstab)).2.getLast? =
      some (.mount (ascii "/dev/sda1") (ascii "/run/data") (ascii "ext4") msRdonly none) ∧
    Call.mount (ascii "none") (ascii "/run") (ascii "tmpfs")
        (msNosuid ||| msNodev ||| msStrictatime) (some (ascii "mode=0755")) ∈
      (mountMountFilesystems sampleAnswers sampleEntryAnswers (some sampleFstab)).2.dropLast := by
  refine ⟨by decide +kernel, ?_⟩
  have order := (boot_mounts_in_order sampleAnswers sampleEntryAnswers (some sampleFstab)).2
  refine (order _ [] (ascii "/dev/sda1") (ascii "/run/data") (ascii "ext4") msRdonly none
    (by decide +kernel) 5 _ rfl ?_).1
  have longer : (ascii "/run/data").length ≠ (ascii "/run").length := by decide +kernel
  exact ⟨by decide +kernel, fun same => longer (congrArg List.length same)⟩

end BootMounts
