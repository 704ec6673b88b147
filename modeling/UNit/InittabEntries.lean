import Mathlib.Data.List.Basic

/-!
Entries of the inittab and the table init boots from. A linked list of the
source is a `List`; a pointer into such a list is the suffix it points at.
Character arrays are the bytes in front of their terminator.
-/
namespace InittabEntries

inductive EntryType where
  | oneShot
  | safeOneShot
  | service
  | safeService
  | shutdown
  | safeShutdown
  | safeMode
  deriving DecidableEq, Repr

structure InittabEntry where
  processName : List UInt8
  cttyPath : List UInt8
  order : Int
  coreId : Int
  type : EntryType
  deriving DecidableEq, Repr

def isSafeEntry (entry : InittabEntry) : Bool :=
  entry.type == .safeService || entry.type == .safeOneShot || entry.type == .safeMode ||
    entry.type == .safeShutdown

def isStartupEntry (entry : InittabEntry) : Bool :=
  entry.type == .oneShot || entry.type == .safeOneShot || entry.type == .service ||
    entry.type == .safeService

def isShutdownEntry (entry : InittabEntry) : Bool :=
  entry.type == .shutdown || entry.type == .safeShutdown

def isOneShotEntry (entry : InittabEntry) : Bool :=
  entry.type == .oneShot || entry.type == .safeOneShot || entry.type == .shutdown ||
    entry.type == .safeShutdown

/-- What a successful read_inittab leaves behind: each list holds only its own
    kinds of entries, in ascending order, and there is one safe-mode entry. -/
structure BootTable where
  startupList : List InittabEntry
  shutdownList : List InittabEntry
  safeModeEntry : InittabEntry
  startup_kinds : ∀ e ∈ startupList, isStartupEntry e = true
  shutdown_kinds : ∀ e ∈ shutdownList, isShutdownEntry e = true
  safe_mode_kind : safeModeEntry.type = .safeMode
  startup_sorted : startupList.Pairwise (fun a b => a.order ≤ b.order)
  shutdown_sorted : shutdownList.Pairwise (fun a b => a.order ≤ b.order)

theorem startup_not_safe_mode {e : InittabEntry} (kind : isStartupEntry e = true) :
    e.type ≠ .safeMode := by
  intro same
  simp [isStartupEntry, same] at kind

theorem shutdown_not_safe_mode {e : InittabEntry} (kind : isShutdownEntry e = true) :
    e.type ≠ .safeMode := by
  intro same
  simp [isShutdownEntry, same] at kind

theorem shutdown_not_startup {e : InittabEntry} (kind : isShutdownEntry e = true) :
    isStartupEntry e = false := by
  cases h : e.type <;> simp_all [isShutdownEntry, isStartupEntry]

theorem safe_mode_not_one_shot {e : InittabEntry} (kind : e.type = .safeMode) :
    isOneShotEntry e = false := by
  simp [isOneShotEntry, kind]

theorem safe_mode_is_safe {e : InittabEntry} (kind : e.type = .safeMode) :
    isSafeEntry e = true := by
  simp [isSafeEntry, kind]

end InittabEntries
