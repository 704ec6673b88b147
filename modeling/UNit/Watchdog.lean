import UNit.MainLoop
import UNit.OpenFiles

/-!
watchdog.c: how the device is opened, fed and closed. The calls that are made on
a descriptor are kept together with what was open at its number at that moment,
since numbers are used again.
-/
namespace Watchdog
open DescriptorTable OpenFiles
open InitState (Timespec TimerAnswer TimeoutCallback itimerspec)

inductive Call where
  | setOptions
  | magicClose
  | close
  | closeTimer
  | keepalive
  deriving DecidableEq, Repr

def Call.target : Call → Object
  | .closeTimer => .timer
  | .setOptions | .magicClose | .close | .keepalive => .watchdog

structure Io where
  call : Call
  fd : Nat
  object : Option Object
  deriving DecidableEq, Repr

def Io.Own (x : Io) : Prop := x.object = some x.call.target

instance (x : Io) : Decidable x.Own := inferInstanceAs (Decidable (_ = _))

structure Timer where
  timerfd : Nat
  interval : Timespec
  deriving DecidableEq, Repr

/-- The statics of watchdog.c among the open files of init, whether main has called
    start_watchdog, and the calls so far, newest first. The descriptor is none
    while it is -1. -/
structure Watching where
  files : Files
  watchdogFd : Option Nat
  watchdogTimeout : Option Timer
  started : Bool
  io : List Io
  deriving DecidableEq, Repr

def Watching.at (w : Watching) (n : Nat) : Option Object := (w.files.fds.get n).map (·.object)

structure CallAnswer where
  succeeds : Bool
  openLog : Bool
  deriving DecidableEq, Repr

def Watching.log (openLog : Bool) (w : Watching) : Watching :=
  { w with files := logMessage openLog w.files }

def Watching.logFailure (answer : CallAnswer) (w : Watching) : Watching :=
  if answer.succeeds then w else w.log answer.openLog

def Watching.perform (call : Call) (fd : Nat) (w : Watching) : Watching :=
  { w with io := ⟨call, fd, w.at fd⟩ :: w.io }

def Watching.close (call : Call) (fd : Nat) (w : Watching) : Watching :=
  { w.perform call fd with files := w.files.close fd }

structure FeedAnswers where
  feeding : Bool
  keepalive : CallAnswer
  deriving DecidableEq, Repr

def watchdogFeed (a : FeedAnswers) (w : Watching) : Watching :=
  match w.watchdogFd with
  | none => (w.log a.feeding).log a.keepalive.openLog
  | some fd => ((w.log a.feeding).perform .keepalive fd).logFailure a.keepalive

structure RemoveAnswers where
  removing : Bool
  epollCtl : CallAnswer
  deriving DecidableEq, Repr

def mainloopRemoveTimeout (a : RemoveAnswers) (timer : Timer) (w : Watching) : Watching :=
  ((w.log a.removing).logFailure a.epollCtl).close .closeTimer timer.timerfd

structure CloseAnswers where
  closing : Bool
  setOptions : CallAnswer
  magicClose : CallAnswer
  remove : RemoveAnswers
  deriving DecidableEq, Repr

def disarmWatchdog (a : CloseAnswers) (fd : Nat) (w : Watching) : Watching :=
  let w := (w.perform .setOptions fd).logFailure a.setOptions
  (w.perform .magicClose fd).logFailure a.magicClose

def removeFeed (a : CloseAnswers) (w : Watching) : Watching :=
  match w.watchdogTimeout with
  | none => w
  | some timer => { mainloopRemoveTimeout a.remove timer w with watchdogTimeout := none }

/-- The number stays in watchdog_fd. -/
def closeWatchdog (a : CloseAnswers) (disarm : Bool) (w : Watching) : Watching :=
  match w.watchdogFd with
  | none => w
  | some fd =>
    if 0 < fd then
      let w := w.log a.closing
      let w := if disarm then disarmWatchdog a fd w else w
      removeFeed a (w.close .close fd)
    else w

structure AddAnswers where
  calloc : CallAnswer
  timerfdCreate : CallAnswer
  adding : Bool
  epollCtl : CallAnswer
  deriving DecidableEq, Repr

def AddAnswers.timerAnswer (a : AddAnswers) : TimerAnswer :=
  ⟨a.calloc.succeeds, a.timerfdCreate.succeeds, a.epollCtl.succeeds⟩

/-- None is the assertion that msec is not 0; the timer is none for NULL. -/
def mainloopAddTimeout (a : AddAnswers) (msec : UInt32) (w : Watching) :
    Option (Option Timer × Watching) :=
  if msec = 0 then none
  else if !a.calloc.succeeds then some (none, w.log a.calloc.openLog)
  else if !a.timerfdCreate.succeeds then some (none, w.log a.timerfdCreate.openLog)
  else
    let opened := w.files.open .timer true
    let w := { w with files := opened.2 }.log a.adding
    if !a.epollCtl.succeeds then
      let w := w.log a.epollCtl.openLog
      some (none, { w with files := w.files.close opened.1 })
    else some (some ⟨opened.1, itimerspec msec.toNat⟩, w)

def watchdogTimeoutDefaultSecs : Int32 := 60

/-- The driver writes the timeout it has set back to where it found the request. -/
structure StartAnswers where
  openDevice : CallAnswer
  getTimeout : Option Int32
  setTimeout : Int32 → Option Int32
  setLog : Bool
  timeoutLog : Bool
  add : AddAnswers
  addLog : Bool
  close : CloseAnswers

def StartAnswers.timeout (a : StartAnswers) : Option Int32 :=
  match a.getTimeout with
  | none => a.setTimeout watchdogTimeoutDefaultSecs
  | some timeout =>
    if timeout < 1 then a.setTimeout watchdogTimeoutDefaultSecs else some timeout

def timeoutMs (timeout : Int32) : UInt32 := timeout.toUInt32 * 900

def openDevice (w : Watching) : Watching :=
  let opened := w.files.open .watchdog true
  { w with files := opened.2, watchdogFd := some opened.1 }

def startWatchdog (a : StartAnswers) (w : Watching) : Option Watching :=
  if !a.openDevice.succeeds then some ({ w with watchdogFd := none }.log a.openDevice.openLog)
  else
    let w := openDevice w
    match a.timeout with
    | none => some (closeWatchdog a.close false (w.log a.setLog))
    | some timeout =>
      match mainloopAddTimeout a.add (timeoutMs timeout) (w.log a.timeoutLog) with
      | none => none
      | some (none, w) =>
        some (closeWatchdog a.close false ({ w with watchdogTimeout := none }.log a.addLog))
      | some (some timer, w) => some { w with watchdogTimeout := some timer }

def AddAnswers.succeed (a : AddAnswers) : Bool :=
  a.calloc.succeeds && a.timerfdCreate.succeeds && a.epollCtl.succeeds

theorem add_timeout_aborts_iff (a : AddAnswers) (msec : UInt32) (w : Watching) :
    mainloopAddTimeout a msec w = none ↔ msec = 0 := by
  unfold mainloopAddTimeout
  constructor
  · intro aborted
    split at aborted
    · assumption
    · repeat' split at aborted
      all_goals simp at aborted
  · intro zero
    rw [if_pos zero]

theorem add_timeout_timer {a : AddAnswers} {msec : UInt32} {w w' : Watching}
    {timer : Option Timer} (added : mainloopAddTimeout a msec w = some (timer, w')) :
    (a.succeed = false ∧ timer = none) ∨
    (a.succeed = true ∧ ∃ timerfd, timer = some ⟨timerfd, itimerspec msec.toNat⟩) := by
  unfold mainloopAddTimeout at added
  unfold AddAnswers.succeed
  split at added
  · cases added
  · repeat' split at added
    all_goals
      simp only [Option.some.injEq, Prod.mk.injEq] at added
      obtain ⟨rfl, _⟩ := added
      simp_all

def Watching.statics (w : Watching) : Option Nat × Option Timer × Bool :=
  (w.watchdogFd, w.watchdogTimeout, w.started)

@[simp] theorem log_statics (openLog : Bool) (w : Watching) :
    (w.log openLog).statics = w.statics := rfl

@[simp] theorem log_failure_statics (answer : CallAnswer) (w : Watching) :
    (w.logFailure answer).statics = w.statics := by
  unfold Watching.logFailure
  split
  · rfl
  · rfl

@[simp] theorem perform_statics (call : Call) (fd : Nat) (w : Watching) :
    (w.perform call fd).statics = w.statics := rfl

@[simp] theorem close_statics (call : Call) (fd : Nat) (w : Watching) :
    (w.close call fd).statics = w.statics := rfl

@[simp] theorem disarm_statics (a : CloseAnswers) (fd : Nat) (w : Watching) :
    (disarmWatchdog a fd w).statics = w.statics := by
  simp [disarmWatchdog]

theorem statics_inj {w w' : Watching} (same : w'.statics = w.statics) :
    w'.watchdogFd = w.watchdogFd ∧ w'.watchdogTimeout = w.watchdogTimeout ∧
      w'.started = w.started := by
  simpa [Watching.statics] using same

theorem remove_feed_statics (a : CloseAnswers) (w : Watching) :
    (removeFeed a w).statics = (w.watchdogFd, none, w.started) := by
  unfold removeFeed
  split
  · rename_i unarmed
    rw [Watching.statics, unarmed]
  · rename_i timer armed
    have same : (mainloopRemoveTimeout a.remove timer w).statics = w.statics := by
      simp [mainloopRemoveTimeout]
    obtain ⟨fd, _, started⟩ := statics_inj same
    rw [Watching.statics, fd, started]

theorem close_watchdog_statics (a : CloseAnswers) (disarm : Bool) {w : Watching} {fd : Nat}
    (known : w.watchdogFd = some fd) (positive : 0 < fd) :
    (closeWatchdog a disarm w).statics = (some fd, none, w.started) := by
  simp only [closeWatchdog, known, positive, ↓reduceIte]
  rw [remove_feed_statics]
  have same : ((if disarm then disarmWatchdog a fd (w.log a.closing)
      else w.log a.closing).close .close fd).statics = w.statics := by
    split
    · simp
    · simp
  obtain ⟨number, _, started⟩ := statics_inj same
  rw [number, started, known]

theorem close_watchdog_idle (a : CloseAnswers) (disarm : Bool) {w : Watching}
    (idle : ¬ ∃ fd, w.watchdogFd = some fd ∧ 0 < fd) : closeWatchdog a disarm w = w := by
  unfold closeWatchdog
  split
  · rfl
  · rename_i fd known
    split
    · rename_i positive
      exact absurd ⟨fd, known, positive⟩ idle
    · rfl

theorem close_watchdog_number (a : CloseAnswers) (disarm : Bool) (w : Watching) :
    (closeWatchdog a disarm w).watchdogFd = w.watchdogFd ∧
      (closeWatchdog a disarm w).started = w.started := by
  by_cases acts : ∃ fd, w.watchdogFd = some fd ∧ 0 < fd
  · obtain ⟨fd, known, positive⟩ := acts
    have statics := close_watchdog_statics a disarm known positive
    simp only [Watching.statics, Prod.mk.injEq] at statics
    exact ⟨statics.1.trans known.symm, statics.2.2⟩
  · rw [close_watchdog_idle a disarm acts]
    exact ⟨rfl, rfl⟩

theorem close_watchdog_unarmed (a : CloseAnswers) (disarm : Bool) {w : Watching}
    (unarmed : w.watchdogTimeout = none) :
    (closeWatchdog a disarm w).statics = w.statics := by
  by_cases acts : ∃ fd, w.watchdogFd = some fd ∧ 0 < fd
  · obtain ⟨fd, known, positive⟩ := acts
    rw [close_watchdog_statics a disarm known positive, Watching.statics, known, unarmed]
  · rw [close_watchdog_idle a disarm acts]

theorem start_cases {a : StartAnswers} {w w' : Watching} (started : startWatchdog a w = some w') :
    (a.openDevice.succeeds = false ∧
      w' = { w with watchdogFd := none }.log a.openDevice.openLog) ∨
    (a.openDevice.succeeds = true ∧ a.timeout = none ∧
      w' = closeWatchdog a.close false ((openDevice w).log a.setLog)) ∨
    (∃ timeout added, a.openDevice.succeeds = true ∧ a.timeout = some timeout ∧
      mainloopAddTimeout a.add (timeoutMs timeout) ((openDevice w).log a.timeoutLog) =
        some (none, added) ∧
      w' = closeWatchdog a.close false ({ added with watchdogTimeout := none }.log a.addLog)) ∨
    (∃ timeout added timer, a.openDevice.succeeds = true ∧ a.timeout = some timeout ∧
      mainloopAddTimeout a.add (timeoutMs timeout) ((openDevice w).log a.timeoutLog) =
        some (some timer, added) ∧
      w' = { added with watchdogTimeout := some timer }) := by
  unfold startWatchdog at started
  split at started
  · rename_i closed
    exact .inl ⟨by simpa using closed, (Option.some.inj started).symm⟩
  · rename_i opens
    replace opens : a.openDevice.succeeds = true := by simpa using opens
    dsimp only at started
    split at started
    · rename_i unset
      exact .inr (.inl ⟨opens, unset, (Option.some.inj started).symm⟩)
    · rename_i timeout found
      split at started
      · cases started
      · rename_i added failed
        exact .inr (.inr (.inl ⟨timeout, added, opens, found, failed,
          (Option.some.inj started).symm⟩))
      · rename_i timer added armed
        exact .inr (.inr (.inr ⟨timeout, added, timer, opens, found, armed,
          (Option.some.inj started).symm⟩))

theorem start_timer {a : StartAnswers} {w w' : Watching} {timeout : Int32}
    (opens : a.openDevice.succeeds = true) (found : a.timeout = some timeout)
    (started : startWatchdog a w = some w') :
    (a.add.succeed = false ∧ w'.watchdogTimeout = none) ∨
    (a.add.succeed = true ∧ ∃ timerfd,
      w'.watchdogTimeout = some ⟨timerfd, itimerspec (timeoutMs timeout).toNat⟩) := by
  rcases start_cases started with ⟨closed, _⟩ | ⟨_, unset, _⟩ | ⟨_, _, _, same, failed, rfl⟩ |
      ⟨_, _, timer, _, same, armed, rfl⟩
  · rw [opens] at closed
    cases closed
  · rw [found] at unset
    cases unset
  · rcases add_timeout_timer failed with ⟨fails, _⟩ | ⟨_, _, timer⟩
    · refine .inl ⟨fails, ?_⟩
      rw [(statics_inj (close_watchdog_unarmed _ _ rfl)).2.1]
      rfl
    · cases timer
  · obtain rfl := Option.some.inj (found.symm.trans same)
    rcases add_timeout_timer armed with ⟨_, none⟩ | ⟨succeeds, timerfd, timer⟩
    · cases none
    · exact .inr ⟨succeeds, timerfd, timer⟩

def StartAnswers.armed (a : StartAnswers) : Option (Nat × TimerAnswer) :=
  if a.openDevice.succeeds then
    a.timeout.map (fun timeout => ((timeoutMs timeout).toNat, a.add.timerAnswer))
  else none

theorem start_unarmed {a : StartAnswers} {w w' : Watching} (unarmed : w.watchdogTimeout = none)
    (unasked : a.armed = none) (started : startWatchdog a w = some w') :
    w'.watchdogTimeout = none := by
  rcases start_cases started with ⟨_, rfl⟩ | ⟨_, _, rfl⟩ | ⟨_, _, opens, found, _⟩ |
      ⟨_, _, _, opens, found, _⟩
  · exact unarmed
  · have same : (closeWatchdog a.close false ((openDevice w).log a.setLog)).statics =
        ((openDevice w).log a.setLog).statics :=
      close_watchdog_unarmed a.close false unarmed
    exact (statics_inj same).2.1.trans unarmed
  · simp [StartAnswers.armed, opens, found] at unasked
  · simp [StartAnswers.armed, opens, found] at unasked

theorem main_loop_timeouts (a : AddAnswers) (msec : Nat) (s : InitState.State) :
    (InitState.mainloopAddTimeout a.timerAnswer msec .watchdogFeed s).2.timeouts =
      if a.succeed then ⟨s.timeoutCount, .watchdogFeed, itimerspec msec⟩ :: s.timeouts
      else s.timeouts := by
  unfold InitState.mainloopAddTimeout AddAnswers.timerAnswer AddAnswers.succeed
  cases a.calloc.succeeds <;> cases a.timerfdCreate.succeeds <;> cases a.epollCtl.succeeds <;> rfl

theorem start_matches_main_loop {a : StartAnswers} {w w' : Watching} (s : InitState.State)
    (unarmed : w.watchdogTimeout = none) (started : startWatchdog a w = some w') :
    (MainLoop.startWatchdog a.armed s).timeouts =
      (w'.watchdogTimeout.map (fun timer =>
        ⟨s.timeoutCount, .watchdogFeed, timer.interval⟩)).toList ++ s.timeouts := by
  cases armed : a.armed with
  | none =>
    rw [start_unarmed unarmed armed started]
    rfl
  | some feed =>
    unfold StartAnswers.armed at armed
    split at armed
    · rename_i opens
      obtain ⟨timeout, found, rfl⟩ := Option.map_eq_some_iff.mp armed
      rw [MainLoop.startWatchdog, main_loop_timeouts]
      rcases start_timer opens found started with ⟨fails, timer⟩ | ⟨succeeds, timerfd, timer⟩
      · rw [timer, fails]
        rfl
      · rw [timer, succeeds]
        rfl
    · cases armed

def nanoseconds (t : Timespec) : Nat := t.tvSec * 10 ^ 9 + t.tvNsec

theorem itimerspec_spec (msec : Nat) :
    (itimerspec msec).tvNsec < 10 ^ 9 ∧ nanoseconds (itimerspec msec) = msec * 10 ^ 6 := by
  simp only [nanoseconds, itimerspec]
  omega

theorem timeout_ms_value {timeout : Int32} (positive : 1 ≤ timeout) :
    ((timeoutMs timeout).toNat : Int) = 900 * timeout.toInt % 2 ^ 32 := by
  have nonnegative : 0 ≤ timeout := Int32.le_trans (by decide) positive
  have value : (timeout.toUInt32.toNat : Int) = timeout.toInt := by
    rw [Int32.toNat_toUInt32_of_le nonnegative, Int32.cast_toNatClampNeg timeout nonnegative]
  rw [timeoutMs, UInt32.toNat_mul, ← value]
  simp [Int.mul_comm]

/-- The feed is on time: the interval is nine tenths of the timeout, no assertion
    of mainloop_add_timeout fails, and the timer that is armed has a valid period
    below the timeout. -/
structure FedOnTime (a : StartAnswers) (w : Watching) (timeout : Int32) : Prop where
  interval : ((timeoutMs timeout).toNat : Int) = 900 * timeout.toInt
  asserted : startWatchdog a w ≠ none
  period : a.add.succeed = true → ∃ w' timer, startWatchdog a w = some w' ∧
    w'.watchdogTimeout = some timer ∧ timer.interval.tvNsec < 10 ^ 9 ∧
    0 < nanoseconds timer.interval ∧
    (nanoseconds timer.interval : Int) < timeout.toInt * 10 ^ 9

theorem start_asserts_iff {a : StartAnswers} {w : Watching} {timeout : Int32}
    (opens : a.openDevice.succeeds = true) (found : a.timeout = some timeout) :
    startWatchdog a w = none ↔ timeoutMs timeout = 0 := by
  rw [← add_timeout_aborts_iff a.add (timeoutMs timeout) ((openDevice w).log a.timeoutLog)]
  simp only [startWatchdog, opens, Bool.not_true, Bool.false_eq_true, ↓reduceIte, found]
  split
  · simp [*]
  · simp [*]
  · simp [*]

/-- The product wraps beyond 4772185 seconds, the greatest timeout whose nine
    tenths are below 2^32 milliseconds. -/
theorem fed_on_time_iff (a : StartAnswers) (w : Watching) (timeout : Int32)
    (opens : a.openDevice.succeeds = true) (found : a.timeout = some timeout)
    (positive : 1 ≤ timeout) :
    FedOnTime a w timeout ↔ timeout ≤ 4772185 := by
  have value := timeout_ms_value positive
  have least : 1 ≤ timeout.toInt := Int32.le_iff_toInt_le.mp positive
  have bound : timeout ≤ 4772185 ↔ timeout.toInt ≤ 4772185 := Int32.le_iff_toInt_le
  rw [bound]
  constructor
  · intro fed
    have exact := fed.interval
    omega
  · intro small
    have exact : ((timeoutMs timeout).toNat : Int) = 900 * timeout.toInt := by omega
    have nonzero : timeoutMs timeout ≠ 0 := by
      intro zero
      rw [zero] at exact
      simp at exact
      omega
    have asserted : startWatchdog a w ≠ none := by
      intro aborted
      exact nonzero ((start_asserts_iff opens found).mp aborted)
    refine ⟨exact, asserted, ?_⟩
    intro succeeds
    obtain ⟨w', started⟩ := Option.ne_none_iff_exists'.mp asserted
    rcases start_timer opens found started with ⟨fails, _⟩ | ⟨_, timerfd, armed⟩
    · rw [fails] at succeeds
      cases succeeds
    · obtain ⟨valid, period⟩ := itimerspec_spec (timeoutMs timeout).toNat
      refine ⟨w', _, started, armed, valid, ?_⟩
      rw [period]
      omega

def sampleStart (timeout : Int32) : StartAnswers :=
  ⟨⟨true, true⟩, some timeout, some, true, true,
    ⟨⟨true, true⟩, ⟨true, true⟩, true, ⟨true, true⟩⟩, true,
    ⟨true, ⟨true, true⟩, ⟨true, true⟩, ⟨true, ⟨true, true⟩⟩⟩⟩

def sampleWatching : Watching :=
  ⟨⟨⟨[some ⟨.other 0, true⟩, some ⟨.log, true⟩, some ⟨.other 1, true⟩]⟩, some 1⟩,
    none, none, false, []⟩

theorem fed_on_time_for_a_minute : FedOnTime (sampleStart 60) sampleWatching 60 :=
  (fed_on_time_iff (sampleStart 60) sampleWatching 60 rfl rfl (by decide)).mpr (by decide)

/-- With 2^30 seconds the product is 0, and mainloop_add_timeout aborts; with
    4772186 seconds the feed is every 104 milliseconds. -/
theorem feed_wraps :
    ((sampleStart 1073741824).timeout = some 1073741824 ∧
      startWatchdog (sampleStart 1073741824) sampleWatching = none) ∧
    timeoutMs 4772186 = 104 ∧
    ¬ ∀ a w timeout, a.openDevice.succeeds = true → a.timeout = some timeout → 1 ≤ timeout →
      FedOnTime a w timeout := by
  refine ⟨⟨by decide, by decide⟩, by decide, ?_⟩
  intro always
  have fed := always (sampleStart 1073741824) sampleWatching 1073741824 rfl rfl (by decide)
  exact fed.asserted (by decide)

end Watchdog
