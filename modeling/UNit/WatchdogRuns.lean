import UNit.LabelledRuns
import UNit.Watchdog

/-!
Runs of the watchdog among the open files of init. Between its calls the rest of
init opens and closes descriptors of its own, and a message may open the log, so
that a number that was closed is soon that of something else.
-/
namespace WatchdogRuns
open DescriptorTable OpenFiles Watchdog LabelledRuns

inductive Event where
  | start (a : StartAnswers)
  | openOther (id : Nat) (cloexec : Bool)
  | closeOther (n : Nat)
  | logMessage (openLog : Bool)
  | feed (a : FeedAnswers)
  | closeWatchdog (a : CloseAnswers) (disarm : Bool)

/-- None where the event cannot happen: main calls start_watchdog once, the rest of
    init closes what it has opened itself, and the feed comes from its timer. -/
def step (w : Watching) : Event → Option Watching
  | .start a =>
    if w.started then none
    else (startWatchdog a w).map (fun w => { w with started := true })
  | .openOther id cloexec => some { w with files := (w.files.open (.other id) cloexec).2 }
  | .closeOther n =>
    match w.at n with
    | some (.other _) => some { w with files := w.files.close n }
    | _ => none
  | .logMessage openLog => some (w.log openLog)
  | .feed a => if w.watchdogTimeout.isSome then some (watchdogFeed a w) else none
  | .closeWatchdog a disarm => some (closeWatchdog a disarm w)

structure Boots (w : Watching) : Prop where
  fd : w.watchdogFd = none
  timeout : w.watchdogTimeout = none
  started : w.started = false
  io : w.io = []
  gone : ∀ n, w.at n ≠ some .watchdog

def Owned (w : Watching) : Prop := ∀ x ∈ w.io, x.Own

def StartAnswers.fails (a : StartAnswers) : Bool := a.timeout.isNone || !a.add.succeed

/-- The event runs close_watchdog while watchdog_fd is positive. The device gets
    another number than 0 where 0 is taken. -/
def closes (w : Watching) : Event → Bool
  | .start a => a.openDevice.succeeds && StartAnswers.fails a && (w.at 0).isSome
  | .closeWatchdog _ _ => w.watchdogFd.any (0 < ·)
  | .openOther _ _ | .closeOther _ | .logMessage _ | .feed _ => false

def ends (w : Watching) : Event → Bool
  | .start a => !a.openDevice.succeeds || StartAnswers.fails a
  | .closeWatchdog _ _ => w.started
  | .openOther _ _ | .closeOther _ | .logMessage _ | .feed _ => false

/-- What the watchdog code does is on its own descriptors, and close_watchdog does
    nothing any more behind a start that failed or another close_watchdog. -/
structure TouchesOwn (trace : List (Watching × Event)) (w : Watching) : Prop where
  owned : Owned w
  quiet : ∀ later earlier before a disarm,
    trace = later ++ (before, .closeWatchdog a disarm) :: earlier →
    (∃ x ∈ earlier, ends x.1 x.2 = true) → (closeWatchdog a disarm before).io = before.io

structure Grows (w w' : Watching) : Prop where
  statics : w'.statics = w.statics
  kept : ∀ n o, w.at n = some o → w'.at n = some o
  fresh : ∀ n, w'.at n = some .watchdog → w.at n = some .watchdog
  io : w.io <:+ w'.io

theorem Grows.refl (w : Watching) : Grows w w :=
  ⟨rfl, fun _ _ stands => stands, fun _ stands => stands, List.suffix_rfl⟩

theorem Grows.trans {u v w : Watching} (first : Grows u v) (second : Grows v w) : Grows u w where
  statics := second.statics.trans first.statics
  kept n o stands := second.kept n o (first.kept n o stands)
  fresh n stands := first.fresh n (second.fresh n stands)
  io := first.io.trans second.io

theorem open_grows (w : Watching) {object : Object} (other : object ≠ .watchdog)
    (cloexec : Bool) : Grows w { w with files := (w.files.open object cloexec).2 } := by
  obtain ⟨free, now, _⟩ := open_spec w.files object cloexec
  refine ⟨rfl, ?_, ?_, List.suffix_rfl⟩
  · intro n o stands
    have taken : n ≠ (w.files.open object cloexec).1 := by
      rintro rfl
      simp [Watching.at, free] at stands
    simpa [Watching.at, now, taken] using stands
  · intro n stands
    by_cases opened : n = (w.files.open object cloexec).1
    · simp [Watching.at, now, opened, other] at stands
    · simpa [Watching.at, now, opened] using stands

theorem log_grows (openLog : Bool) (w : Watching) : Grows w (w.log openLog) := by
  unfold Watching.log logMessage logFd
  split
  · exact Grows.refl w
  · split
    · have opened := open_grows w (show Object.log ≠ .watchdog by decide) true
      exact ⟨opened.statics, opened.kept, opened.fresh, opened.io⟩
    · exact Grows.refl w

theorem log_failure_grows (answer : CallAnswer) (w : Watching) :
    Grows w (w.logFailure answer) := by
  unfold Watching.logFailure
  split
  · exact Grows.refl w
  · exact log_grows answer.openLog w

theorem perform_grows (call : Call) (fd : Nat) (w : Watching) : Grows w (w.perform call fd) :=
  ⟨rfl, fun _ _ stands => stands, fun _ stands => stands, List.suffix_cons _ _⟩

theorem log_failure_io (answer : CallAnswer) (w : Watching) :
    (w.logFailure answer).io = w.io := by
  unfold Watching.logFailure
  split
  · rfl
  · rfl

theorem owned_of_io {w w' : Watching} (io : w'.io = w.io) (owned : Owned w) : Owned w' := by
  rwa [Owned, io]

theorem owned_of_suffix {w w' : Watching} (io : w.io <:+ w'.io) (owned : Owned w') : Owned w := by
  intro x member
  exact owned x (io.subset member)

theorem perform_owned {call : Call} {fd : Nat} {w : Watching} (own : w.at fd = some call.target)
    (owned : Owned w) : Owned (w.perform call fd) := by
  intro x member
  rcases List.mem_cons.mp member with rfl | past
  · exact own
  · exact owned x past

theorem at_close (w : Watching) (fd n : Nat) :
    { w with files := w.files.close fd }.at n = if n = fd then none else w.at n := by
  simp only [Watching.at, Files.close, get_close]
  split
  · rfl
  · rfl

theorem close_at (call : Call) (fd n : Nat) (w : Watching) :
    (w.close call fd).at n = if n = fd then none else w.at n :=
  at_close w fd n

theorem disarm_grows (a : CloseAnswers) (fd : Nat) (w : Watching) :
    Grows w (disarmWatchdog a fd w) := by
  have options := (perform_grows .setOptions fd w).trans (log_failure_grows a.setOptions _)
  have magic := (perform_grows .magicClose fd ((w.perform .setOptions fd).logFailure a.setOptions))
  exact (options.trans magic).trans (log_failure_grows a.magicClose _)

theorem disarm_owned (a : CloseAnswers) {fd : Nat} {w : Watching}
    (own : w.at fd = some .watchdog) (owned : Owned w) : Owned (disarmWatchdog a fd w) := by
  have options : Owned ((w.perform .setOptions fd).logFailure a.setOptions) :=
    owned_of_io (log_failure_io a.setOptions _) (perform_owned own owned)
  have still : ((w.perform .setOptions fd).logFailure a.setOptions).at fd = some .watchdog :=
    (log_failure_grows a.setOptions _).kept fd _ own
  exact owned_of_io (log_failure_io a.magicClose _) (perform_owned still options)

def beforeClose (a : CloseAnswers) (disarm : Bool) (fd : Nat) (w : Watching) : Watching :=
  if disarm then disarmWatchdog a fd (w.log a.closing) else w.log a.closing

theorem close_watchdog_eq (a : CloseAnswers) (disarm : Bool) {w : Watching} {fd : Nat}
    (known : w.watchdogFd = some fd) (positive : 0 < fd) :
    closeWatchdog a disarm w = removeFeed a ((beforeClose a disarm fd w).close .close fd) := by
  simp only [closeWatchdog, known, positive, ↓reduceIte, beforeClose]

theorem before_close_grows (a : CloseAnswers) (disarm : Bool) (fd : Nat) (w : Watching) :
    Grows w (beforeClose a disarm fd w) := by
  unfold beforeClose
  split
  · exact (log_grows a.closing w).trans (disarm_grows a fd _)
  · exact log_grows a.closing w

theorem before_close_owned (a : CloseAnswers) (disarm : Bool) {fd : Nat} {w : Watching}
    (own : w.at fd = some .watchdog) (owned : Owned w) : Owned (beforeClose a disarm fd w) := by
  unfold beforeClose
  split
  · exact disarm_owned a ((log_grows a.closing w).kept fd _ own) owned
  · exact owned

theorem remove_feed_fades (a : CloseAnswers) (w : Watching) :
    (∀ n, (removeFeed a w).at n = some .watchdog → w.at n = some .watchdog) ∧
      w.io <:+ (removeFeed a w).io := by
  unfold removeFeed
  split
  · exact ⟨fun _ stands => stands, List.suffix_rfl⟩
  · rename_i timer _
    have grown := (log_grows a.remove.removing w).trans (log_failure_grows a.remove.epollCtl _)
    refine ⟨?_, grown.io.trans (List.suffix_cons _ _)⟩
    intro n stands
    change (mainloopRemoveTimeout a.remove timer w).at n = some .watchdog at stands
    rw [mainloopRemoveTimeout, close_at] at stands
    split at stands
    · cases stands
    · exact grown.fresh n stands

theorem remove_feed_owned (a : CloseAnswers) {w : Watching}
    (armed : ∀ timer, w.watchdogTimeout = some timer → w.at timer.timerfd = some .timer)
    (owned : Owned w) : Owned (removeFeed a w) := by
  unfold removeFeed
  split
  · exact owned
  · rename_i timer known
    have grown := (log_grows a.remove.removing w).trans (log_failure_grows a.remove.epollCtl _)
    refine perform_owned (grown.kept _ _ (armed timer known)) ?_
    exact owned_of_io (log_failure_io _ _) owned

def Gone (w : Watching) : Prop := ∀ n, w.at n ≠ some .watchdog

structure Standing (w : Watching) : Prop where
  held : ∀ fd, w.watchdogFd = some fd → w.at fd = some .watchdog
  only : ∀ n, w.at n = some .watchdog → w.watchdogFd = some n
  armed : ∀ timer, w.watchdogTimeout = some timer → w.at timer.timerfd = some .timer
  owned : Owned w

theorem Standing.grows {w w' : Watching} (standing : Standing w) (grown : Grows w w')
    (owned : Owned w') : Standing w' := by
  obtain ⟨fd, timeout, _⟩ := statics_inj grown.statics
  refine ⟨?_, ?_, ?_, owned⟩
  · intro n known
    exact grown.kept n _ (standing.held n (fd ▸ known))
  · intro n stands
    rw [fd]
    exact standing.only n (grown.fresh n stands)
  · intro timer known
    exact grown.kept _ _ (standing.armed timer (timeout ▸ known))

theorem close_watchdog_standing (a : CloseAnswers) (disarm : Bool) {w : Watching} {fd : Nat}
    (standing : Standing w) (known : w.watchdogFd = some fd) (positive : 0 < fd) :
    Gone (closeWatchdog a disarm w) ∧ Owned (closeWatchdog a disarm w) := by
  have grown := before_close_grows a disarm fd w
  have own := standing.held fd known
  have still := grown.kept fd _ own
  obtain ⟨_, timeout, _⟩ := statics_inj grown.statics
  rw [close_watchdog_eq a disarm known positive]
  constructor
  · intro n stands
    have there := (remove_feed_fades a _).1 n stands
    rw [close_at] at there
    split at there
    · cases there
    · rename_i other
      have elsewhere := standing.only n (grown.fresh n there)
      rw [known] at elsewhere
      exact other (Option.some.inj elsewhere).symm
  · have closed := before_close_owned a disarm own standing.owned
    refine remove_feed_owned a ?_ (perform_owned still closed)
    intro timer armed
    have there := grown.kept _ _ (standing.armed timer (timeout ▸ armed))
    rw [close_at, if_neg, there]
    rintro rfl
    rw [there] at still
    cases still

theorem close_watchdog_gone (a : CloseAnswers) (disarm : Bool) {w : Watching} {fd : Nat}
    (gone : Gone w) (known : w.watchdogFd = some fd) (positive : 0 < fd) :
    ¬ Owned (closeWatchdog a disarm w) := by
  intro owned
  rw [close_watchdog_eq a disarm known positive] at owned
  have closed := owned_of_suffix (remove_feed_fades a _).2 owned _ (List.mem_cons_self ..)
  exact gone fd ((before_close_grows a disarm fd w).fresh fd closed)

theorem close_watchdog_io (a : CloseAnswers) (disarm : Bool) (w : Watching) :
    w.io <:+ (closeWatchdog a disarm w).io := by
  by_cases acts : ∃ fd, w.watchdogFd = some fd ∧ 0 < fd
  · obtain ⟨fd, known, positive⟩ := acts
    rw [close_watchdog_eq a disarm known positive]
    have closed : (beforeClose a disarm fd w).io <:+
        ((beforeClose a disarm fd w).close .close fd).io :=
      List.suffix_cons _ _
    exact ((before_close_grows a disarm fd w).io.trans closed).trans (remove_feed_fades a _).2
  · have idle : (closeWatchdog a disarm w).io = w.io := by
      rw [close_watchdog_idle a disarm acts]
    exact idle ▸ List.suffix_rfl

theorem Grows.closed {u w : Watching} {fd : Nat} (grown : Grows u w) (free : u.at fd = none) :
    Grows u { w with files := w.files.close fd } := by
  refine ⟨grown.statics, ?_, ?_, grown.io⟩
  · intro n o stands
    have other : n ≠ fd := by
      rintro rfl
      rw [free] at stands
      cases stands
    rw [at_close, if_neg other]
    exact grown.kept n o stands
  · intro n stands
    rw [at_close] at stands
    split at stands
    · cases stands
    · exact grown.fresh n stands

theorem add_timeout_grows {a : AddAnswers} {msec : UInt32} {w w' : Watching}
    {timer : Option Timer} (added : mainloopAddTimeout a msec w = some (timer, w')) :
    Grows w w' ∧ w'.io = w.io ∧ ∀ t, timer = some t → w'.at t.timerfd = some .timer := by
  unfold mainloopAddTimeout at added
  split at added
  · cases added
  · split at added
    · cases added
      exact ⟨log_grows _ w, rfl, by simp⟩
    · split at added
      · cases added
        exact ⟨log_grows _ w, rfl, by simp⟩
      · have opened := open_grows w (show Object.timer ≠ .watchdog by decide) true
        have logged := opened.trans (log_grows a.adding _)
        obtain ⟨free, now, _⟩ := open_spec w.files .timer true
        dsimp only at added
        split at added
        · cases added
          have failed := logged.trans (log_grows a.epollCtl.openLog _)
          exact ⟨failed.closed (by simp [Watching.at, free]), rfl, by simp⟩
        · cases added
          refine ⟨logged, rfl, ?_⟩
          intro t timer
          cases timer
          apply (log_grows a.adding _).kept
          simp [Watching.at, now]

theorem open_device_standing {w : Watching} (standing : Standing w)
    (closed : w.watchdogFd = none) : Standing (openDevice w) := by
  obtain ⟨free, now, _⟩ := open_spec w.files .watchdog true
  have table : ∀ n, (openDevice w).at n =
      if n = (w.files.open .watchdog true).1 then some .watchdog else w.at n := by
    intro n
    simp only [Watching.at, openDevice, now]
    split
    · rfl
    · rfl
  refine ⟨?_, ?_, ?_, standing.owned⟩
  · intro fd known
    cases known
    rw [table, if_pos rfl]
  · intro n stands
    rw [table] at stands
    split at stands
    · rename_i here
      rw [here]
      rfl
    · have other := standing.only n stands
      rw [closed] at other
      cases other
  · intro timer known
    have there := standing.armed timer known
    rw [table, if_neg, there]
    intro here
    rw [here] at there
    simp [Watching.at, free] at there

theorem start_descriptors {a : StartAnswers} {w w' : Watching} (unarmed : w.watchdogTimeout = none)
    (started : startWatchdog a w = some w') :
    (a.openDevice.succeeds = false ∧ Grows { w with watchdogFd := none } w' ∧ w'.io = w.io) ∨
    (a.openDevice.succeeds = true ∧ StartAnswers.fails a = true ∧ ∃ u, Grows (openDevice w) u ∧
      u.io = w.io ∧ w' = closeWatchdog a.close false u) ∨
    (a.openDevice.succeeds = true ∧ StartAnswers.fails a = false ∧ ∃ u timer,
      Grows (openDevice w) u ∧ u.io = w.io ∧ u.at timer.timerfd = some .timer ∧
      w' = { u with watchdogTimeout := some timer }) := by
  rcases start_cases started with ⟨closed, rfl⟩ | ⟨opens, unset, rfl⟩ |
      ⟨timeout, u, opens, found, failed, rfl⟩ | ⟨timeout, u, timer, opens, found, armed, rfl⟩
  · exact .inl ⟨closed, log_grows _ _, rfl⟩
  · exact .inr (.inl ⟨opens, by simp [StartAnswers.fails, unset], _, log_grows _ _, rfl, rfl⟩)
  · obtain ⟨grown, io, _⟩ := add_timeout_grows failed
    rcases add_timeout_timer failed with ⟨fails, _⟩ | ⟨_, _, timer⟩
    · have same : { u with watchdogTimeout := none } = u := by
        have none : u.watchdogTimeout = none := (statics_inj grown.statics).2.1.trans unarmed
        rw [← none]
      refine .inr (.inl ⟨opens, by simp [StartAnswers.fails, fails], _, ?_, ?_, rfl⟩)
      · rw [same]
        exact ((log_grows _ _).trans grown).trans (log_grows _ _)
      · exact io
    · cases timer
  · obtain ⟨grown, io, there⟩ := add_timeout_grows armed
    rcases add_timeout_timer armed with ⟨_, none⟩ | ⟨succeeds, _⟩
    · cases none
    · exact .inr (.inr ⟨opens, by simp [StartAnswers.fails, found, succeeds], u, timer,
        (log_grows _ _).trans grown, io, there timer rfl, rfl⟩)

/-- The state by how often close_watchdog has run with a positive watchdog_fd. -/
def Phase : Nat → Watching → Prop
  | 0, w => Standing w ∧
      (w.started = false → w.watchdogFd = none ∧ w.watchdogTimeout = none)
  | 1, w => Gone w ∧ w.watchdogTimeout = none ∧ w.started = true ∧ Owned w
  | _ + 2, w => ¬ Owned w ∧ w.started = true

theorem Phase.owned_iff {count : Nat} {w : Watching} (phase : Phase count w) :
    Owned w ↔ count ≤ 1 := by
  match count with
  | 0 => simp [phase.1.owned]
  | 1 => simp [phase.2.2.2]
  | _ + 2 => simp [phase.1]

theorem Phase.grows {count : Nat} {w w' : Watching} (phase : Phase count w)
    (grown : Grows w w') (owned : count ≤ 1 → Owned w') : Phase count w' := by
  obtain ⟨fd, timeout, started⟩ := statics_inj grown.statics
  match count with
  | 0 =>
    obtain ⟨standing, fresh⟩ := phase
    refine ⟨standing.grows grown (owned (by decide)), ?_⟩
    rw [fd, timeout, started]
    exact fresh
  | 1 =>
    obtain ⟨gone, unarmed, begun, _⟩ := phase
    refine ⟨?_, timeout.trans unarmed, started.trans begun, owned (by decide)⟩
    intro n stands
    exact gone n (grown.fresh n stands)
  | _ + 2 => exact ⟨mt (owned_of_suffix grown.io) phase.1, started.trans phase.2⟩

theorem Phase.close_other {count : Nat} {w : Watching} {n id : Nat} (phase : Phase count w)
    (other : w.at n = some (.other id)) :
    Phase count { w with files := w.files.close n } := by
  have kept : ∀ m o, w.at m = some o → o ≠ .other id →
      { w with files := w.files.close n }.at m = some o := by
    intro m o stands apart
    rw [at_close, if_neg, stands]
    rintro rfl
    exact apart (Option.some.inj (stands.symm.trans other))
  have fresh : ∀ m, { w with files := w.files.close n }.at m = some .watchdog →
      w.at m = some .watchdog := by
    intro m stands
    rw [at_close] at stands
    split at stands
    · cases stands
    · exact stands
  match count with
  | 0 =>
    obtain ⟨standing, fresh'⟩ := phase
    refine ⟨⟨?_, ?_, ?_, standing.owned⟩, fresh'⟩
    · intro fd known
      exact kept fd _ (standing.held fd known) (by simp)
    · intro m stands
      exact standing.only m (fresh m stands)
    · intro timer known
      exact kept _ _ (standing.armed timer known) (by simp)
  | 1 =>
    obtain ⟨gone, unarmed, begun, owned⟩ := phase
    exact ⟨fun m stands => gone m (fresh m stands), unarmed, begun, owned⟩
  | _ + 2 => exact phase

theorem open_device_number (w : Watching) :
    ∃ fd, (openDevice w).watchdogFd = some fd ∧ (0 < fd ↔ (w.at 0).isSome) := by
  refine ⟨_, rfl, ?_⟩
  rw [Watching.at, Option.isSome_map]
  exact lowest_pos_iff w.files.fds

theorem closes_close_iff (a : CloseAnswers) (disarm : Bool) (w : Watching) :
    closes w (.closeWatchdog a disarm) = true ↔ ∃ fd, w.watchdogFd = some fd ∧ 0 < fd := by
  simp [closes, Option.any_eq_true]

theorem Phase.closed {count : Nat} {w : Watching} {fd : Nat} (a : CloseAnswers) (disarm : Bool)
    (phase : Phase count w) (known : w.watchdogFd = some fd) (positive : 0 < fd) :
    Phase (count + 1) (closeWatchdog a disarm w) := by
  have statics := close_watchdog_statics a disarm known positive
  simp only [Watching.statics, Prod.mk.injEq] at statics
  rcases count with _ | _ | count
  · obtain ⟨standing, fresh⟩ := phase
    have begun : w.started = true := by
      by_contra unstarted
      rw [(fresh (by simpa using unstarted)).1] at known
      cases known
    obtain ⟨gone, owned⟩ := close_watchdog_standing a disarm standing known positive
    exact ⟨gone, statics.2.1, statics.2.2.trans begun, owned⟩
  · obtain ⟨gone, _, begun, _⟩ := phase
    exact ⟨close_watchdog_gone a disarm gone known positive, statics.2.2.trans begun⟩
  · obtain ⟨stray, begun⟩ := phase
    have still := mt (owned_of_suffix (close_watchdog_io a disarm w)) stray
    exact ⟨still, statics.2.2.trans begun⟩

theorem close_phase {count : Nat} {w : Watching} (a : CloseAnswers) (disarm : Bool)
    (phase : Phase count w) :
    Phase (count + if closes w (.closeWatchdog a disarm) then 1 else 0)
      (closeWatchdog a disarm w) := by
  by_cases acts : ∃ fd, w.watchdogFd = some fd ∧ 0 < fd
  · rw [if_pos ((closes_close_iff a disarm w).mpr acts)]
    obtain ⟨fd, known, positive⟩ := acts
    exact phase.closed a disarm known positive
  · rw [if_neg (mt (closes_close_iff a disarm w).mp acts), close_watchdog_idle a disarm acts]
    exact phase

theorem feed_grows (a : FeedAnswers) (w : Watching) : Grows w (watchdogFeed a w) := by
  unfold watchdogFeed
  split
  · exact (log_grows a.feeding w).trans (log_grows _ _)
  · exact ((log_grows a.feeding w).trans (perform_grows _ _ _)).trans (log_failure_grows _ _)

theorem feed_owned (a : FeedAnswers) {w : Watching} (standing : Standing w) :
    Owned (watchdogFeed a w) := by
  unfold watchdogFeed
  split
  · exact standing.owned
  · rename_i fd known
    have own := (log_grows a.feeding w).kept fd _ (standing.held fd known)
    exact owned_of_io (log_failure_io _ _) (perform_owned own standing.owned)

theorem feed_phase {count : Nat} {w : Watching} (a : FeedAnswers) (phase : Phase count w)
    (armed : w.watchdogTimeout.isSome = true) : Phase count (watchdogFeed a w) := by
  refine phase.grows (feed_grows a w) ?_
  intro small
  rcases count with _ | _ | count
  · exact feed_owned a phase.1
  · rw [phase.2.1] at armed
    cases armed
  · omega

theorem Standing.arm {w : Watching} {timer : Timer} (standing : Standing w)
    (there : w.at timer.timerfd = some .timer) :
    Standing { w with watchdogTimeout := some timer } := by
  refine ⟨standing.held, standing.only, ?_, standing.owned⟩
  intro feed known
  cases known
  exact there

theorem Standing.begun {w : Watching} (standing : Standing w) :
    Phase 0 { w with started := true } :=
  ⟨⟨standing.held, standing.only, standing.armed, standing.owned⟩, by simp⟩

theorem start_phase {w w' : Watching} {a : StartAnswers} (phase : Phase 0 w)
    (unstarted : w.started = false) (started : startWatchdog a w = some w') :
    Phase (if closes w (.start a) then 1 else 0) { w' with started := true } := by
  obtain ⟨standing, fresh⟩ := phase
  obtain ⟨closed, unarmed⟩ := fresh unstarted
  have opened := open_device_standing standing closed
  rcases start_descriptors unarmed started with ⟨fails, grown, io⟩ |
      ⟨opens, fails, u, grown, io, rfl⟩ | ⟨opens, succeeds, u, timer, grown, io, there, rfl⟩
  · have same : { w with watchdogFd := none } = w := by
      rw [← closed]
    rw [same] at grown
    rw [if_neg (by simp [closes, fails])]
    exact (standing.grows grown (owned_of_io io standing.owned)).begun
  · have stands := opened.grows grown (owned_of_io io standing.owned)
    obtain ⟨fd, number, positive⟩ := open_device_number w
    have known : u.watchdogFd = some fd := (statics_inj grown.statics).1.trans number
    by_cases zero : 0 < fd
    · rw [if_pos (by simp [closes, opens, fails, positive.mp zero])]
      have statics := close_watchdog_statics a.close false known zero
      obtain ⟨gone, owned⟩ := close_watchdog_standing a.close false stands known zero
      simp only [Watching.statics, Prod.mk.injEq] at statics
      exact ⟨gone, statics.2.1, rfl, owned⟩
    · have idle : ¬ ∃ fd, u.watchdogFd = some fd ∧ 0 < fd := by
        rintro ⟨other, known', positive'⟩
        obtain rfl := Option.some.inj (known.symm.trans known')
        exact zero positive'
      rw [close_watchdog_idle a.close false idle, if_neg]
      · exact stands.begun
      · intro counted
        simp only [closes, opens, fails, Bool.and_self, Bool.true_and] at counted
        exact zero (positive.mpr counted)
  · have stands := opened.grows grown (owned_of_io io standing.owned)
    rw [if_neg (by simp [closes, succeeds])]
    exact (stands.arm there).begun

theorem start_event {a : StartAnswers} {w w' : Watching}
    (stepped : step w (.start a) = some w') :
    w.started = false ∧ ∃ u, startWatchdog a w = some u ∧ w' = { u with started := true } := by
  simp only [step] at stepped
  split at stepped
  · cases stepped
  · rename_i unstarted
    obtain ⟨u, started, rfl⟩ := Option.map_eq_some_iff.mp stepped
    exact ⟨by simpa using unstarted, u, started, rfl⟩

theorem step_phase {count : Nat} {w w' : Watching} {e : Event} (phase : Phase count w)
    (stepped : step w e = some w') : Phase (count + if closes w e then 1 else 0) w' := by
  cases e with
  | start a =>
    obtain ⟨unstarted, u, started, rfl⟩ := start_event stepped
    rcases count with _ | _ | count
    · rw [Nat.zero_add]
      exact start_phase phase unstarted started
    · rw [phase.2.2.1] at unstarted
      cases unstarted
    · rw [phase.2] at unstarted
      cases unstarted
  | openOther id cloexec =>
    cases stepped
    exact phase.grows (open_grows w (by simp) cloexec) phase.owned_iff.mpr
  | closeOther n =>
    simp only [step] at stepped
    split at stepped
    · rename_i id other
      cases stepped
      exact phase.close_other other
    · cases stepped
  | logMessage openLog =>
    cases stepped
    exact phase.grows (log_grows openLog w) phase.owned_iff.mpr
  | feed a =>
    simp only [step] at stepped
    split at stepped
    · rename_i armed
      cases stepped
      exact feed_phase a phase armed
    · cases stepped
  | closeWatchdog a disarm =>
    cases stepped
    exact close_phase a disarm phase

theorem boots_phase {w : Watching} (boots : Boots w) : Phase 0 w := by
  refine ⟨⟨?_, ?_, ?_, ?_⟩, fun _ => ⟨boots.fd, boots.timeout⟩⟩
  · simp [boots.fd]
  · intro n stands
    exact absurd stands (boots.gone n)
  · simp [boots.timeout]
  · simp [Owned, boots.io]

def closings (trace : List (Watching × Event)) : Nat := trace.countP (fun x => closes x.1 x.2)

theorem run_phase {w w' : Watching} {trace : List (Watching × Event)} (boots : Boots w)
    (run : Run step w trace w') : Phase (closings trace) w' := by
  induction run with
  | start => exact boots_phase boots
  | next before now ih =>
    have after := step_phase ih now
    rwa [closings, List.countP_cons]

theorem Phase.unstarted {count : Nat} {w : Watching} (phase : Phase count w)
    (unstarted : w.started = false) : w.watchdogTimeout = none := by
  match count with
  | 0 => exact (phase.2 unstarted).2
  | 1 => exact phase.2.1
  | _ + 2 =>
    rw [phase.2] at unstarted
    cases unstarted

theorem step_number {w w' : Watching} {e : Event} (begun : w.started = true)
    (stepped : step w e = some w') :
    w'.started = true ∧ w'.watchdogFd = w.watchdogFd := by
  cases e with
  | start a => simp [step, begun] at stepped
  | openOther id cloexec =>
    cases stepped
    exact ⟨begun, rfl⟩
  | closeOther n =>
    simp only [step] at stepped
    split at stepped
    · cases stepped
      exact ⟨begun, rfl⟩
    · cases stepped
  | logMessage openLog =>
    cases stepped
    exact ⟨begun, rfl⟩
  | feed a =>
    simp only [step] at stepped
    split at stepped
    · cases stepped
      obtain ⟨fd, _, started⟩ := statics_inj (feed_grows a w).statics
      exact ⟨started.trans begun, fd⟩
    · cases stepped
  | closeWatchdog a disarm =>
    cases stepped
    obtain ⟨fd, started⟩ := close_watchdog_number a disarm w
    exact ⟨started.trans begun, fd⟩

theorem failed_start_closes {a : StartAnswers} {w u : Watching}
    (unarmed : w.watchdogTimeout = none) (started : startWatchdog a w = some u)
    (failed : ends w (.start a) = true) (acts : ∃ fd, u.watchdogFd = some fd ∧ 0 < fd) :
    closes w (.start a) = true := by
  obtain ⟨fd, known, positive⟩ := acts
  rcases start_descriptors unarmed started with ⟨_, grown, _⟩ |
      ⟨opens, fails, opened, grown, _, rfl⟩ | ⟨opens, succeeds, _⟩
  · rw [(statics_inj grown.statics).1] at known
    cases known
  · obtain ⟨number, taken, zero⟩ := open_device_number w
    have same : some number = some fd :=
      calc some number = (openDevice w).watchdogFd := taken.symm
        _ = opened.watchdogFd := (statics_inj grown.statics).1.symm
        _ = (closeWatchdog a.close false opened).watchdogFd :=
          (close_watchdog_number a.close false opened).1.symm
        _ = some fd := known
    cases same
    simp only [closes, opens, fails, Bool.and_self, Bool.true_and]
    exact zero.mp positive
  · simp [ends, opens, succeeds] at failed

theorem step_over {count : Nat} {w w' : Watching} {e : Event} (phase : Phase count w)
    (stepped : step w e = some w') (done : ends w e = true) :
    w'.started = true ∧
      ((∃ fd, w'.watchdogFd = some fd ∧ 0 < fd) → closes w e = true) := by
  cases e with
  | start a =>
    obtain ⟨unstarted, u, started, rfl⟩ := start_event stepped
    refine ⟨rfl, ?_⟩
    intro acts
    exact failed_start_closes (phase.unstarted unstarted) started done acts
  | closeWatchdog a disarm =>
    cases stepped
    obtain ⟨fd, started⟩ := close_watchdog_number a disarm w
    rw [fd, closes_close_iff]
    exact ⟨started.trans done, id⟩
  | openOther | closeOther | logMessage | feed => cases done

theorem run_over {w w' : Watching} {trace : List (Watching × Event)} (boots : Boots w)
    (run : Run step w trace w') (done : ∃ x ∈ trace, ends x.1 x.2 = true) :
    w'.started = true ∧ ((∃ fd, w'.watchdogFd = some fd ∧ 0 < fd) → 1 ≤ closings trace) := by
  induction run with
  | start => simp at done
  | next before now ih =>
    rw [closings, List.countP_cons]
    obtain ⟨x, member, finished⟩ := done
    rcases List.mem_cons.mp member with rfl | past
    · obtain ⟨begun, counted⟩ := step_over (run_phase boots before) now finished
      refine ⟨begun, ?_⟩
      intro acts
      rw [if_pos (counted acts)]
      exact Nat.le_add_left 1 _
    · obtain ⟨begun, counted⟩ := ih ⟨x, past, finished⟩
      obtain ⟨still, number⟩ := step_number begun now
      refine ⟨still, ?_⟩
      rw [number]
      intro acts
      exact Nat.le_add_right_of_le (counted acts)

theorem run_quiet {w w' before : Watching} {later earlier : List (Watching × Event)}
    {a : CloseAnswers} {disarm : Bool} (boots : Boots w)
    (run : Run step w (later ++ (before, .closeWatchdog a disarm) :: earlier) w')
    (once : closings (later ++ (before, .closeWatchdog a disarm) :: earlier) ≤ 1)
    (done : ∃ x ∈ earlier, ends x.1 x.2 = true) :
    (closeWatchdog a disarm before).io = before.io := by
  by_cases acts : ∃ fd, before.watchdogFd = some fd ∧ 0 < fd
  · have first := (run_over boots (run_of_suffix run) done).2 acts
    have second := (closes_close_iff a disarm before).mpr acts
    rw [closings, List.countP_append, List.countP_cons, if_pos second] at once
    unfold closings at first
    omega
  · rw [close_watchdog_idle a disarm acts]

/-- For every run: the watchdog code keeps to its own descriptors just where
    close_watchdog runs at most once with a positive watchdog_fd. -/
theorem touches_own_iff {w w' : Watching} {trace : List (Watching × Event)} (boots : Boots w)
    (run : Run step w trace w') : TouchesOwn trace w' ↔ closings trace ≤ 1 := by
  have counted := (run_phase boots run).owned_iff
  constructor
  · intro touches
    exact counted.mp touches.owned
  · intro once
    refine ⟨counted.mpr once, ?_⟩
    rintro later earlier before a disarm rfl done
    exact run_quiet boots run once done

theorem sample_boots : Boots sampleWatching := by
  refine ⟨rfl, rfl, rfl, rfl, ?_⟩
  intro n
  match n with
  | 0 | 1 | 2 | _ + 3 => simp [sampleWatching, Watching.at, Table.get]

def sampleClose : CloseAnswers := (sampleStart 60).close

theorem touches_own_with_one_close : ∃ trace w, Run step sampleWatching trace w ∧
    closings trace = 1 ∧ w.io.length = 4 ∧ TouchesOwn trace w := by
  have run := Run.next (Run.next (Run.next (Run.start sampleWatching)
    (show step _ (.start (sampleStart 60)) = some _ from rfl))
    (show step _ (.openOther 2 true) = some _ from rfl))
    (show step _ (.closeWatchdog sampleClose true) = some _ from rfl)
  exact ⟨_, _, run, by decide, by decide, (touches_own_iff sample_boots run).mpr (by decide)⟩

def failingStart : StartAnswers :=
  { sampleStart 60 with getTimeout := none, setTimeout := fun _ => none }

/-- start_watchdog fails and closes its descriptor, the next file of init gets the
    number, and at the end its descriptor is written to and closed. -/
theorem failed_start_closes_other : ∃ trace w, Boots sampleWatching ∧
    Run step sampleWatching trace w ∧
    w.io = [⟨.close, 3, some (.other 2)⟩, ⟨.magicClose, 3, some (.other 2)⟩,
      ⟨.setOptions, 3, some (.other 2)⟩, ⟨.close, 3, some .watchdog⟩] ∧
    ¬ TouchesOwn trace w := by
  have run := Run.next (Run.next (Run.next (Run.start sampleWatching)
    (show step _ (.start failingStart) = some _ from rfl))
    (show step _ (.openOther 2 true) = some _ from rfl))
    (show step _ (.closeWatchdog sampleClose true) = some _ from rfl)
  refine ⟨_, _, sample_boots, run, by decide, ?_⟩
  intro touches
  have own := touches.owned ⟨.close, 3, some (.other 2)⟩ (by decide)
  exact absurd own (by decide)

end WatchdogRuns
