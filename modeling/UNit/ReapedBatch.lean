import Mathlib.Data.List.Nodup
import UNit.TrackedChildren

/-!
What one reaping loop computes, in terms of the tracked list it started from
and the wait results it was given. The flags the loop carries out are shown to
say which kinds of processes were reported, so that no later argument looks
inside the loop again.
-/
namespace ReapedBatch
open InittabEntries SafeModeRecord ProcessHistory KernelModel InitState ProcessStart ChildExit
  TrackedChildren

def SafeKind (e : InittabEntry) : Prop := isSafeEntry e = true ∧ e.type ≠ .safeMode

def SafeModeKind (e : InittabEntry) : Prop := e.type = .safeMode

instance (e : InittabEntry) : Decidable (SafeKind e) :=
  inferInstanceAs (Decidable (isSafeEntry e = true ∧ e.type ≠ .safeMode))

instance (e : InittabEntry) : Decidable (SafeModeKind e) :=
  inferInstanceAs (Decidable (e.type = .safeMode))

def Reported (running : List Process) (results : List (Int × WaitStatus)) (abnormal : Bool)
    (kind : InittabEntry → Prop) : Prop :=
  ∃ w ∈ results, w.2.abnormal = abnormal ∧ ∃ p ∈ running, p.pid = w.1 ∧ kind p.config

instance (running : List Process) (results : List (Int × WaitStatus)) (abnormal : Bool)
    (kind : InittabEntry → Prop) [DecidablePred kind] :
    Decidable (Reported running results abnormal kind) :=
  inferInstanceAs (Decidable
    (∃ w ∈ results, w.2.abnormal = abnormal ∧ ∃ p ∈ running, p.pid = w.1 ∧ kind p.config))

def unreported (results : List (Int × WaitStatus)) (pid : Int) : Bool :=
  decide (pid ∉ results.map Prod.fst)

theorem reported_snoc {running : List Process} {results : List (Int × WaitStatus)}
    {w : Int × WaitStatus} {abnormal : Bool} {kind : InittabEntry → Prop} :
    Reported running (results ++ [w]) abnormal kind ↔
      Reported running results abnormal kind ∨
        (w.2.abnormal = abnormal ∧ ∃ p ∈ running, p.pid = w.1 ∧ kind p.config) := by
  simp only [Reported, List.mem_append, List.mem_singleton, or_and_right, exists_or,
    exists_eq_left]

theorem unreported_snoc (results : List (Int × WaitStatus)) (w : Int × WaitStatus) (pid : Int) :
    unreported (results ++ [w]) pid = (unreported results pid && decide (pid ≠ w.1)) := by
  rw [Bool.eq_iff_iff]
  simp [unreported]

theorem same_pid_same_process {running : List Process}
    (distinct : (running.map Process.pid).Nodup) {p q : Process} (first : p ∈ running)
    (second : q ∈ running) (same : p.pid = q.pid) : p = q :=
  List.inj_on_of_nodup_map distinct first second same

theorem reported_found {running : List Process} {results : List (Int × WaitStatus)}
    {w : Int × WaitStatus} {p : Process} {abnormal : Bool} {kind : InittabEntry → Prop}
    (distinct : (running.map Process.pid).Nodup)
    (found : findProcess w.1 (running.filter (fun p => unreported results p.pid)) = some p) :
    Reported running (results ++ [w]) abnormal kind ↔
      Reported running results abnormal kind ∨ (w.2.abnormal = abnormal ∧ kind p.config) := by
  obtain ⟨member, same⟩ := find_process_some found
  have tracked : p ∈ running := List.mem_of_mem_filter member
  rw [reported_snoc]
  constructor
  · rintro (earlier | ⟨status, q, other, named, fits⟩)
    · exact Or.inl earlier
    · have equal := same_pid_same_process distinct tracked other (same.trans named.symm)
      exact Or.inr ⟨status, equal ▸ fits⟩
  · rintro (earlier | ⟨status, fits⟩)
    · exact Or.inl earlier
    · exact Or.inr ⟨status, p, tracked, same, fits⟩

theorem reported_untracked {running : List Process} {results : List (Int × WaitStatus)}
    {w : Int × WaitStatus} {abnormal : Bool} {kind : InittabEntry → Prop}
    (fresh : w.1 ∉ results.map Prod.fst)
    (absent : findProcess w.1 (running.filter (fun p => unreported results p.pid)) = none) :
    Reported running (results ++ [w]) abnormal kind ↔
      Reported running results abnormal kind := by
  rw [reported_snoc]
  constructor
  · rintro (earlier | ⟨_, q, tracked, named, _⟩)
    · exact earlier
    · have kept : q ∈ running.filter (fun p => unreported results p.pid) := by
        simp only [List.mem_filter, unreported, decide_eq_true_eq]
        exact ⟨tracked, named ▸ fresh⟩
      exact absurd named (find_process_none absent q kept)
  · exact Or.inl

structure Flags (before : State) (results : List (Int × WaitStatus)) (r : Reaping) : Prop where
  asked : r.startSafeProcess = true ↔ Reported before.runningProcesses results true SafeKind
  named : r.startSafeProcess = true → Reported before.runningProcesses results true
    (fun e => SafeKind e ∧ e.processName = r.processName)
  restart : r.restartSafeModePlaceholder = true ↔
    Reported before.runningProcesses results true SafeModeKind
  placeholder : r.restartSafeModePlaceholder = true → before.safeModeOn = false

theorem flags_start (s : State) : Flags s [] .initial where
  asked := by simp [Reaping.initial, Reported]
  named := by simp [Reaping.initial]
  restart := by simp [Reaping.initial, Reported]
  placeholder := by simp [Reaping.initial]

theorem flags_judged {before t : State} {results : List (Int × WaitStatus)}
    {w : Int × WaitStatus} {p : Process} {r r' : Reaping}
    (distinct : (before.runningProcesses.map Process.pid).Nodup)
    (held : Flags before results r) (same : t.safeModeOn = before.safeModeOn)
    (found : findProcess w.1
      (before.runningProcesses.filter (fun p => unreported results p.pid)) = some p)
    (judged : judge p w.2 r t = .ok r') : Flags before (results ++ [w]) r' := by
  have more : ∀ kind : InittabEntry → Prop,
      Reported before.runningProcesses (results ++ [w]) true kind ↔
        Reported before.runningProcesses results true kind ∨
          (w.2.abnormal = true ∧ kind p.config) :=
    fun kind => reported_found distinct found
  rcases judge_cases judged with ⟨fine, rfl⟩ | ⟨bad, kind, off, rfl⟩ | ⟨bad, safe, kind, rfl⟩
  · -- an unsafe process, or an exit with code 0: no kind is reported
    have safe : ¬ (w.2.abnormal = true ∧ SafeKind p.config) := by
      rintro ⟨bad, safe, _⟩
      rcases fine with plain | normal
      · rw [plain] at safe
        simp at safe
      · simp [normal] at bad
    have safeMode : ¬ (w.2.abnormal = true ∧ SafeModeKind p.config) := by
      rintro ⟨bad, kind⟩
      rcases fine with plain | normal
      · simp [safe_mode_is_safe kind] at plain
      · simp [normal] at bad
    constructor
    · rw [more, held.asked]
      exact (or_iff_left safe).symm
    · intro asked
      exact (more _).mpr (Or.inl (held.named asked))
    · rw [more, held.restart]
      exact (or_iff_left safeMode).symm
    · exact held.placeholder
  · -- the placeholder itself
    have other : ¬ (w.2.abnormal = true ∧ SafeKind p.config) := fun reported =>
      reported.2.2 kind
    constructor
    · rw [more]
      exact held.asked.trans (or_iff_left other).symm
    · intro asked
      exact (more _).mpr (Or.inl (held.named asked))
    · simp only [true_iff]
      exact (more _).mpr (Or.inr ⟨bad, kind⟩)
    · intro _
      exact same ▸ off
  · -- another safe process
    have other : ¬ (w.2.abnormal = true ∧ SafeModeKind p.config) := fun reported =>
      kind reported.2
    constructor
    · simp only [Reaping.deceased, true_iff]
      exact (more _).mpr (Or.inr ⟨bad, safe, kind⟩)
    · intro _
      exact (more _).mpr (Or.inr ⟨bad, ⟨safe, kind⟩, rfl⟩)
    · rw [more]
      exact held.restart.trans (or_iff_left other).symm
    · exact held.placeholder

theorem flags_untracked {before : State} {results : List (Int × WaitStatus)}
    {w : Int × WaitStatus} {r : Reaping} (held : Flags before results r)
    (fresh : w.1 ∉ results.map Prod.fst)
    (absent : findProcess w.1
      (before.runningProcesses.filter (fun p => unreported results p.pid)) = none) :
    Flags before (results ++ [w]) r where
  asked := by rw [reported_untracked fresh absent, held.asked]
  named := fun asked => (reported_untracked fresh absent).mpr (held.named asked)
  restart := by rw [reported_untracked fresh absent, held.restart]
  placeholder := held.placeholder

/-- The loop after some of its results: what is left, what the flags say, and
    that nothing else moved. -/
structure Batch (before : State) (results : List (Int × WaitStatus)) (r : Reaping)
    (after : State) : Prop where
  exact : ListExact after
  flags : Flags before results r
  running : after.runningProcesses =
    before.runningProcesses.filter (fun p => unreported results p.pid)
  children : after.kernel.children =
    before.kernel.children.filter (fun c => unreported results c.pid)
  ended : SafeModeEnded after.kernel.log ↔ SafeModeEnded before.kernel.log ∨
    Reported before.runningProcesses results false SafeModeKind
  reaps : ∃ later, after.kernel.log = later ++ before.kernel.log ∧
    ∀ w ∈ results, .reap w.1 w.2 ∈ later
  frame : after = { before with
    pendingFinish := after.pendingFinish
    runningProcesses := after.runningProcesses
    kernel := { before.kernel with children := after.kernel.children, log := after.kernel.log } }

theorem batch_start {s : State} (held : ListExact s) : Batch s [] .initial s where
  exact := held
  flags := flags_start s
  running := by simp [unreported]
  children := by simp [unreported]
  ended := by simp [Reported]
  reaps := ⟨[], rfl, by simp⟩
  frame := rfl

theorem reaped_ended {s : State} (held : ListExact s) (w : Int × WaitStatus)
    (p : Option Process) :
    SafeModeEnded (State.reaped s w p).kernel.log ↔ SafeModeEnded s.kernel.log ∨
      (w.2.abnormal = false ∧ ∃ p ∈ s.runningProcesses, p.pid = w.1 ∧ SafeModeKind p.config) := by
  have logged := held.tracked.as_logged
  obtain ⟨_, log, shape, noted⟩ := reaped_frame s w p
  rw [shape]
  rcases noted with rfl | ⟨value, rfl⟩ <;>
    simp only [SafeModeEnded, ← logged, SafeModeKind] <;> exact or_comm

theorem names_unreported {running : List Process} {results : List (Int × WaitStatus)}
    {w : Int × WaitStatus} {kind : InittabEntry → Prop} (fresh : w.1 ∉ results.map Prod.fst) :
    (∃ p ∈ running.filter (fun p => unreported results p.pid), p.pid = w.1 ∧ kind p.config) ↔
      ∃ p ∈ running, p.pid = w.1 ∧ kind p.config := by
  constructor
  · rintro ⟨p, member, same, fits⟩
    exact ⟨p, List.mem_of_mem_filter member, same, fits⟩
  · rintro ⟨p, member, same, fits⟩
    have left : unreported results p.pid = true := by
      simp only [unreported, decide_eq_true_eq]
      exact same ▸ fresh
    exact ⟨p, List.mem_filter.mpr ⟨member, left⟩, same, fits⟩

theorem batch_step {s : State} (initial : ListExact s) {results : List (Int × WaitStatus)}
    {w : Int × WaitStatus} {r r' : Reaping} {t t' : State} (held : Batch s results r t)
    (fresh : w.1 ∉ results.map Prod.fst) (done : reapOne w r t = .ok (r', t')) :
    Batch s (results ++ [w]) r' t' := by
  have exact := reap_one_exact held.exact done
  obtain ⟨rfl, verdict⟩ := reap_one_cases held.exact.tracked.nodup done
  have ending := reaped_ended held.exact w (findProcess w.1 t.runningProcesses)
  obtain ⟨pending, log, shape, noted⟩ := reaped_frame t w (findProcess w.1 t.runningProcesses)
  obtain ⟨later, grown, all⟩ := held.reaps
  have same : t.safeModeOn = s.safeModeOn := by rw [held.frame]
  refine ⟨exact, ?_, ?_, ?_, ?_, ?_, ?_⟩
  · rw [held.running] at verdict
    rcases verdict with ⟨absent, rfl⟩ | ⟨p, found, judged⟩
    · exact flags_untracked held.flags fresh absent
    · exact flags_judged initial.tracked.nodup held.flags same found judged
  · rw [shape]
    simp only [held.running, List.filter_filter, unreported_snoc, Bool.and_comm]
  · rw [shape]
    simp only [held.children, List.filter_filter, unreported_snoc, Bool.and_comm]
  · rw [ending, held.ended, held.running, names_unreported fresh, reported_snoc, or_assoc]
  · have reap : ∃ more, log = more ++ t.kernel.log ∧ .reap w.1 w.2 ∈ more := by
      rcases noted with rfl | ⟨value, rfl⟩
      · exact ⟨[.reap w.1 w.2], rfl, by simp⟩
      · exact ⟨[.pendingDecreased value, .reap w.1 w.2], rfl, by simp⟩
    obtain ⟨more, eq, here⟩ := reap
    refine ⟨more ++ later, ?_, ?_⟩
    · rw [shape]
      simp only [eq, grown, List.append_assoc]
    · intro x member
      rcases List.mem_append.mp member with earlier | last
      · exact List.mem_append_right more (all x earlier)
      · obtain rfl := List.mem_singleton.mp last
        exact List.mem_append_left later here
  · rw [shape, held.frame]

theorem reap_loop_batch_rule {s t : State} {answer : WaitAnswer} {r : Reaping}
    (inv : List (Int × WaitStatus) → Reaping → Prop) (initial : ListExact s)
    (once : (answer.results.map Prod.fst).Nodup) (start : inv [] .initial)
    (iteration : ∀ taken w r t r' t', Batch s taken r t → w ∈ answer.results →
      w.1 ∉ taken.map Prod.fst → reapOne w r t = .ok (r', t') → inv taken r →
      inv (taken ++ [w]) r')
    (done : reapLoop answer.last answer.results .initial s = .ok (r, t)) :
    Batch s answer.results r t ∧ inv answer.results r ∧ answer.last ≠ .failed := by
  have loop := reap_loop_rule
    (fun rest r t => ∃ taken, answer.results = taken ++ rest ∧ Batch s taken r t ∧ inv taken r) ?_
    ⟨[], rfl, batch_start initial, start⟩ done
  · obtain ⟨⟨taken, whole, held, kept⟩, fine⟩ := loop
    rw [List.append_nil] at whole
    subst taken
    exact ⟨held, kept, fine⟩
  · rintro w rest r t r' t' ⟨taken, whole, held, kept⟩ reaped
    have fresh : w.1 ∉ taken.map Prod.fst := by
      rw [whole] at once
      simp only [List.map_append, List.map_cons, List.nodup_append] at once
      intro member
      exact once.2.2 w.1 member w.1 List.mem_cons_self rfl
    have member : w ∈ answer.results := by simp [whole]
    exact ⟨taken ++ [w], by simp [whole], batch_step initial held fresh reaped,
      iteration taken w r t r' t' held member fresh reaped kept⟩

theorem reap_loop_batch {s t : State} {answer : WaitAnswer} {r : Reaping} (initial : ListExact s)
    (once : (answer.results.map Prod.fst).Nodup)
    (done : reapLoop answer.last answer.results .initial s = .ok (r, t)) :
    Batch s answer.results r t ∧ answer.last ≠ .failed := by
  obtain ⟨held, _, fine⟩ := reap_loop_batch_rule (fun _ _ => True) initial once trivial
    (fun _ _ _ _ _ _ _ _ _ _ _ => trivial) done
  exact ⟨held, fine⟩

theorem reap_loop_returns {s : State} {answer : WaitAnswer} (initial : ListExact s)
    (off : s.safeModeOn = false) (fine : answer.last ≠ .failed) :
    ∃ r t, reapLoop answer.last answer.results .initial s = .ok (r, t) := by
  cases outcome : reapLoop answer.last answer.results .initial s with
  | ok result => exact ⟨result.1, result.2, rfl⟩
  | error stop =>
    have halted := reap_loop_error (fun _ _ t => ListExact t ∧ t.safeModeOn = false) ?_
      ⟨initial, off⟩ outcome
    · rcases halted with ⟨w, _, r, t, ⟨held, still⟩, failed⟩ | ⟨broken, _⟩
      · obtain ⟨_, on, _⟩ := reap_one_error held.tracked.nodup failed
        simp [still] at on
      · exact absurd broken fine
    · rintro w rest r t r' t' ⟨held, still⟩ done
      have next := reap_one_exact held done
      obtain ⟨rfl, _⟩ := reap_one_cases held.tracked.nodup done
      obtain ⟨_, _, shape, _⟩ := reaped_frame t w (findProcess w.1 t.runningProcesses)
      exact ⟨next, by rw [shape]; exact still⟩

end ReapedBatch
