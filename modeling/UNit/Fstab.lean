import UNit.MountOptions

/-!
The filesystems of the fstab. Whether an entry is skipped, and whether its
failure is tolerated, is asked of hasmntopt, which knows nothing of quotes and
takes an option with a value for the option; the options for mount(2) are taken
apart by the lexer.
-/
namespace Fstab
open DecimalText Lexer QuotedSplit MountOptions

def equals : UInt8 := 61

def matchesHere (opt text : List UInt8) : Bool :=
  opt.isPrefixOf text &&
    match text.drop opt.length with
    | [] => true
    | c :: _ => c == comma || c == equals

def matchesBehind (opt : List UInt8) : List UInt8 → Bool
  | [] => false
  | c :: text => (c == comma && matchesHere opt text) || matchesBehind opt text

def hasmntopt (mntOpts opt : List UInt8) : Bool :=
  matchesHere opt mntOpts || matchesBehind opt mntOpts

structure Mntent where
  fsname : List UInt8
  dir : List UInt8
  type : List UInt8
  opts : List UInt8
  deriving DecidableEq, Repr

inductive MkdirAnswer where
  | made
  | eexist
  | failed
  deriving DecidableEq, Repr

structure Answers where
  strdup : Bool
  alloc : Nat → Bool
  mkdir : MkdirAnswer
  mount : Bool

inductive Call where
  | mkdir (dir : List UInt8)
  | mount (fsname dir type : List UInt8) (flags : Flags) (data : Option (List UInt8))
  deriving DecidableEq, Repr

/-- How the loop goes on behind an entry: with the next one, unless its options
    are invalid or its mkdir or mount has failed for good. -/
inductive Handled where
  | skipped
  | invalid
  | tolerated
  | fatal
  | mounted
  deriving DecidableEq, Repr

def noauto : List UInt8 := ascii "noauto"
def nofail : List UInt8 := ascii "nofail"

def mountEntry (answers : Answers) (ent : Mntent) : Handled × List Call :=
  if hasmntopt ent.opts noauto then (.skipped, [])
  else
    let nofail := hasmntopt ent.opts nofail
    let parsed := parseFstabMntOptions answers.strdup answers.alloc ent.opts
    if parsed.success then
      if answers.mkdir = .failed then
        (if nofail then .tolerated else .fatal, [.mkdir ent.dir])
      else
        let calls :=
          [.mkdir ent.dir, .mount ent.fsname ent.dir ent.type parsed.flags parsed.unknown]
        if answers.mount then (.mounted, calls)
        else (if nofail then .tolerated else .fatal, calls)
    else (.invalid, [])

def Handled.stops (h : Handled) : Bool := h == .invalid || h == .fatal

def mountEntries (answers : Nat → Answers) : Nat → List Mntent → List (Handled × List Call)
  | _, [] => []
  | n, ent :: entries =>
    let handled := mountEntry (answers n) ent
    if handled.1.stops then [handled] else handled :: mountEntries answers (n + 1) entries

/-- A fstab that cannot be opened is no error. -/
def mountFstabFilesystems (answers : Nat → Answers) (fstab : Option (List Mntent)) :
    Bool × List (Handled × List Call) :=
  match fstab with
  | none => (true, [])
  | some entries =>
    let all := mountEntries answers 0 entries
    (all.all (fun handled => !handled.1.stops), all)

def Follows (post : List UInt8) : Prop :=
  post = [] ∨ ∃ c rest, post = c :: rest ∧ (c = comma ∨ c = equals)

def Starts (pre : List UInt8) : Prop := pre = [] ∨ ∃ front, pre = front ++ [comma]

theorem matches_here_iff (opt text : List UInt8) : matchesHere opt text = true ↔
    ∃ post, text = opt ++ post ∧ Follows post := by
  constructor
  · intro found
    simp only [matchesHere, Bool.and_eq_true, List.isPrefixOf_iff_prefix] at found
    obtain ⟨⟨post, rfl⟩, follows⟩ := found
    rw [List.drop_left] at follows
    refine ⟨post, rfl, ?_⟩
    cases post with
    | nil => exact .inl rfl
    | cons c rest => exact .inr ⟨c, rest, rfl, by simpa using follows⟩
  · rintro ⟨post, rfl, follows⟩
    simp only [matchesHere, Bool.and_eq_true, List.isPrefixOf_iff_prefix, List.drop_left]
    refine ⟨List.prefix_append opt post, ?_⟩
    rcases follows with rfl | ⟨c, rest, rfl, ends⟩
    · rfl
    · simpa using ends

theorem matches_behind_iff (opt text : List UInt8) : matchesBehind opt text = true ↔
    ∃ front rest, text = front ++ comma :: rest ∧ matchesHere opt rest = true := by
  induction text with
  | nil => simp [matchesBehind]
  | cons c text ih =>
    simp only [matchesBehind, Bool.or_eq_true, Bool.and_eq_true, beq_iff_eq, ih]
    constructor
    · rintro (⟨rfl, here⟩ | ⟨front, rest, rfl, here⟩)
      · exact ⟨[], text, rfl, here⟩
      · exact ⟨c :: front, rest, rfl, here⟩
    · rintro ⟨front, rest, split, here⟩
      cases front with
      | nil =>
        obtain ⟨rfl, rfl⟩ := List.cons.inj split
        exact .inl ⟨rfl, here⟩
      | cons d front =>
        obtain ⟨rfl, rfl⟩ := List.cons.inj split
        exact .inr ⟨front, rest, rfl, here⟩

theorem hasmntopt_occurs (mntOpts opt : List UInt8) : hasmntopt mntOpts opt = true ↔
    ∃ pre post, mntOpts = pre ++ (opt ++ post) ∧ Starts pre ∧ Follows post := by
  simp only [hasmntopt, Bool.or_eq_true, matches_behind_iff, matches_here_iff]
  constructor
  · rintro (⟨post, rfl, follows⟩ | ⟨front, rest, rfl, post, rfl, follows⟩)
    · exact ⟨[], post, rfl, .inl rfl, follows⟩
    · exact ⟨front ++ [comma], post, by simp, .inr ⟨front, rfl⟩, follows⟩
  · rintro ⟨pre, post, rfl, rfl | ⟨front, rfl⟩, follows⟩
    · exact .inl ⟨post, rfl, follows⟩
    · exact .inr ⟨front, opt ++ post, by simp, post, rfl, follows⟩

/-- An occurrence that hasmntopt matches and that is no option of its own: it is
    inside of quotes, or it has a value. -/
def Stray (mntOpts opt : List UInt8) : Prop :=
  ∃ pre post, mntOpts = pre ++ (opt ++ post) ∧ Starts pre ∧ Follows post ∧
    (openAfter isQuote comma none pre ≠ none ∨ ∃ rest, post = equals :: rest)

def lexed (mntOpts : List UInt8) : List (List UInt8) := pieces isQuote comma none mntOpts

theorem place_starts {pre post : List UInt8} (place : OptionPlace pre post) :
    Starts pre ∧ Follows post := by
  constructor
  · exact place.first.imp_right fun ⟨front, same, _⟩ => ⟨front, same⟩
  · exact place.last.imp_right fun ⟨rest, same⟩ => ⟨comma, rest, same, .inl rfl⟩

theorem hasmntopt_iff (mntOpts : List UInt8) {opt : List UInt8}
    (closed : Closed isQuote comma opt) :
    hasmntopt mntOpts opt = true ↔ opt ∈ lexed mntOpts ∨ Stray mntOpts opt := by
  rw [hasmntopt_occurs]
  constructor
  · rintro ⟨pre, post, rfl, starts, follows⟩
    by_cases stray : openAfter isQuote comma none pre ≠ none ∨ ∃ rest, post = equals :: rest
    · exact .inr ⟨pre, post, rfl, starts, follows, stray⟩
    · simp only [not_or, Classical.not_not, not_exists] at stray
      refine .inl (placed_piece closed ⟨?_, ?_⟩)
      · rcases starts with rfl | ⟨front, rfl⟩
        · exact .inl rfl
        · refine .inr ⟨front, rfl, ?_⟩
          by_contra inside
          exact open_stays inside stray.1
      · rcases follows with rfl | ⟨c, rest, rfl, rfl | rfl⟩
        · exact .inl rfl
        · exact .inr ⟨rest, rfl⟩
        · exact absurd rfl (stray.2 rest)
  · rintro (member | ⟨pre, post, rfl, starts, follows, _⟩)
    · obtain ⟨pre, post, rfl, place⟩ := piece_place member
      exact ⟨pre, post, rfl, place_starts place⟩
    · exact ⟨pre, post, rfl, starts, follows⟩

theorem entries_reached (answers : Nat → Answers) {entries : List Mntent} {n k : Nat}
    {ent : Mntent} {handled : Handled × List Call} (listed : entries[k]? = some ent)
    (reached : (mountEntries answers n entries)[k]? = some handled) :
    handled = mountEntry (answers (n + k)) ent := by
  induction entries generalizing n k with
  | nil => simp at listed
  | cons first entries ih =>
    simp only [mountEntries] at reached
    cases k with
    | zero =>
      obtain rfl : first = ent := by simpa using listed
      split at reached
      · simpa using reached.symm
      · simpa using reached.symm
    | succ k =>
      split at reached
      · simp at reached
      · rw [show n + (k + 1) = n + 1 + k by omega]
        exact ih (by simpa using listed) (by simpa using reached)

/-- Wherever an entry with these options is reached, it is skipped exactly when
    noauto is one of its tokens, and its failure is tolerated exactly when
    nofail is one. -/
def Consistent (mntOpts : List UInt8) : Prop :=
  ∀ (answers : Nat → Answers) (fstab : List Mntent) (k : Nat) (ent : Mntent) (handled : Handled)
    (calls : List Call), fstab[k]? = some ent → ent.opts = mntOpts →
    (mountFstabFilesystems answers (some fstab)).2[k]? = some (handled, calls) →
    (handled = .skipped ↔ noauto ∈ lexed mntOpts) ∧
    (handled = .tolerated ∨ handled = .fatal → (handled = .tolerated ↔ nofail ∈ lexed mntOpts))

theorem names_closed : Closed isQuote comma noauto ∧ Closed isQuote comma nofail := by
  decide +kernel

theorem entry_skipped_iff (answers : Answers) (ent : Mntent) :
    (mountEntry answers ent).1 = .skipped ↔ hasmntopt ent.opts noauto = true := by
  simp only [mountEntry]
  split
  · rename_i skip
    simp [skip]
  · rename_i goesOn
    simp only [goesOn, Bool.false_eq_true, iff_false]
    split
    · split
      · split <;> simp
      · split
        · simp
        · split <;> simp
    · simp

theorem entry_failed {answers : Answers} {ent : Mntent}
    (failed : (mountEntry answers ent).1 = .tolerated ∨ (mountEntry answers ent).1 = .fatal) :
    (parseFstabMntOptions answers.strdup answers.alloc ent.opts).success = true ∧
      ((mountEntry answers ent).1 = .tolerated ↔ hasmntopt ent.opts nofail = true) := by
  simp only [mountEntry] at failed ⊢
  split at failed
  · simp at failed
  · rename_i goesOn
    rw [if_neg goesOn]
    split at failed
    · rename_i parsed
      refine ⟨parsed, ?_⟩
      rw [if_pos parsed]
      split at failed
      · rename_i mkdir
        rw [if_pos mkdir]
        cases hasmntopt ent.opts nofail <;> simp
      · rename_i mkdir
        rw [if_neg mkdir]
        split at failed
        · simp at failed
        · rename_i mount
          rw [if_neg mount]
          cases hasmntopt ent.opts nofail <;> simp
    · simp at failed

theorem accepted_closed {strdup : Bool} {alloc : Nat → Bool} {mntOpts : List UInt8}
    (clean : 0 ∉ mntOpts)
    (accepted : (parseFstabMntOptions strdup alloc mntOpts).success = true) :
    mntOpts ≠ [] ∧ openAfter isQuote comma none mntOpts = none := by
  rw [parseFstabMntOptions] at accepted
  split at accepted
  · simp at accepted
  · rename_i some
    refine ⟨some, ?_⟩
    split at accepted
    · exact options_accepted alloc (Option.some mntOpts) (QuotedTokens.left_init clean) accepted
    · simp at accepted

/-- The two ways to look at the options agree exactly when no occurrence in
    quotes or with a value is taken for an option that is not there. -/
theorem options_consistent_iff (mntOpts : List UInt8) (clean : 0 ∉ mntOpts) :
    Consistent mntOpts ↔
      (Stray mntOpts noauto → noauto ∈ lexed mntOpts) ∧
      (noauto ∉ lexed mntOpts → mntOpts ≠ [] → openAfter isQuote comma none mntOpts = none →
        Stray mntOpts nofail → nofail ∈ lexed mntOpts) := by
  have skips := hasmntopt_iff mntOpts names_closed.1
  have tolerates := hasmntopt_iff mntOpts names_closed.2
  constructor
  · intro consistent
    let ent : Mntent := ⟨[], [], [], mntOpts⟩
    let answers : Answers := ⟨true, fun _ => true, .failed, false⟩
    have reached : (mountFstabFilesystems (fun _ => answers) (some [ent])).2[0]? =
        some ((mountEntry answers ent).1, (mountEntry answers ent).2) := by
      simp only [mountFstabFilesystems, mountEntries]
      split <;> simp
    obtain ⟨skipped, tolerated⟩ := consistent (fun _ => answers) [ent] 0 ent _ _ rfl rfl reached
    rw [entry_skipped_iff] at skipped
    refine ⟨fun stray => skipped.mp (skips.mpr (.inr stray)), ?_⟩
    intro absent some closed stray
    have goesOn : ¬ hasmntopt mntOpts noauto = true := fun found => absent (skipped.mp found)
    have parsed := parse_closed clean some closed
    have entry : (mountEntry answers ent).1 = .tolerated := by
      simp [mountEntry, ent, answers, goesOn, parsed, tolerates.mpr (.inr stray)]
    exact (tolerated (.inl entry)).mp entry
  · rintro ⟨noautoAgrees, nofailAgrees⟩ answers fstab k ent handled calls listed rfl reached
    have same : (handled, calls) = mountEntry (answers (0 + k)) ent :=
      entries_reached answers listed reached
    rw [Nat.zero_add] at same
    obtain rfl : handled = (mountEntry (answers k) ent).1 := congrArg Prod.fst same
    have skip : hasmntopt ent.opts noauto = true ↔ noauto ∈ lexed ent.opts := by
      rw [skips]
      exact ⟨fun found => found.elim id noautoAgrees, .inl⟩
    refine ⟨(entry_skipped_iff _ ent).trans skip, ?_⟩
    intro failed
    obtain ⟨parsed, decided⟩ := entry_failed failed
    obtain ⟨some, closed⟩ := accepted_closed clean parsed
    have absent : noauto ∉ lexed ent.opts := by
      intro member
      have skipped := (entry_skipped_iff (answers k) ent).mpr (skip.mpr member)
      simp [skipped] at failed
    rw [decided, tolerates]
    exact ⟨fun found => found.elim id (nofailAgrees absent some closed), .inl⟩

theorem plain_nofail_consistent : Consistent (ascii "rw,nofail") :=
  (options_consistent_iff (ascii "rw,nofail") (by decide +kernel)).mpr
    ⟨fun stray => absurd ((hasmntopt_iff _ names_closed.1).mpr (.inr stray)) (by decide +kernel),
      fun _ _ _ _ => by decide +kernel⟩

theorem quoted_noauto_skips :
    (mountFstabFilesystems (fun _ => ⟨true, fun _ => true, .made, true⟩)
      (some [⟨ascii "/dev/sda1", ascii "/mnt", ascii "ext4", ascii "x='a,noauto,b'"⟩])).2[0]? =
        some (.skipped, []) ∧
    lexed (ascii "x='a,noauto,b'") = [ascii "x='a,noauto,b'"] ∧
    ¬ Consistent (ascii "x='a,noauto,b'") := by
  have skipped : (mountFstabFilesystems (fun _ => ⟨true, fun _ => true, .made, true⟩)
      (some [⟨ascii "/dev/sda1", ascii "/mnt", ascii "ext4", ascii "x='a,noauto,b'"⟩])).2[0]? =
        some (.skipped, []) := by decide +kernel
  refine ⟨skipped, by decide +kernel, ?_⟩
  intro consistent
  have found := (consistent _ _ 0 _ .skipped [] rfl rfl skipped).1.mp rfl
  exact absurd found (by decide +kernel)

end Fstab
