import UNit.MountOptions

/-!
The option defaults. Its comment spells it out, but its row in the table only
has one flag: what the other members of the expansion clear stays as options in
front of it have left it, and one member is no option the table knows.
-/
namespace MountDefaults
open DecimalText Lexer QuotedSplit MountOptions

def defaults : List UInt8 := ascii "defaults"
def expansion : List UInt8 := ascii "rw,suid,dev,exec,auto,nouser,async"

def members : List (List UInt8) :=
  [ascii "rw", ascii "suid", ascii "dev", ascii "exec", ascii "auto", ascii "nouser",
    ascii "async"]

def Same (first second : List UInt8) : Prop :=
  (parseFstabMntOptions true (fun _ => true) first).flags =
    (parseFstabMntOptions true (fun _ => true) second).flags ∧
  (parseFstabMntOptions true (fun _ => true) first).unknown =
    (parseFstabMntOptions true (fun _ => true) second).unknown

theorem flags_of_append (before opts behind : List (List UInt8)) (i : Nat) :
    (flagsOf (before ++ (opts ++ behind))).getLsbD i =
      (lastSetting i (behind.filterMap rowOf)).getD
        ((lastSetting i (opts.filterMap rowOf)).getD ((flagsOf before).getLsbD i)) := by
  rw [flagsOf, List.filterMap_append, List.filterMap_append, List.foldl_append,
    List.foldl_append, applied_bit, applied_bit]
  rfl

theorem last_setting_none (i : Nat) (rows : List OptionRow) :
    lastSetting i rows = none ↔ ∀ row ∈ rows, covers i row = false := by
  simp [lastSetting]

theorem joined_injective {first second : List (List UInt8)}
    (firstClosed : ∀ opt ∈ first, Closed isQuote comma opt)
    (secondClosed : ∀ opt ∈ second, Closed isQuote comma opt)
    (same : joined first = joined second) : first = second := by
  by_cases nothing : first = []
  · by_cases other : second = []
    · rw [nothing, other]
    · simp [joined, nothing, other] at same
  · by_cases other : second = []
    · simp [joined, nothing, other] at same
    · simp only [joined, nothing, other, ↓reduceIte, Option.some.injEq] at same
      rw [← pieces_join nothing firstClosed, same, pieces_join other secondClosed]

/-- The flags that members of the expansion clear: MS_RDONLY, MS_NOSUID,
    MS_NODEV, MS_NOEXEC and MS_SYNCHRONOUS. Every one of them that is set in
    front of the place is set or cleared again behind it. -/
def Settled (pre post : List UInt8) : Prop :=
  ∀ i < 5, (flagsOf (mountTokens pre)).getLsbD i = true →
    ∃ row ∈ (wholeTokens post).filterMap rowOf, covers i row = true

theorem defaults_setting : ∀ i < 64, lastSetting i ([defaults].filterMap rowOf) =
    if 31 ≤ i then some true else none := by decide +kernel

theorem members_setting : ∀ i < 64, lastSetting i (members.filterMap rowOf) =
    if i < 5 then some false else if 31 ≤ i then some true else none := by decide +kernel

theorem flags_same_iff (before behind : List (List UInt8)) :
    flagsOf (before ++ ([defaults] ++ behind)) = flagsOf (before ++ (members ++ behind)) ↔
      ∀ i < 5, (flagsOf before).getLsbD i = true →
        ∃ row ∈ behind.filterMap rowOf, covers i row = true := by
  constructor
  · intro same i low set
    by_contra uncovered
    have bit := congrArg (fun flags => flags.getLsbD i) same
    have none : lastSetting i (behind.filterMap rowOf) = none := by
      rw [last_setting_none]
      intro row member
      by_contra covered
      exact uncovered ⟨row, member, by simpa using covered⟩
    simp only [flags_of_append, none, defaults_setting i (by omega), members_setting i (by omega),
      low, ↓reduceIte, Option.getD_none, Option.getD_some, show ¬ 31 ≤ i by omega, set] at bit
    exact absurd bit (by simp)
  · intro settled
    refine BitVec.eq_of_getLsbD_eq ?_
    intro i inside
    rw [flags_of_append, flags_of_append, defaults_setting i inside, members_setting i inside]
    by_cases low : i < 5
    · have early : ¬ 31 ≤ i := by omega
      by_cases set : (flagsOf before).getLsbD i = true
      · obtain ⟨row, member, covered⟩ := settled i low set
        have some : lastSetting i (behind.filterMap rowOf) ≠ none := by
          intro none
          have uncovered := (last_setting_none i _).mp none row member
          simp [covered] at uncovered
        obtain ⟨bit, last⟩ := Option.ne_none_iff_exists'.mp some
        simp [last]
      · simp [low, early, set]
    · simp [low]

theorem defaults_closed : ∀ opt ∈ [defaults], Closed isQuote comma opt ∧ opt ≠ [] := by
  decide +kernel

theorem members_closed : ∀ opt ∈ members, Closed isQuote comma opt ∧ opt ≠ [] := by
  decide +kernel

theorem unknown_more (before behind : List (List UInt8)) :
    (unknownOf (before ++ (members ++ behind))).length =
      (unknownOf (before ++ ([defaults] ++ behind))).length + 1 := by
  have known : unknownOf [defaults] = [] := by decide +kernel
  have auto : unknownOf members = [ascii "auto"] := by decide +kernel
  have append : ∀ a b : List (List UInt8), unknownOf (a ++ b) = unknownOf a ++ unknownOf b :=
    fun a b => List.filter_append a b
  rw [append, append, append, append, known, auto]
  simp only [List.length_append, List.length_cons, List.length_nil]
  omega

/-- The comment is right only about strings that are rejected anyway. -/
theorem defaults_expanded_iff (pre post : List UInt8) (clean : 0 ∉ pre ∧ 0 ∉ post)
    (place : OptionPlace pre post) :
    Same (pre ++ (defaults ++ post)) (pre ++ (expansion ++ post)) ↔
      openAfter isQuote comma none post ≠ none ∧ Settled pre post := by
  obtain ⟨tokens, whole, shut⟩ := place_tokens place (List.cons_ne_nil defaults [])
    (fun opt member => (defaults_closed opt member).1)
    (fun opt member => (defaults_closed opt member).2)
  obtain ⟨tokens', whole', shut'⟩ := place_tokens place (by decide : members ≠ [])
    (fun opt member => (members_closed opt member).1)
    (fun opt member => (members_closed opt member).2)
  have single : [comma].intercalate [defaults] = defaults := by decide +kernel
  have spelled : [comma].intercalate members = expansion := by decide +kernel
  rw [single] at tokens whole shut
  rw [spelled] at tokens' whole' shut'
  have text : 0 ∉ pre ++ (defaults ++ post) := by
    have plain : 0 ∉ defaults := by decide +kernel
    simp [clean.1, clean.2, plain]
  have text' : 0 ∉ pre ++ (expansion ++ post) := by
    have plain : 0 ∉ expansion := by decide +kernel
    simp [clean.1, clean.2, plain]
  by_cases closed : openAfter isQuote comma none post = none
  · -- Both strings are accepted, and the second one hands "auto" on.
    have some : pre ++ (defaults ++ post) ≠ [] := by simp [show defaults ≠ [] by decide +kernel]
    have some' : pre ++ (expansion ++ post) ≠ [] := by
      simp [show expansion ≠ [] by decide +kernel]
    have parsed := parse_closed text some (shut.trans closed)
    have parsed' := parse_closed text' some' (shut'.trans closed)
    refine ⟨?_, fun condition => absurd closed condition.1⟩
    rintro ⟨_, unknown⟩
    rw [parsed, parsed'] at unknown
    have same : unknownOf (mountTokens (pre ++ (defaults ++ post))) =
        unknownOf (mountTokens (pre ++ (expansion ++ post))) := joined_injective
      (fun opt member => (token_facts text (shut.trans closed) (List.mem_filter.mp member).1).1)
      (fun opt member => (token_facts text' (shut'.trans closed) (List.mem_filter.mp member).1).1)
      unknown
    have more := unknown_more (mountTokens pre) (mountTokens post)
    rw [← tokens, ← tokens', same] at more
    omega
  · have failed := parse_unclosed text (fun none => closed (shut.symm.trans none))
    have failed' := parse_unclosed text' (fun none => closed (shut'.symm.trans none))
    rw [Same, failed, failed', whole closed, whole' closed, flags_same_iff]
    simp [closed, Settled]

theorem defaults_expanded_in_rejected : Same
    (ascii "ro," ++ (defaults ++ ascii ",rw,'x")) (ascii "ro," ++ (expansion ++ ascii ",rw,'x")) :=
  (defaults_expanded_iff (ascii "ro,") (ascii ",rw,'x") (by decide +kernel)
    ⟨.inr ⟨ascii "ro", by decide +kernel⟩, .inr ⟨ascii "rw,'x", by decide +kernel⟩⟩).mpr
    ⟨by decide +kernel, by unfold Settled; decide +kernel⟩

/-- A filesystem that is mounted read-only because defaults comes last. -/
theorem defaults_keeps_read_only :
    parseFstabMntOptions true (fun _ => true) (ascii "ro,defaults") =
      ⟨true, msRdonly ||| msNouser, none⟩ ∧
    parseFstabMntOptions true (fun _ => true) (ascii "ro,rw,suid,dev,exec,auto,nouser,async") =
      ⟨true, msNouser, some (ascii "auto")⟩ ∧
    ¬ Same (ascii "ro," ++ (defaults ++ [])) (ascii "ro," ++ (expansion ++ [])) := by
  unfold Same
  decide +kernel

end MountDefaults
