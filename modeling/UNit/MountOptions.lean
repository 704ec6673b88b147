import UNit.DecimalText
import UNit.QuotedTokens

/-!
Mount options of the fstab. The options that mount(2) has a flag for are taken
out of the list, one after the other, so that a later one overrides an earlier
one; the others are joined again for the filesystem.
-/
namespace MountOptions
open LoopRuns DecimalText Lexer QuotedSplit QuotedTokens

abbrev Flags := BitVec 64

def msRdonly : Flags := 1
def msNosuid : Flags := 2
def msNodev : Flags := 4
def msNoexec : Flags := 8
def msSynchronous : Flags := 16
def msRemount : Flags := 32
def msMandlock : Flags := 64
def msDirsync : Flags := 128
def msNoatime : Flags := 1024
def msNodiratime : Flags := 2048
def msSilent : Flags := 32768
def msRelatime : Flags := 0x200000
def msIVersion : Flags := 0x800000
def msStrictatime : Flags := 0x1000000

/-- The constant is the int 1 << 31, and an unsigned long has its sign in all
    higher bits. -/
def msNouser : Flags := 0xFFFFFFFF80000000

structure OptionRow where
  name : List UInt8
  flag : Flags
  negated : Bool
  deriving DecidableEq, Repr

def options : List OptionRow :=
  [⟨ascii "defaults", msNouser, false⟩,
    ⟨ascii "ro", msRdonly, false⟩, ⟨ascii "rw", ~~~msRdonly, true⟩,
    ⟨ascii "noexec", msNoexec, false⟩, ⟨ascii "exec", ~~~msNoexec, true⟩,
    ⟨ascii "nodev", msNodev, false⟩, ⟨ascii "dev", ~~~msNodev, true⟩,
    ⟨ascii "nouser", msNouser, false⟩, ⟨ascii "user", ~~~msNouser, true⟩,
    ⟨ascii "relatime", msRelatime, false⟩, ⟨ascii "norelatime", ~~~msRelatime, true⟩,
    ⟨ascii "sync", msSynchronous, false⟩, ⟨ascii "async", ~~~msSynchronous, true⟩,
    ⟨ascii "silent", msSilent, false⟩, ⟨ascii "loud", ~~~msSilent, true⟩,
    ⟨ascii "noatime", msNoatime, false⟩, ⟨ascii "atime", ~~~msNoatime, true⟩,
    ⟨ascii "strictatime", msStrictatime, false⟩,
    ⟨ascii "nostrictatime", ~~~msStrictatime, true⟩,
    ⟨ascii "nosuid", msNosuid, false⟩, ⟨ascii "suid", ~~~msNosuid, true⟩,
    ⟨ascii "nodiratime", msNodiratime, false⟩, ⟨ascii "diratime", ~~~msNodiratime, true⟩,
    ⟨ascii "iversion", msIVersion, false⟩, ⟨ascii "noiversion", ~~~msIVersion, true⟩,
    ⟨ascii "mand", msMandlock, false⟩, ⟨ascii "nomand", ~~~msMandlock, true⟩,
    ⟨ascii "dirsync", msDirsync, false⟩, ⟨ascii "remount", msRemount, false⟩,
    ⟨ascii "nofail", 0, false⟩]

def comma : UInt8 := 44

def rowOf (opt : List UInt8) : Option OptionRow := options.find? (fun row => row.name == opt)

def OptionRow.apply (row : OptionRow) (flags : Flags) : Flags :=
  if row.negated then flags &&& row.flag else flags ||| row.flag

def addOptionFlag (opt : List UInt8) (flags : Flags) : Option Flags :=
  (rowOf opt).map (fun row => row.apply flags)

/-- None where add_unknown_option returns false; alloc is whether its string
    could be allocated and written. -/
def addUnknownOption (alloc : Bool) (unknown : Option (List UInt8)) (option : List UInt8) :
    Option (List UInt8) :=
  if alloc then
    match unknown with
    | none => some option
    | some opts => some (opts ++ comma :: option)
  else none

structure Collecting where
  lexer : LexerData
  flags : Flags
  unknown : Option (List UInt8)
  allocations : Nat
  deriving DecidableEq, Repr

structure ParsedOptions where
  success : Bool
  flags : Flags
  unknown : Option (List UInt8)
  deriving DecidableEq, Repr

def optionsBody (alloc : Nat → Bool) (st : Collecting) : Collecting ⊕ ParsedOptions :=
  match nextToken st.lexer comma true false with
  | (.tokenEnd, _, _) => .inr ⟨true, st.flags, st.unknown⟩
  | (.ok, token, lexer) =>
    let opt := cString lexer.buf (token.getD 0)
    match addOptionFlag opt st.flags with
    | some flags => .inl { st with lexer := lexer, flags := flags }
    | none =>
      match addUnknownOption (alloc st.allocations) st.unknown opt with
      | some unknown => .inl ⟨lexer, st.flags, some unknown, st.allocations + 1⟩
      | none => .inr ⟨false, st.flags, none⟩
  | (.unfinishedQuote, _, _) => .inr ⟨false, st.flags, none⟩
  | (.blank, _, lexer) => .inl { st with lexer := lexer }

def Collecting.left (st : Collecting) : Nat := st.lexer.size - st.lexer.pos

theorem options_shrink (alloc : Nat → Bool) (st next : Collecting)
    (goesOn : optionsBody alloc st = .inl next) : next.left < st.left := by
  simp only [optionsBody] at goesOn
  split at goesOn
  · simp at goesOn
  · rename_i token lexer found
    have less := next_token_takes (.inl rfl) found
    split at goesOn
    · obtain rfl := Sum.inl.inj goesOn
      exact less
    · split at goesOn
      · obtain rfl := Sum.inl.inj goesOn
        exact less
      · simp at goesOn
  · simp at goesOn
  · rename_i token lexer found
    obtain rfl := Sum.inl.inj goesOn
    exact next_token_takes (.inr rfl) found

/-- The options are a C string; strdup and alloc say which allocations succeed. -/
def parseFstabMntOptions (strdup : Bool) (alloc : Nat → Bool) (mntOptions : List UInt8) :
    ParsedOptions :=
  if mntOptions = [] then ⟨false, 0, none⟩
  else if strdup then
    outcome (optionsBody alloc) Collecting.left (options_shrink alloc)
      ⟨initLexer (mntOptions ++ [0]) (mntOptions.length + 1), 0, none, 0⟩
  else ⟨false, 0, none⟩

def collect (sofar : Flags × Option (List UInt8)) (opt : List UInt8) :
    Flags × Option (List UInt8) :=
  match addOptionFlag opt sofar.1 with
  | some flags => (flags, sofar.2)
  | none => (sofar.1, addUnknownOption true sofar.2 opt)

def nonblank (pieces : List (List UInt8)) : List (List UInt8) := pieces.filter (fun p => p ≠ [])

theorem options_body_open (alloc : Nat → Bool) {lexer : LexerData} {front rest : List UInt8}
    (ahead : Left lexer front (some rest))
    (unfinished : openAfter isQuote comma none (cut isQuote comma none rest).1 ≠ none)
    (flags : Flags) (unknown : Option (List UInt8)) (allocations : Nat) :
    optionsBody alloc ⟨lexer, flags, unknown, allocations⟩ = .inr ⟨false, flags, none⟩ := by
  have token := next_token_quoted false comma ahead
  simp only [unfinished, ↓reduceIte] at token
  simp only [optionsBody]
  split
  · rename_i same
    simp [same] at token
  · rename_i same
    simp [same] at token
  · rfl
  · rename_i same
    simp [same] at token

theorem options_body_piece (alloc : Nat → Bool) {lexer : LexerData} {front rest : List UInt8}
    (ahead : Left lexer front (some rest))
    (ended : openAfter isQuote comma none (cut isQuote comma none rest).1 = none)
    (flags : Flags) (unknown : Option (List UInt8)) (allocations : Nat) :
    let opt := (cut isQuote comma none rest).1
    ∃ lexer', Left lexer' (front ++ (opt ++ [0])) (cut isQuote comma none rest).2 ∧
      optionsBody alloc ⟨lexer, flags, unknown, allocations⟩ =
        if opt = [] then .inl ⟨lexer', flags, unknown, allocations⟩
        else match addOptionFlag opt flags with
          | some flags => .inl ⟨lexer', flags, unknown, allocations⟩
          | none =>
            match addUnknownOption (alloc allocations) unknown opt with
            | some unknown => .inl ⟨lexer', flags, some unknown, allocations + 1⟩
            | none => .inr ⟨false, flags, none⟩ := by
  intro opt
  have token := next_token_quoted false comma ahead
  simp only [kept, Bool.false_eq_true, ended, ↓reduceIte] at token
  obtain ⟨lexer', answer, later⟩ := token
  have clean : 0 ∉ opt := fun zero => ahead.1 (cut_subset none rest zero)
  have pointed : cString lexer'.buf front.length = opt := token_string later clean
  refine ⟨lexer', later, ?_⟩
  by_cases blank : opt = []
  · have found : nextToken lexer comma true false = (.blank, some front.length, lexer') := by
      rw [answer, if_pos blank]
    simp [optionsBody, found, blank]
  · have found : nextToken lexer comma true false = (.ok, some front.length, lexer') := by
      rw [answer, if_neg blank]
    simp [optionsBody, found, blank, pointed]

theorem options_accepted (alloc : Nat → Bool) (left : Option (List UInt8)) {lexer : LexerData}
    {front : List UInt8} (ahead : Left lexer front left) {flags : Flags}
    {unknown : Option (List UInt8)} {allocations : Nat}
    (accepted : (outcome (optionsBody alloc) Collecting.left (options_shrink alloc)
      ⟨lexer, flags, unknown, allocations⟩).success = true) : ClosedLeft isQuote comma left := by
  induction left using left_rule isQuote comma
    generalizing lexer front flags unknown allocations with
  | ended => trivial
  | next rest ih =>
    by_cases ended : openAfter isQuote comma none (cut isQuote comma none rest).1 = none
    · obtain ⟨lexer', later, body⟩ :=
        options_body_piece alloc ahead ended flags unknown allocations
      have closed : ClosedLeft isQuote comma (cut isQuote comma none rest).2 := by
        split at body
        · rw [outcome_next body] at accepted
          exact ih later accepted
        · split at body
          · rw [outcome_next body] at accepted
            exact ih later accepted
          · split at body
            · rw [outcome_next body] at accepted
              exact ih later accepted
            · rw [outcome_done body] at accepted
              simp at accepted
      exact (closed_left_some rest).mpr ⟨ended, closed⟩
    · rw [outcome_done (options_body_open alloc ahead ended flags unknown allocations)] at accepted
      simp at accepted

theorem options_loop (left : Option (List UInt8)) {lexer : LexerData} {front : List UInt8}
    (ahead : Left lexer front left) (sofar : Flags × Option (List UInt8)) (allocations : Nat) :
    outcome (optionsBody (fun _ => true)) Collecting.left (options_shrink (fun _ => true))
        ⟨lexer, sofar.1, sofar.2, allocations⟩ =
      let all := (nonblank (wholePieces isQuote comma left)).foldl collect sofar
      if ClosedLeft isQuote comma left then ⟨true, all.1, all.2⟩ else ⟨false, all.1, none⟩ := by
  induction left using left_rule isQuote comma generalizing lexer front sofar allocations with
  | ended =>
    refine outcome_done ?_
    simp [optionsBody, next_token_none comma false ahead, wholePieces, piecesLeft, ClosedLeft,
      nonblank]
  | next rest ih =>
    by_cases ended : openAfter isQuote comma none (cut isQuote comma none rest).1 = none
    · obtain ⟨lexer', later, body⟩ :=
        options_body_piece (fun _ => true) ahead ended sofar.1 sofar.2 allocations
      have closed : ClosedLeft isQuote comma (some rest) ↔
          ClosedLeft isQuote comma (cut isQuote comma none rest).2 := by
        simp [closed_left_some rest, ended]
      rw [whole_pieces_some ended]
      simp only [closed]
      generalize (cut isQuote comma none rest).1 = opt at body
      by_cases blank : opt = []
      · rw [if_pos blank] at body
        rw [outcome_next body, ih later sofar allocations]
        simp [nonblank, blank]
      · have first : nonblank (opt :: wholePieces isQuote comma (cut isQuote comma none rest).2) =
            opt :: nonblank (wholePieces isQuote comma (cut isQuote comma none rest).2) := by
          simp [nonblank, blank]
        obtain ⟨allocations', goesOn⟩ : ∃ allocations', optionsBody (fun _ => true)
            ⟨lexer, sofar.1, sofar.2, allocations⟩ =
              .inl ⟨lexer', (collect sofar opt).1, (collect sofar opt).2, allocations'⟩ := by
          rw [body, if_neg blank, collect]
          cases addOptionFlag opt sofar.1 with
          | some flags => exact ⟨allocations, rfl⟩
          | none =>
            refine ⟨allocations + 1, ?_⟩
            cases sofar.2 <;> rfl
        rw [outcome_next goesOn, first, List.foldl_cons]
        exact ih later (collect sofar opt) allocations'
    · obtain ⟨unclosed, nothing⟩ := whole_pieces_open ended
      simp only [unclosed, nothing, ↓reduceIte]
      exact outcome_done (options_body_open _ ahead ended sofar.1 sofar.2 allocations)

/-- The option has something to say about this bit: it sets it, or clears it if
    it is a negated one. -/
def covers (i : Nat) (row : OptionRow) : Bool := row.flag.getLsbD i != row.negated

theorem apply_bit (row : OptionRow) (flags : Flags) (i : Nat) :
    (row.apply flags).getLsbD i = if covers i row then !row.negated else flags.getLsbD i := by
  cases negated : row.negated with
  | true =>
    cases bit : row.flag.getLsbD i <;>
      simp [OptionRow.apply, covers, negated, bit]
  | false =>
    cases bit : row.flag.getLsbD i <;>
      simp [OptionRow.apply, covers, negated, bit]

def lastSetting (i : Nat) (rows : List OptionRow) : Option Bool :=
  ((rows.filter (covers i)).getLast?).map (fun row => !row.negated)

theorem applied_bit (rows : List OptionRow) (flags : Flags) (i : Nat) :
    (rows.foldl (fun flags row => row.apply flags) flags).getLsbD i =
      (lastSetting i rows).getD (flags.getLsbD i) := by
  induction rows generalizing flags with
  | nil => rfl
  | cons row rows ih =>
    rw [List.foldl_cons, ih, apply_bit row flags i]
    by_cases covered : covers i row = true
    · simp only [lastSetting, List.filter_cons_of_pos covered, List.getLast?_cons, covered,
        ↓reduceIte, Option.map_some, Option.getD_some]
      cases (rows.filter (covers i)).getLast? <;> rfl
    · simp only [lastSetting, List.filter_cons_of_neg covered, covered, Bool.false_eq_true,
        ↓reduceIte]

def recognised (opt : List UInt8) : Bool := (rowOf opt).isSome

theorem collect_all (opts : List (List UInt8)) (sofar : Flags × Option (List UInt8)) :
    opts.foldl collect sofar =
      ((opts.filterMap rowOf).foldl (fun flags row => row.apply flags) sofar.1,
        (opts.filter (fun opt => !recognised opt)).foldl (addUnknownOption true) sofar.2) := by
  induction opts generalizing sofar with
  | nil => rfl
  | cons opt opts ih =>
    rw [List.foldl_cons, ih]
    cases row : rowOf opt with
    | none => simp [collect, addOptionFlag, recognised, row]
    | some found => simp [collect, addOptionFlag, recognised, row]

theorem join_cons (first : List UInt8) (others : List (List UInt8)) :
    [comma].intercalate (first :: others) = first ++ others.flatMap (fun opt => comma :: opt) := by
  induction others generalizing first with
  | nil => simp
  | cons next others ih =>
    rw [List.intercalate_cons_cons, ih]
    simp

theorem unknown_joined (opts : List (List UInt8)) :
    opts.foldl (addUnknownOption true) none =
      if opts = [] then none else some ([comma].intercalate opts) := by
  have behind : ∀ (opts : List (List UInt8)) (first : List UInt8),
      opts.foldl (addUnknownOption true) (some first) =
        some (first ++ opts.flatMap (fun opt => comma :: opt)) := by
    intro opts
    induction opts with
    | nil => simp
    | cons opt opts ih =>
      intro first
      simp [addUnknownOption, ih]
  cases opts with
  | nil => rfl
  | cons first opts =>
    rw [List.foldl_cons, if_neg (List.cons_ne_nil first opts), join_cons]
    exact behind opts first

def mountTokens (opts : List UInt8) : List (List UInt8) :=
  nonblank (pieces isQuote comma none opts)

def joined (opts : List (List UInt8)) : Option (List UInt8) :=
  if opts = [] then none else some ([comma].intercalate opts)

def flagsOf (opts : List (List UInt8)) : Flags :=
  (opts.filterMap rowOf).foldl (fun flags row => row.apply flags) 0

def unknownOf (opts : List (List UInt8)) : List (List UInt8) :=
  opts.filter (fun opt => !recognised opt)

theorem parse_closed {opts : List UInt8} (clean : 0 ∉ opts) (some : opts ≠ [])
    (closed : openAfter isQuote comma none opts = none) :
    parseFstabMntOptions true (fun _ => true) opts =
      ⟨true, flagsOf (mountTokens opts), joined (unknownOf (mountTokens opts))⟩ := by
  have loop := options_loop (Option.some opts) (left_init clean) (0, none) 0
  have shut : ClosedLeft isQuote comma (Option.some opts) := closed
  simp only [wholePieces, shut, ↓reduceIte, collect_all, unknown_joined] at loop
  rw [parseFstabMntOptions, if_neg some, if_pos rfl]
  exact loop

theorem parse_unclosed {opts : List UInt8} (clean : 0 ∉ opts)
    (unclosed : openAfter isQuote comma none opts ≠ none) :
    parseFstabMntOptions true (fun _ => true) opts =
      ⟨false, flagsOf (nonblank (pieces isQuote comma none opts).dropLast), none⟩ := by
  have some : opts ≠ [] := by
    rintro rfl
    exact unclosed rfl
  have loop := options_loop (Option.some opts) (left_init clean) (0, none) 0
  have unshut : ¬ ClosedLeft isQuote comma (Option.some opts) := unclosed
  simp only [wholePieces, unshut, ↓reduceIte, collect_all] at loop
  rw [parseFstabMntOptions, if_neg some, if_pos rfl]
  exact loop

theorem parse_joined {opts : List (List UInt8)} (some : opts ≠ [])
    (closed : ∀ opt ∈ opts, Closed isQuote comma opt) (clean : ∀ opt ∈ opts, 0 ∉ opt)
    (nonempty : ∀ opt ∈ opts, opt ≠ []) (unknown : ∀ opt ∈ opts, recognised opt = false) :
    parseFstabMntOptions true (fun _ => true) ([comma].intercalate opts) =
      ⟨true, 0, Option.some ([comma].intercalate opts)⟩ := by
  have whole : [comma].intercalate opts ≠ [] := by
    obtain ⟨first, others, rfl⟩ := List.exists_cons_of_ne_nil some
    rw [join_cons]
    intro nothing
    exact nonempty first List.mem_cons_self (List.append_eq_nil_iff.mp nothing).1
  have text : 0 ∉ [comma].intercalate opts := by
    intro zero
    rcases mem_join zero with mark | ⟨opt, member, inside⟩
    · exact absurd mark (by decide)
    · exact clean opt member inside
  have tokens : mountTokens ([comma].intercalate opts) = opts := by
    rw [mountTokens, pieces_join some closed]
    exact List.filter_eq_self.mpr (fun opt member => by simpa using nonempty opt member)
  have left : unknownOf opts = opts :=
    List.filter_eq_self.mpr (fun opt member => by simp [unknown opt member])
  have rows : opts.filterMap rowOf = [] := by
    refine List.filterMap_eq_nil_iff.mpr ?_
    intro opt member
    simpa [recognised] using unknown opt member
  rw [parse_closed text whole (open_join closed), tokens, left, flagsOf, rows, joined, if_neg some]
  rfl

theorem token_facts {opts token : List UInt8} (clean : 0 ∉ opts)
    (closed : openAfter isQuote comma none opts = none) (member : token ∈ mountTokens opts) :
    Closed isQuote comma token ∧ 0 ∉ token ∧ token ≠ [] := by
  obtain ⟨among, nonempty⟩ := List.mem_filter.mp member
  exact ⟨pieces_closed opts closed token among, fun zero => clean (pieces_subset among zero),
    by simpa using nonempty⟩

/-- The options are a partition in their order: those with a flag are in the
    flags, where the last one counts, and the others are handed on as they are. -/
theorem mount_options_partition {opts : List UInt8} (clean : 0 ∉ opts) {result : ParsedOptions}
    (parsed : parseFstabMntOptions true (fun _ => true) opts = result) :
    (result.success = true ↔ opts ≠ [] ∧ openAfter isQuote comma none opts = none) ∧
    (result.success = true →
      (∀ i, result.flags.getLsbD i =
        (lastSetting i ((mountTokens opts).filterMap rowOf)).getD false) ∧
      result.unknown = joined (unknownOf (mountTokens opts))) ∧
    (result.success = false → result.unknown = none) ∧
    ∀ unknown, result.unknown = some unknown →
      parseFstabMntOptions true (fun _ => true) unknown = ⟨true, 0, some unknown⟩ := by
  by_cases empty : opts = []
  · have failed : result = ⟨false, 0, none⟩ := by simp [← parsed, empty, parseFstabMntOptions]
    simp [failed, empty]
  · by_cases closed : openAfter isQuote comma none opts = none
    · obtain rfl := (parse_closed clean empty closed).symm.trans parsed
      refine ⟨by simp [empty, closed], fun _ => ⟨?_, rfl⟩, by simp, ?_⟩
      · intro i
        simpa [flagsOf] using applied_bit ((mountTokens opts).filterMap rowOf) 0 i
      · intro unknown found
        simp only [joined] at found
        split at found
        · simp at found
        · rename_i some
          obtain rfl := Option.some.inj found
          have facts : ∀ opt ∈ unknownOf (mountTokens opts),
              opt ∈ mountTokens opts ∧ recognised opt = false := by
            intro opt member
            simpa [unknownOf] using member
          have token := fun opt member => token_facts clean closed (facts opt member).1
          exact parse_joined some (fun opt member => (token opt member).1)
            (fun opt member => (token opt member).2.1) (fun opt member => (token opt member).2.2)
            (fun opt member => (facts opt member).2)
    · have failed := (parse_unclosed clean closed).symm.trans parsed
      simp [← failed, closed]

theorem mount_options_partition_for_override :
    parseFstabMntOptions true (fun _ => true) (ascii "ro,,user='a,b',noexec,rw,x=1") =
      ⟨true, msNoexec, some (ascii "user='a,b',x=1")⟩ := by
  obtain ⟨succeeds, parts, _, _⟩ :=
    @mount_options_partition (ascii "ro,,user='a,b',noexec,rw,x=1") (by decide +kernel) _ rfl
  have success := succeeds.mpr (by decide +kernel)
  obtain ⟨bits, unknown⟩ := parts success
  have settings : ∀ i < 64, (lastSetting i ((mountTokens
      (ascii "ro,,user='a,b',noexec,rw,x=1")).filterMap rowOf)).getD false =
        msNoexec.getLsbD i := by decide +kernel
  have flags : (parseFstabMntOptions true (fun _ => true)
      (ascii "ro,,user='a,b',noexec,rw,x=1")).flags = msNoexec :=
    BitVec.eq_of_getLsbD_eq (fun i inside => (bits i).trans (settings i inside))
  have others : joined (unknownOf (mountTokens (ascii "ro,,user='a,b',noexec,rw,x=1"))) =
      some (ascii "user='a,b',x=1") := by decide +kernel
  generalize parseFstabMntOptions true (fun _ => true)
    (ascii "ro,,user='a,b',noexec,rw,x=1") = result at success flags unknown
  obtain ⟨_, _, _⟩ := result
  simp only at success flags unknown
  rw [success, flags, unknown, others]

section Places
structure OptionPlace (pre post : List UInt8) : Prop where
  first : pre = [] ∨ ∃ front, pre = front ++ [comma] ∧ openAfter isQuote comma none front = none
  last : post = [] ∨ ∃ rest, post = comma :: rest

variable {pre post : List UInt8}

theorem front_pieces (place : OptionPlace pre post) (text : List UInt8) :
    ∃ front, pieces isQuote comma none (pre ++ text) = front ++ pieces isQuote comma none text ∧
      nonblank front = mountTokens pre ∧
      openAfter isQuote comma none (pre ++ text) = openAfter isQuote comma none text := by
  rcases place.first with rfl | ⟨front, rfl, closed⟩
  · exact ⟨[], rfl, rfl, rfl⟩
  · refine ⟨pieces isQuote comma none front, ?_, ?_, ?_⟩
    · rw [List.append_assoc, List.singleton_append, pieces_split closed]
    · rw [mountTokens, pieces_split closed []]
      simp [nonblank, pieces]
    · rw [List.append_assoc, List.singleton_append, open_behind closed]

def wholeTokens (post : List UInt8) : List (List UInt8) :=
  nonblank (wholePieces isQuote comma (some post))

theorem back_pieces (place : OptionPlace pre post) {opts : List (List UInt8)} (some : opts ≠ [])
    (closed : ∀ opt ∈ opts, Closed isQuote comma opt) :
    ∃ back, pieces isQuote comma none ([comma].intercalate opts ++ post) = opts ++ back ∧
      nonblank back = mountTokens post ∧
      (openAfter isQuote comma none post ≠ none →
        back ≠ [] ∧ nonblank back.dropLast = wholeTokens post) ∧
      openAfter isQuote comma none ([comma].intercalate opts ++ post) =
        openAfter isQuote comma none post := by
  have shut : openAfter isQuote comma none ([comma].intercalate opts) = none := open_join closed
  rcases place.last with rfl | ⟨rest, rfl⟩
  · refine ⟨[], ?_, rfl, fun unclosed => absurd rfl unclosed, ?_⟩
    · rw [List.append_nil, List.append_nil, pieces_join some closed]
    · rw [List.append_nil, shut]
      rfl
  · have blank : pieces isQuote comma none (comma :: rest) =
        [] :: pieces isQuote comma none rest := by
      simp [pieces]
    refine ⟨pieces isQuote comma none rest, ?_, ?_, ?_, ?_⟩
    · rw [pieces_split shut, pieces_join some closed]
    · rw [mountTokens, blank]
      simp [nonblank]
    · intro unclosed
      have nonempty : pieces isQuote comma none rest ≠ [] := by
        rw [pieces_cut]
        split <;> simp
      refine ⟨nonempty, ?_⟩
      have unshut : ¬ ClosedLeft isQuote comma (Option.some (comma :: rest)) := unclosed
      rw [wholeTokens, wholePieces, if_neg unshut, piecesLeft, blank,
        List.dropLast_cons_of_ne_nil nonempty]
      simp [nonblank]
    · rw [open_append, shut]

theorem place_tokens (place : OptionPlace pre post) {opts : List (List UInt8)} (some : opts ≠ [])
    (closed : ∀ opt ∈ opts, Closed isQuote comma opt) (nonempty : ∀ opt ∈ opts, opt ≠ []) :
    mountTokens (pre ++ ([comma].intercalate opts ++ post)) =
        mountTokens pre ++ (opts ++ mountTokens post) ∧
    (openAfter isQuote comma none post ≠ none →
      nonblank (pieces isQuote comma none (pre ++ ([comma].intercalate opts ++ post))).dropLast =
        mountTokens pre ++ (opts ++ wholeTokens post)) ∧
    openAfter isQuote comma none (pre ++ ([comma].intercalate opts ++ post)) =
      openAfter isQuote comma none post := by
  obtain ⟨front, split, before, sameFront⟩ := front_pieces place ([comma].intercalate opts ++ post)
  obtain ⟨back, rest, behind, whole, sameBack⟩ := back_pieces place some closed
  have kept : nonblank opts = opts :=
    List.filter_eq_self.mpr (fun opt member => by simpa using nonempty opt member)
  have append : ∀ a b : List (List UInt8), nonblank (a ++ b) = nonblank a ++ nonblank b :=
    fun a b => List.filter_append a b
  refine ⟨?_, ?_, sameFront.trans sameBack⟩
  · rw [mountTokens, split, rest, append, append, before, kept, behind]
  · intro unclosed
    obtain ⟨more, last⟩ := whole unclosed
    have ends : opts ++ back ≠ [] := by simp [some]
    rw [split, rest, List.dropLast_append_of_ne_nil ends, List.dropLast_append_of_ne_nil more,
      append, append, before, kept, last]

theorem piece_place {text piece : List UInt8} (member : piece ∈ pieces isQuote comma none text) :
    ∃ pre post, text = pre ++ (piece ++ post) ∧ OptionPlace pre post := by
  induction text using pieces_rule isQuote comma with
  | last text whole =>
    rw [pieces_whole whole] at member
    rw [List.mem_singleton.mp member]
    exact ⟨[], [], by simp, .inl rfl, .inl rfl⟩
  | next front rest first ih =>
    rw [pieces_append first.1 first.2] at member
    rcases List.mem_cons.mp member with rfl | later
    · exact ⟨[], comma :: rest, rfl, .inl rfl, .inr ⟨rest, rfl⟩⟩
    · obtain ⟨pre, post, split, place⟩ := ih later
      refine ⟨front ++ comma :: pre, post, by simp [split], .inr ?_, place.last⟩
      rcases place.first with rfl | ⟨before, rfl, closed⟩
      · exact ⟨front, rfl, first.2⟩
      · exact ⟨front ++ comma :: before, by simp, (open_behind first.2 before).trans closed⟩

theorem placed_piece {piece : List UInt8} (closed : Closed isQuote comma piece)
    (place : OptionPlace pre post) :
    piece ∈ pieces isQuote comma none (pre ++ (piece ++ post)) := by
  obtain ⟨front, split, _, _⟩ := front_pieces place (piece ++ post)
  obtain ⟨back, rest, _⟩ := back_pieces place (List.cons_ne_nil piece [])
    (by simpa using closed)
  have single : [comma].intercalate [piece] = piece := by simp
  rw [single] at rest
  rw [split, rest]
  simp

end Places

end MountOptions
