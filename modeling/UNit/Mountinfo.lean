import UNit.DecimalText
import UNit.LoopRuns

/-!
The mount points that are read back from mountinfo. The kernel writes one line
for each mount and escapes the white space and the backslashes of its paths;
the lines are taken apart at white space. Nothing turns an escape back into the
byte it stands for.
-/
namespace Mountinfo
open LoopRuns DecimalText

inductive Directive where
  | space
  | string (stored : Bool)
  | others (stop : UInt8)
  deriving DecidableEq, Repr

structure Scanned where
  result : Int
  stored : List (List UInt8)
  rest : List UInt8
  deriving DecidableEq, Repr

def eof : Int := -1
def notSpace (c : UInt8) : Bool := !isSpace c

/-- The text ends in front of an item: EOF, unless something was stored. -/
def inputFailure (stored : List (List UInt8)) : Scanned :=
  ⟨if stored = [] then eof else stored.length, stored, []⟩

def fscanf : List Directive → List (List UInt8) → List UInt8 → Scanned
  | [], stored, text => ⟨stored.length, stored, text⟩
  | .space :: format, stored, text => fscanf format stored (text.dropWhile isSpace)
  | .string keep :: format, stored, text =>
    let text := text.dropWhile isSpace
    if text = [] then inputFailure stored
    else fscanf format (if keep then stored ++ [text.takeWhile notSpace] else stored)
      (text.dropWhile notSpace)
  | .others stop :: format, stored, text =>
    if text = [] then inputFailure stored
    else if text.takeWhile (fun c => c ≠ stop) = [] then ⟨stored.length, stored, text⟩
    else fscanf format stored (text.dropWhile (fun c => c ≠ stop))

def newline : UInt8 := 10

/-- Mount id, parent id, device and root, the mount point path, everything else. -/
def mountinfoFormat : List Directive :=
  [.string false, .space, .string false, .space, .string false, .space, .string false, .space,
    .string true, .space, .others newline]

def mountTable : List (List UInt8) :=
  [ascii "/sys", ascii "/proc", ascii "/dev", ascii "/dev/pts", ascii "/dev/shm", ascii "/run",
    ascii "/tmp", ascii "/sys/kernel/debug", ascii "/sys/kernel/security"]

structure Reading where
  text : List UInt8
  list : List (List UInt8)
  entries : Nat
  deriving DecidableEq, Repr

/-- The loop of get_mountpoints; calloc says which allocations succeed. A new
    entry is put in front of the list. -/
def mountpointsBody (calloc : Nat → Bool) (st : Reading) : Reading ⊕ List (List UInt8) :=
  let scanned := fscanf mountinfoFormat [] st.text
  if scanned.result ≠ 1 then
    if scanned.result = eof then .inr st.list else .inl { st with text := scanned.rest }
  else
    let path := scanned.stored.headD []
    if path ∈ mountTable then .inl { st with text := scanned.rest }
    else if calloc st.entries then .inl ⟨scanned.rest, path :: st.list, st.entries + 1⟩
    else .inr st.list

theorem fscanf_rest_le (format : List Directive) (stored : List (List UInt8)) (text : List UInt8) :
    (fscanf format stored text).rest.length ≤ text.length := by
  induction format generalizing stored text with
  | nil => simp [fscanf]
  | cons directive format ih =>
    cases directive with
    | space =>
      have shorter := (List.dropWhile_sublist (l := text) isSpace).length_le
      exact Nat.le_trans (ih stored _) shorter
    | string keep =>
      have shorter := (List.dropWhile_sublist (l := text) isSpace).length_le
      have word := (List.dropWhile_sublist (l := text.dropWhile isSpace) notSpace).length_le
      simp only [fscanf]
      split
      · simp [inputFailure]
      · exact Nat.le_trans (ih _ _) (Nat.le_trans word shorter)
    | others stop =>
      have shorter := (List.dropWhile_sublist (l := text) (fun c => c ≠ stop)).length_le
      simp only [fscanf]
      split
      · simp [inputFailure]
      · split
        · exact Nat.le_refl _
        · exact Nat.le_trans (ih stored _) shorter

theorem mountpoints_shrink (calloc : Nat → Bool) (st next : Reading)
    (goesOn : mountpointsBody calloc st = .inl next) : next.text.length < st.text.length := by
  have scanned : (fscanf mountinfoFormat [] st.text).result = eof ∨
      (fscanf mountinfoFormat [] st.text).rest.length < st.text.length := by
    have shorter := (List.dropWhile_sublist (l := st.text) isSpace).length_le
    rw [mountinfoFormat, fscanf]
    cases trimmed : st.text.dropWhile isSpace with
    | nil => exact .inl (by simp [inputFailure])
    | cons c rest =>
      have visible : notSpace c = true := by
        have first := List.head?_dropWhile_not isSpace st.text
        simpa [trimmed, notSpace] using first
      have word := (List.dropWhile_sublist (l := rest) notSpace).length_le
      rw [trimmed, List.length_cons] at shorter
      refine .inr ?_
      simp only [reduceCtorEq, ↓reduceIte, List.dropWhile_cons_of_pos visible]
      exact Nat.lt_of_le_of_lt (fscanf_rest_le _ _ _) (by omega)
  simp only [mountpointsBody] at goesOn
  generalize fscanf mountinfoFormat [] st.text = last at goesOn scanned
  have read : last.result ≠ eof → last.rest.length < st.text.length := by
    intro other
    exact scanned.resolve_left other
  split at goesOn
  · split at goesOn
    · simp at goesOn
    · rename_i other
      obtain rfl := Sum.inl.inj goesOn
      exact read other
  · rename_i one
    have item : last.result ≠ eof := by
      rw [Classical.not_not.mp one]
      decide
    split at goesOn
    · obtain rfl := Sum.inl.inj goesOn
      exact read item
    · split at goesOn
      · obtain rfl := Sum.inl.inj goesOn
        exact read item
      · simp at goesOn

def getMountpoints (fopen : Bool) (calloc : Nat → Bool) (text : List UInt8) : List (List UInt8) :=
  if fopen then
    outcome (mountpointsBody calloc) (fun st => st.text.length) (mountpoints_shrink calloc)
      ⟨text, [], 0⟩
  else []

def backslash : UInt8 := 92

def escapeByte (c : UInt8) : List UInt8 :=
  if c = 32 then ascii "\\040"
  else if c = 9 then ascii "\\011"
  else if c = newline then ascii "\\012"
  else if c = backslash then ascii "\\134"
  else [c]

def escape (text : List UInt8) : List UInt8 := text.flatMap escapeByte

def Word (text : List UInt8) : Prop := text ≠ [] ∧ ∀ c ∈ text, isSpace c = false

instance (text : List UInt8) : Decidable (Word text) :=
  inferInstanceAs (Decidable (text ≠ [] ∧ ∀ c ∈ text, isSpace c = false))

/-- A mount as mountinfo has it. Root and path are any strings; what follows
    them begins with the mount options and has no newline. -/
structure Mount where
  id : List UInt8
  parent : List UInt8
  device : List UInt8
  root : List UInt8
  path : List UInt8
  options : List UInt8
  numbers : Word id ∧ Word parent ∧ Word device
  rooted : root ≠ [] ∧ 0 ∉ root
  placed : path ≠ [] ∧ 0 ∉ path
  ending : options.dropWhile isSpace = options ∧ options ≠ [] ∧ newline ∉ options

def Mount.line (m : Mount) : List UInt8 :=
  m.id ++ 32 :: (m.parent ++ 32 :: (m.device ++ 32 :: (escape m.root ++ 32 ::
    (escape m.path ++ 32 :: m.options))))

def mountinfo (mounts : List Mount) : List UInt8 := mounts.flatMap (fun m => m.line ++ [newline])

def Unbroken (text : List UInt8) : Prop := ∀ c ∈ text, c ≠ 11 ∧ c ≠ 12 ∧ c ≠ 13

def Plain (text : List UInt8) : Prop := ∀ c ∈ text, isSpace c = false ∧ c ≠ backslash

instance (text : List UInt8) : Decidable (Unbroken text) :=
  inferInstanceAs (Decidable (∀ c ∈ text, c ≠ 11 ∧ c ≠ 12 ∧ c ≠ 13))

instance (text : List UInt8) : Decidable (Plain text) :=
  inferInstanceAs (Decidable (∀ c ∈ text, isSpace c = false ∧ c ≠ backslash))

theorem space_cases {c : UInt8} (blank : isSpace c = true) :
    c = 32 ∨ c = 9 ∨ c = newline ∨ c = 11 ∨ c = 12 ∨ c = 13 := by
  simp only [isSpace, Bool.or_eq_true, beq_iff_eq, Bool.and_eq_true, decide_eq_true_eq,
    UInt8.le_iff_toNat_le, ← UInt8.toNat_inj, newline] at blank ⊢
  have five : ∀ n : Nat, 9 ≤ n → n ≤ 13 → n = 9 ∨ n = 10 ∨ n = 11 ∨ n = 12 ∨ n = 13 := by omega
  rcases blank with same | ⟨low, high⟩
  · exact .inl same
  · exact .inr (five c.toNat low high)

theorem all_visible {text : List UInt8} (some : text ≠ [])
    (all : text.all notSpace = true) : text ≠ [] ∧ ∀ d ∈ text, isSpace d = false := by
  refine ⟨some, ?_⟩
  intro d member
  simpa [notSpace] using List.all_eq_true.mp all d member

theorem escape_byte_visible {c : UInt8} (unbroken : c ≠ 11 ∧ c ≠ 12 ∧ c ≠ 13) :
    escapeByte c ≠ [] ∧ ∀ d ∈ escapeByte c, isSpace d = false := by
  unfold escapeByte
  split
  · exact all_visible (by decide) (by decide)
  · split
    · exact all_visible (by decide) (by decide)
    · split
      · exact all_visible (by decide) (by decide)
      · split
        · exact all_visible (by decide) (by decide)
        · refine ⟨by simp, ?_⟩
          intro d member
          obtain rfl := List.mem_singleton.mp member
          refine Bool.eq_false_iff.mpr (fun blank => ?_)
          rcases space_cases blank with same | same | same | same | same | same <;> simp_all

theorem escape_word {text : List UInt8} (nonempty : text ≠ []) (unbroken : Unbroken text) :
    Word (escape text) := by
  constructor
  · intro nothing
    obtain ⟨c, member⟩ := List.exists_mem_of_ne_nil text nonempty
    have none := List.flatMap_eq_nil_iff.mp nothing c member
    exact (escape_byte_visible (unbroken c member)).1 none
  · intro d member
    obtain ⟨c, among, inside⟩ := List.mem_flatMap.mp member
    exact (escape_byte_visible (unbroken c among)).2 d inside

theorem escape_plain {text : List UInt8} (plain : Plain text) : escape text = text := by
  induction text with
  | nil => rfl
  | cons c text ih =>
    have later := ih (fun d member => plain d (List.mem_cons_of_mem c member))
    obtain ⟨visible, other⟩ := plain c List.mem_cons_self
    have same : escapeByte c = [c] := by
      unfold escapeByte
      split
      · simp_all [isSpace]
      · split
        · simp_all [isSpace]
        · split
          · simp_all [isSpace, newline]
          · rfl
    simp only [escape] at later
    simp [escape, same, later]

theorem escape_byte_longer (c : UInt8) :
    1 ≤ (escapeByte c).length ∧ (c = backslash → (escapeByte c).length = 4) := by
  constructor
  · unfold escapeByte
    split
    · decide
    · split
      · decide
      · split
        · decide
        · split
          · decide
          · exact Nat.le_refl 1
  · rintro rfl
    decide

theorem escape_longer (text : List UInt8) : text.length ≤ (escape text).length ∧
    (backslash ∈ text → text.length < (escape text).length) := by
  induction text with
  | nil => simp
  | cons c text ih =>
    obtain ⟨one, four⟩ := escape_byte_longer c
    have split : (escape (c :: text)).length = (escapeByte c).length + (escape text).length := by
      simp [escape]
    rw [split, List.length_cons]
    refine ⟨by omega, ?_⟩
    intro member
    rcases List.mem_cons.mp member with same | later
    · have := four same.symm
      omega
    · have := ih.2 later
      omega

theorem word_first {word : List UInt8} (visible : Word word) (rest : List UInt8) :
    (word ++ rest).dropWhile isSpace = word ++ rest := by
  obtain ⟨nonempty, all⟩ := visible
  cases word with
  | nil => exact absurd rfl nonempty
  | cons c word =>
    have first := all c List.mem_cons_self
    rw [List.cons_append, List.dropWhile_cons_of_neg (by simp [first])]

theorem fscanf_word {word text more : List UInt8} (visible : Word word) (keep : Bool)
    (format : List Directive) (stored : List (List UInt8))
    (here : text.dropWhile isSpace = word ++ 32 :: more) :
    fscanf (.string keep :: .space :: format) stored text =
      fscanf format (if keep then stored ++ [word] else stored) (more.dropWhile isSpace) := by
  have all : ∀ c ∈ word, notSpace c = true := by
    intro c member
    simp [notSpace, visible.2 c member]
  have taken : (word ++ 32 :: more).takeWhile notSpace = word := by
    rw [List.takeWhile_append_of_pos all, List.takeWhile_cons_of_neg (by decide), List.append_nil]
  have left : (word ++ 32 :: more).dropWhile notSpace = 32 :: more := by
    rw [List.dropWhile_append_of_pos all, List.dropWhile_cons_of_neg (by decide)]
  have blank : (32 :: more).dropWhile isSpace = more.dropWhile isSpace :=
    List.dropWhile_cons_of_pos (by decide)
  simp [fscanf, here, taken, left, blank]

theorem fscanf_line (m : Mount) (root : Unbroken m.root) (path : Unbroken m.path)
    {text more : List UInt8} (here : text.dropWhile isSpace = m.line ++ newline :: more) :
    fscanf mountinfoFormat [] text = ⟨1, [escape m.path], newline :: more⟩ := by
  obtain ⟨id, parent, device⟩ := m.numbers
  obtain ⟨options, some, unended⟩ := m.ending
  have rooted := escape_word m.rooted.1 root
  have placed := escape_word m.placed.1 path
  simp only [Mount.line, List.append_assoc, List.cons_append] at here
  rw [mountinfoFormat, fscanf_word id false _ [] here, word_first parent,
    fscanf_word parent false _ _ (word_first parent _), word_first device,
    fscanf_word device false _ _ (word_first device _), word_first rooted,
    fscanf_word rooted false _ _ (word_first rooted _), word_first placed,
    fscanf_word placed true _ _ (word_first placed _)]
  have others : ∀ c ∈ m.options, decide (c ≠ newline) = true := by
    intro c member
    have other : c ≠ newline := fun same => unended (same ▸ member)
    simpa using other
  have first : (m.options ++ newline :: more).dropWhile isSpace = m.options ++ newline :: more := by
    cases given : m.options with
    | nil => exact absurd given some
    | cons c rest =>
      rw [given] at options
      have visible : ¬ isSpace c = true := by
        intro blank
        rw [List.dropWhile_cons_of_pos blank] at options
        have shorter := (List.dropWhile_sublist (l := rest) isSpace).length_le
        rw [options, List.length_cons] at shorter
        omega
      rw [List.cons_append, List.dropWhile_cons_of_neg visible]
  have taken : (m.options ++ newline :: more).takeWhile (fun c => c ≠ newline) = m.options := by
    rw [List.takeWhile_append_of_pos others, List.takeWhile_cons_of_neg (by simp), List.append_nil]
  have left : (m.options ++ newline :: more).dropWhile (fun c => c ≠ newline) =
      newline :: more := by
    rw [List.dropWhile_append_of_pos others, List.dropWhile_cons_of_neg (by simp)]
  rw [first]
  simp only [fscanf, taken, left, some, List.append_eq_nil_iff, reduceCtorEq, and_false,
    ↓reduceIte, List.nil_append, Bool.false_eq_true, List.length_singleton]
  rfl

theorem drop_first (mounts : List Mount) :
    (mountinfo mounts).dropWhile isSpace = mountinfo mounts := by
  cases mounts with
  | nil => rfl
  | cons m mounts =>
    simp only [mountinfo, List.flatMap_cons, Mount.line, List.append_assoc]
    exact word_first m.numbers.1 _

def notInTable (path : List UInt8) : Bool := path ∉ mountTable

theorem read_lines (mounts : List Mount)
    (unbroken : ∀ m ∈ mounts, Unbroken m.root ∧ Unbroken m.path) {text : List UInt8}
    {list : List (List UInt8)} {entries : Nat}
    (here : text.dropWhile isSpace = mountinfo mounts) :
    outcome (mountpointsBody (fun _ => true)) (fun st => st.text.length)
        (mountpoints_shrink (fun _ => true)) ⟨text, list, entries⟩ =
      ((mounts.map (fun m => escape m.path)).filter notInTable).reverse ++ list := by
  induction mounts generalizing text list entries with
  | nil =>
    refine outcome_done ?_
    have nothing : text.dropWhile isSpace = [] := here
    have ended : fscanf mountinfoFormat [] text = ⟨eof, [], []⟩ := by
      simp [mountinfoFormat, fscanf, nothing, inputFailure]
    simp [mountpointsBody, ended, eof]
  | cons m mounts ih =>
    obtain ⟨root, path⟩ := unbroken m List.mem_cons_self
    have line : text.dropWhile isSpace = m.line ++ newline :: mountinfo mounts := by
      rw [here]
      simp [mountinfo]
    have scanned := fscanf_line m root path line
    have next : (newline :: mountinfo mounts).dropWhile isSpace = mountinfo mounts := by
      rw [List.dropWhile_cons_of_pos (by decide)]
      exact drop_first mounts
    have others : ∀ m ∈ mounts, Unbroken m.root ∧ Unbroken m.path :=
      fun other member => unbroken other (List.mem_cons_of_mem m member)
    by_cases listed : escape m.path ∈ mountTable
    · have goesOn : mountpointsBody (fun _ => true) ⟨text, list, entries⟩ =
          .inl ⟨newline :: mountinfo mounts, list, entries⟩ := by
        simp [mountpointsBody, scanned, listed]
      rw [outcome_next goesOn, ih others next]
      simp [notInTable, listed]
    · have goesOn : mountpointsBody (fun _ => true) ⟨text, list, entries⟩ =
          .inl ⟨newline :: mountinfo mounts, escape m.path :: list, entries + 1⟩ := by
        simp [mountpointsBody, scanned, listed]
      rw [outcome_next goesOn, ih others next]
      simp [notInTable, listed]

theorem fscanf_stores_words (format : List Directive) (stored : List (List UInt8))
    (text : List UInt8) (words : ∀ word ∈ stored, ∀ c ∈ word, isSpace c = false) :
    ∀ word ∈ (fscanf format stored text).stored, ∀ c ∈ word, isSpace c = false := by
  induction format generalizing stored text with
  | nil => simpa [fscanf] using words
  | cons directive format ih =>
    cases directive with
    | space => exact ih stored _ words
    | string keep =>
      simp only [fscanf]
      split
      · simpa [inputFailure] using words
      · refine ih _ _ ?_
        cases keep with
        | false => exact words
        | true =>
          intro word member
          rcases List.mem_append.mp member with before | now
          · exact words word before
          · intro c inside
            rw [List.mem_singleton.mp now] at inside
            simpa [notSpace] using List.mem_takeWhile_imp inside
    | others stop =>
      simp only [fscanf]
      split
      · simpa [inputFailure] using words
      · split
        · exact words
        · exact ih stored _ words

theorem mountpoints_words (calloc : Nat → Bool) (text : List UInt8) :
    ∀ path ∈ getMountpoints true calloc text, ∀ c ∈ path, isSpace c = false := by
  have ended : Ends (mountpointsBody calloc) ⟨text, [], 0⟩ (getMountpoints true calloc text) := by
    simp only [getMountpoints, ↓reduceIte]
    exact outcome_ends _
  refine ends_rule (fun st => ∀ path ∈ st.list, ∀ c ∈ path, isSpace c = false)
    (fun list => ∀ path ∈ list, ∀ c ∈ path, isSpace c = false) ?_ ?_ (by simp) ended
  · intro st next words goesOn
    have stored := fscanf_stores_words mountinfoFormat [] st.text (by simp)
    simp only [mountpointsBody] at goesOn
    generalize fscanf mountinfoFormat [] st.text = last at goesOn stored
    have first : ∀ c ∈ last.stored.headD [], isSpace c = false := by
      cases items : last.stored with
      | nil => simp
      | cons path others => exact stored path (by simp [items])
    split at goesOn
    · split at goesOn
      · simp at goesOn
      · obtain rfl := Sum.inl.inj goesOn
        exact words
    · split at goesOn
      · obtain rfl := Sum.inl.inj goesOn
        exact words
      · split at goesOn
        · obtain rfl := Sum.inl.inj goesOn
          intro path member
          rcases List.mem_cons.mp member with rfl | before
          · exact first
          · exact words path before
        · simp at goesOn
  · intro st list words left
    simp only [mountpointsBody] at left
    split at left
    · split at left
      · exact Sum.inr.inj left ▸ words
      · simp at left
    · split at left
      · simp at left
      · split at left
        · simp at left
        · exact Sum.inr.inj left ▸ words

def mountedPaths (mounts : List Mount) : List (List UInt8) :=
  ((mounts.map (fun m => m.path)).filter notInTable).reverse

theorem table_plain : ∀ path ∈ mountTable, Plain path := by decide +kernel

theorem plain_unbroken {text : List UInt8} (visible : ∀ c ∈ text, isSpace c = false) :
    Unbroken text := by
  intro c member
  have shown := visible c member
  refine ⟨?_, ?_, ?_⟩
  · rintro rfl
    exact absurd shown (by decide)
  · rintro rfl
    exact absurd shown (by decide)
  · rintro rfl
    exact absurd shown (by decide)

theorem escape_not_in_table {path : List UInt8} (visible : ∀ c ∈ path, isSpace c = false) :
    notInTable (escape path) = notInTable path := by
  by_cases escaped : backslash ∈ path
  · have still : backslash ∈ escape path := List.mem_flatMap.mpr ⟨backslash, escaped, by decide⟩
    have unlisted : ∀ text, backslash ∈ text → text ∉ mountTable :=
      fun text member listed => (table_plain text listed backslash member).2 rfl
    simp [notInTable, unlisted path escaped, unlisted (escape path) still]
  · have plain : Plain path :=
      fun c member => ⟨visible c member, fun same => escaped (same ▸ member)⟩
    rw [escape_plain plain]

theorem visible_mountpoints {mounts : List Mount} (roots : ∀ m ∈ mounts, Unbroken m.root)
    (visible : ∀ m ∈ mounts, ∀ c ∈ m.path, isSpace c = false) :
    getMountpoints true (fun _ => true) (mountinfo mounts) =
      (((mounts.map (fun m => m.path)).filter notInTable).map escape).reverse := by
  have unbroken : ∀ m ∈ mounts, Unbroken m.root ∧ Unbroken m.path :=
    fun m member => ⟨roots m member, plain_unbroken (visible m member)⟩
  have lines := @read_lines mounts unbroken (mountinfo mounts) [] 0 (drop_first mounts)
  have kept : (mounts.map (fun m => escape m.path)).filter notInTable =
      ((mounts.map (fun m => m.path)).filter notInTable).map escape := by
    rw [List.filter_map, List.filter_map, List.map_map]
    refine congrArg _ (List.filter_congr ?_)
    intro m member
    exact escape_not_in_table (visible m member)
  simpa [getMountpoints, kept] using lines

theorem unlisted_among {mounts : List Mount} {m : Mount} (member : m ∈ mounts)
    (unlisted : m.path ∉ mountTable) :
    m.path ∈ (mounts.map (fun m => m.path)).filter notInTable :=
  List.mem_filter.mpr ⟨List.mem_map_of_mem member, by simp [notInTable, unlisted]⟩

theorem original_visible {mounts : List Mount}
    (same : getMountpoints true (fun _ => true) (mountinfo mounts) = mountedPaths mounts) :
    ∀ m ∈ mounts, ∀ c ∈ m.path, isSpace c = false := by
  intro m member
  by_cases listed : m.path ∈ mountTable
  · exact fun c inside => (table_plain m.path listed c inside).1
  · refine mountpoints_words (fun _ => true) (mountinfo mounts) m.path ?_
    rw [same]
    exact List.mem_reverse.mpr (unlisted_among member listed)

/-- With roots that are one word, the paths are the original ones exactly when
    no path outside of mount_table has a byte that is escaped or that ends a
    word. -/
theorem mountpoints_original_iff (mounts : List Mount) (roots : ∀ m ∈ mounts, Unbroken m.root) :
    getMountpoints true (fun _ => true) (mountinfo mounts) = mountedPaths mounts ↔
      ∀ m ∈ mounts, m.path ∉ mountTable → Plain m.path := by
  constructor
  · intro same m member unlisted
    have visible := original_visible same
    have mapped : ((mounts.map (fun m => m.path)).filter notInTable).map escape =
        (mounts.map (fun m => m.path)).filter notInTable :=
      List.reverse_injective ((visible_mountpoints roots visible).symm.trans same)
    have fixed : escape m.path = m.path :=
      List.map_eq_map_iff.mp (mapped.trans (List.map_id _).symm) m.path
        (unlisted_among member unlisted)
    intro c inside
    refine ⟨visible m member c inside, ?_⟩
    rintro rfl
    have longer := (escape_longer m.path).2 inside
    rw [fixed] at longer
    omega
  · intro plain
    have all : ∀ m ∈ mounts, Plain m.path := by
      intro m member
      by_cases listed : m.path ∈ mountTable
      · exact table_plain m.path listed
      · exact plain m member listed
    rw [visible_mountpoints roots (fun m member c inside => (all m member c inside).1)]
    refine congrArg List.reverse ((List.map_congr_left ?_).trans (List.map_id _))
    intro path member
    obtain ⟨m, inside, rfl⟩ := List.mem_map.mp (List.mem_filter.mp member).1
    exact escape_plain (all m inside)

def diskMount (path : List UInt8) (placed : path ≠ [] ∧ 0 ∉ path) : Mount where
  id := ascii "24"
  parent := ascii "1"
  device := ascii "8:1"
  root := ascii "/"
  path := path
  options := ascii "rw,relatime - ext4 /dev/sda1 rw"
  numbers := by decide +kernel
  rooted := by decide +kernel
  placed := placed
  ending := by decide +kernel

theorem plain_mountpoints_read :
    getMountpoints true (fun _ => true) (mountinfo [diskMount (ascii "/") (by decide +kernel),
      diskMount (ascii "/dev") (by decide +kernel), diskMount (ascii "/mnt") (by decide +kernel)]) =
        [ascii "/mnt", ascii "/"] :=
  ((mountpoints_original_iff [diskMount (ascii "/") (by decide +kernel),
    diskMount (ascii "/dev") (by decide +kernel), diskMount (ascii "/mnt") (by decide +kernel)]
    (by decide +kernel)).mpr (by decide +kernel)).trans (by decide +kernel)

/-- A space in the path of a mount point is not turned back. -/
theorem space_stays_escaped :
    getMountpoints true (fun _ => true)
        (mountinfo [diskMount (ascii "/mnt/a b") (by decide +kernel)]) = [ascii "/mnt/a\\040b"] ∧
    getMountpoints true (fun _ => true)
        (mountinfo [diskMount (ascii "/mnt/a b") (by decide +kernel)]) ≠
      mountedPaths [diskMount (ascii "/mnt/a b") (by decide +kernel)] := by
  decide +kernel

end Mountinfo
