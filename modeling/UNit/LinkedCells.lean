import Mathlib.Data.Finmap

/-!
Linked lists of allocated cells. A heap maps the addresses of its allocated
blocks to their contents; a null pointer is none. Reading, writing or freeing
an address that is not allocated is a fault, so a computation that returns has
touched no freed block and has freed nothing twice. A loop over a list is cut
off after as many iterations as there are blocks, which a list that ends in
null never needs.
-/
namespace LinkedCells
variable {A B : Type}

abbrev Heap (B : Type) := Finmap (fun _ : Nat => B)

structure Cell (A : Type) where
  next : Option Nat
  item : A
  deriving DecidableEq, Repr

def store (h : Heap B) (p : Nat) (b : B) : Option (Heap B) :=
  if p ∈ h then some (h.insert p b) else none

def release (h : Heap B) (p : Nat) : Option (Heap B) :=
  if p ∈ h then some (h.erase p) else none

def setNext (h : Heap (Cell A)) (p : Nat) (next : Option Nat) : Option (Heap (Cell A)) := do
  let cell ← h.lookup p
  store h p ⟨next, cell.item⟩

/-- An allocator may look at whatever happened before, but it hands out no
    block that is in use. -/
structure Allocator (P B : Type) where
  place : P → Heap B → Nat
  unused : ∀ past h, place past h ∉ h

/-- The first block not in use, so that freed blocks come back soon. -/
def firstFit {P : Type} : Allocator P B where
  place := fun _ h => ((List.range (h.keys.card + 1)).find? (fun a => a ∉ h)).getD 0
  unused := by
    intro _ h
    cases hit : (List.range (h.keys.card + 1)).find? (fun a => a ∉ h) with
    | some a => simpa using List.find?_some hit
    | none =>
      have inside : Finset.range (h.keys.card + 1) ⊆ h.keys := by
        intro a member
        have taken := List.find?_eq_none.mp hit a
          (List.mem_range.mpr (Finset.mem_range.mp member))
        exact Finmap.mem_keys.mpr (by simpa using taken)
      have counted := Finset.card_le_card inside
      rw [Finset.card_range] at counted
      omega

def Chain (h : Heap (Cell A)) : Option Nat → List (Nat × A) → Prop
  | p, [] => p = none
  | p, (a, x) :: rest => p = some a ∧ ∃ next, h.lookup a = some ⟨next, x⟩ ∧ Chain h next rest

/-- A list together with the claim that the heap holds nothing else. -/
structure Owns (h : Heap (Cell A)) (p : Option Nat) (xs : List (Nat × A)) : Prop where
  chain : Chain h p xs
  exact : h.keys = (xs.map Prod.fst).toFinset

def searchLoop (found : A → Bool) (h : Heap (Cell A)) : Nat → Option Nat → Option (Option Nat)
  | _, none => some none
  | 0, some _ => none
  | fuel + 1, some p => do
    let cell ← h.lookup p
    if found cell.item then some (some p) else searchLoop found h fuel cell.next

def search (found : A → Bool) (h : Heap (Cell A)) (list : Option Nat) : Option (Option Nat) :=
  searchLoop found h (h.keys.card + 1) list

/-- Walks to the cell in front of the target and bends its link past it; the
    flag tells whether there was such a cell. -/
def unlinkLoop (target : Nat) : Nat → Option Nat → Heap (Cell A) → Option (Heap (Cell A) × Bool)
  | _, none, h => some (h, false)
  | 0, some _, _ => none
  | fuel + 1, some current, h => do
    let cell ← h.lookup current
    if cell.next = some target then do
      let gone ← h.lookup target
      let h ← store h current ⟨gone.next, cell.item⟩
      some (h, true)
    else unlinkLoop target fuel cell.next h

def unlink (target : Nat) (h : Heap (Cell A)) (list : Option Nat) :
    Option (Heap (Cell A) × Option Nat × Bool) :=
  if list = some target then do
    let gone ← h.lookup target
    some (h, gone.next, true)
  else do
    let (h, removed) ← unlinkLoop target (h.keys.card + 1) list h
    some (h, list, removed)

theorem store_allocated {h : Heap B} {p : Nat} {b c : B} (held : h.lookup p = some b) :
    store h p c = some (h.insert p c) := by
  simp [store, Finmap.mem_of_lookup_eq_some held]

theorem release_allocated {h : Heap B} {p : Nat} {b : B} (held : h.lookup p = some b) :
    release h p = some (h.erase p) := by
  simp [release, Finmap.mem_of_lookup_eq_some held]

theorem set_next_allocated {h : Heap (Cell A)} {p : Nat} {next : Option Nat} {x : A}
    (held : h.lookup p = some ⟨next, x⟩) (other : Option Nat) :
    setNext h p other = some (h.insert p ⟨other, x⟩) := by
  simp [setNext, held, store_allocated held]

theorem keys_insert (h : Heap B) (p : Nat) (b : B) : (h.insert p b).keys = insert p h.keys := by
  ext a
  simp [Finmap.mem_keys]

theorem keys_insert_held {h : Heap B} {p : Nat} {b : B} (c : B) (held : h.lookup p = some b) :
    (h.insert p c).keys = h.keys := by
  rw [keys_insert]
  exact Finset.insert_eq_of_mem (Finmap.mem_keys.mpr (Finmap.mem_of_lookup_eq_some held))

theorem empty_of_keys {h : Heap B} (none : h.keys = ∅) : h = ∅ := by
  apply Finmap.ext_lookup
  intro a
  have absent : a ∉ h := by simp [← Finmap.mem_keys, none]
  simp [Finmap.lookup_eq_none.mpr absent]

theorem chain_held {h : Heap (Cell A)} {p : Option Nat} {xs : List (Nat × A)}
    (chain : Chain h p xs) {x : Nat × A} (member : x ∈ xs) :
    ∃ next, h.lookup x.1 = some ⟨next, x.2⟩ := by
  induction xs generalizing p with
  | nil => simp at member
  | cons y rest ih =>
    obtain ⟨_, next, held, later⟩ := chain
    rcases List.mem_cons.mp member with rfl | member
    · exact ⟨next, held⟩
    · exact ih later member

theorem chain_congr {h h' : Heap (Cell A)} {p : Option Nat} {xs : List (Nat × A)}
    (chain : Chain h p xs) (same : ∀ a ∈ xs.map Prod.fst, h'.lookup a = h.lookup a) :
    Chain h' p xs := by
  induction xs generalizing p with
  | nil => exact chain
  | cons y rest ih =>
    obtain ⟨at_head, next, held, later⟩ := chain
    simp only [List.map_cons, List.mem_cons, forall_eq_or_imp] at same
    exact ⟨at_head, next, same.1.trans held, ih later same.2⟩

theorem chain_unique {h : Heap (Cell A)} {p : Option Nat} {xs ys : List (Nat × A)}
    (one : Chain h p xs) (two : Chain h p ys) : xs = ys := by
  induction xs generalizing p ys with
  | nil =>
    cases ys with
    | nil => rfl
    | cons y _ =>
      obtain rfl := one
      exact absurd two.1 (by simp)
  | cons x rest ih =>
    obtain ⟨rfl, next, held, later⟩ := one
    cases ys with
    | nil => exact absurd two (by simp [Chain])
    | cons y more =>
      obtain ⟨same, next', held', later'⟩ := two
      obtain ⟨a, u⟩ := x
      obtain ⟨b, v⟩ := y
      obtain rfl : a = b := Option.some.inj same
      rw [held] at held'
      obtain ⟨rfl, rfl⟩ : next = next' ∧ u = v := by simpa using held'
      rw [ih later later']

theorem chain_suffix {h : Heap (Cell A)} {p : Option Nat} {xs ys : List (Nat × A)}
    (chain : Chain h p (xs ++ ys)) : ∃ q, Chain h q ys := by
  induction xs generalizing p with
  | nil => exact ⟨p, chain⟩
  | cons _ rest ih =>
    obtain ⟨_, _, _, later⟩ := chain
    exact ih later

theorem chain_next {h : Heap (Cell A)} {p : Option Nat} {front back : List (Nat × A)}
    {x : Nat × A} (chain : Chain h p (front ++ x :: back)) :
    h.lookup x.1 = some ⟨back.head?.map Prod.fst, x.2⟩ := by
  obtain ⟨q, _, next, held, later⟩ := chain_suffix chain
  cases back with
  | nil =>
    obtain rfl := later
    exact held
  | cons y rest =>
    obtain rfl := later.1
    exact held

theorem chain_nodup {h : Heap (Cell A)} {p : Option Nat} {xs : List (Nat × A)}
    (chain : Chain h p xs) : (xs.map Prod.fst).Nodup := by
  induction xs generalizing p with
  | nil => exact List.nodup_nil
  | cons x rest ih =>
    obtain ⟨rfl, next, held, later⟩ := chain
    simp only [List.map_cons, List.nodup_cons]
    refine ⟨?_, ih later⟩
    intro again
    -- The tail would hold a copy of the whole list that starts at its head.
    obtain ⟨y, member, same⟩ := List.mem_map.mp again
    obtain ⟨front, back, rfl⟩ := List.append_of_mem member
    obtain ⟨q, second⟩ := chain_suffix later
    have here : q = some x.1 := by rw [← same]; exact second.1
    have whole : Chain h q (x :: (front ++ y :: back)) := ⟨here, next, held, later⟩
    have equal := congrArg List.length (chain_unique whole second)
    simp at equal
    omega

theorem chain_length {h : Heap (Cell A)} {p : Option Nat} {xs : List (Nat × A)}
    (chain : Chain h p xs) : xs.length ≤ h.keys.card := by
  have inside : (xs.map Prod.fst).toFinset ⊆ h.keys := by
    intro a member
    obtain ⟨x, listed, rfl⟩ := List.mem_map.mp (List.mem_toFinset.mp member)
    obtain ⟨_, held⟩ := chain_held chain listed
    exact Finmap.mem_keys.mpr (Finmap.mem_of_lookup_eq_some held)
  have counted := Finset.card_le_card inside
  rwa [List.toFinset_card_of_nodup (chain_nodup chain), List.length_map] at counted

theorem search_loop_chain {found : A → Bool} {h : Heap (Cell A)} {fuel : Nat} {p : Option Nat}
    {xs : List (Nat × A)} (chain : Chain h p xs) (enough : xs.length < fuel) :
    searchLoop found h fuel p = some ((xs.find? (fun x => found x.2)).map Prod.fst) := by
  induction xs generalizing p fuel with
  | nil =>
    obtain rfl := chain
    simp [searchLoop]
  | cons x rest ih =>
    obtain ⟨rfl, next, held, later⟩ := chain
    obtain ⟨fuel, rfl⟩ : ∃ n, fuel = n + 1 := ⟨fuel - 1, by omega⟩
    have tail := ih later (Nat.lt_of_succ_lt_succ enough)
    by_cases hit : found x.2
    · simp [searchLoop, held, hit]
    · simp [searchLoop, held, hit, tail]

theorem search_chain {found : A → Bool} {h : Heap (Cell A)} {p : Option Nat}
    {xs : List (Nat × A)} (chain : Chain h p xs) :
    search found h p = some ((xs.find? (fun x => found x.2)).map Prod.fst) :=
  search_loop_chain chain (Nat.lt_succ_of_le (chain_length chain))

def without (target : Nat) (xs : List (Nat × A)) : List (Nat × A) :=
  xs.filter (fun x => x.1 ≠ target)

theorem without_absent {target : Nat} {xs : List (Nat × A)}
    (absent : target ∉ xs.map Prod.fst) : without target xs = xs := by
  refine List.filter_eq_self.mpr ?_
  intro x member
  simp only [ne_eq, decide_not, Bool.not_eq_true', decide_eq_false_iff_not]
  rintro rfl
  exact absent (List.mem_map_of_mem member)

theorem without_head {x : Nat × A} {rest : List (Nat × A)}
    (absent : x.1 ∉ rest.map Prod.fst) : without x.1 (x :: rest) = rest := by
  have dropped : without x.1 (x :: rest) = without x.1 rest := by simp [without]
  rw [dropped, without_absent absent]

theorem without_behind {target : Nat} {x : Nat × A} {rest : List (Nat × A)}
    (other : x.1 ≠ target) : without target (x :: rest) = x :: without target rest := by
  simp [without, other]

theorem without_split {x : Nat × A} {front back : List (Nat × A)}
    (distinct : ((front ++ x :: back).map Prod.fst).Nodup) :
    without x.1 (front ++ x :: back) = front ++ back := by
  simp only [List.map_append, List.map_cons, List.nodup_append, List.nodup_cons, List.mem_cons]
    at distinct
  obtain ⟨_, ⟨behind, _⟩, ahead⟩ := distinct
  have early : without x.1 front = front :=
    without_absent (fun member => ahead x.1 member x.1 (Or.inl rfl) rfl)
  have late := without_head behind
  simp only [without, List.filter_append] at early late ⊢
  rw [early, late]

theorem mem_without {target a : Nat} {xs : List (Nat × A)} :
    a ∈ (without target xs).map Prod.fst ↔ a ≠ target ∧ a ∈ xs.map Prod.fst := by
  simp only [without, List.mem_map, List.mem_filter, decide_eq_true_eq]
  constructor
  · rintro ⟨x, ⟨member, other⟩, rfl⟩
    exact ⟨other, x, member, rfl⟩
  · rintro ⟨other, x, member, rfl⟩
    exact ⟨x, ⟨member, other⟩, rfl⟩

/-- What taking a cell out of a list leaves on the heap: the cell itself and
    everything outside the list as it was. -/
structure Unlinked (target : Nat) (xs : List (Nat × A)) (h h' : Heap (Cell A)) (p : Option Nat) :
    Prop where
  chain : Chain h' p (without target xs)
  keys : h'.keys = h.keys
  target : h'.lookup target = h.lookup target
  frame : ∀ a, a ∉ xs.map Prod.fst → h'.lookup a = h.lookup a

theorem unlink_loop_chain {target fuel : Nat} {h : Heap (Cell A)} {x : Nat × A}
    {rest : List (Nat × A)} (chain : Chain h (some x.1) (x :: rest)) (other : x.1 ≠ target)
    (member : target ∈ rest.map Prod.fst) (enough : rest.length < fuel) :
    ∃ h', unlinkLoop target fuel (some x.1) h = some (h', true) ∧
      Unlinked target (x :: rest) h h' (some x.1) := by
  induction rest generalizing x fuel with
  | nil => simp at member
  | cons y more ih =>
    have distinct := chain_nodup chain
    simp only [List.map_cons, List.nodup_cons, List.mem_cons, not_or] at distinct
    obtain ⟨_, next, held, later⟩ := chain
    have link : next = some y.1 := later.1
    subst link
    obtain ⟨fuel, rfl⟩ : ∃ n, fuel = n + 1 := ⟨fuel - 1, by omega⟩
    by_cases here : y.1 = target
    · obtain ⟨_, next, there, tail⟩ := later
      subst here
      have frame : ∀ a, a ≠ x.1 → (h.insert x.1 ⟨next, x.2⟩).lookup a = h.lookup a :=
        fun a ne => Finmap.lookup_insert_of_ne h ne
      refine ⟨h.insert x.1 ⟨next, x.2⟩, ?_, ?_, ?_, ?_, ?_⟩
      · simp [unlinkLoop, held, there, store_allocated held]
      · rw [without_behind other, without_head distinct.2.1]
        refine ⟨rfl, next, Finmap.lookup_insert h, chain_congr tail ?_⟩
        intro a listed
        exact frame a (fun same => distinct.1.2 (same ▸ listed))
      · exact keys_insert_held _ held
      · exact frame y.1 (fun same => distinct.1.1 same.symm)
      · intro a outside
        exact frame a (fun same => outside (by simp [same]))
    · have there : target ∈ more.map Prod.fst :=
        (List.mem_cons.mp member).resolve_left (fun same => here same.symm)
      obtain ⟨h', done, kept⟩ := ih later here there (Nat.lt_of_succ_lt_succ enough)
      have same := kept.frame x.1 (by simpa using distinct.1)
      refine ⟨h', ?_, ?_, kept.keys, kept.target, ?_⟩
      · simp [unlinkLoop, held, here, done]
      · rw [without_behind other]
        exact ⟨rfl, _, same.trans held, kept.chain⟩
      · intro a outside
        exact kept.frame a (fun inside => outside (List.mem_cons_of_mem _ inside))

theorem unlink_chain {target : Nat} {h : Heap (Cell A)} {p : Option Nat} {xs : List (Nat × A)}
    (chain : Chain h p xs) (member : target ∈ xs.map Prod.fst) :
    ∃ h' p', unlink target h p = some (h', p', true) ∧ Unlinked target xs h h' p' := by
  cases xs with
  | nil => simp at member
  | cons x rest =>
    have distinct := chain_nodup chain
    simp only [List.map_cons, List.nodup_cons] at distinct
    have long := chain_length chain
    by_cases here : x.1 = target
    · obtain ⟨rfl, next, held, later⟩ := chain
      subst here
      refine ⟨h, next, by simp [unlink, held], ?_, rfl, rfl, fun _ _ => rfl⟩
      rw [without_head distinct.1]
      exact later
    · have there : target ∈ rest.map Prod.fst :=
        (List.mem_cons.mp member).resolve_left (fun same => here same.symm)
      obtain rfl := chain.1
      obtain ⟨h', done, kept⟩ := unlink_loop_chain chain here there
        (show rest.length < h.keys.card + 1 by simp at long; omega)
      exact ⟨h', some x.1, by simp [unlink, here, done], kept⟩

theorem unlinked_freed {target : Nat} {h h' : Heap (Cell A)} {p p' : Option Nat}
    {xs : List (Nat × A)} (owned : Owns h p xs) (unlinked : Unlinked target xs h h' p') :
    Owns (h'.erase target) p' (without target xs) := by
  constructor
  · refine chain_congr unlinked.chain ?_
    intro a member
    exact Finmap.lookup_erase_ne (mem_without.mp member).1
  · ext a
    rw [Finmap.keys_erase, unlinked.keys, owned.exact, Finset.mem_erase, List.mem_toFinset,
      List.mem_toFinset, mem_without]

theorem chain_spliced {h : Heap (Cell A)} {p : Option Nat} {front back : List (Nat × A)}
    {y : Nat × A} {a : Nat} (x : A) (chain : Chain h p (front ++ y :: back))
    (loose : a ∉ (front ++ y :: back).map Prod.fst) :
    ∃ next, h.lookup y.1 = some ⟨next, y.2⟩ ∧
      Chain ((h.insert a ⟨next, x⟩).insert y.1 ⟨some a, y.2⟩) p
        (front ++ y :: (a, x) :: back) := by
  have kept : ∀ (next : Option Nat) (b : Nat), b ≠ a → b ≠ y.1 →
      ((h.insert a ⟨next, x⟩).insert y.1 ⟨some a, y.2⟩).lookup b = h.lookup b := by
    intro next b apart behind
    rw [Finmap.lookup_insert_of_ne _ behind, Finmap.lookup_insert_of_ne _ apart]
  have distinct := chain_nodup chain
  induction front generalizing p with
  | nil =>
    obtain ⟨rfl, next, held, later⟩ := chain
    simp only [List.nil_append, List.map_cons, List.nodup_cons, List.mem_cons, not_or]
      at distinct loose
    refine ⟨next, held, rfl, some a, Finmap.lookup_insert _, rfl, next, ?_, ?_⟩
    · rw [Finmap.lookup_insert_of_ne _ loose.1, Finmap.lookup_insert]
    · refine chain_congr later ?_
      intro b member
      exact kept next b (fun same => loose.2 (same ▸ member))
        (fun same => distinct.1 (same ▸ member))
  | cons z front ih =>
    obtain ⟨rfl, following, held, later⟩ := chain
    simp only [List.cons_append, List.map_cons, List.nodup_cons, List.mem_cons, not_or]
      at distinct loose
    obtain ⟨next, there, spliced⟩ := ih later loose.2 distinct.2
    have other : z.1 ≠ y.1 := fun same => distinct.1 (by simp [same])
    exact ⟨next, there, rfl, following,
      (kept next z.1 (fun same => loose.1 same.symm) other).trans held, spliced⟩

theorem owns_pushed {h : Heap (Cell A)} {p : Option Nat} {xs : List (Nat × A)} {a : Nat} {x : A}
    (owned : Owns h p xs) (unused : a ∉ h) :
    Owns (h.insert a ⟨p, x⟩) (some a) ((a, x) :: xs) := by
  constructor
  · refine ⟨rfl, p, Finmap.lookup_insert h, chain_congr owned.chain ?_⟩
    intro b member
    refine Finmap.lookup_insert_of_ne h ?_
    rintro rfl
    have held : b ∈ h.keys := by
      rw [owned.exact]
      exact List.mem_toFinset.mpr member
    exact unused (Finmap.mem_keys.mp held)
  · simp [keys_insert, owned.exact]

theorem owns_empty : Owns (∅ : Heap (Cell A)) none [] := ⟨rfl, by simp⟩

theorem owns_nothing {h : Heap (Cell A)} {p : Option Nat} (owned : Owns h p []) :
    h = ∅ ∧ p = none :=
  ⟨empty_of_keys (by simpa using owned.exact), owned.chain⟩

end LinkedCells
