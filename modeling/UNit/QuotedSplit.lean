import Mathlib.Data.List.Basic

/-!
Texts with quoted sections. A quote opens a section that the same quote closes;
inside of it other quotes and delimiters are ordinary. A text is split at the
delimiters outside of such sections, and the quotes that open and close them can
be deleted.
-/
namespace QuotedSplit
variable {A : Type} [DecidableEq A] (isQuote : A → Bool) (delim : A)

def follow : Option A → A → Option A
  | none, c => if isQuote c = true ∧ c ≠ delim then some c else none
  | some q, c => if c = q then none else some q

def openAfter (q : Option A) (text : List A) : Option A := text.foldl (follow isQuote delim) q

/-- The text up to the first delimiter outside of quotes, and what is behind. -/
def cut : Option A → List A → List A × Option (List A)
  | _, [] => ([], none)
  | q, c :: text =>
    if q = none ∧ c = delim then ([], some text)
    else
      let later := cut (follow isQuote delim q c) text
      (c :: later.1, later.2)

def pieces : Option A → List A → List (List A)
  | _, [] => [[]]
  | q, c :: text =>
    if q = none ∧ c = delim then [] :: pieces none text
    else match pieces (follow isQuote delim q c) text with
      | [] => [[c]]
      | piece :: later => (c :: piece) :: later

def unquote : Option A → List A → List A
  | _, [] => []
  | q, c :: text =>
    if follow isQuote delim q c = q then c :: unquote q text
    else unquote (follow isQuote delim q c) text

def Whole (q : Option A) (text : List A) : Prop := (cut isQuote delim q text).2 = none

variable {isQuote delim} {q : Option A} {text piece rest : List A}

theorem pieces_cut (q : Option A) (text : List A) :
    pieces isQuote delim q text = match cut isQuote delim q text with
      | (piece, none) => [piece]
      | (piece, some rest) => piece :: pieces isQuote delim none rest := by
  induction text generalizing q with
  | nil => rfl
  | cons c text ih =>
    by_cases here : q = none ∧ c = delim
    · simp [pieces, cut, here]
    · simp only [pieces, cut, here, ↓reduceIte, ih]
      generalize cut isQuote delim (follow isQuote delim q c) text = later
      obtain ⟨piece, _ | rest⟩ := later <;> rfl

theorem cut_some (found : cut isQuote delim q text = (piece, some rest)) :
    text = piece ++ delim :: rest ∧ openAfter isQuote delim q piece = none ∧
      Whole isQuote delim q piece := by
  induction text generalizing q piece with
  | nil => simp [cut] at found
  | cons c text ih =>
    by_cases here : q = none ∧ c = delim
    · simp only [cut, here, and_self, ↓reduceIte, Prod.mk.injEq, Option.some.injEq] at found
      obtain ⟨rfl, rfl⟩ := found
      exact ⟨by simp [here.2], by simp [openAfter, here.1], rfl⟩
    · simp only [cut, here, ↓reduceIte, Prod.mk.injEq] at found
      obtain ⟨rfl, behind⟩ := found
      obtain ⟨split, closed, whole⟩ := ih (Prod.ext rfl behind)
      refine ⟨by rw [List.cons_append, ← split], closed, ?_⟩
      simpa [Whole, cut, here] using whole

theorem mem_of_mem_cut {c : A} (behind : (cut isQuote delim q text).2 = some rest)
    (member : c ∈ rest) : c ∈ text := by
  have split := (cut_some (Prod.ext rfl behind : cut isQuote delim q text = (_, some rest))).1
  rw [split]
  exact List.mem_append_right _ (List.mem_cons_of_mem _ member)

theorem cut_none (found : cut isQuote delim q text = (piece, none)) :
    text = piece ∧ Whole isQuote delim q text := by
  refine ⟨?_, by rw [Whole, found]⟩
  induction text generalizing q piece with
  | nil =>
    simp only [cut, Prod.mk.injEq, and_true] at found
    exact found
  | cons c text ih =>
    by_cases here : q = none ∧ c = delim
    · simp [cut, here] at found
    · simp only [cut, here, ↓reduceIte, Prod.mk.injEq] at found
      obtain ⟨rfl, behind⟩ := found
      exact congrArg (c :: ·) (ih (Prod.ext rfl behind))

theorem cut_subset (q : Option A) (text : List A) : (cut isQuote delim q text).1 ⊆ text := by
  intro c member
  generalize found : cut isQuote delim q text = first at member
  obtain ⟨piece, _ | rest⟩ := first
  · rw [(cut_none found).1]
    exact member
  · rw [(cut_some found).1]
    exact List.mem_append_left _ member

theorem whole_cons {c : A} : Whole isQuote delim q (c :: text) ↔
    ¬ (q = none ∧ c = delim) ∧ Whole isQuote delim (follow isQuote delim q c) text := by
  by_cases here : q = none ∧ c = delim
  · simp [Whole, cut, here]
  · simp [Whole, cut, here]

theorem open_append (q : Option A) (front back : List A) :
    openAfter isQuote delim q (front ++ back) =
      openAfter isQuote delim (openAfter isQuote delim q front) back :=
  List.foldl_append

theorem open_is_quote {k : A} (start : ∀ k, q = some k → isQuote k = true ∧ k ≠ delim)
    (opened : openAfter isQuote delim q text = some k) : isQuote k = true ∧ k ≠ delim := by
  induction text generalizing q with
  | nil => exact start k opened
  | cons c text ih =>
    refine ih ?_ opened
    intro other found
    cases q with
    | none =>
      simp only [follow] at found
      split at found
      · rename_i quote
        obtain rfl := Option.some.inj found
        exact quote
      · simp at found
    | some inside =>
      simp only [follow] at found
      split at found
      · simp at found
      · obtain rfl := Option.some.inj found
        exact start inside rfl

theorem open_stays {front : List A} (opened : openAfter isQuote delim none front ≠ none) :
    openAfter isQuote delim none (front ++ [delim]) ≠ none := by
  obtain ⟨k, open_⟩ := Option.ne_none_iff_exists'.mp opened
  have other := (open_is_quote (by simp) open_).2
  rw [open_append, open_]
  simp [openAfter, follow, other.symm]

theorem whole_append {front back : List A} : Whole isQuote delim q (front ++ back) ↔
    Whole isQuote delim q front ∧ Whole isQuote delim (openAfter isQuote delim q front) back := by
  induction front generalizing q with
  | nil => simp [Whole, cut, openAfter]
  | cons c front ih =>
    rw [List.cons_append, whole_cons, whole_cons, ih, and_assoc]
    rfl

theorem unquote_append (q : Option A) (front back : List A) :
    unquote isQuote delim q (front ++ back) =
      unquote isQuote delim q front ++
        unquote isQuote delim (openAfter isQuote delim q front) back := by
  induction front generalizing q with
  | nil => simp [unquote, openAfter]
  | cons c front ih =>
    have later : openAfter isQuote delim q (c :: front) =
        openAfter isQuote delim (follow isQuote delim q c) front := rfl
    rw [List.cons_append, unquote, unquote, later]
    split
    · rename_i same
      rw [same, ih, List.cons_append]
    · rw [ih]

theorem cut_append (whole : Whole isQuote delim q piece)
    (closed : openAfter isQuote delim q piece = none) (rest : List A) :
    cut isQuote delim q (piece ++ delim :: rest) = (piece, some rest) := by
  induction piece generalizing q with
  | nil =>
    obtain rfl : q = none := closed
    simp [cut]
  | cons c piece ih =>
    obtain ⟨inside, later⟩ := whole_cons.mp whole
    simp [cut, inside, ih later closed]

theorem pieces_whole (whole : Whole isQuote delim q text) :
    pieces isQuote delim q text = [text] := by
  rw [pieces_cut]
  generalize found : cut isQuote delim q text = first
  obtain ⟨piece, _ | rest⟩ := first
  · simp [(cut_none found).1]
  · simp [Whole, found] at whole

theorem pieces_append (whole : Whole isQuote delim q piece)
    (closed : openAfter isQuote delim q piece = none) (rest : List A) :
    pieces isQuote delim q (piece ++ delim :: rest) =
      piece :: pieces isQuote delim none rest := by
  rw [pieces_cut, cut_append whole closed rest]

def Closed (isQuote : A → Bool) (delim : A) (piece : List A) : Prop :=
  Whole isQuote delim none piece ∧ openAfter isQuote delim none piece = none

instance (isQuote : A → Bool) (delim : A) (piece : List A) :
    Decidable (Closed isQuote delim piece) :=
  inferInstanceAs (Decidable ((cut isQuote delim none piece).2 = none ∧
    openAfter isQuote delim none piece = none))

/-- Induction along the pieces: the text is one piece, or a closed piece with a
    delimiter stands in front of a text the rule has been used for. -/
theorem pieces_rule (isQuote : A → Bool) (delim : A) {motive : List A → Prop}
    (last : ∀ text, Whole isQuote delim none text → motive text)
    (next : ∀ piece rest, Closed isQuote delim piece → motive rest →
      motive (piece ++ delim :: rest)) (text : List A) : motive text := by
  induction counted : text.length using Nat.strongRecOn generalizing text with
  | ind n ih =>
    generalize found : cut isQuote delim none text = first
    obtain ⟨piece, _ | rest⟩ := first
    · exact last text (cut_none found).2
    · obtain ⟨rfl, ended, whole⟩ := cut_some found
      have shorter : rest.length < n := by
        rw [← counted, List.length_append, List.length_cons]
        omega
      exact next piece rest ⟨whole, ended⟩ (ih rest.length shorter rest rfl)

theorem pieces_join {list : List (List A)} (some : list ≠ [])
    (all : ∀ piece ∈ list, Closed isQuote delim piece) :
    pieces isQuote delim none ([delim].intercalate list) = list := by
  induction list with
  | nil => exact absurd rfl some
  | cons piece list ih =>
    obtain ⟨whole, closed⟩ := all piece List.mem_cons_self
    cases list with
    | nil => simpa using pieces_whole whole
    | cons next list =>
      have later := ih (by simp) (fun x member => all x (List.mem_cons_of_mem piece member))
      rw [List.intercalate_cons_cons, List.append_assoc, List.singleton_append,
        pieces_append whole closed, later]

theorem open_delim : follow isQuote delim none delim = none := by simp [follow]

theorem open_behind (closed : openAfter isQuote delim none piece = none) (rest : List A) :
    openAfter isQuote delim none (piece ++ delim :: rest) =
      openAfter isQuote delim none rest := by
  rw [open_append, closed]
  simp [openAfter, open_delim]

theorem pieces_split {front : List A} (closed : openAfter isQuote delim none front = none)
    (text : List A) : pieces isQuote delim none (front ++ delim :: text) =
      pieces isQuote delim none front ++ pieces isQuote delim none text := by
  induction front using pieces_rule isQuote delim with
  | last front whole => rw [pieces_append whole closed, pieces_whole whole, List.singleton_append]
  | next piece rest first ih =>
    have later := ih ((open_behind first.2 rest).symm.trans closed)
    rw [List.append_assoc, List.cons_append, pieces_append first.1 first.2, later,
      pieces_append first.1 first.2, List.cons_append]

theorem open_join {list : List (List A)} (all : ∀ piece ∈ list, Closed isQuote delim piece) :
    openAfter isQuote delim none ([delim].intercalate list) = none := by
  induction list with
  | nil => rfl
  | cons piece list ih =>
    have closed := (all piece List.mem_cons_self).2
    cases list with
    | nil => simpa using closed
    | cons next list =>
      have later := ih (fun x member => all x (List.mem_cons_of_mem piece member))
      rw [List.intercalate_cons_cons, List.append_assoc, open_append, closed, open_append]
      simpa [openAfter, open_delim] using later

theorem pieces_closed (text : List A) (closed : openAfter isQuote delim none text = none) :
    ∀ piece ∈ pieces isQuote delim none text, Closed isQuote delim piece := by
  induction text using pieces_rule isQuote delim with
  | last text whole =>
    rw [pieces_whole whole]
    simpa using ⟨whole, closed⟩
  | next piece rest first ih =>
    rw [pieces_append first.1 first.2]
    intro x member
    rcases List.mem_cons.mp member with rfl | later
    · exact first
    · exact ih ((open_behind first.2 rest).symm.trans closed) x later

theorem pieces_ne_nil (q : Option A) (text : List A) : pieces isQuote delim q text ≠ [] := by
  rw [pieces_cut]
  split <;> simp

theorem join_pieces (text : List A) :
    [delim].intercalate (pieces isQuote delim none text) = text := by
  induction text using pieces_rule isQuote delim with
  | last text whole => simp [pieces_whole whole]
  | next piece rest first ih =>
    obtain ⟨second, others, more⟩ :=
      List.exists_cons_of_ne_nil (@pieces_ne_nil A _ isQuote delim none rest)
    rw [pieces_append first.1 first.2, more, List.intercalate_cons_cons, ← more, ih,
      List.append_assoc, List.singleton_append]

theorem open_piece_last {before after : List (List A)}
    (split : pieces isQuote delim none text = before ++ piece :: after)
    (opened : openAfter isQuote delim none piece ≠ none) : after = [] := by
  induction text using pieces_rule isQuote delim generalizing before with
  | last text whole =>
    rw [pieces_whole whole] at split
    cases before with
    | nil => exact (List.cons.inj split).2.symm
    | cons _ before => simp at split
  | next front rest first ih =>
    rw [pieces_append first.1 first.2] at split
    cases before with
    | nil => exact absurd ((List.cons.inj split).1 ▸ first.2) opened
    | cons _ before => exact ih (List.cons.inj split).2

theorem open_piece_iff (text : List A) :
    (∃ piece ∈ pieces isQuote delim none text, openAfter isQuote delim none piece ≠ none) ↔
      openAfter isQuote delim none text ≠ none := by
  induction text using pieces_rule isQuote delim with
  | last text whole => simp [pieces_whole whole]
  | next front rest first ih =>
    rw [pieces_append first.1 first.2, open_behind first.2, ← ih]
    simp [first.2]

theorem pieces_each_whole (text : List A) :
    ∀ piece ∈ pieces isQuote delim none text, Whole isQuote delim none piece := by
  induction text using pieces_rule isQuote delim with
  | last text whole => simpa [pieces_whole whole] using whole
  | next front rest first ih =>
    rw [pieces_append first.1 first.2]
    intro piece member
    rcases List.mem_cons.mp member with rfl | later
    · exact first.1
    · exact ih piece later

omit [DecidableEq A] in
theorem mem_join {list : List (List A)} {c : A} (member : c ∈ [delim].intercalate list) :
    c = delim ∨ ∃ piece ∈ list, c ∈ piece := by
  induction list with
  | nil => simp at member
  | cons piece list ih =>
    cases list with
    | nil => exact .inr ⟨piece, List.mem_cons_self, by simpa using member⟩
    | cons next list =>
      rw [List.intercalate_cons_cons, List.mem_append, List.mem_append] at member
      rcases member with (here | mark) | later
      · exact .inr ⟨piece, List.mem_cons_self, here⟩
      · exact .inl (List.mem_singleton.mp mark)
      · rcases ih later with mark | ⟨other, among, inside⟩
        · exact .inl mark
        · exact .inr ⟨other, List.mem_cons_of_mem piece among, inside⟩

theorem pieces_subset {text piece : List A} (member : piece ∈ pieces isQuote delim none text) :
    piece ⊆ text := by
  induction text using pieces_rule isQuote delim with
  | last text whole =>
    rw [pieces_whole whole] at member
    rw [List.mem_singleton.mp member]
    exact List.Subset.refl _
  | next front rest first ih =>
    rw [pieces_append first.1 first.2] at member
    rcases List.mem_cons.mp member with rfl | later
    · exact List.subset_append_left _ _
    · exact fun c here => List.mem_append_right _ (List.mem_cons_of_mem delim (ih later here))

theorem unquote_sublist (q : Option A) (text : List A) :
    (unquote isQuote delim q text).Sublist text := by
  induction text generalizing q with
  | nil => exact List.Sublist.refl _
  | cons c text ih =>
    rw [unquote]
    split
    · exact (ih q).cons_cons c
    · exact (ih _).cons c

theorem section_open {k : A} {run : List A} (free : k ∉ run) :
    openAfter isQuote delim (some k) run = some k ∧ Whole isQuote delim (some k) run ∧
      unquote isQuote delim (some k) run = run := by
  induction run with
  | nil => exact ⟨rfl, rfl, rfl⟩
  | cons c run ih =>
    obtain ⟨other, later⟩ : k ≠ c ∧ k ∉ run := by simpa using free
    have still : follow isQuote delim (some k) c = some k := by simp [follow, other.symm]
    obtain ⟨opened, whole, same⟩ := ih later
    refine ⟨?_, ?_, ?_⟩
    · simpa [openAfter, still] using opened
    · rw [whole_cons, still]
      exact ⟨by simp, whole⟩
    · simp [unquote, still, same]

theorem section_closed {k : A} {run : List A} (quote : isQuote k = true) (other : k ≠ delim)
    (free : k ∉ run) : Closed isQuote delim (k :: (run ++ [k])) ∧
      unquote isQuote delim none (k :: (run ++ [k])) = run := by
  obtain ⟨opened, whole, same⟩ : openAfter isQuote delim (some k) run = some k ∧
      Whole isQuote delim (some k) run ∧ unquote isQuote delim (some k) run = run :=
    section_open free
  have opens : follow isQuote delim none k = some k := by simp [follow, quote, other]
  have closes : follow isQuote delim (some k) k = none := by simp [follow]
  refine ⟨⟨?_, ?_⟩, ?_⟩
  · rw [whole_cons, opens, whole_append, opened, whole_cons]
    exact ⟨by simp [other], whole, by simp, rfl⟩
  · have ended : openAfter isQuote delim (some k) (run ++ [k]) = none := by
      rw [open_append, opened]
      exact closes
    simpa [openAfter, opens] using ended
  · have ended : unquote isQuote delim (some k) (run ++ [k]) = run := by
      rw [unquote_append, opened, same]
      simp [unquote, closes]
    simp [unquote, opens, ended]

theorem closed_append {front back : List A} (first : Closed isQuote delim front)
    (second : Closed isQuote delim back) : Closed isQuote delim (front ++ back) ∧
      unquote isQuote delim none (front ++ back) =
        unquote isQuote delim none front ++ unquote isQuote delim none back := by
  refine ⟨⟨?_, ?_⟩, ?_⟩
  · rw [whole_append, first.2]
    exact ⟨first.1, second.1⟩
  · rw [open_append, first.2, second.2]
  · rw [unquote_append, first.2]

def piecesLeft (isQuote : A → Bool) (delim : A) : Option (List A) → List (List A)
  | none => []
  | some rest => pieces isQuote delim none rest

def ClosedLeft (isQuote : A → Bool) (delim : A) : Option (List A) → Prop
  | none => True
  | some rest => openAfter isQuote delim none rest = none

instance (isQuote : A → Bool) (delim : A) (left : Option (List A)) :
    Decidable (ClosedLeft isQuote delim left) :=
  match left with
  | none => isTrue trivial
  | some rest => inferInstanceAs (Decidable (openAfter isQuote delim none rest = none))

theorem pieces_left_some (rest : List A) :
    piecesLeft isQuote delim (some rest) = (cut isQuote delim none rest).1 ::
      piecesLeft isQuote delim (cut isQuote delim none rest).2 := by
  rw [piecesLeft, pieces_cut]
  generalize cut isQuote delim none rest = first
  obtain ⟨piece, _ | later⟩ := first <;> rfl

theorem closed_left_some (rest : List A) : ClosedLeft isQuote delim (some rest) ↔
    openAfter isQuote delim none (cut isQuote delim none rest).1 = none ∧
      ClosedLeft isQuote delim (cut isQuote delim none rest).2 := by
  generalize found : cut isQuote delim none rest = first
  obtain ⟨piece, _ | later⟩ := first
  · simp [ClosedLeft, (cut_none found).1]
  · obtain ⟨rfl, ended, _⟩ := cut_some found
    simp only [ClosedLeft, ended, true_and]
    rw [open_behind ended]

def wholePieces (isQuote : A → Bool) (delim : A) (left : Option (List A)) : List (List A) :=
  if ClosedLeft isQuote delim left then piecesLeft isQuote delim left
  else (piecesLeft isQuote delim left).dropLast

theorem whole_pieces_open {rest : List A}
    (unfinished : openAfter isQuote delim none (cut isQuote delim none rest).1 ≠ none) :
    ¬ ClosedLeft isQuote delim (some rest) ∧ wholePieces isQuote delim (some rest) = [] := by
  have unclosed : ¬ ClosedLeft isQuote delim (some rest) :=
    fun closed => unfinished ((closed_left_some rest).mp closed).1
  refine ⟨unclosed, ?_⟩
  rw [wholePieces, if_neg unclosed, pieces_left_some]
  generalize found : cut isQuote delim none rest = first at unfinished
  obtain ⟨piece, _ | later⟩ := first
  · rfl
  · exact absurd (cut_some found).2.1 unfinished

theorem whole_pieces_some {rest : List A}
    (ended : openAfter isQuote delim none (cut isQuote delim none rest).1 = none) :
    wholePieces isQuote delim (some rest) = (cut isQuote delim none rest).1 ::
      wholePieces isQuote delim (cut isQuote delim none rest).2 := by
  have closed : ClosedLeft isQuote delim (some rest) ↔
      ClosedLeft isQuote delim (cut isQuote delim none rest).2 := by
    simp [closed_left_some rest, ended]
  rw [wholePieces, wholePieces, pieces_left_some]
  by_cases all : ClosedLeft isQuote delim (cut isQuote delim none rest).2
  · rw [if_pos (closed.mpr all), if_pos all]
  · rw [if_neg (all ∘ closed.mp), if_neg all]
    cases more : (cut isQuote delim none rest).2 with
    | none => exact absurd (more ▸ trivial) all
    | some later => rw [pieces_left_some, List.dropLast_cons_cons]

theorem left_rule (isQuote : A → Bool) (delim : A) {motive : Option (List A) → Prop}
    (ended : motive none)
    (next : ∀ rest, motive (cut isQuote delim none rest).2 → motive (some rest))
    (left : Option (List A)) : motive left := by
  cases left with
  | none => exact ended
  | some rest =>
    induction rest using pieces_rule isQuote delim with
    | last rest whole => exact next rest (whole.symm ▸ ended)
    | next piece rest first ih =>
      apply next
      rw [cut_append first.1 first.2]
      exact ih

end QuotedSplit
