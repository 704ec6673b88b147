import Mathlib.Data.List.TakeWhile

/-!
Reading a stream of the C library. The bytes still to be read are a list; what
comes behind the last of them is the end of the file or a read error. Both
functions here note the end of the file when they look beyond the last byte,
and not before: a scan that is satisfied with its width does not look further.
-/
namespace StdioStream

structure Stream where
  rest : List UInt8
  eof : Bool
  broken : Bool
  deriving DecidableEq, Repr

def Stream.opened (content : List UInt8) : Stream := ⟨content, false, false⟩

def Stream.exhausted (s : Stream) : Stream := if s.broken then s else { s with eof := true }

def fgetc (s : Stream) : Option UInt8 × Stream :=
  match s.rest with
  | [] => (none, s.exhausted)
  | c :: rest => (some c, { s with rest := rest })

/-- What a scan of one item returns: EOF, 0 or 1 with the bytes of the item. -/
inductive Scanned where
  | eof
  | mismatch
  | item (bytes : List UInt8)
  deriving DecidableEq, Repr

/-- fscanf of a nonempty run of at most width bytes other than stop. -/
def fscanfUntil (stop : UInt8) (width : Nat) (s : Stream) : Scanned × Stream :=
  let taken := (s.rest.take width).takeWhile (fun c => c ≠ stop)
  let left := { s with rest := s.rest.drop taken.length }
  match taken with
  | [] => if s.rest = [] then (.eof, s.exhausted) else (.mismatch, s)
  | _ :: _ =>
    (.item taken, if taken.length < width ∧ left.rest = [] then left.exhausted else left)

theorem fgetc_opened (c : UInt8) (rest : List UInt8) :
    fgetc (.opened (c :: rest)) = (some c, .opened rest) := rfl

theorem fgetc_shrinks {s : Stream} {c : UInt8} (read : (fgetc s).1 = some c) :
    (fgetc s).2.rest.length < s.rest.length := by
  unfold fgetc at read ⊢
  split at read
  · simp at read
  · rename_i rest
    simp [rest]

theorem fgetc_rest_le (s : Stream) : (fgetc s).2.rest.length ≤ s.rest.length := by
  unfold fgetc
  split
  · rename_i rest
    simp only [Stream.exhausted]
    split <;> simp
  · rename_i rest
    simp [rest]

variable {stop : UInt8} {width : Nat}

theorem scan_rest_le (s : Stream) :
    (fscanfUntil stop width s).2.rest.length ≤ s.rest.length := by
  simp only [fscanfUntil, Stream.exhausted]
  split
  · split
    · split <;> simp
    · simp
  · split
    · split <;> simp
    · simp

theorem scan_fgetc_shrinks (s : Stream) (more : (fscanfUntil stop width s).1 ≠ .eof) :
    (fgetc (fscanfUntil stop width s).2).2.rest.length < s.rest.length := by
  simp only [fscanfUntil] at more ⊢
  split at more
  · split at more
    · simp at more
    · rename_i nothing nonempty
      simp only [nonempty, ↓reduceIte]
      obtain ⟨c, rest, split⟩ := List.exists_cons_of_ne_nil nonempty
      simp [fgetc, split]
  · rename_i c taken run
    have some : 0 < ((s.rest.take width).takeWhile (fun c => c ≠ stop)).length := by
      rw [run]
      exact Nat.zero_lt_succ taken.length
    have inside : 0 < s.rest.length := by
      apply Nat.pos_of_ne_zero
      intro empty
      simp [List.length_eq_zero_iff.mp empty] at some
    simp only [run] at some ⊢
    refine Nat.lt_of_le_of_lt (fgetc_rest_le _) ?_
    simp only [Stream.exhausted]
    split
    · split <;> simp <;> omega
    · simp; omega

theorem scan_at_end {s : Stream} (empty : s.rest = []) :
    fscanfUntil stop width s = (.eof, s.exhausted) := by
  simp [fscanfUntil, empty]

theorem scan_at_stop (s : Stream) (rest : List UInt8) (here : s.rest = stop :: rest) :
    fscanfUntil stop width s = (.mismatch, s) := by
  cases width <;> simp [fscanfUntil, here]

theorem item_taken {line rest : List UInt8} (clean : stop ∉ line) (fits : line.length ≤ width)
    (ends : rest = [] ∨ rest.head? = some stop ∨ line.length = width) :
    ((line ++ rest).take width).takeWhile (fun c => c ≠ stop) = line := by
  have others : ∀ c ∈ line, decide (c ≠ stop) = true := by
    intro c member
    have other : c ≠ stop := fun same => clean (same ▸ member)
    simpa using other
  rw [List.take_append, List.take_of_length_le fits, List.takeWhile_append_of_pos others]
  rcases ends with rfl | stopped | filled
  · simp
  · cases rest with
    | nil => simp
    | cons c more =>
      obtain rfl := Option.some.inj stopped
      cases width - line.length <;> simp
  · simp [filled]

theorem scan_item {s : Stream} {line rest : List UInt8} (split : s.rest = line ++ rest)
    (clean : stop ∉ line) (nonempty : line ≠ []) (fits : line.length ≤ width)
    (ends : rest = [] ∨ rest.head? = some stop ∨ line.length = width) :
    fscanfUntil stop width s = (.item line,
      if line.length < width ∧ rest = [] then ({ s with rest := rest } : Stream).exhausted
      else { s with rest := rest }) := by
  have taken := item_taken clean fits ends
  unfold fscanfUntil
  simp only [split, taken, List.drop_left]
  cases line with
  | nil => exact absurd rfl nonempty
  | cons _ _ => rfl

end StdioStream
