import Mathlib.Algebra.Group.Int.Defs
import Mathlib.Algebra.Group.Nat.Defs
import Mathlib.Data.List.TakeWhile

/-!
Decimal numbers in C strings: strtol with base 10 on a 64-bit long, and the
conversion %d. A string is its bytes in front of the terminator, so that the
end pointer of strtol is the part of the string it points at.
-/
namespace DecimalText

def longMax : Int := 2 ^ 63 - 1
def longMin : Int := -2 ^ 63

def isSpace (c : UInt8) : Bool := c == 32 || (9 ≤ c && c ≤ 13)

def isDigit (c : UInt8) : Bool := 48 ≤ c && c ≤ 57

def valueFrom : Nat → List UInt8 → Nat
  | sofar, [] => sofar
  | sofar, c :: digits => valueFrom (10 * sofar + (c.toNat - 48)) digits

/-- The result of strtol, the string its end pointer points at and whether it
    sets errno to ERANGE. -/
structure Converted where
  value : Int
  endPtr : List UInt8
  erange : Bool
  deriving DecidableEq, Repr

def takeSign : List UInt8 → Bool × List UInt8
  | [] => (false, [])
  | c :: rest => if c = 45 then (true, rest) else if c = 43 then (false, rest) else (false, c :: rest)

def strtol (s : List UInt8) : Converted :=
  let signed := takeSign (s.dropWhile isSpace)
  let digits := signed.2.takeWhile isDigit
  let value : Int := if signed.1 then -(valueFrom 0 digits) else valueFrom 0 digits
  let endPtr := signed.2.dropWhile isDigit
  if digits = [] then ⟨0, s, false⟩
  else if value > longMax then ⟨longMax, endPtr, true⟩
  else if value < longMin then ⟨longMin, endPtr, true⟩
  else ⟨value, endPtr, false⟩

def byteOf (c : Char) : UInt8 := UInt8.ofNat c.toNat

def ascii (s : String) : List UInt8 := s.toList.map byteOf

def decimal (n : Nat) : List UInt8 := (Nat.toDigits 10 n).map byteOf

def formatInt (n : Int) : List UInt8 := if n < 0 then 45 :: decimal n.natAbs else decimal n.natAbs

theorem digit_byte {c : Char} (digit : c.isDigit = true) :
    (byteOf c).toNat = c.toNat ∧ isDigit (byteOf c) = true := by
  simp only [Char.isDigit, Bool.and_eq_true, decide_eq_true_eq] at digit
  have low : 48 ≤ c.toNat := digit.1
  have high : c.toNat ≤ 57 := digit.2
  have same : (byteOf c).toNat = c.toNat := by
    simp only [byteOf, UInt8.toNat_ofNat']
    omega
  refine ⟨same, ?_⟩
  simp only [isDigit, Bool.and_eq_true, decide_eq_true_eq, UInt8.le_iff_toNat_le, same]
  exact ⟨low, high⟩

theorem value_of_chars (digits : List Char) (all : ∀ c ∈ digits, c.isDigit = true) (sofar : Nat) :
    valueFrom sofar (digits.map byteOf) = Nat.ofDigitChars 10 digits sofar := by
  induction digits generalizing sofar with
  | nil => rfl
  | cons c digits ih =>
    have same : (byteOf c).toNat = c.toNat := (digit_byte (all c List.mem_cons_self)).1
    have later := ih (fun d member => all d (List.mem_cons_of_mem c member))
      (10 * sofar + (c.toNat - 48))
    have zero : '0'.toNat = 48 := by decide
    have byte : valueFrom sofar ((c :: digits).map byteOf) =
        valueFrom (10 * sofar + (c.toNat - 48)) (digits.map byteOf) := by
      rw [← same]
      rfl
    have char : Nat.ofDigitChars 10 (c :: digits) sofar =
        Nat.ofDigitChars 10 digits (10 * sofar + (c.toNat - '0'.toNat)) := Nat.ofDigitChars_cons
    rw [zero] at char
    rw [byte, later, char]

theorem decimal_digits {n : Nat} : ∀ c ∈ decimal n, isDigit c = true := by
  intro c member
  obtain ⟨char, digit, rfl⟩ := List.mem_map.mp member
  exact (digit_byte (Nat.isDigit_of_mem_toDigits (by decide) (by decide) digit)).2

theorem decimal_ne_nil (n : Nat) : decimal n ≠ [] := by
  simp [decimal, Nat.toDigits_ne_nil]

theorem value_decimal (n : Nat) : valueFrom 0 (decimal n) = n := by
  rw [decimal, value_of_chars _ fun c digit =>
    Nat.isDigit_of_mem_toDigits (by decide) (by decide) digit]
  exact Nat.ofDigitChars_ten_toDigits

theorem digit_not_space {c : UInt8} (digit : isDigit c = true) : isSpace c = false := by
  simp only [isDigit, Bool.and_eq_true, decide_eq_true_eq, UInt8.le_iff_toNat_le] at digit
  have low : 48 ≤ c.toNat := digit.1
  simp only [isSpace, Bool.or_eq_false_iff, Bool.and_eq_false_iff, decide_eq_false_iff_not,
    UInt8.le_iff_toNat_le, beq_eq_false_iff_ne]
  refine ⟨?_, .inr ?_⟩
  · rintro rfl
    simp at low
  · intro high
    have : c.toNat ≤ 13 := high
    omega

theorem strtol_digits {digits : List UInt8} (some : digits ≠ [])
    (all : ∀ c ∈ digits, isDigit c = true) (fits : (valueFrom 0 digits : Int) ≤ longMax) :
    strtol digits = ⟨valueFrom 0 digits, [], false⟩ := by
  obtain ⟨c, rest, rfl⟩ := List.exists_cons_of_ne_nil some
  have first := all c List.mem_cons_self
  have plain : takeSign ((c :: rest).dropWhile isSpace) = (false, c :: rest) := by
    have unsigned : c ≠ 45 ∧ c ≠ 43 := by
      constructor <;> (rintro rfl; simp [isDigit] at first)
    simp [digit_not_space first, takeSign, unsigned.1, unsigned.2]
  have taken : (c :: rest).takeWhile isDigit = c :: rest := List.takeWhile_eq_self_iff.mpr all
  have left : (c :: rest).dropWhile isDigit = [] := List.dropWhile_eq_nil_iff.mpr all
  have positive : ¬ (valueFrom 0 (c :: rest) : Int) < longMin := by
    simp only [longMin]
    omega
  simp only [strtol, plain, taken, left, Bool.false_eq_true, ↓reduceIte, List.cons_ne_nil]
  rw [if_neg (Int.not_lt.mpr fits), if_neg positive]

theorem strtol_decimal {n : Nat} (fits : (n : Int) ≤ longMax) :
    strtol (decimal n) = ⟨n, [], false⟩ := by
  rw [strtol_digits (decimal_ne_nil n) decimal_digits (by rwa [value_decimal]), value_decimal]

end DecimalText
