import Mathlib.Algebra.Group.Int.Defs
import Mathlib.Algebra.Group.Nat.Defs
import Mathlib.Data.List.Basic

/-!
The record init sends to the safe-mode placeholder and the loop that writes it
to the pipe. The answers of write(2) are an input, one for each call, so every
split of the record and every interruption is covered. A pipe without a reader
answers EPIPE; SIGPIPE has no effect on process 1.
-/
namespace SafeModeRecord

/-- The struct as execute_safe_mode fills it: the name as far as the array
    holds it in front of its terminator, and the signal. -/
structure SharedInfo where
  processName : List UInt8
  signal : Int
  deriving DecidableEq, Repr

def processNameSize : Nat := 1024
def sizeofSharedInfo : Nat := processNameSize + 4

def fillSharedInfo (failedProcessCmd : List UInt8) (sig : Int) : SharedInfo :=
  ⟨failedProcessCmd.take (processNameSize - 1), sig⟩

def intBytes (n : Int) : List UInt8 :=
  let word := (n % 2 ^ 32).toNat
  [UInt8.ofNat word, UInt8.ofNat (word / 2 ^ 8), UInt8.ofNat (word / 2 ^ 16),
    UInt8.ofNat (word / 2 ^ 24)]

def SharedInfo.bytes (info : SharedInfo) : List UInt8 :=
  (info.processName ++ List.replicate (processNameSize - info.processName.length) 0) ++
    intBytes info.signal

theorem fill_bytes_length (name : List UInt8) (sig : Int) :
    (fillSharedInfo name sig).bytes.length = sizeofSharedInfo := by
  simp only [fillSharedInfo, SharedInfo.bytes, intBytes, List.length_append, List.length_take,
    List.length_replicate, List.length_cons, List.length_nil, sizeofSharedInfo, processNameSize]
  omega

inductive WriteAnswer where
  | wrote (count : Nat)
  | eintr
  | failed
  deriving DecidableEq, Repr

/-- The write loop from a given offset: its result and the offset it stopped at.
    When the answers run out the pending call fails. -/
def writeLoop (readOpen : Bool) : List WriteAnswer → Nat → Bool × Nat
  | [], written => (decide (written = sizeofSharedInfo), written)
  | answer :: rest, written =>
    if written = sizeofSharedInfo then (true, written)
    else match answer with
      | .eintr => writeLoop readOpen rest written
      | .failed => (false, written)
      | .wrote count =>
        if readOpen then
          let size := min count (sizeofSharedInfo - written)
          if size = 0 then (false, written) else writeLoop readOpen rest (written + size)
        else (false, written)

theorem writeLoop_complete {readOpen : Bool} {answers : List WriteAnswer} {written : Nat}
    (done : (writeLoop readOpen answers written).1 = true) :
    (writeLoop readOpen answers written).2 = sizeofSharedInfo := by
  induction answers generalizing written with
  | nil => simpa [writeLoop] using done
  | cons answer rest ih =>
    simp only [writeLoop] at done ⊢
    split at done
    · simp [*]
    · rename_i unfinished
      simp only [unfinished, ↓reduceIte]
      cases answer with
      | eintr => exact ih done
      | failed => simp at done
      | wrote count =>
        cases readOpen with
        | false => simp at done
        | true =>
          simp only [↓reduceIte] at done ⊢
          split at done
          · simp at done
          · rename_i moved
            simp only [moved, ↓reduceIte]
            exact ih done

end SafeModeRecord
