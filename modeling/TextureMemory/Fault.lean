/-!
# Faults and replies

A call may end in three ways. It answers; it fails with an error of the domain, which its caller
sees and may act on; or it halts the program with a `Fault`, which nothing catches. The first two
leave a state behind, and a call that fails need not leave the one it found.
-/

namespace TextureMemory

/-- Why a program halts instead of answering. -/
inductive Fault where
  /-- The result of a sum or a difference is no machine word. -/
  | overflow
  /-- An index lies outside its table, or a range of bytes outside its buffer. -/
  | outOfRange
  /-- An alignment is not a power of two, or an address is not aligned. -/
  | misaligned
  /-- The number of samples is zero where a mean divides by it. -/
  | divisionByZero
  /-- A table would take more bytes than the addresses within it can tell apart. -/
  | tooLarge
deriving DecidableEq, Repr

/-- What a call on a state of type `σ` leaves when it does not halt the program: an answer of type
`α` or an error of type `ε`, and the state. -/
abbrev Reply (σ ε α : Type) := Except ε α × σ

end TextureMemory
