import TextureMemory.Word

/-!
# Alignment

Rounding to multiples of a unit. A unit is a power of two: asking for any other halts the program.
Where rounding up leaves the range of a word, `Alignment.up` halts too, and `Alignment.up?` answers
`none`. The two part ways at one sum only: `up` adds the whole unit before it takes one away, so it
halts where value and unit together just reach the limit, and `up?` does not.
-/

namespace TextureMemory.Alignment

/-- The largest multiple of `unit` that is at most `value`. -/
def down (value unit : Nat) : Nat := value / unit * unit

/-- Halts the program unless `unit` is a power of two. -/
def require (unit : Nat) : Except Fault Unit :=
  if unit.isPowerOfTwo then .ok () else .error .misaligned

/-- Rounds `value` up to a multiple of `unit`. -/
def up (value unit : Nat) : Except Fault Nat := do
  require unit
  let beyond ← Word.add value unit
  let last ← Word.sub beyond 1
  return down last unit

/-- Rounds `value` up to a multiple of `unit`, if that is a word. -/
def up? (value unit : Nat) : Except Fault (Option Nat) := do
  require unit
  return (Word.add? value (unit - 1)).map (down · unit)

/-- Halts the program unless rounding up leaves `value` where it is. -/
def requireAligned (value unit : Nat) : Except Fault Unit := do
  if value = (← up value unit) then return () else throw .misaligned

end TextureMemory.Alignment
