import TextureMemory.Alignment
import TextureMemory.Surface.Format

/-!
# The size of a surface

The rows of a surface are padded to a whole number of alignment units, counted in pixels. A stride
or a size that is no machine word is answered by `none`; a unit that is not a power of two halts the
program.
-/

namespace TextureMemory.Surface

/-- The row alignment, in pixels, unless another is chosen. -/
def standardUnit : Nat := 8

/-- The bytes from the start of one row to the start of the next. -/
def stride? (width : Nat) (format : Format) (unit : Nat) : Except Fault (Option Nat) := do
  return (← Alignment.up? width unit).bind (Word.mul? · format.bytesPerPixel)

/-- The bytes that a surface takes. -/
def size? (width height : Nat) (format : Format) (unit : Nat) : Except Fault (Option Nat) := do
  return (← stride? width format unit).bind (Word.mul? · height)

end TextureMemory.Surface
