import TextureMemory.Memory.Heap
import TextureMemory.Texture.Slot

/-!
# Errors of texture calls
-/

namespace TextureMemory

/-- Why a texture call fails. -/
inductive TextureError where
  /-- There are only `count` texture units. -/
  | unitOutOfRange (unit count : Nat)
  /-- Nothing is bound to the unit. -/
  | notBound (unit : Nat)
  /-- The slot names no texture. -/
  | unknownSlot (slot : Slot)
  /-- The texture has no memory yet. -/
  | undefined (slot : Slot)
  /-- A surface of these dimensions is empty, or larger than a machine word can tell. -/
  | invalidDimensions (width height : Nat)
  /-- The heap refused. -/
  | memory (cause : HeapError)
deriving DecidableEq, Repr

/-- The text of an error; one of the heap speaks for itself. -/
def TextureError.message : TextureError → String
  | unitOutOfRange unit count => s!"texture unit {unit} out of range (have {count})"
  | notBound unit => s!"no texture bound to unit {unit}"
  | unknownSlot slot => s!"texture slot {slot.text} does not exist"
  | undefined slot => s!"texture slot {slot.text} has no backing store"
  | invalidDimensions width height => s!"invalid texture dimensions {width}x{height}"
  | memory cause => cause.message

end TextureMemory
