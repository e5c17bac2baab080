import TextureMemory.Memory.Heap
import TextureMemory.Texture.Basic
import TextureMemory.Texture.Error

/-!
# The purge policy

The device may still be reading memory that it sampled a few frames ago. So a texture that was
sampled within the last frames gets a new block before its pixels are written again, and the old
block is given up; a texture that was not keeps its block.
-/

namespace TextureMemory

/-- When a texture gets a new block, and where from. -/
structure Policy where
  /-- The frames for which a sampled texture counts as recently used. -/
  threshold : Nat
  /-- The row alignment, in pixels. -/
  unit : Nat
  /-- The memory that blocks are asked from. -/
  request : MemoryClass
deriving DecidableEq, Repr

/-- How the memory of a texture was found. -/
inductive Resolution where
  /-- The texture keeps its block. -/
  | reused (address : Address)
  /-- The texture has a new block of `size` bytes in the place of another. -/
  | reclaimed (address previous : Address) (size : Nat)
deriving DecidableEq, Repr

namespace Resolution

/-- The address of the texture's block. -/
def address : Resolution → Address
  | reused address | reclaimed address _ _ => address

/-- Whether the texture has a new block. -/
def isReclaimed : Resolution → Bool
  | reused _ => false
  | reclaimed .. => true

end Resolution

namespace Policy

/-- The policy with these choices. A row alignment that is no power of two halts the program. -/
def choose (threshold unit : Nat) (request : MemoryClass) : Except Fault Policy := do
  Alignment.require unit
  return ⟨threshold, unit, request⟩

/-- The policy unless another is chosen. -/
def standard : Policy := ⟨30, Surface.standardUnit, .main⟩

/-- Whether a stamp is recent enough for the block to be replaced. -/
def reclaims (p : Policy) (stamp : Stamp) (current : Nat) : Bool :=
  match stamp.elapsed? current with
  | none => false
  | some elapsed => elapsed ≤ p.threshold

/-- The bytes of a surface, or the error that no machine word can tell them. -/
def size (p : Policy) (format : Format) (width height : Nat) :
    Except Fault (Except TextureError Nat) := do
  match ← Surface.size? width height format p.unit with
  | some size => return .ok size
  | none => return .error (.invalidDimensions width height)

/-- Finds the block that a texture may be written to in the current frame: its own, or another that
takes the place of its own. -/
def resolve (p : Policy) (t : Texture) (heap : Heap) (current : Nat) :
    Except Fault (Reply Heap TextureError Resolution) := do
  let some previous := t.backing
    | return (.error (.undefined t.slot), heap)
  if !p.reclaims t.stamp current then
    return (.ok (.reused previous), heap)
  match ← p.size t.handle.format t.handle.width t.handle.height with
  | .error e => return (.error e, heap)
  | .ok size =>
    match ← heap.exchange (some previous) size p.request with
    | (.error e, heap) => return (.error (.memory e.cause), heap)
    | (.ok fresh, heap) => return (.ok (.reclaimed fresh previous size), heap)

end Policy

end TextureMemory
