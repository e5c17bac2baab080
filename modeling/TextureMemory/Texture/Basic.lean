import TextureMemory.Memory.Address
import TextureMemory.Surface.Size
import TextureMemory.Texture.Slot
import TextureMemory.Texture.Stamp

/-!
# Textures

A texture owns the block of memory at its `backing` address. The device works from a handle of its
own, which holds the layout of the surface and the address of its data.
-/

namespace TextureMemory

/-- What the device knows of a texture. -/
structure Handle where
  /-- The layout of a pixel. -/
  format : Format
  /-- The pixels of a row. -/
  width : Nat
  /-- The number of rows. -/
  height : Nat
  /-- The address of the first row. -/
  data : Option Address
deriving DecidableEq, Repr

/-- A handle that was never set up. -/
def Handle.blank : Handle := ⟨.abgr8888, 0, 0, none⟩

/-- A texture and its memory. -/
structure Texture where
  /-- The name of the texture. -/
  slot : Slot
  /-- What the device knows of it. -/
  handle : Handle
  /-- The address of the block that it owns. -/
  backing : Option Address
  /-- When the device last sampled that block. -/
  stamp : Stamp
deriving DecidableEq, Repr

namespace Texture

/-- A texture without memory. -/
def blank (slot : Slot) : Texture := ⟨slot, .blank, none, .unused⟩

/-- The bytes from the start of one row to the start of the next. -/
def stride? (t : Texture) (unit : Nat) : Except Fault (Option Nat) :=
  Surface.stride? t.handle.width t.handle.format unit

/-- The bytes of the surface. -/
def size? (t : Texture) (unit : Nat) : Except Fault (Option Nat) :=
  Surface.size? t.handle.width t.handle.height t.handle.format unit

/-- The texture with another block, which nobody has sampled yet. -/
def moveTo (t : Texture) (fresh : Address) : Texture :=
  { t with handle := { t.handle with data := some fresh }, backing := some fresh, stamp := .unused }

/-- The texture with another layout. -/
def reshape (t : Texture) (format : Format) (width height : Nat) : Texture :=
  { t with handle := { t.handle with format, width, height } }

end Texture

end TextureMemory
