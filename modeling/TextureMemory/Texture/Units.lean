import TextureMemory.Memory.Extent
import TextureMemory.Texture.Error

/-!
# Texture units

A texture is bound to a numbered unit, and one unit is active. Calls that name no texture mean the
one bound to the active unit. A table without units has no active one: looking at it halts the
program.
-/

namespace TextureMemory

/-- The texture units and what is bound to them. -/
structure Units where
  /-- The number of the active unit. -/
  active : Nat
  /-- The slot bound to each unit. -/
  bindings : Array (Option Slot)
deriving DecidableEq, Repr

namespace Units

/-- The bytes of an entry of the table: the index, the generation, and whether there is a slot at
all take half a word each. -/
def width : Nat := 3 * (Extent.word / 2)

/-- Units with nothing bound to them, the first one active. -/
def ofCount (count : Nat) : Except Fault Units := do
  Extent.require count width
  return ⟨0, Array.replicate count none⟩

/-- The number of units. -/
def count (u : Units) : Nat := u.bindings.size

/-- Makes a unit the active one. -/
def activate (u : Units) (unit : Nat) : Except TextureError Units :=
  if unit < u.count then .ok { u with active := unit } else .error (.unitOutOfRange unit u.count)

/-- Binds a slot to the active unit, or clears the unit. -/
def bind (u : Units) (slot : Option Slot) : Except Fault Units :=
  if u.active < u.count then .ok { u with bindings := u.bindings.setIfInBounds u.active slot }
  else .error .outOfRange

/-- The slot bound to the active unit. -/
def bound (u : Units) : Except Fault (Except TextureError Slot) :=
  match u.bindings[u.active]? with
  | none => .error .outOfRange
  | some none => .ok (.error (.notBound u.active))
  | some (some slot) => .ok (.ok slot)

/-- The slot bound to a unit. -/
def boundAt? (u : Units) (unit : Nat) : Option Slot := u.bindings[unit]?.join

/-- Clears every unit that a slot is bound to. -/
def unbindEverywhere (u : Units) (slot : Slot) : Units :=
  { u with bindings := u.bindings.map fun b => if b = some slot then none else b }

end Units

end TextureMemory
