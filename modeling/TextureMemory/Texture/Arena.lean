import TextureMemory.Texture.Basic
import TextureMemory.Texture.Error

/-!
# The arena of textures

Textures live in a table of entries. A vacated entry is used again before the table grows, the
latest one first, and under its next generation, so a slot is never taken for the one before it in
the same entry until the generations start over.

Indices are counted modulo `Slot.limit`. As long as fewer textures than that exist, the table is no
longer than that either, and each index names its own entry.
-/

namespace TextureMemory

/-- A place for a texture. -/
structure Entry where
  /-- The generation of the texture in the entry, or of the next one if it is vacant. -/
  generation : Nat
  /-- The texture in the entry. -/
  texture : Option Texture
deriving DecidableEq, Repr

/-- The textures that exist, by slot. -/
structure Arena where
  /-- The entries, by index. -/
  entries : Array Entry
  /-- The indices of the vacant entries, the latest first. -/
  vacant : List Nat
  /-- The number of textures. -/
  count : Nat
deriving DecidableEq, Repr

namespace Arena

/-- The arena without textures. -/
def empty : Arena := ⟨#[], [], 0⟩

/-- The texture of a slot. -/
def get? (a : Arena) (s : Slot) : Option Texture := do
  let entry ← a.entries[s.index]?
  if entry.generation = s.generation then entry.texture else none

/-- The texture of a slot, or the error that there is none. -/
def get (a : Arena) (s : Slot) : Except TextureError Texture :=
  match a.get? s with
  | some t => .ok t
  | none => .error (.unknownSlot s)

/-- Whether a slot names a texture. -/
def contains (a : Arena) (s : Slot) : Bool := (a.get? s).isSome

/-- The textures, by the index of their entries. -/
def toList (a : Arena) : List Texture := a.entries.toList.filterMap Entry.texture

/-- Whether there are no textures. -/
def isEmpty (a : Arena) : Bool := a.count = 0

/-- The index of the entry for the next texture, in a table that has such an entry. -/
def vacancy (a : Arena) : Nat × Arena :=
  match a.vacant with
  | index :: vacant => (index, { a with vacant })
  | [] => (a.entries.size % Slot.limit, { a with entries := a.entries.push ⟨0, none⟩ })

/-- Adds a texture without memory. -/
def insert (a : Arena) : Except Fault (Slot × Arena) := do
  let (index, a) := a.vacancy
  let some entry := a.entries[index]?
    | throw .outOfRange
  let slot := ⟨index, entry.generation⟩
  let count ← Word.add a.count 1
  return (slot, { a with
    entries := a.entries.setIfInBounds index { entry with texture := some (.blank slot) }
    count })

/-- Replaces the texture of a slot; a slot that names none is left alone. -/
def set (a : Arena) (s : Slot) (t : Texture) : Arena :=
  if a.contains s then
    { a with entries := a.entries.modify s.index ({ · with texture := some t }) }
  else
    a

/-- Takes out the texture of a slot and vacates its entry. -/
def remove (a : Arena) (s : Slot) : Except Fault (Reply Arena TextureError Texture) := do
  let some t := a.get? s
    | return (.error (.unknownSlot s), a)
  let count ← Word.sub a.count 1
  return (.ok t, {
    entries := a.entries.modify s.index fun entry => ⟨(entry.generation + 1) % Slot.limit, none⟩
    vacant := s.index :: a.vacant
    count })

end Arena

end TextureMemory
