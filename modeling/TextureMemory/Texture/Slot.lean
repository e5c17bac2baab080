/-!
# Slots

A texture is named by a slot: the index of its entry, and the generation of that entry. The
generation moves on whenever the entry is vacated, so a slot that outlives its texture is told from
the slot of the next texture in the same entry.
-/

namespace TextureMemory

/-- The name of a texture. -/
structure Slot where
  /-- The index of the entry. -/
  index : Nat
  /-- How often the entry was vacated before. -/
  generation : Nat
deriving DecidableEq, Repr

namespace Slot

/-- The number of indices, and of generations. Both start again at zero when they reach it. -/
abbrev limit : Nat := Nat.pow 2 32

/-- A slot as it is written: the index, the letter `v`, and the generation. -/
def text (s : Slot) : String := s!"{s.index}v{s.generation}"

end Slot

end TextureMemory
