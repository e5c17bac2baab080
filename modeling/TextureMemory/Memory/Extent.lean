import TextureMemory.Word

/-!
# Extents

The entries of a table lie one behind the other, and the distance between any two of its bytes is a
machine word with a sign. So no table takes `Extent.limit` bytes or more: setting one up halts the
program, whatever is to be kept in it. How much memory there is in the machine does not matter here.
-/

namespace TextureMemory.Extent

/-- The first number of bytes that is too large for a table. -/
abbrev limit : Nat := Nat.pow 2 63

/-- The bytes of a machine word. -/
def word : Nat := 8

/-- Halts the program unless a table can have `count` entries of `width` bytes each. -/
def require (count width : Nat) : Except Fault Unit :=
  if count * width < limit then .ok () else .error .tooLarge

/-- A table is allowed just if its bytes stay below the limit. -/
theorem require_eq_ok_iff {count width : Nat} :
    require count width = .ok () ↔ count * width < limit := by
  unfold require; split <;> simp [*]

end TextureMemory.Extent
