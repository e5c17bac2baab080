import TextureMemory.Memory.Heap

/-!
# The bytes of a block

Whoever holds the address of a block may read and overwrite its bytes. A range that does not lie
within the block is refused whole, so a block never changes its size. What `Buffer.overwrite` does
is said byte by byte in `Buffer.getElem?_overwrite`.
-/

namespace TextureMemory

/-- The bytes of a block. -/
abbrev Buffer := Array UInt8

namespace Buffer

/-- Overwrites the bytes from `offset` on; what lies behind the end is dropped. -/
def overwrite (buffer : Buffer) (offset : Nat) : List UInt8 → Buffer
  | [] => buffer
  | byte :: rest => overwrite (buffer.setIfInBounds offset byte) (offset + 1) rest

/-- Overwrites the bytes from `offset` on, if the data lie within the buffer. -/
def write? (buffer : Buffer) (offset : Nat) (data : List UInt8) : Option Buffer :=
  if offset + data.length ≤ buffer.size then some (buffer.overwrite offset data) else none

/-- The `length` bytes from `offset` on, if they lie within the buffer. -/
def read? (buffer : Buffer) (offset length : Nat) : Option (List UInt8) :=
  if offset + length ≤ buffer.size then some ((buffer.extract offset (offset + length)).toList)
  else none

variable {buffer : Buffer} {offset : Nat} {data : List UInt8}

/-- Overwriting makes a buffer neither longer nor shorter. -/
@[simp] theorem size_overwrite : (buffer.overwrite offset data).size = buffer.size := by
  induction data generalizing buffer offset with
  | nil => rfl
  | cons byte rest ih => simp [overwrite, ih]

/-- Overwriting changes the bytes of its range, and no other. -/
theorem getElem?_overwrite (h : offset + data.length ≤ buffer.size) (i : Nat) :
    (buffer.overwrite offset data)[i]? =
      if offset ≤ i ∧ i < offset + data.length then data[i - offset]? else buffer[i]? := by
  induction data generalizing buffer offset with
  | nil => simp [overwrite, show ¬(offset ≤ i ∧ i < offset) by omega]
  | cons byte rest ih =>
    simp only [List.length_cons] at h
    rw [overwrite, ih (by simp; omega), Array.getElem?_setIfInBounds]
    by_cases hi : i = offset
    · subst hi
      rw [if_neg (show ¬(i + 1 ≤ i ∧ i < i + 1 + rest.length) by omega)]
      simp [show i < buffer.size by omega]
    · by_cases hr : offset + 1 ≤ i ∧ i < offset + 1 + rest.length
      · rw [if_pos hr, if_pos (by simp only [List.length_cons]; omega),
          show i - offset = (i - (offset + 1)) + 1 by omega]
        simp
      · rw [if_neg hr, if_neg (Ne.symm hi), if_neg (by simp only [List.length_cons]; omega)]

end Buffer

/-- Why a range of bytes cannot be touched. -/
inductive AccessError where
  /-- No block in use begins at the address. -/
  | notLive
  /-- The range does not lie within the block. -/
  | outOfRange
deriving DecidableEq, Repr

namespace Heap

/-- The bytes of the block that begins at an address. -/
def bytes? (h : Heap) (a : Address) : Option Buffer := (h.block? a).map (·.bytes)

/-- Replaces the bytes of the block that begins at an address. -/
def setBytes (h : Heap) (a : Address) (bytes : Buffer) : Heap :=
  { h with blocks := h.blocks.map fun b => if b.address = a then { b with bytes } else b }

/-- Overwrites bytes of a block. -/
def write (h : Heap) (a : Address) (offset : Nat) (data : List UInt8) :
    Except AccessError Heap := do
  let some bytes := h.bytes? a
    | throw .notLive
  let some bytes := Buffer.write? bytes offset data
    | throw .outOfRange
  return h.setBytes a bytes

/-- Reads bytes of a block. -/
def read (h : Heap) (a : Address) (offset length : Nat) : Except AccessError (List UInt8) := do
  let some bytes := h.bytes? a
    | throw .notLive
  let some data := Buffer.read? bytes offset length
    | throw .outOfRange
  return data

end Heap

end TextureMemory
