import TextureMemory.Alignment
import TextureMemory.Memory.Address
import TextureMemory.Memory.Extent
import TextureMemory.Memory.Pool

/-!
# The heap of device memory

A heap hands out blocks of zeroed bytes and takes them back. Each block is charged to one pool,
whose budget bounds the bytes that are out at any time. Addresses are never handed out twice: the
heap keeps a cursor that only moves on, by the size of each block rounded up to `Heap.alignment`, so
the blocks are listed newest first and their addresses fall along the list.
-/

namespace TextureMemory

/-- A block of memory that is in use. -/
structure Block where
  /-- The address of the first byte. -/
  address : Address
  /-- The pool that the bytes are charged to. -/
  pool : Pool
  /-- The bytes themselves. -/
  bytes : Array UInt8
deriving DecidableEq, Repr

/-- The number of bytes of a block. -/
def Block.size (b : Block) : Nat := b.bytes.size

/-- Why the heap refuses. -/
inductive HeapError where
  /-- No pool of the class has room for the bytes asked for. -/
  | outOfMemory (request : MemoryClass) (requested available : Nat)
  /-- No block in use begins at the address. -/
  | notLive (address : Address)
  /-- A block of no bytes was asked for. -/
  | zeroSize
deriving DecidableEq, Repr

/-- The text of an error. -/
def HeapError.message : HeapError → String
  | outOfMemory request requested available =>
    s!"out of {request.label} memory: requested {requested} bytes, {available} available"
  | notLive address => s!"pointer {address.text} does not refer to a live allocation"
  | zeroSize => "zero-sized allocation requested"

/-- Budgets, and the blocks that are in use. -/
structure Heap where
  /-- The bytes that each pool may give away. -/
  budgets : Budgets
  /-- The bytes that each pool has given away. -/
  used : PerPool Nat
  /-- The blocks in use, newest first. -/
  blocks : List Block
  /-- The address of the next block. -/
  cursor : Address
deriving DecidableEq, Repr

namespace Heap

/-- Every block begins at a multiple of this number. -/
def alignment : Nat := 256

/-- The address of the first block. -/
def base : Address := ⟨0x81000000, by decide⟩

/-- A heap of which nothing is in use. -/
def ofBudgets (budgets : Budgets) : Heap where
  budgets
  used := .uniform 0
  blocks := []
  cursor := base

/-- A heap whose pools never run out before the addresses do. -/
def unbounded : Heap := ofBudgets (.uniform (Word.limit - 1))

/-- The bytes that a pool can still give away. -/
def available (h : Heap) (p : Pool) : Nat := h.budgets.get p - h.used.get p

/-- The bytes charged to a class. The main class is no pool, and nothing is charged to it. -/
def usedBy (h : Heap) : MemoryClass → Nat
  | .only p => h.used.get p
  | .main => 0

/-- The bytes left in the budget of a class. The main class has no budget of its own. -/
def leftIn (h : Heap) : MemoryClass → Nat
  | .only p => h.available p
  | .main => 0

/-- The most that any pool of a class can still give away. -/
def mostAvailable (h : Heap) (request : MemoryClass) : Nat :=
  (request.candidates.map h.available).max?.getD 0

/-- The block in use that begins at an address. -/
def block? (h : Heap) (a : Address) : Option Block :=
  h.blocks.find? (·.address = a)

/-- Whether a block in use begins at an address. -/
def contains (h : Heap) (a : Address) : Bool := (h.block? a).isSome

/-- The number of blocks in use. -/
def count (h : Heap) : Nat := h.blocks.length

/-- The bytes of all blocks in use. -/
def size (h : Heap) : Except Fault Nat := Word.sum (h.blocks.map Block.size)

/-- The cursor behind a block of `size` bytes, if there is room for it below the limit of words. -/
def cursorAfter? (h : Heap) (size : Nat) : Option Address := do
  h.cursor.advance? (Alignment.down (← Word.add? size (alignment - 1)) alignment)

/-- Hands out a block of zeros, charged to the first pool of the class that has room for it. A
request that no pool or no address can serve leaves the heap as it was; one that they could serve
and no table can hold halts the program. -/
def allocate (h : Heap) (size : Nat) (request : MemoryClass) :
    Except Fault (Reply Heap HeapError Address) := do
  if size = 0 then
    return (.error .zeroSize, h)
  let some pool := request.candidates.find? (size ≤ h.available ·)
    | return (.error (.outOfMemory request size (h.mostAvailable request)), h)
  let some cursor := h.cursorAfter? size
    | return (.error (.outOfMemory request size 0), h)
  let used ← Word.add (h.used.get pool) size
  Extent.require size 1
  Alignment.requireAligned h.cursor.value alignment
  return (.ok h.cursor, { h with
    used := h.used.set pool used
    blocks := ⟨h.cursor, pool, Array.replicate size 0⟩ :: h.blocks
    cursor })

/-- Takes back the block that begins at an address. -/
def free (h : Heap) (a : Address) : Except Fault (Reply Heap HeapError Unit) := do
  let some block := h.block? a
    | return (.error (.notLive a), h)
  let used ← Word.sub (h.used.get block.pool) block.size
  return (.ok (), { h with
    used := h.used.set block.pool used
    blocks := h.blocks.filter (·.address ≠ a) })

/-- Takes back a block, if there is one. -/
def release (h : Heap) : Option Address → Except Fault (Reply Heap HeapError Unit)
  | none => return (.ok (), h)
  | some a => h.free a

/-- Which half of an exchange fails. -/
inductive ExchangeError where
  /-- There is no new block to be had. -/
  | acquire (cause : HeapError)
  /-- The old block cannot be taken back. -/
  | release (cause : HeapError)
deriving DecidableEq, Repr

/-- The error of the half that fails. -/
def ExchangeError.cause : ExchangeError → HeapError
  | acquire cause | release cause => cause

/-- Hands out a new block and then takes the old one back, so both are in use for a moment. If the
old block is not in use, the new one is taken back again. -/
def exchange (h : Heap) (old : Option Address) (size : Nat) (request : MemoryClass) :
    Except Fault (Reply Heap ExchangeError Address) := do
  match ← h.allocate size request with
  | (.error cause, h) => return (.error (.acquire cause), h)
  | (.ok fresh, h) =>
    match ← h.release old with
    | (.ok (), h) => return (.ok fresh, h)
    | (.error cause, h) =>
      let (_, h) ← h.free fresh
      return (.error (.release cause), h)

end Heap

end TextureMemory
