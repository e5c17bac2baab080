import TextureMemory.Context.Basic
import TextureMemory.Memory.Buffer

/-!
# Runs of a context

The calls on a context as data, so that whole runs can be spoken of. Besides the calls on textures
there are those that go to the heap behind the back of the textures: whoever holds the context may
ask for blocks, give back any block, and write to it.
-/

namespace TextureMemory

namespace Heap

/-- A call on a heap. -/
inductive Action where
  /-- Asks for a block. -/
  | allocate (size : Nat) (request : MemoryClass)
  /-- Gives a block back. -/
  | free (address : Address)
  /-- Overwrites bytes of a block. -/
  | write (address : Address) (offset : Nat) (data : List UInt8)
deriving DecidableEq, Repr

/-- What a call on a heap answers. -/
inductive Answer where
  /-- The address of a new block. -/
  | allocated (address : Address)
  /-- The block was taken back. -/
  | freed
  /-- The number of bytes that were written. -/
  | written (length : Nat)
  /-- The heap refused. -/
  | refused (cause : HeapError)
  /-- The bytes cannot be touched. -/
  | denied (cause : AccessError)
deriving DecidableEq, Repr

/-- Performs a call on a heap. -/
def perform (h : Heap) : Action → Except Fault (Answer × Heap)
  | .allocate size request => do
    match ← h.allocate size request with
    | (.ok a, h) => return (.allocated a, h)
    | (.error e, h) => return (.refused e, h)
  | .free a => do
    match ← h.free a with
    | (.ok (), h) => return (.freed, h)
    | (.error e, h) => return (.refused e, h)
  | .write a offset data =>
    match h.write a offset data with
    | .ok h => return (.written data.length, h)
    | .error e => return (.denied e, h)

end Heap

namespace Context

/-- A call on a context. -/
inductive Action where
  /-- Creates a texture. -/
  | generate
  /-- Makes a unit the active one. -/
  | activate (unit : Nat)
  /-- Binds a texture to the active unit. -/
  | bind (slot : Slot)
  /-- Clears the active unit. -/
  | unbind
  /-- Gives the bound texture a layout and memory. -/
  | define (format : Format) (width height : Nat)
  /-- Finds the memory of the bound texture for writing. -/
  | resolve
  /-- Stamps the bound texture. -/
  | sample
  /-- Deletes a texture. -/
  | delete (slot : Slot)
  /-- Ends the current frame. -/
  | endFrame
  /-- Calls the heap. -/
  | heap (action : Heap.Action)
deriving DecidableEq, Repr

/-- What a call on a context answers. -/
inductive Answer where
  /-- The call is done, and there is nothing to tell. -/
  | done
  /-- The slot of a new texture. -/
  | slot (slot : Slot)
  /-- The address of the bound texture's memory. -/
  | address (address : Address)
  /-- The number of the next frame. -/
  | frame (number : Nat)
  /-- What the heap answers. -/
  | heap (answer : Heap.Answer)
  /-- The call failed. -/
  | failed (cause : TextureError)
deriving DecidableEq, Repr

/-- The answer of a call, given how an answer of its own kind is told. -/
def answer {α : Type} (told : α → Answer) (reply : Reply Context TextureError α) :
    Answer × Context :=
  match reply with
  | (.ok a, c) => (told a, c)
  | (.error e, c) => (.failed e, c)

/-- Performs a call on a context. -/
def perform (c : Context) : Action → Except Fault (Answer × Context)
  | .generate => do
    let (slot, c) ← c.generate
    return (.slot slot, c)
  | .activate unit => return answer (fun _ => .done) (c.activate unit)
  | .bind slot => return answer (fun _ => .done) (← c.bind slot)
  | .unbind => return (.done, ← c.unbind)
  | .define format width height => return answer .address (← c.define format width height)
  | .resolve => return answer .address (← c.resolve)
  | .sample => return answer (fun _ => .done) (← c.sample)
  | .delete slot => return answer (fun _ => .done) (← c.delete slot)
  | .endFrame => do
    let (number, c) ← c.endFrame
    return (.frame number, c)
  | .heap action => do
    let (told, heap) ← c.heap.perform action
    return (.heap told, { c with heap })

end Context

end TextureMemory
