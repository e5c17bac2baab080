import TextureMemory.Metrics.Event
import TextureMemory.Metrics.Recorder
import TextureMemory.Metrics.Tally
import TextureMemory.Metrics.Window
import TextureMemory.Purge
import TextureMemory.Settings.Basic
import TextureMemory.Texture.Arena
import TextureMemory.Texture.Units

/-!
# Texture contexts

A context holds all that texture calls work on: the textures and the units they are bound to, the
heap, the number of the current frame, and what is measured. Calls that name no texture mean the one
bound to the active unit.

A call that fails changes nothing a texture shows. It may have moved the cursor of the heap, and a
failure for want of memory is tallied: `Context.define` tallies it only where no new block was to be
had, `Context.resolve` also where the old one could not be taken back.

What is measured, `Context.tally` and `Context.window`, is written by the calls and never read by
them, so `Context.mute` changes no other answer.
-/

namespace TextureMemory

/-- The policy that settings choose. -/
def Settings.policy (s : Settings) : Except Fault Policy :=
  Policy.choose s.purgeThreshold s.alignUnit s.memoryClass

/-- The state of all textures. -/
structure Context where
  /-- When textures get new memory, and where from. -/
  policy : Policy
  /-- The textures that exist. -/
  arena : Arena
  /-- What is bound to the texture units. -/
  units : Units
  /-- The memory of the device. -/
  heap : Heap
  /-- The number of the current frame. -/
  frame : Nat
  /-- How many blocks were replaced because they were sampled recently. -/
  reclaims : Nat
  /-- The bytes of the blocks that replaced others in the current frame. -/
  pending : Nat
  /-- What happened so far. -/
  tally : Recorder Tally
  /-- The bytes of the blocks that replaced others, for the latest frames that have ended. -/
  window : Recorder (Window Nat)
deriving DecidableEq, Repr

namespace Context

/-- A context without textures. Settings that are refused are refused before any table is set up. -/
def ofSettings (s : Settings) (heap : Heap) : Except Fault (Except SettingsError Context) := do
  match s.validate with
  | .error e => return .error e
  | .ok () =>
    return .ok {
      policy := ← s.policy
      arena := .empty
      units := ← Units.ofCount s.textureUnits
      heap
      frame := 0
      reclaims := 0
      pending := 0
      tally := .on .empty
      window := .on (← Window.ofCapacity Extent.word s.metricsWindow) }

/-- The context with nothing measured from now on. -/
def mute (c : Context) : Context := { c with tally := .off, window := .off }

/-- Tallies an event. -/
def record (c : Context) (event : Event) (n : Nat) : Except Fault Context := do
  return { c with tally := ← c.tally.update (·.add event.name n) }

/-! ## Textures and units -/

/-- Creates a texture without memory. -/
def generate (c : Context) : Except Fault (Slot × Context) := do
  let (slot, arena) ← c.arena.insert
  return (slot, { c with arena })

/-- Makes a unit the active one. -/
def activate (c : Context) (unit : Nat) : Reply Context TextureError Unit :=
  match c.units.activate unit with
  | .error e => (.error e, c)
  | .ok units => (.ok (), { c with units })

/-- Binds a texture to the active unit. -/
def bind (c : Context) (slot : Slot) : Except Fault (Reply Context TextureError Unit) := do
  if c.arena.contains slot then
    return (.ok (), { c with units := ← c.units.bind (some slot) })
  else
    return (.error (.unknownSlot slot), c)

/-- Clears the active unit. -/
def unbind (c : Context) : Except Fault Context := do
  return { c with units := ← c.units.bind none }

/-- The texture bound to the active unit, with its slot. -/
def bound (c : Context) : Except Fault (Except TextureError (Slot × Texture)) := do
  match ← c.units.bound with
  | .error e => return .error e
  | .ok slot => return (c.arena.get slot).map (slot, ·)

/-! ## The memory of a texture -/

/-- Gives the bound texture a layout and a new block that fits it, and takes back the block that it
had before. -/
def define (c : Context) (format : Format) (width height : Nat) :
    Except Fault (Reply Context TextureError Address) := do
  if width = 0 ∨ height = 0 then
    return (.error (.invalidDimensions width height), c)
  match ← c.policy.size format width height with
  | .error e => return (.error e, c)
  | .ok size =>
    match ← c.bound with
    | .error e => return (.error e, c)
    | .ok (slot, texture) =>
      match ← c.heap.exchange texture.backing size c.policy.request with
      | (.error (.acquire cause), heap) =>
        return (.error (.memory cause), ← { c with heap }.record .allocFailures 1)
      | (.error (.release cause), heap) =>
        return (.error (.memory cause), { c with heap })
      | (.ok fresh, heap) =>
        let arena := c.arena.set slot ((texture.reshape format width height).moveTo fresh)
        return (.ok fresh, ← { c with heap, arena }.record .definitions 1)

/-- Finds the memory of the bound texture for writing. If the device sampled it recently, the
texture gets a new block first. -/
def resolve (c : Context) : Except Fault (Reply Context TextureError Address) := do
  match ← c.bound with
  | .error e => return (.error e, c)
  | .ok (slot, texture) =>
    match ← c.policy.resolve texture c.heap c.frame with
    | (.error (.memory cause), heap) =>
      return (.error (.memory cause), ← { c with heap }.record .allocFailures 1)
    | (.error e, heap) => return (.error e, { c with heap })
    | (.ok (.reused address), heap) => return (.ok address, { c with heap })
    | (.ok (.reclaimed fresh _ size), heap) =>
      let c := { c with
        heap
        arena := c.arena.set slot (texture.moveTo fresh)
        reclaims := ← Word.add c.reclaims 1
        pending := ← Word.add c.pending size }
      let c ← c.record .reclaims 1
      return (.ok fresh, ← c.record .reclaimedBytes size)

/-- Stamps the bound texture: the device samples it in the current frame. -/
def sample (c : Context) : Except Fault (Reply Context TextureError Unit) := do
  match ← c.bound with
  | .error e => return (.error e, c)
  | .ok (slot, texture) =>
    return (.ok (), { c with arena := c.arena.set slot { texture with stamp := .frame c.frame } })

/-- Deletes a texture, takes back its memory and clears it from every unit. A texture whose memory
cannot be taken back stays. -/
def delete (c : Context) (slot : Slot) : Except Fault (Reply Context TextureError Unit) := do
  match c.arena.get slot with
  | .error e => return (.error e, c)
  | .ok texture =>
    match ← c.heap.release texture.backing with
    | (.error cause, heap) => return (.error (.memory cause), { c with heap })
    | (.ok (), heap) =>
      match ← c.arena.remove slot with
      | (.error e, arena) => return (.error e, { c with heap, arena })
      | (.ok _, arena) =>
        let c := { c with heap, arena, units := c.units.unbindEverywhere slot }
        return (.ok (), ← c.record .deletions 1)

/-- Ends the current frame and answers with the number of the next. -/
def endFrame (c : Context) : Except Fault (Nat × Context) := do
  let window ← c.window.update (·.push c.pending)
  let frame ← Word.add c.frame 1
  return (frame, { c with window, pending := 0, frame })

/-! ## What can be seen -/

/-- A summary of a context. -/
structure Stats where
  /-- The number of the current frame. -/
  frame : Nat
  /-- The number of textures. -/
  textures : Nat
  /-- The number of textures that have memory. -/
  defined : Nat
  /-- The bytes that their surfaces take; a surface that no word can tell counts as none. -/
  bytes : Nat
  /-- How many blocks were replaced because they were sampled recently. -/
  reclaims : Nat
deriving DecidableEq, Repr

/-- The textures that have memory. -/
def defined (c : Context) : List Texture := c.arena.toList.filter (·.backing.isSome)

/-- The summary of a context. -/
def stats (c : Context) : Except Fault Stats := do
  let sizes ← c.defined.mapM (·.size? c.policy.unit)
  return {
    frame := c.frame
    textures := c.arena.count
    defined := c.defined.length
    bytes := ← Word.sum (sizes.map (·.getD 0))
    reclaims := c.reclaims }

/-- How often an event was tallied. -/
def count (c : Context) (name : String) : Nat := c.tally.get name

end Context

end TextureMemory
