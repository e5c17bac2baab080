import TextureMemory.Context.Basic
import TextureMemory.Memory.Buffer

/-!
# The streaming scene

A scene with two textures: a palette, which is written and sampled in every frame, and a page of
video memory, which is written in every frame and sampled in every `Scene.pageInterval`-th one.

A scene is drawn by a `Session`, which stops at the first call that fails and keeps what the calls
before it have done. `Scene.frame` does not name the textures of the scene: it works on whatever is
bound to units 0 and 1. `Scene.start` leaves them there if unit 0 is active when it begins.
-/

namespace TextureMemory

/-- Calls on a context, one after the other, up to the first that fails. -/
abbrev Session := ExceptT TextureError (StateT Context (Except Fault))

/-- One call on a context. -/
def Session.call {α : Type} (f : Context → Except Fault (Reply Context TextureError α)) :
    Session α := f

/-- The textures of a scene. -/
structure Scene where
  /-- The slot of the palette. -/
  palette : Slot
  /-- The slot of the page of video memory. -/
  page : Slot
deriving DecidableEq, Repr

namespace Scene

open Session (call)

/-- The pixels of the palette, which is one row. -/
def paletteWidth : Nat := 4096

/-- The pixels of a row of the page. -/
def pageWidth : Nat := 512

/-- The rows of the page. -/
def pageHeight : Nat := 96

/-- The frames from one sampling of the page to the next. -/
def pageInterval : Nat := 45

/-- Creates a texture. -/
def generate : Session Slot := call fun c => do
  let (slot, c) ← c.generate
  return (.ok slot, c)

/-- Makes a unit the active one. -/
def activate (unit : Nat) : Session Unit := call fun c => return c.activate unit

/-- Sets up the two textures: the palette on the unit that is active, and the page on unit 1. -/
def start : Session Scene := do
  let palette ← generate
  call (·.bind palette)
  discard <| call (·.define .standard paletteWidth 1)
  let page ← generate
  activate 1
  call (·.bind page)
  discard <| call (·.define .standard pageWidth pageHeight)
  activate 0
  return { palette, page }

/-- The pixel at a place of a row in a frame: opaque, and counting up along the row and from one
frame to the next. -/
def texel (frame x : Nat) : Nat := 0x8000 + (x + frame) % 0x8000

/-- The bytes of a row of pixels, the low byte of each first. -/
def rowBytes (width frame : Nat) : List UInt8 :=
  (List.range width).flatMap fun x =>
    let t := texel frame x
    [UInt8.ofNat (t % 256), UInt8.ofNat (t / 256)]

/-- Writes the same row `height` times, `stride` bytes apart. -/
def paint (buffer : Buffer) (row : List UInt8) (stride height : Nat) : Except Fault Buffer :=
  (List.range height).foldlM (fun buffer y =>
    match Buffer.write? buffer (y * stride) row with
    | some buffer => .ok buffer
    | none => .error .outOfRange) buffer

/-- Writes the pixels of a frame to the bound texture. The places of a row are counted from the
number of the frame, and none of these counts may leave the range of a word. -/
def upload (frame : Nat) (c : Context) : Except Fault (Reply Context TextureError Unit) := do
  match ← c.resolve with
  | (.error e, c) => return (.error e, c)
  | (.ok address, c) =>
    match ← c.bound with
    | .error e => return (.error e, c)
    | .ok (slot, texture) =>
      let { width, height, .. } := texture.handle
      let some stride ← texture.stride? c.policy.unit
        | return (.error (.invalidDimensions width height), c)
      if Word.limit < width + frame then throw .overflow
      let some buffer := c.heap.bytes? address
        | return (.error (.undefined slot), c)
      let buffer ← paint buffer (rowBytes width frame) stride height
      return (.ok (), { c with heap := c.heap.setBytes address buffer })

/-- Draws a frame and ends it. -/
def frame : Session Unit := do
  let number := (← get).frame
  activate 0
  call (upload number)
  call (·.sample)
  activate 1
  call (upload number)
  if number % pageInterval = 0 then
    call (·.sample)
  activate 0
  call fun c => return (.ok (), (← c.endFrame).2)

/-- Draws frames, one after the other. -/
def frames : Nat → Session Unit
  | 0 => return
  | n + 1 => do
    frame
    frames n

/-- Deletes the two textures. -/
def teardown (s : Scene) : Session Unit := do
  call (·.delete s.palette)
  call (·.delete s.page)

end Scene

end TextureMemory
