/-!
# Pixel formats

A format fixes how many bytes a pixel takes. Each has one name, by which it is written and read.
-/

namespace TextureMemory

/-- The layout of one pixel. -/
inductive Format where
  /-- Eight bits of luminance. -/
  | luminance8
  /-- Eight bits of palette index. -/
  | indexed8
  /-- Eight bits of luminance and eight of alpha. -/
  | luminanceAlpha88
  /-- Sixteen bits, packed as blue, green and red. -/
  | bgr565
  /-- Sixteen bits, packed as one of alpha and five of each colour. -/
  | abgr1555
  /-- Sixteen bits, packed as four of alpha and four of each colour. -/
  | abgr4444
  /-- A byte of each colour. -/
  | bgr888
  /-- A byte of alpha and a byte of each colour. -/
  | abgr8888
deriving DecidableEq, Repr

namespace Format

/-- All formats, in their order of declaration. -/
def all : List Format :=
  [luminance8, indexed8, luminanceAlpha88, bgr565, abgr1555, abgr4444, bgr888, abgr8888]

/-- The format of a definition that names none. -/
def standard : Format := abgr1555

/-- The number of bytes of a pixel. -/
def bytesPerPixel : Format → Nat
  | luminance8 | indexed8 => 1
  | luminanceAlpha88 | bgr565 | abgr1555 | abgr4444 => 2
  | bgr888 => 3
  | abgr8888 => 4

/-- The name of a format: the widths of its channels as they lie in memory. -/
def name : Format → String
  | luminance8 => "U8"
  | indexed8 => "P8"
  | luminanceAlpha88 => "U8U8"
  | bgr565 => "U5U6U5Bgr"
  | abgr1555 => "U1U5U5U5Abgr"
  | abgr4444 => "U4U4U4U4Abgr"
  | bgr888 => "U8U8U8Bgr"
  | abgr8888 => "U8U8U8U8Abgr"

/-- The format of a given name. -/
def ofName? (s : String) : Option Format :=
  all.find? (·.name = s)

/-- No format goes without bytes for a pixel. -/
theorem bytesPerPixel_pos (f : Format) : 0 < f.bytesPerPixel := by cases f <;> decide

end Format

end TextureMemory
