import TextureMemory.Json.Error
import TextureMemory.Surface.Size

/-!
# Settings

What can be chosen about texture memory before any texture exists.
-/

namespace TextureMemory

/-- The choices for texture memory. -/
structure Settings where
  /-- The frames for which a sampled texture counts as recently used. -/
  purgeThreshold : Nat
  /-- The row alignment, in pixels. -/
  alignUnit : Nat
  /-- The memory that textures are kept in. -/
  memoryClass : MemoryClass
  /-- The number of texture units. -/
  textureUnits : Nat
  /-- The budgets of the pools. -/
  pools : Budgets
  /-- The number of frames that measurements look back. -/
  metricsWindow : Nat
deriving DecidableEq, Repr

/-- Why a file cannot be read. -/
inductive FileError where
  /-- There is no such file. -/
  | notFound
  /-- The bytes of the file encode no text. -/
  | notText
deriving DecidableEq, Repr

/-- The text of an error with a file. -/
def FileError.message : FileError → String
  | notFound => "No such file or directory (os error 2)"
  | notText => "stream did not contain valid UTF-8"

/-- Why there are no settings to work with. -/
inductive SettingsError where
  /-- The row alignment is no power of two. -/
  | invalidAlignUnit (unit : Nat)
  /-- There are to be no texture units. -/
  | noTextureUnits
  /-- The file cannot be read. -/
  | file (cause : FileError)
  /-- The text cannot be read. -/
  | text (cause : Json.Error)
deriving DecidableEq, Repr

namespace Settings

/-- The choices that hold unless others are made. -/
def standard : Settings where
  purgeThreshold := 30
  alignUnit := Surface.standardUnit
  memoryClass := .main
  textureUnits := 16
  pools := .standard
  metricsWindow := 60

/-- Checks that the rows can be aligned and that there is a unit to bind textures to. -/
def validate (s : Settings) : Except SettingsError Unit :=
  if ¬s.alignUnit.isPowerOfTwo then .error (.invalidAlignUnit s.alignUnit)
  else if s.textureUnits = 0 then .error .noTextureUnits
  else .ok ()

/-- Two things are checked of settings: the alignment is a power of two, and there is a texture unit. -/
theorem validate_eq_ok_iff {s : Settings} :
    s.validate = .ok () ↔ s.alignUnit.isPowerOfTwo ∧ 0 < s.textureUnits := by
  unfold validate
  split
  · simp [*]
  · split <;> simp_all [Nat.pos_iff_ne_zero]

end Settings

end TextureMemory
