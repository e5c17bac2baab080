import TextureMemory.Settings.Basic

/-!
# Messages about settings
-/

namespace TextureMemory

/-- The text of an error of reading text. -/
def Json.Error.message : Json.Error → String
  | truncated => "the text ends too early"
  | malformed => "the text is not well formed"
  | mismatch cause => cause.message

/-- The text of an error with settings. -/
def SettingsError.message : SettingsError → String
  | invalidAlignUnit unit => s!"align_unit must be a non-zero power of two, got {unit}"
  | noTextureUnits => "at least one texture unit is required"
  | file cause => s!"failed to read settings: {cause.message}"
  | text cause => s!"failed to parse settings: {cause.message}"

/-- The texts of what is behind an error with settings, the error itself first. -/
def SettingsError.causes (e : SettingsError) : List String :=
  e.message :: match e with
    | file cause => [cause.message]
    | text cause => [cause.message]
    | _ => []

end TextureMemory
