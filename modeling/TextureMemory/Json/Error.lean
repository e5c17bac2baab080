import TextureMemory.Memory.Pool
import TextureMemory.Text.Decimal
import TextureMemory.Text.Quoted

/-!
# Errors of reading text

Text is refused for one of three reasons: it ends too early, it is not well formed, or it is well
formed so far and says something that was not asked for. The first reason that is met from left to
right wins. Only the last one has a text of its own.
-/

namespace TextureMemory.Json

/-- What is asked for. -/
inductive Expected where
  /-- A number of frames. -/
  | frameCount
  /-- A number of bytes, of pixels or of units. -/
  | size
  /-- Nothing but the mark of a name. -/
  | unit
  /-- Settings. -/
  | settings
  /-- The budgets of the pools. -/
  | budgets
deriving DecidableEq, Repr

/-- What is found instead. -/
inductive Found where
  /-- The null value. -/
  | null
  /-- A truth value. -/
  | boolean (value : Bool)
  /-- A whole number that is a machine word. -/
  | natural (value : Nat)
  /-- A whole number below zero. -/
  | negative (magnitude : Nat)
  /-- Any other number, as the bits of a double. -/
  | fractional (bits : UInt64)
  /-- A string. -/
  | string (value : String)
  /-- An array. -/
  | array
  /-- An object. -/
  | object
deriving DecidableEq, Repr

/-- Why well-formed text is refused. -/
inductive Mismatch where
  /-- There is a value of another type. -/
  | wrongType (found : Found) (expected : Expected)
  /-- There is a number below zero. -/
  | wrongValue (found : Found) (expected : Expected)
  /-- There is no memory class of this name. -/
  | unknownClass (name : String)
  /-- A field is given twice. -/
  | duplicateField (name : String)
deriving DecidableEq, Repr

/-- Why text is refused. -/
inductive Error where
  /-- The text ends too early. -/
  | truncated
  /-- The text is not well formed. -/
  | malformed
  /-- The text says something else than what was asked for. -/
  | mismatch (cause : Mismatch)
deriving DecidableEq, Repr

/-- What is asked for, in words. -/
def Expected.text : Expected → String
  | frameCount => "u64"
  | size => "usize"
  | unit => "unit"
  | settings => "struct Settings"
  | budgets => "struct PoolBudgets"

/-- What is found, in words. -/
def Found.text : Found → String
  | null => "null"
  | boolean value => s!"boolean `{value}`"
  | natural value => s!"integer `{value}`"
  | negative magnitude => s!"integer `-{magnitude}`"
  | fractional bits => s!"floating point `{Decimal.text bits}`"
  | string value => s!"string {Text.quote value}"
  | array => "sequence"
  | object => "map"

/-- The text of a mismatch. -/
def Mismatch.message : Mismatch → String
  | wrongType found expected => s!"invalid type: {found.text}, expected {expected.text}"
  | wrongValue found expected => s!"invalid value: {found.text}, expected {expected.text}"
  | unknownClass name =>
    let known := ", ".intercalate (MemoryClass.all.map fun c => s!"`{c.name}`")
    s!"unknown variant `{name}`, expected one of {known}"
  | duplicateField name => s!"duplicate field `{name}`"

end TextureMemory.Json
