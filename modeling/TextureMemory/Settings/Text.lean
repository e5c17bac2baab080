import TextureMemory.Json.Record
import TextureMemory.Settings.Basic

/-!
# The text of settings

Settings are written as an object without blanks that names every field in order, and read from any
object or array of their fields. Reading what was written gives the settings back.
-/

namespace TextureMemory

/-! ## Writing -/

namespace Json

/-- An object without blanks, of names and written values. -/
def object (members : List (String × String)) : String :=
  "\x7b" ++ ",".intercalate (members.map fun m => "\"" ++ m.1 ++ "\":" ++ m.2) ++ "\x7d"

end Json

/-- The text of budgets. -/
def Budgets.text (b : Budgets) : String :=
  Json.object (b.toList.map fun (pool, bytes) => ((MemoryClass.only pool).name, toString bytes))

/-- The text of settings. -/
def Settings.text (s : Settings) : String :=
  Json.object
    [("purge_threshold", toString s.purgeThreshold),
     ("align_unit", toString s.alignUnit),
     ("memory_class", "\"" ++ s.memoryClass.name ++ "\""),
     ("texture_units", toString s.textureUnits),
     ("pools", s.pools.text),
     ("metrics_window", toString s.metricsWindow)]

/-! ## Reading -/

namespace Json

/-- A field that holds a machine word. -/
def naturalField {ρ : Type} (name : String) (expected : Expected) (set : ρ → Nat → ρ) :
    Field ρ where
  name
  read r s := do
    let (n, s) ← readNatural expected s
    return (set r n, s)

/-- The memory class of a name that was read. -/
def classOfName (name : String) : Except Error MemoryClass :=
  match MemoryClass.ofName? name with
  | some c => .ok c
  | none => .error (.mismatch (.unknownClass name))

/-- Reads a memory class: its name, or an object whose only member has that name and is null. What is no string is
no name of a member, here as in any object. -/
def readClass (s : List Char) : Except Error (MemoryClass × List Char) :=
  match skipBlanks s with
  | [] => .error .truncated
  | '"' :: s => do
    let (name, s) ← readString [] s
    return (← classOfName name, s)
  | '\x7b' :: s => do
    let (name, s) ← match skipBlanks s with
      | [] => .error .truncated
      | '"' :: s => readString [] s
      | _ => .error .malformed
    let c ← classOfName name
    let s ← match skipBlanks (← readColon s) with
      | 'n' :: s => readWord ['u', 'l', 'l'] s
      | s => .error (wrongType .unit s)
    match skipBlanks s with
    | [] => .error .truncated
    | d :: s => if d = '\x7d' then .ok (c, s) else .error .malformed
  | _ => .error .malformed

end Json

/-- The fields of budgets: one for each pool. -/
def Budgets.fields : List (Json.Field Budgets) :=
  Pool.all.map fun p => Json.naturalField (MemoryClass.only p).name .size (·.set p ·)

namespace Settings

/-- The fields of settings. -/
def fields : List (Json.Field Settings) :=
  [Json.naturalField "purge_threshold" .frameCount ({ · with purgeThreshold := · }),
   Json.naturalField "align_unit" .size ({ · with alignUnit := · }),
   { name := "memory_class"
     read r s := do
      let (c, s) ← Json.readClass s
      return ({ r with memoryClass := c }, s) },
   Json.naturalField "texture_units" .size ({ · with textureUnits := · }),
   { name := "pools"
     read r s := do
      let (b, s) ← Json.readRecord .budgets Budgets.fields .standard s
      return ({ r with pools := b }, s) },
   Json.naturalField "metrics_window" .size ({ · with metricsWindow := · })]

/-- Reads settings from characters that hold nothing else. -/
def parse (s : List Char) : Except Json.Error Settings := do
  let (settings, rest) ← Json.readRecord .settings fields standard s
  match Json.skipBlanks rest with
  | [] => return settings
  | _ => throw .malformed

/-- Reads settings from text, and checks them. -/
def ofText (text : String) : Except SettingsError Settings := do
  match parse text.toList with
  | .error e => throw (.text e)
  | .ok settings =>
    settings.validate
    return settings

/-- Reads settings from the bytes of a file, if there is one. -/
def ofFile (content : Option ByteArray) : Except SettingsError Settings := do
  let some bytes := content
    | throw (.file .notFound)
  let some text := String.fromUTF8? bytes
    | throw (.file .notText)
  ofText text

end Settings

end TextureMemory
