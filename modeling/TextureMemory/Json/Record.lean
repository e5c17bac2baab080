import TextureMemory.Json.Skip

/-!
# Records

A record is read either from an object that names its fields or from an array that lists them in
order. What is not given keeps its default. An object may give its fields in any order, each of them
once, and may have members of other names, which are passed over; an array may stop early, but must
not go on behind the last field.
-/

namespace TextureMemory.Json

/-- A field of a record of type `ρ`. -/
structure Field (ρ : Type) where
  /-- The name of the field in an object. -/
  name : String
  /-- Reads the value of the field into a record. -/
  read : ρ → List Char → Except Error (ρ × List Char)

/-- The error that there is something else than what was expected. The value at the front is read as
far as it takes to say what it is, and what is wrong with it comes first. -/
def wrongType (expected : Expected) : List Char → Error
  | [] => .truncated
  | 'n' :: s => after (readWord ['u', 'l', 'l'] s) fun _ => .null
  | 't' :: s => after (readWord ['r', 'u', 'e'] s) fun _ => .boolean true
  | 'f' :: s => after (readWord ['a', 'l', 's', 'e'] s) fun _ => .boolean false
  | '"' :: s => after (readString [] s) fun r => .string r.1
  | '[' :: _ => .mismatch (.wrongType .array expected)
  | '\x7b' :: _ => .mismatch (.wrongType .object expected)
  | c :: s =>
    if c == '-' || isDigit c then after (readNumber (c :: s)) fun r => r.1.found else .malformed
where
  /-- Says what was found, unless it could not be read. -/
  after {α : Type} (result : Except Error α) (found : α → Found) : Error :=
    match result with
    | .ok a => .mismatch (.wrongType (found a) expected)
    | .error e => e

/-- Reads a machine word. -/
def readNatural (expected : Expected) (s : List Char) : Except Error (Nat × List Char) :=
  match skipBlanks s with
  | [] => .error .truncated
  | c :: s =>
    if c == '-' || isDigit c then do
      match ← readNumber (c :: s) with
      | (.natural n, s) => return (n, s)
      | (.negative m, _) => throw (.mismatch (.wrongValue (.negative m) expected))
      | (.fractional bits, _) => throw (.mismatch (.wrongType (.fractional bits) expected))
    else
      .error (wrongType expected (c :: s))

/-- Reads the name of the next member of an object, or the end of the object. -/
def readName (first : Bool) (s : List Char) : Except Error (Option String × List Char) :=
  match skipBlanks s with
  | [] => .error .truncated
  | c :: s =>
    if c = '\x7d' then
      .ok (none, s)
    else if first then
      name (c :: s)
    else if c = ',' then
      name (skipBlanks s)
    else
      .error .malformed
where
  /-- Reads a name. -/
  name : List Char → Except Error (Option String × List Char)
    | [] => .error .truncated
    | c :: s => do
      if c = '"' then
        let (name, s) ← readString [] s
        return (some name, s)
      else
        throw .malformed

/-- Finds the next element of an array, or the end of the array. -/
def readSeparator (first : Bool) (s : List Char) : Except Error (Bool × List Char) :=
  match skipBlanks s with
  | [] => .error .truncated
  | c :: s =>
    if c = ']' then
      .ok (false, s)
    else if first then
      .ok (true, c :: s)
    else if c = ',' then
      match skipBlanks s with
      | [] => .error .truncated
      | c :: s => if c = ']' then .error .malformed else .ok (true, c :: s)
    else
      .error .malformed

/-- Reads the end of an array. -/
def readEnd (s : List Char) : Except Error (List Char) :=
  match skipBlanks s with
  | [] => .error .truncated
  | c :: s => if c = ']' then .ok s else .error .malformed

section

variable {ρ : Type}

/-- Reads the fields of a record in order, up to the end of an array. -/
def readElements (first : Bool) : List (Field ρ) → ρ → List Char → Except Error (ρ × List Char)
  | [], r, s => return (r, ← readEnd s)
  | field :: fields, r, s => do
    match ← readSeparator first s with
    | (false, s) => return (r, s)
    | (true, s) =>
      let (r, s) ← field.read r s
      readElements false fields r s

/-- Reads the members of a record up to the end of an object, given the names of the fields that
were read before. Each round takes at least one character, so the rounds that are left suffice to
pass over a value. -/
def readMembers (fields : List (Field ρ)) :
    Nat → Bool → List String → ρ → List Char → Except Error (ρ × List Char)
  | 0, _, _, _, _ => .error .truncated
  | rounds + 1, first, seen, r, s => do
    match ← readName first s with
    | (none, s) => return (r, s)
    | (some name, s) =>
      match fields.find? (·.name = name) with
      | none =>
        let s ← skipValue rounds (← readColon s)
        readMembers fields rounds false seen r s
      | some field =>
        if name ∈ seen then throw (.mismatch (.duplicateField name))
        let (r, s) ← field.read r (← readColon s)
        readMembers fields rounds false (name :: seen) r s

/-- Reads a record, starting from its defaults. -/
def readRecord (expected : Expected) (fields : List (Field ρ)) (default : ρ) (s : List Char) :
    Except Error (ρ × List Char) :=
  match skipBlanks s with
  | '[' :: s => readElements true fields default s
  | '\x7b' :: s => readMembers fields (s.length + 1) true [] default s
  | s => .error (wrongType expected s)

end

end TextureMemory.Json
