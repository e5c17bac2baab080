import TextureMemory.Json.Number
import TextureMemory.Json.Token

/-!
# Passing over a value

A value that nobody asked for is passed over, however deep it is nested. The brackets that are open
are kept in a list, so the nesting costs no more than the characters do.
-/

namespace TextureMemory.Json

/-- A bracket that is open. -/
inductive Bracket where
  /-- The bracket of an array. -/
  | array
  /-- The bracket of an object. -/
  | object
deriving DecidableEq, Repr

/-- The character that closes a bracket. -/
def Bracket.closing : Bracket → Char
  | array => ']'
  | object => '}'

/-- Passes over a value that has no parts. -/
def skipScalar : List Char → Except Error (List Char)
  | [] => .error .truncated
  | 'n' :: s => readWord ['u', 'l', 'l'] s
  | 't' :: s => readWord ['r', 'u', 'e'] s
  | 'f' :: s => readWord ['a', 'l', 's', 'e'] s
  | '"' :: s => skipString s
  | c :: s => if c == '-' || isDigit c then skipNumber (c :: s) else .error .malformed

/-- Passes over the name of a member and the colon behind it. -/
def skipKey (s : List Char) : Except Error (List Char) :=
  match skipBlanks s with
  | [] => .error .truncated
  | '"' :: s => do readColon (← skipString s)
  | _ => .error .malformed

/-- Passes over what stands between an open bracket and the next value within it. -/
def enter (bracket : Bracket) (s : List Char) : Except Error (List Char) :=
  match bracket with
  | .array => .ok s
  | .object => skipKey s

/-- What comes next. -/
inductive Turn where
  /-- A value. -/
  | value
  /-- What follows a value within the innermost bracket. -/
  | follow
deriving DecidableEq, Repr

/-- Passes over what is left of a value within open brackets, innermost first. Each round takes at
least one character, so there need be no more rounds than characters. -/
def skipFrom : Nat → Turn → List Bracket → List Char → Except Error (List Char)
  | _, .follow, [], s => .ok s
  | 0, _, _, _ => .error .truncated
  | rounds + 1, .value, stack, s =>
    let opened (bracket : Bracket) (s : List Char) : Except Error (List Char) :=
      match skipBlanks s with
      | [] => .error .truncated
      | c :: rest => do
        if c = bracket.closing then skipFrom rounds .follow stack rest
        else skipFrom rounds .value (bracket :: stack) (← enter bracket (c :: rest))
    match skipBlanks s with
    | '[' :: s => opened .array s
    | '\x7b' :: s => opened .object s
    | s => do skipFrom rounds .follow stack (← skipScalar s)
  | rounds + 1, .follow, bracket :: stack, s =>
    match skipBlanks s with
    | [] => .error .truncated
    | c :: s => do
      if c = ',' then skipFrom rounds .value (bracket :: stack) (← enter bracket s)
      else if c = bracket.closing then skipFrom rounds .follow stack s
      else throw .malformed

/-- Where no bracket is open, nothing more is passed over. -/
theorem skipFrom_follow_nil (rounds : Nat) (s : List Char) :
    skipFrom rounds .follow [] s = .ok s := by
  rw [skipFrom]

/-- Passes over one value, in as many rounds as there are characters. -/
def skipValue (rounds : Nat) (s : List Char) : Except Error (List Char) :=
  skipFrom rounds .value [] s

end TextureMemory.Json
