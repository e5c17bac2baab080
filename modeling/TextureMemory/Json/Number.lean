import TextureMemory.Json.Error
import TextureMemory.Word

/-!
# Numbers

A number is a whole number if it has neither a point nor an exponent and fits a machine word, one
with a sign if it is below zero. Every other number is a double: the word made of its leading
digits, multiplied or divided by a power of ten (`scale?`). That takes one rounding or several, so
the double need not be the one that is nearest to the number. Where numbers are passed over
(`skipNumber`), only their form matters.
-/

namespace TextureMemory.Json

/-- The value of a decimal digit. -/
def digit? (c : Char) : Option Nat :=
  if '0' ≤ c ∧ c ≤ '9' then some (c.toNat - '0'.toNat) else none

/-- Whether a character is a decimal digit. -/
def isDigit (c : Char) : Bool := (digit? c).isSome

/-- Whether a character begins an exponent. -/
def isExponentMark (c : Char) : Bool := c == 'e' || c == 'E'

/-- The number that a list of digits spells, but never more than `cap`. -/
def digitsValue (cap : Nat) (digits : List Char) : Nat :=
  digits.foldl (fun n c => min cap (n * 10 + (digit? c).getD 0)) 0

/-- Appends digits to a number for as long as it stays a word. -/
def extend (n : Nat) : List Char → Nat × List Char
  | [] => (n, [])
  | c :: s =>
    match digit? c with
    | none => (n, c :: s)
    | some d => if n * 10 + d < Word.limit then extend (n * 10 + d) s else (n, c :: s)

/-- A number that was read. -/
inductive Number where
  /-- A machine word. -/
  | natural (value : Nat)
  /-- A whole number below zero. -/
  | negative (magnitude : Nat)
  /-- Any other number, as the bits of a double. -/
  | fractional (bits : UInt64)
deriving DecidableEq, Repr

/-- The largest power of ten that a double holds. -/
def maxPower : Nat := 308

/-- Divides by a power of ten in steps that a double holds. -/
def divideByPower (f : Float) (power : Nat) : Float :=
  if power ≤ maxPower then
    f / Float.ofScientific 1 false power
  else if f == 0 then
    f
  else
    divideByPower (f / Float.ofScientific 1 false maxPower) (power - maxPower)
termination_by power
decreasing_by simp only [maxPower] at *; omega

/-- The double that is a word times a power of ten, if it is finite. -/
def scale? (significand : Nat) (exponent : Int) : Option Float :=
  let f := significand.toFloat
  if 0 ≤ exponent then
    if exponent ≤ maxPower then
      let product := f * Float.ofScientific 1 false exponent.toNat
      if product.isInf then none else some product
    else if f == 0 then some f
    else none
  else
    some (divideByPower f exponent.natAbs)

/-- The number that is a word times a power of ten, with a sign. -/
def fractional (negative : Bool) (significand : Nat) (exponent : Int) : Except Error Number :=
  match scale? significand exponent with
  | none => .error .malformed
  | some f => .ok (.fractional (if negative then -f else f).toBits)

/-- The largest exponent that is looked at. -/
def maxExponent : Nat := Nat.pow 2 31 - 1

/-- Reads the exponent of a number from behind its mark, and finishes the number. -/
def readExponent (negative : Bool) (significand : Nat) (exponent : Int) (s : List Char) :
    Except Error (Number × List Char) := do
  let (down, s) := match s with
    | '+' :: s => (false, s)
    | '-' :: s => (true, s)
    | s => (false, s)
  match s with
  | [] => throw .truncated
  | c :: _ =>
    if !isDigit c then throw .malformed
    let power := digitsValue (maxExponent + 1) (s.takeWhile isDigit)
    let s := s.dropWhile isDigit
    if power ≤ maxExponent then
      let exponent := if down then exponent - power else exponent + power
      return (← fractional negative significand exponent, s)
    else if significand ≠ 0 && !down then
      throw .malformed
    else
      return (← fractional negative 0 0, s)

/-- Reads the digits behind the point of a number, of which there must be one, and finishes the
number. Digits that do not fit the word are left out, and so are all that follow. -/
def readFraction (negative : Bool) (significand : Nat) (exponent : Int) (s : List Char) :
    Except Error (Number × List Char) := do
  match s with
  | [] => throw .truncated
  | c :: _ =>
    if !isDigit c then throw .malformed
    let (significand, rest) := extend significand s
    let exponent := exponent - (s.length - rest.length : Nat)
    match rest.dropWhile isDigit with
    | [] => return (← fractional negative significand exponent, [])
    | c :: rest =>
      if isExponentMark c then readExponent negative significand exponent rest
      else return (← fractional negative significand exponent, c :: rest)

/-- A whole number with a sign. With a minus sign, zero is no whole number, and neither is what lies
below the least number that a word with a sign holds. -/
def whole (negative : Bool) (magnitude : Nat) : Except Error Number :=
  if !negative then .ok (.natural magnitude)
  else if 0 < magnitude ∧ magnitude ≤ Nat.pow 2 63 then .ok (.negative magnitude)
  else fractional negative magnitude 0

/-- Reads a number from behind its sign. Digits in front of the point that do not fit the word count
as powers of ten. -/
def readUnsigned (negative : Bool) (s : List Char) : Except Error (Number × List Char) := do
  match s with
  | [] => throw .truncated
  | c :: s =>
    let some first := digit? c
      | throw .malformed
    if first = 0 && s.head?.any isDigit then throw .malformed
    let (significand, rest) := extend first s
    let dropped := (rest.takeWhile isDigit).length
    match rest.dropWhile isDigit with
    | '.' :: rest => readFraction negative significand dropped rest
    | rest =>
      if rest.head?.any isExponentMark then
        readExponent negative significand dropped (rest.drop 1)
      else if dropped = 0 then
        return (← whole negative significand, rest)
      else
        return (← fractional negative significand dropped, rest)

/-- Reads a number. -/
def readNumber : List Char → Except Error (Number × List Char)
  | '-' :: s => readUnsigned true s
  | s => readUnsigned false s

/-- What a number is found as. -/
def Number.found : Number → Found
  | natural value => .natural value
  | negative magnitude => .negative magnitude
  | fractional bits => .fractional bits

/-- Passes over the digits at the front, of which there must be one. -/
def skipDigits (s : List Char) : Except Error (List Char) :=
  if s.head?.any isDigit then .ok (s.dropWhile isDigit) else .error .malformed

/-- Passes over an exponent, if there is one. -/
def skipExponent (s : List Char) : Except Error (List Char) :=
  match s with
  | [] => .ok []
  | c :: rest =>
    if isExponentMark c then
      match rest with
      | '+' :: rest => skipDigits rest
      | '-' :: rest => skipDigits rest
      | rest => skipDigits rest
    else
      .ok s

/-- Passes over a number from behind its sign. -/
def skipUnsigned (s : List Char) : Except Error (List Char) := do
  let rest ← match s with
    | '0' :: rest => if rest.head?.any isDigit then throw .malformed else pure rest
    | s => skipDigits s
  match rest with
  | '.' :: rest => skipExponent (← skipDigits rest)
  | rest => skipExponent rest

/-- Passes over a number. -/
def skipNumber : List Char → Except Error (List Char)
  | '-' :: s => skipUnsigned s
  | s => skipUnsigned s

end TextureMemory.Json
