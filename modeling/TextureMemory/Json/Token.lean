import TextureMemory.Json.Error
import TextureMemory.Word

/-!
# Marks, words and strings

The small pieces of text in this format. Each reader takes the characters that are left and answers
with those behind what it read. Strings are read in two ways: `readString` decodes the escapes, and
`skipString` only checks their form, so it also passes over escapes that name no character.
-/

namespace TextureMemory.Json

/-- Whether a character may stand between any two tokens. -/
def isBlank (c : Char) : Bool := c == ' ' || c == '\n' || c == '\t' || c == '\r'

/-- Leaves out the blanks at the front. -/
def skipBlanks (s : List Char) : List Char := s.dropWhile isBlank

/-- Reads a word letter by letter. -/
def readWord : List Char → List Char → Except Error (List Char)
  | [], s => .ok s
  | _ :: _, [] => .error .truncated
  | c :: word, d :: s => if c = d then readWord word s else .error .malformed

/-- Reads the colon behind a name. -/
def readColon (s : List Char) : Except Error (List Char) :=
  match skipBlanks s with
  | [] => .error .truncated
  | c :: s => if c = ':' then .ok s else .error .malformed

/-- The value of a hexadecimal digit. -/
def hexDigit? (c : Char) : Option Nat :=
  if '0' ≤ c ∧ c ≤ '9' then some (c.toNat - '0'.toNat)
  else if 'a' ≤ c ∧ c ≤ 'f' then some (c.toNat - 'a'.toNat + 10)
  else if 'A' ≤ c ∧ c ≤ 'F' then some (c.toNat - 'A'.toNat + 10)
  else none

/-- The value of four hexadecimal digits. -/
def hexValue? (a b c d : Char) : Option Nat := do
  return (((← hexDigit? a) * 16 + (← hexDigit? b)) * 16 + (← hexDigit? c)) * 16 + (← hexDigit? d)

/-- The error for an escape that lacks its four digits. They would take four bytes, and where fewer
bytes are left the text has ended too early, whatever these are. -/
def hexError (s : List Char) : Error :=
  if Word.total (s.map Char.utf8Size) < 4 then .truncated else .malformed

/-- The character that a letter behind a backslash stands for. -/
def escaped? : Char → Option Char
  | '"' => some '"'
  | '\\' => some '\\'
  | '/' => some '/'
  | 'b' => some '\x08'
  | 'f' => some '\x0c'
  | 'n' => some '\n'
  | 'r' => some '\r'
  | 't' => some '\t'
  | _ => none

/-- Whether a number is the first half of a pair that names one character. -/
def isHighHalf (n : Nat) : Bool := 0xD800 ≤ n && n ≤ 0xDBFF

/-- Whether a number is the second half of a pair that names one character. -/
def isLowHalf (n : Nat) : Bool := 0xDC00 ≤ n && n ≤ 0xDFFF

/-- The character that a pair of halves names. -/
def joinHalves (high low : Nat) : Char :=
  Char.ofNat ((high - 0xD800) * 0x400 + (low - 0xDC00) + 0x10000)

/-- The error for a first half that no second half follows. -/
def halfError : List Char → Error
  | [] => .truncated
  | ['\\'] => .truncated
  | '\\' :: 'u' :: s => hexError s
  | _ => .malformed

/-- Reads a string from behind its opening mark. -/
def readString (read : List Char) : List Char → Except Error (String × List Char)
  | [] => .error .truncated
  | '"' :: s => .ok (String.ofList read.reverse, s)
  | '\\' :: 'u' :: a :: b :: c :: d :: s =>
    match hexValue? a b c d with
    | none => .error .malformed
    | some n =>
      if isLowHalf n then
        .error .malformed
      else if isHighHalf n then
        match s with
        | '\\' :: 'u' :: e :: f :: g :: h :: s =>
          match hexValue? e f g h with
          | none => .error .malformed
          | some m =>
            if isLowHalf m then readString (joinHalves n m :: read) s else .error .malformed
        | s => .error (halfError s)
      else
        readString (Char.ofNat n :: read) s
  | '\\' :: 'u' :: s => .error (hexError s)
  | ['\\'] => .error .truncated
  | '\\' :: c :: s =>
    match escaped? c with
    | some e => readString (e :: read) s
    | none => .error .malformed
  | c :: s => if c < ' ' then .error .malformed else readString (c :: read) s

/-- A mark without an escape ends a string. -/
theorem readString_closing (read s : List Char) :
    readString read ('"' :: s) = .ok (String.ofList read.reverse, s) := by
  rw [readString]

/-- Passes over a string from behind its opening mark. -/
def skipString : List Char → Except Error (List Char)
  | [] => .error .truncated
  | '"' :: s => .ok s
  | '\\' :: 'u' :: a :: b :: c :: d :: s =>
    match hexValue? a b c d with
    | none => .error .malformed
    | some _ => skipString s
  | '\\' :: 'u' :: s => .error (hexError s)
  | ['\\'] => .error .truncated
  | '\\' :: c :: s =>
    match escaped? c with
    | some _ => skipString s
    | none => .error .malformed
  | c :: s => if c < ' ' then .error .malformed else skipString s

/-- A string that ends at once is passed over with its closing mark. -/
theorem skipString_closing (s : List Char) : skipString ('"' :: s) = .ok s := by
  rw [skipString]

end TextureMemory.Json
