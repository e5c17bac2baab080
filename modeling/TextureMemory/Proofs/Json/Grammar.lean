import TextureMemory.Json.Record

/-!
# The grammar of text

Which texts are values is said here without a reader: a word, a number, a string, an array of values or an
object of named values, with blanks between any two of their parts (`Json.IsValue`). The items of an array and
the members of an object are laid out in the same way (`Json.Items`).

A string may hold escapes that name half of a pair and so no character. Such a string is a value, but no name:
`Json.Spells` says which characters a string stands for, if it stands for any.
-/

namespace TextureMemory.Json

/-! ## Blanks and strings -/

/-- Blanks and nothing else. -/
def Blank (s : List Char) : Prop := s.all isBlank = true

/-- Whether a character stands for itself within a string. -/
def isPlain (c : Char) : Bool := c != '"' && c != '\\' && !(c < ' ')

/-- A string from behind its opening mark up to its closing one. -/
inductive IsString : List Char → Prop
  | closed : IsString ['"']
  | plain {c : Char} {s : List Char} (hc : isPlain c = true) (hs : IsString s) : IsString (c :: s)
  | letter {e c : Char} {s : List Char} (he : escaped? e = some c) (hs : IsString s) :
      IsString ('\\' :: e :: s)
  | code {a b c d : Char} {n : Nat} {s : List Char} (hn : hexValue? a b c d = some n)
      (hs : IsString s) : IsString ('\\' :: 'u' :: a :: b :: c :: d :: s)

/-- The characters that a string stands for, and the string from behind its opening mark. -/
inductive Spells : List Char → List Char → Prop
  | closed : Spells [] ['"']
  | plain {c : Char} {cs s : List Char} (hc : isPlain c = true) (hs : Spells cs s) :
      Spells (c :: cs) (c :: s)
  | letter {e c : Char} {cs s : List Char} (he : escaped? e = some c) (hs : Spells cs s) :
      Spells (c :: cs) ('\\' :: e :: s)
  | code {a b c d : Char} {n : Nat} {cs s : List Char} (hn : hexValue? a b c d = some n)
      (hhigh : isHighHalf n = false) (hlow : isLowHalf n = false) (hs : Spells cs s) :
      Spells (Char.ofNat n :: cs) ('\\' :: 'u' :: a :: b :: c :: d :: s)
  | pair {a b c d e f g h : Char} {n m : Nat} {cs s : List Char} (hn : hexValue? a b c d = some n)
      (hhigh : isHighHalf n = true) (hm : hexValue? e f g h = some m) (hlow : isLowHalf m = true)
      (hs : Spells cs s) :
      Spells (joinHalves n m :: cs)
        ('\\' :: 'u' :: a :: b :: c :: d :: '\\' :: 'u' :: e :: f :: g :: h :: s)

/-! ## Numbers -/

/-- Digits, at least one. -/
structure Digits (s : List Char) : Prop where
  ne_nil : s ≠ []
  all : s.all isDigit = true

/-- The digits of a number before its point. Only zero begins with a zero. -/
inductive IsWhole : List Char → Prop
  | zero : IsWhole ['0']
  | digits {s : List Char} (hs : Digits s) (hzero : s.head? ≠ some '0') : IsWhole s

/-- What a number may have behind its point, and the point. -/
inductive IsFraction : List Char → Prop
  | none : IsFraction []
  | digits {s : List Char} (hs : Digits s) : IsFraction ('.' :: s)

/-- The power of ten that a number may be multiplied with. -/
inductive IsExponent : List Char → Prop
  | none : IsExponent []
  | digits {mark : Char} {sign s : List Char} (hmark : isExponentMark mark = true)
      (hsign : sign ∈ [[], ['+'], ['-']]) (hs : Digits s) : IsExponent (mark :: (sign ++ s))

/-- A number. -/
inductive IsNumber : List Char → Prop
  | mk {sign whole fraction exponent : List Char} (hsign : sign ∈ [[], ['-']])
      (hwhole : IsWhole whole) (hfraction : IsFraction fraction) (hexponent : IsExponent exponent) :
      IsNumber (sign ++ (whole ++ (fraction ++ exponent)))

/-! ## Values -/

/-- Items within a bracket, up to its end: behind the open bracket (`true`), or behind another item. -/
inductive Items {α : Type} (Item : α → List Char → Prop) (bracket : Bracket) :
    Bool → List α → List Char → Prop
  | closed {first : Bool} {b : List Char} (hb : Blank b) :
      Items Item bracket first [] (b ++ [bracket.closing])
  | first {a : α} {items : List α} {b t s : List Char} (hb : Blank b) (ha : Item a t)
      (hs : Items Item bracket false items s) : Items Item bracket true (a :: items) (b ++ (t ++ s))
  | next {a : α} {items : List α} {b b' t s : List Char} (hb : Blank b) (hb' : Blank b')
      (ha : Item a t) (hs : Items Item bracket false items s) :
      Items Item bracket false (a :: items) (b ++ ',' :: (b' ++ (t ++ s)))

/-- A member of an object: the string of its name from behind the opening mark, and its value. -/
def IsMember (m : List Char × List Char) (t : List Char) : Prop :=
  ∃ b b', Blank b ∧ Blank b' ∧ t = '"' :: (m.1 ++ (b ++ ':' :: (b' ++ m.2)))

/-- A value, from its first character to its last. -/
inductive IsValue : List Char → Prop
  | null : IsValue ['n', 'u', 'l', 'l']
  | yes : IsValue ['t', 'r', 'u', 'e']
  | no : IsValue ['f', 'a', 'l', 's', 'e']
  | number {s : List Char} (hs : IsNumber s) : IsValue s
  | string {s : List Char} (hs : IsString s) : IsValue ('"' :: s)
  | array {values : List (List Char)} {s : List Char} (hvalues : ∀ v ∈ values, IsValue v)
      (hs : Items Eq .array true values s) : IsValue ('[' :: s)
  | object {members : List (List Char × List Char)} {s : List Char}
      (hnames : ∀ m ∈ members, IsString m.1) (hvalues : ∀ m ∈ members, IsValue m.2)
      (hs : Items IsMember .object true members s) : IsValue ('\x7b' :: s)

/-- A member of an object, by the text of its name and its value. -/
def IsNamed (m : String × List Char) (t : List Char) : Prop :=
  ∃ key, Spells m.1.toList key ∧ IsMember (key, m.2) t

/-- An object of members with these names and values, in this order. -/
structure IsObject (members : List (String × List Char)) (t : List Char) : Prop where
  isValue : ∀ m ∈ members, IsValue m.2
  layout : ∃ s, t = '\x7b' :: s ∧ Items IsNamed .object true members s

/-- An array of these values, in this order. -/
structure IsArray (values : List (List Char)) (t : List Char) : Prop where
  isValue : ∀ v ∈ values, IsValue v
  layout : ∃ s, t = '[' :: s ∧ Items Eq .array true values s

/-- The value that is given to a name, or the first of them. -/
def valueOf? (members : List (String × List Char)) (name : String) : Option (List Char) :=
  members.lookup name

end TextureMemory.Json
