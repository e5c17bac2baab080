import TextureMemory.Word

/-!
# Addresses

An address of device memory is a positive machine word; zero is the address of nothing. It is
written in hexadecimal with at least eight digits.
-/

namespace TextureMemory

/-- The address of a block of memory. -/
structure Address where
  /-- The place of the first byte. -/
  value : Nat
  /-- Nothing lies at zero. -/
  value_pos : 0 < value
deriving DecidableEq, Repr

namespace Address

/-- The address at a place, unless that is zero. -/
def ofNat? (n : Nat) : Option Address :=
  if h : 0 < n then some ⟨n, h⟩ else none

/-- The address `span` bytes further on, if it is a machine word. -/
def advance? (a : Address) (span : Nat) : Option Address :=
  if a.value + span < Word.limit then
    some ⟨a.value + span, Nat.lt_of_lt_of_le a.value_pos (Nat.le_add_right ..)⟩
  else
    none

/-- The digits of a place in base sixteen, with zeros in front up to eight digits. -/
def hexDigits (n : Nat) : String :=
  let digits := Nat.toDigits 16 n
  String.ofList (List.replicate (8 - digits.length) '0' ++ digits)

/-- An address as it is written in messages. -/
def text (a : Address) : String := "0x" ++ hexDigits a.value

@[ext] theorem ext {a b : Address} (h : a.value = b.value) : a = b := by
  cases a; cases b; cases h; rfl

/-- An address below another is not that one. -/
theorem ne_of_lt {a b : Address} (h : a.value < b.value) : a ≠ b := fun heq =>
  Nat.ne_of_lt h (congrArg value heq)

/-- An address can be moved on just as long as it stays a word. -/
theorem advance?_eq_some_iff {a b : Address} {span : Nat} :
    a.advance? span = some b ↔ b.value = a.value + span ∧ a.value + span < Word.limit := by
  unfold advance?
  split
  · simp [*, Address.ext_iff, eq_comm]
  · simp [*]

end Address

end TextureMemory
