import TextureMemory.Metrics.Recorder
import TextureMemory.Word

/-!
# Tallies

A `Tally` keeps a sum under each name that was ever added to. The names are listed in increasing
order of the bytes that encode them (`Tally.key`), each once: `Tally.addTo` walks along the list
until it finds the name, or the place where the name belongs. A name that zero was added to is
listed like any other. A sum that is no machine word halts the program.
-/

namespace TextureMemory

/-- Sums under names. -/
structure Tally where
  /-- The names with their sums, in increasing order of the names. -/
  entries : List (String × Nat)
deriving DecidableEq, Repr

namespace Tally

/-- The bytes that encode a name. -/
def key (name : String) : List UInt8 := name.toByteArray.data.toList

/-- Names are told apart by their keys. -/
theorem key_inj {a b : String} : key a = key b ↔ a = b := by
  rw [key, key, Array.toList_inj, ← ByteArray.ext_iff, String.toByteArray_inj]

/-- The tally without names. -/
def empty : Tally := ⟨[]⟩

/-- Adds `n` to the sum under `name` in a list that is ordered by its names. -/
def addTo (name : String) (n : Nat) : List (String × Nat) → Except Fault (List (String × Nat))
  | [] => return [(name, ← Word.add 0 n)]
  | (other, m) :: rest => do
    if key name < key other then
      return (name, ← Word.add 0 n) :: (other, m) :: rest
    else if name = other then
      return (other, ← Word.add m n) :: rest
    else
      return (other, m) :: (← addTo name n rest)

/-- Adds `n` to the sum under a name, which starts at zero. -/
def add (t : Tally) (name : String) (n : Nat) : Except Fault Tally :=
  return ⟨← addTo name n t.entries⟩

/-- The sum under a name. -/
def get (t : Tally) (name : String) : Nat := (t.entries.lookup name).getD 0

/-- The names with their sums, in increasing order of the names. -/
def toList (t : Tally) : List (String × Nat) := t.entries

end Tally

namespace Recorder

/-- The sum under a name; zero where nothing is tallied. -/
def get (r : Recorder Tally) (name : String) : Nat := r.read 0 (·.get name)

/-- The names with their sums; none where nothing is tallied. -/
def toList (r : Recorder Tally) : List (String × Nat) := r.read [] Tally.toList

end Recorder

end TextureMemory
