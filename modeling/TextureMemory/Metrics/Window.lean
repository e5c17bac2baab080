import TextureMemory.Memory.Extent
import TextureMemory.Metrics.Recorder

/-!
# Windows of samples

A window keeps the latest samples, up to its capacity, in a table that is written round and round:
it grows until it is full, and from then on each sample takes the place of the oldest. Room for the
whole table is set aside at the start, so a capacity may be too large before there is any sample.
-/

namespace TextureMemory

/-- The latest samples of a sequence. -/
structure Window (α : Type) where
  /-- The number of samples that are kept. -/
  capacity : Nat
  /-- The table of samples. -/
  samples : Array α
  /-- The index at which the next sample goes once the table is full. -/
  next : Nat
deriving DecidableEq, Repr

namespace Window

variable {α : Type}

/-- A window without samples. It keeps at least one, whatever the capacity asked for. -/
def empty (capacity : Nat) : Window α := ⟨max capacity 1, #[], 0⟩

/-- Sets up a window without samples, in a table that has room for samples of `width` bytes each up
to the capacity. -/
def ofCapacity (width capacity : Nat) : Except Fault (Window α) := do
  Extent.require (max capacity 1) width
  return empty capacity

/-- The number of samples. -/
def size (w : Window α) : Nat := w.samples.size

/-- Whether there are no samples. -/
def isEmpty (w : Window α) : Bool := w.samples.isEmpty

/-- The samples, oldest first. -/
def toList (w : Window α) : List α :=
  if w.size < w.capacity then w.samples.toList
  else w.samples.toList.drop w.next ++ w.samples.toList.take w.next

/-- Adds a sample, in the place of the oldest one if the window is full. -/
def push (w : Window α) (sample : α) : Except Fault (Window α) :=
  let next := (w.next + 1) % w.capacity
  if w.size < w.capacity then
    .ok { w with samples := w.samples.push sample, next }
  else if w.next < w.size then
    .ok { w with samples := w.samples.setIfInBounds w.next sample, next }
  else
    .error .outOfRange

/-- The mean of the samples, rounded down; zero if there are none. -/
def mean (w : Window Nat) : Except Fault Nat :=
  if w.isEmpty then return 0 else return (← Word.sum w.samples.toList) / w.size

/-- The largest sample; zero if there are none. -/
def peak (w : Window Nat) : Nat := w.samples.toList.max?.getD 0

end Window

namespace Recorder

variable {α : Type}

/-- The number of samples; none are kept where nothing is measured. -/
def size (r : Recorder (Window α)) : Nat := r.read 0 Window.size

/-- Whether there are no samples. -/
def isEmpty (r : Recorder (Window α)) : Bool := r.read true Window.isEmpty

/-- The mean of the samples; zero where nothing is measured. -/
def mean (r : Recorder (Window Nat)) : Except Fault Nat := r.read (.ok 0) Window.mean

/-- The largest sample; zero where nothing is measured. -/
def peak (r : Recorder (Window Nat)) : Nat := r.read 0 Window.peak

end Recorder

end TextureMemory
