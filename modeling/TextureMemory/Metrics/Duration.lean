import TextureMemory.Metrics.Window

/-!
# Durations

Durations are counted in nanoseconds. Their whole seconds are a machine word, so a sum of durations
may halt the program as a sum of words does. The mean of a window divides by the number of samples
as far as half a word holds it.
-/

namespace TextureMemory

/-- A span of time. -/
structure Duration where
  /-- The number of nanoseconds. -/
  nanoseconds : Nat
deriving DecidableEq, Repr

namespace Duration

/-- The nanoseconds of a second. -/
def perSecond : Nat := Nat.pow 10 9

/-- The bytes of a duration: a word of seconds, and another for the nanoseconds beyond them. -/
def width : Nat := 2 * Extent.word

/-- No time at all. -/
def zero : Duration := ⟨0⟩

/-- The duration of whole seconds and further nanoseconds. -/
def ofParts (seconds nanoseconds : Nat) : Duration := ⟨seconds * perSecond + nanoseconds⟩

/-- The whole seconds. -/
def seconds (d : Duration) : Nat := d.nanoseconds / perSecond

/-- The nanoseconds beyond the whole seconds. -/
def subsecond (d : Duration) : Nat := d.nanoseconds % perSecond

/-- The first number of nanoseconds whose whole seconds are no machine word. -/
def limit : Nat := Word.limit * perSecond

/-- The sum of a list of durations. -/
def sum (l : List Duration) : Except Fault Duration :=
  let total := Word.total (l.map nanoseconds)
  if total < limit then .ok ⟨total⟩ else .error .overflow

/-- The number of values of half a word. -/
def countLimit : Nat := Nat.pow 2 32

/-- The mean of a window, rounded down to nanoseconds; no time if there are no samples. -/
def mean (w : Window Duration) : Except Fault Duration := do
  if w.isEmpty then
    return zero
  let total ← sum w.samples.toList
  let count := w.size % countLimit
  if count = 0 then throw .divisionByZero else return ⟨total.nanoseconds / count⟩

/-- The shortest duration of a window; no time if there are no samples. -/
def shortest (w : Window Duration) : Duration :=
  ⟨(w.samples.toList.map nanoseconds).min?.getD 0⟩

/-- The longest duration of a window; no time if there are no samples. -/
def longest (w : Window Duration) : Duration :=
  ⟨(w.samples.toList.map nanoseconds).max?.getD 0⟩

/-- The duration in seconds: the whole seconds and the rest, each rounded to a double. -/
def toSeconds (d : Duration) : Float := d.seconds.toFloat + d.subsecond.toFloat / 1e9

/-- The duration in milliseconds. -/
def toMilliseconds (d : Duration) : Float := d.toSeconds * 1000.0

end Duration

end TextureMemory
