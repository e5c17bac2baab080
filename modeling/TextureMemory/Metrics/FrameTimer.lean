import TextureMemory.Metrics.Duration

/-!
# Frame times

The time that each frame took, for the latest frames.
-/

namespace TextureMemory

/-- The times of the latest frames. -/
structure FrameTimer where
  /-- The times, in a window. -/
  times : Window Duration
  /-- The number of frames that were ever recorded. -/
  frames : Nat
deriving DecidableEq, Repr

namespace FrameTimer

/-- A timer that keeps the times of the latest `capacity` frames. -/
def ofCapacity (capacity : Nat) : Except Fault FrameTimer := do
  return ⟨← Window.ofCapacity Duration.width capacity, 0⟩

/-- Adds the time of a frame. -/
def record (t : FrameTimer) (time : Duration) : Except Fault FrameTimer :=
  return ⟨← t.times.push time, ← Word.add t.frames 1⟩

/-- The frames of a second at the mean frame time; zero where that takes no time. -/
def framesPerSecond (t : FrameTimer) : Except Fault Float := do
  let mean ← Duration.mean t.times
  return if mean = .zero then 0.0 else 1.0 / mean.toSeconds

/-- The mean frame time in milliseconds. -/
def milliseconds (t : FrameTimer) : Except Fault Float :=
  return (← Duration.mean t.times).toMilliseconds

/-- The shortest and the longest frame time in milliseconds. -/
def millisecondRange (t : FrameTimer) : Float × Float :=
  ((Duration.shortest t.times).toMilliseconds, (Duration.longest t.times).toMilliseconds)

end FrameTimer

end TextureMemory
