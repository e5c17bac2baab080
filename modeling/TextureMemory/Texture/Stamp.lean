/-!
# Use stamps

A texture remembers the frame in which the device last sampled it, until its memory is replaced.
-/

namespace TextureMemory

/-- When a texture was last sampled. -/
inductive Stamp where
  /-- Not since its memory was acquired. -/
  | unused
  /-- In this frame. -/
  | frame (n : Nat)
deriving DecidableEq, Repr

namespace Stamp

/-- The frames that have passed since the texture was sampled; a stamp that lies ahead counts as the
current frame. -/
def elapsed? (s : Stamp) (current : Nat) : Option Nat :=
  match s with
  | unused => none
  | frame n => some (current - n)

/-- The frame of the stamp. -/
def frame? : Stamp → Option Nat
  | unused => none
  | frame n => some n

end Stamp

end TextureMemory
