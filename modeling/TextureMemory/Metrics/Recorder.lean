import TextureMemory.Fault

/-!
# Recorders

Measurements can be switched off. A recorder that is off takes every update and keeps nothing, so
what is measured never depends on whether it is measured.
-/

namespace TextureMemory

/-- A measurement, unless measuring is switched off. -/
inductive Recorder (α : Type) where
  /-- What has been measured so far. -/
  | on (value : α)
  /-- Nothing is measured. -/
  | off
deriving DecidableEq, Repr

namespace Recorder

variable {α β : Type}

/-- Sets up a measurement. If measuring is switched off, nothing is set up. -/
def start (measuring : Bool) (a : Except Fault α) : Except Fault (Recorder α) :=
  if measuring then return on (← a) else return off

/-- Records something. -/
def update (r : Recorder α) (f : α → Except Fault α) : Except Fault (Recorder α) :=
  match r with
  | on a => return on (← f a)
  | off => return off

/-- What can be read off the measurement; `absent` if there is none. -/
def read (r : Recorder α) (absent : β) (f : α → β) : β :=
  match r with
  | on a => f a
  | off => absent

end Recorder

end TextureMemory
