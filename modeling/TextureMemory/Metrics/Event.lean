/-!
# Events

The names under which texture calls are tallied.
-/

namespace TextureMemory

/-- What is tallied. -/
inductive Event where
  /-- Blocks that were replaced. -/
  | reclaims
  /-- The bytes of the blocks that replaced others. -/
  | reclaimedBytes
  /-- Textures that were given a surface. -/
  | definitions
  /-- Textures that were deleted. -/
  | deletions
  /-- Calls that got no memory. -/
  | allocFailures
deriving DecidableEq, Repr

namespace Event

/-- All events, in their order of declaration. -/
def all : List Event := [reclaims, reclaimedBytes, definitions, deletions, allocFailures]

/-- The name of an event in a tally. -/
def name : Event → String
  | reclaims => "reclaims"
  | reclaimedBytes => "reclaimed_bytes"
  | definitions => "definitions"
  | deletions => "deletions"
  | allocFailures => "alloc_failures"

end Event

end TextureMemory
