/-!
# Memory pools

Texture memory comes in five pools, each with a budget of bytes. A request names a memory class:
one pool, or the main class, which tries video memory first and then main memory.
-/

namespace TextureMemory

/-- A pool of memory. -/
inductive Pool where
  /-- Dedicated video memory. -/
  | vram
  /-- Uncached main memory that is mapped for the device. -/
  | ram
  /-- Physically contiguous slow memory. -/
  | slow
  /-- Memory borrowed from the budget of the application. -/
  | budget
  /-- Memory provided from outside. -/
  | external
deriving DecidableEq, Repr

/-- All pools, in their order of declaration. -/
def Pool.all : List Pool := [vram, ram, slow, budget, external]

/-- What a request for memory asks for. -/
inductive MemoryClass where
  /-- Memory of one pool. -/
  | only (pool : Pool)
  /-- Video memory, or else main memory. -/
  | main
deriving DecidableEq, Repr

namespace MemoryClass

/-- All classes: the pools, and then the main class. -/
def all : List MemoryClass := Pool.all.map only ++ [main]

/-- The pools that a request tries, in order. -/
def candidates : MemoryClass → List Pool
  | only pool => [pool]
  | main => [.vram, .ram]

/-- The name by which settings choose a class. -/
def name : MemoryClass → String
  | only .vram => "vram"
  | only .ram => "ram"
  | only .slow => "slow"
  | only .budget => "budget"
  | only .external => "external"
  | main => "main"

/-- The name of a class in messages. -/
def label : MemoryClass → String
  | only .vram => "Vram"
  | only .ram => "Ram"
  | only .slow => "Slow"
  | only .budget => "Budget"
  | only .external => "External"
  | main => "Main"

/-- The class of a given name. -/
def ofName? (s : String) : Option MemoryClass :=
  all.find? (·.name = s)

end MemoryClass

/-- A value for each pool. -/
structure PerPool (α : Type) where
  /-- The value of video memory. -/
  vram : α
  /-- The value of main memory. -/
  ram : α
  /-- The value of slow memory. -/
  slow : α
  /-- The value of the application's budget. -/
  budget : α
  /-- The value of external memory. -/
  external : α
deriving DecidableEq, Repr

namespace PerPool

variable {α : Type}

/-- The same value for every pool. -/
def uniform (a : α) : PerPool α := ⟨a, a, a, a, a⟩

/-- The value of a pool. -/
def get (t : PerPool α) : Pool → α
  | .vram => t.vram
  | .ram => t.ram
  | .slow => t.slow
  | .budget => t.budget
  | .external => t.external

/-- Replaces the value of one pool. -/
def set (t : PerPool α) (p : Pool) (a : α) : PerPool α :=
  match p with
  | .vram => { t with vram := a }
  | .ram => { t with ram := a }
  | .slow => { t with slow := a }
  | .budget => { t with budget := a }
  | .external => { t with external := a }

/-- The pools with their values. -/
def toList (t : PerPool α) : List (Pool × α) :=
  Pool.all.map fun p => (p, t.get p)

@[simp] theorem get_uniform (a : α) (p : Pool) : (uniform a).get p = a := by cases p <;> rfl

/-- A value that was set is found in its own pool. -/
@[simp] theorem get_set_self (t : PerPool α) (p : Pool) (a : α) : (t.set p a).get p = a := by
  cases p <;> rfl

/-- Setting the value of a pool leaves those of the others. -/
theorem get_set_of_ne (t : PerPool α) {p q : Pool} (a : α) (h : p ≠ q) :
    (t.set p a).get q = t.get q := by
  cases p <;> cases q <;> first | rfl | contradiction

/-- Two tables with the same value for every pool are the same. -/
theorem ext_get {t u : PerPool α} (h : ∀ p, t.get p = u.get p) : t = u := by
  cases t; cases u
  simp only [mk.injEq]
  exact ⟨h .vram, h .ram, h .slow, h .budget, h .external⟩

end PerPool

/-- The bytes that each pool may give away. -/
abbrev Budgets := PerPool Nat

namespace Budgets

/-- The number of bytes of a mebibyte. -/
def mebibyte : Nat := 1024 * 1024

/-- The budgets that hold where settings name none. -/
def standard : Budgets where
  vram := 112 * mebibyte
  ram := 256 * mebibyte
  slow := 64 * mebibyte
  budget := 32 * mebibyte
  external := 0

end Budgets

end TextureMemory
