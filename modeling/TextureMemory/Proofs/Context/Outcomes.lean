import TextureMemory.Proofs.Context.AllocationFailures
import TextureMemory.Proofs.Context.Bindings
import TextureMemory.Proofs.Context.Bounds
import TextureMemory.Proofs.Context.Isolation

/-!
# What defining and resolving a texture come to

As long as nobody meddles with the heap, the answers of `Context.define` and `Context.resolve` are told by
the state that they find: `Context.defineOutcome` and `Context.resolveOutcome` list what may be wrong in
the order in which it is looked for, and leave the rest to the heap. In both, the heap is asked while the
old block of the texture still counts as used, so there has to be room for both blocks
(`Context.acquire`).

That no more can be wrong takes three invariants. A unit is bound to textures that exist
(`Context.Coherent`), so their slots are known; the block of a texture is in use (`Context.Backed`), so it
can be taken back; and what is counted stays below the limit of words for as many calls as there are words
(`Context.Bounded`). A texture that has memory has a size (`Arena.Owns`), so resolving it never finds that
its dimensions are wrong.
-/

namespace TextureMemory

namespace Context

/-- What asking for a block of so many bytes for a texture comes to. -/
def acquire (c : Context) (size : Nat) : Except Fault (Except TextureError Address) :=
  (c.heap.allocate size c.policy.request).map fun reply => reply.1.mapError .memory

/-- In a context, the texture of a slot, which was `t` before, is described by `handle` and has a new
block of `size` zeros, which nobody has sampled yet. The block that it had before is not in use. -/
structure Moved (c : Context) (slot : Slot) (t : Texture) (handle : Handle) (size : Nat)
    (p : Address) : Prop where
  texture : c.arena.get? slot = some { t with handle, backing := some p, stamp := .unused }
  block : ∃ b, c.heap.block? p = some b ∧ b.bytes = Array.replicate size 0
  old : ∀ a ∈ t.backing, c.heap.contains a = false

variable {c₀ c c' : Context} {past : List Step} {action : Action}
  {slot : Slot} {t shape : Texture} {size n : Nat} {s : Settings} {budgets : Budgets} {p : Address}
  {fault : Fault}

/-! ## The texture that is bound -/

/-- The active unit is empty, or the texture that is bound to it exists. -/
theorem Coherent.bound_cases (hc : c.Coherent) (hv : c.Valid) :
    (c.units.boundAt? c.units.active = none ∧ c.bound = .ok (.error (.notBound c.units.active))) ∨
    ∃ slot t, c.units.boundAt? c.units.active = some slot ∧ c.arena.get? slot = some t ∧
      c.bound = .ok (.ok (slot, t)) := by
  rcases hv.bound_cases with ⟨slot, t, hbound⟩ | ⟨cause, rfl | ⟨slot, rfl⟩, hbound⟩
  · obtain ⟨hunit, hget⟩ := bound_iff_boundAt?.mp hbound
    exact .inr ⟨slot, t, hunit, hget, hbound⟩
  · refine .inl ⟨?_, hbound⟩
    cases hunit : c.units.boundAt? c.units.active with
    | none => rfl
    | some slot =>
      obtain ⟨t, hget⟩ := Option.isSome_iff_exists.mp (hc _ slot hunit)
      rw [bound_iff_boundAt?.mpr ⟨hunit, hget⟩] at hbound
      cases hbound
  · exact absurd hbound hc.bound_ne

/-! ## A texture that is to have a new block -/

/-- A call that is to give a texture a new block halts the program if the heap does, or where a count
overflows. -/
theorem Renews.fault_of_halts (hr : Renews c action slot t shape size) (hv : c.Valid)
    (hhalts : Halts c action fault) :
    c.heap.allocate size c.policy.request = .error fault ∨ fault = .overflow := by
  cases hhalts with
  | renew hrenews _ hallocate =>
    obtain ⟨-, -, rfl⟩ := hr.unique hrenews
    exact .inl hallocate
  | event _ htally => exact .inr (Recorder.overflow_of_update hv.tally htally).1
  | bytes _ _ honce htally =>
    exact .inr (Recorder.overflow_of_update (Recorder.holds_of_update hv.tally honce) htally).1
  | reclaims | pending => exact .inr rfl
  | generate | allocate | window | frame => cases hr

/-- If it halts the program, the heap does, or a count overflows after as many calls as there are words. -/
theorem Renews.fault_cases (hr : Renews c action slot t shape size) (hv : c.Valid)
    (hn : c.Bounded n) (herror : c.perform action = .error fault) :
    c.heap.allocate size c.policy.request = .error fault ∨
      (fault = .overflow ∧ Word.limit ≤ n + 1) := by
  rcases hv.perform_cases action with ⟨told, c', hok, -⟩ | ⟨fault', herror', hhalts⟩
  · rw [herror] at hok
    cases hok
  · rw [herror] at herror'
    cases herror'
    rcases hr.fault_of_halts hv hhalts with hallocate | rfl
    · exact .inl hallocate
    · refine .inr ⟨rfl, Nat.le_of_not_lt fun hlt => ?_⟩
      cases (hn.tooLarge_of_halts hv hlt hhalts).1

/-- A texture that was given a new block is where it was, with the block and nothing left of the old. -/
theorem Renews.moved (hr : Renews c action slot t shape size) (hv : c.Valid) (pool : Pool)
    (cursor : Address) (reclaims pending : Nat) (tally : Recorder Tally) :
    { c with
      heap := (c.heap.extend size pool cursor).discard (t.backing.bind c.heap.block?)
      arena := c.arena.set slot (shape.moveTo c.heap.cursor)
      reclaims, pending, tally }.Moved slot t (shape.moveTo c.heap.cursor).handle size
        c.heap.cursor where
  texture := by
    have htexture : (c.arena.set slot (shape.moveTo c.heap.cursor)).get? slot =
        some (shape.moveTo c.heap.cursor) :=
      ((Arena.update_set hr.get?).get? slot).trans (if_pos rfl)
    cases hr <;> exact htexture
  block := ⟨_, (Heap.block?_extend_discard (hv.lt_cursor hr.bound)).trans (if_pos rfl), rfl⟩
  old a ha := by
    rw [Heap.contains, Heap.block?_of_exchange (hv.lt_cursor hr.bound) ha]
    rfl

/-! ## The two calls -/

/-- Defining a texture is performed as a call that answers with an address. -/
theorem perform_define (format : Format) (width height : Nat) :
    c.perform (.define format width height) =
      (c.define format width height).map (answer .address) := by
  rw [perform]
  cases c.define format width height <;> rfl

theorem perform_resolve : c.perform .resolve = c.resolve.map (answer .address) := by
  rw [perform]
  cases c.resolve <;> rfl

end Context

end TextureMemory
