import TextureMemory.Proofs.Arena
import TextureMemory.Proofs.Heap.Calls
import TextureMemory.Proofs.Metrics

/-!
# What a context keeps

In a valid context no two textures own a block at the same address, and the addresses that they own
lie below the cursor of the heap, whether or not the blocks are still in use. The latter is all that
can be said while anyone may give blocks back behind the back of the textures, and it is enough: a new
block never has an address that a texture owns already.
-/

namespace TextureMemory

/-! ## What textures own -/

namespace Arena

variable {a a' : Arena} {unit : Nat} {cursor cursor' : Address} {s slot : Slot} {t t' : Texture}
  {new : Option Texture} {p : Address}

/-- The textures own addresses below the cursor, no two of them the same; the device knows them; and
the surface of a texture that owns one has a size. -/
structure Owns (a : Arena) (unit : Nat) (cursor : Address) : Prop where
  lt_cursor : ∀ s t p, a.get? s = some t → t.backing = some p → p.value < cursor.value
  data_eq : ∀ s t, a.get? s = some t → t.handle.data = t.backing
  size : ∀ s t p, a.get? s = some t → t.backing = some p →
    ∃ n, 0 < n ∧ t.size? unit = .ok (some n)
  unique : ∀ s s' t t' p, a.get? s = some t → a.get? s' = some t' → t.backing = some p →
    t'.backing = some p → s = s'

/-- An arena without textures owns nothing. -/
theorem empty_owns : empty.Owns unit cursor := by
  have hnone : ∀ s, empty.get? s = none := fun s => get?_eq_none (by simp [empty])
  constructor <;> simp [hnone]

/-- What is owned stays below the cursor when it moves on. -/
theorem Owns.mono (ho : a.Owns unit cursor) (hle : cursor.value ≤ cursor'.value) :
    a.Owns unit cursor' :=
  ⟨fun s t p hs hp => Nat.lt_of_lt_of_le (ho.lt_cursor s t p hs hp) hle, ho.data_eq, ho.size,
    ho.unique⟩

/-- What is to be shown of a texture in the place of another. -/
theorem Owns.update (ho : a.Owns unit cursor) (hu : Update a a' slot new)
    (hlt : ∀ t p, new = some t → t.backing = some p → p.value < cursor.value)
    (hdata : ∀ t, new = some t → t.handle.data = t.backing)
    (hsize : ∀ t p, new = some t → t.backing = some p →
      ∃ n, 0 < n ∧ t.size? unit = .ok (some n))
    (hunique : ∀ s t t' p, s ≠ slot → a.get? s = some t → new = some t' → t.backing = some p →
      t'.backing ≠ some p) : a'.Owns unit cursor where
  lt_cursor s t p hs hp := by
    rw [hu.get?] at hs
    split at hs
    · exact hlt t p hs hp
    · exact ho.lt_cursor s t p hs hp
  data_eq s t hs := by
    rw [hu.get?] at hs
    split at hs
    · exact hdata t hs
    · exact ho.data_eq s t hs
  size s t p hs hp := by
    rw [hu.get?] at hs
    split at hs
    · exact hsize t p hs hp
    · exact ho.size s t p hs hp
  unique s s' t t' p hs hs' hp hp' := by
    rw [hu.get?] at hs hs'
    -- Both textures are the new one, or one of them is, or neither.
    split at hs <;> split at hs'
    · next heq heq' => rw [heq, heq']
    · next heq hne => exact absurd hp (hunique s' t' t p hne hs' hs hp')
    · next hne heq => exact absurd hp' (hunique s t t' p hne hs hs' hp)
    · exact ho.unique s s' t t' p hs hs' hp hp'

/-- A texture without memory, or none at all, owns nothing. -/
theorem Owns.update_bare (ho : a.Owns unit cursor) (hu : Update a a' slot new)
    (hbare : ∀ t, new = some t → t.backing = none ∧ t.handle.data = none) : a'.Owns unit cursor := by
  apply ho.update hu
  · intro t p ht hp
    rw [(hbare t ht).1] at hp
    cases hp
  · intro t ht
    rw [(hbare t ht).1, (hbare t ht).2]
  · intro t p ht hp
    rw [(hbare t ht).1] at hp
    cases hp
  · intro s t t' p _ _ ht' _
    rw [(hbare t' ht').1]
    exact nofun

/-- A texture with another stamp owns what it owned before. -/
theorem Owns.stamp (ho : a.Owns unit cursor) (hs : a.get? slot = some t) (stamp : Stamp) :
    (a.set slot { t with stamp }).Owns unit cursor := by
  refine ho.update (update_set hs) ?_ ?_ ?_ ?_
  · rintro _ p ⟨⟩ hp
    exact ho.lt_cursor slot t p hs hp
  · rintro _ ⟨⟩
    exact ho.data_eq slot t hs
  · rintro _ p ⟨⟩ hp
    exact ho.size slot t p hs hp
  · rintro s t₁ _ p hne hs₁ ⟨⟩ hp hp'
    exact hne (ho.unique s slot t₁ t p hs₁ hs hp hp')

/-- A texture with a block at the cursor shares it with no other. -/
theorem Owns.moveTo (ho : a.Owns unit cursor) (hs : a.get? slot = some t)
    (hlt : cursor.value < cursor'.value) {shape : Texture} {n : Nat} (hpos : 0 < n)
    (hsize : shape.size? unit = .ok (some n)) :
    (a.set slot (shape.moveTo cursor)).Owns unit cursor' := by
  refine (ho.mono (Nat.le_of_lt hlt)).update (update_set hs) ?_ ?_ ?_ ?_
  · rintro _ p ⟨⟩ ⟨⟩
    exact hlt
  · rintro _ ⟨⟩
    rfl
  · rintro _ p ⟨⟩ -
    exact ⟨n, hpos, hsize⟩
  · -- All that the others own lies below the cursor.
    rintro s t₁ _ p - hs₁ ⟨⟩ hp ⟨⟩
    exact Nat.lt_irrefl _ (ho.lt_cursor s t₁ cursor hs₁ hp)

end Arena

/-! ## Validity -/

namespace Context

variable {c : Context} {slot : Slot} {t : Texture}

/-- A context that calls have led to, whatever else was done to its heap. -/
structure Valid (c : Context) : Prop where
  heap : c.heap.Valid
  arena : c.arena.Valid
  owns : c.arena.Owns c.policy.unit c.heap.cursor
  unit : c.policy.unit.isPowerOfTwo
  active_lt : c.units.active < c.units.count
  tally : c.tally.Holds Tally.Valid
  window : c.window.Holds Window.Valid

/-- The texture bound to the active unit: the unit has its slot, and the slot names it. -/
theorem bound_eq_ok_iff : c.bound = .ok (.ok (slot, t)) ↔
    c.units.bindings[c.units.active]? = some (some slot) ∧ c.arena.get? slot = some t := by
  rw [bound, Units.bound]
  cases hb : c.units.bindings[c.units.active]? with
  | none => simp
  | some b =>
    cases b with
    | none => simp [pure, Except.pure]
    | some s =>
      cases hs : c.arena.get? s with
      | none =>
        simp only [Fault.ok_bind, Arena.get, hs]
        constructor
        · intro h
          cases h
        · rintro ⟨⟨⟩, h⟩
          rw [hs] at h
          cases h
      | some t' =>
        simp only [Fault.ok_bind, Arena.get, hs]
        constructor
        · rintro ⟨⟩
          exact ⟨rfl, hs⟩
        · rintro ⟨⟨⟩, h⟩
          rw [hs] at h
          cases h
          rfl

/-- There is a texture bound to the active unit, or the error says what is missing. -/
theorem Valid.bound_cases (hv : c.Valid) : (∃ slot t, c.bound = .ok (.ok (slot, t))) ∨
    ∃ cause, (cause = .notBound c.units.active ∨ ∃ slot, cause = .unknownSlot slot) ∧
      c.bound = .ok (.error cause) := by
  obtain ⟨b, hb⟩ : ∃ b, c.units.bindings[c.units.active]? = some b :=
    ⟨_, Array.getElem?_eq_getElem hv.active_lt⟩
  rw [bound, Units.bound, hb]
  cases b with
  | none => exact .inr ⟨_, .inl rfl, rfl⟩
  | some s =>
    cases hs : c.arena.get? s with
    | none =>
      simp only [Fault.ok_bind, Arena.get, hs]
      exact .inr ⟨_, .inr ⟨s, rfl⟩, rfl⟩
    | some t =>
      simp only [Fault.ok_bind, Arena.get, hs]
      exact .inl ⟨s, t, rfl⟩

end Context

end TextureMemory
