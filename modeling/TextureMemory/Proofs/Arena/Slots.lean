import TextureMemory.Proofs.Arena.Layout

/-!
# An arena as a map

Looked at through its slots, an arena is a finite map: a call changes the texture of one slot, or of none,
and a slot that names no texture is refused (`Arena.lookup_changes_once`). This holds of every slot,
handed out or not, since an entry tells its generation, whether it is vacant, and nothing else.

The map is as large as there are indices. One texture more is given the slot of another, which is lost:
every entry is in use by then (`Arena.Effect.inserted_live`), and the index starts over.
-/

namespace TextureMemory.Arena

variable {a a' : Arena} {past : List Step} {slot : Slot} {new : Option Texture}

/-- One slot names what it was given, and all others name what they named before. -/
theorem Update.get?_and (hu : Update a a' slot new) :
    a'.get? slot = new ∧ ∀ other, other ≠ slot → a'.get? other = a.get? other := by
  refine ⟨(hu.get? slot).trans (if_pos rfl), ?_⟩
  intro other hother
  exact (hu.get? other).trans (if_neg hother)

/-- In an arena that is full, a new texture is given the slot of another. -/
theorem Effect.inserted_live (he : Effect a .insert (.inserted slot) a') (hv : a.Valid)
    (hc : Compact past a) (hsize : a.entries.size ≤ a.count) (hfull : Slot.limit ≤ a.count) :
    ∃ t, a.get? slot = some t := by
  have hadd := hv.count_add
  cases he with
  | reuse hvacant =>
    rw [hvacant, List.length_cons] at hadd
    omega
  | grow => omega
  | @wrap _ i e hvacant _ hindex hreplaces =>
    have hlt : i < a.entries.size := by
      rw [hindex]
      exact Nat.lt_of_lt_of_le (Nat.mod_lt _ (by decide)) (by omega)
    have hentry : a.entries[i]? = some e := by
      have hold := hreplaces.old
      rwa [Array.getElem?_push, if_neg (Nat.ne_of_lt hlt)] at hold
    cases htexture : e.texture with
    | none =>
      -- The entry would be listed as vacant, and none is.
      have hmem := hc.listed i e.generation (by rw [hentry, ← htexture])
      rw [hvacant] at hmem
      cases hmem
    | some t => exact ⟨t, get?_eq_some_iff.mpr ⟨e, hentry, rfl, htexture⟩⟩

/-- As long as there are no more entries than indices, a texture can be added, and its slot names none before
if and only if there is an index to spare. -/
theorem Compact.exists_insert (hc : Compact past a) (hv : a.Valid)
    (hsize : a.entries.size ≤ Slot.limit) : ∃ slot a', a.insert = .ok (slot, a') ∧
      Update a a' slot (some (.blank slot)) ∧
      (a.contains slot = false ↔ a.count < Slot.limit) := by
  have hadd := hv.count_add
  have hword : Slot.limit + 1 < Word.limit := by decide
  obtain ⟨slot, a', hinsert, he⟩ := hv.effect_insert (by omega)
  rcases hv.insert_cases with ⟨_, _, heq, hu, -, -, hnew⟩ | ⟨hlimit, -⟩
  · rw [hinsert] at heq
    cases heq
    refine ⟨slot, a', hinsert, hu, ?_, ?_⟩
    · intro hnot
      apply Nat.lt_of_not_le
      intro hfull
      obtain ⟨t, ht⟩ := he.inserted_live hv hc (by omega) hfull
      rw [contains_eq_false_iff, ht] at hnot
      cases hnot
    · intro hroom
      exact contains_eq_false_iff.mpr (hnew hroom)
  · omega

/-- **A call changes the lookup of one slot at most.** After any calls on an arena in which never more
textures existed than there are indices,

* a slot that names a texture is answered with it; taking it out answers with it too, and then the slot
  names none; changing it changes what the slot names;
* a slot that names none is refused by its name, and nothing changes;
* a new texture is blank, and its slot named none before, if and only if there were fewer textures than
  indices; with as many of them, the slot is that of another texture, and names the new one from now on;
* all other slots name the same textures as before. -/
theorem lookup_changes_once (hrun : Run .empty past a)
    (hlimit : ∀ step ∈ past, step.after.count ≤ Slot.limit) :
    (∀ s, a.contains s = true → ∃ t, a.get? s = some t ∧ a.get s = .ok t ∧
      (∃ a', a.remove s = .ok (.ok t, a') ∧ a'.contains s = false ∧
        ∀ other, other ≠ s → a'.get? other = a.get? other) ∧
      ∀ handle backing stamp, ∃ a', a.perform (.edit s handle backing stamp) = .ok (.found t, a') ∧
        a'.get? s = some { t with handle, backing, stamp } ∧
        ∀ other, other ≠ s → a'.get? other = a.get? other) ∧
    (∀ s, a.contains s = false → a.get s = .error (.unknownSlot s) ∧
      a.remove s = .ok (.error (.unknownSlot s), a) ∧
      ∀ handle backing stamp,
        a.perform (.edit s handle backing stamp) = .ok (.failed (.unknownSlot s), a)) ∧
    ∃ slot a', a.insert = .ok (slot, a') ∧
      ((a.contains slot = false ∧ a'.get? slot = some (.blank slot) ∧
        ∀ other, other ≠ slot → a'.get? other = a.get? other) ↔ a.count < Slot.limit) ∧
      (a.count = Slot.limit → a.contains slot = true ∧ a'.get? slot = some (.blank slot) ∧
        ∀ other, other ≠ slot → a'.get? other = a.get? other) := by
  have hv : a.Valid := Run.valid hrun empty_valid
  have hc : Compact past a := Run.compact hrun hlimit
  refine ⟨?_, ?_, ?_⟩
  · intro s hs
    obtain ⟨t, ht⟩ := Option.isSome_iff_exists.mp hs
    refine ⟨t, ht, get_of_get? ht, ?_, ?_⟩
    · obtain ⟨a', hremove, hu, -, -⟩ := hv.remove_of_get? ht
      obtain ⟨hnone, hother⟩ := hu.get?_and
      exact ⟨a', hremove, contains_eq_false_iff.mpr hnone, hother⟩
    · intro handle backing stamp
      refine ⟨a.set s { t with handle, backing, stamp }, ?_, (update_set ht).get?_and⟩
      rw [perform, get_of_get? ht]
      rfl
  · intro s hs
    have hnone : a.get? s = none := contains_eq_false_iff.mp hs
    refine ⟨get_of_get?_none hnone, remove_of_get?_none hnone, ?_⟩
    intro handle backing stamp
    rw [perform, get_of_get?_none hnone]
    rfl
  · obtain ⟨slot, a', hinsert, hu, hspare⟩ := hc.exists_insert hv (hc.size_le hlimit)
    obtain ⟨hget, hother⟩ := hu.get?_and
    refine ⟨slot, a', hinsert, ⟨?_, ?_⟩, ?_⟩
    · rintro ⟨hnot, -, -⟩
      exact hspare.mp hnot
    · intro hroom
      exact ⟨hspare.mpr hroom, hget, hother⟩
    · intro hfull
      refine ⟨?_, hget, hother⟩
      rw [← Bool.not_eq_false, hspare, hfull]
      exact Nat.lt_irrefl _

/-- An arena can have as many textures as there are indices. -/
theorem exists_run_of_le_limit {n : Nat} (hn : n ≤ Slot.limit) : ∃ past a, Run .empty past a ∧
    (∀ step ∈ past, step.after.count ≤ Slot.limit) ∧ a.count = n := by
  have hword : Slot.limit + 1 < Word.limit := by decide
  induction n with
  | zero => exact ⟨[], .empty, .start, by simp, rfl⟩
  | succ n ih =>
    obtain ⟨past, a, hrun, hlimit, hcount⟩ := ih (by omega)
    have hv : a.Valid := Run.valid hrun empty_valid
    obtain ⟨slot, a', hinsert, he⟩ := hv.effect_insert (by omega)
    have hperform : a.perform .insert = .ok (.inserted slot, a') := by
      rw [perform, hinsert]
      rfl
    have hcount' : a'.count = n + 1 := by
      rw [← hcount]
      cases he <;> assumption
    refine ⟨_, a', hrun.next hperform, ?_, hcount'⟩
    intro step hstep
    rcases List.mem_cons.mp hstep with rfl | hstep
    · show a'.count ≤ Slot.limit
      omega
    · exact hlimit step hstep

/-- One texture more than there are indices takes the slot of another. -/
theorem lookup_changes_once_when_full : ∃ past a slot a', Run .empty past a ∧
    (∀ step ∈ past, step.after.count ≤ Slot.limit) ∧ a.count = Slot.limit ∧
    a.insert = .ok (slot, a') ∧ a.contains slot = true ∧ a'.get? slot = some (.blank slot) := by
  obtain ⟨past, a, hrun, hlimit, hfull⟩ := exists_run_of_le_limit (Nat.le_refl Slot.limit)
  obtain ⟨-, -, slot, a', hinsert, -, hlost⟩ := lookup_changes_once hrun hlimit
  obtain ⟨hlive, hnew, -⟩ := hlost hfull
  exact ⟨past, a, slot, a', hrun, hlimit, hfull, hinsert, hlive, hnew⟩

end TextureMemory.Arena
