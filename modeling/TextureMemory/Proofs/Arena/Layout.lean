import TextureMemory.Proofs.Arena.Run

/-!
# How an arena is laid out

Whether an entry holds a texture is told three times: by the entry, by the list of vacant indices, and by
the count. As long as there are no more textures than indices, the three agree, since a call changes all
of them together (`Arena.Effect.compact`). The table grows only when every entry is in use, so it has as
many entries as there ever were textures at the same time (`Arena.entries_in_step`).

With one texture more the index starts over. The new entry is then vacant and not listed as such, and the
textures outnumber the entries that hold one.
-/

namespace TextureMemory.Arena

/-- The largest number of textures that existed after any of the calls. -/
def peak (past : List Step) : Nat := past.foldr (fun step most => max step.after.count most) 0

/-- Every vacant entry is listed, each texture is counted, and the table is as long as it had to be. -/
structure Compact (past : List Step) (a : Arena) : Prop where
  listed : ∀ i generation, a.entries[i]? = some ⟨generation, none⟩ → i ∈ a.vacant
  length_eq : a.toList.length = a.count
  size_eq : a.entries.size = peak past

variable {a a' : Arena} {past : List Step} {action : Action} {answer : Answer} {t t' : Texture}
  {i generation : Nat} {e e' : Entry}

/-! ## One call -/

/-- One entry in the place of another makes the list of textures longer or shorter by one, or neither. -/
theorem Replaces.length_toList (hr : Replaces a a' i e e') :
    a'.toList.length + e.texture.toList.length = a.toList.length + e'.texture.toList.length := by
  obtain ⟨l₁, l₂, hold, hnew⟩ := hr.toList
  rw [hold, hnew]
  simp only [List.length_append]
  omega

/-- An entry that holds a texture is none of the vacant ones. -/
theorem Replaces.vacant_of_some (hr : Replaces a a' i e ⟨generation, some t⟩) {j g : Nat}
    (hj : a'.entries[j]? = some ⟨g, none⟩) : j ≠ i ∧ a.entries[j]? = some ⟨g, none⟩ := by
  rw [hr.getElem?] at hj
  split at hj
  · cases hj
  · next hne => exact ⟨Ne.symm hne, hj⟩

/-- A call that leaves the table as long as it was, and room in it, leaves it as long as it had to be. -/
theorem Compact.size_eq_of_le (hc : Compact past a) (hsize : a'.entries.size = a.entries.size)
    (hcount : a'.count ≤ a.entries.size) :
    a'.entries.size = peak (⟨a, action, answer, a'⟩ :: past) := by
  rw [hsize, peak, List.foldr_cons, ← peak, ← hc.size_eq]
  exact (Nat.max_eq_right hcount).symm

section

variable {later : List Step}

/-- A texture in the latest vacant entry. -/
theorem Compact.reuse (hc : Compact past a) (hvacant : a.vacant = i :: a'.vacant)
    (hreplaces : Replaces a a' i ⟨generation, none⟩ ⟨generation, some t⟩)
    (hcount : a'.count = a.count + 1) (hsize : a'.entries.size = peak later) : Compact later a' := by
  have hlength := hc.length_eq
  have hmore := hreplaces.length_toList
  simp only [Option.toList_none, Option.toList_some, List.length_nil, List.length_singleton] at hmore
  refine ⟨?_, by omega, hsize⟩
  intro j g hj
  obtain ⟨hne, hold⟩ := hreplaces.vacant_of_some hj
  have hmem := hc.listed j g hold
  rw [hvacant] at hmem
  exact (List.mem_cons.mp hmem).resolve_left hne

/-- A texture in a new entry, where none is vacant. -/
theorem Compact.grow (hc : Compact past a) (hfull : a.vacant = [])
    (hentries : a'.entries = a.entries.push ⟨generation, some t⟩) (hcount : a'.count = a.count + 1)
    (hsize : a'.entries.size = peak later) : Compact later a' := by
  have hlength := hc.length_eq
  refine ⟨?_, ?_, hsize⟩
  · intro j g hj
    rw [hentries, Array.getElem?_push] at hj
    split at hj
    · cases hj
    · have hmem := hc.listed j g hj
      rw [hfull] at hmem
      cases hmem
  · rw [toList, hentries, Array.toList_push, List.filterMap_append, ← toList]
    simp
    omega

/-- A texture is taken out, and its entry becomes the latest vacant one. -/
theorem Compact.remove {old : Nat} (hc : Compact past a)
    (hreplaces : Replaces a a' i ⟨old, some t⟩ ⟨generation, none⟩) (hvacant : a'.vacant = i :: a.vacant)
    (hcount : a'.count + 1 = a.count) (hsize : a'.entries.size = peak later) : Compact later a' := by
  have hlength := hc.length_eq
  have hless := hreplaces.length_toList
  simp only [Option.toList_none, Option.toList_some, List.length_nil, List.length_singleton] at hless
  refine ⟨?_, by omega, hsize⟩
  intro j g hj
  rw [hvacant]
  rw [hreplaces.getElem?] at hj
  split at hj
  · next heq => exact heq ▸ List.mem_cons_self
  · exact List.mem_cons_of_mem _ (hc.listed j g hj)

/-- One texture in the place of another. -/
theorem Compact.edit (hc : Compact past a)
    (hreplaces : Replaces a a' i ⟨generation, some t⟩ ⟨generation, some t'⟩)
    (hvacant : a'.vacant = a.vacant) (hcount : a'.count = a.count)
    (hsize : a'.entries.size = peak later) : Compact later a' := by
  have hlength := hc.length_eq
  have hsame := hreplaces.length_toList
  simp only [Option.toList_some, List.length_singleton] at hsame
  refine ⟨?_, by omega, hsize⟩
  intro j g hj
  rw [hvacant]
  exact hc.listed j g (hreplaces.vacant_of_some hj).2

end

/-- A call changes the entries, the list of vacant ones and the count together, as long as there is an index for
each texture. -/
theorem Effect.compact (he : Effect a action answer a') (hv : a.Valid) (hc : Compact past a)
    (hlimit : a'.count ≤ Slot.limit) : Compact (⟨a, action, answer, a'⟩ :: past) a' := by
  have hadd := hv.count_add
  cases he with
  | reuse hvacant hreplaces hcount =>
    rw [hvacant, List.length_cons] at hadd
    exact hc.reuse hvacant hreplaces hcount (hc.size_eq_of_le hreplaces.size_eq (by omega))
  | grow hfull hsize hentries hvacant hcount =>
    rw [hfull, List.length_nil, Nat.add_zero] at hadd
    refine hc.grow hfull hentries hcount ?_
    rw [hentries, Array.size_push, peak, List.foldr_cons, ← peak, ← hc.size_eq]
    show _ = max a'.count _
    omega
  | wrap hfull hsize _ _ _ hcount =>
    -- There would be more textures than indices.
    rw [hfull, List.length_nil] at hadd
    omega
  | remove hslot hreplaces hvacant hcount =>
    exact hc.remove hreplaces hvacant hcount (hc.size_eq_of_le hreplaces.size_eq (by omega))
  | edit hslot hreplaces hvacant hcount =>
    exact hc.edit hreplaces hvacant hcount (hc.size_eq_of_le hreplaces.size_eq (by omega))
  | missRemove | missEdit => exact ⟨hc.listed, hc.length_eq, hc.size_eq_of_le rfl (by omega)⟩

/-! ## Along a run -/

/-- The records agree after every run, as long as there is an index for each texture. -/
theorem Run.compact (hrun : Run .empty past a) (hlimit : ∀ step ∈ past, step.after.count ≤ Slot.limit) :
    Compact past a := by
  have hempty : Compact [] .empty := ⟨by simp [empty], rfl, rfl⟩
  refine hrun.induct
    (P := fun past a => (∀ step ∈ past, step.after.count ≤ Slot.limit) → Compact past a)
    empty_valid (fun _ => hempty) ?_ hlimit
  intro past a action answer a' hv hc he hlimit
  exact he.compact hv (hc fun step hstep => hlimit step (List.mem_cons_of_mem _ hstep))
    (hlimit _ List.mem_cons_self)

/-- The table has no more entries than there are indices, if there were never more textures. -/
theorem Compact.size_le (hc : Compact past a) {limit : Nat}
    (hlimit : ∀ step ∈ past, step.after.count ≤ limit) : a.entries.size ≤ limit := by
  rw [hc.size_eq]
  clear hc
  induction past with
  | nil => exact Nat.zero_le _
  | cons step past ih =>
    rw [peak, List.foldr_cons, ← peak]
    exact Nat.max_le.mpr ⟨hlimit step List.mem_cons_self,
      ih fun other hother => hlimit other (List.mem_cons_of_mem _ hother)⟩

/-! ## The textures in order -/

/-- The entry of an index holds the texture whose slot has that index and its generation. -/
theorem Valid.slot_eq_of_entry (hv : a.Valid) (he : a.entries[i]? = some ⟨generation, some t⟩) :
    t.slot = ⟨i, generation⟩ :=
  hv.slot_eq ⟨i, generation⟩ t (get?_eq_some_iff.mpr ⟨_, he, rfl, rfl⟩)

/-- The indices of the textures rise along the list. -/
theorem Valid.pairwise_toList (hv : a.Valid) :
    a.toList.Pairwise fun t t' => t.slot.index < t'.slot.index := by
  have hindex : ∀ (i : Nat) (hi : i < a.entries.toList.length) t,
      a.entries.toList[i].texture = some t → t.slot.index = i := by
    intro i hi t ht
    have hentry : a.entries[i]? = some ⟨a.entries.toList[i].generation, some t⟩ := by
      rw [← Array.getElem?_toList, List.getElem?_eq_getElem hi, ← ht]
    rw [hv.slot_eq_of_entry hentry]
  rw [toList, List.pairwise_filterMap, List.pairwise_iff_getElem]
  intro i j hi hj hij t ht t' ht'
  rw [hindex i hi t ht, hindex j hj t' ht']
  exact hij

/-- **The records of an arena agree.** After any calls on an arena in which never more textures existed
than there are indices,

* the list of vacant indices names each vacant entry once, and no other;
* the count is the number of entries that hold a texture, and the arena is empty if there are none;
* the texture in an entry has the slot of that index and generation;
* the list of textures has each texture that a slot names, and no other, in the order of their indices,
  so none of them twice;
* there are as many entries as there ever were textures at the same time. -/
theorem entries_in_step (hrun : Run .empty past a)
    (hlimit : ∀ step ∈ past, step.after.count ≤ Slot.limit) :
    (a.vacant.Nodup ∧
      ∀ i : Nat, i ∈ a.vacant ↔ ∃ generation, a.entries[i]? = some ⟨generation, none⟩) ∧
    (a.count = a.entries.toList.countP (·.texture.isSome) ∧
      (a.isEmpty = true ↔ a.count = 0) ∧ (a.isEmpty = true ↔ a.toList = [])) ∧
    (∀ (i generation : Nat) (t : Texture),
      a.entries[i]? = some ⟨generation, some t⟩ → t.slot = ⟨i, generation⟩) ∧
    ((∀ t, t ∈ a.toList ↔ a.get? t.slot = some t) ∧
      (∀ s, a.contains s = true ↔ s ∈ a.toList.map Texture.slot) ∧
      a.toList.Pairwise fun t t' => t.slot.index < t'.slot.index) ∧
    a.entries.size = peak past := by
  have hv : a.Valid := Run.valid hrun empty_valid
  have hc : Compact past a := Run.compact hrun hlimit
  refine ⟨⟨hv.nodup, ?_⟩, ⟨?_, decide_eq_true_iff, ?_⟩, fun _ _ _ => hv.slot_eq_of_entry,
    ⟨fun _ => hv.mem_toList_iff, ?_, hv.pairwise_toList⟩, hc.size_eq⟩
  · intro i
    exact ⟨hv.vacant i, fun ⟨generation, hentry⟩ => hc.listed i generation hentry⟩
  · rw [← hc.length_eq, toList, List.length_filterMap_eq_countP]
  · rw [isEmpty, decide_eq_true_iff, ← hc.length_eq, List.length_eq_zero_iff]
  · intro s
    rw [contains, Option.isSome_iff_exists, List.mem_map]
    constructor
    · rintro ⟨t, ht⟩
      have hslot := hv.slot_eq s t ht
      exact ⟨t, hv.mem_toList_iff.mpr (hslot ▸ ht), hslot⟩
    · rintro ⟨t, ht, rfl⟩
      exact ⟨t, hv.mem_toList_iff.mp ht⟩

/-- Three textures are added, two of them are taken out, one of them twice, and their entries are used
again, the latest first. Then the third is taken out. -/
theorem entries_in_step_after_reuse : ∃ past a, Run .empty past a ∧
    (∀ step ∈ past, step.after.count ≤ Slot.limit) ∧
    a.toList.map Texture.slot = [⟨0, 1⟩, ⟨1, 1⟩] ∧ a.vacant = [2] ∧ a.entries.size = 3 ∧
    a.entries.size = peak past ∧ a.count = a.entries.toList.countP (·.texture.isSome) := by
  obtain ⟨past, a, hrun, htest⟩ := Trace.exists_of_reaches perform
    [.insert, .insert, .insert, .remove ⟨1, 0⟩, .remove ⟨1, 0⟩, .remove ⟨0, 0⟩, .insert, .insert,
      .edit ⟨1, 1⟩ .blank (some ⟨7, by decide⟩) (.frame 2), .remove ⟨2, 0⟩]
    (show Trace.reaches perform .empty _ (fun past a =>
      past.all (·.after.count ≤ Slot.limit) && (a.toList.map Texture.slot = [⟨0, 1⟩, ⟨1, 1⟩] &&
        (a.vacant = [2] && a.entries.size = 3))) = true by decide +kernel)
  simp only [Bool.and_eq_true, decide_eq_true_eq, List.all_eq_true] at htest
  obtain ⟨hlimit, hslots, hvacant, hsize⟩ := htest
  obtain ⟨-, ⟨hcount, -⟩, -, -, hpeak⟩ := entries_in_step hrun hlimit
  exact ⟨past, a, hrun, hlimit, hslots, hvacant, hsize, hpeak, hcount⟩

end TextureMemory.Arena
