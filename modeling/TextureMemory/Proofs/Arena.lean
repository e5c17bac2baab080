import TextureMemory.Proofs.Fault
import TextureMemory.Texture.Arena

/-!
# What an arena keeps

Every call on an arena puts one entry in the place of another, so all of them change the lookup and
the list of textures in the same way (`Arena.Replaces.get?`, `Arena.Replaces.toList`). From this
follow one lookup equation for each call, and that a valid arena stays valid.

The equations hold for any number of textures. Only that a new texture takes the place of none
(`Arena.Valid.insert_cases`) needs that no more of them exist than there are indices.
-/

namespace TextureMemory.Arena

variable {a a' : Arena} {i : Nat} {e e' : Entry} {s slot : Slot} {t t' : Texture}
  {new : Option Texture}

/-! ## One entry in the place of another -/

/-- The second arena has `e'` where the first has `e`, and else the same entries. -/
structure Replaces (a a' : Arena) (i : Nat) (e e' : Entry) : Prop where
  old : a.entries[i]? = some e
  entries : a'.entries = a.entries.setIfInBounds i e'

/-- What an entry holds under a generation. -/
def Entry.at (e : Entry) (generation : Nat) : Option Texture :=
  if e.generation = generation then e.texture else none

/-- Looking up a slot reads the entry of its index under its generation. -/
theorem get?_eq_at (he : a.entries[s.index]? = some e) : a.get? s = Entry.at e s.generation := by
  rw [get?, he]
  rfl

/-- No texture is found beyond the end of the table. -/
theorem get?_eq_none (he : a.entries[s.index]? = none) : a.get? s = none := by
  rw [get?, he]
  rfl

/-- A texture is found in an entry of its generation. -/
theorem get?_eq_some_iff : a.get? s = some t ↔
    ∃ e, a.entries[s.index]? = some e ∧ e.generation = s.generation ∧ e.texture = some t := by
  cases he : a.entries[s.index]? with
  | none => simp [get?_eq_none he]
  | some e =>
    rw [get?_eq_at he, Entry.at]
    split <;> simp_all

/-- The table is as long as before. -/
theorem Replaces.size_eq (hr : Replaces a a' i e e') : a'.entries.size = a.entries.size := by
  rw [hr.entries, Array.size_setIfInBounds]

/-- The new entry is found where it was put, and the old ones elsewhere. -/
theorem Replaces.getElem? (hr : Replaces a a' i e e') (j : Nat) :
    a'.entries[j]? = if i = j then some e' else a.entries[j]? := by
  obtain ⟨hi, -⟩ := Array.getElem?_eq_some_iff.mp hr.old
  rw [hr.entries, Array.getElem?_setIfInBounds]
  by_cases hij : i = j
  · rw [if_pos hij, if_pos hij, if_pos hi]
  · rw [if_neg hij, if_neg hij]

/-- The lookup changes at the index of the entry only. -/
theorem Replaces.get? (hr : Replaces a a' i e e') (s : Slot) :
    a'.get? s = if i = s.index then Entry.at e' s.generation else a.get? s := by
  have hget := hr.getElem? s.index
  split
  · next hi => exact get?_eq_at (by rw [hget, if_pos hi])
  · next hi =>
    rw [if_neg hi] at hget
    rw [Arena.get?, Arena.get?, hget]

/-- The list of textures changes at one place only. -/
theorem Replaces.toList (hr : Replaces a a' i e e') :
    ∃ l₁ l₂, a.toList = l₁ ++ e.texture.toList ++ l₂ ∧ a'.toList = l₁ ++ e'.texture.toList ++ l₂ := by
  obtain ⟨hi, hget⟩ := Array.getElem?_eq_some_iff.mp hr.old
  have hlen : i < a.entries.toList.length := hi
  have hone : ∀ e : Entry, [e].filterMap Entry.texture = e.texture.toList := by
    intro e
    cases he : e.texture <;> simp [he]
  refine ⟨(a.entries.toList.take i).filterMap Entry.texture,
    (a.entries.toList.drop (i + 1)).filterMap Entry.texture, ?_, ?_⟩
  · rw [← hone, ← List.filterMap_append, ← List.filterMap_append, Arena.toList]
    congr 1
    rw [← hget, List.append_assoc, List.singleton_append, ← Array.getElem_toList hlen,
      ← List.drop_eq_getElem_cons hlen, List.take_append_drop]
  · rw [← hone, ← List.filterMap_append, ← List.filterMap_append, Arena.toList, hr.entries,
      Array.toList_setIfInBounds, List.set_eq_take_append_cons_drop, if_pos hlen]
    congr 1
    simp

/-- The textures of the list are those that some slot names. -/
theorem mem_toList_iff : t ∈ a.toList ↔ ∃ s, a.get? s = some t := by
  rw [toList, List.mem_filterMap]
  constructor
  · rintro ⟨e, he, ht⟩
    obtain ⟨i, hi⟩ := List.mem_iff_getElem?.mp he
    rw [Array.getElem?_toList] at hi
    exact ⟨⟨i, e.generation⟩, get?_eq_some_iff.mpr ⟨e, hi, rfl, ht⟩⟩
  · rintro ⟨s, hs⟩
    obtain ⟨e, he, -, ht⟩ := get?_eq_some_iff.mp hs
    exact ⟨e, List.mem_iff_getElem?.mpr ⟨s.index, by rwa [Array.getElem?_toList]⟩, ht⟩

/-! ## One texture in the place of another -/

/-- The second arena has `new` for a slot, and else the same textures as the first. -/
structure Update (a a' : Arena) (slot : Slot) (new : Option Texture) : Prop where
  get? : ∀ s, a'.get? s = if s = slot then new else a.get? s
  toList : ∃ l₁ l₂, a.toList = l₁ ++ (a.get? slot).toList ++ l₂ ∧ a'.toList = l₁ ++ new.toList ++ l₂

/-- An entry that keeps its generation, or loses its texture, changes the texture of one slot. -/
theorem Replaces.update (hr : Replaces a a' i e e')
    (hkeep : e'.generation = e.generation ∨ e'.texture = none) :
    Update a a' ⟨i, e.generation⟩ e'.texture := by
  have hold : a.get? ⟨i, e.generation⟩ = e.texture := (get?_eq_at hr.old).trans (if_pos rfl)
  refine ⟨?_, hold ▸ hr.toList⟩
  intro s
  rw [hr.get? s]
  by_cases hi : i = s.index
  · subst hi
    rw [if_pos rfl, Entry.at]
    by_cases hg : s.generation = e.generation
    · -- The slot is the one that changes: it names `e'`, unless that has moved on to a generation
      -- of its own and is vacant.
      rw [if_pos (show s = ⟨s.index, e.generation⟩ by rw [← hg])]
      split
      · rfl
      · next hne => exact (hkeep.resolve_left fun heq => hne (heq.trans hg.symm)).symm
    · -- A slot of another generation named nothing before, and names nothing now.
      rw [if_neg (fun hs => hg (congrArg Slot.generation hs)), get?_eq_at hr.old, Entry.at,
        if_neg (Ne.symm hg)]
      split
      · next heq => exact hkeep.resolve_left fun hk => hg (heq.symm.trans hk)
      · rfl
  · rw [if_neg hi, if_neg fun hs => hi (congrArg Slot.index hs).symm]

/-! ## Validity -/

/-- The entries of a valid arena are vacant or counted, and each texture is in the entry of its own
slot. -/
structure Valid (a : Arena) : Prop where
  nodup : a.vacant.Nodup
  vacant : ∀ i ∈ a.vacant, ∃ generation, a.entries[i]? = some ⟨generation, none⟩
  count_add : a.count + a.vacant.length = a.entries.size
  slot_eq : ∀ s t, a.get? s = some t → t.slot = s

/-- There is nothing in an arena at first. -/
theorem empty_valid : empty.Valid where
  nodup := List.nodup_nil
  vacant i hi := by cases hi
  count_add := rfl
  slot_eq s t hs := by
    rw [get?_eq_none (by simp [empty])] at hs
    cases hs

/-- The textures of the list are those that their own slots name. -/
theorem Valid.mem_toList_iff (hv : a.Valid) : t ∈ a.toList ↔ a.get? t.slot = some t := by
  rw [Arena.mem_toList_iff]
  constructor
  · rintro ⟨s, hs⟩
    rwa [hv.slot_eq s t hs]
  · exact fun ht => ⟨t.slot, ht⟩

/-- An arena with an entry set aside for the next texture, at index `i`. -/
structure Opens (a b : Arena) (i : Nat) (e : Entry) : Prop where
  found : b.entries[i]? = some e
  texture : a.count < Slot.limit → e.texture = none
  nodup : (i :: b.vacant).Nodup
  vacant : ∀ j ∈ b.vacant, ∃ generation, b.entries[j]? = some ⟨generation, none⟩
  count : b.count = a.count
  count_add : b.count + b.vacant.length + 1 = b.entries.size
  get? : ∀ s, b.get? s = a.get? s
  toList : b.toList = a.toList

/-- There is always an entry to set aside: the latest vacant one, or a new one. -/
theorem Valid.exists_opens (hv : a.Valid) : ∃ e, Opens a a.vacancy.2 a.vacancy.1 e := by
  have hcount := hv.count_add
  cases hvac : a.vacant with
  | cons i rest =>
    have hnodup := hv.nodup
    obtain ⟨g, hg⟩ := hv.vacant i (by simp [hvac])
    rw [hvac] at hnodup hcount
    have hopen : a.vacancy = (i, { a with vacant := rest }) := by rw [vacancy, hvac]
    rw [hopen]
    exact ⟨⟨g, none⟩, hg, fun _ => rfl, hnodup, fun j hj => hv.vacant j (by simp [hvac, hj]), rfl,
      hcount, fun _ => rfl, rfl⟩
  | nil =>
    rw [hvac] at hcount
    have hopen : a.vacancy = (a.entries.size % Slot.limit,
        { a with entries := a.entries.push ⟨0, none⟩ }) := by rw [vacancy, hvac]
    have hle : a.entries.size % Slot.limit < a.entries.size + 1 := by
      have := Nat.mod_le a.entries.size Slot.limit
      omega
    rw [hopen]
    refine ⟨_, Array.getElem?_eq_getElem (by simpa using hle), ?_, by simp [hvac],
      by simp [hvac], rfl, by simpa [hvac] using hcount, ?_, by simp [Arena.toList]⟩
    · -- With fewer textures than indices, the index is that of the entry just added.
      intro hlt
      have hmod : a.entries.size % Slot.limit = a.entries.size :=
        Nat.mod_eq_of_lt (by simp at hcount; omega)
      simp [hmod]
    · intro s
      rw [Arena.get?, Arena.get?, Array.getElem?_push]
      split
      · next hs => simp [hs]
      · rfl

/-! ## Calls -/

/-- A texture is not added if the count would be no word. -/
theorem Valid.insert_of_limit (hv : a.Valid) (hlimit : Word.limit ≤ a.count + 1) :
    a.insert = .error .overflow := by
  obtain ⟨e, ho⟩ := hv.exists_opens
  have hadd : Word.add a.vacancy.2.count 1 = .error .overflow := by
    rw [ho.count]
    exact if_neg (Nat.not_lt.mpr hlimit)
  rw [insert]
  simp only [ho.found, hadd, Fault.error_bind]

/-- Adding a texture gives it a slot, which names no other texture while there are fewer than
indices; only a count that is no word halts the program. -/
theorem Valid.insert_cases (hv : a.Valid) :
    (∃ slot a', a.insert = .ok (slot, a') ∧ Update a a' slot (some (.blank slot)) ∧ a'.Valid ∧
      a'.count = a.count + 1 ∧ (a.count < Slot.limit → a.get? slot = none)) ∨
    (Word.limit ≤ a.count + 1 ∧ a.insert = .error .overflow) := by
  obtain ⟨e, ho⟩ := hv.exists_opens
  by_cases hlt : a.count + 1 < Word.limit
  · let slot : Slot := ⟨a.vacancy.1, e.generation⟩
    let a' : Arena := { a.vacancy.2 with
      entries := a.vacancy.2.entries.setIfInBounds a.vacancy.1
        { e with texture := some (.blank slot) }
      count := a.count + 1 }
    have hr : Replaces a.vacancy.2 a' a.vacancy.1 e { e with texture := some (.blank slot) } :=
      ⟨ho.found, rfl⟩
    have hu : Update a a' slot (some (.blank slot)) := by
      obtain ⟨hget, hlist⟩ := hr.update (.inl rfl)
      rw [ho.toList, ho.get?] at hlist
      exact ⟨fun s => (hget s).trans (by rw [ho.get? s]), hlist⟩
    have hadd : Word.add a.vacancy.2.count 1 = .ok (a.count + 1) := by
      rw [ho.count]
      exact Word.add_eq_ok_iff.mpr ⟨rfl, hlt⟩
    refine .inl ⟨slot, a', ?_, hu, ?_, rfl, ?_⟩
    · rw [insert]
      simp only [ho.found, hadd, Fault.ok_bind]
      rfl
    · exact {
        nodup := (List.nodup_cons.mp ho.nodup).2
        vacant := fun j hj => by
          have hne : a.vacancy.1 ≠ j := fun heq => (List.nodup_cons.mp ho.nodup).1 (heq ▸ hj)
          rw [hr.getElem?, if_neg hne]
          exact ho.vacant j hj
        count_add := by
          have hcount := ho.count_add
          rw [hr.size_eq, ← hcount, ho.count]
          show a.count + 1 + a.vacancy.2.vacant.length = _
          omega
        slot_eq := fun s t hs => by
          rw [hu.get?] at hs
          split at hs
          · next heq => rw [heq, ← Option.some.inj hs]; rfl
          · exact hv.slot_eq s t hs }
    · intro hc
      rw [← ho.get?, get?_eq_at ho.found, Entry.at, if_pos rfl, ho.texture hc]
  · have hlimit : Word.limit ≤ a.count + 1 := Nat.le_of_not_lt hlt
    exact .inr ⟨hlimit, hv.insert_of_limit hlimit⟩

/-- Changing the entry at an index puts another in its place. -/
theorem modify_eq_setIfInBounds {f : Entry → Entry} (he : a.entries[i]? = some e) :
    a.entries.modify i f = a.entries.setIfInBounds i (f e) := by
  apply Array.ext_getElem?
  intro j
  obtain ⟨hi, -⟩ := Array.getElem?_eq_some_iff.mp he
  rw [Array.getElem?_modify, Array.getElem?_setIfInBounds]
  by_cases hij : i = j
  · subst hij
    rw [if_pos rfl, if_pos rfl, if_pos hi, he]
    rfl
  · rw [if_neg hij, if_neg hij]

/-- The entry of a texture that exists. -/
theorem exists_entry (hs : a.get? s = some t) :
    a.entries[s.index]? = some ⟨s.generation, some t⟩ := by
  obtain ⟨⟨g, _⟩, he, rfl, rfl⟩ := get?_eq_some_iff.mp hs
  exact he

/-- Changing a texture that exists writes to its entry, and to nothing else. -/
theorem set_eq (hs : a.get? s = some t) : a.set s t' =
    { a with entries := a.entries.setIfInBounds s.index ⟨s.generation, some t'⟩ } := by
  rw [set, if_pos (by rw [contains, hs]; rfl), modify_eq_setIfInBounds (exists_entry hs)]

/-- It keeps the generation of the entry. -/
theorem replaces_set (hs : a.get? s = some t) :
    Replaces a (a.set s t') s.index ⟨s.generation, some t⟩ ⟨s.generation, some t'⟩ :=
  ⟨exists_entry hs, by rw [set_eq hs]⟩

/-- A texture that exists is replaced. -/
theorem update_set (hs : a.get? s = some t) : Update a (a.set s t') s (some t') :=
  (replaces_set hs).update (.inl rfl)

/-- The entry of a texture that exists is not vacant. -/
theorem Valid.index_not_vacant (hv : a.Valid) (hs : a.get? s = some t) : s.index ∉ a.vacant := by
  intro hi
  obtain ⟨g, hg⟩ := hv.vacant _ hi
  rw [exists_entry hs] at hg
  cases hg

/-- Replacing a texture by one of the same slot keeps an arena valid. -/
theorem Valid.set (hv : a.Valid) (hs : a.get? s = some t) (ht : t'.slot = s) :
    (a.set s t').Valid := by
  have hu : Update a (a.set s t') s (some t') := update_set hs
  have hr : Replaces a (a.set s t') s.index ⟨s.generation, some t⟩ ⟨s.generation, some t'⟩ :=
    replaces_set hs
  have hset : a.set s t' =
      { a with entries := a.entries.setIfInBounds s.index ⟨s.generation, some t'⟩ } := set_eq hs
  exact {
    nodup := by rw [hset]; exact hv.nodup
    vacant := fun i hi => by
      rw [hset] at hi
      obtain ⟨g, hg⟩ := hv.vacant i hi
      have hne : s.index ≠ i := fun heq => hv.index_not_vacant hs (heq ▸ hi)
      exact ⟨g, by rw [hr.getElem?, if_neg hne, hg]⟩
    count_add := by rw [hr.size_eq, hset]; exact hv.count_add
    slot_eq := fun s' t₁ hs' => by
      rw [hu.get?] at hs'
      split at hs'
      · next heq => rw [heq, ← Option.some.inj hs', ht]
      · exact hv.slot_eq s' t₁ hs' }

/-- A texture that exists is counted. -/
theorem Valid.count_pos (hv : a.Valid) (hs : a.get? s = some t) : 0 < a.count := by
  have hcount := hv.count_add
  have hnot : s.index ∉ a.vacant := hv.index_not_vacant hs
  -- The index of the texture and the vacant ones are as many different indices of the table.
  have hsub : s.index :: a.vacant ⊆ List.range a.entries.size := by
    intro i hi
    rw [List.mem_range]
    rcases List.mem_cons.mp hi with rfl | hi
    · exact (Array.getElem?_eq_some_iff.mp (exists_entry hs)).1
    · obtain ⟨g, hg⟩ := hv.vacant i hi
      exact (Array.getElem?_eq_some_iff.mp hg).1
  have hlen := List.Nodup.length_le_of_subset (List.nodup_cons.mpr ⟨hnot, hv.nodup⟩) hsub
  rw [List.length_cons, List.length_range] at hlen
  omega

/-- Taking out a texture that exists takes out that texture, and never halts the program. -/
theorem Valid.remove_of_get? (hv : a.Valid) (hs : a.get? s = some t) :
    ∃ a', a.remove s = .ok (.ok t, a') ∧ Update a a' s none ∧ a'.Valid ∧
      a'.count + 1 = a.count := by
  have hpos := hv.count_pos hs
  have hcount := hv.count_add
  have hsub : Word.sub a.count 1 = .ok (a.count - 1) := Word.sub_eq_ok_iff.mpr (by omega)
  let a' : Arena := ⟨a.entries.setIfInBounds s.index ⟨(s.generation + 1) % Slot.limit, none⟩,
    s.index :: a.vacant, a.count - 1⟩
  have hr : Replaces a a' s.index ⟨s.generation, some t⟩ ⟨(s.generation + 1) % Slot.limit, none⟩ :=
    ⟨exists_entry hs, rfl⟩
  have hu : Update a a' s none := hr.update (.inr rfl)
  have hnot : s.index ∉ a.vacant := hv.index_not_vacant hs
  refine ⟨a', ?_, hu, ?_, ?_⟩
  · rw [remove, hs]
    simp only [hsub, Fault.ok_bind, modify_eq_setIfInBounds (exists_entry hs)]
    rfl
  · exact {
      nodup := List.nodup_cons.mpr ⟨hnot, hv.nodup⟩
      vacant := fun i hi => by
        rw [hr.getElem?]
        rcases List.mem_cons.mp hi with rfl | hi
        · exact ⟨_, if_pos rfl⟩
        · rw [if_neg fun heq : s.index = i => hnot (heq ▸ hi)]
          exact hv.vacant i hi
      count_add := by
        rw [hr.size_eq, ← hcount]
        show a.count - 1 + (s.index :: a.vacant).length = _
        rw [List.length_cons]
        omega
      slot_eq := fun s' t₁ hs' => by
        rw [hu.get?] at hs'
        split at hs'
        · cases hs'
        · exact hv.slot_eq s' t₁ hs' }
  · show a.count - 1 + 1 = a.count
    omega

end TextureMemory.Arena
