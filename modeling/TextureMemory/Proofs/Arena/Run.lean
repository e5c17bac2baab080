import TextureMemory.Proofs.Arena
import TextureMemory.Proofs.Trace

/-!
# Runs of an arena

The calls on an arena, one after the other: adding textures, taking them out, and changing what a texture
holds. Nothing is assumed of the slots that they name, which may never have been handed out.

`Arena.Effect` lists all that a call may do, entry by entry, so an invariant of runs is shown by going
through it once (`Arena.Run.induct`). A texture is added in one of three ways: to the latest vacant entry,
to a new one, or, where the table has an entry for every index already, under an index that starts over.
Then the entry of that index is written to and the new one stays vacant for good.
-/

namespace TextureMemory.Arena

/-- A call on an arena. -/
inductive Action where
  /-- Adds a texture. -/
  | insert
  /-- Takes out a texture. -/
  | remove (slot : Slot)
  /-- Changes all of a texture but its name. -/
  | edit (slot : Slot) (handle : Handle) (backing : Option Address) (stamp : Stamp)
deriving DecidableEq, Repr

/-- What a call on an arena answers. -/
inductive Answer where
  /-- The slot of a new texture. -/
  | inserted (slot : Slot)
  /-- The texture that was taken out. -/
  | removed (texture : Texture)
  /-- The texture as it was before it was changed. -/
  | found (texture : Texture)
  /-- The call failed. -/
  | failed (cause : TextureError)
deriving DecidableEq, Repr

/-- Performs a call on an arena. -/
def perform (a : Arena) : Action → Except Fault (Answer × Arena)
  | .insert => do
    let (slot, a) ← a.insert
    return (.inserted slot, a)
  | .remove slot => do
    match ← a.remove slot with
    | (.ok t, a) => return (.removed t, a)
    | (.error e, a) => return (.failed e, a)
  | .edit slot handle backing stamp =>
    match a.get slot with
    | .ok t => return (.found t, a.set slot { t with handle, backing, stamp })
    | .error e => return (.failed e, a)

/-- A call on an arena with its answer, and the arenas before and after it. -/
abbrev Step := Call Arena Action Answer

/-- The arena that the calls of a list led to, the latest call first. -/
abbrev Run : Arena → List Step → Arena → Prop := Trace perform

/-- All that a call on an arena may do and answer. -/
inductive Effect (a : Arena) : Action → Answer → Arena → Prop
  | reuse {a' : Arena} {i generation : Nat} (hvacant : a.vacant = i :: a'.vacant)
      (hreplaces : Replaces a a' i ⟨generation, none⟩
        ⟨generation, some (.blank ⟨i, generation⟩)⟩)
      (hcount : a'.count = a.count + 1) : Effect a .insert (.inserted ⟨i, generation⟩) a'
  | grow {a' : Arena} (hfull : a.vacant = []) (hsize : a.entries.size < Slot.limit)
      (hentries : a'.entries = a.entries.push ⟨0, some (.blank ⟨a.entries.size, 0⟩)⟩)
      (hvacant : a'.vacant = []) (hcount : a'.count = a.count + 1) :
      Effect a .insert (.inserted ⟨a.entries.size, 0⟩) a'
  | wrap {a' : Arena} {i : Nat} {e : Entry} (hfull : a.vacant = [])
      (hsize : Slot.limit ≤ a.entries.size) (hindex : i = a.entries.size % Slot.limit)
      (hreplaces : Replaces { a with entries := a.entries.push ⟨0, none⟩ } a' i e
        { e with texture := some (.blank ⟨i, e.generation⟩) })
      (hvacant : a'.vacant = []) (hcount : a'.count = a.count + 1) :
      Effect a .insert (.inserted ⟨i, e.generation⟩) a'
  | remove {a' : Arena} {slot : Slot} {t : Texture} (hslot : a.get? slot = some t)
      (hreplaces : Replaces a a' slot.index ⟨slot.generation, some t⟩
        ⟨(slot.generation + 1) % Slot.limit, none⟩)
      (hvacant : a'.vacant = slot.index :: a.vacant) (hcount : a'.count + 1 = a.count) :
      Effect a (.remove slot) (.removed t) a'
  | edit {a' : Arena} {slot : Slot} {t : Texture} {handle backing stamp}
      (hslot : a.get? slot = some t)
      (hreplaces : Replaces a a' slot.index ⟨slot.generation, some t⟩
        ⟨slot.generation, some { t with handle, backing, stamp }⟩)
      (hvacant : a'.vacant = a.vacant) (hcount : a'.count = a.count) :
      Effect a (.edit slot handle backing stamp) (.found t) a'
  | missRemove {slot : Slot} (hslot : a.get? slot = none) :
      Effect a (.remove slot) (.failed (.unknownSlot slot)) a
  | missEdit {slot : Slot} {handle backing stamp} (hslot : a.get? slot = none) :
      Effect a (.edit slot handle backing stamp) (.failed (.unknownSlot slot)) a

variable {a a' a₀ : Arena} {past : List Step} {action : Action} {answer : Answer} {slot : Slot}
  {t : Texture} {i generation count : Nat} {rest : List Nat} {e : Entry}

/-! ## One call -/

/-- The latest vacant entry is used, under the generation that it has. -/
theorem insert_of_vacant (hvacant : a.vacant = i :: rest)
    (hentry : a.entries[i]? = some ⟨generation, none⟩) (hadd : Word.add a.count 1 = .ok count) :
    a.insert = .ok (⟨i, generation⟩,
      ⟨a.entries.setIfInBounds i ⟨generation, some (.blank ⟨i, generation⟩)⟩, rest, count⟩) := by
  rw [insert, vacancy, hvacant]
  simp only [hentry, hadd, Fault.ok_bind]
  rfl

/-- Without a vacant entry the table grows, and the index is that of the new entry modulo the number of
indices. -/
theorem insert_of_full (hvacant : a.vacant = []) (hindex : i = a.entries.size % Slot.limit)
    (hentry : (a.entries.push ⟨0, none⟩)[i]? = some e) (hadd : Word.add a.count 1 = .ok count) :
    a.insert = .ok (⟨i, e.generation⟩,
      ⟨(a.entries.push ⟨0, none⟩).setIfInBounds i ⟨e.generation, some (.blank ⟨i, e.generation⟩)⟩,
        [], count⟩) := by
  subst hindex
  rw [insert, vacancy, hvacant]
  simp only [hentry, hadd, Fault.ok_bind]
  rfl

/-- Adding a texture does what `Effect` says, as long as the count stays a word. -/
theorem Valid.effect_insert (hv : a.Valid) (hcount : a.count + 1 < Word.limit) :
    ∃ slot a', a.insert = .ok (slot, a') ∧ Effect a .insert (.inserted slot) a' := by
  have hadd : Word.add a.count 1 = .ok (a.count + 1) := Word.add_eq_ok_iff.mpr ⟨rfl, hcount⟩
  cases hvacant : a.vacant with
  | cons i rest =>
    obtain ⟨generation, hentry⟩ := hv.vacant i (by simp [hvacant])
    exact ⟨_, _, insert_of_vacant hvacant hentry hadd, .reuse hvacant ⟨hentry, rfl⟩ rfl⟩
  | nil =>
    by_cases hsize : a.entries.size < Slot.limit
    · have hinsert := insert_of_full hvacant (Nat.mod_eq_of_lt hsize).symm
        Array.getElem?_push_size hadd
      -- The entry that was just added is the one that is written to.
      rw [Array.setIfInBounds, dif_pos (by simp), Array.set_push, dif_neg (Nat.lt_irrefl _)] at hinsert
      exact ⟨_, _, hinsert, .grow hvacant hsize rfl rfl rfl⟩
    · have hlt : a.entries.size % Slot.limit < a.entries.size :=
        Nat.lt_of_lt_of_le (Nat.mod_lt _ (by decide)) (Nat.le_of_not_lt hsize)
      have hentry := Array.getElem?_push_lt (x := ⟨0, none⟩) hlt
      exact ⟨_, _, insert_of_full hvacant rfl hentry hadd,
        .wrap hvacant (Nat.le_of_not_lt hsize) rfl ⟨hentry, rfl⟩ rfl rfl⟩

/-- A slot is not contained just if nothing is found under it. -/
theorem contains_eq_false_iff : a.contains slot = false ↔ a.get? slot = none := by
  rw [contains, Option.isSome_eq_false_iff, Option.isNone_iff_eq_none]

/-- A slot that names no texture is refused, and nothing changes. -/
theorem remove_of_get?_none (hslot : a.get? slot = none) :
    a.remove slot = .ok (.error (.unknownSlot slot), a) := by
  rw [remove, hslot]
  rfl

theorem get_of_get? (hslot : a.get? slot = some t) : a.get slot = .ok t := by
  rw [get, hslot]

/-- A lookup fails with the slot that is not known. -/
theorem get_of_get?_none (hslot : a.get? slot = none) :
    a.get slot = .error (.unknownSlot slot) := by
  rw [get, hslot]

/-- Taking out a texture vacates its entry, which goes on to the next generation. -/
theorem Valid.remove_eq (hv : a.Valid) (hslot : a.get? slot = some t) :
    a.remove slot = .ok (.ok t,
      ⟨a.entries.setIfInBounds slot.index ⟨(slot.generation + 1) % Slot.limit, none⟩,
        slot.index :: a.vacant, a.count - 1⟩) := by
  have hsub : Word.sub a.count 1 = .ok (a.count - 1) :=
    Word.sub_eq_ok_iff.mpr (Nat.sub_add_cancel (hv.count_pos hslot))
  rw [remove, hslot]
  simp only [hsub, Fault.ok_bind, modify_eq_setIfInBounds (exists_entry hslot)]
  rfl

/-- A call on a valid arena that answers has done what `Effect` says, and left a valid arena. -/
theorem Valid.effect (hv : a.Valid) (hperform : a.perform action = .ok (answer, a')) :
    Effect a action answer a' ∧ a'.Valid := by
  cases action with
  | insert =>
    obtain ⟨⟨slot, after⟩, hinsert, heq⟩ := Fault.bind_eq_ok_iff.mp hperform
    cases heq
    by_cases hcount : a.count + 1 < Word.limit
    · obtain ⟨slot', after', heq, he⟩ := hv.effect_insert hcount
      rw [hinsert] at heq
      cases heq
      rcases hv.insert_cases with ⟨_, _, heq, -, hvalid, -⟩ | ⟨hlimit, -⟩
      · rw [hinsert] at heq
        cases heq
        exact ⟨he, hvalid⟩
      · omega
    · rw [hv.insert_of_limit (Nat.le_of_not_lt hcount)] at hinsert
      cases hinsert
  | remove slot =>
    cases hslot : a.get? slot with
    | none =>
      rw [perform, remove_of_get?_none hslot] at hperform
      cases hperform
      exact ⟨.missRemove hslot, hv⟩
    | some t =>
      obtain ⟨after, heq, -, hvalid, -⟩ := hv.remove_of_get? hslot
      rw [perform, heq] at hperform
      rw [hv.remove_eq hslot] at heq
      cases heq
      cases hperform
      exact ⟨.remove hslot ⟨exists_entry hslot, rfl⟩ rfl (Nat.sub_add_cancel (hv.count_pos hslot)),
        hvalid⟩
  | edit slot handle backing stamp =>
    cases hslot : a.get? slot with
    | none =>
      rw [perform, get_of_get?_none hslot] at hperform
      cases hperform
      exact ⟨.missEdit hslot, hv⟩
    | some t =>
      have hvalid : (a.set slot { t with handle, backing, stamp }).Valid :=
        hv.set hslot (hv.slot_eq slot t hslot)
      rw [perform, get_of_get? hslot] at hperform
      cases hperform
      exact ⟨.edit hslot (replaces_set hslot) (by rw [set_eq hslot]) (by rw [set_eq hslot]), hvalid⟩

/-! ## Along a run -/

/-- Every arena of a run is valid. -/
theorem Run.valid (hrun : Run a₀ past a) (hv : a₀.Valid) : a.Valid :=
  hrun.invariant (fun hv hperform => (hv.effect hperform).2) hv

/-- What holds at the start and is kept by every effect of a call holds along every run. -/
theorem Run.induct {P : List Step → Arena → Prop} (hrun : Run a₀ past a) (hv : a₀.Valid)
    (hstart : P [] a₀)
    (hnext : ∀ {past a action answer a'}, a.Valid → P past a → Effect a action answer a' →
      P (⟨a, action, answer, a'⟩ :: past) a') : P past a :=
  Trace.induct hrun (fun hv hperform => hv.effect hperform) hv hstart hnext

end TextureMemory.Arena
