import TextureMemory.Proofs.Arena.Run

/-!
# Where the index starts over

The entry for a new texture is one that is vacant, or else the one whose index is the size of the table,
counted modulo the number of indices. So when the last vacant entry has just been used, and the size of the
table comes round to its index, the next texture gets the same entry in its turn, and with it the same slot:
it takes the place of the one before it (`Arena.Returns.slot_eq`). The table has to have an entry for every
index for that. An arena that is filled up and loses its first texture is one of this kind
(`Arena.remove_filled`).
-/

namespace TextureMemory.Arena

/-- No entry is vacant, and the size of the table comes round to the index of a slot, whose entry has not gone
on to another generation. -/
structure Returns (a : Arena) (s : Slot) : Prop where
  vacant_eq : a.vacant = []
  index_eq : a.entries.size % Slot.limit = s.index
  entry : ∃ o, a.entries[s.index]? = some ⟨s.generation, o⟩

/-- The arena of `n` textures, none of which took the place of another. -/
def filled (n : Nat) : Arena := ⟨(Array.range n).map fun i => ⟨0, some (.blank ⟨i, 0⟩)⟩, [], n⟩

variable {a a' : Arena} {s slot : Slot} {t : Texture} {i n : Nat}

/-! ## The same slot again -/

/-- The last vacant entry is used, and the size of the table comes round to its index. -/
theorem Valid.returns (hv : a.Valid) (hvacant : a.vacant = [i]) (hround : a.entries.size % Slot.limit = i)
    (hinsert : a.insert = .ok (slot, a')) : a'.Returns slot := by
  have hperform : a.perform .insert = .ok (.inserted slot, a') := by
    rw [perform, hinsert]
    rfl
  cases (hv.effect hperform).1 with
  | @reuse _ _ generation hused hreplaces =>
    rw [hvacant] at hused
    obtain ⟨rfl, hlast⟩ := List.cons.inj hused
    refine ⟨hlast.symm, hreplaces.size_eq ▸ hround, some (.blank ⟨i, generation⟩), ?_⟩
    rw [hreplaces.getElem?, if_pos rfl]
  | grow hfull | wrap hfull =>
    rw [hvacant] at hfull
    cases hfull

/-- What is done to the textures does not change that. -/
theorem Returns.set (hr : a.Returns s) (hslot : a.get? slot = some t) (t' : Texture) :
    (a.set slot t').Returns s := by
  obtain ⟨o, hentry⟩ := hr.entry
  have hreplaces : Replaces a (a.set slot t') slot.index _ _ := replaces_set hslot
  refine ⟨?_, hreplaces.size_eq ▸ hr.index_eq, ?_⟩
  · rw [set_eq hslot]
    exact hr.vacant_eq
  · rw [hreplaces.getElem?]
    split
    · next heq =>
      -- Both are the same entry, so they are of one generation.
      rw [← heq, exists_entry hslot, Option.some.injEq, Entry.mk.injEq] at hentry
      exact ⟨some t', by rw [hentry.1]⟩
    · exact ⟨o, hentry⟩

/-- The next texture gets the same slot. -/
theorem Returns.slot_eq (hr : a.Returns s) (hv : a.Valid) (hinsert : a.insert = .ok (slot, a')) :
    slot = s := by
  have hperform : a.perform .insert = .ok (.inserted slot, a') := by
    rw [perform, hinsert]
    rfl
  obtain ⟨o, hentry⟩ := hr.entry
  obtain ⟨hlt, -⟩ := Array.getElem?_eq_some_iff.mp hentry
  cases (hv.effect hperform).1 with
  | reuse hused =>
    rw [hr.vacant_eq] at hused
    cases hused
  | grow _ hsize =>
    have hindex := hr.index_eq
    rw [Nat.mod_eq_of_lt hsize] at hindex
    omega
  | wrap _ _ hindex hreplaces =>
    have hsame := hindex.trans hr.index_eq
    subst hsame
    have hold := hreplaces.old
    rw [Array.getElem?_push_lt hlt, ← Array.getElem?_eq_getElem hlt, hentry] at hold
    cases hold
    rfl

/-! ## Filling an arena up -/

theorem filled_zero : filled 0 = empty := by simp [filled, empty]

/-- One texture more is in the entry that was added last. -/
theorem insert_filled (hn : n < Slot.limit) : (filled n).insert = .ok (⟨n, 0⟩, filled (n + 1)) := by
  have hword : Slot.limit < Word.limit := by decide
  have hsize : (filled n).entries.size = n := by rw [filled, Array.size_map, Array.size_range]
  have hadd : Word.add (filled n).count 1 = .ok (n + 1) :=
    Word.add_eq_ok_iff.mpr ⟨rfl, by show n + 1 < Word.limit; omega⟩
  have hentry : ((filled n).entries.push ⟨0, none⟩)[n]? = some ⟨0, none⟩ := by
    rw [Array.getElem?_push, if_pos hsize.symm]
  rw [insert_of_full rfl (by rw [hsize, Nat.mod_eq_of_lt hn]) hentry hadd]
  have hentries : ((filled n).entries.push ⟨0, none⟩).setIfInBounds n ⟨0, some (.blank ⟨n, 0⟩)⟩ =
      (filled (n + 1)).entries := by
    rw [Array.setIfInBounds, dif_pos (by rw [Array.size_push, hsize]; exact Nat.lt_succ_self n),
      Array.set_push, dif_neg (by rw [hsize]; exact Nat.lt_irrefl n)]
    simp [filled, Array.range_succ]
  rw [hentries]
  rfl

/-- The first texture is found if there is one. -/
theorem get?_filled (hn : 0 < n) : (filled n).get? ⟨0, 0⟩ = some (.blank ⟨0, 0⟩) := by
  have hentry : (filled n).entries[0]? = some ⟨0, some (.blank ⟨0, 0⟩)⟩ := by
    simp [filled, hn]
  exact get?_eq_some_iff.mpr ⟨_, hentry, rfl, rfl⟩

/-- The first texture is taken out. -/
theorem remove_filled (hn : 0 < n) : ∃ a, (filled n).remove ⟨0, 0⟩ = .ok (.ok (.blank ⟨0, 0⟩), a) ∧
    a.vacant = [0] ∧ a.entries.size = n ∧ a.count = n - 1 := by
  have hsub : Word.sub (filled n).count 1 = .ok (n - 1) :=
    Word.sub_eq_ok_iff.mpr (Nat.sub_add_cancel hn)
  rw [remove, get?_filled hn]
  simp only [hsub, Fault.ok_bind]
  refine ⟨_, rfl, rfl, ?_, rfl⟩
  rw [Array.size_modify, filled, Array.size_map, Array.size_range]

end TextureMemory.Arena
