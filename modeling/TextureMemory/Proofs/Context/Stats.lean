import TextureMemory.Proofs.Context.Valid

/-!
# The sums of a summary

The list of the addresses that textures own (`Arena.owned`), and the bytes that their surfaces take.
`Context.stats` takes the size of every surface and adds them up: in a valid context each of them has a
size, so it comes down to whether the sum is a word (`Context.Valid.stats_eq`).
-/

namespace TextureMemory

/-- The bytes of the surface, or none if no word can tell them. -/
def Texture.bytes (t : Texture) (unit : Nat) : Nat :=
  match t.size? unit with
  | .ok (some n) => n
  | _ => 0

/-- The bytes of a texture are those of its surface, where that has a size. -/
theorem Texture.bytes_eq {t : Texture} {unit n : Nat} (h : t.size? unit = .ok (some n)) :
    t.bytes unit = n := by
  rw [bytes, h]

namespace Arena

variable {a a' : Arena} {slot : Slot} {new : Option Texture}

/-- The addresses that textures own. -/
def owned (a : Arena) : List Address := a.toList.filterMap Texture.backing

/-- Apart from the addresses of one texture, an update leaves those that are owned. -/
theorem Update.exists_owned (hu : Update a a' slot new) :
    ∃ l, a.owned.Perm (((a.get? slot).bind Texture.backing).toList ++ l) ∧
      a'.owned.Perm ((new.bind Texture.backing).toList ++ l) := by
  obtain ⟨l₁, l₂, hold, hnew⟩ := hu.toList
  have hone : ∀ o : Option Texture,
      o.toList.filterMap Texture.backing = (o.bind Texture.backing).toList := by
    intro o
    cases o with
    | none => rfl
    | some t => cases ht : t.backing <;> simp [ht]
  refine ⟨l₁.filterMap Texture.backing ++ l₂.filterMap Texture.backing, ?_, ?_⟩
  · rw [owned, hold, List.filterMap_append, List.filterMap_append, hone]
    exact (List.perm_append_comm.append_right _).trans (List.append_assoc _ _ _ ▸ List.Perm.refl _)
  · rw [owned, hnew, List.filterMap_append, List.filterMap_append, hone]
    exact (List.perm_append_comm.append_right _).trans (List.append_assoc _ _ _ ▸ List.Perm.refl _)

end Arena

namespace Context

variable {c : Context} {l : List Texture}

/-- What can be told of the textures that own an address can be told of the addresses. -/
theorem map_filter_backing {f : Texture → Nat} {g : Address → Nat}
    (h : ∀ t ∈ l, ∀ p, t.backing = some p → f t = g p) :
    (l.filter (·.backing.isSome)).map f = (l.filterMap Texture.backing).map g := by
  induction l with
  | nil => rfl
  | cons t l ih =>
    have hrest := ih fun t' ht' => h t' (List.mem_cons_of_mem _ ht')
    cases hp : t.backing with
    | none => rw [List.filter_cons_of_neg (by simp [hp]), List.filterMap_cons_none hp, hrest]
    | some p =>
      rw [List.filter_cons_of_pos (by simp [hp]), List.filterMap_cons_some hp, List.map_cons,
        List.map_cons, hrest, h t List.mem_cons_self p hp]

/-- As many textures are defined as own an address. -/
theorem length_defined : c.defined.length = c.arena.owned.length := by
  have hmap : c.defined.map (fun _ => 0) = c.arena.owned.map fun _ => 0 :=
    map_filter_backing fun _ _ _ _ => rfl
  simpa using congrArg List.length hmap

/-- Asking for sizes never halts the program if every surface has one. -/
theorem mapM_size {unit : Nat} (h : ∀ t ∈ l, ∃ n, t.size? unit = .ok (some n)) :
    l.mapM (·.size? unit) = .ok (l.map fun t => some (t.bytes unit)) := by
  induction l with
  | nil => rfl
  | cons t l ih =>
    obtain ⟨n, hn⟩ := h t List.mem_cons_self
    have hrest := ih fun t' ht' => h t' (List.mem_cons_of_mem _ ht')
    rw [List.mapM_cons, hn, hrest, List.map_cons, Texture.bytes_eq hn]
    rfl

/-- The summary of a valid context in which the sum of all sizes is a word. -/
theorem Valid.stats_eq (hv : c.Valid)
    (hlt : Word.total (c.defined.map (·.bytes c.policy.unit)) < Word.limit) :
    c.stats = .ok ⟨c.frame, c.arena.count, c.defined.length,
      Word.total (c.defined.map (·.bytes c.policy.unit)), c.reclaims⟩ := by
  have hsizes : ∀ t ∈ c.defined, ∃ n, t.size? c.policy.unit = .ok (some n) := by
    intro t ht
    obtain ⟨hmem, hsome⟩ := List.mem_filter.mp ht
    obtain ⟨slot, hslot⟩ := Arena.mem_toList_iff.mp hmem
    obtain ⟨p, hp⟩ := Option.isSome_iff_exists.mp hsome
    obtain ⟨n, -, hn⟩ := hv.owns.size slot t p hslot hp
    exact ⟨n, hn⟩
  have hmap : (c.defined.map fun t => some (t.bytes c.policy.unit)).map (·.getD 0) =
      c.defined.map (·.bytes c.policy.unit) := by
    rw [List.map_map]
    rfl
  rw [stats, mapM_size hsizes]
  simp only [Fault.ok_bind, hmap, Word.sum_eq_ok_iff.mpr ⟨rfl, hlt⟩]
  rfl

end Context

end TextureMemory
