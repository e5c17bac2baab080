import TextureMemory.Context.Action
import TextureMemory.Proofs.Surface

/-!
# What a heap keeps

A valid heap charges each pool with exactly the bytes of its blocks, and its cursor lies above every
block in use. Since the cursor only moves on, the bytes in use never exceed `Heap.spent`, the
distance that it has moved. This bounds all sums of sizes below the limit of words, however the
budgets are chosen.

`Heap.Valid.extend` and `Heap.Valid.without` are the two steps that change it.
-/

namespace TextureMemory.Heap

variable {h : Heap} {a : Address} {b : Block} {l : List Block} {size : Nat} {pool : Pool}
  {request : MemoryClass} {cursor : Address} {old : Option Address}

/-! ## The state after a call -/

/-- The bytes of the blocks that are charged to a pool. -/
def charged (l : List Block) (p : Pool) : Nat :=
  Word.total ((l.filter (·.pool = p)).map Block.size)

/-- How far the cursor has moved: the bytes ever handed out, with what was rounded up. -/
def spent (h : Heap) : Nat := h.cursor.value - base.value

/-- The heap with a new block of zeros at its cursor, which moves on. -/
def extend (h : Heap) (size : Nat) (pool : Pool) (cursor : Address) : Heap :=
  { h with
    used := h.used.set pool (h.used.get pool + size)
    blocks := ⟨h.cursor, pool, Array.replicate size 0⟩ :: h.blocks
    cursor }

/-- The heap after a block was taken back. -/
def without (h : Heap) (b : Block) : Heap :=
  { h with
    used := h.used.set b.pool (h.used.get b.pool - b.size)
    blocks := h.blocks.filter (·.address ≠ b.address) }

/-- The heap after a block was taken back, if there was one. -/
def discard (h : Heap) : Option Block → Heap
  | none => h
  | some b => h.without b

/-- What a heap keeps from call to call. -/
structure Valid (h : Heap) : Prop where
  aligned : alignment ∣ h.cursor.value
  base_le : base.value ≤ h.cursor.value
  cursor_lt : h.cursor.value < Word.limit
  below : ∀ b ∈ h.blocks, b.address.value < h.cursor.value
  nodup : (h.blocks.map (·.address)).Nodup
  used_eq : ∀ p, h.used.get p = charged h.blocks p
  used_le : ∀ p, h.used.get p ≤ h.budgets.get p
  size_le : Word.total (h.blocks.map Block.size) ≤ h.spent

/-- The heap has a block of `size` bytes to give: `pool` is the one that it is charged to, and
`cursor` is where the next block goes. -/
structure Grants (h : Heap) (size : Nat) (request : MemoryClass) (pool : Pool)
    (cursor : Address) : Prop where
  size_pos : 0 < size
  size_lt : size < Extent.limit
  mem : pool ∈ request.candidates
  room : size ≤ h.available pool
  next : h.cursorAfter? size = some cursor

/-- Why a heap refuses a block: none of no bytes is to be had, or memory has run out. -/
def Refuses (size : Nat) (request : MemoryClass) (cause : HeapError) : Prop :=
  (size = 0 ∧ cause = .zeroSize) ∨ ∃ available, cause = .outOfMemory request size available

/-- A heap is valid at first, whatever its budgets are. -/
theorem ofBudgets_valid (budgets : Budgets) : (ofBudgets budgets).Valid where
  aligned := ⟨0x810000, rfl⟩
  base_le := Nat.le_refl _
  cursor_lt := show base.value < Word.limit by decide
  below := by simp [ofBudgets]
  nodup := by simp [ofBudgets]
  used_eq := by simp [ofBudgets, charged]
  used_le := by simp [ofBudgets]
  size_le := by simp [ofBudgets]

/-! ## Looking up blocks -/

/-- No block begins at an address that none of the blocks has. -/
theorem block?_eq_none_iff : h.block? a = none ↔ ∀ b ∈ h.blocks, b.address ≠ a := by
  simp [block?]

/-- A block that is found is in use, and begins where it was looked for. -/
theorem mem_of_block?_eq_some (hb : h.block? a = some b) : b ∈ h.blocks ∧ b.address = a :=
  ⟨List.mem_of_find?_eq_some hb, by simpa using List.find?_some hb⟩

/-- Blocks of different addresses are told apart by their addresses. -/
theorem eq_of_address_eq {c : Block} (hn : (l.map (·.address)).Nodup) (hb : b ∈ l) (hc : c ∈ l)
    (h : b.address = c.address) : b = c := by
  induction l with
  | nil => cases hb
  | cons d l ih =>
    obtain ⟨hd, hn⟩ := List.nodup_cons.mp hn
    have hne : ∀ e ∈ l, e.address ≠ d.address := fun e he heq =>
      hd (List.mem_map.mpr ⟨e, he, heq⟩)
    rcases List.mem_cons.mp hb with hbd | hbl <;> rcases List.mem_cons.mp hc with hcd | hcl
    · rw [hbd, hcd]
    · exact absurd (hbd ▸ h.symm) (hne c hcl)
    · exact absurd (hcd ▸ h) (hne b hbl)
    · exact ih hn hbl hcl

/-- A block in use is found at its address. -/
theorem Valid.block?_eq_some (hv : h.Valid) (hb : b ∈ h.blocks) : h.block? b.address = some b := by
  obtain ⟨c, hc⟩ : ∃ c, h.block? b.address = some c := by
    cases hn : h.block? b.address with
    | none => exact absurd rfl (block?_eq_none_iff.mp hn b hb)
    | some c => exact ⟨c, rfl⟩
  obtain ⟨hmem, haddr⟩ := mem_of_block?_eq_some hc
  rw [hc, eq_of_address_eq hv.nodup hmem hb haddr]

/-- Nothing is in use from the cursor on. -/
theorem Valid.block?_eq_none (hv : h.Valid) (ha : h.cursor.value ≤ a.value) : h.block? a = none := by
  apply block?_eq_none_iff.mpr
  intro b hb hab
  have hlt := hv.below b hb
  rw [hab] at hlt
  omega

@[simp] theorem extend_cursor : (h.extend size pool cursor).cursor = cursor := rfl

@[simp] theorem discard_cursor {o : Option Block} : (h.discard o).cursor = h.cursor := by
  cases o <;> rfl

/-- After a block was handed out, it is found at the old cursor, and all else as before. -/
theorem block?_extend : (h.extend size pool cursor).block? a =
    if h.cursor = a then some ⟨h.cursor, pool, Array.replicate size 0⟩ else h.block? a := by
  rw [block?, extend, List.find?_cons]
  split <;> simp_all [block?]

/-- After a block was taken back, nothing is found at its address, and all else as before. -/
theorem block?_without : (h.without b).block? a = if a = b.address then none else h.block? a := by
  rw [block?, without, List.find?_filter]
  split
  · next hab => simp [hab]
  · next hab =>
    rw [block?]
    congr 1
    funext c
    by_cases hc : c.address = a
    · simp [hc, hab]
    · simp [hc]

/-- After a block was taken back, if there was one, nothing is found at its address, and all else as before.
-/
theorem block?_discard {g : Heap} : (g.discard (old.bind h.block?)).block? a =
    if old = some a ∧ (h.block? a).isSome then none else g.block? a := by
  cases old with
  | none => simp [discard]
  | some o =>
    rw [Option.bind_some]
    cases hb : h.block? o with
    | none =>
      have hnot : ¬(some o = some a ∧ (h.block? a).isSome) := by
        rintro ⟨⟨⟩, hsome⟩
        rw [hb] at hsome
        cases hsome
      rw [if_neg hnot, discard]
    | some b =>
      obtain ⟨-, rfl⟩ := mem_of_block?_eq_some hb
      rw [discard, block?_without]
      by_cases hab : a = b.address
      · subst hab
        rw [if_pos rfl, if_pos ⟨rfl, by rw [hb]; rfl⟩]
      · rw [if_neg hab, if_neg fun hand => hab (Option.some.inj hand.1).symm]

/-- After an exchange, the new block is found at the old cursor, and nothing where the old block was. -/
theorem block?_extend_discard (hold : ∀ o ∈ old, o.value < h.cursor.value) :
    ((h.extend size pool cursor).discard (old.bind h.block?)).block? a =
      if a = h.cursor then some ⟨h.cursor, pool, Array.replicate size 0⟩
      else if old = some a then none else h.block? a := by
  rw [block?_discard, block?_extend]
  by_cases ha : a = h.cursor
  · subst ha
    -- The old block is not the new one: it begins below the cursor.
    rw [if_pos rfl, if_pos rfl, if_neg]
    rintro ⟨hc, -⟩
    exact absurd (hold _ hc) (Nat.lt_irrefl _)
  · rw [if_neg ha, if_neg (Ne.symm ha)]
    by_cases hc : old = some a
    · rw [if_pos hc]
      cases hb : h.block? a with
      | none => exact ite_self none
      | some b => exact if_pos ⟨hc, rfl⟩
    · rw [if_neg hc, if_neg fun hand => hc hand.1]

/-- Nothing is found where a block was that was taken back. -/
theorem block?_of_discard (ha : old = some a) : (h.discard (old.bind h.block?)).block? a = none := by
  rw [block?_discard]
  cases hb : h.block? a with
  | none => exact ite_self none
  | some b => exact if_pos ⟨ha, rfl⟩

/-- After an exchange, nothing is found where the old block was. -/
theorem block?_of_exchange (hold : ∀ o ∈ old, o.value < h.cursor.value) (ha : old = some a) :
    ((h.extend size pool cursor).discard (old.bind h.block?)).block? a = none := by
  rw [block?_extend_discard hold, if_neg (Address.ne_of_lt (hold a ha)), if_pos ha]

/-! ## Validity of the state after a call -/

/-- Taking out the block of an address takes out one block. -/
theorem perm_cons_filter (hn : (l.map (·.address)).Nodup) (hb : b ∈ l) :
    l.Perm (b :: l.filter (·.address ≠ b.address)) := by
  induction l with
  | nil => cases hb
  | cons c l ih =>
    rw [List.map_cons, List.nodup_cons] at hn
    obtain ⟨hc, hn⟩ := hn
    -- The block is the first, and the rest have other addresses; or the first has another address.
    rcases List.mem_cons.mp hb with rfl | hb
    · have hkeep : l.filter (·.address ≠ b.address) = l := by
        apply List.filter_eq_self.mpr
        intro d hd
        have hne : d.address ≠ b.address := fun heq => hc (heq ▸ List.mem_map_of_mem hd)
        simpa using hne
      rw [List.filter_cons_of_neg (by simp), hkeep]
    · have hne : c.address ≠ b.address := fun heq => hc (heq ▸ List.mem_map_of_mem hb)
      rw [List.filter_cons_of_pos (by simpa using hne)]
      exact ((ih hn hb).cons c).trans (List.Perm.swap b c _)

/-- The first block of a list is charged to its own pool. -/
theorem charged_cons (p : Pool) :
    charged (b :: l) p = (if b.pool = p then b.size else 0) + charged l p := by
  by_cases hp : b.pool = p <;> simp [charged, hp]

/-- The bytes that one pool is charged with are among those of all blocks. -/
theorem charged_le (p : Pool) : charged l p ≤ Word.total (l.map Block.size) := by
  induction l with
  | nil => exact Nat.le_refl 0
  | cons b l ih =>
    rw [charged_cons, List.map_cons, Word.total_cons]
    split <;> omega

/-- The order of the blocks does not matter for what they are charged to. -/
theorem charged_perm {l' : List Block} (hl : l.Perm l') (p : Pool) : charged l p = charged l' p :=
  Word.total_perm ((hl.filter _).map _)

/-- The bytes of a block in use are charged to its pool. -/
theorem Valid.size_le_used (hv : h.Valid) (hb : b ∈ h.blocks) : b.size ≤ h.used.get b.pool := by
  rw [hv.used_eq, charged_perm (perm_cons_filter hv.nodup hb), charged_cons, if_pos rfl]
  exact Nat.le_add_right _ _

/-- No pool is charged with more bytes than were ever handed out. -/
theorem Valid.used_le_spent (hv : h.Valid) (p : Pool) : h.used.get p ≤ h.spent := by
  rw [hv.used_eq]
  exact Nat.le_trans (charged_le p) hv.size_le

/-- The cursor moves by the size of the new block, rounded up. -/
theorem cursorAfter?_eq_some (hc : h.cursorAfter? size = some cursor) :
    cursor.value = h.cursor.value + Alignment.ceil size alignment ∧
      cursor.value < Word.limit := by
  obtain ⟨padded, hpad, hadv⟩ := Option.bind_eq_some_iff.mp hc
  obtain ⟨rfl, -⟩ := Word.add?_eq_some_iff.mp hpad
  obtain ⟨heq, hlt⟩ := Address.advance?_eq_some_iff.mp hadv
  exact ⟨heq, heq ▸ hlt⟩

/-- The new cursor lies behind the new block. -/
theorem Grants.cursor_ge (hg : h.Grants size request pool cursor) :
    h.cursor.value + size ≤ cursor.value := by
  have hle : size ≤ Alignment.ceil size alignment := Alignment.le_ceil (by decide)
  have heq := (cursorAfter?_eq_some hg.next).1
  omega

/-- A block that is not empty moves the cursor by at least one unit. -/
theorem cursor_add_alignment_le (hpos : 0 < size) (hnext : h.cursorAfter? size = some cursor) :
    h.cursor.value + alignment ≤ cursor.value := by
  have heq := (cursorAfter?_eq_some hnext).1
  have hle : size ≤ Alignment.ceil size alignment := Alignment.le_ceil (by decide)
  -- The size was rounded up to a multiple of the unit, and not to none of it.
  obtain ⟨k, hk⟩ : alignment ∣ Alignment.ceil size alignment := Alignment.dvd_ceil
  have hk0 : 0 < k := Nat.pos_of_ne_zero fun hz => by simp [hz] at hk; omega
  have := Nat.mul_le_mul_left alignment hk0
  omega

/-- Handing out a block moves the cursor by at least one unit. -/
theorem Grants.cursor_ge_alignment (hg : h.Grants size request pool cursor) :
    h.cursor.value + alignment ≤ cursor.value :=
  cursor_add_alignment_le hg.size_pos hg.next

/-- What was spent goes up by the size of the new block, or by more. -/
theorem Grants.spent_add_le (hv : h.Valid) (hg : h.Grants size request pool cursor) :
    h.spent + size ≤ cursor.value - base.value := by
  have hge := hg.cursor_ge
  have hbase := hv.base_le
  rw [spent]
  omega

/-- A new block is charged to its pool. -/
theorem used_extend (p : Pool) : (h.extend size pool cursor).used.get p =
    (if pool = p then size else 0) + h.used.get p := by
  show (h.used.set pool _).get p = _
  by_cases hp : pool = p
  · subst hp
    rw [PerPool.get_set_self, if_pos rfl, Nat.add_comm]
  · rw [PerPool.get_set_of_ne _ _ hp, if_neg hp, Nat.zero_add]

/-- A block that is taken back is no longer charged to its pool. -/
theorem used_without (p : Pool) : (h.without b).used.get p =
    h.used.get p - if b.pool = p then b.size else 0 := by
  show (h.used.set b.pool _).get p = _
  by_cases hp : b.pool = p
  · subst hp
    rw [PerPool.get_set_self, if_pos rfl]
  · rw [PerPool.get_set_of_ne _ _ hp, if_neg hp, Nat.sub_zero]

/-- The sizes after a block was handed out are its own and those of before. -/
theorem map_size_extend : (h.extend size pool cursor).blocks.map Block.size =
    size :: h.blocks.map Block.size := by
  rw [extend, List.map_cons, Block.size, Array.size_replicate]

/-- All blocks lie below the cursor once more when one was handed out. -/
theorem Valid.lt_of_mem_extend (hv : h.Valid) (hg : h.Grants size request pool cursor)
    (hb : b ∈ (h.extend size pool cursor).blocks) : b.address.value < cursor.value := by
  have hge := hg.cursor_ge
  have hpos := hg.size_pos
  rcases List.mem_cons.mp hb with rfl | hb
  · show h.cursor.value < cursor.value
    omega
  · have hlt := hv.below b hb
    omega

/-- No block in use begins at the cursor. -/
theorem Valid.cursor_not_mem (hv : h.Valid) : h.cursor ∉ h.blocks.map (·.address) := by
  intro hmem
  obtain ⟨b, hb, heq⟩ := List.mem_map.mp hmem
  exact block?_eq_none_iff.mp (hv.block?_eq_none (Nat.le_refl _)) b hb heq

/-- A heap stays valid when it hands out a block. -/
theorem Valid.extend (hv : h.Valid) (hg : h.Grants size request pool cursor) :
    (h.extend size pool cursor).Valid where
  aligned := by
    rw [extend_cursor, (cursorAfter?_eq_some hg.next).1]
    exact Nat.dvd_add hv.aligned Alignment.dvd_ceil
  base_le := Nat.le_trans hv.base_le (Nat.le_of_add_right_le hg.cursor_ge)
  cursor_lt := (cursorAfter?_eq_some hg.next).2
  below _ hb := hv.lt_of_mem_extend hg hb
  nodup := List.nodup_cons.mpr ⟨hv.cursor_not_mem, hv.nodup⟩
  used_eq p := by
    have hsize : Block.size ⟨h.cursor, pool, Array.replicate size 0⟩ = size := Array.size_replicate
    rw [used_extend, Heap.extend, charged_cons, hsize, hv.used_eq]
  used_le p := by
    have hroom := hg.room
    have hle := hv.used_le p
    rw [used_extend]
    split
    · next hp =>
      subst hp
      rw [available] at hroom
      show size + h.used.get pool ≤ h.budgets.get pool
      omega
    · rw [Nat.zero_add]
      exact hle
  size_le := by
    rw [map_size_extend, Word.total_cons, Nat.add_comm]
    exact Nat.le_trans (Nat.add_le_add_right hv.size_le _) (hg.spent_add_le hv)

/-- A heap stays valid when a block in use is taken back. -/
theorem Valid.without (hv : h.Valid) (hb : b ∈ h.blocks) : (h.without b).Valid where
  aligned := hv.aligned
  base_le := hv.base_le
  cursor_lt := hv.cursor_lt
  below c hc := hv.below c (List.mem_filter.mp hc).1
  nodup := hv.nodup.sublist (List.filter_sublist.map _)
  used_eq p := by
    have hperm := charged_perm (perm_cons_filter hv.nodup hb) p
    rw [charged_cons, ← hv.used_eq] at hperm
    -- What the pool of the block was charged with is its size and what is left.
    rw [used_without, hperm, Nat.add_sub_cancel_left]
    rfl
  used_le p := by
    rw [used_without]
    exact Nat.le_trans (Nat.sub_le _ _) (hv.used_le p)
  size_le := by
    have hle := hv.size_le
    rw [Word.total_perm ((perm_cons_filter hv.nodup hb).map Block.size), List.map_cons,
      Word.total_cons] at hle
    exact Nat.le_trans (Nat.le_add_left _ _) hle

end TextureMemory.Heap
