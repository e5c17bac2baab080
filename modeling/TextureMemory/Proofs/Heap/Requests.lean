import TextureMemory.Proofs.Heap.Run

/-!
# When a heap has a block to give

Whether a request for a block is met depends on four things: that it asks for any bytes, that a pool of
its class has room for them, that an address is left for the block behind it, and that memory can hold
the block. They are tried in this order, except that the last comes after all refusals and halts the
program. `Heap.allocate_outcome` says for every request which of them decides, and what is answered.

The program measures room by differences that never go below zero, and rounds up within the range of
words. On a valid heap, neither loses anything: no pool is charged with more than its budget
(`Heap.Valid.find?_available`), and no block begins so low that a size could be a word, and the address
behind it, but not what is rounded down on the way to it (`Heap.Valid.cursorAfter?_eq_some_iff`).
-/

namespace TextureMemory.Heap

/-- A block is within the budget of a pool, together with what is in use of it. -/
def Fits (h : Heap) (size : Nat) (p : Pool) : Prop := h.usedBy (.only p) + size ≤ h.budgets.get p

instance (h : Heap) (size : Nat) : DecidablePred (h.Fits size) := fun _ => Nat.decLe _ _

/-- What a request takes, but for memory to hold the block: it asks for bytes, a pool of its class has
room for them, and an address is left for the block behind. -/
structure Serves (h : Heap) (size : Nat) (request : MemoryClass) : Prop where
  size_pos : 0 < size
  room : ∃ p ∈ request.candidates, h.Fits size p
  address : h.cursor.value + Alignment.ceil size alignment < Word.limit

variable {h h' : Heap} {past : List Step} {size : Nat} {pool : Pool} {request : MemoryClass}
  {cursor : Address} {budgets : Budgets}

/-! ## Pools -/

/-- The pool that serves a request is the first one in whose budget it fits. -/
theorem Valid.find?_available (hv : h.Valid) (size : Nat) (request : MemoryClass) :
    request.candidates.find? (size ≤ h.available ·) = request.candidates.find? (h.Fits size ·) := by
  congr 1
  funext p
  have hle := hv.used_le p
  apply decide_eq_decide.mpr
  rw [available, Fits, usedBy]
  omega

/-- The main class is served by main memory only where video memory has no room. -/
theorem not_fits_vram (hpool : MemoryClass.main.candidates.find? (h.Fits size ·) = some .ram) :
    ¬h.Fits size .vram := by
  intro hfits
  rw [MemoryClass.candidates, List.find?_cons_of_pos (by simpa using hfits)] at hpool
  cases hpool

/-- The most that a class can give is what one of its pools can give, and none can give more. -/
theorem mostAvailable_isMax (h : Heap) (request : MemoryClass) :
    (∃ p ∈ request.candidates, h.leftIn (.only p) = h.mostAvailable request) ∧
      ∀ p ∈ request.candidates, h.leftIn (.only p) ≤ h.mostAvailable request := by
  obtain ⟨most, hmost⟩ : ∃ most, (request.candidates.map h.available).max? = some most := by
    cases request <;> exact ⟨_, rfl⟩
  obtain ⟨hmem, hmax⟩ := List.max?_eq_some_iff.mp hmost
  rw [mostAvailable, hmost, Option.getD_some]
  refine ⟨List.mem_map.mp hmem, ?_⟩
  intro p hp
  exact hmax _ (List.mem_map_of_mem hp)

/-! ## Addresses -/

/-- An address is left for a block just where the cursor, moved by its size rounded up, is a word. -/
theorem Valid.cursorAfter?_eq_some_iff (hv : h.Valid) : h.cursorAfter? size = some cursor ↔
    cursor.value = h.cursor.value + Alignment.ceil size alignment ∧ cursor.value < Word.limit := by
  refine ⟨cursorAfter?_eq_some, ?_⟩
  rintro ⟨heq, hlt⟩
  -- The cursor is further from zero than rounding up can add to the size.
  have hbase : alignment ≤ base.value := by decide
  have hle := hv.base_le
  have hceil : size ≤ Alignment.ceil size alignment := Alignment.le_ceil (by decide)
  have halign : 0 < alignment := by decide
  have hadd : Word.add? size (alignment - 1) = some (size + (alignment - 1)) :=
    Word.add?_eq_some_iff.mpr ⟨rfl, by omega⟩
  rw [cursorAfter?, hadd]
  exact Address.advance?_eq_some_iff.mpr ⟨heq, heq ▸ hlt⟩

/-! ## Requests -/

/-- A request that can be met has a pool that serves it and a cursor that comes after it. -/
theorem Serves.exists_find? (hs : h.Serves size request) (hv : h.Valid) : ∃ pool cursor,
    request.candidates.find? (size ≤ h.available ·) = some pool ∧
      h.cursorAfter? size = some cursor := by
  obtain ⟨p, hmem, hfits⟩ := hs.room
  obtain ⟨pool, hpool⟩ : ∃ pool, request.candidates.find? (h.Fits size ·) = some pool := by
    apply Option.isSome_iff_exists.mp
    exact List.find?_isSome.mpr ⟨p, hmem, decide_eq_true hfits⟩
  refine ⟨pool, ⟨h.cursor.value + Alignment.ceil size alignment,
    Nat.add_pos_left h.cursor.value_pos _⟩, ?_, ?_⟩
  · rw [hv.find?_available, hpool]
  · exact hv.cursorAfter?_eq_some_iff.mpr ⟨rfl, hs.address⟩

/-- A block that can be handed out, and that memory can hold, is handed out at the cursor. -/
theorem Serves.allocate_eq (hs : h.Serves size request) (hv : h.Valid) (hsize : size < Extent.limit) :
    ∃ pool cursor, request.candidates.find? (h.Fits size ·) = some pool ∧
      cursor.value = h.cursor.value + Alignment.ceil size alignment ∧
      h.allocate size request = .ok (.ok h.cursor, h.extend size pool cursor) := by
  obtain ⟨pool, cursor, hpool, hcursor⟩ := hs.exists_find? hv
  have hroom : size ≤ h.available pool := by simpa using List.find?_some hpool
  have hg : h.Grants size request pool cursor :=
    ⟨hs.size_pos, hsize, List.mem_of_find?_eq_some hpool, hroom, hcursor⟩
  refine ⟨pool, cursor, ?_, (cursorAfter?_eq_some hcursor).1, hv.allocate_of_grants hpool hg⟩
  rw [← hv.find?_available, hpool]

/-- A block that could be handed out, were it not larger than any memory, halts the program. -/
theorem Serves.allocate_of_large (hs : h.Serves size request) (hv : h.Valid)
    (hlarge : Extent.limit ≤ size) : h.allocate size request = .error .tooLarge := by
  obtain ⟨pool, cursor, hpool, hcursor⟩ := hs.exists_find? hv
  exact hv.allocate_of_large hlarge hpool hcursor

/-- A request that cannot be met is refused, and the error tells the first thing that it lacks. -/
theorem Valid.allocate_of_not_serves (hv : h.Valid) (hnot : ¬h.Serves size request) :
    ∃ cause, h.allocate size request = .ok (.error cause, h) ∧ (cause = .zeroSize ↔ size = 0) ∧
      (0 < size → ∃ available, cause = .outOfMemory request size available ∧ available < size ∧
        ((∀ p ∈ request.candidates, ¬h.Fits size p) →
          (∃ p ∈ request.candidates, h.leftIn (.only p) = available) ∧
          ∀ p ∈ request.candidates, h.leftIn (.only p) ≤ available) ∧
        ((∃ p ∈ request.candidates, h.Fits size p) → available = 0)) := by
  by_cases hz : size = 0
  · subst hz
    exact ⟨.zeroSize, allocate_zero, by simp, by simp⟩
  have hpos : 0 < size := Nat.pos_of_ne_zero hz
  cases hpool : request.candidates.find? (size ≤ h.available ·) with
  | none =>
    refine ⟨_, allocate_of_no_room hpos hpool, by simp [hz], fun _ => ⟨_, rfl, ?_, ?_, ?_⟩⟩
    · obtain ⟨⟨p, hmem, hmost⟩, -⟩ := mostAvailable_isMax h request
      have hlack := List.find?_eq_none.mp hpool p hmem
      rw [← hmost, leftIn]
      simpa using hlack
    · intro _
      exact mostAvailable_isMax h request
    · rintro ⟨p, hmem, hfits⟩
      rw [hv.find?_available] at hpool
      exact absurd (decide_eq_true hfits) (List.find?_eq_none.mp hpool p hmem)
  | some pool =>
    have hfits : h.Fits size pool := by
      rw [hv.find?_available] at hpool
      simpa using List.find?_some hpool
    have hmem := List.mem_of_find?_eq_some hpool
    cases hcursor : h.cursorAfter? size with
    | none =>
      refine ⟨_, allocate_of_no_address hpos hpool hcursor, by simp [hz],
        fun _ => ⟨0, rfl, hpos, ?_, fun _ => rfl⟩⟩
      intro hnone
      exact absurd hfits (hnone pool hmem)
    | some cursor =>
      obtain ⟨heq, hlt⟩ := hv.cursorAfter?_eq_some_iff.mp hcursor
      exact absurd ⟨hpos, ⟨pool, hmem, hfits⟩, heq ▸ hlt⟩ hnot

/-- **When a heap hands out a block.** After any calls on a heap, for every size and every class,

* a block is handed out if and only if bytes are asked for, the bytes in use of some pool of the class
  and these are within its budget, the cursor and the size, rounded up to the alignment, make a word, and
  the size is one that memory can hold;
* the block begins at the cursor, is full of zeros and is charged to the first pool of the class that has
  room for it, so the main class takes main memory only where video memory has none; the cursor moves
  behind the block, and all else stays as it was;
* where bytes, pool or address are wanting, the request is refused and the heap stays as it was, the
  cursor too. The error is that of no bytes just where none were asked for. Otherwise it names the class,
  the size and how much is available, which is less: the most that a pool of the class has left, if none
  has room, and nothing, if only the addresses have run out;
* where nothing is wanting but memory to hold the block, the program halts. -/
theorem allocate_outcome (hrun : Run (ofBudgets budgets) past h) (size : Nat)
    (request : MemoryClass) :
    ((∃ a h', h.allocate size request = .ok (.ok a, h')) ↔
      h.Serves size request ∧ size < Extent.limit) ∧
    (∀ a h', h.allocate size request = .ok (.ok a, h') → a = h.cursor ∧
      ∃ pool, request.candidates.find? (h.Fits size ·) = some pool ∧
        (request = .main → pool = .ram → ¬h.Fits size .vram) ∧
        h'.block? a = some ⟨a, pool, Array.replicate size 0⟩ ∧
        h' = h.extend size pool h'.cursor ∧
        h'.cursor.value = h.cursor.value + Alignment.ceil size alignment) ∧
    (¬h.Serves size request →
      ∃ cause, h.allocate size request = .ok (.error cause, h) ∧ (cause = .zeroSize ↔ size = 0) ∧
        (0 < size → ∃ available, cause = .outOfMemory request size available ∧ available < size ∧
          ((∀ p ∈ request.candidates, ¬h.Fits size p) →
            (∃ p ∈ request.candidates, h.leftIn (.only p) = available) ∧
            ∀ p ∈ request.candidates, h.leftIn (.only p) ≤ available) ∧
          ((∃ p ∈ request.candidates, h.Fits size p) → available = 0))) ∧
    (h.Serves size request → Extent.limit ≤ size →
      h.allocate size request = .error .tooLarge) := by
  have hv : h.Valid := Run.valid hrun (ofBudgets_valid budgets)
  have hmet : ∀ a h', h.allocate size request = .ok (.ok a, h') →
      h.Serves size request ∧ size < Extent.limit := by
    intro a h' heq
    by_cases hs : h.Serves size request
    · refine ⟨hs, Nat.lt_of_not_le fun hle => ?_⟩
      rw [hs.allocate_of_large hv hle] at heq
      cases heq
    · obtain ⟨cause, hrefuse, -⟩ := hv.allocate_of_not_serves hs
      rw [hrefuse] at heq
      cases heq
  refine ⟨⟨?_, ?_⟩, ?_, hv.allocate_of_not_serves, fun hs => hs.allocate_of_large hv⟩
  · rintro ⟨a, h', heq⟩
    exact hmet a h' heq
  · rintro ⟨hs, hsize⟩
    obtain ⟨pool, cursor, -, -, heq⟩ := hs.allocate_eq hv hsize
    exact ⟨_, _, heq⟩
  · intro a h' heq
    obtain ⟨hs, hsize⟩ := hmet a h' heq
    obtain ⟨pool, cursor, hpool, hcursor, hallocate⟩ := hs.allocate_eq hv hsize
    rw [hallocate] at heq
    cases heq
    refine ⟨rfl, pool, hpool, ?_, block?_extend.trans (if_pos rfl), rfl, hcursor⟩
    rintro rfl rfl
    exact not_fits_vram hpool

/-- Video memory has room for the first block and not for the second, which main memory serves. -/
theorem allocate_outcome_after_spill : ∃ past h h',
    Run (ofBudgets ⟨8, 16, 0, 0, 0⟩) past h ∧ h.cursor.value = 0x81000100 ∧
    h.allocate 6 .main = .ok (.ok h.cursor, h') ∧ h'.cursor.value = 0x81000200 ∧
    h'.block? h.cursor = some ⟨h.cursor, .ram, Array.replicate 6 0⟩ := by
  obtain ⟨past, h, hrun, htest⟩ := Trace.exists_of_reaches perform [.allocate 5 .main]
    (show Trace.reaches perform (ofBudgets ⟨8, 16, 0, 0, 0⟩) _ (fun _ h =>
      h.cursor.value = 0x81000100 && h.usedBy (.only .vram) = 5 && h.usedBy (.only .ram) = 0 &&
        h.budgets = ⟨8, 16, 0, 0, 0⟩) = true by decide +kernel)
  simp only [Bool.and_eq_true, decide_eq_true_eq] at htest
  obtain ⟨⟨⟨hcursor, hvram⟩, hram⟩, hbudgets⟩ := htest
  have hfits : h.Fits 6 .ram := by
    rw [Fits, hram, hbudgets]
    decide
  have hs : h.Serves 6 .main := ⟨by decide, ⟨.ram, by decide, hfits⟩, by rw [hcursor]; decide⟩
  obtain ⟨hiff, hdone, -⟩ := allocate_outcome hrun 6 .main
  obtain ⟨a, h', heq⟩ := hiff.mpr ⟨hs, by decide⟩
  obtain ⟨rfl, pool, hpool, -, hblock, -, hnext⟩ := hdone a h' heq
  have hfull : ¬h.Fits 6 .vram := by
    rw [Fits, hvram, hbudgets]
    decide
  rw [MemoryClass.candidates, List.find?_cons_of_neg (by simpa using hfull),
    List.find?_cons_of_pos (by simpa using hfits)] at hpool
  cases hpool
  exact ⟨past, h, h', hrun, hcursor, heq, by rw [hnext, hcursor]; rfl, hblock⟩

/-- A request for which there are a pool and an address may still halt the program: memory holds no block
of half as many bytes as there are words. -/
theorem allocate_outcome_ne : ¬∀ budgets past h, Run (ofBudgets budgets) past h →
    ∀ size request, size < Word.limit →
      ((∃ a h', h.allocate size request = .ok (.ok a, h')) ↔ h.Serves size request) := by
  intro hall
  have hs : unbounded.Serves Extent.limit .main :=
    ⟨by decide, ⟨.vram, by decide, by decide⟩, by decide⟩
  obtain ⟨a, h', heq⟩ := (hall _ [] unbounded .start Extent.limit .main (by decide)).mpr hs
  rw [hs.allocate_of_large (ofBudgets_valid _) (Nat.le_refl _)] at heq
  cases heq

end TextureMemory.Heap
