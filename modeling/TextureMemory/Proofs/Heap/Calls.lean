import TextureMemory.Proofs.Fault
import TextureMemory.Proofs.Heap.Valid

/-!
# What calls on a heap come to

For each call on a valid heap, all that it may come to: the answer, the state, and the condition. It
halts the program for want of memory (`Heap.Valid.allocate_cases`), and never otherwise.
-/

namespace TextureMemory.Heap

variable {h : Heap} {a : Address} {b : Block} {size : Nat} {pool : Pool}
  {request : MemoryClass} {cursor : Address} {old : Option Address}

/-! ## Handing out -/

/-- A block that the heap grants is handed out at the cursor. -/
theorem Valid.allocate_of_grants (hv : h.Valid)
    (hpool : request.candidates.find? (size ≤ h.available ·) = some pool)
    (hg : h.Grants size request pool cursor) :
    h.allocate size request = .ok (.ok h.cursor, h.extend size pool cursor) := by
  have hspent := hv.used_le_spent pool
  have hlt := (cursorAfter?_eq_some hg.next).2
  have hge := hg.cursor_ge
  have hunit := hg.cursor_ge_alignment
  have hpos := hg.size_pos
  have hsize := hg.size_lt
  -- None of the checks fails: what a pool is charged with lies below the cursor, and so does the
  -- sum, as the new cursor is a word.
  have hadd : Word.add (h.used.get pool) size = .ok (h.used.get pool + size) :=
    Word.add_eq_ok_iff.mpr ⟨rfl, by rw [spent] at hspent; omega⟩
  have hextent : Extent.require size 1 = .ok () := Extent.require_eq_ok_iff.mpr (by omega)
  have halign : Alignment.requireAligned h.cursor.value alignment = .ok () :=
    Alignment.requireAligned_eq_ok ⟨8, rfl⟩ hv.aligned (by omega)
  rw [allocate, if_neg (by omega), hpool]
  simp only [hg.next, hadd, hextent, halign, Fault.ok_bind]
  rfl

/-- A block of no bytes is refused. -/
theorem allocate_zero : h.allocate 0 request = .ok (.error .zeroSize, h) := rfl

/-- Where no pool of the class has room, the heap tells the most that one of them can give. -/
theorem allocate_of_no_room (hpos : 0 < size)
    (hpool : request.candidates.find? (size ≤ h.available ·) = none) :
    h.allocate size request =
      .ok (.error (.outOfMemory request size (h.mostAvailable request)), h) := by
  rw [allocate, if_neg (by omega), hpool]
  rfl

/-- Where a pool has room and no address is left, nothing is available. -/
theorem allocate_of_no_address (hpos : 0 < size)
    (hpool : request.candidates.find? (size ≤ h.available ·) = some pool)
    (hcursor : h.cursorAfter? size = none) :
    h.allocate size request = .ok (.error (.outOfMemory request size 0), h) := by
  rw [allocate, if_neg (by omega), hpool]
  simp only [hcursor]
  rfl

/-- A block for which there are a pool and an address, and which is larger than any memory, halts the
program. -/
theorem Valid.allocate_of_large (hv : h.Valid) (hlarge : Extent.limit ≤ size)
    (hpool : request.candidates.find? (size ≤ h.available ·) = some pool)
    (hcursor : h.cursorAfter? size = some cursor) : h.allocate size request = .error .tooLarge := by
  have hlimit : 0 < Extent.limit := by decide
  have hspent := hv.used_le_spent pool
  have hnext := cursorAfter?_eq_some hcursor
  have hle : size ≤ Alignment.ceil size alignment := Alignment.le_ceil (by decide)
  have hadd : Word.add (h.used.get pool) size = .ok (h.used.get pool + size) :=
    Word.add_eq_ok_iff.mpr ⟨rfl, by rw [spent] at hspent; omega⟩
  have hextent : Extent.require size 1 = .error .tooLarge := if_neg (by omega)
  rw [allocate, if_neg (by omega), hpool]
  simp only [hcursor, hadd, hextent, Fault.ok_bind, Fault.error_bind]

/-- Asking for a block: the heap refuses and stays as it is, or it hands out a block at its cursor,
or the block is larger than any memory. -/
theorem Valid.allocate_cases (hv : h.Valid) (size : Nat) (request : MemoryClass) :
    (∃ cause, Refuses size request cause ∧ h.allocate size request = .ok (.error cause, h)) ∨
    (∃ pool cursor, h.Grants size request pool cursor ∧
      h.allocate size request = .ok (.ok h.cursor, h.extend size pool cursor)) ∨
    (Extent.limit ≤ size ∧ h.allocate size request = .error .tooLarge) := by
  by_cases hz : size = 0
  · subst hz
    exact .inl ⟨.zeroSize, .inl ⟨rfl, rfl⟩, allocate_zero⟩
  have hpos : 0 < size := Nat.pos_of_ne_zero hz
  cases hpool : request.candidates.find? (size ≤ h.available ·) with
  | none => exact .inl ⟨_, .inr ⟨_, rfl⟩, allocate_of_no_room hpos hpool⟩
  | some pool =>
    cases hcursor : h.cursorAfter? size with
    | none => exact .inl ⟨_, .inr ⟨_, rfl⟩, allocate_of_no_address hpos hpool hcursor⟩
    | some cursor =>
      by_cases hsize : size < Extent.limit
      · have hmem := List.mem_of_find?_eq_some hpool
        have hroom : size ≤ h.available pool := by simpa using List.find?_some hpool
        have hg : h.Grants size request pool cursor := ⟨hpos, hsize, hmem, hroom, hcursor⟩
        exact .inr (.inl ⟨pool, cursor, hg, hv.allocate_of_grants hpool hg⟩)
      · have hlarge : Extent.limit ≤ size := Nat.le_of_not_lt hsize
        exact .inr (.inr ⟨hlarge, hv.allocate_of_large hlarge hpool hcursor⟩)

/-- A block that some pool can give is handed out, whichever pool it is then charged to. -/
theorem Valid.exists_allocate_eq_ok (hv : h.Valid) (hg : h.Grants size request pool cursor) :
    ∃ h', h.allocate size request = .ok (.ok h.cursor, h') := by
  cases hpool : request.candidates.find? (size ≤ h.available ·) with
  | none =>
    have hnone := List.find?_eq_none.mp hpool pool hg.mem
    exact absurd (decide_eq_true hg.room) hnone
  | some first =>
    have hroom : size ≤ h.available first := by simpa using List.find?_some hpool
    have hfirst : h.Grants size request first cursor :=
      ⟨hg.size_pos, hg.size_lt, List.mem_of_find?_eq_some hpool, hroom, hg.next⟩
    exact ⟨_, hv.allocate_of_grants hpool hfirst⟩

/-! ## Taking back -/

/-- A block in use is taken back. -/
theorem Valid.free_of_live (hv : h.Valid) (hb : h.block? a = some b) :
    h.free a = .ok (.ok (), h.without b) := by
  obtain ⟨hmem, rfl⟩ := mem_of_block?_eq_some hb
  have hsub : Word.sub (h.used.get b.pool) b.size = .ok (h.used.get b.pool - b.size) :=
    Word.sub_eq_ok_iff.mpr (Nat.sub_add_cancel (hv.size_le_used hmem))
  rw [free, hb]
  simp only [hsub, Fault.ok_bind]
  rfl

/-- Nothing is taken back where no block in use begins. -/
theorem free_of_not_live (hb : h.block? a = none) : h.free a = .ok (.error (.notLive a), h) := by
  rw [free, hb]
  rfl

/-- Taking back the block of an owner who may have none: the block goes, or it was not in use. -/
theorem Valid.release_cases (hv : h.Valid) (old : Option Address) :
    ((∀ a ∈ old, ∃ b, h.block? a = some b) ∧
      h.release old = .ok (.ok (), h.discard (old.bind h.block?))) ∨
    (∃ a, old = some a ∧ h.block? a = none ∧ h.release old = .ok (.error (.notLive a), h)) := by
  cases old with
  | none => exact .inl ⟨by simp, rfl⟩
  | some a =>
    cases hb : h.block? a with
    | none => exact .inr ⟨a, rfl, hb, free_of_not_live hb⟩
    | some b =>
      refine .inl ⟨by simp [hb], ?_⟩
      rw [release, hv.free_of_live hb, Option.bind_some, hb]
      rfl

/-! ## Exchanging -/

/-- Handing out a block and taking it back moves the cursor and leaves all else as it was. -/
theorem Valid.without_extend (hv : h.Valid) :
    (h.extend size pool cursor).without ⟨h.cursor, pool, Array.replicate size 0⟩ =
      { h with cursor } := by
  have hused : ((h.used.set pool (h.used.get pool + size)).set pool (h.used.get pool + size -
      size)) = h.used := by
    apply PerPool.ext_get
    intro p
    by_cases hp : pool = p
    · subst hp
      rw [PerPool.get_set_self, Nat.add_sub_cancel]
    · rw [PerPool.get_set_of_ne _ _ hp, PerPool.get_set_of_ne _ _ hp]
  have hblocks : h.blocks.filter (·.address ≠ h.cursor) = h.blocks := by
    apply List.filter_eq_self.mpr
    intro b hb
    have hne := block?_eq_none_iff.mp (hv.block?_eq_none (Nat.le_refl _)) b hb
    simpa using hne
  simp only [Heap.without, Heap.extend, PerPool.get_set_self, Block.size, Array.size_replicate,
    hused]
  rw [List.filter_cons_of_neg (by simp), hblocks]

/-- Exchanging a block: there is no new block to be had; or the new block takes the place of the
old; or the old one was not in use, and only the cursor has moved; or memory cannot hold the new. -/
theorem Valid.exchange_cases (hv : h.Valid) (hold : ∀ a ∈ old, a.value < h.cursor.value)
    (size : Nat) (request : MemoryClass) :
    (∃ cause, Refuses size request cause ∧ h.allocate size request = .ok (.error cause, h) ∧
      h.exchange old size request = .ok (.error (.acquire cause), h)) ∨
    (∃ pool cursor, h.Grants size request pool cursor ∧ (∀ a ∈ old, ∃ b, h.block? a = some b) ∧
      h.exchange old size request =
        .ok (.ok h.cursor, (h.extend size pool cursor).discard (old.bind h.block?))) ∨
    (∃ a pool cursor, h.Grants size request pool cursor ∧ old = some a ∧ h.block? a = none ∧
      h.exchange old size request = .ok (.error (.release (.notLive a)), { h with cursor })) ∨
    (Extent.limit ≤ size ∧ h.allocate size request = .error .tooLarge ∧
      h.exchange old size request = .error .tooLarge) := by
  rcases hv.allocate_cases size request with
    ⟨cause, hr, heq⟩ | ⟨pool, cursor, hg, heq⟩ | ⟨hsize, heq⟩
  · refine .inl ⟨cause, hr, heq, ?_⟩
    rw [exchange, heq]
    rfl
  · -- The new block does not hide the old one, which begins below it.
    have hblock : ∀ a ∈ old, (h.extend size pool cursor).block? a = h.block? a := by
      intro a ha
      have hlt := hold a ha
      rw [block?_extend, if_neg fun hc => by rw [hc] at hlt; omega]
    rcases (hv.extend hg).release_cases old with ⟨hlive, hrel⟩ | ⟨a, rfl, hdead, hrel⟩
    · have hbind : old.bind (h.extend size pool cursor).block? = old.bind h.block? := by
        cases old with
        | none => rfl
        | some a => exact hblock a rfl
      refine .inr (.inl ⟨pool, cursor, hg, fun a ha => hblock a ha ▸ hlive a ha, ?_⟩)
      rw [exchange, heq]
      simp only [Fault.ok_bind, hrel, hbind]
      rfl
    · -- The new block goes back.
      refine .inr (.inr (.inl ⟨a, pool, cursor, hg, rfl, hblock a rfl ▸ hdead, ?_⟩))
      have hfree := (hv.extend hg).free_of_live (block?_extend.trans (if_pos rfl))
      rw [hv.without_extend] at hfree
      rw [exchange, heq]
      simp only [Fault.ok_bind, hrel, hfree]
      rfl
  · refine .inr (.inr (.inr ⟨hsize, heq, ?_⟩))
    rw [exchange, heq]
    rfl

/-! ## Writing -/

/-- Looking up a block after bytes were replaced. -/
theorem block?_setBytes {bytes : Buffer} {c : Address} : (h.setBytes a bytes).block? c =
    (h.block? c).map fun b => if b.address = a then { b with bytes } else b := by
  rw [block?, setBytes, List.find?_map, block?]
  congr 2
  funext b
  rw [Function.comp_apply]
  split <;> rfl

/-- A block that is written to has the new bytes. -/
theorem block?_setBytes_self {bytes : Buffer} (hb : h.block? a = some b) :
    (h.setBytes a bytes).block? a = some { b with bytes } := by
  rw [block?_setBytes, hb, Option.map_some, if_pos (mem_of_block?_eq_some hb).2]

/-- All other blocks are found as before. -/
theorem block?_setBytes_of_ne {bytes : Buffer} {c : Address} (hne : c ≠ a) :
    (h.setBytes a bytes).block? c = h.block? c := by
  rw [block?_setBytes]
  cases hb : h.block? c with
  | none => rfl
  | some b => rw [Option.map_some, (mem_of_block?_eq_some hb).2, if_neg hne]

/-- Blocks may be replaced by others of the same address, pool and size. -/
theorem Valid.map_blocks (hv : h.Valid) {f : Block → Block}
    (haddress : ∀ b ∈ h.blocks, (f b).address = b.address)
    (hpool : ∀ b ∈ h.blocks, (f b).pool = b.pool) (hsize : ∀ b ∈ h.blocks, (f b).size = b.size) :
    { h with blocks := h.blocks.map f }.Valid where
  aligned := hv.aligned
  base_le := hv.base_le
  cursor_lt := hv.cursor_lt
  below c hc := by
    obtain ⟨b, hb, rfl⟩ := List.mem_map.mp hc
    rw [haddress b hb]
    exact hv.below b hb
  nodup := by
    have hmap : (h.blocks.map f).map (·.address) = h.blocks.map (·.address) := by
      rw [List.map_map]
      exact List.map_congr_left haddress
    rw [hmap]
    exact hv.nodup
  used_eq p := by
    have hfilter : (h.blocks.map f).filter (·.pool = p) = (h.blocks.filter (·.pool = p)).map f := by
      rw [List.filter_map]
      apply congrArg (List.map f)
      apply List.filter_congr
      intro b hb
      rw [Function.comp_apply, hpool b hb]
    rw [hv.used_eq, charged, charged, hfilter, List.map_map]
    apply congrArg Word.total
    apply List.map_congr_left
    intro b hb
    exact (hsize b (List.mem_filter.mp hb).1).symm
  used_le := hv.used_le
  size_le := by
    have hmap : (h.blocks.map f).map Block.size = h.blocks.map Block.size := by
      rw [List.map_map]
      exact List.map_congr_left hsize
    rw [hmap]
    exact hv.size_le

/-- A heap stays valid when the bytes of a block change, and not their number. -/
theorem Valid.setBytes {bytes : Buffer} (hv : h.Valid)
    (hsize : ∀ b ∈ h.blocks, b.address = a → bytes.size = b.size) : (h.setBytes a bytes).Valid := by
  apply hv.map_blocks
  · intro b _
    split <;> rfl
  · intro b _
    split <;> rfl
  · intro b hb
    split
    · next hab => exact hsize b hb hab
    · rfl

/-! ## Calls as data -/

/-- All that a call on a heap may do and answer. -/
inductive Effect (h : Heap) : Action → Answer → Heap → Prop
  | allocate {size : Nat} {request pool cursor} (hg : h.Grants size request pool cursor) :
      Effect h (.allocate size request) (.allocated h.cursor) (h.extend size pool cursor)
  | refuse {size : Nat} {request cause} (hr : Refuses size request cause) :
      Effect h (.allocate size request) (.refused cause) h
  | free {a : Address} {b : Block} (hb : h.block? a = some b) :
      Effect h (.free a) .freed (h.without b)
  | stray {a : Address} (hb : h.block? a = none) : Effect h (.free a) (.refused (.notLive a)) h
  | write {a : Address} {b : Block} {offset data} (hb : h.block? a = some b)
      (hin : offset + data.length ≤ b.size) :
      Effect h (.write a offset data) (.written data.length)
        (h.setBytes a (Buffer.overwrite b.bytes offset data))
  | deny {a : Address} {offset data cause} : Effect h (.write a offset data) (.denied cause) h

/-- Writing to a block: the bytes lie within it and are replaced, or nothing changes. -/
theorem write_cases (h : Heap) (a : Address) (offset : Nat) (data : List UInt8) :
    (∃ b, h.block? a = some b ∧ offset + data.length ≤ b.size ∧
      h.write a offset data = .ok (h.setBytes a (Buffer.overwrite b.bytes offset data))) ∨
    (∃ cause, h.write a offset data = .error cause) := by
  cases hb : h.block? a with
  | none =>
    refine .inr ⟨.notLive, ?_⟩
    rw [write, bytes?, hb]
    rfl
  | some b =>
    by_cases hin : offset + data.length ≤ b.size
    · refine .inl ⟨b, rfl, hin, ?_⟩
      have hwrite : Buffer.write? b.bytes offset data = some (Buffer.overwrite b.bytes offset data) :=
        if_pos hin
      rw [write, bytes?, hb]
      simp only [Option.map_some, hwrite]
      rfl
    · refine .inr ⟨.outOfRange, ?_⟩
      have hwrite : Buffer.write? b.bytes offset data = none := if_neg hin
      rw [write, bytes?, hb]
      simp only [Option.map_some, hwrite]
      rfl

/-- A call on a valid heap does what `Effect` says, unless it asks for more than memory can hold. -/
theorem Valid.perform_cases (hv : h.Valid) (action : Action) :
    (∃ answer h', h.perform action = .ok (answer, h') ∧ Effect h action answer h') ∨
    (∃ size request, action = .allocate size request ∧ Extent.limit ≤ size ∧
      h.perform action = .error .tooLarge) := by
  cases action with
  | allocate size request =>
    rw [perform]
    rcases hv.allocate_cases size request with
      ⟨cause, hr, heq⟩ | ⟨pool, cursor, hg, heq⟩ | ⟨hsize, heq⟩ <;> rw [heq]
    · exact .inl ⟨_, _, rfl, .refuse hr⟩
    · exact .inl ⟨_, _, rfl, .allocate hg⟩
    · exact .inr ⟨_, _, rfl, hsize, rfl⟩
  | free a =>
    rw [perform]
    cases hb : h.block? a with
    | none => rw [free_of_not_live hb]; exact .inl ⟨_, _, rfl, .stray hb⟩
    | some b => rw [hv.free_of_live hb]; exact .inl ⟨_, _, rfl, .free hb⟩
  | write a offset data =>
    rw [perform]
    rcases h.write_cases a offset data with ⟨b, hb, hin, heq⟩ | ⟨cause, heq⟩ <;> rw [heq]
    · exact .inl ⟨_, _, rfl, .write hb hin⟩
    · exact .inl ⟨_, _, rfl, .deny⟩

variable {action : Action} {answer : Answer} {h' : Heap}

/-- Calls keep a heap valid. -/
theorem Effect.valid (he : Effect h action answer h') (hv : h.Valid) : h'.Valid := by
  cases he with
  | allocate hg => exact hv.extend hg
  | refuse _ => exact hv
  | free hb => exact hv.without (mem_of_block?_eq_some hb).1
  | stray _ => exact hv
  | write hb _ =>
    apply hv.setBytes
    intro c hc hca
    -- The block that was looked up is the only one at its address.
    have hcb := hv.block?_eq_some hc
    rw [hca, hb, Option.some.injEq] at hcb
    rw [Buffer.size_overwrite, hcb, Block.size]
  | deny => exact hv

/-- The cursor of a heap never moves back. -/
theorem Effect.cursor_le (he : Effect h action answer h') : h.cursor.value ≤ h'.cursor.value := by
  cases he with
  | allocate hg => exact Nat.le_trans (Nat.le_add_right _ _) hg.cursor_ge
  | _ => exact Nat.le_refl _

end TextureMemory.Heap
