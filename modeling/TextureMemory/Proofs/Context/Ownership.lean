import TextureMemory.Proofs.Context.Run
import TextureMemory.Proofs.Context.Stats

/-!
# Who owns the blocks in use

As long as nobody calls the heap behind the back of the textures, the blocks in use are those that the
textures own: none is lost, none is given back twice, and each is as large as the surface of its
texture (`Context.blocks_owned`).

The invariant `Context.Backed` speaks of the lists of addresses on both sides, as one is a
rearrangement of the other. An exchange changes both by the old and the new address.
-/

namespace TextureMemory

namespace Heap

variable {h : Heap} {a : Address} {b : Block} {size : Nat} {request : MemoryClass} {pool : Pool}
  {cursor : Address}

/-- The addresses of the blocks in use. -/
def addresses (h : Heap) : List Address := h.blocks.map (·.address)

/-- The cursor is the address of the block that is handed out. -/
theorem addresses_extend : (h.extend size pool cursor).addresses = h.cursor :: h.addresses := rfl

/-- Taking back a block takes its address from the list. -/
theorem Valid.addresses_without (hv : h.Valid) (hb : h.block? a = some b) :
    h.addresses.Perm (a :: (h.without b).addresses) := by
  obtain ⟨hmem, rfl⟩ := mem_of_block?_eq_some hb
  exact (perm_cons_filter hv.nodup hmem).map _

/-- The addresses after a block that is in use was taken back, if there was one. -/
theorem Valid.addresses_discard (hv : h.Valid) {g : Heap} {old : Option Address}
    (hlive : ∀ a ∈ old, ∃ b, g.block? a = some b)
    (hsame : ∀ a ∈ old, h.block? a = g.block? a) :
    h.addresses.Perm (old.toList ++ (h.discard (old.bind g.block?)).addresses) := by
  cases old with
  | none => exact List.Perm.refl _
  | some a =>
    obtain ⟨b, hb⟩ := hlive a rfl
    rw [Option.bind_some, hb]
    exact hv.addresses_without ((hsame a rfl).trans hb)

/-- The addresses after an exchange: that of the new block is among them in the place of that of the old one. -/
theorem Valid.addresses_exchange (hv : h.Valid) (hg : h.Grants size request pool cursor)
    {old : Option Address} {l : List Address} (hlt : ∀ a ∈ old, a.value < h.cursor.value)
    (hlive : ∀ a ∈ old, ∃ b, h.block? a = some b) (hperm : h.addresses.Perm (old.toList ++ l)) :
    ((h.extend size pool cursor).discard (old.bind h.block?)).addresses.Perm (h.cursor :: l) := by
  -- The old block is found in the extended heap as it was before.
  have hsame : ∀ a ∈ old, (h.extend size pool cursor).block? a = h.block? a := by
    intro a ha
    rw [block?_extend, if_neg (Address.ne_of_lt (hlt a ha)).symm]
  have hdiscard := (hv.extend hg).addresses_discard hlive hsame
  rw [addresses_extend] at hdiscard
  refine (List.perm_append_left_iff old.toList).mp (hdiscard.symm.trans ?_)
  exact (hperm.cons _).trans List.perm_middle.symm

/-- Writing to a block moves none. -/
theorem addresses_setBytes {bytes : Buffer} : (h.setBytes a bytes).addresses = h.addresses := by
  rw [addresses, setBytes, List.map_map, addresses]
  apply List.map_congr_left
  intro b _
  rw [Function.comp_apply]
  split <;> rfl

end Heap

namespace Context

variable {c₀ c c' : Context} {past : List Step} {action : Action} {told : Answer} {slot : Slot}
  {t shape : Texture} {p : Address} {s : Settings} {budgets : Budgets} {size : Nat}
  {cause : HeapError}

/-- The blocks in use are those that the textures own, each of the size of its surface, and from a
pool of the class that textures ask for. -/
structure Backed (c : Context) : Prop where
  perm : c.heap.addresses.Perm c.arena.owned
  block : ∀ s t p, c.arena.get? s = some t → t.backing = some p →
    ∃ b, c.heap.block? p = some b ∧ t.size? c.policy.unit = .ok (some b.size) ∧
      b.pool ∈ c.policy.request.candidates

/-! ## One call -/

/-- The surface that a new block is for takes at least one byte. -/
theorem Renews.size_pos (hr : Renews c action slot t shape size) (hv : c.Valid) : 0 < size := by
  cases hr with
  | define hw hh hsize _ => exact Surface.size_pos hw hh hsize
  | resolve hbound hprevious _ hsize =>
    obtain ⟨n, hpos, hn⟩ :=
      hv.owns.size _ _ _ (bound_eq_ok_iff.mp hbound).2 hprevious
    rw [hn] at hsize
    cases hsize
    exact hpos

/-- A new texture owns nothing. -/
theorem Backed.generate (hb : c.Backed) {arena : Arena}
    (hupdate : c.arena.Update arena slot (some (.blank slot))) (hnew : c.arena.get? slot = none) :
    { c with arena }.Backed where
  perm := by
    obtain ⟨l, hold, hl⟩ := hupdate.exists_owned
    rw [hnew] at hold
    exact hb.perm.trans (hold.trans hl.symm)
  block s t p hs hp := by
    rw [hupdate.get?] at hs
    split at hs
    · cases hs
      cases hp
    · exact hb.block s t p hs hp

/-- A texture finds its block after an exchange: the new one at the old cursor, and any other as before. -/
theorem Backed.block_of_renew (hb : c.Backed) (hv : c.Valid) {pool : Pool} {cursor : Address} {s : Slot}
    {t' : Texture} (hrenews : Renews c action slot t shape size)
    (hgrants : c.heap.Grants size c.policy.request pool cursor)
    (hs : (c.arena.set slot (shape.moveTo c.heap.cursor)).get? s = some t') (hp : t'.backing = some p) :
    ∃ b, ((c.heap.extend size pool cursor).discard (t.backing.bind c.heap.block?)).block? p = some b ∧
      t'.size? c.policy.unit = .ok (some b.size) ∧ b.pool ∈ c.policy.request.candidates := by
  rw [(Arena.update_set hrenews.get?).get?] at hs
  rw [Heap.block?_extend_discard (hv.lt_cursor hrenews.bound)]
  split at hs
  · cases hs
    cases hp
    refine ⟨_, if_pos rfl, ?_, hgrants.mem⟩
    rw [Block.size, Array.size_replicate]
    exact hrenews.size_eq
  · next hne =>
    -- It owns neither the cursor nor the old block.
    have hcursor : p ≠ c.heap.cursor := Address.ne_of_lt (hv.owns.lt_cursor s t' p hs hp)
    have hother : t.backing ≠ some p := fun htp =>
      hne (hv.owns.unique s slot t' t p hs hrenews.get? hp htp)
    rw [if_neg hcursor, if_neg hother]
    exact hb.block s t' p hs hp

/-- A texture that gets a new block has that one in the place of its old one. -/
theorem Backed.renew (hb : c.Backed) (hv : c.Valid) {pool : Pool} {cursor : Address}
    {reclaims pending : Nat} {tally : Recorder Tally} (hrenews : Renews c action slot t shape size)
    (hgrants : c.heap.Grants size c.policy.request pool cursor)
    (hlive : ∀ a ∈ t.backing, ∃ b, c.heap.block? a = some b) :
    { c with
      heap := (c.heap.extend size pool cursor).discard (t.backing.bind c.heap.block?)
      arena := c.arena.set slot (shape.moveTo c.heap.cursor)
      reclaims, pending, tally }.Backed where
  perm := by
    have hupdate : c.arena.Update _ slot (some (shape.moveTo c.heap.cursor)) :=
      Arena.update_set hrenews.get?
    obtain ⟨l, hold, hnew⟩ := hupdate.exists_owned
    rw [hrenews.get?, Option.bind_some] at hold
    have hexchange := hv.heap.addresses_exchange hgrants (hv.lt_cursor hrenews.bound) hlive
      (hb.perm.trans hold)
    exact hexchange.trans hnew.symm
  block _ _ _ hs hp := hb.block_of_renew hv hrenews hgrants hs hp

/-- A stamp changes nothing about who owns what. -/
theorem Backed.sample (hb : c.Backed) (hget : c.arena.get? slot = some t) {stamp : Stamp} :
    { c with arena := c.arena.set slot { t with stamp } }.Backed where
  perm := by
    have hupdate : c.arena.Update _ slot (some { t with stamp }) := Arena.update_set hget
    obtain ⟨l, hold, hl⟩ := hupdate.exists_owned
    rw [hget] at hold
    exact hb.perm.trans (hold.trans hl.symm)
  block s t' p hs hp := by
    rw [(Arena.update_set hget).get?] at hs
    split at hs
    · cases hs
      exact hb.block slot t p hget hp
    · exact hb.block s t' p hs hp

/-- A texture that is deleted gives back the block that it owned. -/
theorem Backed.delete (hb : c.Backed) (hv : c.Valid) {arena : Arena} {units : Units}
    {tally : Recorder Tally} (hget : c.arena.get? slot = some t)
    (hlive : ∀ a ∈ t.backing, ∃ b, c.heap.block? a = some b)
    (hupdate : c.arena.Update arena slot none) :
    { c with heap := c.heap.discard (t.backing.bind c.heap.block?), arena, units, tally }.Backed where
  perm := by
    obtain ⟨l, hold, hl⟩ := hupdate.exists_owned
    rw [hget, Option.bind_some] at hold
    have hdiscard := hv.heap.addresses_discard hlive fun _ _ => rfl
    have hrest := hdiscard.symm.trans (hb.perm.trans hold)
    exact ((List.perm_append_left_iff _).mp hrest).trans hl.symm
  block s t' p hs hp := by
    rw [hupdate.get?] at hs
    split at hs
    · cases hs
    · next hne =>
      have hother : t.backing ≠ some p := fun htp =>
        hne (hv.owns.unique s slot t' t p hs hget hp htp)
      rw [Heap.block?_discard, if_neg fun hand => hother hand.1]
      exact hb.block s t' p hs hp

/-- Writing to a block changes neither its place nor its size. -/
theorem Backed.write (hb : c.Backed) {a : Address} {b : Block} {bytes : Buffer}
    (ha : c.heap.block? a = some b) (hsize : bytes.size = b.size) :
    { c with heap := c.heap.setBytes a bytes }.Backed where
  perm := by
    rw [Heap.addresses_setBytes]
    exact hb.perm
  block s t p hs hp := by
    obtain ⟨b', hb', hn, hpool⟩ := hb.block s t p hs hp
    rw [Heap.block?_setBytes, hb', Option.map_some]
    obtain ⟨-, haddress⟩ := Heap.mem_of_block?_eq_some hb'
    split
    · next hab =>
      rw [← haddress, hab, ha] at hb'
      cases hb'
      refine ⟨_, rfl, ?_, hpool⟩
      rw [Block.size, hsize]
      exact hn
    · exact ⟨b', rfl, hn, hpool⟩

/-- Calls keep it so, if they do not meddle with the heap and a new texture takes the place of none. -/
theorem Backed.next (hb : c.Backed) (hv : c.Valid) (he : Effect c action told c')
    (hquiet : action.meddles = false) (hcount : action = .generate → c.arena.count < Slot.limit) :
    c'.Backed := by
  cases he with
  | generate _ hupdate _ _ hnew => exact hb.generate hupdate (hnew (hcount rfl))
  | renew hrenews hgrants hlive _ => exact hb.renew hv hrenews hgrants hlive
  | sample hbound => exact hb.sample (bound_eq_ok_iff.mp hbound).2
  | delete hget hlive hupdate _ _ _ => exact hb.delete hv hget hlive hupdate
  | heap heff =>
    cases heff with
    | allocate | refuse | free | stray => cases hquiet
    | write ha hin => exact hb.write ha Buffer.size_overwrite
    | deny => exact hb
  | stray hrenews _ hbacking hdead _ =>
    -- The block of a texture is in use, so it can be taken back.
    obtain ⟨b, hlive, -⟩ := hb.block _ _ _ hrenews.get? hbacking
    rw [hdead] at hlive
    cases hlive
  | activate | bind | unbind | reuse | endFrame | reject | exhaust | keep => exact ⟨hb.perm, hb.block⟩

/-! ## What follows -/

/-- The bytes of all blocks in use are a word. -/
theorem Valid.total_size_lt (hv : c.Valid) :
    Word.total (c.heap.blocks.map Block.size) < Word.limit := by
  have hle := hv.heap.size_le
  have hlt := hv.heap.cursor_lt
  rw [Heap.spent] at hle
  omega

/-- The textures that own a block are as many as the blocks in use, and take as many bytes. -/
theorem Backed.stats_eq (hb : c.Backed) (hv : c.Valid) :
    ∃ stats, c.stats = .ok stats ∧ stats.defined = c.heap.count ∧ c.heap.size = .ok stats.bytes := by
  have hsizes : c.heap.size = .ok (Word.total (c.heap.blocks.map Block.size)) :=
    Word.sum_eq_ok_iff.mpr ⟨rfl, hv.total_size_lt⟩
  -- Both sums are the sum over the addresses of the sizes of the blocks there.
  let g : Address → Nat := fun p => ((c.heap.block? p).map Block.size).getD 0
  have hblocks : c.heap.addresses.map g = c.heap.blocks.map Block.size := by
    rw [Heap.addresses, List.map_map]
    apply List.map_congr_left
    intro b hmem
    rw [Function.comp_apply]
    simp only [g, hv.heap.block?_eq_some hmem, Option.map_some, Option.getD_some]
  have htextures : c.defined.map (·.bytes c.policy.unit) = c.arena.owned.map g := by
    apply map_filter_backing
    intro t ht p hp
    obtain ⟨slot, hslot⟩ := Arena.mem_toList_iff.mp ht
    obtain ⟨b, hblock, hn, -⟩ := hb.block slot t p hslot hp
    simp only [g, Texture.bytes_eq hn, hblock, Option.map_some, Option.getD_some]
  have hsum : Word.total (c.defined.map (·.bytes c.policy.unit)) =
      Word.total (c.heap.blocks.map Block.size) := by
    rw [htextures, ← hblocks]
    exact Word.total_perm (hb.perm.map g).symm
  refine ⟨_, hv.stats_eq (hsum ▸ hv.total_size_lt), ?_, hsum ▸ hsizes⟩
  rw [length_defined, ← hb.perm.length_eq, Heap.addresses, List.length_map, Heap.count]

/-- A block begins at an address if some texture owns it. -/
theorem Backed.block?_isSome_iff (hb : c.Backed) : (c.heap.block? p).isSome ↔
    ∃ slot t, c.arena.get? slot = some t ∧ t.backing = some p := by
  constructor
  · intro h
    obtain ⟨b, hblock⟩ := Option.isSome_iff_exists.mp h
    obtain ⟨hmem, rfl⟩ := Heap.mem_of_block?_eq_some hblock
    have howned : b.address ∈ c.arena.owned := hb.perm.mem_iff.mp (List.mem_map_of_mem hmem)
    obtain ⟨t, ht, hp⟩ := List.mem_filterMap.mp howned
    obtain ⟨slot, hslot⟩ := Arena.mem_toList_iff.mp ht
    exact ⟨slot, t, hslot, hp⟩
  · rintro ⟨slot, t, hslot, hp⟩
    obtain ⟨b, hblock, -⟩ := hb.block slot t p hslot hp
    rw [hblock]
    rfl

/-- The heap refuses a texture for want of memory only. -/
theorem Backed.outOfMemory (hb : c.Backed) (hv : c.Valid)
    (he : Effect c action (.failed (.memory cause)) c') :
    ∃ requested available, cause = .outOfMemory c.policy.request requested available := by
  cases he with
  | reject hrejects => exact absurd rfl (hrejects.ne_memory hv cause)
  | exhaust hrenews _ hrefuses _ =>
    -- No surface is empty, so it is not for want of bytes that the heap refuses.
    have hpos := hrenews.size_pos hv
    rcases hrefuses with ⟨hzero, -⟩ | ⟨available, rfl⟩
    · omega
    · exact ⟨_, available, rfl⟩
  | stray hrenews _ hbacking hdead _ =>
    obtain ⟨b, hlive, -⟩ := hb.block _ _ _ hrenews.get? hbacking
    rw [hdead] at hlive
    cases hlive
  | keep hget hbacking hdead =>
    obtain ⟨b, hlive, -⟩ := hb.block _ _ _ hget hbacking
    rw [hdead] at hlive
    cases hlive

/-- The address that a call answers with is that of the texture that is bound. -/
theorem Effect.bound_of_address (he : Effect c action (.address p) c') :
    ∃ slot t, c'.bound = .ok (.ok (slot, t)) ∧ t.backing = some p := by
  cases he with
  | @renew _ slot _ shape _ _ _ _ _ _ hrenews =>
    obtain ⟨hunit, hget⟩ := bound_eq_ok_iff.mp hrenews.bound
    refine ⟨slot, shape.moveTo c.heap.cursor, bound_eq_ok_iff.mpr ⟨hunit, ?_⟩, rfl⟩
    rw [(Arena.update_set hget).get?, if_pos rfl]
  | reuse hbound haddress => exact ⟨_, _, hbound, haddress⟩

/-! ## Along a run -/

/-- Textures and blocks belong together after every such run. -/
theorem Run.backed (hstart : ofSettings s (.ofBudgets budgets) = .ok (.ok c₀)) (hrun : Run c₀ past c)
    (hquiet : ∀ step ∈ past, step.action.meddles = false)
    (hcount : ∀ step ∈ past, step.after.arena.count ≤ Slot.limit) : c.Backed := by
  have hvalid := valid_of_ofSettings hstart
  obtain ⟨-, rfl⟩ := eq_start hstart
  refine hrun.induct_mem (P := fun _ c => c.Backed) hvalid
    (fun step hmem => And.intro (hquiet step hmem) (hcount step hmem)) ⟨List.Perm.refl _, ?_⟩
    fun hv hb he hstep => hb.next hv he hstep.1 (he.spare hstep.2)
  intro slot t p hs
  rw [get?_start] at hs
  cases hs

/-- **Textures and blocks in use belong together.** After a run without calls to the heap behind the
back of the textures, in which never more textures existed than there are indices,

* a block in use begins where some texture owns it, and nowhere else;
* no two textures own the same block;
* the block of a texture has the size of its surface, is in a pool of the class asked for, and is
  the one that the device knows;
* the summary counts the blocks in use and their bytes;
* no call finds that a block is not in use, or asks for one without bytes;
* the address of a texture that is resolved has a block in use with room for all its rows. -/
theorem blocks_owned (hstart : ofSettings s (.ofBudgets budgets) = .ok (.ok c₀))
    (hrun : Run c₀ past c) (hquiet : ∀ step ∈ past, step.action.meddles = false)
    (hcount : ∀ step ∈ past, step.after.arena.count ≤ Slot.limit) :
    (∀ p, (c.heap.block? p).isSome ↔
      ∃ slot t, c.arena.get? slot = some t ∧ t.backing = some p) ∧
    (∀ slot slot' t t' p, c.arena.get? slot = some t → c.arena.get? slot' = some t' →
      t.backing = some p → t'.backing = some p → slot = slot') ∧
    (∀ slot t, c.arena.get? slot = some t → t.handle.data = t.backing ∧
      ∀ p, t.backing = some p → ∃ b, c.heap.block? p = some b ∧
        t.size? s.alignUnit = .ok (some b.size) ∧ b.pool ∈ s.memoryClass.candidates) ∧
    (∃ stats, c.stats = .ok stats ∧ stats.defined = c.heap.count ∧
      c.heap.size = .ok stats.bytes) ∧
    (∀ action cause c', c.perform action = .ok (.failed (.memory cause), c') →
      ∃ requested available, cause = .outOfMemory s.memoryClass requested available) ∧
    (∀ p c', c.perform .resolve = .ok (.address p, c') →
      ∃ slot t b stride, c'.bound = .ok (.ok (slot, t)) ∧ t.backing = some p ∧
        c'.heap.block? p = some b ∧ t.stride? s.alignUnit = .ok (some stride) ∧
        t.handle.height * stride ≤ b.size) := by
  have hv₀ : c₀.Valid := valid_of_ofSettings hstart
  have hv : c.Valid := hrun.valid hv₀
  have hb : c.Backed := hrun.backed hstart hquiet hcount
  have hpolicy : c.policy = ⟨s.purgeThreshold, s.alignUnit, s.memoryClass⟩ := by
    rw [hrun.policy_eq hv₀]
    obtain ⟨-, rfl⟩ := eq_start hstart
    rfl
  have hunit : c.policy.unit = s.alignUnit := by rw [hpolicy]
  have hrequest : c.policy.request = s.memoryClass := by rw [hpolicy]
  refine ⟨fun p => hb.block?_isSome_iff, hv.owns.unique, fun slot t hslot => ⟨?_, ?_⟩,
    hb.stats_eq hv, ?_, ?_⟩
  · exact hv.owns.data_eq slot t hslot
  · intro p hp
    rw [← hunit, ← hrequest]
    exact hb.block slot t p hslot hp
  · intro action cause c' h
    rw [← hrequest]
    exact hb.outOfMemory hv (hv.effect h)
  · intro p c' h
    have he := hv.effect h
    have hb' : c'.Backed := hb.next hv he rfl nofun
    obtain ⟨slot, t, hbound, hp⟩ := he.bound_of_address
    obtain ⟨b, hblock, hsize, -⟩ := hb'.block slot t p (bound_eq_ok_iff.mp hbound).2 hp
    rw [he.policy_eq, hunit] at hsize
    obtain ⟨stride, hstride, heq⟩ := Surface.exists_stride_of_size? hsize
    refine ⟨slot, t, b, stride, hbound, hp, hblock, hstride, ?_⟩
    exact Nat.le_of_eq (heq.trans (Nat.mul_comm _ _)).symm

/-- A texture that got a new block, and another that was deleted, leave one block in use. -/
theorem blocks_owned_after_reclaim : ∃ c₀ past c stats,
    ofSettings .standard (.ofBudgets .standard) = .ok (.ok c₀) ∧ Run c₀ past c ∧
    (∀ step ∈ past, step.action.meddles = false) ∧
    (∀ step ∈ past, step.after.arena.count ≤ Slot.limit) ∧ c.heap.count = 1 ∧
    c.stats = .ok stats ∧ stats.defined = c.heap.count ∧ c.heap.size = .ok stats.bytes := by
  have hstart : ofSettings .standard (.ofBudgets .standard) =
      .ok (.ok (Context.start .standard (.ofBudgets .standard))) := by rfl
  obtain ⟨past, c, hrun, htest⟩ := Trace.exists_of_reaches perform
    [.generate, .bind ⟨0, 0⟩, .define .abgr8888 4 1, .sample, .resolve, .generate, .bind ⟨1, 0⟩,
      .define .abgr8888 9 2, .delete ⟨1, 0⟩]
    (show Trace.reaches perform (Context.start .standard (.ofBudgets .standard)) _ (fun past c =>
      past.all (fun step => !step.action.meddles && step.after.arena.count ≤ Slot.limit) &&
        c.heap.count = 1) = true by decide +kernel)
  simp only [Bool.and_eq_true, List.all_eq_true, Bool.not_eq_true', decide_eq_true_eq] at htest
  have hquiet : ∀ step ∈ past, step.action.meddles = false := fun step hmem =>
    (htest.1 step hmem).1
  have hcount : ∀ step ∈ past, step.after.arena.count ≤ Slot.limit := fun step hmem =>
    (htest.1 step hmem).2
  obtain ⟨stats, hstats⟩ := (blocks_owned hstart hrun hquiet hcount).2.2.2.1
  exact ⟨_, past, c, stats, hstart, hrun, hquiet, hcount, htest.2, hstats⟩

end Context

end TextureMemory
