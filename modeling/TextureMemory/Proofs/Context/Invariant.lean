import TextureMemory.Proofs.Context.Step

/-!
# Calls keep a context valid

What every call on a context leaves as it is, and that a valid context stays valid
(`Context.Effect.valid`). The heart of it is `Arena.Owns.moveTo`: a new block begins at the cursor,
and so where no texture has a block yet, be it in use or not.

Most calls mean one texture at most. `Context.Origin` tells of a texture after a call where it comes from,
and `Context.Fate` tells of one before it what becomes of it and of its block.
-/

namespace TextureMemory

/-- A heap stays valid when a block that may be in use is taken back. -/
theorem Heap.Valid.discard {h : Heap} {o : Option Address} (hv : h.Valid) :
    (h.discard (o.bind h.block?)).Valid := by
  cases hb : o.bind h.block? with
  | none => exact hv
  | some b =>
    obtain ⟨a, -, ha⟩ := Option.bind_eq_some_iff.mp hb
    exact hv.without (mem_of_block?_eq_some ha).1

/-- Extending a heap and taking back a block of before leaves a valid heap. -/
theorem Heap.Valid.extend_discard {h : Heap} {size : Nat} {request : MemoryClass} {pool : Pool}
    {cursor : Address} {o : Option Address} (hv : h.Valid)
    (hgrants : h.Grants size request pool cursor) :
    ((h.extend size pool cursor).discard (o.bind h.block?)).Valid := by
  cases hb : o.bind h.block? with
  | none => exact hv.extend hgrants
  | some b =>
    obtain ⟨a, -, ha⟩ := Option.bind_eq_some_iff.mp hb
    exact (hv.extend hgrants).without (List.mem_cons_of_mem _ (mem_of_block?_eq_some ha).1)

/-- The cursor may move on without a block. -/
theorem Heap.Valid.skip {h : Heap} {size : Nat} {request : MemoryClass} {pool : Pool}
    {cursor : Address} (hv : h.Valid) (hgrants : h.Grants size request pool cursor) :
    { h with cursor }.Valid := by
  have hcursor := (hv.extend hgrants).without (b := ⟨h.cursor, pool, Array.replicate size 0⟩)
    List.mem_cons_self
  rwa [hv.without_extend] at hcursor

/-- Unbinding a texture everywhere leaves as many units as there were. -/
theorem Units.count_unbindEverywhere {u : Units} {slot : Slot} :
    (u.unbindEverywhere slot).count = u.count := Array.size_map ..

namespace Context

/-- Where a texture that is found after a call comes from: it was there before, or the call made it,
moved it to a new block, or stamped it. -/
inductive Origin (c : Context) (s : Slot) (t : Texture) : Action → Answer → Prop
  | old {action told} (hold : c.arena.get? s = some t) : Origin c s t action told
  | blank (ht : t = .blank s) : Origin c s t .generate (.slot s)
  | moved {action t₀ shape size pool cursor} (hrenews : Renews c action s t₀ shape size)
      (hgrants : c.heap.Grants size c.policy.request pool cursor)
      (ht : t = shape.moveTo c.heap.cursor) : Origin c s t action (.address c.heap.cursor)
  | stamped {t₀} (hbound : c.bound = .ok (.ok (s, t₀)))
      (ht : t = { t₀ with stamp := .frame c.frame }) : Origin c s t .sample .done

/-- What becomes of a texture and its block in a call: it stays as it is, or it is stamped, moved to a new
block, or deleted. It loses its block in the latter two only, and there the block was in use. -/
inductive Fate (c c' : Context) (s : Slot) (t : Texture) : Action → Answer → Prop
  | kept {action told} (hget : c'.arena.get? s = some t) : Fate c c' s t action told
  | stamped (hbound : c.bound = .ok (.ok (s, t)))
      (hget : c'.arena.get? s = some { t with stamp := .frame c.frame }) :
      Fate c c' s t .sample .done
  | moved {action shape size} (hrenews : Renews c action s t shape size)
      (hlive : ∀ a ∈ t.backing, ∃ b, c.heap.block? a = some b)
      (hgone : ∀ a ∈ t.backing, c'.heap.block? a = none)
      (hget : c'.arena.get? s = some (shape.moveTo c.heap.cursor)) :
      Fate c c' s t action (.address c.heap.cursor)
  | deleted (hlive : ∀ a ∈ t.backing, ∃ b, c.heap.block? a = some b)
      (hgone : ∀ a ∈ t.backing, c'.heap.block? a = none) (hget : c'.arena.get? s = none) :
      Fate c c' s t (.delete s) .done

variable {c c' : Context} {action : Action} {told : Answer} {slot : Slot} {t shape : Texture}
  {size : Nat} {pool : Pool} {cursor : Address} {tally : Recorder Tally}

/-! ## What a new block is for -/

namespace Renews

/-- A texture that gets a new block is the one that is bound. -/
theorem bound (h : Renews c action slot t shape size) : c.bound = .ok (.ok (slot, t)) := by
  cases h with
  | define _ _ _ hbound => exact hbound
  | resolve hbound _ _ _ => exact hbound

theorem get? (h : Renews c action slot t shape size) : c.arena.get? slot = some t :=
  (bound_eq_ok_iff.mp h.bound).2

theorem slot_eq (h : Renews c action slot t shape size) : shape.slot = t.slot := by
  cases h <;> rfl

/-- The new block has the size of the new surface. -/
theorem size_eq (h : Renews c action slot t shape size) :
    shape.size? c.policy.unit = .ok (some size) := by
  cases h with
  | define _ _ hsize _ => exact hsize
  | resolve _ _ _ hsize => exact hsize

end Renews

/-- A call that does not get as far as the heap has no error of the heap to tell of. -/
theorem Rejects.ne_memory (hr : Rejects c action cause) (hv : c.Valid) (error : HeapError) :
    cause ≠ .memory error := by
  have hbound : ∀ {cause}, c.bound = .ok (.error cause) → cause ≠ .memory error := by
    rintro cause hbound rfl
    rcases hv.bound_cases with ⟨slot, t, heq⟩ | ⟨e, rfl | ⟨slot, rfl⟩, heq⟩ <;>
      (rw [hbound] at heq; cases heq)
  cases hr with
  | define _ _ _ h | resolve h | sample h => exact hbound h
  | _ => exact nofun

/-! ## What no call changes -/

/-- No call changes the policy. -/
theorem Effect.policy_eq (he : Effect c action told c') : c'.policy = c.policy := by
  cases he <;> rfl

/-- No call moves the cursor back. -/
theorem Effect.cursor_le (he : Effect c action told c') :
    c.heap.cursor.value ≤ c'.heap.cursor.value := by
  cases he with
  | renew _ hgrants _ _ =>
    have hge := hgrants.cursor_ge
    rw [Heap.discard_cursor, Heap.extend_cursor]
    omega
  | stray _ hgrants _ _ _ =>
    exact Nat.le_trans (Nat.le_add_right _ _) hgrants.cursor_ge
  | delete => exact Nat.le_of_eq (congrArg Address.value Heap.discard_cursor.symm)
  | heap hheap => exact hheap.cursor_le
  | _ => exact Nat.le_refl _

/-- No call goes back to an earlier frame. -/
theorem Effect.frame_le (he : Effect c action told c') : c.frame ≤ c'.frame := by
  cases he with
  | endFrame => exact Nat.le_succ _
  | _ => exact Nat.le_refl _

/-- A call that creates a texture found an index to spare, if there are not more textures after it
than indices. -/
theorem Effect.count_lt_of_generate (he : Effect c .generate told c')
    (hle : c'.arena.count ≤ Slot.limit) : c.arena.count < Slot.limit := by
  cases he with
  | generate _ _ _ hcount _ =>
    simp only [hcount] at hle
    omega
  | reject hrejects => cases hrejects
  | renew hrenews | exhaust hrenews | stray hrenews => cases hrenews

/-- A call finds an index for the texture that it creates, if there are not more textures after it than
indices. -/
theorem Effect.spare (he : Effect c action told c') (hle : c'.arena.count ≤ Slot.limit) :
    action = .generate → c.arena.count < Slot.limit := by
  rintro rfl
  exact he.count_lt_of_generate hle

/-! ## What becomes of a texture -/

/-- Every texture that is found after a call has one of these origins. -/
theorem Effect.origin (he : Effect c action told c') (hs : c'.arena.get? slot = some t) :
    Origin c slot t action told := by
  cases he with
  | generate _ hupdate _ _ _ =>
    rw [hupdate.get?] at hs
    split at hs
    · next heq =>
      cases hs
      exact heq ▸ .blank rfl
    · exact .old hs
  | renew hrenews hgrants _ _ =>
    rw [(Arena.update_set hrenews.get?).get?] at hs
    split at hs
    · next heq =>
      cases hs
      exact heq ▸ .moved hrenews hgrants rfl
    · exact .old hs
  | sample hbound =>
    rw [(Arena.update_set (bound_eq_ok_iff.mp hbound).2).get?] at hs
    split at hs
    · next heq =>
      cases hs
      exact heq ▸ .stamped hbound rfl
    · exact .old hs
  | delete _ _ hupdate _ _ _ =>
    rw [hupdate.get?] at hs
    split at hs
    · cases hs
    · exact .old hs
  | _ => exact .old hs

/-- No other texture comes in its place, if an index is left for each new texture. -/
theorem Effect.fate (he : Effect c action told c') (hv : c.Valid) (ht : c.arena.get? slot = some t)
    (hspare : action = .generate → c.arena.count < Slot.limit) : Fate c c' slot t action told := by
  -- What is to be shown of a call that is about the texture of `other`.
  have hupdate : ∀ {other : Slot} {new : Option Texture}, c.arena.Update c'.arena other new →
      (other = slot → c'.arena.get? slot = new → Fate c c' slot t action told) →
      Fate c c' slot t action told := by
    intro other new hu hnew
    have hget := hu.get? slot
    split at hget
    · next heq => exact hnew heq.symm hget
    · exact .kept (hget.trans ht)
  cases he with
  | generate _ hu _ _ hnew =>
    apply hupdate hu
    rintro rfl -
    rw [hnew (hspare rfl)] at ht
    cases ht
  | renew hrenews _ hlive =>
    apply hupdate (Arena.update_set hrenews.get?)
    rintro rfl hget
    cases hrenews.get?.symm.trans ht
    exact .moved hrenews hlive (fun _ => Heap.block?_of_exchange (hv.lt_cursor hrenews.bound)) hget
  | sample hbound =>
    have hold := (bound_eq_ok_iff.mp hbound).2
    apply hupdate (Arena.update_set hold)
    rintro rfl hget
    cases hold.symm.trans ht
    exact .stamped hbound hget
  | delete hold hlive hu =>
    apply hupdate hu
    rintro rfl hget
    cases hold.symm.trans ht
    exact .deleted hlive (fun _ => Heap.block?_of_discard) hget
  | _ => exact .kept ht

/-! ## Validity -/

/-- Tallies stay in order when a new block is counted. -/
theorem Counts.holds {reclaims pending : Nat} (hc : Counts c size action reclaims pending tally)
    (hv : c.tally.Holds Tally.Valid) : tally.Holds Tally.Valid := by
  cases hc with
  | define htally => exact Recorder.holds_of_update hv htally
  | resolve _ _ honce htally =>
    exact Recorder.holds_of_update (Recorder.holds_of_update hv honce) htally

/-- They stay in order when a block was not in use any more. -/
theorem CountsStray.holds (hc : CountsStray c action tally) (hv : c.tally.Holds Tally.Valid) :
    tally.Holds Tally.Valid := by
  cases hc with
  | define => exact hv
  | resolve htally => exact Recorder.holds_of_update hv htally

/-- The window stays in order when a frame ends. -/
theorem holds_of_push {window : Recorder (Window Nat)} (hv : c.window.Holds Window.Valid)
    (h : c.window.update (·.push c.pending) = .ok window) : window.Holds Window.Valid := by
  rcases Recorder.update_eq_ok_iff.mp h with ⟨w, w', hw, hpush, rfl⟩ | ⟨-, rfl⟩
  · rw [hw] at hv
    exact Window.Valid.push hv hpush
  · trivial

/-- A call that answers leaves a valid context valid. -/
theorem Effect.valid (he : Effect c action told c') (hv : c.Valid) : c'.Valid := by
  obtain ⟨hheap, harena, howns, hunit, hactive, htally, hwindow⟩ := hv
  -- Each case names the parts of the context that change.
  cases he with
  | generate _ hupdate hvalid =>
    refine ⟨hheap, hvalid, howns.update_bare hupdate ?_, hunit, hactive, htally, hwindow⟩
    rintro _ ⟨⟩
    exact ⟨rfl, rfl⟩
  | activate hlt => exact ⟨hheap, harena, howns, hunit, hlt, htally, hwindow⟩
  | bind | unbind =>
    refine ⟨hheap, harena, howns, hunit, ?_, htally, hwindow⟩
    rw [Units.count, Array.size_setIfInBounds]
    exact hactive
  | renew hrenews hgrants hlive hcounts =>
    -- The cursor moves on, so the new block begins above all that is owned.
    have hslot := harena.slot_eq _ _ hrenews.get?
    have hlt : c.heap.cursor.value < _ := Nat.lt_of_lt_of_le (Nat.lt_add_of_pos_right (by decide))
      hgrants.cursor_ge_alignment
    refine ⟨hheap.extend_discard hgrants, harena.set hrenews.get? (hrenews.slot_eq.trans hslot), ?_,
      hunit, hactive, hcounts.holds htally, hwindow⟩
    rw [Heap.discard_cursor, Heap.extend_cursor]
    exact howns.moveTo hrenews.get? hlt hgrants.size_pos hrenews.size_eq
  | reuse | reject | keep => exact ⟨hheap, harena, howns, hunit, hactive, htally, hwindow⟩
  | sample hbound =>
    obtain ⟨-, hget⟩ := bound_eq_ok_iff.mp hbound
    have hslot := harena.slot_eq _ _ hget
    exact ⟨hheap, harena.set hget hslot, howns.stamp hget _, hunit, hactive, htally, hwindow⟩
  | delete hget hlive hupdate hvalid hcount hupd =>
    refine ⟨hheap.discard, hvalid, ?_, hunit, ?_, Recorder.holds_of_update htally hupd, hwindow⟩
    · rw [Heap.discard_cursor]
      exact howns.update_bare hupdate nofun
    · rw [Units.count_unbindEverywhere]
      exact hactive
  | endFrame hpush _ =>
    exact ⟨hheap, harena, howns, hunit, hactive, htally, holds_of_push hwindow hpush⟩
  | heap heff =>
    exact ⟨heff.valid hheap, harena, howns.mono heff.cursor_le, hunit, hactive, htally, hwindow⟩
  | exhaust _ _ _ hupd =>
    have hnext := Recorder.holds_of_update htally hupd
    exact ⟨hheap, harena, howns, hunit, hactive, hnext, hwindow⟩
  | stray _ hgrants _ _ hcounts =>
    -- The block that was in use for a moment leaves no trace but the cursor.
    have hle := Nat.le_trans (Nat.le_add_right _ _) hgrants.cursor_ge
    exact ⟨hheap.skip hgrants, harena, howns.mono hle, hunit, hactive, hcounts.holds htally,
      hwindow⟩

end Context

end TextureMemory
