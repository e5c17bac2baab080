import TextureMemory.Proofs.Context.Ownership

/-!
# Calls on one texture and all the others

A call on textures is about one texture at most: the one that it is told, the one that it creates, or the
one bound to the active unit (`Context.target?`). It finds that texture by its slot and its blocks by
their addresses, and no two textures share either. So all other textures are as they were, and so are
their blocks with every byte (`Context.textures_isolated`).

That a block is unchanged holds whatever was done to the heap behind the back of the textures. That it
is in use at all needs that nothing was.
-/

namespace TextureMemory.Context

/-- The slot of the texture that a call is about, if it is about one. -/
def target? (c : Context) (action : Action) (told : Answer) : Option Slot :=
  match action, told with
  | .generate, .slot slot => some slot
  | .define .., _ | .resolve, _ | .sample, _ => c.units.boundAt? c.units.active
  | .delete slot, _ => some slot
  | _, _ => none

variable {c₀ c c' : Context} {past : List Step} {action : Action} {told : Answer} {slot : Slot}
  {t shape : Texture} {p : Address} {size : Nat} {s : Settings} {budgets : Budgets}

/-! ## The texture that a call is about -/

/-- The texture bound to the active unit, by its slot. -/
theorem bound_iff_boundAt? : c.bound = .ok (.ok (slot, t)) ↔
    c.units.boundAt? c.units.active = some slot ∧ c.arena.get? slot = some t := by
  rw [bound_eq_ok_iff, Units.boundAt?, Option.join_eq_some_iff]

/-- A texture that is to have a new block is the one that the call is about. -/
theorem Renews.target? (hr : Renews c action slot t shape size) :
    c.target? action told = some slot := by
  have hunit := (bound_iff_boundAt?.mp hr.bound).1
  cases hr with
  | define => exact hunit
  | resolve => exact hunit

/-! ## One call -/

/-- A texture that a call is not about stays as it is. -/
theorem Effect.get?_of_ne_target (he : Effect c action told c')
    (hne : c.target? action told ≠ some slot) : c'.arena.get? slot = c.arena.get? slot := by
  have hupdate : ∀ {arena : Arena} {other : Slot} {new : Option Texture},
      c.arena.Update arena other new → c.target? action told = some other →
      arena.get? slot = c.arena.get? slot := by
    intro arena other new hu htarget
    rw [hu.get?, if_neg]
    rintro rfl
    exact hne htarget
  cases he with
  | generate _ hu => exact hupdate hu rfl
  | renew hrenews => exact hupdate (Arena.update_set hrenews.get?) hrenews.target?
  | sample hbound =>
    obtain ⟨hunit, hget⟩ := bound_iff_boundAt?.mp hbound
    exact hupdate (Arena.update_set hget) hunit
  | delete _ _ hu => exact hupdate hu rfl
  | _ => rfl

/-- The block of a texture that a call is not about stays as it is, unless the call goes to the heap. -/
theorem Effect.block?_of_ne_target (he : Effect c action told c') (hv : c.Valid)
    (hcall : ∀ call, action ≠ .heap call) (hget : c.arena.get? slot = some t)
    (hp : t.backing = some p) (hne : c.target? action told ≠ some slot) :
    c'.heap.block? p = c.heap.block? p := by
  -- The texture that the call is about owns another address.
  have hother : ∀ {other t'}, c.arena.get? other = some t' → c.target? action told = some other →
      t'.backing ≠ some p := by
    intro other t' hget' htarget hp'
    exact hne (hv.owns.unique slot other t t' p hget hget' hp hp' ▸ htarget)
  cases he with
  | renew hrenews =>
    have hcursor : p ≠ c.heap.cursor := Address.ne_of_lt (hv.owns.lt_cursor slot t p hget hp)
    rw [Heap.block?_extend_discard (hv.lt_cursor hrenews.bound), if_neg hcursor,
      if_neg (hother hrenews.get? hrenews.target?)]
  | delete hslot =>
    rw [Heap.block?_discard, if_neg fun hand => hother hslot rfl hand.1]
  | heap => exact absurd rfl (hcall _)
  | _ => rfl

/-! ## Along a run -/

/-- **A call leaves all textures alone but the one that it is about.** After any run,

* a call on textures, whether or not it fails, leaves every texture that it is not about as it was, and
  what is found at the address of its block too;
* if the run made no calls to the heap behind the back of the textures, and never more textures existed
  than there are indices, then what is found there is a block in use;
* a new texture takes the slot of none that exists, if there is an index to spare, and has nothing of
  any texture before it: no memory, none that the device knows of, no stamp, and no surface. -/
theorem textures_isolated (hstart : ofSettings s (.ofBudgets budgets) = .ok (.ok c₀))
    (hrun : Run c₀ past c) :
    (∀ action told c', (∀ call, action ≠ .heap call) → c.perform action = .ok (told, c') →
      ∀ slot t, c.arena.get? slot = some t → c.target? action told ≠ some slot →
        c'.arena.get? slot = some t ∧
        ∀ p, t.backing = some p → c'.heap.block? p = c.heap.block? p) ∧
    ((∀ step ∈ past, step.action.meddles = false) →
      (∀ step ∈ past, step.after.arena.count ≤ Slot.limit) →
      ∀ slot t p, c.arena.get? slot = some t → t.backing = some p →
        ∃ b, c.heap.block? p = some b) ∧
    (∀ told c', c.perform .generate = .ok (told, c') →
      ∃ slot t, told = .slot slot ∧ (c.arena.count < Slot.limit → c.arena.get? slot = none) ∧
        c'.arena.get? slot = some t ∧ t.slot = slot ∧ t.backing = none ∧ t.handle.data = none ∧
        t.stamp = .unused ∧ t.handle.width = 0 ∧ t.handle.height = 0) := by
  have hv : c.Valid := hrun.valid (valid_of_ofSettings hstart)
  refine ⟨?_, ?_, ?_⟩
  · intro action told c' hcall hperform slot t hget hne
    have he := hv.effect hperform
    refine ⟨(he.get?_of_ne_target hne).trans hget, ?_⟩
    intro p hp
    exact he.block?_of_ne_target hv hcall hget hp hne
  · intro hquiet hcount slot t p hget hp
    obtain ⟨b, hblock, -⟩ := (hrun.backed hstart hquiet hcount).block slot t p hget hp
    exact ⟨b, hblock⟩
  · intro told c' hperform
    cases hv.effect hperform with
    | @generate slot _ _ hu _ _ hnew =>
      refine ⟨slot, .blank slot, rfl, hnew, ?_, rfl, rfl, rfl, rfl, rfl, rfl⟩
      rw [hu.get?, if_pos rfl]
    | reject hrejects => cases hrejects
    | renew hrenews | exhaust hrenews | stray hrenews => cases hrenews

/-- Two textures were sampled in this frame and are bound to units, one of them to two. When the other
is resolved and gets a new block, the bytes that were written to the first are still there. -/
theorem textures_isolated_after_reclaim : ∃ c₀ past c c' t b,
    ofSettings .standard (.ofBudgets .standard) = .ok (.ok c₀) ∧ Run c₀ past c ∧
    c.perform .resolve = .ok (.address ⟨0x81000200, by decide⟩, c') ∧
    c.arena.get? ⟨0, 0⟩ = some t ∧ t.backing = some Heap.base ∧ t.stamp = .frame 1 ∧
    c'.arena.get? ⟨0, 0⟩ = some t ∧ c'.heap.block? Heap.base = some b ∧
    b.bytes.toList.take 4 = [0, 7, 9, 0] := by
  have hstart : ofSettings .standard (.ofBudgets .standard) =
      .ok (.ok (Context.start .standard (.ofBudgets .standard))) := by rfl
  obtain ⟨past, c, hrun, htest⟩ := Trace.exists_of_reaches perform
    [.generate, .bind ⟨0, 0⟩, .define .abgr8888 4 1, .heap (.write Heap.base 1 [7, 9]), .endFrame,
      .sample, .activate 1, .bind ⟨0, 0⟩, .generate, .activate 2, .bind ⟨1, 0⟩,
      .define .luminance8 3 2, .sample]
    (show Trace.reaches perform (Context.start .standard (.ofBudgets .standard)) _ (fun _ c =>
      c.answers .resolve (.address ⟨0x81000200, by decide⟩) &&
        (c.target? .resolve (.address ⟨0x81000200, by decide⟩) = some ⟨1, 0⟩ &&
        ((c.arena.get? ⟨0, 0⟩).any (fun t => t.backing = some Heap.base && t.stamp = .frame 1) &&
        (c.heap.block? Heap.base).any (fun b => b.bytes.toList.take 4 = [0, 7, 9, 0])))) = true
      by decide +kernel)
  simp only [Bool.and_eq_true, decide_eq_true_eq, Option.any_eq_true] at htest
  obtain ⟨hanswers, htarget, ⟨t, hget, hbacking, hstamp⟩, b, hblock, hbytes⟩ := htest
  obtain ⟨c', hresolve⟩ := exists_perform_of_answers hanswers
  have hne : c.target? .resolve (.address ⟨0x81000200, by decide⟩) ≠ some ⟨0, 0⟩ := by
    rw [htarget]
    decide
  obtain ⟨hget', hsame⟩ :=
    (textures_isolated hstart hrun).1 .resolve _ _ (by simp) hresolve _ _ hget hne
  exact ⟨_, past, c, c', t, b, hstart, hrun, hresolve, hget, hbacking, hstamp, hget',
    (hsame _ hbacking).trans hblock, hbytes⟩

end TextureMemory.Context
