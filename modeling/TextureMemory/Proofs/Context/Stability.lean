import TextureMemory.Proofs.Context.Isolation

/-!
# Addresses that stay

Once a texture was resolved it is at rest (`Context.Rests`): its stamp is too old for its block to be
replaced, or it has none. A stamp only grows older, as frames are never taken back. So the texture stays
at rest until it is sampled or defined, or ceases to exist, and until then resolving it answers with the
same address and changes nothing at all (`Context.resolve_stable`).

Whether the block at that address is still in use does not matter: resolving a texture at rest never
looks at the heap.
-/

namespace TextureMemory

/-- A stamp that is too old in some frame is too old in all later ones. -/
theorem Policy.reclaims_eq_false_of_le {p : Policy} {stamp : Stamp} {n m : Nat}
    (h : p.reclaims stamp n = false) (hle : n ≤ m) : p.reclaims stamp m = false := by
  cases stamp with
  | unused => rfl
  | frame f =>
    have hold : ¬n - f ≤ p.threshold := of_decide_eq_false h
    exact decide_eq_false (show ¬m - f ≤ p.threshold by omega)

namespace Context

/-- The call sampled, defined or deleted the texture of a slot. -/
def Step.disturbs (step : Step) (slot : Slot) : Bool :=
  match step.action, step.answer with
  | .sample, .done | .define .., .address _ | .delete _, .done =>
    step.before.target? step.action step.answer = some slot
  | _, _ => false

/-- The texture of a slot owns an address, and is not to be given another. -/
structure Rests (c : Context) (slot : Slot) (t : Texture) (p : Address) : Prop where
  get? : c.arena.get? slot = some t
  backing : t.backing = some p
  stale : c.policy.reclaims t.stamp c.frame = false

variable {c₀ c c' c'' : Context} {past later : List Step} {action : Action} {told : Answer}
  {slot : Slot} {t : Texture} {p : Address} {s : Settings} {budgets : Budgets}

/-! ## One call -/

/-- A texture that was resolved is at rest. -/
theorem Effect.rests (he : Effect c .resolve (.address p) c')
    (hunit : c.units.boundAt? c.units.active = some slot) : ∃ t, c'.Rests slot t p := by
  cases he with
  | renew hrenews =>
    obtain ⟨hunit', hget⟩ := bound_iff_boundAt?.mp hrenews.bound
    rw [hunit] at hunit'
    cases hunit'
    exact ⟨_, by rw [(Arena.update_set hget).get?, if_pos rfl], rfl, rfl⟩
  | reuse hbound haddress hrecent =>
    obtain ⟨hunit', hget⟩ := bound_iff_boundAt?.mp hbound
    rw [hunit] at hunit'
    cases hunit'
    exact ⟨_, hget, haddress, hrecent⟩

/-- Resolving a texture at rest answers with its address and changes nothing. -/
theorem Rests.perform_resolve (hr : c.Rests slot t p)
    (hunit : c.units.boundAt? c.units.active = some slot) :
    c.perform .resolve = .ok (.address p, c) := by
  have hbound : c.bound = .ok (.ok (slot, t)) := bound_iff_boundAt?.mpr ⟨hunit, hr.get?⟩
  rw [perform, resolve, hbound]
  simp only [Policy.resolve_of_stale hr.backing hr.stale, Fault.ok_bind]
  rfl

/-- A texture at rest stays as it is, unless a call samples, defines or deletes it. -/
theorem Rests.get?_eq (hr : c.Rests slot t p) (he : Effect c action told c') (hv : c.Valid)
    (hquiet : Step.disturbs ⟨c, action, told, c'⟩ slot = false)
    (hspare : action = .generate → c.arena.count < Slot.limit) :
    c'.arena.get? slot = some t := by
  cases he.fate hv hr.get? hspare with
  | kept hget => exact hget
  | stamped hbound =>
    exact absurd (bound_iff_boundAt?.mp hbound).1 (of_decide_eq_false hquiet)
  | moved hrenews =>
    have htarget : c.target? action (.address c.heap.cursor) = some slot := hrenews.target?
    cases hrenews with
    | define => exact absurd htarget (of_decide_eq_false hquiet)
    | resolve _ _ hrecent =>
      -- The stamp is too old for that.
      rw [hr.stale] at hrecent
      cases hrecent
  | deleted => exact absurd rfl (of_decide_eq_false hquiet)

/-- A texture goes on resting when it is not disturbed. -/
theorem Rests.next (hr : c.Rests slot t p) (he : Effect c action told c') (hv : c.Valid)
    (hquiet : Step.disturbs ⟨c, action, told, c'⟩ slot = false)
    (hspare : action = .generate → c.arena.count < Slot.limit) : c'.Rests slot t p where
  get? := hr.get?_eq he hv hquiet hspare
  backing := hr.backing
  stale := by
    rw [he.policy_eq]
    exact Policy.reclaims_eq_false_of_le hr.stale he.frame_le

/-! ## Along a run -/

/-- It rests along a run of such calls. -/
theorem Run.rests (hrun : Run c past c') (hv : c.Valid) (hr : c.Rests slot t p)
    (hquiet : ∀ step ∈ past, step.disturbs slot = false)
    (hcount : ∀ step ∈ past, step.after.arena.count ≤ Slot.limit) : c'.Rests slot t p :=
  hrun.induct_mem (P := fun _ c => c.Rests slot t p) hv
    (fun step hmem => And.intro (hquiet step hmem) (hcount step hmem)) hr
    fun hv hr he hstep => hr.next he hv hstep.1 (he.spare hstep.2)

/-- **A texture that was resolved keeps its address until it is sampled.** After any run, and after
resolving a texture, let there be any further calls, to the heap behind the back of the textures too, of
which none samples, defines or deletes that texture, and which never make more textures than there are
indices. Then

* the texture is as it was when it was resolved;
* resolving it, through whichever unit it is bound to, answers with the same address and changes nothing;
* so did every call that resolved it in the meantime. -/
theorem resolve_stable (hstart : ofSettings s (.ofBudgets budgets) = .ok (.ok c₀))
    (hrun : Run c₀ past c) (hunit : c.units.boundAt? c.units.active = some slot)
    (hresolve : c.perform .resolve = .ok (.address p, c')) (hlater : Run c' later c'')
    (hquiet : ∀ step ∈ later, step.disturbs slot = false)
    (hcount : ∀ step ∈ later, step.after.arena.count ≤ Slot.limit) :
    (∃ t, c'.arena.get? slot = some t ∧ t.backing = some p ∧ c''.arena.get? slot = some t) ∧
    (c''.units.boundAt? c''.units.active = some slot →
      c''.perform .resolve = .ok (.address p, c'')) ∧
    (∀ step ∈ later, step.action = .resolve →
      step.before.units.boundAt? step.before.units.active = some slot →
      step.answer = .address p ∧ step.after = step.before) := by
  have hv : c.Valid := hrun.valid (valid_of_ofSettings hstart)
  have he : Effect c .resolve (.address p) c' := hv.effect hresolve
  have hv' : c'.Valid := he.valid hv
  obtain ⟨t, hr⟩ := he.rests hunit
  have hr'' : c''.Rests slot t p := hlater.rests hv' hr hquiet hcount
  refine ⟨⟨t, hr.get?, hr.backing, hr''.get?⟩, hr''.perform_resolve, ?_⟩
  rintro ⟨before, action, told, after⟩ hmem rfl hbound
  obtain ⟨rest, earlier, rfl⟩ := List.append_of_mem hmem
  obtain ⟨hearlier, hperform, -⟩ := hlater.split
  have hrBefore : before.Rests slot t p := Run.rests hearlier hv' hr
    (fun step hstep => hquiet step (by simp [hstep]))
    fun step hstep => hcount step (by simp [hstep])
  have hsame : (.address p, before) = (told, after) :=
    Except.ok.inj ((hrBefore.perform_resolve hbound).symm.trans hperform)
  exact ⟨(congrArg Prod.fst hsame).symm, (congrArg Prod.snd hsame).symm⟩

/-- A texture that was given a new block is bound to another unit. Meanwhile another texture is created,
defined and sampled, the frame ends, someone gives back the block, and defining the texture again fails
for that. It is resolved to the same address nevertheless. -/
theorem resolve_stable_after_stray_free : ∃ c₀ past c c' later c'',
    ofSettings .standard (.ofBudgets .standard) = .ok (.ok c₀) ∧ Run c₀ past c ∧
    c.perform .resolve = .ok (.address ⟨0x81000100, by decide⟩, c') ∧ Run c' later c'' ∧
    later.length = 12 ∧ c''.frame = c.frame + 1 ∧ c''.units.active ≠ c.units.active ∧
    c''.perform .resolve = .ok (.address ⟨0x81000100, by decide⟩, c'') := by
  have hstart : ofSettings .standard (.ofBudgets .standard) =
      .ok (.ok (Context.start .standard (.ofBudgets .standard))) := by rfl
  obtain ⟨past, c'', hrun, htest⟩ := Trace.exists_of_reaches perform
    [.generate, .bind ⟨0, 0⟩, .define .abgr8888 4 1, .sample, .resolve, .activate 1, .bind ⟨0, 0⟩,
      .activate 2, .generate, .bind ⟨1, 0⟩, .define .luminance8 3 2, .sample, .endFrame,
      .heap (.free ⟨0x81000100, by decide⟩), .activate 1, .define .abgr8888 4 1, .resolve]
    (show Trace.reaches perform (Context.start .standard (.ofBudgets .standard)) _ (fun past c'' =>
      (past.take 12).all (fun step => !Step.disturbs step ⟨0, 0⟩ &&
        step.after.arena.count ≤ Slot.limit) &&
      (c''.units.boundAt? c''.units.active = some ⟨0, 0⟩ &&
      ((past.drop 12).head?.any fun step => step.action = .resolve &&
        step.answer = .address ⟨0x81000100, by decide⟩ &&
        step.before.units.boundAt? step.before.units.active = some ⟨0, 0⟩ &&
        c''.frame = step.before.frame + 1 && c''.units.active ≠ step.before.units.active) &&
      (past.take 12).length = 12)) = true by decide +kernel)
  simp only [Bool.and_eq_true, decide_eq_true_eq, Option.any_eq_true, List.all_eq_true,
    Bool.not_eq_true'] at htest
  obtain ⟨hkept, ⟨hbound, ⟨before, action, told, after⟩, hhead, ⟨⟨⟨rfl, rfl⟩, hunit⟩, hframe⟩,
    hactive⟩, hlength⟩ := htest
  obtain ⟨earlier, hdrop⟩ := List.head?_eq_some_iff.mp hhead
  rw [← List.take_append_drop 12 past, hdrop] at hrun
  obtain ⟨hearlier, hresolve, hlater⟩ := hrun.split
  have hstable := resolve_stable hstart hearlier hunit hresolve hlater
    (fun step hmem => (hkept step hmem).1) fun step hmem => (hkept step hmem).2
  exact ⟨_, earlier, before, after, _, c'', hstart, hearlier, hresolve, hlater, hlength, hframe,
    hactive, hstable.2.1 hbound⟩

end Context

end TextureMemory
