import TextureMemory.Proofs.Context.Run

/-!
# What is bound to the units

A unit is empty, or bound to a texture that exists (`Context.Coherent`). So calls that mean the texture
bound to the active unit never find that its slot names none. `Context.rebound` says what a call makes
of the binding of any unit, and with it a binding is followed along a run: the slot of a new texture
stays bound to no unit until someone binds it.

An entry of the arena is used again after its texture was deleted, and after enough of that the same
slot comes back. It is because deleting clears all units that the slot is not bound from former times.
-/

namespace TextureMemory

namespace Units

variable {u : Units} {unit : Nat} {slot : Slot} {b : Option Slot}

/-- Binding to the active unit leaves the others alone. -/
theorem boundAt?_setIfInBounds (h : u.active < u.count) :
    { u with bindings := u.bindings.setIfInBounds u.active b }.boundAt? unit =
      if unit = u.active then b else u.boundAt? unit := by
  unfold boundAt?
  rw [Array.getElem?_setIfInBounds]
  by_cases hunit : unit = u.active
  · rw [if_pos hunit, if_pos hunit.symm, if_pos (show u.active < u.bindings.size from h)]
    rfl
  · rw [if_neg hunit, if_neg (Ne.symm hunit)]

/-- Clearing a slot from every unit leaves those alone that it is not bound to. -/
theorem boundAt?_unbindEverywhere : (u.unbindEverywhere slot).boundAt? unit =
    if u.boundAt? unit = some slot then none else u.boundAt? unit := by
  unfold boundAt? unbindEverywhere
  rw [Array.getElem?_map]
  cases u.bindings[unit]? with
  | none => rfl
  | some b => rfl

end Units

namespace Context

/-- Every unit is empty, or bound to a texture that exists. -/
def Coherent (c : Context) : Prop :=
  ∀ unit slot, c.units.boundAt? unit = some slot → c.arena.contains slot = true

/-- What is bound to a unit after a call. Only three calls change it, if they do not fail: binding and
unbinding, which mean the active unit, and deleting, which means every unit that the texture is bound
to. -/
def rebound (c : Context) (action : Action) (told : Answer) (unit : Nat) : Option Slot :=
  match action, told with
  | .bind slot, .done => if unit = c.units.active then some slot else c.units.boundAt? unit
  | .unbind, .done => if unit = c.units.active then none else c.units.boundAt? unit
  | .delete slot, .done =>
    if c.units.boundAt? unit = some slot then none else c.units.boundAt? unit
  | _, _ => c.units.boundAt? unit

variable {c₀ c c' : Context} {past later earlier : List Step} {step : Step} {action : Action}
  {told : Answer} {slot : Slot} {unit : Nat} {s : Settings} {budgets : Budgets}

/-! ## One call -/

/-- The units are bound as the call and its answer tell. -/
theorem Effect.boundAt?_eq (he : Effect c action told c') (hv : c.Valid) :
    c'.units.boundAt? unit = c.rebound action told unit := by
  cases he with
  | bind | unbind => exact Units.boundAt?_setIfInBounds hv.active_lt
  | delete => exact Units.boundAt?_unbindEverywhere
  | reject hrejects => cases hrejects <;> rfl
  | renew hrenews | exhaust hrenews | stray hrenews => cases hrenews <;> rfl
  | _ => rfl

/-- No call changes the number of units. -/
theorem Effect.unitCount_eq (he : Effect c action told c') : c'.units.count = c.units.count := by
  cases he with
  | bind | unbind => exact Array.size_setIfInBounds
  | delete => exact Array.size_map
  | _ => rfl

/-- A texture goes on to exist, unless it is deleted. -/
theorem Effect.contains (he : Effect c action told c') (h : c.arena.contains slot = true)
    (hkeep : action = .delete slot → told ≠ .done) : c'.arena.contains slot = true := by
  have hupdate : ∀ {arena : Arena} {other : Slot} {new : Option Texture},
      c.arena.Update arena other new → (slot = other → new.isSome) → arena.contains slot = true := by
    intro arena other new hu hnew
    rw [Arena.contains, hu.get?]
    split
    · next heq => exact hnew heq
    · exact h
  cases he with
  | generate _ hu => exact hupdate hu fun _ => rfl
  | renew hrenews => exact hupdate (Arena.update_set hrenews.get?) fun _ => rfl
  | sample hbound => exact hupdate (Arena.update_set (bound_eq_ok_iff.mp hbound).2) fun _ => rfl
  | delete _ _ hu =>
    apply hupdate hu
    rintro rfl
    exact absurd rfl (hkeep rfl)
  | _ => exact h

/-- Calls keep the units from naming textures that do not exist. -/
theorem Coherent.next (hc : c.Coherent) (hv : c.Valid) (he : Effect c action told c') :
    c'.Coherent := by
  intro unit slot h
  rw [he.boundAt?_eq hv] at h
  unfold rebound at h
  split at h
  · split at h
    · -- The slot that was bound just now names a texture, or the call would have failed.
      cases h
      cases he with
      | bind hslot =>
        rw [Arena.contains, hslot]
        rfl
    · apply he.contains (hc unit slot h)
      intro haction
      cases haction
  · split at h
    · cases h
    · apply he.contains (hc unit slot h)
      intro haction
      cases haction
  · next deleted _ =>
    split at h
    · cases h
    · next hne =>
      apply he.contains (hc unit slot h)
      rintro ⟨⟩
      exact absurd h hne
  · next hother =>
    apply he.contains (hc unit slot h)
    rintro rfl rfl
    exact hother slot rfl rfl

/-- The texture that a call means exists, if there is one at all. -/
theorem Coherent.bound_ne (hc : c.Coherent) : c.bound ≠ .ok (.error (.unknownSlot slot)) := by
  intro h
  unfold bound Units.bound at h
  cases hb : c.units.bindings[c.units.active]? with
  | none => simp only [hb, Fault.error_bind] at h; cases h
  | some b =>
    cases b with
    | none => simp only [hb, Fault.ok_bind] at h; cases h
    | some bound =>
      have hcontains : c.arena.contains bound = true := hc c.units.active bound (by
        rw [Units.boundAt?, hb]
        rfl)
      obtain ⟨t, ht⟩ := Option.isSome_iff_exists.mp hcontains
      simp only [hb, Fault.ok_bind, Arena.get, ht] at h
      cases h

/-- Only a call that is told which texture it means may find that there is none. -/
theorem Coherent.effect_ne (hc : c.Coherent)
    (he : Effect c action (.failed (.unknownSlot slot)) c') :
    action = .bind slot ∨ action = .delete slot := by
  cases he with
  | reject hrejects =>
    cases hrejects with
    | bind => exact .inl rfl
    | delete => exact .inr rfl
    | define _ _ _ hbound | resolve hbound | sample hbound => exact absurd hbound hc.bound_ne

/-! ## Along a run -/

/-- No unit names a texture that does not exist, after any run. -/
theorem Run.coherent (hstart : ofSettings s (.ofBudgets budgets) = .ok (.ok c₀))
    (hrun : Run c₀ past c) : c.Coherent := by
  refine hrun.induct_of_start (P := fun _ c => c.Coherent) hstart ?_ fun hv hc he => hc.next hv he
  intro unit slot h
  rw [Units.boundAt?, Context.start, Array.getElem?_replicate] at h
  split at h <;> cases h

/-- There are as many units as the settings asked for. -/
theorem Run.unitCount_eq (hstart : ofSettings s (.ofBudgets budgets) = .ok (.ok c₀))
    (hrun : Run c₀ past c) : c.units.count = s.textureUnits := by
  refine hrun.induct_of_start (P := fun _ c => c.units.count = s.textureUnits) hstart ?_
    fun _ heq he => he.unitCount_eq.trans heq
  exact Array.size_replicate

/-- A slot that is bound to no unit stays so until it is bound. -/
theorem Run.boundAt?_ne (hrun : Run c₀ past c) (hv : c₀.Valid)
    (hfree : ∀ unit, c₀.units.boundAt? unit ≠ some slot)
    (hno : ∀ step ∈ past, step.action = .bind slot → step.answer ≠ .done) :
    ∀ unit, c.units.boundAt? unit ≠ some slot := by
  refine hrun.induct_mem (P := fun _ c => ∀ unit, c.units.boundAt? unit ≠ some slot) hv hno hfree ?_
  intro past c action told c' hv hbefore he hlast unit h
  rw [he.boundAt?_eq hv] at h
  unfold rebound at h
  split at h
  · split at h
    · cases h
      exact hlast rfl rfl
    · exact hbefore unit h
  · split at h
    · cases h
    · exact hbefore unit h
  · split at h
    · cases h
    · exact hbefore unit h
  · exact hbefore unit h

/-- The slot of a texture that is new to the arena is not bound to any unit. -/
theorem Coherent.boundAt?_generate (hc : c.Coherent) (he : Effect c .generate (.slot slot) c')
    (hcount : c.arena.count < Slot.limit) : c'.units.boundAt? unit ≠ some slot := by
  cases he with
  | generate _ _ _ _ hnew =>
    intro h
    have hcontains : c.arena.contains slot = true := hc unit slot h
    rw [Arena.contains, hnew hcount] at hcontains
    cases hcontains

/-- **Units are bound to textures that exist.** After any run,

* the active unit is one of those that the settings ask for, and each of them is empty or bound to a
  texture that exists;
* a call that means the bound texture never finds that the slot names none: only one that is told the
  slot may;
* a call changes the bindings as `rebound` says;
* binding and unbinding change nothing but bindings, whether or not they fail;
* if never more textures existed than there are indices, the slot of a new texture is bound to no unit
  until it is bound. -/
theorem units_coherent (hstart : ofSettings s (.ofBudgets budgets) = .ok (.ok c₀))
    (hrun : Run c₀ past c) :
    (c.units.active < c.units.count ∧ c.units.count = s.textureUnits ∧
      ∀ unit slot, c.units.boundAt? unit = some slot → c.arena.contains slot = true) ∧
    (∀ action slot c', c.perform action = .ok (.failed (.unknownSlot slot), c') →
      action = .bind slot ∨ action = .delete slot) ∧
    (∀ action told c', c.perform action = .ok (told, c') →
      ∀ unit, c'.units.boundAt? unit = c.rebound action told unit) ∧
    (∀ action told c', c.perform action = .ok (told, c') →
      (∃ slot, action = .bind slot) ∨ action = .unbind →
      c' = { c with units := { c.units with bindings := c'.units.bindings } }) ∧
    ((∀ step ∈ past, step.after.arena.count ≤ Slot.limit) →
      ∀ later step earlier slot, past = later ++ step :: earlier →
        step.action = .generate → step.answer = .slot slot →
        (∀ other ∈ later, other.action = .bind slot → other.answer ≠ .done) →
        ∀ unit, c.units.boundAt? unit ≠ some slot) := by
  have hv₀ : c₀.Valid := valid_of_ofSettings hstart
  have hv : c.Valid := hrun.valid hv₀
  have hc : c.Coherent := hrun.coherent hstart
  refine ⟨⟨hv.active_lt, hrun.unitCount_eq hstart, hc⟩, ?_, ?_, ?_, ?_⟩
  · intro action slot c' h
    exact hc.effect_ne (hv.effect h)
  · intro action told c' h unit
    exact (hv.effect h).boundAt?_eq hv
  · intro action told c' h haction
    have he := hv.effect h
    rcases haction with ⟨slot, rfl⟩ | rfl
    · cases he with
      | bind | reject => rfl
      | renew hrenews | exhaust hrenews | stray hrenews => cases hrenews
    · cases he with
      | unbind | reject => rfl
      | renew hrenews | exhaust hrenews | stray hrenews => cases hrenews
  · rintro hcount later ⟨before, action, told, after⟩ earlier slot rfl rfl rfl hno
    obtain ⟨hearlier, hperform, hlater⟩ := hrun.split
    have hvBefore := Run.valid hearlier hv₀
    have he : Effect before .generate (.slot slot) after := hvBefore.effect hperform
    have hspare : before.arena.count < Slot.limit :=
      he.count_lt_of_generate (hcount ⟨before, .generate, .slot slot, after⟩ (by simp))
    apply Run.boundAt?_ne hlater (he.valid hvBefore) _ hno
    intro unit
    exact (Run.coherent hstart hearlier).boundAt?_generate he hspare

/-- A texture that was bound to two units is deleted, and the next one in its entry is bound to none. -/
theorem units_coherent_after_delete : ∃ c₀ step past c,
    ofSettings .standard (.ofBudgets .standard) = .ok (.ok c₀) ∧ Run c₀ (step :: past) c ∧
    step.action = .generate ∧ step.answer = .slot ⟨0, 1⟩ ∧
    ∀ unit, c.units.boundAt? unit ≠ some ⟨0, 1⟩ := by
  have hstart : ofSettings .standard (.ofBudgets .standard) =
      .ok (.ok (start .standard (.ofBudgets .standard))) := by rfl
  obtain ⟨past, c, hrun, htest⟩ := Trace.exists_of_reaches perform
    [.generate, .bind ⟨0, 0⟩, .activate 3, .bind ⟨0, 0⟩, .delete ⟨0, 0⟩, .generate]
    (show Trace.reaches perform (start .standard (.ofBudgets .standard)) _ (fun past _ =>
      past.all (·.after.arena.count ≤ Slot.limit) && past.head?.any fun step =>
        step.action = .generate && step.answer = .slot ⟨0, 1⟩) = true by decide +kernel)
  simp only [Bool.and_eq_true, List.all_eq_true, decide_eq_true_eq, Option.any_eq_true] at htest
  obtain ⟨hcount, step, hhead, haction, hanswer⟩ := htest
  obtain ⟨earlier, rfl⟩ := List.head?_eq_some_iff.mp hhead
  refine ⟨_, step, earlier, c, hstart, hrun, haction, hanswer, ?_⟩
  exact (units_coherent hstart hrun).2.2.2.2 hcount [] step earlier _ rfl haction hanswer (by simp)

end Context

end TextureMemory
