import TextureMemory.Proofs.Context.Tallies

/-!
# What the tally of failures counts

A call that is to give a texture a new block comes to one of three ends (`Context.Renews.effect_cases`):
it does so, or there is no block to be had, or there is one, and the old block turns out not to be in
use. The second is tallied as a failure. The third can only happen where somebody gave the old block
back behind the back of the texture: `Context.define` does not tally it, and `Context.resolve` does.

So the tally is the number of calls that got no memory, and of those calls that were to resolve a
texture and could not take its old block back (`Context.allocFailures_count`). It is not the number of
the former alone (`Context.allocFailures_count_ne`).
-/

namespace TextureMemory.Context

variable {c₀ c c' : Context} {past : List Step} {action : Action} {told : Answer}
  {slot : Slot} {t shape : Texture} {size : Nat} {s : Settings} {budgets : Budgets}

/-! ## One call -/

/-- What a call is to give a new block to is determined by the call. -/
theorem Renews.unique (hr : Renews c action slot t shape size) {slot' : Slot} {t' shape' : Texture}
    {size' : Nat} (hr' : Renews c action slot' t' shape' size') :
    slot' = slot ∧ t' = t ∧ size' = size := by
  have hbound := hr.bound
  have hsize := hr.size_eq
  rw [hr'.bound] at hbound
  cases hbound
  cases hr with
  | define =>
    cases hr' with
    | define _ _ hsize' =>
      cases hsize.symm.trans hsize'
      exact ⟨rfl, rfl, rfl⟩
  | resolve =>
    cases hr' with
    | resolve _ _ _ hsize' =>
      cases hsize.symm.trans hsize'
      exact ⟨rfl, rfl, rfl⟩

/-- A call that is to give a texture a new block does so, or gets none, or finds that the old one is
not in use. -/
theorem Renews.effect_cases (hr : Renews c action slot t shape size)
    (he : Effect c action told c') :
    (∃ pool cursor, c.heap.Grants size c.policy.request pool cursor ∧
      (∀ a ∈ t.backing, ∃ b, c.heap.block? a = some b) ∧ told = .address c.heap.cursor) ∨
    (∃ cause, c.heap.allocate size c.policy.request = .ok (.error cause, c.heap) ∧
      Heap.Refuses size c.policy.request cause ∧ told = .failed (.memory cause)) ∨
    (∃ pool cursor a, c.heap.Grants size c.policy.request pool cursor ∧ t.backing = some a ∧
      c.heap.block? a = none ∧ told = .failed (.memory (.notLive a))) := by
  cases he with
  | renew hrenews hgrants hlive _ =>
    obtain ⟨-, rfl, rfl⟩ := hr.unique hrenews
    exact .inl ⟨_, _, hgrants, hlive, rfl⟩
  | exhaust hrenews hallocate hrefuses _ =>
    obtain ⟨-, -, rfl⟩ := hr.unique hrenews
    exact .inr (.inl ⟨_, hallocate, hrefuses, rfl⟩)
  | stray hrenews hgrants hbacking hdead _ =>
    obtain ⟨-, rfl, rfl⟩ := hr.unique hrenews
    exact .inr (.inr ⟨_, _, _, hgrants, hbacking, hdead, rfl⟩)
  | reuse hbound _ hold =>
    cases hr with
    | resolve hbound' _ hrecent _ =>
      rw [hbound] at hbound'
      cases hbound'
      rw [hold] at hrecent
      cases hrecent
  | reject hrejects =>
    have hbound := hr.bound
    have hsize := hr.size_eq
    cases hrejects with
    | empty hempty =>
      cases hr with
      | define => omega
    | huge _ _ hnone =>
      cases hr with
      | define _ _ hsome =>
        rw [hnone] at hsome
        cases hsome
    | define _ _ _ hnone | resolve hnone =>
      rw [hnone] at hbound
      cases hbound
    | undefined hbound' hnone =>
      rw [hbound'] at hbound
      cases hbound
      cases hr with
      | resolve _ hsome =>
        rw [hnone] at hsome
        cases hsome
    | _ => cases hr
  | _ => cases hr

/-- A call got no memory exactly if it was to give a texture a block that the heap refused. -/
theorem Effect.starves_iff (he : Effect c action told c') (hv : c.Valid) :
    Step.starves ⟨c, action, told, c'⟩ = true ↔
      ∃ slot t shape size cause, Renews c action slot t shape size ∧
        c.heap.allocate size c.policy.request = .ok (.error cause, c.heap) := by
  constructor
  · intro hstarves
    cases he with
    | exhaust hrenews hallocate _ _ => exact ⟨_, _, _, _, _, hrenews, hallocate⟩
    | reject hrejects =>
      rw [(hrejects.starves hv).1] at hstarves
      cases hstarves
    | renew hrenews | stray hrenews => cases hrenews <;> cases hstarves
    | _ => cases hstarves
  · rintro ⟨slot, t, shape, size, cause, hrenews, hallocate⟩
    -- The heap gives one answer only, so it had no block to give.
    have hnone : ∀ pool cursor, ¬c.heap.Grants size c.policy.request pool cursor := by
      intro pool cursor hgrants
      obtain ⟨heap, hok⟩ := hv.heap.exists_allocate_eq_ok hgrants
      rw [hallocate] at hok
      cases hok
    rcases hrenews.effect_cases he with
      ⟨pool, cursor, hgrants, -⟩ | ⟨cause, -, hrefuses, rfl⟩ | ⟨pool, cursor, a, hgrants, -⟩
    · exact absurd hgrants (hnone pool cursor)
    · exact (hrenews.starves hrefuses).1
    · exact absurd hgrants (hnone pool cursor)

/-- A call that was to resolve a texture could not take its old block back exactly if there was a new
one to be had and the old one was not in use. -/
theorem Effect.strays_iff (he : Effect c action told c') (hv : c.Valid) :
    Step.strays ⟨c, action, told, c'⟩ = true ↔
      action = .resolve ∧ ∃ slot t size pool cursor a, Renews c .resolve slot t t size ∧
        c.heap.Grants size c.policy.request pool cursor ∧ t.backing = some a ∧
        c.heap.block? a = none := by
  constructor
  · intro hstrays
    cases he with
    | stray hrenews hgrants hbacking hdead _ =>
      cases hrenews with
      | define => cases hstrays
      | resolve hbound hprevious hrecent hsize =>
        exact ⟨rfl, _, _, _, _, _, _, .resolve hbound hprevious hrecent hsize, hgrants, hbacking,
          hdead⟩
    | exhaust hrenews _ hrefuses _ =>
      rw [(hrenews.starves hrefuses).2] at hstrays
      cases hstrays
    | reject hrejects =>
      rw [(hrejects.starves hv).2] at hstrays
      cases hstrays
    | renew hrenews => cases hrenews <;> cases hstrays
    | _ => cases hstrays
  · rintro ⟨rfl, slot, t, size, pool, cursor, a, hrenews, hgrants, hbacking, hdead⟩
    rcases hrenews.effect_cases he with
      ⟨pool, cursor, -, hlive, -⟩ | ⟨cause, hallocate, -⟩ | ⟨pool, cursor, a, -, -, -, rfl⟩
    · obtain ⟨b, hb⟩ := hlive a hbacking
      rw [hdead] at hb
      cases hb
    · obtain ⟨heap, hok⟩ := hv.heap.exists_allocate_eq_ok hgrants
      rw [hallocate] at hok
      cases hok
    · rfl

/-- **The tally of failures counts two things.** After any run it is the number of calls that got no
memory, and of those calls that were to resolve a texture and could not take its old block back. So it
is the number of the former exactly if there were none of the latter. Here

* a call got no memory exactly if the heap refused a block that a texture was to be given;
* a call that was to resolve a texture could not take its old block back exactly if the texture was
  sampled recently, there was a new block to be had, and the old one was not in use. -/
theorem allocFailures_count (hstart : ofSettings s (.ofBudgets budgets) = .ok (.ok c₀))
    (hrun : Run c₀ past c) :
    c.count Event.allocFailures.name = past.countP Step.starves + past.countP Step.strays ∧
    (c.count Event.allocFailures.name = past.countP Step.starves ↔
      ∀ step ∈ past, step.strays = false) ∧
    ∀ step ∈ past,
      (step.starves = true ↔ ∃ slot t shape size cause,
        Renews step.before step.action slot t shape size ∧
        step.before.heap.allocate size step.before.policy.request =
          .ok (.error cause, step.before.heap)) ∧
      (step.strays = true ↔ step.action = .resolve ∧ ∃ slot t size pool cursor a,
        Renews step.before .resolve slot t t size ∧
        step.before.heap.Grants size step.before.policy.request pool cursor ∧
        t.backing = some a ∧ step.before.heap.block? a = none) := by
  have hcount : c.count Event.allocFailures.name =
      past.countP Step.starves + past.countP Step.strays := by
    rw [hrun.count_eq hstart, ← Word.total_map_toNat, ← Word.total_map_toNat, ← Word.total_map_add]
    rfl
  refine ⟨hcount, ?_, ?_⟩
  · have hnone : past.countP Step.strays = 0 ↔ ∀ step ∈ past, step.strays = false := by
      simp [List.countP_eq_zero]
    rw [← hnone]
    omega
  · intro step hmem
    obtain ⟨hv, he⟩ := hrun.effect_of_mem (valid_of_ofSettings hstart) hmem
    exact ⟨he.starves_iff hv, he.strays_iff hv⟩

/-- A texture whose block was given back behind its back, and that is resolved after it was sampled,
is tallied as a failure for want of memory. -/
theorem allocFailures_count_after_stray_free : ∃ c₀ past c,
    ofSettings .standard (.ofBudgets .standard) = .ok (.ok c₀) ∧ Run c₀ past c ∧
    past.countP Step.starves = 0 ∧ past.countP Step.strays = 1 ∧
    c.count Event.allocFailures.name = past.countP Step.starves + past.countP Step.strays := by
  have hstart : ofSettings .standard (.ofBudgets .standard) =
      .ok (.ok (start .standard (.ofBudgets .standard))) := by rfl
  obtain ⟨past, c, hrun, htest⟩ := Trace.exists_of_reaches perform
    [.generate, .bind ⟨0, 0⟩, .define .abgr8888 4 1, .sample,
      .heap (.free ⟨0x81000000, by decide⟩), .resolve, .define .abgr8888 4 1]
    (show Trace.reaches perform (start .standard (.ofBudgets .standard)) _ (fun past _ =>
      past.countP Step.starves = 0 && past.countP Step.strays = 1) = true by decide +kernel)
  simp only [Bool.and_eq_true, decide_eq_true_eq] at htest
  exact ⟨_, past, c, hstart, hrun, htest.1, htest.2, (allocFailures_count hstart hrun).1⟩

/-- The tally of failures is not the number of calls that got no memory. -/
theorem allocFailures_count_ne : ¬∀ s budgets c₀ past c,
    ofSettings s (.ofBudgets budgets) = .ok (.ok c₀) → Run c₀ past c →
      c.count Event.allocFailures.name = past.countP Step.starves := by
  intro hall
  have hstart : ofSettings .standard (.ofBudgets .standard) =
      .ok (.ok (start .standard (.ofBudgets .standard))) := by rfl
  obtain ⟨past, c, hrun, htest⟩ := Trace.exists_of_reaches perform
    [.generate, .bind ⟨0, 0⟩, .define .abgr8888 4 1, .sample,
      .heap (.free ⟨0x81000000, by decide⟩), .resolve]
    (show Trace.reaches perform (start .standard (.ofBudgets .standard)) _ (fun past c =>
      c.count Event.allocFailures.name ≠ past.countP Step.starves) = true by decide +kernel)
  exact absurd (hall _ _ _ past c hstart hrun) (of_decide_eq_true htest)

end TextureMemory.Context
