import TextureMemory.Proofs.Context.Run

/-!
# The purge window

Memory that the device sampled within the purge threshold is never handed out for writing, and a
texture gets a new block only where its old one was sampled so recently
(`Context.address_outside_window`).

A context keeps one stamp for each texture, and the stamp moves with the texture while its block does
not. The invariant `Context.Stamped` ties the two: the stamp of a texture is the latest frame in which
its block was sampled. It survives because an address that was ever sampled stays below the cursor,
where no new block begins.
-/

namespace TextureMemory.Context

/-- The device was told to sample the block at an address in a frame. -/
def Sampled (past : List Step) (p : Address) (frame : Nat) : Prop :=
  ∃ step ∈ past, step.action = .sample ∧ step.answer = .done ∧ step.before.frame = frame ∧
    ∃ slot t, step.before.bound = .ok (.ok (slot, t)) ∧ t.backing = some p

/-- The block at an address was sampled in a frame from which no more than `threshold` frames have
passed. -/
def SampledWithin (past : List Step) (p : Address) (threshold frame : Nat) : Prop :=
  ∃ f, Sampled past p f ∧ frame - f ≤ threshold

/-- The stamps of a context tell when the blocks were last sampled. -/
structure Stamped (past : List Step) (c : Context) : Prop where
  lt_cursor : ∀ p f, Sampled past p f → p.value < c.heap.cursor.value
  le_frame : ∀ p f, Sampled past p f → f ≤ c.frame
  stamp_le : ∀ s t m, c.arena.get? s = some t → t.stamp = .frame m → m ≤ c.frame
  latest : ∀ s t p f, c.arena.get? s = some t → t.backing = some p → Sampled past p f →
    ∃ m, t.stamp = .frame m ∧ f ≤ m
  sampled : ∀ s t p m, c.arena.get? s = some t → t.backing = some p → t.stamp = .frame m →
    Sampled past p m

variable {c₀ c c' : Context} {past : List Step} {action : Action} {told : Answer} {slot : Slot}
  {t : Texture} {p q : Address} {s : Settings} {budgets : Budgets} {step : Step} {frame : Nat}

/-! ## One more call -/

theorem Sampled.cons (h : Sampled past p frame) : Sampled (step :: past) p frame := by
  obtain ⟨other, hmem, hrest⟩ := h
  exact ⟨other, List.mem_cons_of_mem _ hmem, hrest⟩

/-- What was sampled after a call was sampled before it, or by the call itself. -/
theorem sampled_cons (h : Sampled (⟨c, action, told, c'⟩ :: past) p frame) :
    Sampled past p frame ∨
      (action = .sample ∧ frame = c.frame ∧
        ∃ slot t, c.bound = .ok (.ok (slot, t)) ∧ t.backing = some p) := by
  obtain ⟨step, hmem, haction, hanswer, hframe, hbound⟩ := h
  rcases List.mem_cons.mp hmem with rfl | hmem
  · exact .inr ⟨haction, hframe.symm, hbound⟩
  · exact .inl ⟨step, hmem, haction, hanswer, hframe, hbound⟩

/-- What was sampled after a call began below the cursor before it. -/
theorem Stamped.lt_cursor_of_cons (hst : Stamped past c) (hv : c.Valid)
    (h : Sampled (⟨c, action, told, c'⟩ :: past) p frame) : p.value < c.heap.cursor.value := by
  rcases sampled_cons h with h | ⟨-, -, slot, t, hbound, hp⟩
  · exact hst.lt_cursor p frame h
  · exact hv.lt_cursor hbound p hp

/-- It was sampled no later than in the frame of the call. -/
theorem Stamped.le_frame_of_cons (hst : Stamped past c)
    (h : Sampled (⟨c, action, told, c'⟩ :: past) p frame) : frame ≤ c.frame := by
  rcases sampled_cons h with h | ⟨-, rfl, -⟩
  · exact hst.le_frame p frame h
  · exact Nat.le_refl _

/-- Sampling stamps the texture that is bound. -/
theorem Effect.stamped_of_bound (he : Effect c .sample told c') (hbound : c.bound = .ok (.ok (slot, t))) :
    c'.arena.get? slot = some { t with stamp := .frame c.frame } := by
  obtain ⟨-, hget⟩ := bound_eq_ok_iff.mp hbound
  cases he with
  | sample hbound' =>
    rw [hbound] at hbound'
    cases hbound'
    rw [(Arena.update_set hget).get?, if_pos rfl]
  | reject hrejects =>
    cases hrejects with
    | sample hnone =>
      rw [hbound] at hnone
      cases hnone
  -- No texture gets a block when it is sampled.
  | renew hrenews | exhaust hrenews | stray hrenews => cases hrenews

/-- The stamp of a texture is no earlier than any sampling of its block. -/
theorem Stamped.latest_of_cons (hst : Stamped past c) (hv : c.Valid) (he : Effect c action told c')
    (hs : c'.arena.get? slot = some t) (hp : t.backing = some p)
    (hf : Sampled (⟨c, action, told, c'⟩ :: past) p frame) : ∃ m, t.stamp = .frame m ∧ frame ≤ m := by
  cases he.origin hs with
  | old hold =>
    rcases sampled_cons hf with hf | ⟨rfl, rfl, slot', t', hbound, hp'⟩
    · exact hst.latest slot t p frame hold hp hf
    · -- The texture that was sampled owns the same block, so it is this one.
      obtain ⟨-, hget⟩ := bound_eq_ok_iff.mp hbound
      obtain rfl := hv.owns.unique slot slot' t t' p hold hget hp hp'
      cases hs.symm.trans (he.stamped_of_bound hbound)
      exact ⟨c.frame, rfl, Nat.le_refl _⟩
  | blank ht =>
    rw [ht] at hp
    cases hp
  | moved _ _ ht =>
    -- Nothing was sampled at the cursor yet.
    rw [ht] at hp
    cases hp
    exact absurd (hst.lt_cursor_of_cons hv hf) (Nat.lt_irrefl _)
  | stamped hbound ht =>
    subst ht
    exact ⟨c.frame, rfl, hst.le_frame_of_cons hf⟩

/-- After a call the stamps tell again when the blocks were last sampled. -/
theorem Stamped.next (hst : Stamped past c) (hv : c.Valid) (he : Effect c action told c') :
    Stamped (⟨c, action, told, c'⟩ :: past) c' where
  lt_cursor p f hf := Nat.lt_of_lt_of_le (hst.lt_cursor_of_cons hv hf) he.cursor_le
  le_frame p f hf := Nat.le_trans (hst.le_frame_of_cons hf) he.frame_le
  stamp_le s t m hs hm := by
    have hle := he.frame_le
    cases he.origin hs with
    | old hold => exact Nat.le_trans (hst.stamp_le s t m hold hm) hle
    | blank ht | moved _ _ ht =>
      rw [ht] at hm
      cases hm
    | stamped _ ht =>
      rw [ht] at hm
      cases hm
      exact hle
  latest s t p f hs hp hf := hst.latest_of_cons hv he hs hp hf
  sampled s t p m hs hp hm := by
    cases he.origin hs with
    | old hold => exact (hst.sampled s t p m hold hp hm).cons
    | blank ht | moved _ _ ht =>
      rw [ht] at hm
      cases hm
    | stamped hbound ht =>
      subst ht
      cases hm
      exact ⟨_, List.mem_cons_self, rfl, rfl, rfl, s, _, hbound, hp⟩

/-! ## Along a run -/

theorem start_stamped : Stamped [] (start s (.ofBudgets budgets)) := by
  have hsampled : ∀ p f, ¬Sampled [] p f := by
    rintro p f ⟨step, hmem, -⟩
    cases hmem
  constructor <;> simp [get?_start, hsampled]

/-- The stamps tell when the blocks were last sampled, after every run. -/
theorem Run.stamped (hstart : ofSettings s (.ofBudgets budgets) = .ok (.ok c₀))
    (hrun : Run c₀ past c) : Stamped past c := by
  exact hrun.induct_of_start hstart start_stamped fun hv hst he => hst.next hv he

/-- The policy replaces the block of a texture exactly where it was sampled within the threshold. -/
theorem Stamped.reclaims_iff (hst : Stamped past c) (hget : c.arena.get? slot = some t)
    (hp : t.backing = some p) : c.policy.reclaims t.stamp c.frame = true ↔
      SampledWithin past p c.policy.threshold c.frame := by
  cases hstamp : t.stamp with
  | unused =>
    rw [Policy.reclaims, Stamp.elapsed?]
    constructor
    · intro h
      cases h
    · rintro ⟨f, hf, -⟩
      obtain ⟨m, hm, -⟩ := hst.latest slot t p f hget hp hf
      rw [hstamp] at hm
      cases hm
  | frame m =>
    rw [Policy.reclaims, Stamp.elapsed?]
    simp only [decide_eq_true_eq]
    constructor
    · intro h
      exact ⟨m, hst.sampled slot t p m hget hp hstamp, h⟩
    · -- An earlier sampling lies further back than the stamp, which is the latest.
      rintro ⟨f, hf, hle⟩
      obtain ⟨m', hm', hfm⟩ := hst.latest slot t p f hget hp hf
      rw [hstamp] at hm'
      cases hm'
      omega

/-- **No address is handed out within the purge window of its memory.** After any run,

* an address that is handed out was not sampled within the threshold;
* a texture that is resolved gets a new block exactly where its old one was sampled within the
  threshold, and else its own, with nothing changed at all;
* no stamp lies ahead of the current frame. -/
theorem address_outside_window (hstart : ofSettings s (.ofBudgets budgets) = .ok (.ok c₀))
    (hrun : Run c₀ past c) :
    (∀ action p c', c.perform action = .ok (.address p, c') →
      ¬SampledWithin past p s.purgeThreshold c.frame) ∧
    (∀ p c', c.perform .resolve = .ok (.address p, c') →
      ∃ slot t q, c.bound = .ok (.ok (slot, t)) ∧ t.backing = some q ∧
        (SampledWithin past q s.purgeThreshold c.frame → p ≠ q ∧
          (∀ s t, c.arena.get? s = some t → t.backing ≠ some p) ∧ c.heap.block? p = none ∧
          c'.arena.get? slot = some (t.moveTo p) ∧ (c'.heap.block? p).isSome) ∧
        (¬SampledWithin past q s.purgeThreshold c.frame → p = q ∧ c' = c)) ∧
    (∀ slot t m, c.arena.get? slot = some t → t.stamp = .frame m → m ≤ c.frame) := by
  have hst : Stamped past c := hrun.stamped hstart
  have hv₀ : c₀.Valid := valid_of_ofSettings hstart
  have hv : c.Valid := hrun.valid hv₀
  have hthreshold : c.policy.threshold = s.purgeThreshold := by
    rw [hrun.policy_eq hv₀]
    obtain ⟨-, rfl⟩ := eq_start hstart
    rfl
  rw [← hthreshold]
  refine ⟨?_, ?_, hst.stamp_le⟩
  · intro action p c' h
    cases hv.effect h with
    | renew =>
      -- The address is the cursor, below which all that was sampled lies.
      rintro ⟨f, hf, -⟩
      exact absurd (hst.lt_cursor _ f hf) (Nat.lt_irrefl _)
    | reuse hbound haddress hrecent =>
      obtain ⟨-, hget⟩ := bound_eq_ok_iff.mp hbound
      intro hwithin
      rw [← hst.reclaims_iff hget haddress, hrecent] at hwithin
      cases hwithin
  · intro p c' h
    cases hv.effect h with
    | renew hrenews hgrants hlive _ =>
      cases hrenews with
      | resolve hbound hprevious hrecent _ =>
        obtain ⟨-, hget⟩ := bound_eq_ok_iff.mp hbound
        refine ⟨_, _, _, hbound, hprevious, fun _ => ⟨?_, ?_, ?_, ?_, ?_⟩, ?_⟩
        · rintro rfl
          exact absurd (hv.lt_cursor hbound _ hprevious) (Nat.lt_irrefl _)
        · intro slot t hslot hcursor
          exact absurd (hv.owns.lt_cursor slot t _ hslot hcursor) (Nat.lt_irrefl _)
        · exact hv.heap.block?_eq_none (Nat.le_refl _)
        · rw [(Arena.update_set hget).get?, if_pos rfl]
        · rw [Heap.block?_extend_discard (hv.lt_cursor hbound), if_pos rfl]
          rfl
        · intro hnot
          exact absurd ((hst.reclaims_iff hget hprevious).mp hrecent) hnot
    | reuse hbound haddress hrecent =>
      obtain ⟨-, hget⟩ := bound_eq_ok_iff.mp hbound
      refine ⟨_, _, p, hbound, haddress, ?_, fun _ => ⟨rfl, rfl⟩⟩
      intro hwithin
      rw [← hst.reclaims_iff hget haddress, hrecent] at hwithin
      cases hwithin

/-- A texture that was sampled in the current frame gets the block behind its own. -/
theorem address_outside_window_after_sample : ∃ c₀ past c c',
    ofSettings .standard (.ofBudgets .standard) = .ok (.ok c₀) ∧ Run c₀ past c ∧
    c.perform .resolve = .ok (.address ⟨0x81000100, by decide⟩, c') ∧
    ¬SampledWithin past ⟨0x81000100, by decide⟩ Settings.standard.purgeThreshold c.frame := by
  have hstart : ofSettings .standard (.ofBudgets .standard) =
      .ok (.ok (start .standard (.ofBudgets .standard))) := by rfl
  obtain ⟨past, c, hrun, hanswers⟩ := Trace.exists_of_reaches perform
    [.generate, .bind ⟨0, 0⟩, .define .abgr8888 4 1, .endFrame, .sample]
    (show Trace.reaches perform (start .standard (.ofBudgets .standard)) _
      (fun _ c => c.answers .resolve (.address ⟨0x81000100, by decide⟩)) = true by decide +kernel)
  obtain ⟨c', hresolve⟩ := exists_perform_of_answers hanswers
  exact ⟨_, past, c, c', hstart, hrun, hresolve,
    (address_outside_window hstart hrun).1 _ _ _ hresolve⟩

end TextureMemory.Context
