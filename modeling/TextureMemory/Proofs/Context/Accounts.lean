import TextureMemory.Proofs.Context.Bounds
import TextureMemory.Proofs.Context.Tallies
import TextureMemory.Proofs.Window

/-!
# What is counted along a run

A context counts the blocks that took the place of others in four places: in a number of its own, in
the tallies, in what is pending for the current frame, and in a window over the latest frames. After
every run they agree with the calls of the run, and so with each other (`Context.accounts_balance`).

Each is followed on its own, by what one call does to it. What is pending goes into the window when the
frame ends and starts anew, so the window shows the totals of the latest frames and what is pending is
the total of the current one (`Context.Run.window_tracks`, `Context.Run.pending_eq`).
-/

namespace TextureMemory.Context

variable {c₀ c c' : Context} {past : List Step} {action : Action} {told : Answer} {slot : Slot}
  {t : Texture} {s : Settings} {budgets : Budgets}

/-! ## One more call -/

/-- A call that replaces no block replaces no bytes. -/
theorem Step.replacedBytes_eq_zero {step : Step} (h : step.replaces = false) :
    step.replacedBytes = 0 := by
  simp [replacedBytes, h]

/-- The count of replaced blocks goes up just where a call replaces one. -/
theorem Effect.reclaims_eq (he : Effect c action told c') (hv : c.Valid) :
    c'.reclaims = c.reclaims + (Step.replaces ⟨c, action, told, c'⟩).toNat := by
  cases he with
  | renew hrenews _ _ hcounts =>
    cases hcounts with
    | define => rfl
    | resolve =>
      rw [hrenews.replaces hv]
      rfl
  | reuse hbound haddress _ =>
    rw [replaces_eq_false ((ownAddress?_of_bound hbound).trans haddress)]
    rfl
  | reject | exhaust | stray => cases action <;> rfl
  | _ => rfl

/-- What is pending grows by the bytes that were replaced, and starts anew when a frame ends. -/
theorem Effect.pending_eq (he : Effect c action told c') (hv : c.Valid) :
    c'.pending = if Step.endsFrame ⟨c, action, told, c'⟩ then 0
      else Step.replacedBytes ⟨c, action, told, c'⟩ + c.pending := by
  -- Most calls replace nothing and end no frame.
  have hquiet : ∀ {action told c'}, Step.replaces ⟨c, action, told, c'⟩ = false →
      Step.endsFrame ⟨c, action, told, c'⟩ = false → c'.pending = c.pending →
      c'.pending = if Step.endsFrame ⟨c, action, told, c'⟩ then 0
        else Step.replacedBytes ⟨c, action, told, c'⟩ + c.pending := by
    intro action told c' hreplaces hend hpending
    rw [hend, Step.replacedBytes_eq_zero hreplaces, hpending]
    simp
  cases he with
  | renew hrenews _ _ hcounts =>
    cases hcounts with
    | define => exact hquiet rfl rfl rfl
    | resolve =>
      rw [Step.replacedBytes, if_pos (hrenews.replaces hv), hrenews.answeredBytes hv rfl]
      exact Nat.add_comm _ _
  | reuse hbound haddress _ =>
    exact hquiet (replaces_eq_false ((ownAddress?_of_bound hbound).trans haddress)) rfl rfl
  | endFrame => rfl
  | reject hrejects => cases hrejects <;> exact hquiet rfl rfl rfl
  | exhaust hrenews | stray hrenews => cases hrenews <;> exact hquiet rfl rfl rfl
  | _ => exact hquiet rfl rfl rfl

/-- There is one more texture for each that is created, and one less for each that is deleted. -/
theorem Effect.textures_eq (he : Effect c action told c') :
    c'.arena.count + (Step.deletes ⟨c, action, told, c'⟩).toNat =
      c.arena.count + (Step.generates ⟨c, action, told, c'⟩).toNat := by
  cases he with
  | generate _ _ _ hcount => exact hcount
  | delete _ _ _ _ hcount => exact hcount
  | renew hrenews =>
    rw [Arena.set_eq hrenews.get?]
    cases hrenews <;> rfl
  | sample hbound =>
    rw [Arena.set_eq (bound_eq_ok_iff.mp hbound).2]
    rfl
  | reject hrejects => cases hrejects <;> rfl
  | exhaust hrenews | stray hrenews => cases hrenews <;> rfl
  | _ => rfl

/-- The window changes when a frame ends: what was pending becomes its latest sample. -/
theorem Effect.window_tracks (he : Effect c action told c') {w : Window Nat} {l : List Nat}
    (hw : c.window = .on w) (ht : w.Tracks l) :
    ∃ w', c'.window = .on w' ∧ w'.capacity = w.capacity ∧
      w'.Tracks (if Step.endsFrame ⟨c, action, told, c'⟩ then c.pending :: l else l) := by
  cases he with
  | endFrame hwindow _ =>
    rcases Recorder.update_eq_ok_iff.mp hwindow with ⟨_, w', hon, hpush, rfl⟩ | ⟨hoff, -⟩
    · rw [hw] at hon
      cases hon
      exact ⟨w', rfl, (Window.push_cases hpush).1, ht.push hpush⟩
    · rw [hw] at hoff
      cases hoff
  | renew hrenews | exhaust hrenews | stray hrenews => cases hrenews <;> exact ⟨w, hw, rfl, ht⟩
  | reject hrejects => cases hrejects <;> exact ⟨w, hw, rfl, ht⟩
  | _ => exact ⟨w, hw, rfl, ht⟩

/-! ## Along a run -/

section Run

variable (hstart : ofSettings s (.ofBudgets budgets) = .ok (.ok c₀)) (hrun : Run c₀ past c)
include hstart hrun

/-- As many blocks were replaced as the count tells. -/
theorem Run.reclaims_eq : c.reclaims = past.countP Step.replaces := by
  refine hrun.induct_of_start (P := fun past c => c.reclaims = past.countP Step.replaces)
    hstart rfl ?_
  intro past c action told c' hv heq he
  rw [he.reclaims_eq hv, heq, List.countP_cons]
  cases Step.replaces _ <;> rfl

/-- What is pending are the bytes that were replaced since the last frame ended. -/
theorem Run.pending_eq : c.pending = frameBytes past := by
  refine hrun.induct_of_start (P := fun past c => c.pending = frameBytes past) hstart rfl ?_
  intro past c action told c' hv heq he
  rw [he.pending_eq hv, heq, frameBytes]

/-- Every texture that was created exists, or was deleted. -/
theorem Run.textures_eq :
    past.countP Step.generates = past.countP Step.deletes + c.arena.count := by
  refine hrun.induct_of_start
    (P := fun past c => past.countP Step.generates = past.countP Step.deletes + c.arena.count)
    hstart rfl ?_
  intro past c action told c' _ heq he
  have hone := he.textures_eq
  rw [List.countP_cons, List.countP_cons, heq]
  revert hone
  cases Step.deletes _ <;> cases Step.generates _ <;> simp <;> omega

/-- What was pending whenever a frame ended is what was replaced in that frame. -/
theorem Run.pushed_eq :
    (past.filter Step.endsFrame).map (·.before.pending) = frameTotals past := by
  induction hrun with
  | start => rfl
  | next hrun hperform ih =>
    rw [frameTotals, ← ih, ← Run.pending_eq hstart hrun]
    split
    · next hend => rw [List.filter_cons_of_pos hend, List.map_cons]
    · next hend => rw [List.filter_cons_of_neg hend]

/-- The window shows what was replaced in each of the latest frames. -/
theorem Run.window_tracks :
    ∃ w, c.window = .on w ∧ w.capacity = max s.metricsWindow 1 ∧ w.Tracks (frameTotals past) := by
  have hvalid := valid_of_ofSettings hstart
  induction hrun with
  | start =>
    obtain ⟨-, rfl⟩ := eq_start hstart
    exact ⟨_, rfl, rfl, Window.empty_tracks _⟩
  | next hrun hperform ih =>
    obtain ⟨w, hw, hcapacity, ht⟩ := ih
    have he := (Run.valid hrun hvalid).effect hperform
    obtain ⟨w', hw', hsame, ht'⟩ := he.window_tracks hw ht
    rw [Run.pending_eq hstart hrun] at ht'
    refine ⟨w', hw', hsame.trans hcapacity, ?_⟩
    rw [frameTotals]
    exact ht'

/-- **What is counted agrees with what was done.** After any run, whatever was done to the heap behind
the back of the textures,

* the summary and the tally of replacements are the number of calls that replaced a block;
* the tallies of definitions and of deletions are the number of calls that did just that, and the
  textures that were created are those that were deleted and those that there are;
* the tally of replaced bytes is the sum over all replacements; it is also what was pending whenever a
  frame ended, and what is pending now, together; and what is pending now are the bytes that were
  replaced since the last frame ended;
* what was pending whenever a frame ended is what was replaced in that frame, and the window shows as
  many of the latest of these numbers as there are, up to its capacity, with their mean and peak. -/
theorem accounts_balance :
    (∃ stats, c.stats = .ok stats ∧ stats.reclaims = past.countP Step.replaces ∧
      c.count Event.reclaims.name = past.countP Step.replaces ∧
      c.count Event.definitions.name = past.countP Step.defines ∧
      c.count Event.deletions.name = past.countP Step.deletes ∧
      past.countP Step.generates = c.count Event.deletions.name + stats.textures) ∧
    (c.count Event.reclaimedBytes.name = Word.total (past.map Step.replacedBytes) ∧
      c.count Event.reclaimedBytes.name =
        Word.total ((past.filter Step.endsFrame).map (·.before.pending)) + c.pending ∧
      c.pending = frameBytes past) ∧
    ((past.filter Step.endsFrame).map (·.before.pending) = frameTotals past ∧
      ∃ w, c.window = .on w ∧
        w.toList = ((frameTotals past).take (max s.metricsWindow 1)).reverse ∧
        w.size = min (past.countP Step.endsFrame) (max s.metricsWindow 1) ∧
        w.mean = .ok (Word.total w.toList / w.size) ∧ w.peak = w.toList.max?.getD 0) := by
  have hv : c.Valid := hrun.valid (valid_of_ofSettings hstart)
  have hb : c.Bounded past.length := hrun.bounded hstart
  have hspent := hv.heap.spent_lt
  have hcount : ∀ e, c.count (Event.name e) = Word.total (past.map (·.adds e)) :=
    hrun.count_eq hstart
  have hdeletions : c.count Event.deletions.name = past.countP Step.deletes :=
    (hcount .deletions).trans (Word.total_map_toNat _ _)
  have hbytes : c.count Event.reclaimedBytes.name = Word.total (past.map Step.replacedBytes) :=
    hcount .reclaimedBytes
  refine ⟨?_, ⟨hbytes, ?_, hrun.pending_eq hstart⟩, hrun.pushed_eq hstart, ?_⟩
  · have hheld := hb.held_le
    refine ⟨_, hv.stats_eq (Nat.lt_of_le_of_lt hheld hspent), hrun.reclaims_eq hstart,
      (hcount .reclaims).trans (Word.total_map_toNat _ _),
      (hcount .definitions).trans (Word.total_map_toNat _ _), hdeletions, ?_⟩
    rw [hdeletions]
    exact hrun.textures_eq hstart
  · rw [hbytes, total_replacedBytes, hrun.pushed_eq hstart, hrun.pending_eq hstart]
  · obtain ⟨w, hw, hcapacity, ht⟩ := hrun.window_tracks hstart
    have hwindow := hb.window_le
    rw [hw] at hwindow
    have htotal : w.total < Word.limit :=
      Nat.lt_of_le_of_lt (Nat.le_trans (Nat.le_add_left _ _) hwindow) hspent
    refine ⟨w, hw, ?_, ?_, ?_, Window.peak_eq⟩
    · rw [ht.toList_eq, hcapacity]
    · rw [ht.size_eq, hcapacity, length_frameTotals, Nat.min_comm]
    · rw [Window.mean_eq htotal, ht.valid.length_toList]

end Run

/-- Two frames and a window for one: a block is replaced in the first frame, and two are in the
second. -/
theorem accounts_balance_after_wrap : ∃ c₀ past c w,
    ofSettings { Settings.standard with metricsWindow := 1 } (.ofBudgets .standard) = .ok (.ok c₀) ∧
    Run c₀ past c ∧ past.countP Step.replaces = 3 ∧ frameTotals past = [64, 32] ∧
    c.count Event.reclaimedBytes.name = 96 ∧ c.window = .on w ∧ w.toList = [64] ∧
    w.mean = .ok 64 := by
  have hstart : ofSettings { Settings.standard with metricsWindow := 1 } (.ofBudgets .standard) =
      .ok (.ok (start { Settings.standard with metricsWindow := 1 } (.ofBudgets .standard))) := by
    rfl
  obtain ⟨past, c, hrun, htest⟩ := Trace.exists_of_reaches perform
    [.generate, .bind ⟨0, 0⟩, .define .abgr8888 4 1, .sample, .resolve, .resolve, .endFrame,
      .sample, .resolve, .sample, .resolve, .endFrame]
    (show Trace.reaches perform (start { Settings.standard with metricsWindow := 1 } (.ofBudgets .standard)) _
      (fun past _ => past.countP Step.replaces = 3 && frameTotals past = [64, 32] &&
        Word.total (past.map Step.replacedBytes) = 96) = true by decide +kernel)
  simp only [Bool.and_eq_true, decide_eq_true_eq] at htest
  obtain ⟨⟨hreplaces, htotals⟩, hbytes⟩ := htest
  obtain ⟨-, ⟨hsum, -⟩, -, w, hw, hlist, hsize, hmean, -⟩ := accounts_balance hstart hrun
  rw [htotals] at hlist
  have hshown : w.toList = [64] := hlist
  have hone : w.size = 1 := by
    rw [hsize, ← length_frameTotals, htotals]
    rfl
  rw [hshown, hone] at hmean
  exact ⟨_, past, c, w, hstart, hrun, hreplaces, htotals, hsum.trans hbytes, hw, hshown, hmean⟩

end TextureMemory.Context
