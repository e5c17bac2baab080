import TextureMemory.Proofs.Context.Run

/-!
# Calls that fail

A call may fail after it was given a new block, when the old one turns out not to be in use. The new
block is then taken back, and nothing tells this failure from one at the start but the cursor of the
heap and the tally of failures. So whoever is told of an error may go on as if there had been no call.
-/

namespace TextureMemory.Context

variable {c₀ c c' : Context} {past : List Step} {action : Action} {cause : TextureError}
  {s : Settings} {budgets : Budgets} {tally : Recorder Tally} {event : Event} {n : Nat}

/-- The names of a tally with their sums, but for one name. -/
def talliedBut (c : Context) (event : Event) : List (String × Nat) :=
  (c.tally.toList).filter (·.1 ≠ event.name)

/-- Tallying an event touches nothing that is tallied under other names. -/
theorem talliedBut_of_update (hv : c.tally.Holds Tally.Valid)
    (h : c.tally.update (·.add event.name n) = .ok tally) :
    { c with tally }.talliedBut event = c.talliedBut event ∧
      ∀ name ≠ event.name, { c with tally }.count name = c.count name := by
  rcases Recorder.update_eq_ok_iff.mp h with ⟨t, t', ht, hadd, rfl⟩ | ⟨ht, rfl⟩
  · rw [ht] at hv
    constructor
    · rw [talliedBut, talliedBut, ht]
      exact Tally.Valid.filter_of_add hv hadd
    · intro name hname
      rw [count, count, ht]
      have hget := Tally.Valid.get_of_add hv hadd name
      rwa [if_neg hname, Nat.add_zero] at hget
  · -- Nothing is tallied, before or after.
    rw [talliedBut, talliedBut, ht]
    refine ⟨rfl, ?_⟩
    intro name _
    rw [count, count, ht]

/-- What a call that fails has changed, whichever way it fails. -/
theorem Effect.eq_of_failed (he : Effect c action (.failed cause) c') (hv : c.Valid) :
    c' = { c with heap := { c.heap with cursor := c'.heap.cursor }, tally := c'.tally } ∧
    c'.talliedBut .allocFailures = c.talliedBut .allocFailures ∧
    ∀ name ≠ Event.allocFailures.name, c'.count name = c.count name := by
  cases he with
  | reject | keep => exact ⟨rfl, rfl, fun _ _ => rfl⟩
  | exhaust _ _ _ htally => exact ⟨rfl, talliedBut_of_update hv.tally htally⟩
  | stray _ _ _ _ hcounts =>
    -- The new block has gone back, so of the heap the cursor alone has changed.
    refine ⟨rfl, ?_⟩
    cases hcounts with
    | define => exact ⟨rfl, fun _ _ => rfl⟩
    | resolve htally => exact talliedBut_of_update hv.tally htally

/-- **A call that fails leaves everything as it was.** After any run, a call that fails may have moved
the cursor of the heap and added to the tally of failures. The textures, the units, the frame, what
was replaced so far, the window, the other tallies, and the blocks in use with their bytes and what
each pool is charged are those of before. -/
theorem failed_call_eq (hstart : ofSettings s (.ofBudgets budgets) = .ok (.ok c₀))
    (hrun : Run c₀ past c) (hfailed : c.perform action = .ok (.failed cause, c')) :
    c' = { c with heap := { c.heap with cursor := c'.heap.cursor }, tally := c'.tally } ∧
    c'.talliedBut .allocFailures = c.talliedBut .allocFailures ∧
    ∀ name ≠ Event.allocFailures.name, c'.count name = c.count name := by
  have hvalid := hrun.valid (valid_of_ofSettings hstart)
  exact (hvalid.effect hfailed).eq_of_failed hvalid

/-- A texture whose block was given back behind its back cannot be defined again: the new block is
there when the old one turns out to be gone. -/
theorem failed_call_eq_after_stray_free : ∃ c₀ past c c',
    ofSettings .standard (.ofBudgets .standard) = .ok (.ok c₀) ∧ Run c₀ past c ∧
    c.perform (.define .abgr8888 4 1) =
      .ok (.failed (.memory (.notLive ⟨0x81000000, by decide⟩)), c') ∧
    c' = { c with heap := { c.heap with cursor := c'.heap.cursor }, tally := c'.tally } := by
  have hstart : ofSettings .standard (.ofBudgets .standard) =
      .ok (.ok (start .standard (.ofBudgets .standard))) := by rfl
  obtain ⟨past, c, hrun, hanswers⟩ := Trace.exists_of_reaches perform
    [.generate, .bind ⟨0, 0⟩, .define .abgr8888 4 1, .heap (.free ⟨0x81000000, by decide⟩)]
    (show Trace.reaches perform (start .standard (.ofBudgets .standard)) _
      (fun _ c => c.answers (.define .abgr8888 4 1)
        (.failed (.memory (.notLive ⟨0x81000000, by decide⟩)))) = true by decide +kernel)
  obtain ⟨c', hfailed⟩ := exists_perform_of_answers hanswers
  exact ⟨_, past, c, c', hstart, hrun, hfailed, (failed_call_eq hstart hrun hfailed).1⟩

end TextureMemory.Context
