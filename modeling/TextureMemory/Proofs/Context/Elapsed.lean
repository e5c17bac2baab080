import TextureMemory.Proofs.Context.Image

/-!
# Only elapsed frames matter

No call looks at the number of a frame for itself. A stamp is compared with the current frame, and what
counts is how many frames lie between them. So if a context is taken `k` frames later, with all stamps that
name a frame, every call on it does what it would have done, and whatever frames it tells or stamps are
`k` frames later too (`Context.elapsed_frames_only`).

The one exception is the end of the last frame that a word can number, which comes `k` frames sooner
(`Context.overruns`).

`Context.later` takes a context so many frames later. It is the image of the context that measures what the
context does, so calls on it follow strictly (`Context.play_image`).
-/

namespace TextureMemory

namespace Context

variable {k : Nat}

/-- The context so many frames later, with all stamps that name a frame. -/
def later (k : Nat) (c : Context) : Context :=
  { c with arena := c.arena.later k, frame := c.frame + k }

/-- The call so many frames later. -/
def Step.later (k : Nat) (step : Step) : Step where
  before := step.before.later k
  action := step.action
  answer := step.answer.later k
  after := step.after.later k

/-- The summary so many frames later. -/
def Stats.later (k : Nat) (stats : Stats) : Stats := { stats with frame := stats.frame + k }

/-- The calls on the context so many frames later are those on the image that measures the same. -/
theorem play_later (c : Context) (actions : List Action)
    (h : (c.later k).overruns actions = false) :
    Fault.Follows true (Prod.map (List.map (Step.later k)) (later k)) (Trace.play perform [] c actions)
      (Trace.play perform [] (c.later k) actions) :=
  play_image [] c actions fun _ => h

/-- The summary names the later frame, and is the same otherwise. -/
theorem stats_later (c : Context) : (c.later k).stats = c.stats.map (Stats.later k) := by
  have hdefined : (c.later k).defined = c.defined.map (·.later k) := by
    have hlist : (c.later k).arena.toList = c.arena.toList.map (·.later k) := c.arena.toList_later
    rw [defined, hlist, List.filter_map]
    rfl
  have hfollows : Fault.Follows true (Stats.later k) c.stats (c.later k).stats := by
    rw [stats, stats, hdefined, List.mapM_map, List.length_map]
    exact .same fun sizes => .same fun bytes => .answer _
  exact hfollows.eq_map

/-- **Only elapsed frames matter.** Let a context, with all stamps that name a frame, be taken `k` frames
later. Calls of any kind that do not end the last frame of all then do, one after the other, what they
would have done, up to the same point:

* they answer the same slots, addresses and errors, and the numbers of frames that they answer are `k`
  higher;
* they leave the same contexts, so many frames later: the same textures but for their stamps, and the same
  bindings, memory, tallies, window and counts;
* in these, a slot names the same texture but for its stamp, and the summary is the same but for the frame. -/
theorem elapsed_frames_only (c : Context) (k : Nat) (actions : List Action)
    (h : (c.later k).overruns actions = false) :
    Trace.play perform [] (c.later k) actions =
      (Trace.play perform [] c actions).map (Prod.map (List.map (Step.later k)) (later k)) ∧
    ∀ d : Context,
      (∀ slot, (d.later k).arena.get? slot = (d.arena.get? slot).map (·.later k)) ∧
      (d.later k).stats = d.stats.map (Stats.later k) :=
  ⟨(play_later c actions h).eq_map, fun d => ⟨d.arena.get?_later, stats_later d⟩⟩

/-- A texture that was sampled in frame one is resolved in frame two, and again where these are frames
eight and nine. -/
theorem elapsed_frames_only_after_sample :
    ∃ (actions : List Action) (past calls : List Step) (c₀ c d : Context),
      ofSettings .standard (.ofBudgets .standard) = .ok (.ok c₀) ∧ Run c₀ past c ∧
      c.frame = 1 ∧ (c.later 7).overruns actions = false ∧ Trace.play perform [] c actions = .ok (calls, d) ∧
      d.reclaims = 1 ∧ calls.map (·.answer) = [.done, .failed (.undefined ⟨1, 0⟩), .done,
        .slot ⟨1, 0⟩, .address ⟨0x81000100, by decide⟩, .frame 2] ∧
      ∃ later d', Trace.play perform [] (c.later 7) actions = .ok (later, d') ∧ d'.reclaims = 1 ∧
        later.map (·.answer) = [.done, .failed (.undefined ⟨1, 0⟩), .done, .slot ⟨1, 0⟩,
          .address ⟨0x81000100, by decide⟩, .frame 9] := by
  have hstart : ofSettings .standard (.ofBudgets .standard) =
      .ok (.ok (start .standard (.ofBudgets .standard))) := by rfl
  obtain ⟨past, c, hrun, htest⟩ := Trace.exists_of_reaches perform
    [.generate, .bind ⟨0, 0⟩, .define .abgr8888 4 1, .endFrame, .sample]
    (show Trace.reaches perform (start .standard (.ofBudgets .standard)) _ (fun _ c => c.frame = 1 &&
      !(c.later 7).overruns
        [.endFrame, .resolve, .generate, .bind ⟨1, 0⟩, .resolve, .delete ⟨0, 0⟩] &&
      Trace.reaches perform c [.endFrame, .resolve, .generate, .bind ⟨1, 0⟩, .resolve, .delete ⟨0, 0⟩]
        fun calls d => d.reclaims = 1 && calls.map (·.answer) = [.done,
          .failed (.undefined ⟨1, 0⟩), .done, .slot ⟨1, 0⟩, .address ⟨0x81000100, by decide⟩,
          .frame 2]) = true by decide +kernel)
  simp only [Bool.and_eq_true, Bool.not_eq_true', decide_eq_true_eq] at htest
  obtain ⟨⟨hframe, hroom⟩, hreaches⟩ := htest
  obtain ⟨calls, d, hplay, hafter⟩ := Trace.exists_play_of_reaches perform _ hreaches
  simp only [Bool.and_eq_true, decide_eq_true_eq] at hafter
  obtain ⟨hreclaims, hanswers⟩ := hafter
  have hlater := (elapsed_frames_only c 7 _ hroom).1
  rw [hplay] at hlater
  refine ⟨_, past, calls, _, c, d, hstart, hrun, hframe, hroom, hplay, hreclaims, hanswers, _, _,
    hlater, hreclaims, ?_⟩
  have hmap : (calls.map (Step.later 7)).map (·.answer) =
      (calls.map (·.answer)).map (Answer.later 7) := by
    rw [List.map_map, List.map_map]
    rfl
  rw [hmap, hanswers]
  rfl

end Context

end TextureMemory
