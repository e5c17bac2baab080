import TextureMemory.Proofs.Context.Image

/-!
# Measuring changes nothing

What is measured is written by texture calls and read by none of them, so a context that measures nothing
answers every call as one that measures does (`Context.measuring_inert`). The other way round this does
not hold: a tally or a window may halt the program, and where nothing is measured they do not.

So the two are compared in one direction: where the call on the one context answers, the call on the other
answers the same and leaves the same, with nothing measured. A context with nothing measured is the image
of itself in which no frames have passed (`Context.image_zero`), and calls on the image follow
(`Context.play_image`).
-/

namespace TextureMemory

namespace Context

/-- The context that settings set up on a heap, with or without measuring. -/
def setUp (measuring : Bool) (s : Settings) (heap : Heap) :
    Except Fault (Except SettingsError Context) := do
  match s.validate with
  | .error e => return .error e
  | .ok () =>
    return .ok {
      policy := ← s.policy
      arena := .empty
      units := ← Units.ofCount s.textureUnits
      heap
      frame := 0
      reclaims := 0
      pending := 0
      tally := ← Recorder.start measuring (.ok .empty)
      window := ← Recorder.start measuring (Window.ofCapacity Extent.word s.metricsWindow) }

/-- A call as it is where nothing is measured. -/
def Step.mute (step : Step) : Step :=
  { step with before := step.before.mute, after := step.after.mute }

/-- What can be seen of a context apart from what is measured: the textures, the units, the memory, the
frame and the summary. -/
def seen (c : Context) : Arena × Units × Heap × Nat × Except Fault Stats :=
  (c.arena, c.units, c.heap, c.frame, c.stats)

/-- What is measured shows nothing. -/
structure Silent (c : Context) : Prop where
  count : ∀ name, c.count name = 0
  names : c.tally.toList = []
  size : c.window.size = 0
  isEmpty : c.window.isEmpty = true
  mean : c.window.mean = .ok 0
  peak : c.window.peak = 0

variable {c₀ c : Context} {past : List Step} {s : Settings} {heap : Heap} {actions : List Action}

/-- Where nothing is measured, nothing shows. -/
theorem mute_silent (c : Context) : c.mute.Silent := ⟨fun _ => rfl, rfl, rfl, rfl, rfl, rfl⟩

/-! ## Setting up -/

/-- Contexts measure unless they are told not to. -/
theorem ofSettings_eq_setUp : ofSettings s heap = setUp true s heap := by
  rw [ofSettings, setUp]
  cases s.validate with
  | error e => rfl
  | ok u =>
    cases s.policy with
    | error fault => rfl
    | ok policy =>
      cases Units.ofCount s.textureUnits with
      | error fault => rfl
      | ok units => cases Window.ofCapacity Extent.word s.metricsWindow <;> rfl

/-- A measurement that can be set up can be left out. -/
theorem start_off {α : Type} (x : Except Fault α) :
    Fault.Follows false (fun _ => .off) (Recorder.start true x) (Recorder.start false x) :=
  .of_answers fun _ _ => rfl

/-- A context that can be set up can be set up without measuring. -/
theorem setUp_mute (s : Settings) (heap : Heap) :
    Fault.Follows false (Except.map mute) (setUp true s heap) (setUp false s heap) := by
  rw [setUp, setUp]
  cases s.validate with
  | error e => exact .answer _
  | ok u =>
    refine .same fun policy => .same fun units => ?_
    exact (start_off _).bind fun tally => (start_off _).bind fun window => .answer _

/-! ## The calls -/

/-- With nothing measured, a context is the image of itself in which no frames have passed. -/
theorem image_zero : image 0 false = mute := by
  funext c
  have harena : c.arena.later 0 = c.arena := c.arena.later_zero
  rw [image, harena]
  rfl

/-- A call on the image is the call with nothing measured. -/
theorem Step.image_zero : Step.image 0 false = Step.mute := by
  funext step
  rw [Step.image, Context.image_zero, Answer.later_zero]
  rfl

/-- Calls that can be played can be played where nothing is measured, with the same answers. -/
theorem play_mute (c : Context) (actions : List Action) :
    Fault.Follows false (Prod.map (List.map Step.mute) mute) (Trace.play perform [] c actions)
      (Trace.play perform [] c.mute actions) := by
  have hfollows : Fault.Follows false (Prod.map (List.map (Step.image 0 false)) (image 0 false))
      (Trace.play perform [] c actions) (Trace.play perform [] (c.image 0 false) actions) :=
    play_image [] c actions fun h => absurd h (Nat.lt_irrefl 0)
  rwa [image_zero, Step.image_zero] at hfollows

/-- **Measuring changes nothing.** If settings set up a context, and calls of any kind can be performed on
it, none of which halts the program, then with nothing measured

* the settings set up the same context, and the same calls can be performed, one after the other, with the
  same answers and with the same contexts between them;
* what can be seen of each of these, other than by measuring, is the same: the textures, the units, the
  memory, the frame and the summary;
* what is measured shows as zero, or as empty. -/
theorem measuring_inert (hstart : ofSettings s heap = .ok (.ok c₀))
    (hplay : Trace.play perform [] c₀ actions = .ok (past, c)) :
    setUp false s heap = .ok (.ok c₀.mute) ∧
    Trace.play perform [] c₀.mute actions = .ok (past.map Step.mute, c.mute) ∧
    ∀ d : Context, d.mute.seen = d.seen ∧ d.mute.Silent := by
  rw [ofSettings_eq_setUp] at hstart
  exact ⟨(setUp_mute s heap).answers _ hstart, (play_mute c₀ actions).answers _ hplay,
    fun d => ⟨rfl, mute_silent d⟩⟩

/-- A frame in which a block was replaced and another was not to be had is answered the same without a
tally and a window. -/
theorem measuring_inert_after_frame : ∃ (actions : List Action) (past : List Step) (c₀ c : Context),
    ofSettings .standard (.ofBudgets ⟨0, 100, 0, 0, 0⟩) = .ok (.ok c₀) ∧
    Trace.play perform [] c₀ actions = .ok (past, c) ∧ c.count Event.reclaims.name = 1 ∧
    c.count Event.allocFailures.name = 1 ∧ c.window.peak = 32 ∧
    ∃ d₀ d, setUp false .standard (.ofBudgets ⟨0, 100, 0, 0, 0⟩) = .ok (.ok d₀) ∧
      Trace.play perform [] d₀ actions = .ok (past.map Step.mute, d) ∧ d.seen = c.seen ∧ d.Silent := by
  have hstart : ofSettings .standard (.ofBudgets ⟨0, 100, 0, 0, 0⟩) =
      .ok (.ok (start .standard (.ofBudgets ⟨0, 100, 0, 0, 0⟩))) := by rfl
  obtain ⟨past, c, hplay, htest⟩ := Trace.exists_play_of_reaches perform
    [.generate, .bind ⟨0, 0⟩, .define .abgr8888 5 1, .sample, .resolve, .define .abgr8888 5 3,
      .endFrame]
    (show Trace.reaches perform (start .standard (.ofBudgets ⟨0, 100, 0, 0, 0⟩)) _ (fun _ c =>
      c.count Event.reclaims.name = 1 && c.count Event.allocFailures.name = 1 &&
        c.window.peak = 32) = true by decide +kernel)
  simp only [Bool.and_eq_true, decide_eq_true_eq] at htest
  obtain ⟨⟨hreclaims, hfailures⟩, hpeak⟩ := htest
  obtain ⟨hsetUp, hmuted, hsame⟩ := measuring_inert hstart hplay
  obtain ⟨hseen, hsilent⟩ := hsame c
  exact ⟨_, past, _, c, hstart, hplay, hreclaims, hfailures, hpeak, _, _, hsetUp, hmuted, hseen,
    hsilent⟩

end Context

end TextureMemory
