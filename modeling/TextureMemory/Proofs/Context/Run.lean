import TextureMemory.Proofs.Context.Invariant
import TextureMemory.Proofs.Trace

/-!
# Runs

A run is a context that settings set up on a fresh heap, and any calls after it, each of which
answered. Nothing is assumed of the calls: they may fail, and some of them may go to the heap behind
the back of the textures. Every context of a run is valid (`Context.Run.valid`), so an invariant of
runs is shown by going through `Context.Effect` once (`Context.Run.induct`).
-/

namespace TextureMemory.Context

/-- A call on a context with its answer, and the contexts before and after it. -/
abbrev Step := Call Context Action Answer

/-- The context that the calls of a list led to, the latest call first. -/
abbrev Run : Context → List Step → Context → Prop := Trace perform

/-- Whether a call answers with `told`. -/
def answers (c : Context) (action : Action) (told : Answer) : Bool :=
  match c.perform action with
  | .ok (answer, _) => answer = told
  | .error _ => false

/-- Whether a call hands out or takes back blocks behind the back of the textures. -/
def Action.meddles : Action → Bool
  | .heap (.allocate ..) | .heap (.free _) => true
  | _ => false

/-- The context that settings set up on a heap, if they are accepted. -/
def start (s : Settings) (heap : Heap) : Context where
  policy := ⟨s.purgeThreshold, s.alignUnit, s.memoryClass⟩
  arena := .empty
  units := ⟨0, Array.replicate s.textureUnits none⟩
  heap
  frame := 0
  reclaims := 0
  pending := 0
  tally := .on .empty
  window := .on (.empty s.metricsWindow)

variable {c₀ c c' : Context} {past : List Step} {action : Action} {told : Answer}
  {s : Settings} {heap : Heap} {budgets : Budgets}

/-! ## The start of a run -/

/-- Accepted settings set up a context, unless a table would be too large for any memory. -/
theorem ofSettings_of_validate (h : s.validate = .ok ()) : ofSettings s heap =
    if s.textureUnits * Units.width < Extent.limit ∧
        max s.metricsWindow 1 * Extent.word < Extent.limit then
      .ok (.ok (start s heap))
    else .error .tooLarge := by
  have hpolicy : s.policy = .ok ⟨s.purgeThreshold, s.alignUnit, s.memoryClass⟩ := by
    rw [Settings.policy, Policy.choose, Alignment.require_eq_ok (Settings.validate_eq_ok_iff.mp h).1]
    rfl
  rw [ofSettings, h]
  simp only [hpolicy, Units.ofCount, Window.ofCapacity, Extent.require, Fault.ok_bind]
  symm
  by_cases hunits : s.textureUnits * Units.width < Extent.limit
  · by_cases hwindow : max s.metricsWindow 1 * Extent.word < Extent.limit
    · rw [if_pos ⟨hunits, hwindow⟩, if_pos hunits, if_pos hwindow]
      rfl
    · rw [if_neg fun h => hwindow h.2, if_pos hunits, if_neg hwindow]
      rfl
  · rw [if_neg fun h => hunits h.1, if_neg hunits]
    rfl

/-- Settings that set up a context were accepted, and this is the context. -/
theorem eq_start (h : ofSettings s heap = .ok (.ok c)) :
    s.validate = .ok () ∧ c = start s heap := by
  cases hvalidate : s.validate with
  | error e =>
    rw [ofSettings, hvalidate] at h
    cases h
  | ok u =>
    refine ⟨rfl, ?_⟩
    rw [ofSettings_of_validate hvalidate] at h
    split at h
    · cases h
      rfl
    · cases h

theorem get?_start {slot : Slot} : (start s heap).arena.get? slot = none :=
  Arena.get?_eq_none (by simp [start, Arena.empty])

/-- A context is valid at first, if its settings passed the checks. -/
theorem start_valid (h : s.validate = .ok ()) : (start s (.ofBudgets budgets)).Valid where
  heap := Heap.ofBudgets_valid budgets
  arena := Arena.empty_valid
  owns := Arena.empty_owns
  unit := (Settings.validate_eq_ok_iff.mp h).1
  active_lt := by
    rw [Units.count]
    simpa [start] using (Settings.validate_eq_ok_iff.mp h).2
  tally := Tally.empty_valid
  window := Window.empty_valid _

/-- So is every context that settings set up. -/
theorem valid_of_ofSettings (h : ofSettings s (.ofBudgets budgets) = .ok (.ok c)) : c.Valid := by
  obtain ⟨hvalidate, rfl⟩ := eq_start h
  exact start_valid hvalidate

/-! ## Along a run -/

/-- Every context of a run is valid. -/
theorem Run.valid (hrun : Run c₀ past c) (hv : c₀.Valid) : c.Valid :=
  hrun.invariant (fun hv hperform => (hv.effect hperform).valid hv) hv

/-- What holds at the start and is kept by every effect of a call that is as all calls of a run are holds
along that run. -/
theorem Run.induct_mem {Q : Step → Prop} {P : List Step → Context → Prop} (hrun : Run c₀ past c)
    (hv : c₀.Valid) (hall : ∀ step ∈ past, Q step) (hstart : P [] c₀)
    (hnext : ∀ {past c action told c'}, c.Valid → P past c → Effect c action told c' →
      Q ⟨c, action, told, c'⟩ → P (⟨c, action, told, c'⟩ :: past) c') : P past c := by
  induction hrun with
  | start => exact hstart
  | next hrun hperform ih =>
    have hvalid := Run.valid hrun hv
    have hbefore := ih fun step hmem => hall step (List.mem_cons_of_mem _ hmem)
    exact hnext hvalid hbefore (hvalid.effect hperform) (hall _ List.mem_cons_self)

/-- What holds at the start and is kept by every effect of a call holds along every run. -/
theorem Run.induct {P : List Step → Context → Prop} (hrun : Run c₀ past c) (hv : c₀.Valid)
    (hstart : P [] c₀)
    (hnext : ∀ {past c action told c'}, c.Valid → P past c → Effect c action told c' →
      P (⟨c, action, told, c'⟩ :: past) c') : P past c :=
  hrun.induct_mem (Q := fun _ => True) hv (fun _ _ => trivial) hstart
    fun hv hp he _ => hnext hv hp he

/-- What holds of a context that was just set up and is kept by every effect of a call holds along
every run. -/
theorem Run.induct_of_start {P : List Step → Context → Prop}
    (hstart : ofSettings s (.ofBudgets budgets) = .ok (.ok c₀)) (hrun : Run c₀ past c)
    (hfirst : P [] (Context.start s (.ofBudgets budgets)))
    (hnext : ∀ {past c action told c'}, c.Valid → P past c → Effect c action told c' →
      P (⟨c, action, told, c'⟩ :: past) c') : P past c := by
  have hvalid := valid_of_ofSettings hstart
  obtain ⟨-, rfl⟩ := eq_start hstart
  exact hrun.induct hvalid hfirst hnext

/-- The settings of a run stay the same. -/
theorem Run.policy_eq (hrun : Run c₀ past c) (hv : c₀.Valid) : c.policy = c₀.policy :=
  hrun.induct (P := fun _ c => c.policy = c₀.policy) hv rfl fun _ hp he => he.policy_eq.trans hp

/-- Every call of a run was performed on a valid context. -/
theorem Run.effect_of_mem {step : Step} (hrun : Run c₀ past c) (hv : c₀.Valid) (hmem : step ∈ past) :
    step.before.Valid ∧ Effect step.before step.action step.answer step.after := by
  obtain ⟨later, earlier, rfl⟩ := List.append_of_mem hmem
  obtain ⟨hearlier, hperform, -⟩ := hrun.split
  have hvalid := Run.valid hearlier hv
  exact ⟨hvalid, hvalid.effect hperform⟩

/-- A call that is tested to answer does. -/
theorem exists_perform_of_answers (h : c.answers action told = true) :
    ∃ c', c.perform action = .ok (told, c') := by
  rw [answers] at h
  split at h
  · next answer c' hperform => exact ⟨c', by rw [hperform, of_decide_eq_true h]⟩
  · cases h

end TextureMemory.Context
