import TextureMemory.Proofs.Fault

/-!
# Traces

Calls on a state, one after the other, each of which answered. A trace lists them with what they found
and what they left, so that what a state has come to can be told from what was done to it. It says
nothing of what the calls are: `perform` is any function that performs one.
-/

namespace TextureMemory

variable {σ α β : Type}

/-- A call with its answer, the state that it found and the one that it left. -/
structure Call (σ α β : Type) where
  before : σ
  action : α
  answer : β
  after : σ

/-- The state that the calls of a list led to, the latest call first. -/
inductive Trace (perform : σ → α → Except Fault (β × σ)) (s₀ : σ) : List (Call σ α β) → σ → Prop
  | start : Trace perform s₀ [] s₀
  | next {past s action told s'} (htrace : Trace perform s₀ past s)
      (hperform : perform s action = .ok (told, s')) :
      Trace perform s₀ (⟨s, action, told, s'⟩ :: past) s'

namespace Trace

/-- Performs calls, and lists them with what they answer and leave, the latest first. -/
def play (perform : σ → α → Except Fault (β × σ)) (past : List (Call σ α β)) (s : σ) :
    List α → Except Fault (List (Call σ α β) × σ)
  | [] => return (past, s)
  | action :: rest => do
    let (told, s') ← perform s action
    play perform (⟨s, action, told, s'⟩ :: past) s' rest

/-- Whether calls can be performed and lead to a trace that passes a test. -/
def reaches (perform : σ → α → Except Fault (β × σ)) (s : σ) (actions : List α)
    (test : List (Call σ α β) → σ → Bool) : Bool :=
  match play perform [] s actions with
  | .ok (past, s') => test past s'
  | .error _ => false

variable {perform : σ → α → Except Fault (β × σ)} {s₀ s s' : σ} {past past' : List (Call σ α β)}
  {told : β}

/-- A call that answers is the next one that is played. -/
theorem play_cons {action : α} {rest : List α} (h : perform s action = .ok (told, s')) :
    play perform past s (action :: rest) = play perform (⟨s, action, told, s'⟩ :: past) s' rest := by
  rw [play, h]
  rfl

/-- A trace goes on from the state that any of its calls left. -/
theorem split {later earlier : List (Call σ α β)} {call : Call σ α β}
    (htrace : Trace perform s₀ (later ++ call :: earlier) s) :
    Trace perform s₀ earlier call.before ∧
      perform call.before call.action = .ok (call.answer, call.after) ∧
      Trace perform call.after later s := by
  induction later generalizing s with
  | nil =>
    cases htrace with
    | next hearlier hperform => exact ⟨hearlier, hperform, .start⟩
  | cons last later ih =>
    cases htrace with
    | next htrace hperform =>
      obtain ⟨hearlier, hcall, hlater⟩ := ih htrace
      exact ⟨hearlier, hcall, hlater.next hperform⟩

/-- A trace goes on with one that starts where it ends. -/
theorem trans {later : List (Call σ α β)} (htrace : Trace perform s₀ past s)
    (hlater : Trace perform s later s') : Trace perform s₀ (later ++ past) s' := by
  induction hlater with
  | start => exact htrace
  | next _ hperform ih => exact ih.next hperform

/-- What the first state has and every call keeps, all states of a trace have. -/
theorem invariant {V : σ → Prop} (htrace : Trace perform s₀ past s)
    (hkeep : ∀ {s action told s'}, V s → perform s action = .ok (told, s') → V s')
    (hstart : V s₀) : V s := by
  induction htrace with
  | start => exact hstart
  | next _ hperform ih => exact hkeep ih hperform

/-- An induction along a trace whose states have a property `V`, and whose calls have an effect `E` on
states that have it. -/
theorem induct {V : σ → Prop} {E : σ → α → β → σ → Prop} {P : List (Call σ α β) → σ → Prop}
    (htrace : Trace perform s₀ past s)
    (heffect : ∀ {s action told s'}, V s → perform s action = .ok (told, s') →
      E s action told s' ∧ V s')
    (hv : V s₀) (hstart : P [] s₀)
    (hnext : ∀ {past s action told s'}, V s → P past s → E s action told s' →
      P (⟨s, action, told, s'⟩ :: past) s') : P past s := by
  induction htrace with
  | start => exact hstart
  | next htrace hperform ih =>
    have hvalid := htrace.invariant (fun hv h => (heffect hv h).2) hv
    exact hnext hvalid ih (heffect hvalid hperform).1

/-- Calls that were played make a trace longer. -/
theorem of_play {actions : List α} (htrace : Trace perform s₀ past s)
    (h : play perform past s actions = .ok (past', s')) : Trace perform s₀ past' s' := by
  induction actions generalizing past s with
  | nil =>
    cases h
    exact htrace
  | cons action rest ih =>
    obtain ⟨⟨told, after⟩, hperform, hrest⟩ := Fault.bind_eq_ok_iff.mp h
    exact ih (htrace.next hperform) hrest

/-- Calls that can be performed can be played. -/
theorem exists_play_of_reaches (perform : σ → α → Except Fault (β × σ)) {s₀ : σ} (actions : List α)
    {test : List (Call σ α β) → σ → Bool} (h : reaches perform s₀ actions test = true) :
    ∃ past s, play perform [] s₀ actions = .ok (past, s) ∧ test past s = true := by
  rw [reaches] at h
  split at h
  · next past s hplay => exact ⟨past, s, hplay, h⟩
  · cases h

/-- Calls that can be performed make up a trace. -/
theorem exists_of_reaches (perform : σ → α → Except Fault (β × σ)) {s₀ : σ} (actions : List α)
    {test : List (Call σ α β) → σ → Bool} (h : reaches perform s₀ actions test = true) :
    ∃ past s, Trace perform s₀ past s ∧ test past s = true := by
  obtain ⟨past, s, hplay, htest⟩ := exists_play_of_reaches perform actions h
  exact ⟨past, s, start.of_play hplay, htest⟩

end Trace

end TextureMemory
