import TextureMemory.Proofs.Heap.Calls
import TextureMemory.Proofs.Trace

/-!
# Runs of a heap

The calls on a heap, one after the other: asking for blocks, giving them back, and writing to them.
Every heap of a run is valid, so what is shown of every `Heap.Effect` holds along a run. A block in use
stays where it is until it is given back, in its pool and with its size, and its bytes are those that
were written to it last (`Heap.Run.block?_of_live`).
-/

namespace TextureMemory.Heap

/-- A call on a heap with its answer, and the heaps before and after it. -/
abbrev Step := Call Heap Action Answer

/-- The heap that the calls of a list led to, the latest call first. -/
abbrev Run : Heap → List Step → Heap → Prop := Trace perform

/-- What a call makes of the bytes of the block at an address. Only writing to it changes them. -/
def Step.overwrite (step : Step) (p : Address) (bytes : Buffer) : Buffer :=
  match step.action, step.answer with
  | .write a offset data, .written _ => if a = p then bytes.overwrite offset data else bytes
  | _, _ => bytes

/-- What the calls of a list, the latest first, make of the bytes of the block at an address. -/
def overwritten (past : List Step) (p : Address) (bytes : Buffer) : Buffer :=
  past.foldr (fun step => Step.overwrite step p) bytes

variable {h₀ h h' : Heap} {past : List Step} {action : Action} {answer : Answer} {p : Address}
  {b : Block} {bytes : Buffer} {size : Nat} {budgets : Budgets}

/-! ## One call -/

/-- What a call on a valid heap that answers has done. -/
theorem Valid.effect (hv : h.Valid) (hperform : h.perform action = .ok (answer, h')) :
    Effect h action answer h' := by
  rcases hv.perform_cases action with ⟨answer', h'', heq, he⟩ | ⟨size, request, -, -, heq⟩
  · rw [heq] at hperform
    cases hperform
    exact he
  · rw [heq] at hperform
    cases hperform

/-- No call changes the budgets. -/
theorem Effect.budgets_eq (he : Effect h action answer h') : h'.budgets = h.budgets := by
  cases he <;> rfl

/-- A call makes a block neither longer nor shorter. -/
theorem Step.size_overwrite {step : Step} : (Step.overwrite step p bytes).size = bytes.size := by
  unfold Step.overwrite
  split
  · split
    · exact Buffer.size_overwrite
    · rfl
  · rfl

/-- A block never changes its size. -/
theorem size_overwritten : (overwritten past p bytes).size = bytes.size := by
  induction past with
  | nil => rfl
  | cons step past ih => exact Step.size_overwrite.trans ih

/-- Bytes are overwritten by the earlier calls first. -/
theorem overwritten_append {later : List Step} :
    overwritten (later ++ past) p bytes = overwritten later p (overwritten past p bytes) :=
  List.foldr_append

/-- A block that is handed out begins at the cursor and is full of zeros. -/
theorem Effect.allocated (he : Effect h action (.allocated p) h') :
    ∃ size request pool, action = .allocate size request ∧ pool ∈ request.candidates ∧
      h'.block? p = some ⟨p, pool, Array.replicate size 0⟩ := by
  cases he with
  | @allocate size request pool _ hgrants =>
    refine ⟨size, request, pool, rfl, hgrants.mem, ?_⟩
    rw [block?_extend, if_pos rfl]

/-- A block stays in use until it is given back. Its bytes change when someone writes to it. -/
theorem Effect.block?_of_live (he : Effect h action answer h') (hv : h.Valid)
    (hb : h.block? p = some b) (hkept : action ≠ .free p) :
    h'.block? p =
      some { b with bytes := Step.overwrite ⟨h, action, answer, h'⟩ p b.bytes } := by
  cases he with
  | allocate =>
    have hcursor : h.cursor ≠ p := by
      rintro rfl
      rw [hv.block?_eq_none (Nat.le_refl _)] at hb
      cases hb
    rw [block?_extend, if_neg hcursor]
    exact hb
  | @free a freed hfreed =>
    -- The block that was given back begins at another address.
    have hne : p ≠ freed.address := by
      rw [(mem_of_block?_eq_some hfreed).2]
      rintro rfl
      exact hkept rfl
    rw [block?_without, if_neg hne]
    exact hb
  | @write a written offset data hwritten =>
    obtain ⟨-, rfl⟩ := mem_of_block?_eq_some hb
    simp only [Step.overwrite, block?_setBytes, hb, Option.map_some]
    by_cases hba : b.address = a
    · rw [if_pos hba, if_pos hba.symm]
      rw [hba, hwritten] at hb
      cases hb
      rfl
    · rw [if_neg hba, if_neg (Ne.symm hba)]
  | refuse | stray | deny => exact hb

/-- A block that is in use after a call was in use before and was not given back, or the call handed
it out. -/
theorem Effect.live_cases (he : Effect h action answer h') (hlive : (h'.block? p).isSome) :
    (h.block? p).isSome ∧ action ≠ .free p ∨ answer = .allocated p := by
  cases he with
  | allocate =>
    rw [block?_extend] at hlive
    split at hlive
    · next hcursor => exact .inr (by rw [hcursor])
    · exact .inl ⟨hlive, nofun⟩
  | free hfreed =>
    rw [block?_without, (mem_of_block?_eq_some hfreed).2] at hlive
    split at hlive
    · cases hlive
    · next hne =>
      refine .inl ⟨hlive, ?_⟩
      rintro ⟨⟩
      exact hne rfl
  | stray hdead =>
    refine .inl ⟨hlive, ?_⟩
    rintro ⟨⟩
    rw [hdead] at hlive
    cases hlive
  | write =>
    rw [block?_setBytes, Option.isSome_map] at hlive
    exact .inl ⟨hlive, nofun⟩
  | refuse | deny => exact .inl ⟨hlive, nofun⟩

/-! ## Along a run -/

/-- Every heap of a run is valid. -/
theorem Run.valid (hrun : Run h₀ past h) (hv : h₀.Valid) : h.Valid :=
  hrun.invariant (fun hv hperform => (hv.effect hperform).valid hv) hv

/-- What holds at the start and is kept by every effect of a call holds along every run. -/
theorem Run.induct {P : List Step → Heap → Prop} (hrun : Run h₀ past h) (hv : h₀.Valid)
    (hstart : P [] h₀)
    (hnext : ∀ {past h action answer h'}, h.Valid → P past h → Effect h action answer h' →
      P (⟨h, action, answer, h'⟩ :: past) h') : P past h := by
  refine Trace.induct hrun ?_ hv hstart hnext
  intro h action answer h' hv hperform
  have he := hv.effect hperform
  exact ⟨he, he.valid hv⟩

/-- The budgets of a run stay the same. -/
theorem Run.budgets_eq (hrun : Run h₀ past h) (hv : h₀.Valid) : h.budgets = h₀.budgets :=
  Run.induct (P := fun _ h => h.budgets = h₀.budgets) hrun hv rfl
    fun _ hp he => he.budgets_eq.trans hp

/-- A block that is not given back is in use, in its pool and with its size. -/
theorem Run.block?_of_live (hrun : Run h₀ past h) (hv : h₀.Valid) (hb : h₀.block? p = some b)
    (hkept : ∀ step ∈ past, step.action ≠ .free p) :
    h.block? p = some { b with bytes := overwritten past p b.bytes } := by
  induction hrun with
  | start => exact hb
  | next hrun hperform ih =>
    have hvBefore := Run.valid hrun hv
    have hbefore := ih fun step hmem => hkept step (List.mem_cons_of_mem _ hmem)
    exact (hvBefore.effect hperform).block?_of_live hvBefore hbefore (hkept _ List.mem_cons_self)

end TextureMemory.Heap
