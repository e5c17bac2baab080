import TextureMemory.Proofs.Context.History

/-!
# What the tallies of a run come to

A tally starts empty, and every call adds to the sum of each event what `Context.Step.adds` says. So
after a run the sum of an event is the sum over the calls (`Context.Run.count_eq`).
-/

namespace TextureMemory

/-! ## Sums over lists -/

theorem Word.total_map_add {α : Type} (f g : α → Nat) (l : List α) :
    total (l.map fun a => f a + g a) = total (l.map f) + total (l.map g) := by
  induction l with
  | nil => rfl
  | cons a l ih =>
    simp only [List.map_cons, total_cons, ih]
    omega

/-- Adding one for each element that passes a test counts them. -/
theorem Word.total_map_toNat {α : Type} (p : α → Bool) (l : List α) :
    total (l.map fun a => (p a).toNat) = l.countP p := by
  induction l with
  | nil => rfl
  | cons a l ih =>
    rw [List.map_cons, total_cons, ih, List.countP_cons]
    cases p a <;> simp [Nat.add_comm]

namespace Context

variable {c₀ c c' : Context} {past : List Step} {step : Step} {action : Action} {told : Answer}
  {slot : Slot} {t shape : Texture} {size : Nat} {pool : Pool} {cursor : Address}
  {cause : HeapError} {s : Settings} {budgets : Budgets} {event e : Event} {n : Nat}
  {tally : Recorder Tally}

/-! ## One more call -/

/-- A tally that is kept stays. -/
theorem Effect.tally_ne_off (he : Effect c action told c') (hon : c.tally ≠ .off) :
    c'.tally ≠ .off := by
  cases he with
  | renew _ _ _ hcounts =>
    cases hcounts with
    | define htally => exact Recorder.ne_off_of_update htally hon
    | resolve _ _ honce htally =>
      exact Recorder.ne_off_of_update htally (Recorder.ne_off_of_update honce hon)
  | delete _ _ _ _ _ htally | exhaust _ _ _ htally => exact Recorder.ne_off_of_update htally hon
  | stray _ _ _ _ hcounts =>
    cases hcounts with
    | define => exact hon
    | resolve htally => exact Recorder.ne_off_of_update htally hon
  | _ => exact hon

/-- What a call that gave a texture a new block has tallied. -/
theorem Counts.read_eq {reclaims pending : Nat} (hcounts : Counts c size action reclaims pending tally)
    (hrenews : Renews c action slot t shape size) (hv : c.Valid) (hon : c.tally ≠ .off)
    (hheap : c'.heap = (c.heap.extend size pool cursor).discard (t.backing.bind c.heap.block?)) :
    tally.get e.name =
      c.count e.name + Step.adds ⟨c, action, .address c.heap.cursor, c'⟩ e := by
  cases hcounts with
  | define htally =>
    rw [Recorder.read_of_update hv.tally hon htally, count]
    congr 1
    cases e <;> rfl
  | resolve _ _ honce htally =>
    have hreplaces : Step.replaces ⟨c, .resolve, .address c.heap.cursor, c'⟩ = true :=
      hrenews.replaces hv
    have hbytes : Step.replacedBytes ⟨c, .resolve, .address c.heap.cursor, c'⟩ = size := by
      rw [Step.replacedBytes, if_pos hreplaces, hrenews.answeredBytes hv hheap]
    rw [Recorder.read_of_update (Recorder.holds_of_update hv.tally honce)
      (Recorder.ne_off_of_update honce hon) htally, Recorder.read_of_update hv.tally hon honce,
      count, Nat.add_assoc]
    congr 1
    cases e with
    | reclaims => simp [Step.adds, hreplaces]
    | reclaimedBytes => simp [Step.adds, hbytes]
    | definitions | deletions | allocFailures => rfl

/-- A call that fails adds to the failures, if to anything. -/
theorem Step.adds_of_failed {cause : TextureError} (h : step.answer = .failed cause) (e : Event) :
    step.adds e = if e = .allocFailures then step.starves.toNat + step.strays.toNat else 0 := by
  obtain ⟨c, action, told, c'⟩ := step
  subst h
  cases e <;> cases action <;> rfl

/-- A call that was to give a texture a new block and got none. -/
theorem Renews.starves (hr : Renews c action slot t shape size) {request : MemoryClass}
    (hrefuses : Heap.Refuses size request cause) :
    Step.starves ⟨c, action, .failed (.memory cause), c'⟩ = true ∧
      Step.strays ⟨c, action, .failed (.memory cause), c'⟩ = false := by
  rcases hrefuses with ⟨-, rfl⟩ | ⟨available, rfl⟩ <;> cases hr <;> exact ⟨rfl, rfl⟩

/-- A call that does not get as far as the heap. -/
theorem Rejects.starves {cause : TextureError} (hr : Rejects c action cause) (hv : c.Valid) :
    Step.starves ⟨c, action, .failed cause, c'⟩ = false ∧
      Step.strays ⟨c, action, .failed cause, c'⟩ = false := by
  have hne := hr.ne_memory hv
  cases cause with
  | memory error => exact absurd rfl (hne error)
  | _ => cases action <;> exact ⟨rfl, rfl⟩

/-- A call adds to the sum of an event what its step says. -/
theorem Effect.count_eq (he : Effect c action told c') (hv : c.Valid) (hon : c.tally ≠ .off)
    (e : Event) : c'.count e.name = c.count e.name + Step.adds ⟨c, action, told, c'⟩ e := by
  cases he with
  | renew hrenews _ _ hcounts => exact hcounts.read_eq hrenews hv hon rfl
  | reuse hbound haddress _ =>
    have hkeeps : Step.replaces ⟨c, .resolve, .address _, c⟩ = false :=
      replaces_eq_false ((ownAddress?_of_bound hbound).trans haddress)
    cases e with
    | reclaims => simp [Step.adds, hkeeps]
    | reclaimedBytes => simp [Step.adds, Step.replacedBytes, hkeeps]
    | definitions | deletions | allocFailures => rfl
  | delete _ _ _ _ _ htally =>
    refine (Recorder.read_of_update hv.tally hon htally e).trans ?_
    congr 1
    cases e <;> rfl
  | exhaust hrenews _ hrefuses htally =>
    obtain ⟨hstarves, hstrays⟩ := hrenews.starves hrefuses
    rw [Step.adds_of_failed rfl, hstarves, hstrays]
    exact Recorder.read_of_update hv.tally hon htally e
  | stray hrenews _ _ _ hcounts =>
    rw [Step.adds_of_failed rfl]
    cases hcounts with
    | define => exact (ite_self 0).symm ▸ rfl
    | resolve htally => exact Recorder.read_of_update hv.tally hon htally e
  | reject hrejects =>
    obtain ⟨hstarves, hstrays⟩ := hrejects.starves hv
    rw [Step.adds_of_failed rfl, hstarves, hstrays]
    exact (ite_self 0).symm ▸ rfl
  | _ => cases e <;> rfl

/-! ## Along a run -/

/-- What can be counted is counted after every run. -/
theorem Run.tally_ne_off (hstart : ofSettings s (.ofBudgets budgets) = .ok (.ok c₀))
    (hrun : Run c₀ past c) : c.tally ≠ .off := by
  exact hrun.induct_of_start (P := fun _ c => c.tally ≠ .off) hstart nofun
    fun _ hon he => he.tally_ne_off hon

/-- The sum of an event is what the calls of the run have added to it. -/
theorem Run.count_eq (hstart : ofSettings s (.ofBudgets budgets) = .ok (.ok c₀))
    (hrun : Run c₀ past c) (e : Event) : c.count e.name = Word.total (past.map (·.adds e)) := by
  have hvalid := valid_of_ofSettings hstart
  induction hrun with
  | start =>
    obtain ⟨-, rfl⟩ := eq_start hstart
    rfl
  | next hrun hperform ih =>
    have hv := Run.valid hrun hvalid
    rw [(hv.effect hperform).count_eq hv (Run.tally_ne_off hstart hrun), ih, List.map_cons,
      Word.total_cons, Nat.add_comm]

end Context

end TextureMemory
