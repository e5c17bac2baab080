import TextureMemory.Proofs.Context.Run

/-!
# What the calls of a run have done

What a call has done is read off the call and its answer, and for a call that resolves a texture also
off the contexts before and after it: whether the answer is the address that the texture had already,
and how large the block is that begins there.

`Context.Step.adds` says what a call adds to the sum of each event. `Context.frameTotals` cuts a run
into frames, and takes the bytes that were replaced in each.
-/

namespace TextureMemory.Context

/-- The address that the bound texture owns, if there is a bound texture and it owns one. -/
def ownAddress? (c : Context) : Option Address :=
  match c.bound with
  | .ok (.ok (_, t)) => t.backing
  | _ => none

namespace Step

/-- The call resolved a texture, and the answer is not the address that the texture had. -/
def replaces (step : Step) : Bool :=
  match step.action, step.answer with
  | .resolve, .address p => step.before.ownAddress? ≠ some p
  | _, _ => false

/-- The bytes of the block at the address that a call on textures answered with. -/
def answeredBytes (step : Step) : Nat :=
  match step.answer with
  | .address p => ((step.after.heap.block? p).map Block.size).getD 0
  | _ => 0

/-- The bytes of the block that took the place of another. -/
def replacedBytes (step : Step) : Nat :=
  if step.replaces then step.answeredBytes else 0

/-- The call gave a texture a layout and memory. -/
def defines (step : Step) : Bool :=
  match step.action, step.answer with
  | .define .., .address _ => true
  | _, _ => false

/-- The call deleted a texture. -/
def deletes (step : Step) : Bool :=
  match step.action, step.answer with
  | .delete _, .done => true
  | _, _ => false

/-- The call created a texture. -/
def generates (step : Step) : Bool := step.action = .generate

/-- The call ended a frame. -/
def endsFrame (step : Step) : Bool := step.action = .endFrame

/-- The call was to give a texture a new block, and there was none to be had. -/
def starves (step : Step) : Bool :=
  match step.action, step.answer with
  | .define .., .failed (.memory (.notLive _)) | .resolve, .failed (.memory (.notLive _)) => false
  | .define .., .failed (.memory _) | .resolve, .failed (.memory _) => true
  | _, _ => false

/-- The call was to resolve a texture, and its old block could not be taken back. -/
def strays (step : Step) : Bool :=
  match step.action, step.answer with
  | .resolve, .failed (.memory (.notLive _)) => true
  | _, _ => false

/-- What a call adds to the sum of an event. -/
def adds (step : Step) : Event → Nat
  | .reclaims => step.replaces.toNat
  | .reclaimedBytes => step.replacedBytes
  | .definitions => step.defines.toNat
  | .deletions => step.deletes.toNat
  | .allocFailures => step.starves.toNat + step.strays.toNat

end Step

/-- The bytes that were replaced since the last frame ended. -/
def frameBytes : List Step → Nat
  | [] => 0
  | step :: past => if step.endsFrame then 0 else step.replacedBytes + frameBytes past

/-- The bytes that were replaced in each of the frames that have ended, the latest frame first. -/
def frameTotals : List Step → List Nat
  | [] => []
  | step :: past =>
    if step.endsFrame then frameBytes past :: frameTotals past else frameTotals past

variable {c c' : Context} {past : List Step} {step : Step} {action : Action} {told : Answer}
  {slot : Slot} {t shape : Texture} {size : Nat} {pool : Pool} {cursor : Address}
  {cause : TextureError} {p : Address}

/-- There is one total for each frame that ended. -/
theorem length_frameTotals : (frameTotals past).length = past.countP Step.endsFrame := by
  induction past with
  | nil => rfl
  | cons step past ih =>
    rw [frameTotals, List.countP_cons]
    split
    · rw [List.length_cons, ih]
    · exact ih

/-- All that was ever replaced was replaced in a frame that has ended, or since. -/
theorem total_replacedBytes :
    Word.total (past.map Step.replacedBytes) = Word.total (frameTotals past) + frameBytes past := by
  induction past with
  | nil => rfl
  | cons step past ih =>
    rw [List.map_cons, Word.total_cons, ih, frameTotals, frameBytes]
    by_cases hend : step.endsFrame
    · have hnone : step.replacedBytes = 0 := by
        have haction : step.action = .endFrame := of_decide_eq_true hend
        simp only [Step.replacedBytes, Step.replaces, haction]
        rfl
      rw [if_pos hend, if_pos hend, hnone, Word.total_cons]
      omega
    · rw [if_neg hend, if_neg hend]
      omega

/-! ## Calls on the bound texture -/

/-- The address of the context's own is that of the texture that is bound. -/
theorem ownAddress?_of_bound (h : c.bound = .ok (.ok (slot, t))) : c.ownAddress? = t.backing := by
  rw [ownAddress?, h]

/-- A texture that owns the address it is answered with keeps its block. -/
theorem replaces_eq_false (h : c.ownAddress? = some p) :
    Step.replaces ⟨c, .resolve, .address p, c'⟩ = false := by
  simp [Step.replaces, h]

/-- The cursor is no address that a texture owns, so a block there takes the place of another. -/
theorem Renews.replaces (hr : Renews c .resolve slot t shape size) (hv : c.Valid) :
    Step.replaces ⟨c, .resolve, .address c.heap.cursor, c'⟩ = true := by
  have hne : t.backing ≠ some c.heap.cursor := fun hcursor =>
    Address.ne_of_lt (hv.lt_cursor hr.bound _ hcursor) rfl
  simpa [Step.replaces, ownAddress?_of_bound hr.bound] using hne

/-- The block that a texture was given is as large as it was to be. -/
theorem Renews.answeredBytes (hr : Renews c action slot t shape size) (hv : c.Valid)
    (hheap : c'.heap = (c.heap.extend size pool cursor).discard (t.backing.bind c.heap.block?)) :
    Step.answeredBytes ⟨c, action, .address c.heap.cursor, c'⟩ = size := by
  simp only [Step.answeredBytes, hheap]
  rw [Heap.block?_extend_discard (hv.lt_cursor hr.bound), if_pos rfl]
  simp [Block.size]

end TextureMemory.Context
