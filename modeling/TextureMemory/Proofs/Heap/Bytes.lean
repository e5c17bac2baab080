import TextureMemory.Proofs.Heap.Ranges

/-!
# The bytes of blocks

A block is full of zeros when it is handed out, and writing to it is all that changes its bytes. So
each of its bytes is the one that was written there last since then, or zero
(`Heap.Run.getElem?_of_holds`). What was written to the blocks of before is never seen again: no address
is handed out twice (`Heap.Run.fresh`).
-/

namespace TextureMemory

/-- Where data were written, they are found, and elsewhere the bytes of before. -/
theorem Buffer.getElem?_overwrite_eq_or {buffer : Buffer} {offset place : Nat} {data : List UInt8}
    (hin : offset + data.length ≤ buffer.size) :
    (buffer.overwrite offset data)[place]? =
      (if offset ≤ place then data[place - offset]? else none).or buffer[place]? := by
  rw [getElem?_overwrite hin]
  by_cases hle : offset ≤ place
  · by_cases hlt : place < offset + data.length
    · rw [if_pos ⟨hle, hlt⟩, if_pos hle, List.getElem?_eq_getElem (by omega), Option.some_or]
    · -- The data end before this place.
      rw [if_neg fun hand => hlt hand.2, if_pos hle, List.getElem?_eq_none (by omega),
        Option.none_or]
  · rw [if_neg fun hand => hle hand.1, if_neg hle, Option.none_or]

namespace Heap

/-- The byte that a call wrote at a place of the block at an address. -/
def Step.byte? (step : Step) (p : Address) (place : Nat) : Option UInt8 :=
  match step.action, step.answer with
  | .write a offset data, .written _ =>
    if a = p ∧ offset ≤ place then data[place - offset]? else none
  | _, _ => none

/-- The byte that was written last at a place of the block at an address, if any was. The latest call
comes first. -/
def lastByte? (past : List Step) (p : Address) (place : Nat) : Option UInt8 :=
  past.findSome? (Step.byte? · p place)

/-- The block at an address was handed out in the call `step`, and in none of the `later` calls was it
given back. -/
structure Holds (past : List Step) (p : Address) (step : Step) (later : List Step) : Prop where
  split : ∃ earlier, past = later ++ step :: earlier
  answer : step.answer = .allocated p
  kept : ∀ other ∈ later, other.action ≠ .free p

variable {h₀ h h' : Heap} {past later : List Step} {step : Step} {action : Action} {answer : Answer}
  {p : Address} {b : Block} {bytes : Buffer} {place : Nat} {budgets : Budgets}

/-! ## One call -/

/-- The latest call that tells of a byte is the one that counts. -/
theorem lastByte?_cons :
    lastByte? (step :: past) p place = (Step.byte? step p place).or (lastByte? past p place) := by
  rw [lastByte?, List.findSome?_cons]
  cases Step.byte? step p place <;> rfl

/-- A byte of a block is the one that a call wrote there, or else the one that was there before. -/
theorem Effect.getElem?_overwrite (he : Effect h action answer h') (hb : h.block? p = some b)
    (place : Nat) :
    (Step.overwrite ⟨h, action, answer, h'⟩ p b.bytes)[place]? =
      (Step.byte? ⟨h, action, answer, h'⟩ p place).or b.bytes[place]? := by
  cases he with
  | @write a written offset data hwritten hin =>
    simp only [Step.overwrite, Step.byte?]
    by_cases ha : a = p
    · subst ha
      rw [hwritten] at hb
      cases hb
      simp only [true_and, if_true]
      exact Buffer.getElem?_overwrite_eq_or hin
    · rw [if_neg ha, if_neg fun hand => ha hand.1, Option.none_or]
  | _ => rfl

/-- A call that does not write to a block leaves its bytes. -/
theorem Step.overwrite_of_ne_write (hother : ∀ offset data, step.action ≠ .write p offset data) :
    Step.overwrite step p bytes = bytes := by
  unfold Step.overwrite
  split
  · next a offset data _ haction _ =>
    rw [if_neg]
    rintro rfl
    exact hother offset data haction
  · rfl

/-- A block that is not given back and not written to keeps its bytes. -/
theorem Effect.bytes?_eq (he : Effect h action answer h') (hv : h.Valid)
    (hlive : h.contains p = true) (hkept : action ≠ .free p)
    (hother : ∀ offset data, action ≠ .write p offset data) : h'.bytes? p = h.bytes? p := by
  obtain ⟨b, hb⟩ := Option.isSome_iff_exists.mp hlive
  rw [bytes?, he.block?_of_live hv hb hkept, Step.overwrite_of_ne_write hother, bytes?, hb]

/-- Data are written where a block in use has room for them, and nowhere else. -/
theorem perform_write_eq_ok_iff {offset : Nat} {data : List UInt8} :
    (∃ h', h.perform (.write p offset data) = .ok (.written data.length, h')) ↔
      ∃ bytes, h.bytes? p = some bytes ∧ offset + data.length ≤ bytes.size := by
  constructor
  · rintro ⟨h', hperform⟩
    rw [perform] at hperform
    rcases h.write_cases p offset data with ⟨b, hb, hin, -⟩ | ⟨cause, heq⟩
    · exact ⟨b.bytes, by rw [bytes?, hb]; rfl, hin⟩
    · rw [heq] at hperform
      cases hperform
  · rintro ⟨bytes, hbytes, hin⟩
    refine ⟨h.setBytes p (Buffer.overwrite bytes offset data), ?_⟩
    have hwrite : Buffer.write? bytes offset data = some (Buffer.overwrite bytes offset data) :=
      if_pos hin
    rw [perform, write, hbytes]
    simp only [hwrite]
    rfl

/-! ## Along a run -/

theorem Holds.next (hholds : Holds past p step later) {other : Step}
    (hkept : other.action ≠ .free p) : Holds (other :: past) p step (other :: later) where
  split := by
    obtain ⟨earlier, rfl⟩ := hholds.split
    exact ⟨earlier, rfl⟩
  answer := hholds.answer
  kept := List.forall_mem_cons.mpr ⟨hkept, hholds.kept⟩

/-- A block that is in use was handed out, and was not given back since. -/
theorem Run.exists_holds (hrun : Run (ofBudgets budgets) past h) :
    (h.block? p).isSome → ∃ step later, Holds past p step later := by
  refine Run.induct (P := fun past h => (h.block? p).isSome → ∃ step later, Holds past p step later)
    hrun (ofBudgets_valid budgets) nofun ?_
  intro past h action answer h' hv ih he hlive
  rcases he.live_cases hlive with ⟨hbefore, hkept⟩ | rfl
  · obtain ⟨step, later, hholds⟩ := ih hbefore
    exact ⟨step, _, hholds.next hkept⟩
  · exact ⟨_, [], ⟨past, rfl⟩, rfl, by simp⟩

/-- A byte of a block that is not given back is the one that was written there last, or else the one
that was there at the start. -/
theorem Run.getElem?_overwritten (hrun : Run h₀ past h) (hv : h₀.Valid) (hb : h₀.block? p = some b)
    (hkept : ∀ step ∈ past, step.action ≠ .free p) (place : Nat) :
    (overwritten past p b.bytes)[place]? = (lastByte? past p place).or b.bytes[place]? := by
  induction hrun with
  | start => rfl
  | @next past h action answer h' hrun hperform ih =>
    have hvBefore := Run.valid hrun hv
    obtain ⟨-, hearlier⟩ := List.forall_mem_cons.mp hkept
    have hbefore := Run.block?_of_live hrun hv hb hearlier
    have hstep := (hvBefore.effect hperform).getElem?_overwrite hbefore place
    rw [lastByte?_cons, Option.or_assoc, ← ih hearlier]
    exact hstep

/-- What is found of a block that was handed out and not given back: as many bytes as were asked for,
and at each place the one that was written there last since then, or zero. -/
theorem Run.getElem?_of_holds (hrun : Run h₀ past h) (hv : h₀.Valid)
    (hholds : Holds past p step later) :
    ∃ size request bytes, step.action = .allocate size request ∧ h.bytes? p = some bytes ∧
      bytes.size = size ∧
      ∀ place < size, bytes[place]? = some ((lastByte? later p place).getD 0) := by
  obtain ⟨before, action, answer, after⟩ := step
  obtain ⟨⟨earlier, rfl⟩, rfl, hkept⟩ := hholds
  obtain ⟨hearlier, hperform, hlater⟩ := Trace.split hrun
  have hvBefore := Run.valid hearlier hv
  have he : Effect before action (.allocated p) after := hvBefore.effect hperform
  obtain ⟨size, request, pool, haction, -, hblock⟩ := he.allocated
  have hvAfter := he.valid hvBefore
  refine ⟨size, request, overwritten later p (Array.replicate size 0), haction, ?_, ?_, ?_⟩
  · rw [bytes?, Run.block?_of_live hlater hvAfter hblock hkept]
    rfl
  · rw [size_overwritten, Array.size_replicate]
  · intro place hplace
    have hbyte := Run.getElem?_overwritten hlater hvAfter hblock hkept place
    rw [hbyte, Array.getElem?_replicate, if_pos hplace]
    cases lastByte? later p place <;> rfl

/-- What was handed out lies below the cursor, be it in use or not. -/
theorem Run.address_lt (hrun : Run (ofBudgets budgets) past h) (hmem : step ∈ past)
    (hanswer : step.answer = .allocated p) : p.value < h.cursor.value := by
  obtain ⟨before, action, answer, after⟩ := step
  obtain rfl : answer = .allocated p := hanswer
  obtain ⟨later, earlier, hsplit⟩ := List.append_of_mem hmem
  obtain ⟨hearlier, hperform, -⟩ := Trace.split (hsplit ▸ hrun)
  have he := (Run.valid hearlier (ofBudgets_valid budgets)).effect hperform
  obtain ⟨size, request, -, rfl, -⟩ := he.allocated
  have hrange : (⟨p, size⟩ : Range) ∈ ranges past := List.mem_filterMap.mpr ⟨_, hmem, rfl⟩
  have hstop := (Run.laid hrun).stop_le _ hrange
  have hpos := (Run.laid hrun).size_pos _ hrange
  simp only [Range.stop] at hstop hpos
  omega

/-- A block that is handed out is full of zeros, at an address that was never handed out before. -/
theorem Run.fresh (hrun : Run (ofBudgets budgets) past h) {size : Nat} {request : MemoryClass}
    (hperform : h.perform (.allocate size request) = .ok (.allocated p, h')) :
    h'.bytes? p = some (Array.replicate size 0) ∧ ∀ step ∈ past, step.answer ≠ .allocated p := by
  have he := (Run.valid hrun (ofBudgets_valid budgets)).effect hperform
  constructor
  · obtain ⟨_, _, _, haction, -, hblock⟩ := he.allocated
    cases haction
    rw [bytes?, hblock]
    rfl
  · intro step hmem hanswer
    have hlt := Run.address_lt hrun hmem hanswer
    cases he
    exact Nat.lt_irrefl _ hlt

end Heap

end TextureMemory
