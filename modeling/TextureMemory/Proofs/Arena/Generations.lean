import TextureMemory.Proofs.Arena.Run

/-!
# How long a stale slot is refused

A slot that outlives its texture is refused because its entry goes on to the next generation whenever a
texture is taken out of it, and at no other time. So the generation of an entry is the number of textures
that were taken out of it, modulo the number of generations (`Arena.Counted`). A stale slot names a texture
again when that number comes round, and the entry is in use: then, and not before
(`Arena.stale_slot_refused`).
-/

namespace TextureMemory.Arena

/-- A call took a texture out of the entry at an index. -/
def Step.vacates (step : Step) (i : Nat) : Bool :=
  match step.action, step.answer with
  | .remove slot, .removed _ => slot.index = i
  | _, _ => false

/-- How many textures were taken out of the entry at an index. -/
def removals (past : List Step) (i : Nat) : Nat := past.countP (Step.vacates · i)

/-- The generation of each entry tells how many textures were taken out of it, if there were `n i` at an
index `i`; and none were taken out of the entries to come. -/
structure Counted (n : Nat → Nat) (a : Arena) : Prop where
  generation_eq : ∀ i e, a.entries[i]? = some e → e.generation = n i % Slot.limit
  none_yet : ∀ i, a.entries.size ≤ i → n i = 0

variable {a a' : Arena} {past later earlier : List Step} {action : Action} {answer : Answer}
  {t : Texture} {s : Slot} {i : Nat} {e e' : Entry} {step : Step} {n n' : Nat → Nat}

/-! ## One call -/

/-- A count goes on where an entry does. -/
theorem Counted.replaces (hc : Counted n a) (hr : Replaces a a' i e e')
    (hgeneration : e'.generation = n' i % Slot.limit) (hsame : ∀ j, j ≠ i → n' j = n j) :
    Counted n' a' where
  generation_eq := by
    intro j x hx
    rw [hr.getElem?] at hx
    split at hx
    · next heq =>
      cases hx
      exact heq ▸ hgeneration
    · next hne =>
      rw [hsame j (Ne.symm hne)]
      exact hc.generation_eq j x hx
  none_yet := by
    intro j hj
    rw [hr.size_eq] at hj
    obtain ⟨hlt, -⟩ := Array.getElem?_eq_some_iff.mp hr.old
    rw [hsame j (by omega)]
    exact hc.none_yet j hj

/-- An entry that keeps its generation does not upset the count. -/
theorem Counted.of_generation_eq (hc : Counted n a) (hr : Replaces a a' i e e')
    (hkeep : e'.generation = e.generation) : Counted n a' :=
  hc.replaces hr (hkeep.trans (hc.generation_eq i e hr.old)) fun _ _ => rfl

/-- The generation of an entry that was just added is zero. -/
theorem Counted.push {o : Option Texture} (hc : Counted n a)
    (hentries : a'.entries = a.entries.push ⟨0, o⟩) : Counted n a' where
  generation_eq := by
    intro j x hx
    rw [hentries, Array.getElem?_push] at hx
    split at hx
    · next heq =>
      cases hx
      rw [heq, hc.none_yet _ (Nat.le_refl _)]
      rfl
    · exact hc.generation_eq j x hx
  none_yet := by
    intro j hj
    rw [hentries, Array.size_push] at hj
    exact hc.none_yet j (by omega)

/-- A generation goes up just where the call took the texture out of its entry. -/
theorem Effect.counted (he : Effect a action answer a') (hc : Counted (removals past) a) :
    Counted (removals (⟨a, action, answer, a'⟩ :: past)) a' := by
  cases he with
  | reuse _ hreplaces | edit _ hreplaces => exact hc.of_generation_eq hreplaces rfl
  | grow _ _ hentries => exact hc.push hentries
  | wrap _ _ _ hreplaces =>
    have hpush : Counted (removals past) { a with entries := a.entries.push ⟨0, none⟩ } := hc.push rfl
    exact hpush.of_generation_eq hreplaces rfl
  | @remove _ slot _ _ hreplaces =>
    refine hc.replaces hreplaces ?_ ?_
    · have hold : slot.generation = removals past slot.index % Slot.limit :=
        hc.generation_eq _ _ hreplaces.old
      rw [removals, List.countP_cons_of_pos (by simp [Step.vacates]), ← removals, hold]
      exact Nat.mod_add_mod ..
    · intro j hj
      exact List.countP_cons_of_neg (by simpa [Step.vacates] using Ne.symm hj)
  | missRemove | missEdit => exact hc

/-- The entry that a texture was taken out of is vacant. -/
theorem Effect.texture_of_vacates (he : Effect a action answer a')
    (hvacates : Step.vacates ⟨a, action, answer, a'⟩ i = true) (he' : a'.entries[i]? = some e) :
    e.texture = none := by
  cases he with
  | remove _ hreplaces =>
    rw [hreplaces.getElem?, if_pos (of_decide_eq_true hvacates)] at he'
    cases he'
    rfl
  | _ => cases hvacates

/-! ## Along a run -/

/-- The generation of an entry tells how many textures were taken out of it, modulo the number of
generations. -/
theorem Run.counted (hrun : Run .empty past a) : Counted (removals past) a :=
  hrun.induct (P := fun past a => Counted (removals past) a) empty_valid
    ⟨by simp [empty], fun _ _ => rfl⟩ fun _ hc he => he.counted hc

theorem Step.vacates_of_removed (haction : step.action = .remove s)
    (hanswer : step.answer = .removed t) : Step.vacates step s.index = true := by
  simp [Step.vacates, haction, hanswer]

/-- A call that came before all others counts as one more. -/
theorem removals_concat (hvacates : Step.vacates step i = true) :
    removals (later ++ [step]) i = removals later i + 1 := by
  rw [removals, List.countP_append, List.countP_singleton, if_pos hvacates, ← removals]

/-- A slot whose texture was taken out names a texture if its entry is in use and has come round to the
generation of the slot. -/
theorem Run.contains_iff_of_removed (hrun : Run .empty (later ++ step :: earlier) a)
    (haction : step.action = .remove s) (hanswer : step.answer = .removed t) :
    a.contains s = true ↔ (∃ e ∈ a.entries[s.index]?, e.texture.isSome) ∧
      Slot.limit ∣ removals (later ++ [step]) s.index := by
  obtain ⟨hearlier, hperform, -⟩ := hrun.split
  have he := ((Run.valid hearlier empty_valid).effect hperform).1
  rw [haction, hanswer] at he
  have hold : s.generation = removals earlier s.index % Slot.limit := by
    cases he with
    | remove hslot => exact (Run.counted hearlier).generation_eq _ _ (exists_entry hslot)
  have hcount : removals (later ++ step :: earlier) s.index =
      removals (later ++ [step]) s.index + removals earlier s.index := by
    rw [removals, removals, removals, ← List.countP_append, List.append_assoc]
    rfl
  -- The generation has come round if what was added to the count is a multiple.
  have hround : ∀ e ∈ a.entries[s.index]?,
      e.generation = s.generation ↔ Slot.limit ∣ removals (later ++ [step]) s.index := by
    intro e hentry
    rw [(Run.counted hrun).generation_eq _ _ hentry, hcount, hold]
    show (_ + _) % 4294967296 = _ % 4294967296 ↔ 4294967296 ∣ _
    omega
  rw [contains, Option.isSome_iff_exists]
  simp only [get?_eq_some_iff]
  constructor
  · rintro ⟨t', e, hentry, hgeneration, htexture⟩
    exact ⟨⟨e, hentry, by rw [htexture]; rfl⟩, (hround e hentry).mp hgeneration⟩
  · rintro ⟨⟨e, hentry, hsome⟩, hdvd⟩
    obtain ⟨t', htexture⟩ := Option.isSome_iff_exists.mp hsome
    exact ⟨t', e, hentry, (hround e hentry).mpr hdvd, htexture⟩

/-- After a call that took a texture out of an entry, there is none in it. -/
theorem Run.texture_of_vacates (hrun : Run .empty (step :: earlier) a)
    (hvacates : Step.vacates step i = true) (hentry : a.entries[i]? = some e) : e.texture = none := by
  cases hrun with
  | next hearlier hperform =>
    have he := ((Run.valid hearlier empty_valid).effect hperform).1
    exact he.texture_of_vacates hvacates hentry

/-- As long as fewer textures were taken out of the entry before the latest call, the slot names none: if
the latest call took out one more, the entry is vacant. -/
theorem Run.contains_eq_false_of_removed (hrun : Run .empty (later ++ step :: earlier) a)
    (haction : step.action = .remove s) (hanswer : step.answer = .removed t)
    (hfew : removals later.tail s.index + 1 < Slot.limit) : a.contains s = false := by
  have hvacates := Step.vacates_of_removed haction hanswer
  cases hcontains : a.contains s with
  | false => rfl
  | true =>
    obtain ⟨⟨e, hentry, hsome⟩, hdvd⟩ := (hrun.contains_iff_of_removed haction hanswer).mp hcontains
    have hlatest : ∀ last rest, later ++ step :: earlier = last :: rest →
        ¬Step.vacates last s.index = true := by
      intro last rest hlist hlast
      rw [hlist] at hrun
      rw [Run.texture_of_vacates hrun hlast hentry] at hsome
      cases hsome
    cases later with
    | nil => exact absurd hvacates (hlatest step earlier rfl)
    | cons last older =>
      have hkept : removals (last :: older) s.index = removals older s.index :=
        List.countP_cons_of_neg (hlatest last _ rfl)
      rw [removals_concat hvacates, hkept] at hdvd
      rw [List.tail_cons] at hfew
      have hle := Nat.le_of_dvd (Nat.succ_pos _) hdvd
      omega

/-- **When a stale slot names a texture again.** After any calls on an arena, a slot whose texture was taken
out by one of them names a texture if and only if its entry is in use, and the number of textures that
were taken out of that entry since then, this one included, is a multiple of the number of generations.

So it is refused, and no texture has it, while all of the other generations go by: that is, up to the call
that takes out the last texture of them. -/
theorem stale_slot_refused (hrun : Run .empty past a) (hsplit : past = later ++ step :: earlier)
    (haction : step.action = .remove s) (hanswer : step.answer = .removed t) :
    (a.contains s = true ↔
      (∃ e ∈ a.entries[s.index]?, e.texture.isSome) ∧
        0 < removals (later ++ [step]) s.index ∧
        Slot.limit ∣ removals (later ++ [step]) s.index) ∧
    (removals later.tail s.index + 1 < Slot.limit →
      a.get s = .error (.unknownSlot s) ∧ a.remove s = .ok (.error (.unknownSlot s), a) ∧
        ∀ t' ∈ a.toList, t'.slot ≠ s) := by
  subst hsplit
  have hv : a.Valid := Run.valid hrun empty_valid
  refine ⟨?_, ?_⟩
  · rw [hrun.contains_iff_of_removed haction hanswer,
      removals_concat (Step.vacates_of_removed haction hanswer)]
    exact and_congr_right fun _ => (and_iff_right (Nat.succ_pos _)).symm
  · intro hfew
    have hnone : a.get? s = none :=
      contains_eq_false_iff.mp (hrun.contains_eq_false_of_removed haction hanswer hfew)
    refine ⟨get_of_get?_none hnone, remove_of_get?_none hnone, ?_⟩
    rintro t' ht' rfl
    rw [hv.mem_toList_iff.mp ht'] at hnone
    cases hnone

/-- The arena of one texture, in the first entry. -/
def single (generation : Nat) : Arena :=
  ⟨#[⟨generation, some (.blank ⟨0, generation⟩)⟩], [], 1⟩

/-- The arena of one entry, which is vacant. -/
def vacated (generation : Nat) : Arena := ⟨#[⟨generation, none⟩], [0], 0⟩

/-- The entry is used again under the generation that it has. -/
theorem perform_insert_vacated (g : Nat) :
    (vacated g).perform .insert = .ok (.inserted ⟨0, g⟩, single g) := rfl

/-- Taking the texture out moves the entry on to the next generation. -/
theorem perform_remove_single (g : Nat) : (single g).perform (.remove ⟨0, g⟩) =
    .ok (.removed (.blank ⟨0, g⟩), vacated ((g + 1) % Slot.limit)) := by
  have hget : (single g).get? ⟨0, g⟩ = some (.blank ⟨0, g⟩) := if_pos rfl
  rw [perform, remove, hget]
  rfl

/-- A texture is taken out, and its entry is used again and vacated again any number of times. -/
theorem exists_run_of_removals (n : Nat) : ∃ later step earlier,
    Run .empty (later ++ step :: earlier) (single ((n + 1) % Slot.limit)) ∧
      step.action = .remove ⟨0, 0⟩ ∧ step.answer = .removed (.blank ⟨0, 0⟩) ∧
      removals later 0 = n ∧ removals later.tail 0 = n := by
  induction n with
  | zero =>
    have hinsert : empty.perform .insert = .ok (.inserted ⟨0, 0⟩, single 0) := rfl
    have hfirst := Trace.start.next hinsert
    have hremoved := hfirst.next (perform_remove_single 0)
    exact ⟨[_], _, _, hremoved.next (perform_insert_vacated _), rfl, rfl, rfl, rfl⟩
  | succ n ih =>
    obtain ⟨later, step, earlier, hrun, haction, hanswer, hcount, -⟩ := ih
    have hremoved := hrun.next (perform_remove_single _)
    have hinserted := hremoved.next (perform_insert_vacated _)
    rw [Nat.mod_add_mod] at hinserted
    refine ⟨_ :: _ :: later, step, earlier, hinserted, haction, hanswer, ?_, ?_⟩
    · rw [removals, List.countP_cons_of_neg (by simp [Step.vacates]), List.countP_cons_of_pos rfl,
        ← removals, hcount]
    · rw [List.tail_cons, removals, List.countP_cons_of_pos rfl, ← removals, hcount]

/-- A slot is refused while its entry goes through all the other generations, and names a texture again
when it comes round. -/
theorem stale_slot_refused_until_wrap :
    (∃ later step earlier a, Run .empty (later ++ step :: earlier) a ∧
      step.action = .remove ⟨0, 0⟩ ∧ removals (later ++ [step]) 0 = Slot.limit - 1 ∧
      a.toList = [.blank ⟨0, Slot.limit - 1⟩] ∧ a.get ⟨0, 0⟩ = .error (.unknownSlot ⟨0, 0⟩)) ∧
    (∃ later step earlier a, Run .empty (later ++ step :: earlier) a ∧
      step.action = .remove ⟨0, 0⟩ ∧ removals (later ++ [step]) 0 = Slot.limit ∧
      a.toList = [.blank ⟨0, 0⟩] ∧ a.contains ⟨0, 0⟩ = true) := by
  constructor
  · obtain ⟨later, step, earlier, hrun, haction, hanswer, hcount, htail⟩ :=
      exists_run_of_removals (Slot.limit - 2)
    have hrefused := (stale_slot_refused hrun rfl haction hanswer).2 (by rw [htail]; decide)
    refine ⟨later, step, earlier, _, hrun, haction, ?_, rfl, hrefused.1⟩
    rw [removals_concat (Step.vacates_of_removed haction hanswer), hcount]
    rfl
  · obtain ⟨later, step, earlier, hrun, haction, hanswer, hcount, -⟩ :=
      exists_run_of_removals (Slot.limit - 1)
    have hround : removals (later ++ [step]) 0 = Slot.limit := by
      rw [removals_concat (Step.vacates_of_removed haction hanswer), hcount]
      rfl
    refine ⟨later, step, earlier, _, hrun, haction, hround, rfl, ?_⟩
    apply (stale_slot_refused hrun rfl haction hanswer).1.mpr
    rw [hround]
    exact ⟨⟨_, rfl, rfl⟩, by decide, Nat.dvd_refl _⟩

end TextureMemory.Arena
