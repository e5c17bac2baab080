import TextureMemory.Proofs.Arena.Wrap
import TextureMemory.Proofs.Scene.Setup

/-!
# A scene of one texture

Where the index of textures starts over, the page of a scene may be given the slot of its palette
(`Scene.Starts.page_eq`), and the scene is left with one texture on both units. A frame writes to it twice and
samples it in between, so it replaces the block that was just sampled, whatever the threshold is, and the first
frame does so already (`Scene.exists_shared`).
-/

namespace TextureMemory

namespace Context

variable {c d : Context} {slot : Slot} {told : Answer} {n : Nat}

/-- Defining a texture does not change which slot the next one gets. -/
theorem Effect.returns_of_define {format : Format} {width height : Nat}
    (he : Effect c (.define format width height) told d) (hr : c.arena.Returns slot) :
    d.arena.Returns slot := by
  cases he with
  | renew hrenews => exact hr.set hrenews.get? _
  | _ => exact hr

/-- Textures are created until so many exist, if there is an index for each. -/
theorem exists_run_of_generate (h : c.Unspent) (hempty : c.arena = .empty) (hn : n ≤ Slot.limit) : ∃ past,
    Run c past { c with arena := .filled n } ∧ { c with arena := .filled n }.Unspent ∧
      ∀ step ∈ past, step.action = .generate := by
  induction n with
  | zero =>
    rw [Arena.filled_zero, ← hempty]
    exact ⟨[], .start, h, by simp⟩
  | succ n ih =>
    obtain ⟨past, hrun, hunspent, hactions⟩ := ih (Nat.le_of_succ_le hn)
    have hword : Slot.limit < Word.limit := by decide
    obtain ⟨slot, arena, hperform, hnext, -, -⟩ :=
      hunspent.exists_generate (show n + 1 < Word.limit by omega)
    -- The texture is the next one in the table.
    have hsame : perform { c with arena := .filled n } .generate =
        .ok (.slot ⟨n, 0⟩, { c with arena := .filled (n + 1) }) := by
      rw [perform, generate, Arena.insert_filled hn]
      rfl
    cases hperform.symm.trans hsame
    exact ⟨_, hrun.next hperform, hnext, List.forall_mem_cons.mpr ⟨rfl, hactions⟩⟩

end Context

namespace Scene

open Context (Effect Reachable)

variable {c c' d : Context} {scene : Scene}

/-- The page has the slot of the palette if that was the last vacant one, and the size of the table comes round
to it. -/
theorem Starts.page_eq (h : Starts c scene d) (hc : c.Reachable) {i : Nat} (hvacant : c.arena.vacant = [i])
    (hround : c.arena.entries.size % Slot.limit = i) : scene.page = scene.palette := by
  obtain @⟨palette, page, c₁, c₂, c₃, c₄, c₅, c₆, c₇, _, p, q, hc₁, he₁, hc₂, he₂, hc₃, he₃, hc₄, he₄,
    -⟩ := h
  have hreturns₁ : c₁.arena.Returns palette := by
    cases he₁ with
    | generate hinsert => exact hc.valid.arena.returns hvacant hround hinsert
  have hreturns₂ : c₂.arena.Returns palette := (he₂.of_bind hc₁.valid).1 ▸ hreturns₁
  have hreturns₃ : c₃.arena.Returns palette := he₃.returns_of_define hreturns₂
  cases he₄ with
  | generate hinsert => exact hreturns₃.slot_eq hc₃.valid.arena hinsert

/-- Setting up a scene takes eight calls, so no event is tallied more often. -/
theorem Starts.count_le (h : Starts c scene d) (hc : c.Reachable) {e : Event}
    (hne : e ≠ .reclaimedBytes) : d.count e.name ≤ c.count e.name + 8 := by
  have hone : ∀ {c d : Context} {action : Context.Action} {told : Context.Answer}, c.Reachable →
      Effect c action told d → d.count e.name ≤ c.count e.name + 1 := fun hc he =>
    he.count_le hc.valid hc.tally_ne_off hne
  obtain ⟨hc₁, he₁, hc₂, he₂, hc₃, he₃, hc₄, he₄, hc₅, he₅, hc₆, he₆, hc₇, he₇, -, he₈⟩ := h
  have h₁ := hone hc he₁
  have h₂ := hone hc₁ he₂
  have h₃ := hone hc₂ he₃
  have h₄ := hone hc₃ he₄
  have h₅ := hone hc₄ he₅
  have h₆ := hone hc₅ he₆
  have h₇ := hone hc₆ he₇
  have h₈ := hone hc₇ he₈
  omega

/-- The first frame of a scene of one texture replaces a block. -/
theorem exists_frame_of_shared (hs : Stands scene c) (hsame : scene.page = scene.palette)
    (hnumber : c.frame < frameLimit) (hquiet : ¬c.Crowded 2)
    (hroom : c.Room (frameRoom (pageBytes c.policy.unit) c.policy.unit)) :
    ∃ d, frame c = .ok (.ok (), d) ∧ c.reclaims < d.reclaims := by
  have hpalette : c.Padded scene.palette pageWidth pageHeight := hsame ▸ hs.page_padded
  obtain ⟨d, hframe⟩ := exists_frame_of_room hs hpalette hnumber hquiet hroom
  have hreclaims := (frame_spends hs hpalette hframe).1.reclaims_eq
  rw [due, decide_eq_true hsame, Bool.true_or, Bool.toNat_true] at hreclaims
  exact ⟨d, hframe, by omega⟩

/-- Textures are created, with an index for each, and the first of them is deleted: then the only entry that is
vacant is its own. -/
theorem exists_run_to_last {n : Nat} (hpos : 0 < n) (hn : n ≤ Slot.limit) : ∃ past c,
    Context.Run (Context.start .standard (.ofBudgets .standard)) past c ∧ c.Unspent ∧
    (∀ step ∈ past, step.action.meddles = false) ∧ c.arena.count < n ∧
    c.arena.vacant = [0] ∧ c.arena.entries.size = n ∧
    ∀ e ≠ Event.reclaimedBytes, c.count e.name ≤ 1 := by
  obtain ⟨past, hrun, hunspent, hactions⟩ := Context.exists_run_of_generate Context.start_unspent rfl hn
  have hc := hunspent.reachable
  have hnone : ∀ e : Event, (Context.start .standard (.ofBudgets .standard)).count e.name = 0 := by
    intro e
    cases e <;> rfl
  obtain ⟨arena, hremove, hvacant, hsize, hcount⟩ := Arena.remove_filled hpos
  obtain ⟨c, hperform, hlast, rfl, -⟩ := hunspent.exists_delete (Arena.get?_filled hpos) rfl hremove
    (Nat.lt_of_le_of_lt (Nat.le_of_eq (congrArg (· + 1) (hnone .deletions))) (by decide))
  refine ⟨_, c, hrun.next hperform, hlast, ?_, by omega, hvacant, hsize, fun e hne => ?_⟩
  · exact List.forall_mem_cons.mpr ⟨rfl, fun step hmem => by rw [hactions step hmem]; rfl⟩
  · have hle := (hc.valid.effect hperform).count_le hc.valid hc.tally_ne_off hne
    exact Nat.le_trans hle (Nat.le_of_eq (congrArg (· + 1) (hnone e)))

/-- So a scene is set up of which both textures are one, and its first frame replaces a block. -/
theorem exists_shared : ∃ past c scene c' d,
    Context.Run (Context.start .standard (.ofBudgets .standard)) past c ∧
    (∀ step ∈ past, step.action.meddles = false) ∧ c.units.active = 0 ∧
    start c = .ok (.ok scene, c') ∧ frame c' = .ok (.ok (), d) ∧ c'.reclaims < d.reclaims := by
  obtain ⟨past, c, hrun, hunspent, hmeddles, hcount, hvacant, hsize, hcounts⟩ :=
    exists_run_to_last (show 0 < Slot.limit by decide) (Nat.le_refl _)
  have hc := hunspent.reachable
  have hword : Slot.limit + 11 < Word.limit := by decide
  obtain ⟨scene, c', hscene, hnumber, hroom⟩ :=
    exists_start_of_unspent hunspent (show c.arena.count + 2 < Word.limit by omega)
  have hstarts := starts_of_start hc hscene
  have hsame : scene.page = scene.palette := hstarts.page_eq hc hvacant (by rw [hsize]; rfl)
  have hquiet : ¬c'.Crowded 2 := by
    rintro ⟨e, hne, hlimit⟩
    have hcount := hstarts.count_le hc hne
    have hone := hcounts e hne
    omega
  obtain ⟨d, hframe, hreclaims⟩ := exists_frame_of_shared (hstarts.stands hc hunspent.active_eq) hsame
    hnumber hquiet hroom
  exact ⟨past, c, scene, c', d, hrun, hmeddles, hunspent.active_eq, hscene, hframe, hreclaims⟩

end Scene

end TextureMemory
