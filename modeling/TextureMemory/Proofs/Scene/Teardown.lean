import TextureMemory.Proofs.Heap.Accounts
import TextureMemory.Proofs.Scene.Picture
import TextureMemory.Proofs.Scene.Setup

/-!
# Tearing down a scene

Whatever a scene does, it does to its own two textures. What is outside of them, all other textures and all
blocks that the two do not own, is the same after every call of it as before (`Scene.Alike`), and so it is
the same after any number of frames, wherever they stopped. Before a scene is set up and after it is torn
down it has no textures, so then all there is lies outside. Hence the one is the same as the other
(`Scene.teardown_restores`).

The textures can be deleted because their blocks are in use all the time: a frame that fails to get a new
block leaves the old one. Only the sum of the deletions can be in the way, if it is within two of the end of
the words (`Scene.teardown_cases`).
-/

namespace TextureMemory

namespace Scene

/-- The slots of the textures of a scene. -/
def slots (s : Scene) : List Slot := [s.palette, s.page]

/-- Whether a texture of a scene owns what begins at an address. -/
def owns (s : Scene) (c : Context) (p : Address) : Bool :=
  s.slots.any fun slot => (c.arena.get? slot).any (·.backing = some p)

/-- The blocks that no texture of a scene owns. -/
def foreign (s : Scene) (c : Context) : List Block := c.heap.blocks.filter (!s.owns c ·.address)

/-- Outside of a scene there is the same in both contexts: all other textures, and all blocks that those of
the scene do not own. -/
structure Alike (s : Scene) (c d : Context) : Prop where
  get?_eq : ∀ slot ∉ s.slots, d.arena.get? slot = c.arena.get? slot
  foreign_eq : s.foreign d = s.foreign c

/-- The textures and the blocks in use are those of before, and so is what each pool is charged with. -/
structure Restored (c d : Context) : Prop where
  get?_eq : ∀ slot, d.arena.get? slot = c.arena.get? slot
  count_eq : d.arena.count = c.arena.count
  blocks_eq : d.heap.blocks = c.heap.blocks
  used_eq : d.heap.used = c.heap.used

end Scene

namespace Heap

/-- What is left when a block that is in use is taken back, if there is one. -/
theorem blocks_discard {g h : Heap} {old : Option Address}
    (hlive : ∀ a ∈ old, ∃ b, h.block? a = some b) :
    (g.discard (old.bind h.block?)).blocks = g.blocks.filter (old ≠ some ·.address) := by
  cases old with
  | none => exact (List.filter_eq_self.mpr fun _ _ => by simp).symm
  | some a =>
    obtain ⟨b, hb⟩ := hlive a rfl
    rw [Option.bind_some, hb, discard, without, (mem_of_block?_eq_some hb).2]
    apply List.filter_congr
    intro b' _
    simp [eq_comm]

end Heap

namespace Context

variable {c d : Context} {slot : Slot} {t : Texture} {width height : Nat}

/-- The block of a padded texture is in use. -/
theorem Padded.live (hp : c.Padded slot width height) : ∃ t, c.arena.get? slot = some t ∧
    ∀ a ∈ t.backing, ∃ b, c.heap.block? a = some b := by
  obtain ⟨t, p, b, stride, ht, hbacking, hb, -⟩ := hp
  refine ⟨t, ht, fun a ha => ⟨b, ?_⟩⟩
  cases hbacking.symm.trans ha
  exact hb

/-- A texture whose block is in use can be deleted, just as long as one deletion more can be counted. -/
theorem Valid.delete_cases (hv : c.Valid) (hon : c.tally ≠ .off) (ht : c.arena.get? slot = some t)
    (hlive : ∀ a ∈ t.backing, ∃ b, c.heap.block? a = some b) :
    (c.count Event.deletions.name + 1 < Word.limit ∧ ∃ d, c.delete slot = .ok (.ok (), d)) ∨
      (Word.limit ≤ c.count Event.deletions.name + 1 ∧ c.delete slot = .error .overflow) := by
  have hget : c.arena.get slot = .ok t := by rw [Arena.get, ht]
  rcases hv.heap.release_cases t.backing with ⟨-, heq⟩ | ⟨a, hbacking, hdead, -⟩
  · obtain ⟨arena, hremove, -⟩ := hv.arena.remove_of_get? ht
    rw [delete, hget]
    simp only [heq, hremove, Fault.ok_bind, record]
    rcases Nat.lt_or_ge (c.count Event.deletions.name + 1) Word.limit with hlt | hlimit
    · obtain ⟨tally, htally⟩ := Recorder.exists_update hv.tally hlt
      exact .inl ⟨hlt, _, by rw [htally]; rfl⟩
    · have htally := Recorder.update_of_limit hv.tally hon hlimit
      exact .inr ⟨hlimit, by rw [htally]; rfl⟩
  · obtain ⟨b, hb⟩ := hlive a hbacking
    cases hdead.symm.trans hb

/-- A texture that was deleted is gone. -/
theorem Effect.of_delete (he : Effect c (.delete slot) .done d) (hc : c.Reachable) :
    d.arena.get? slot = none ∧ d.arena.count + 1 = c.arena.count ∧
      d.count Event.deletions.name = c.count Event.deletions.name + 1 := by
  refine ⟨?_, ?_, he.count_eq hc.valid hc.tally_ne_off .deletions⟩
  · cases he with
    | delete _ _ hu => rw [hu.get?, if_pos rfl]
  · exact he.textures_eq

end Context

namespace Scene

open Context (Action Answer Effect Reachable)
open Session (call performs_delete)

variable {c₀ c c' d e : Context} {action : Action} {told : Answer} {slot : Slot} {t : Texture}
  {p : Address} {scene : Scene} {s : Settings} {budgets : Budgets} {new : Option Texture}

/-! ## What is outside of a scene -/

/-- A scene owns what one of its textures owns. -/
theorem owns_iff : scene.owns c p = true ↔
    ∃ slot ∈ scene.slots, ∃ t, c.arena.get? slot = some t ∧ t.backing = some p := by
  simp only [owns, List.any_eq_true, Option.any_eq_true, decide_eq_true_eq]

/-- A scene owns the same if its textures keep what they own. -/
theorem owns_congr (h : ∀ slot, (d.arena.get? slot).bind Texture.backing =
    (c.arena.get? slot).bind Texture.backing) (p : Address) : scene.owns d p = scene.owns c p := by
  rw [Bool.eq_iff_iff, owns_iff, owns_iff]
  refine exists_congr fun slot => and_congr_right fun _ => ?_
  rw [← Option.bind_eq_some_iff, ← Option.bind_eq_some_iff, h slot]

/-- With another texture in the place of one of the scene, the scene owns what that one owns, and no longer
what its own one did. -/
theorem owns_update (hu : c.arena.Update d.arena slot new) (hmem : slot ∈ scene.slots)
    (ht : c.arena.get? slot = some t) (p : Address) :
    t.backing = some p ∨ scene.owns d p = true ↔
      scene.owns c p = true ∨ new.bind Texture.backing = some p := by
  rw [owns_iff, owns_iff]
  constructor
  · rintro (hp | ⟨other, hother, t', ht', hp⟩)
    · exact .inl ⟨slot, hmem, t, ht, hp⟩
    · rw [hu.get?] at ht'
      split at ht'
      · exact .inr (Option.bind_eq_some_iff.mpr ⟨t', ht', hp⟩)
      · exact .inl ⟨other, hother, t', ht', hp⟩
  · rintro (⟨other, hother, t', ht', hp⟩ | hnew)
    · by_cases heq : other = slot
      · subst heq
        cases ht.symm.trans ht'
        exact .inl hp
      · exact .inr ⟨other, hother, t', by rw [hu.get?, if_neg heq, ht'], hp⟩
    · obtain ⟨t', ht', hp⟩ := Option.bind_eq_some_iff.mp hnew
      exact .inr ⟨slot, hmem, t', by rw [hu.get?, if_pos rfl, ht'], hp⟩

/-- With another texture in the place of one of the scene, nothing else in the place of the block of that one,
and new blocks for the other only, the blocks that the scene does not own stay. -/
theorem foreign_update (fresh : List Block) (hu : c.arena.Update d.arena slot new)
    (hmem : slot ∈ scene.slots) (ht : c.arena.get? slot = some t)
    (hblocks : d.heap.blocks = (fresh ++ c.heap.blocks).filter (t.backing ≠ some ·.address))
    (hfresh : ∀ b ∈ fresh, new.bind Texture.backing = some b.address)
    (hold : ∀ b ∈ c.heap.blocks, new.bind Texture.backing ≠ some b.address) :
    scene.foreign d = scene.foreign c := by
  have howns := owns_update hu hmem ht
  have hnone : fresh.filter (fun b => !scene.owns d b.address && t.backing ≠ some b.address) = [] := by
    refine List.filter_eq_nil_iff.mpr fun b hb => ?_
    rcases (howns b.address).mpr (.inr (hfresh b hb)) with hp | hp <;> simp [hp]
  rw [foreign, foreign, hblocks, List.filter_filter, List.filter_append, hnone, List.nil_append]
  refine List.filter_congr fun b hb => ?_
  have hiff := howns b.address
  simp only [hold b hb, or_false] at hiff
  rw [Bool.eq_iff_iff, Bool.and_eq_true, Bool.not_eq_true', Bool.not_eq_true', decide_eq_true_eq,
    ← Bool.not_eq_true, ← Bool.not_eq_true, ← hiff, not_or, and_comm]

namespace Alike

theorem refl (scene : Scene) (c : Context) : Alike scene c c := ⟨fun _ _ => rfl, rfl⟩

theorem trans (h : Alike scene c d) (h' : Alike scene d e) : Alike scene c e :=
  ⟨fun slot hslot => (h'.get?_eq slot hslot).trans (h.get?_eq slot hslot),
    h'.foreign_eq.trans h.foreign_eq⟩

/-- A call about a texture of the scene, or about none, changes nothing outside of it. -/
theorem of_effect (he : Effect c action told d) (hv : c.Valid) (hcall : ∀ call, action ≠ .heap call)
    (hmem : ∀ slot, c.target? action told = some slot → slot ∈ scene.slots)
    (hroom : action = .generate → c.arena.count < Slot.limit) : Alike scene c d := by
  refine ⟨fun slot hslot => he.get?_of_ne_target fun htarget => hslot (hmem slot htarget), ?_⟩
  have hsame : d.heap.blocks = c.heap.blocks →
      (∀ slot, (d.arena.get? slot).bind Texture.backing = (c.arena.get? slot).bind Texture.backing) →
      scene.foreign d = scene.foreign c := by
    intro hblocks hbacking
    rw [foreign, foreign, hblocks]
    exact List.filter_congr fun b _ => by rw [owns_congr hbacking]
  cases he with
  | @generate slot _ _ hu _ _ hnew =>
    refine hsame rfl fun other => ?_
    rw [hu.get?]
    split
    · next heq => rw [heq, hnew (hroom rfl)]; rfl
    · rfl
  | @renew _ slot t shape size pool cursor _ _ _ hrenews _ hlive =>
    refine foreign_update [⟨c.heap.cursor, pool, Array.replicate size 0⟩]
      (Arena.update_set hrenews.get?) (hmem slot hrenews.target?) hrenews.get?
      (Heap.blocks_discard hlive) ?_ ?_
    · intro b hb
      rw [List.mem_singleton.mp hb]
      rfl
    · -- All blocks in use lie below the cursor.
      intro b hb heq
      exact Address.ne_of_lt (hv.heap.below b hb) (Option.some.inj heq).symm
  | @sample slot t hbound =>
    refine hsame rfl fun other => ?_
    have hget := (Context.bound_eq_ok_iff.mp hbound).2
    rw [(Arena.update_set hget).get?]
    split
    · next heq => rw [heq, hget]; rfl
    · rfl
  | @delete slot t _ _ hget hlive hu =>
    exact foreign_update [] hu (hmem slot rfl) hget (Heap.blocks_discard hlive) nofun
      fun _ _ => nofun
  | heap => exact absurd rfl (hcall _)
  | _ => exact hsame rfl fun _ => rfl

/-- Nor do bytes that are written to a block of the scene. -/
theorem of_setBytes (ht : c.arena.get? slot = some t) (hmem : slot ∈ scene.slots)
    (hp : t.backing = some p) (bytes : Buffer) :
    Alike scene c { c with heap := c.heap.setBytes p bytes } := by
  refine ⟨fun _ _ => rfl, ?_⟩
  have howned : scene.owns c p = true := owns_iff.mpr ⟨slot, hmem, t, ht, hp⟩
  let write (b : Block) : Block := if b.address = p then { b with bytes } else b
  have haddress : ∀ b, (write b).address = b.address := fun b => by
    simp only [write]
    split <;> rfl
  have hsame : c.heap.blocks.filter ((!scene.owns c ·.address) ∘ write) = scene.foreign c :=
    List.filter_congr fun b _ => by rw [Function.comp_apply, haddress]
  show (c.heap.blocks.map write).filter (!scene.owns c ·.address) = _
  rw [List.filter_map, hsame]
  -- The block that is written to is not among those that are left.
  refine (List.map_congr_left fun b hb => ?_).trans (List.map_id _)
  have hnot := (List.mem_filter.mp hb).2
  refine if_neg fun heq => ?_
  rw [heq, howned] at hnot
  cases hnot

end Alike

/-! ## Scenes leave alone what is outside of them -/

/-- Setting up a scene changes nothing outside of it, if there are indices to spare for two textures. -/
theorem Starts.alike (h : Starts c scene d) (hc : c.Reachable)
    (hroom : c.arena.count + 1 < Slot.limit) : Alike scene c d := by
  obtain @⟨palette, page, c₁, c₂, c₃, c₄, c₅, c₆, c₇, _, p, q, hc₁, he₁, hc₂, he₂, hc₃, he₃, hc₄, he₄,
    hc₅, he₅, hc₆, he₆, hc₇, he₇, hc₈, he₈⟩ := h
  have hpalette : c₂.units.boundAt? c₂.units.active = some palette := by
    rw [(he₂.of_bind hc₁.valid).2.2, if_pos (he₂.of_bind hc₁.valid).2.1]
  have hpage : c₆.units.boundAt? c₆.units.active = some page := by
    rw [(he₆.of_bind hc₅.valid).2.2, if_pos (he₆.of_bind hc₅.valid).2.1]
  have hroom₄ : c₃.arena.count < Slot.limit := by
    rw [he₃.of_define.2, (he₂.of_bind hc₁.valid).1, (he₁.of_generate hc).2.1]
    exact hroom
  -- Each call is about one of the two textures, or about none.
  have halike : ∀ {c d : Context} {action : Action} {told : Answer}, Effect c action told d →
      c.Reachable → (∀ call, action ≠ .heap call) → (∀ slot, c.target? action told = some slot →
        slot = palette ∨ slot = page) → (action = .generate → c.arena.count < Slot.limit) →
      Alike ⟨palette, page⟩ c d := by
    intro c d action told he hc hcall htarget hroom
    exact .of_effect he hc.valid hcall (fun slot hslot => by simpa [slots] using htarget slot hslot) hroom
  have h₁ := halike he₁ hc (by simp) (fun _ h => .inl (Option.some.inj h).symm) fun _ => by omega
  have h₂ := halike he₂ hc₁ (by simp) nofun nofun
  have h₃ := halike he₃ hc₂ (by simp) (fun _ h => .inl (Option.some.inj (h.symm.trans hpalette))) nofun
  have h₄ := halike he₄ hc₃ (by simp) (fun _ h => .inr (Option.some.inj h).symm) fun _ => hroom₄
  have h₅ := halike he₅ hc₄ (by simp) nofun nofun
  have h₆ := halike he₆ hc₅ (by simp) nofun nofun
  have h₇ := halike he₇ hc₆ (by simp) (fun _ h => .inr (Option.some.inj (h.symm.trans hpage))) nofun
  have h₈ := halike he₈ hc₇ (by simp) nofun nofun
  exact ((((((h₁.trans h₂).trans h₃).trans h₄).trans h₅).trans h₆).trans h₇).trans h₈

/-- Frames change nothing outside of a scene whose textures are bound to the first two units. -/
theorem Strokes.alike (h : Strokes c₀ c) (hc₀ : c₀.Reachable) (hactive : c₀.units.active ≤ 1)
    (hunits : ∀ unit ≤ 1, ∀ slot, c₀.units.boundAt? unit = some slot → slot ∈ scene.slots) :
    Alike scene c₀ c := by
  -- The texture on the active unit is one of the scene.
  have hbound : ∀ {c slot}, Strokes c₀ c → c.units.boundAt? c.units.active = some slot →
      slot ∈ scene.slots := fun h hslot =>
    hunits _ (h.active_le hc₀ hactive) _ (((h.steady hc₀).boundAt?_eq _).symm.trans hslot)
  induction h with
  | refl => exact .refl scene c₀
  | perform h hmakes hperform ih =>
    have hv := (h.reachable hc₀).valid
    refine ih.trans (.of_effect (hv.effect hperform) hv ?_ ?_ ?_)
    · cases hmakes <;> simp
    · cases hmakes with
      | resolve | sample => exact fun _ => hbound h
      | activate | endFrame => simp [Context.target?]
    · cases hmakes <;> simp
  | paint h hslot hp _ _ _ _ number ih =>
    obtain ⟨hunit, hget⟩ := Context.bound_iff_boundAt?.mp hslot
    exact ih.trans (.of_setBytes hget (hbound h hunit) hp _)

/-! ## The end of a scene -/

/-- The calls that tear a scene down, one after the other. -/
structure Ends (c : Context) (scene : Scene) (d e : Context) : Prop where
  reachable : d.Reachable
  palette : Effect c (.delete scene.palette) .done d
  page : Effect d (.delete scene.page) .done e

/-- A scene whose textures have blocks in use is torn down, just as long as two deletions more can be
counted. -/
theorem teardown_cases {width height width' height' : Nat} (hc : c.Reachable)
    (hne : scene.page ≠ scene.palette) (hpalette : c.Padded scene.palette width height)
    (hpage : c.Padded scene.page width' height') :
    (c.count Event.deletions.name + 2 < Word.limit ∧
      ∃ d e, teardown scene c = .ok (.ok (), e) ∧ Ends c scene d e ∧ e.Reachable) ∨
    (Word.limit ≤ c.count Event.deletions.name + 2 ∧ teardown scene c = .error .overflow) := by
  obtain ⟨t, ht, hlive⟩ := hpalette.live
  rcases hc.valid.delete_cases hc.tally_ne_off ht hlive with ⟨-, d, h₁⟩ | ⟨hlimit, h₁⟩
  · obtain ⟨hd, he₁⟩ := (performs_delete scene.palette).effect hc h₁
    have hcount := (he₁.of_delete hc).2.2
    -- Deleting the palette leaves the page alone.
    have hspares : c.Spares d scene.page :=
      he₁.spares hc.valid (by simp) fun heq => hne (Option.some.inj heq).symm
    obtain ⟨t', ht', hlive'⟩ := (hpage.of_spares hspares he₁.policy_eq).live
    rcases hd.valid.delete_cases hd.tally_ne_off ht' hlive' with ⟨hlt, e, h₂⟩ | ⟨hlimit, h₂⟩
    · obtain ⟨he, he₂⟩ := (performs_delete scene.page).effect hd h₂
      rw [hcount] at hlt
      exact .inl ⟨hlt, d, e, (Session.bind_of_ok h₁).trans h₂, ⟨hd, he₁, he₂⟩, he⟩
    · rw [hcount] at hlimit
      exact .inr ⟨hlimit, (Session.bind_of_ok h₁).trans h₂⟩
  · exact .inr ⟨by omega, Session.bind_of_fault h₁⟩

theorem Ends.alike (h : Ends c scene d e) (hc : c.Reachable) : Alike scene c e :=
  (Alike.of_effect h.palette hc.valid (by simp) (fun _ h => by cases h; simp [slots]) nofun).trans
    (.of_effect h.page h.reachable.valid (by simp) (fun _ h => by cases h; simp [slots]) nofun)

/-- Where a scene has no textures, all there is lies outside of it. -/
theorem foreign_eq_blocks (h : ∀ slot ∈ scene.slots, c.arena.get? slot = none) :
    scene.foreign c = c.heap.blocks := by
  refine List.filter_eq_self.mpr fun b _ => ?_
  rw [Bool.not_eq_true', ← Bool.not_eq_true, owns_iff]
  rintro ⟨slot, hslot, t, ht, -⟩
  rw [h slot hslot] at ht
  cases ht

/-- Contexts that are alike outside of a scene, and have no textures of it, have the same textures and the
same blocks. -/
theorem Alike.restored (h : Alike scene c d) (hc : c.Reachable) (hd : d.Reachable)
    (hgone : ∀ slot ∈ scene.slots, c.arena.get? slot = none)
    (hgone' : ∀ slot ∈ scene.slots, d.arena.get? slot = none)
    (hcount : d.arena.count = c.arena.count) : Restored c d := by
  have hblocks : d.heap.blocks = c.heap.blocks := by
    rw [← foreign_eq_blocks hgone, ← foreign_eq_blocks hgone', h.foreign_eq]
  refine ⟨fun slot => ?_, hcount, hblocks, hd.valid.heap.used_congr hc.valid.heap hblocks⟩
  by_cases hslot : slot ∈ scene.slots
  · rw [hgone slot hslot, hgone' slot hslot]
  · exact h.get?_eq slot hslot

/-- **A scene that was torn down leaves no trace.** Let a scene be set up with unit 0 active, after calls of
any kind and with indices to spare for two textures, and let frames of it be drawn, wherever they stop. Then

* the next frame answers, if only with an error, as long as its number is below `2^63`, unless the sum of an
  event is within two of the end of the words;
* as long as two deletions more can be counted, tearing the scene down succeeds, and then the textures, the
  blocks in use with their pools and bytes, and what each pool is charged with are just what they were before
  it was set up. So no block is left in use if none was before;
* if they cannot, tearing it down halts the program. -/
theorem teardown_restores (hstart : Context.ofSettings s (.ofBudgets budgets) = .ok (.ok c₀))
    (hplays : Plays c₀ c) (hactive : c.units.active = 0) (hroom : c.arena.count + 1 < Slot.limit)
    (hscene : start c = .ok (.ok scene, c')) (hattempts : Attempts c' d) :
    (d.frame < frameLimit → (∃ reply e, frame d = .ok (reply, e)) ∨
      (frame d = .error .overflow ∧ d.Crowded 2)) ∧
    (c.count Event.deletions.name + 2 < Word.limit →
      ∃ e, teardown scene d = .ok (.ok (), e) ∧ Restored c e ∧ (c.heap.count = 0 → e.heap.count = 0)) ∧
    (Word.limit ≤ c.count Event.deletions.name + 2 → teardown scene d = .error .overflow) := by
  have hc := hplays.reachable hstart
  have hstarts := starts_of_start hc hscene
  have hsets := hstarts.sets hc
  have hne := hsets.page_new hroom
  have hstands := hstarts.stands hc hactive
  have hstrokes := hattempts.strokes hstands.reachable
  have hd := hstrokes.stands hstands
  have hsteady := hstrokes.steady hstands.reachable
  obtain ⟨-, htextures, hdeletions⟩ := hstarts.counts hc
  constructor
  · intro hnumber
    cases h : frame d with
    | ok reply => exact .inl ⟨reply.1, reply.2, rfl⟩
    | error fault =>
      rcases (frame_ensures hd.reachable).fault h with
        ⟨rfl, unit, hunit, hover⟩ | ⟨rfl, hcrowded | hlate⟩
      · exact absurd hover (hd.not_overrun hunit)
      · exact .inr ⟨rfl, hcrowded⟩
      · exact absurd hnumber (Nat.not_lt.mpr hlate)
  have hsame : d.count Event.deletions.name = c.count Event.deletions.name :=
    hsteady.deletions_eq.trans hdeletions
  rcases teardown_cases hd.reachable hne (hd.palette_padded hne) hd.page_padded with
    ⟨hlt, e₁, e, hteardown, hends, he⟩ | ⟨hlimit, hteardown⟩
  · rw [hsame] at hlt
    refine ⟨fun _ => ⟨e, hteardown, ?_⟩, fun hlimit => absurd hlt (Nat.not_lt.mpr hlimit)⟩
    obtain ⟨hpalette, hcount₁, -⟩ := hends.palette.of_delete hd.reachable
    obtain ⟨hpage, hcount₂, -⟩ := hends.page.of_delete hends.reachable
    have halike : Alike scene c e := by
      refine ((hstarts.alike hc hroom).trans (hstrokes.alike hstands.reachable ?_ ?_)).trans
        (hends.alike hd.reachable)
      · rw [hsets.active_eq]
        decide
      · intro unit hunit slot hslot
        obtain rfl | rfl : unit = 0 ∨ unit = 1 := by omega
        · cases hstands.first.symm.trans hslot
          simp [slots]
        · cases hstands.second.symm.trans hslot
          simp [slots]
    have hrestored : Restored c e := by
      refine halike.restored hc he ?_ ?_ ?_
      · obtain ⟨hpalette, hpage⟩ := hstarts.get?_eq_none hc hroom
        simp [slots, hpalette, hpage]
      · rw [← hends.page.get?_of_ne_target fun heq => hne (Option.some.inj heq)] at hpalette
        simp [slots, hpalette, hpage]
      · have heq := hsteady.textures_eq
        omega
    exact ⟨hrestored, fun h => by rw [Heap.count, hrestored.blocks_eq]; exact h⟩
  · rw [hsame] at hlimit
    exact ⟨fun hlt => absurd hlt (Nat.not_lt.mpr hlimit), fun _ => hteardown⟩

/-- After its first frame, the first scene is torn down. -/
theorem teardown_restores_after_frame : ∃ c₀ scene c d e,
    Context.ofSettings .standard (.ofBudgets .standard) = .ok (.ok c₀) ∧
    start c₀ = .ok (.ok scene, c) ∧ frame c = .ok (.ok (), d) ∧
    teardown scene d = .ok (.ok (), e) ∧ Restored c₀ e ∧ e.heap.count = 0 := by
  obtain ⟨c₀, scene, c, d, hstart, hactive, hcount, hscene, hframe⟩ := exists_first_frame
  have hroom : c₀.arena.count + 1 < Slot.limit := by
    rw [hcount]
    decide
  obtain ⟨-, rfl⟩ := Context.eq_start hstart
  obtain ⟨-, hteardown, -⟩ := teardown_restores hstart .refl hactive hroom hscene (Attempts.refl.next hframe)
  obtain ⟨e, hteardown, hrestored, hempty⟩ := hteardown (by decide)
  exact ⟨_, scene, c, d, e, hstart, hscene, hframe, hteardown, hrestored, hempty rfl⟩

/-- It is not torn down if so many textures were deleted before that no deletion more can be counted. -/
theorem teardown_restores_ne : ¬∀ s budgets c₀ past c scene c' d,
    Context.ofSettings s (.ofBudgets budgets) = .ok (.ok c₀) → Context.Run c₀ past c →
    (∀ step ∈ past, step.action.meddles = false) → c.units.active = 0 →
    c.arena.count + 2 < Slot.limit → start c = .ok (.ok scene, c') → Attempts c' d →
    d.frame < frameLimit → ∃ e, teardown scene d = .ok (.ok (), e) := by
  intro hall
  have hstart : Context.ofSettings .standard (.ofBudgets .standard) =
      .ok (.ok (Context.start .standard (.ofBudgets .standard))) := by rfl
  obtain ⟨past, c, hrun, hunspent, hmeddles, hcount, hdeletions⟩ :=
    Context.exists_run_of_deletions (Nat.sub_lt (show 0 < Word.limit by decide) Nat.one_pos)
  have hc := hunspent.reachable
  obtain ⟨scene, d, hscene, hnumber, -⟩ := exists_start_of_unspent hunspent (by rw [hcount]; decide)
  have hstarts := starts_of_start hc hscene
  have hstands := hstarts.stands hc hunspent.active_eq
  have hne := (hstarts.sets hc).page_new (by rw [hcount]; decide)
  obtain ⟨-, -, hsame⟩ := hstarts.counts hc
  obtain ⟨e, hteardown⟩ := hall .standard .standard _ past c scene d d hstart hrun hmeddles
    hunspent.active_eq (by rw [hcount]; decide) hscene .refl hnumber
  rcases teardown_cases hstands.reachable hne (hstands.palette_padded hne) hstands.page_padded with
    ⟨hlt, -⟩ | ⟨-, hhalts⟩
  · rw [hsame, hdeletions] at hlt
    omega
  · cases hhalts.symm.trans hteardown

end Scene

end TextureMemory
