import TextureMemory.Proofs.Scene.Play

/-!
# Setting up a scene

A scene binds its palette to the unit that is active when it is set up, and its page to unit 1. Its frames
look for the palette on unit 0. So they are drawn to the two textures of the scene, and to no others, if it
was set up with unit 0 active. Otherwise unit 0 keeps what it had, and the frames leave the palette alone
(`Scene.start_binds`).
-/

namespace TextureMemory

namespace Context

/-- The texture of a slot was defined with this width and height, and is as it was then. -/
def JustDefined (d : Context) (slot : Slot) (width height : Nat) : Prop :=
  ∃ (c₁ c₂ : Context) (p : Address), c₁.Reachable ∧
    Effect c₁ (.define .standard width height) (.address p) c₂ ∧
    c₁.units.boundAt? c₁.units.active = some slot ∧ c₂.Spares d slot ∧ d.policy = c₂.policy

variable {c d : Context} {told : Answer} {slot : Slot} {unit width height : Nat} {format : Format}
  {p : Address}

/-- A new texture is bound to no unit. -/
theorem Effect.of_generate (he : Effect c .generate (.slot slot) d) (hc : c.Reachable) :
    d.units = c.units ∧ d.arena.count = c.arena.count + 1 ∧ d.arena.contains slot = true ∧
      (c.arena.count < Slot.limit → c.arena.contains slot = false ∧
        ∀ unit, c.units.boundAt? unit ≠ some slot) := by
  have hfree : c.arena.count < Slot.limit → ∀ unit, d.units.boundAt? unit ≠ some slot :=
    fun hroom _ => hc.coherent.boundAt?_generate he hroom
  cases he with
  | generate _ hupdate _ hcount hnew =>
    refine ⟨rfl, hcount, ?_, fun hroom => ⟨?_, hfree hroom⟩⟩
    · rw [Arena.contains, hupdate.get?, if_pos rfl]
      rfl
    · rw [Arena.contains, hnew hroom]
      rfl

/-- A texture that was defined just now is ready, unless its format has one byte for a pixel. -/
theorem Effect.ready_of_define (he : Effect c (.define format width height) (.address p) d)
    (hv : c.Valid) (hformat : format.bytesPerPixel ≠ 1)
    (hslot : c.units.boundAt? c.units.active = some slot) : d.Ready slot := by
  have hpolicy := he.policy_eq
  cases he with
  | @renew _ _ _ _ _ pool cursor reclaims pending tally hrenews =>
    have hmoved := hrenews.moved hv pool cursor reclaims pending tally
    cases hslot.symm.trans (bound_iff_boundAt?.mp hrenews.bound).1
    obtain ⟨b, hb, -⟩ := hmoved.block
    refine ⟨_, _, hmoved.texture, rfl, ?_, rfl, ?_⟩
    · rw [Heap.contains, hb]
      rfl
    · cases hrenews with
      | define =>
        rw [Texture.overruns_iff (hpolicy ▸ Nat.pos_of_isPowerOfTwo hv.unit)]
        exact fun hover => hformat hover.1

/-- The number of the frame changes when a frame ends. -/
theorem Effect.frame_eq {action : Action} (he : Effect c action told d) (hne : action ≠ .endFrame) :
    d.frame = c.frame := by
  cases he with
  | endFrame => exact absurd rfl hne
  | _ => rfl

/-- A texture that was just defined is ready to be drawn. -/
theorem JustDefined.ready (h : d.JustDefined slot width height) : d.Ready slot := by
  obtain ⟨c₁, c₂, p, hc₁, he, hslot, hspares, hpolicy⟩ := h
  exact (he.ready_of_define hc₁.valid (by decide) hslot).of_spares hspares hpolicy

/-- Defining a texture leaves the units alone, and the number of textures. -/
theorem Effect.of_define (he : Effect c (.define format width height) told d) :
    d.units = c.units ∧ d.arena.count = c.arena.count := by
  cases he with
  | renew hrenews =>
    refine ⟨rfl, ?_⟩
    simp only [Arena.set]
    split <;> rfl
  | _ => exact ⟨rfl, rfl⟩

/-- Binding a texture changes the active unit, and no other. -/
theorem Effect.of_bind (he : Effect c (.bind slot) .done d) (hv : c.Valid) :
    d.arena = c.arena ∧ d.units.active = c.units.active ∧
      ∀ unit, d.units.boundAt? unit =
        if unit = c.units.active then some slot else c.units.boundAt? unit := by
  have hbound : ∀ unit, d.units.boundAt? unit = c.rebound (.bind slot) .done unit :=
    fun _ => he.boundAt?_eq hv
  cases he with
  | bind => exact ⟨rfl, rfl, hbound⟩

/-- Making a unit the active one changes no binding. -/
theorem Effect.of_activate (he : Effect c (.activate unit) .done d) :
    d.units.active = unit ∧ ∀ other, d.units.boundAt? other = c.units.boundAt? other := by
  cases he with
  | activate => exact ⟨rfl, fun _ => rfl⟩

end Context

namespace Scene

open Context (Effect Reachable)
open Session (Ensures exists_of_bind exists_of_discard performs_generate performs_activate performs_bind
  performs_define)

/-- The calls that set up a scene, one after the other. -/
inductive Starts (c : Context) : Scene → Context → Prop
  | intro {palette page : Slot} {c₁ c₂ c₃ c₄ c₅ c₆ c₇ c₈ : Context} {p q : Address}
      (hc₁ : c₁.Reachable) (he₁ : Effect c .generate (.slot palette) c₁)
      (hc₂ : c₂.Reachable) (he₂ : Effect c₁ (.bind palette) .done c₂)
      (hc₃ : c₃.Reachable) (he₃ : Effect c₂ (.define .standard paletteWidth 1) (.address p) c₃)
      (hc₄ : c₄.Reachable) (he₄ : Effect c₃ .generate (.slot page) c₄)
      (hc₅ : c₅.Reachable) (he₅ : Effect c₄ (.activate 1) .done c₅)
      (hc₆ : c₆.Reachable) (he₆ : Effect c₅ (.bind page) .done c₆)
      (hc₇ : c₇.Reachable)
      (he₇ : Effect c₆ (.define .standard pageWidth pageHeight) (.address q) c₇)
      (hc₈ : c₈.Reachable) (he₈ : Effect c₇ (.activate 0) .done c₈) :
      Starts c { palette, page } c₈

/-- A scene was set up, from `c` to `d`. -/
structure Sets (c : Context) (scene : Scene) (d : Context) : Prop where
  reachable : d.Reachable
  active_eq : d.units.active = 0
  boundAt?_eq : ∀ unit, d.units.boundAt? unit = if unit = 1 then some scene.page
    else if unit = c.units.active then some scene.palette else c.units.boundAt? unit
  palette_new : c.arena.count < Slot.limit → ∀ unit, c.units.boundAt? unit ≠ some scene.palette
  page_new : c.arena.count + 1 < Slot.limit → scene.page ≠ scene.palette
  palette_ready : scene.page ≠ scene.palette → d.Ready scene.palette
  page_ready : d.Ready scene.page

variable {c₀ c c' d : Context} {scene : Scene} {s : Settings} {budgets : Budgets}

/-- A scene that is set up was set up by its calls. -/
theorem starts_of_start (hc : c.Reachable)
    (h : start c = .ok (.ok scene, d)) : Starts c scene d := by
  -- The palette.
  obtain ⟨palette, c₁, h₁, h⟩ := exists_of_bind h
  obtain ⟨hc₁, he₁⟩ := performs_generate.effect hc h₁
  obtain ⟨_, c₂, h₂, h⟩ := exists_of_bind h
  obtain ⟨hc₂, he₂⟩ := (performs_bind palette).effect hc₁ h₂
  obtain ⟨_, c₃, h₃, h⟩ := exists_of_bind h
  obtain ⟨p, h₃⟩ := exists_of_discard h₃
  obtain ⟨hc₃, he₃⟩ := (performs_define _ _ _).effect hc₂ h₃
  -- The page.
  obtain ⟨page, c₄, h₄, h⟩ := exists_of_bind h
  obtain ⟨hc₄, he₄⟩ := performs_generate.effect hc₃ h₄
  obtain ⟨_, c₅, h₅, h⟩ := exists_of_bind h
  obtain ⟨hc₅, he₅⟩ := (performs_activate 1).effect hc₄ h₅
  obtain ⟨_, c₆, h₆, h⟩ := exists_of_bind h
  obtain ⟨hc₆, he₆⟩ := (performs_bind page).effect hc₅ h₆
  obtain ⟨_, c₇, h₇, h⟩ := exists_of_bind h
  obtain ⟨q, h₇⟩ := exists_of_discard h₇
  obtain ⟨hc₇, he₇⟩ := (performs_define _ _ _).effect hc₆ h₇
  obtain ⟨_, c₈, h₈, h⟩ := exists_of_bind h
  obtain ⟨hc₈, he₈⟩ := (performs_activate 0).effect hc₇ h₈
  cases h
  exact .intro hc₁ he₁ hc₂ he₂ hc₃ he₃ hc₄ he₄ hc₅ he₅ hc₆ he₆ hc₇ he₇ hc₈ he₈

/-- The textures of a scene that is set up are as they were defined. The calls that set up the page are about
no other texture. -/
theorem Starts.justDefined (h : Starts c scene d) :
    d.JustDefined scene.page pageWidth pageHeight ∧
      (scene.page ≠ scene.palette → d.JustDefined scene.palette paletteWidth 1) := by
  obtain @⟨palette, page, c₁, c₂, c₃, c₄, c₅, c₆, c₇, _, p, q, hc₁, he₁, hc₂, he₂, hc₃, he₃, hc₄, he₄,
    hc₅, he₅, hc₆, he₆, hc₇, he₇, hc₈, he₈⟩ := h
  have hpage : c₆.units.boundAt? c₆.units.active = some page := by
    rw [(he₆.of_bind hc₅.valid).2.2, if_pos (he₆.of_bind hc₅.valid).2.1]
  have hspares₈ : ∀ slot, c₇.Spares d slot := fun _ => he₈.spares hc₇.valid (by simp) nofun
  refine ⟨⟨c₆, c₇, q, hc₆, he₇, hpage, hspares₈ page, he₈.policy_eq⟩, fun hne => ?_⟩
  have hspares₄ : c₃.Spares c₄ palette :=
    he₄.spares hc₃.valid (by simp) fun heq => hne (Option.some.inj heq)
  have hspares₅ : c₄.Spares c₅ palette := he₅.spares hc₄.valid (by simp) nofun
  have hspares₆ : c₅.Spares c₆ palette := he₆.spares hc₅.valid (by simp) nofun
  have hspares₇ : c₆.Spares c₇ palette :=
    he₇.spares hc₆.valid (by simp) fun heq => hne (Option.some.inj (hpage.symm.trans heq))
  refine ⟨c₂, c₃, p, hc₂, he₃, ?_,
    (((hspares₄.trans hspares₅).trans hspares₆).trans hspares₇).trans (hspares₈ palette), ?_⟩
  · rw [(he₂.of_bind hc₁.valid).2.2, if_pos (he₂.of_bind hc₁.valid).2.1]
  · rw [he₈.policy_eq, he₇.policy_eq, he₆.policy_eq, he₅.policy_eq, he₄.policy_eq]

/-- What was set up are two textures of two units, and the first unit is active. -/
theorem Starts.sets (h : Starts c scene d) (hc : c.Reachable) : Sets c scene d := by
  obtain ⟨hpage, hpalette⟩ := h.justDefined
  obtain @⟨palette, page, c₁, c₂, c₃, c₄, c₅, c₆, c₇, _, p, q, hc₁, he₁, hc₂, he₂, hc₃, he₃, hc₄, he₄,
    hc₅, he₅, hc₆, he₆, hc₇, he₇, hc₈, he₈⟩ := h
  obtain ⟨hunits₁, hcount₁, hcontains₁, hnew₁⟩ := he₁.of_generate hc
  obtain ⟨harena₂, hactive₂, hbound₂⟩ := he₂.of_bind hc₁.valid
  obtain ⟨hunits₃, hcount₃⟩ := he₃.of_define
  obtain ⟨hunits₄, -, -, hnew₄⟩ := he₄.of_generate hc₃
  obtain ⟨hactive₅, hbound₅⟩ := he₅.of_activate
  obtain ⟨-, hactive₆, hbound₆⟩ := he₆.of_bind hc₅.valid
  obtain ⟨hunits₇, -⟩ := he₇.of_define
  obtain ⟨hactive₈, hbound₈⟩ := he₈.of_activate
  refine ⟨hc₈, hactive₈, fun unit => ?_, fun hroom => (hnew₁ hroom).2, ?_, fun hne => (hpalette hne).ready,
    hpage.ready⟩
  · rw [hbound₈, hunits₇, hbound₆, hactive₅, hbound₅, hunits₄, hunits₃, hbound₂, hunits₁]
  · intro hroom heq
    have heq : page = palette := heq
    subst heq
    have hcontains := he₃.contains (he₂.contains hcontains₁ nofun) nofun
    rw [(hnew₄ (by rw [hcount₃, harena₂, hcount₁]; exact hroom)).1] at hcontains
    cases hcontains

/-- The palette and the page are new, if there are indices to spare for two textures. -/
theorem Starts.get?_eq_none (h : Starts c scene d) (hc : c.Reachable)
    (hroom : c.arena.count + 1 < Slot.limit) :
    c.arena.get? scene.palette = none ∧ c.arena.get? scene.page = none := by
  have hne : scene.page ≠ scene.palette := (h.sets hc).page_new hroom
  obtain @⟨palette, page, c₁, c₂, c₃, c₄, c₅, c₆, c₇, _, p, q, hc₁, he₁, hc₂, he₂, hc₃, he₃, hc₄, he₄,
    -⟩ := h
  obtain ⟨-, hcount₁, -, hnew₁⟩ := he₁.of_generate hc
  obtain ⟨harena₂, -, hbound₂⟩ := he₂.of_bind hc₁.valid
  have hnew₄ := (he₄.of_generate hc₃).2.2.2 (by rw [he₃.of_define.2, harena₂, hcount₁]; exact hroom)
  have hother : c₃.arena.get? page = c.arena.get? page := by
    rw [he₃.get?_of_ne_target, harena₂, he₁.get?_of_ne_target]
    · exact fun heq => hne (Option.some.inj heq).symm
    · intro heq
      rw [Context.target?, hbound₂, if_pos (he₂.of_bind hc₁.valid).2.1] at heq
      exact hne (Option.some.inj heq).symm
  refine ⟨Option.not_isSome_iff_eq_none.mp ?_, hother ▸ Option.not_isSome_iff_eq_none.mp ?_⟩
  · exact Bool.eq_false_iff.mp (hnew₁ (by omega)).1
  · exact Bool.eq_false_iff.mp hnew₄.1

/-- Two textures are created, no frame is ended and nothing is deleted. -/
theorem Starts.counts (h : Starts c scene d) (hc : c.Reachable) : d.frame = c.frame ∧
    d.arena.count = c.arena.count + 2 ∧
    d.count Event.deletions.name = c.count Event.deletions.name := by
  obtain @⟨palette, page, c₁, c₂, c₃, c₄, c₅, c₆, c₇, _, p, q, hc₁, he₁, hc₂, he₂, hc₃, he₃, hc₄, he₄,
    hc₅, he₅, hc₆, he₆, hc₇, he₇, hc₈, he₈⟩ := h
  refine ⟨?_, ?_, ?_⟩
  · rw [he₈.frame_eq nofun, he₇.frame_eq nofun, he₆.frame_eq nofun, he₅.frame_eq nofun,
      he₄.frame_eq nofun, he₃.frame_eq nofun, he₂.frame_eq nofun, he₁.frame_eq nofun]
  · have harena₅ : c₅.arena.count = c₄.arena.count := he₅.textures_eq
    have harena₈ : d.arena.count = c₇.arena.count := he₈.textures_eq
    rw [harena₈, he₇.of_define.2, (he₆.of_bind hc₅.valid).1, harena₅, (he₄.of_generate hc₃).2.1,
      he₃.of_define.2, (he₂.of_bind hc₁.valid).1, (he₁.of_generate hc).2.1]
  · rw [he₈.deletions_eq hc₇ nofun, he₇.deletions_eq hc₆ nofun, he₆.deletions_eq hc₅ nofun,
      he₅.deletions_eq hc₄ nofun, he₄.deletions_eq hc₃ nofun, he₃.deletions_eq hc₂ nofun,
      he₂.deletions_eq hc₁ nofun, he₁.deletions_eq hc nofun]

/-- Setting up a scene. -/
theorem start_ensures (hc : c.Reachable) :
    start.Ensures c (Sets c) (fun _ _ => True) (fun _ => True) :=
  ⟨fun h => (starts_of_start hc h).sets hc, fun _ => trivial, fun _ => trivial⟩

/-- The first scene of a context, with its first frame. -/
theorem exists_first_frame : ∃ c₀ scene c d,
    Context.ofSettings .standard (.ofBudgets .standard) = .ok (.ok c₀) ∧ c₀.units.active = 0 ∧
    c₀.arena.count = 0 ∧ start c₀ = .ok (.ok scene, c) ∧ frame c = .ok (.ok (), d) := by
  have hstart : Context.ofSettings .standard (.ofBudgets .standard) =
      .ok (.ok (Context.start .standard (.ofBudgets .standard))) := by rfl
  obtain ⟨scene, c, hscene, htest⟩ := Session.exists_of_passes
    (show start.passes (Context.start .standard (.ofBudgets .standard)) (fun _ c => c.frame = 0) = true
      by decide +kernel)
  have hsets := (starts_of_start (.of_run hstart .start) hscene).sets (.of_run hstart .start)
  have hnumber : c.frame < frameLimit := by
    rw [of_decide_eq_true htest]
    decide
  have hne := hsets.page_new (by decide)
  obtain ⟨d, hframe⟩ := exists_frame hsets.reachable hnumber
    ((hsets.boundAt?_eq 0).trans (if_neg (by decide))) ((hsets.boundAt?_eq 1).trans (if_pos rfl)) hne
    (hsets.palette_ready hne) hsets.page_ready
  exact ⟨_, scene, c, d, hstart, rfl, rfl, hscene, hframe⟩

/-- **A scene is bound to where its frames look for it, if unit 0 was active.** Let calls of any kind, and
scenes that are set up, drawn and torn down, lead to a context, and let a scene be set up there. Then

* unit 0 is active. The page is bound to unit 1, the palette to the unit that was active unless it is that
  one, and the other units to what they were;
* if unit 0 was active, the next frame finds a texture on both units. Wherever it stops, it leaves all
  bindings as they are, and all textures with their blocks but the two of the scene. If it succeeds, both
  show it, and are stamped with it as they should be. And it does succeed, if there were indices to spare for
  two textures and its number is below `2^63`;
* if unit 0 was not active and there were indices to spare, the palette is not bound to it, and the next frame
  leaves the palette and its block as they are;
* if unit 0 was not active and nothing was bound to it, the next frame fails for that. -/
theorem start_binds (hstart : Context.ofSettings s (.ofBudgets budgets) = .ok (.ok c₀))
    (hplays : Plays c₀ c) (hscene : start c = .ok (.ok scene, c')) :
    (c'.units.active = 0 ∧ ∀ unit, c'.units.boundAt? unit = if unit = 1 then some scene.page
      else if unit = c.units.active then some scene.palette else c.units.boundAt? unit) ∧
    (c.units.active = 0 →
      (∀ reply d, frame c' = .ok (reply, d) → (∀ unit, reply ≠ .error (.notBound unit)) ∧
        (∀ unit, d.units.boundAt? unit = c'.units.boundAt? unit) ∧
        ∀ slot, slot ≠ scene.palette → slot ≠ scene.page → c'.Spares d slot) ∧
      (∀ d, frame c' = .ok (.ok (), d) →
        d.Shows scene.palette c'.frame ∧ d.Shows scene.page c'.frame ∧
        (scene.palette ≠ scene.page → d.Bears scene.palette c'.frame) ∧
        (c'.frame % pageInterval = 0 → d.Bears scene.page c'.frame)) ∧
      (c.arena.count + 1 < Slot.limit → c'.frame < frameLimit →
        ∃ d, frame c' = .ok (.ok (), d))) ∧
    (c.units.active ≠ 0 → c.arena.count + 1 < Slot.limit →
      c'.units.boundAt? 0 ≠ some scene.palette ∧
      ∀ reply d, frame c' = .ok (reply, d) → c'.Spares d scene.palette) ∧
    (c.units.active ≠ 0 → c.units.boundAt? 0 = none →
      frame c' = .ok (.error (.notBound 0), c')) := by
  have hc := hplays.reachable hstart
  have hsets := (start_ensures hc).ok hscene
  have hensures := frame_ensures hsets.reachable
  have hfirst := hsets.boundAt?_eq 0
  have hsecond := hsets.boundAt?_eq 1
  rw [if_neg (by decide)] at hfirst
  rw [if_pos rfl] at hsecond
  refine ⟨⟨hsets.active_eq, hsets.boundAt?_eq⟩, ?_, ?_, ?_⟩
  · intro hactive
    rw [if_pos hactive.symm] at hfirst
    refine ⟨fun reply d h => ?_, fun d h => ?_, fun hroom hnumber => ?_⟩
    · obtain ⟨hbound, hspares⟩ := frame_spares hsets.reachable h
      refine ⟨?_, hbound, fun slot hpalette hpage => hspares slot ?_⟩
      · rintro unit rfl
        obtain ⟨hunit, hnone⟩ := (hensures.error h).2 unit rfl
        obtain rfl | rfl : unit = 0 ∨ unit = 1 := by omega
        · cases hfirst.symm.trans hnone
        · cases hsecond.symm.trans hnone
      · intro unit hunit hslot
        obtain rfl | rfl : unit = 0 ∨ unit = 1 := by omega
        · exact hpalette (Option.some.inj (hslot.symm.trans hfirst))
        · exact hpage (Option.some.inj (hslot.symm.trans hsecond))
    · have hdrawn := hensures.ok h
      obtain ⟨_, hslot₀, hshows₀⟩ := hdrawn.shows 0 (by decide)
      obtain ⟨_, hslot₁, hshows₁⟩ := hdrawn.shows 1 (by decide)
      cases hfirst.symm.trans hslot₀
      cases hsecond.symm.trans hslot₁
      refine ⟨hshows₀, hshows₁, fun hne => hdrawn.first _ hfirst ?_,
        fun hpage => hdrawn.second hpage _ hsecond⟩
      rw [hsecond]
      exact fun heq => hne (Option.some.inj heq).symm
    · have hne := hsets.page_new hroom
      exact exists_frame hsets.reachable hnumber hfirst hsecond hne (hsets.palette_ready hne)
        hsets.page_ready
  · intro hactive hroom
    rw [if_neg (Ne.symm hactive)] at hfirst
    have hnew := hsets.palette_new (by omega)
    refine ⟨hfirst ▸ hnew 0, fun reply d h => (frame_spares hsets.reachable h).2 _ ?_⟩
    intro unit hunit
    obtain rfl | rfl : unit = 0 ∨ unit = 1 := by omega
    · exact hfirst ▸ hnew 0
    · rw [hsecond]
      exact fun heq => hsets.page_new hroom (Option.some.inj heq)
  · intro hactive hnone
    rw [if_neg (Ne.symm hactive), hnone] at hfirst
    exact frame_eq_notBound hsets.reachable hsets.active_eq hfirst

/-- A scene that is set up with unit 1 active. -/
private theorem exists_started_on_second : ∃ c₀ past c scene c',
    Context.ofSettings .standard (.ofBudgets .standard) = .ok (.ok c₀) ∧ Context.Run c₀ past c ∧
    start c = .ok (.ok scene, c') ∧ c.units.active = 1 ∧ c.units.boundAt? 0 = none := by
  have hstart : Context.ofSettings .standard (.ofBudgets .standard) =
      .ok (.ok (Context.start .standard (.ofBudgets .standard))) := by rfl
  obtain ⟨past, c, hrun, htest⟩ := Trace.exists_of_reaches Context.perform [.activate 1]
    (show Trace.reaches Context.perform (Context.start .standard (.ofBudgets .standard)) _ (fun _ c =>
      c.units.active = 1 && c.units.boundAt? 0 = none && start.passes c fun _ _ => true) = true by
      decide +kernel)
  simp only [Bool.and_eq_true, decide_eq_true_eq] at htest
  obtain ⟨⟨hactive, hnone⟩, hpasses⟩ := htest
  obtain ⟨scene, c', hscene, -⟩ := Session.exists_of_passes hpasses
  exact ⟨_, past, c, scene, c', hstart, hrun, hscene, hactive, hnone⟩

/-- The first frame of a scene that was set up with unit 1 active finds nothing on unit 0. -/
theorem start_binds_after_activate : ∃ c₀ past c scene c',
    Context.ofSettings .standard (.ofBudgets .standard) = .ok (.ok c₀) ∧ Context.Run c₀ past c ∧
    start c = .ok (.ok scene, c') ∧ frame c' = .ok (.error (.notBound 0), c') := by
  obtain ⟨c₀, past, c, scene, c', hstart, hrun, hscene, hactive, hnone⟩ := exists_started_on_second
  refine ⟨c₀, past, c, scene, c', hstart, hrun, hscene, ?_⟩
  exact (start_binds hstart (Plays.refl.run hrun) hscene).2.2.2 (by rw [hactive]; decide) hnone

/-- A scene that is set up does not always have its palette on unit 0. -/
theorem start_binds_ne : ¬∀ s budgets c₀ c scene c',
    Context.ofSettings s (.ofBudgets budgets) = .ok (.ok c₀) → Plays c₀ c →
    start c = .ok (.ok scene, c') →
    c'.units.active = 0 ∧ c'.units.boundAt? 0 = some scene.palette ∧
      c'.units.boundAt? 1 = some scene.page := by
  intro hall
  obtain ⟨c₀, past, c, scene, c', hstart, hrun, hscene, hactive, hnone⟩ := exists_started_on_second
  have hplays : Plays c₀ c := Plays.refl.run hrun
  have hpalette := (hall _ _ c₀ c scene c' hstart hplays hscene).2.1
  have hsets := (start_ensures (hplays.reachable hstart)).ok hscene
  rw [hsets.boundAt?_eq, hactive, if_neg (by decide), if_neg (by decide), hnone] at hpalette
  cases hpalette

end Scene

end TextureMemory
