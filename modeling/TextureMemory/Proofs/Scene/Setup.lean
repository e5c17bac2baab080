import TextureMemory.Proofs.Scene.Progress

/-!
# When a scene is set up

A scene takes two textures, two blocks, two definitions that are tallied, and a second unit. A context that
has all that left (`Context.Affords`) has the scene set up, and then has less by just so much
(`Scene.exists_start`). It does not matter what else the context has been used for, not even whether the two
textures come to be one.
-/

namespace TextureMemory

namespace Context

/-- What a context has left for new textures: a second unit, counts that do not leave the range of words with
so many more textures and so many more definitions, and room for so many bytes. -/
structure Affords (c : Context) (textures definitions bytes : Nat) : Prop where
  reachable : c.Reachable
  units : 1 < c.units.count
  textures : c.arena.count + textures < Word.limit
  definitions : c.count Event.definitions.name + definitions < Word.limit
  room : c.Room bytes

/-- A context of the standard settings that has used nothing yet but textures without memory. -/
structure Unspent (c : Context) : Prop where
  reachable : c.Reachable
  policy_eq : c.policy = ⟨30, Surface.standardUnit, .main⟩
  active_eq : c.units.active = 0
  count_eq : c.units.count = 16
  heap_eq : c.heap = .ofBudgets .standard
  definitions_eq : c.count Event.definitions.name = 0
  frame_eq : c.frame = 0

variable {c d : Context} {slot : Slot} {t : Texture} {textures definitions bytes size : Nat}

/-! ## What there is at the start -/

/-- A context that was just set up with the standard settings has used nothing. -/
theorem start_unspent : (start .standard (.ofBudgets .standard)).Unspent where
  reachable := .of_run (s := .standard) (by rfl) .start
  policy_eq := rfl
  active_eq := rfl
  count_eq := rfl
  heap_eq := rfl
  definitions_eq := rfl
  frame_eq := rfl

/-- There is room for a scene and for frames of it, if two textures more can be counted. -/
theorem Unspent.affords (h : c.Unspent) (htextures : c.arena.count + 2 < Word.limit)
    (hbytes : bytes ≤ 0x1000000) : c.Affords 2 2 bytes := by
  refine ⟨h.reachable, by rw [h.count_eq]; decide, htextures, by rw [h.definitions_eq]; decide, ?_⟩
  have hpool : (Heap.ofBudgets .standard).spent + 0x1000000 ≤ Budgets.standard.get .vram := by decide
  have haddress : (Heap.ofBudgets .standard).cursor.value + 0x1000000 < Word.limit := by decide
  refine ⟨⟨.vram, by rw [h.policy_eq]; decide, ?_⟩, by rw [h.heap_eq]; omega⟩
  rw [h.heap_eq]
  exact Nat.le_trans (Nat.add_le_add_left hbytes _) hpool

/-- A texture is created, as long as one more can be counted. -/
theorem Valid.exists_generate (hv : c.Valid) (hcount : c.arena.count + 1 < Word.limit) :
    ∃ slot arena, c.generate = .ok (slot, { c with arena }) ∧ arena.count = c.arena.count + 1 ∧
      arena.get? slot = some (.blank slot) := by
  rcases hv.arena.insert_cases with ⟨slot, arena, hinsert, hupdate, -, hadd, -⟩ | ⟨hlimit, -⟩
  · refine ⟨slot, arena, ?_, hadd, (hupdate.get? slot).trans (if_pos rfl)⟩
    rw [generate, hinsert]
    rfl
  · omega

/-- The context is unspent then as well. -/
theorem Unspent.exists_generate (h : c.Unspent) (hcount : c.arena.count + 1 < Word.limit) :
    ∃ slot arena, c.perform .generate = .ok (.slot slot, { c with arena }) ∧
      { c with arena }.Unspent ∧ arena.count = c.arena.count + 1 ∧
      arena.get? slot = some (.blank slot) := by
  obtain ⟨slot, arena, hgenerate, hadd, hslot⟩ := h.reachable.valid.exists_generate hcount
  have hperform : c.perform .generate = .ok (.slot slot, { c with arena }) := by
    rw [perform, hgenerate]
    rfl
  refine ⟨slot, arena, hperform, ?_, hadd, hslot⟩
  exact ⟨h.reachable.next hperform, h.policy_eq, h.active_eq, h.count_eq, h.heap_eq, h.definitions_eq,
    h.frame_eq⟩

/-- A texture without memory is deleted, as long as one deletion more can be counted. -/
theorem Unspent.exists_delete {arena : Arena} (h : c.Unspent) (hslot : c.arena.get? slot = some t)
    (hnone : t.backing = none) (hremove : c.arena.remove slot = .ok (.ok t, arena))
    (hdeletions : c.count Event.deletions.name + 1 < Word.limit) : ∃ d,
    c.perform (.delete slot) = .ok (.done, d) ∧ d.Unspent ∧ d.arena = arena ∧
      d.count Event.deletions.name = c.count Event.deletions.name + 1 := by
  have hv := h.reachable.valid
  have hsum : c.tally.get Event.deletions.name + 1 < Word.limit := hdeletions
  obtain ⟨tally, htally⟩ := Recorder.exists_update hv.tally hsum
  have hget : c.arena.get slot = .ok t := by rw [Arena.get, hslot]
  have hrelease : c.heap.release none = .ok (.ok (), c.heap) := rfl
  have hperform : c.perform (.delete slot) =
      .ok (.done, { c with arena, units := c.units.unbindEverywhere slot, tally }) := by
    rw [perform, delete, hget]
    simp only [hnone, hrelease, hremove, record, htally, Fault.ok_bind]
    rfl
  have he := hv.effect hperform
  have hcount := fun event => he.count_eq (e := event) hv h.reachable.tally_ne_off
  refine ⟨_, hperform, ?_, rfl, hcount .deletions⟩
  refine ⟨h.reachable.next hperform, h.policy_eq, h.active_eq, ?_, h.heap_eq, ?_, h.frame_eq⟩
  · exact Units.count_unbindEverywhere.trans h.count_eq
  · exact (hcount .definitions).trans h.definitions_eq

/-- A texture is created and deleted so many times, as often as deletions can be counted. -/
theorem exists_run_of_deletions {n : Nat} (hn : n < Word.limit) : ∃ past c,
    Run (start .standard (.ofBudgets .standard)) past c ∧ c.Unspent ∧
      (∀ step ∈ past, step.action.meddles = false) ∧ c.arena.count = 0 ∧
      c.count Event.deletions.name = n := by
  induction n with
  | zero => exact ⟨[], _, .start, start_unspent, by simp, rfl, rfl⟩
  | succ n ih =>
    obtain ⟨past, c, hrun, hunspent, hmeddles, hcount, hdeletions⟩ := ih (Nat.lt_of_succ_lt hn)
    obtain ⟨slot, arena, hgenerate, hunspent₁, hcount₁, hslot⟩ :=
      hunspent.exists_generate (by rw [hcount]; decide)
    obtain ⟨arena', hremove, -, -, hcount₂⟩ := hunspent₁.reachable.valid.arena.remove_of_get? hslot
    have hdeletions₁ : { c with arena }.count Event.deletions.name = n := hdeletions
    have hback : arena'.count + 1 = arena.count := hcount₂
    obtain ⟨d, hdelete, hunspent₂, harena, hdeletions₂⟩ :=
      hunspent₁.exists_delete hslot rfl hremove (by rw [hdeletions₁]; exact hn)
    refine ⟨_, d, (hrun.next hgenerate).next hdelete, hunspent₂, ?_, ?_, ?_⟩
    · exact List.forall_mem_cons.mpr ⟨rfl, List.forall_mem_cons.mpr ⟨rfl, hmeddles⟩⟩
    · rw [harena]
      omega
    · rw [hdeletions₂, hdeletions₁]

/-! ## What a scene takes -/

/-- A texture is created. -/
theorem Affords.exists_generate (h : c.Affords (textures + 1) definitions bytes) : ∃ slot d,
    Scene.generate c = .ok (.ok slot, d) ∧ d.Affords textures definitions bytes ∧
      d.policy = c.policy ∧ d.arena.get? slot = some (.blank slot) := by
  have hlt := h.textures
  obtain ⟨slot, arena, heq, hcount, hslot⟩ := h.reachable.valid.exists_generate (by omega)
  have hgenerate : Scene.generate c = .ok (.ok slot, { c with arena }) := by
    rw [Scene.generate, Session.call, heq]
    rfl
  obtain ⟨hd, -⟩ := Session.performs_generate.effect h.reachable hgenerate
  refine ⟨slot, _, hgenerate, ⟨hd, h.units, ?_, h.definitions, h.room.pool, h.room.address⟩, rfl, hslot⟩
  show arena.count + textures < Word.limit
  omega

/-- One of the first two units is made the active one. -/
theorem Affords.exists_activate (h : c.Affords textures definitions bytes) {unit : Nat}
    (hunit : unit ≤ 1) : ∃ d, Scene.activate unit c = .ok (.ok (), d) ∧
      d.Affords textures definitions bytes ∧ d.policy = c.policy ∧ d.arena = c.arena := by
  have hunits : c.units.activate unit = .ok { c.units with active := unit } :=
    if_pos (Nat.lt_of_le_of_lt hunit h.units)
  have hactivate : Scene.activate unit c =
      .ok (.ok (), { c with units := { c.units with active := unit } }) := by
    rw [Scene.activate, Session.call, activate, hunits]
    rfl
  obtain ⟨hd, -⟩ := (Session.performs_activate unit).effect h.reachable hactivate
  exact ⟨_, hactivate, ⟨hd, h.units, h.textures, h.definitions, h.room.pool, h.room.address⟩, rfl, rfl⟩

/-- A texture that exists is bound. -/
theorem Affords.exists_bind (h : c.Affords textures definitions bytes)
    (hslot : c.arena.get? slot = some t) : ∃ d,
    Session.call (·.bind slot) c = .ok (.ok (), d) ∧ d.Affords textures definitions bytes ∧
      d.policy = c.policy ∧ d.bound = .ok (.ok (slot, t)) := by
  have hactive := h.reachable.valid.active_lt
  have hunits : c.units.bind (some slot) = .ok { c.units with
      bindings := c.units.bindings.setIfInBounds c.units.active (some slot) } := if_pos hactive
  have hbind : Session.call (·.bind slot) c = .ok (.ok (), { c with units := { c.units with
      bindings := c.units.bindings.setIfInBounds c.units.active (some slot) } }) := by
    rw [Session.call, bind, if_pos (by rw [Arena.contains, hslot]; rfl), hunits]
    rfl
  obtain ⟨hd, he⟩ := (Session.performs_bind slot).effect h.reachable hbind
  refine ⟨_, hbind, ⟨hd, ?_, h.textures, h.definitions, h.room.pool, h.room.address⟩, rfl, ?_⟩
  · show 1 < (c.units.bindings.setIfInBounds _ _).size
    rw [Array.size_setIfInBounds]
    exact h.units
  · obtain ⟨-, hunit, hbound⟩ := he.of_bind h.reachable.valid
    exact bound_iff_boundAt?.mpr ⟨(hbound _).trans (if_pos hunit), hslot⟩

/-- A texture without memory is defined. -/
theorem Affords.exists_define {format : Format} {width height : Nat}
    (h : c.Affords textures (definitions + 1) (size + Heap.alignment + bytes)) (hw : 0 < width)
    (hh : 0 < height) (hsize : Surface.size? width height format c.policy.unit = .ok (some size))
    (hsmall : size < Extent.limit) (hbound : c.bound = .ok (.ok (slot, t))) (hnone : t.backing = none) :
    ∃ p d, Session.call (·.define format width height) c = .ok (.ok p, d) ∧
      d.Affords textures definitions bytes ∧ d.policy = c.policy := by
  have hv := h.reachable.valid
  have hserves : c.heap.Serves size c.policy.request :=
    (h.room.mono (Nat.le_add_right _ _)).serves hv (Surface.size_pos hw hh hsize)
  -- The heap has a block, and there is none to be taken back.
  rcases hv.heap.exchange_cases (hv.lt_cursor hbound) size c.policy.request with
    ⟨cause, -, hrefused, -⟩ | ⟨pool, cursor, hgrants, -, hexchange⟩ |
    ⟨a, -, -, -, hbacking, -⟩ | ⟨hlarge, -⟩
  · obtain ⟨_, _, -, -, hserved⟩ := hserves.allocate_eq hv.heap hsmall
    cases hserved.symm.trans hrefused
  · have hdefinitions := h.definitions
    have hsum : c.tally.get Event.definitions.name + 1 < Word.limit := by
      rw [count] at hdefinitions
      omega
    obtain ⟨tally, htally⟩ := Recorder.exists_update hv.tally hsum
    have hdefine := define_of_exchange hw hh hsize hbound hexchange
    rw [record, htally] at hdefine
    have hcall : Session.call (·.define format width height) c = _ := hdefine
    obtain ⟨hd, he⟩ := (Session.performs_define _ _ _).effect h.reachable hcall
    have htextures := h.textures
    have hcount := he.count_le (e := .definitions) hv h.reachable.tally_ne_off (by decide)
    refine ⟨_, _, hcall, ⟨hd, h.units, ?_, by omega, ?_⟩, rfl⟩
    · rwa [he.of_define.2]
    · exact h.room.of_grants hgrants (by rw [Heap.discard_cursor]; rfl)
        (by rw [Heap.discard_budgets]; rfl) rfl
  · cases hnone.symm.trans hbacking
  · omega

end Context

namespace Scene

open Session (bind_of_ok discard_of_ok)

variable {c : Context}

/-- **A scene is set up where there is room for it.** What it takes is two textures, two definitions, and the
bytes of a palette and a page, each rounded up. What was left beside that is left after it. -/
theorem exists_start {textures definitions bytes : Nat}
    (h : c.Affords (textures + 2) (definitions + 2)
      (frameRoom (paletteBytes c.policy.unit) c.policy.unit + bytes))
    (hsmall : frameRoom (paletteBytes c.policy.unit) c.policy.unit < Extent.limit) :
    ∃ scene d, start c = .ok (.ok scene, d) ∧ d.Affords textures definitions bytes ∧
      d.policy = c.policy := by
  rw [frameRoom] at hsmall
  have hword : Extent.limit < Word.limit := by decide
  have hpalette : Surface.size? paletteWidth 1 .standard c.policy.unit =
      .ok (some (paletteBytes c.policy.unit)) := by
    rw [Surface.size?_eq h.reachable.valid.unit (by decide) (by decide)]
    exact congrArg Except.ok (Word.ofNat?_of_lt (show paletteBytes c.policy.unit < _ by omega))
  have hpage : Surface.size? pageWidth pageHeight .standard c.policy.unit =
      .ok (some (pageBytes c.policy.unit)) := by
    rw [Surface.size?_eq h.reachable.valid.unit (by decide) (by decide)]
    exact congrArg Except.ok (Word.ofNat?_of_lt (show pageBytes c.policy.unit < _ by omega))
  have hroom : frameRoom (paletteBytes c.policy.unit) c.policy.unit + bytes =
      paletteBytes c.policy.unit + Heap.alignment +
        (pageBytes c.policy.unit + Heap.alignment + bytes) := Nat.add_assoc _ _ _
  rw [hroom] at h
  -- The palette.
  obtain ⟨palette, c₁, h₁, ha₁, hp₁, hget₁⟩ := h.exists_generate
  obtain ⟨c₂, h₂, ha₂, hp₂, hbound₂⟩ := ha₁.exists_bind hget₁
  have hpolicy₂ : c₂.policy = c.policy := hp₂.trans hp₁
  obtain ⟨p, c₃, h₃, ha₃, hp₃⟩ := ha₂.exists_define (show 0 < paletteWidth by decide) Nat.one_pos
    (by rw [hpolicy₂, hpalette]) (by omega) hbound₂ rfl
  -- The page.
  obtain ⟨page, c₄, h₄, ha₄, hp₄, hget₄⟩ := ha₃.exists_generate
  obtain ⟨c₅, h₅, ha₅, hp₅, harena₅⟩ := ha₄.exists_activate (Nat.le_refl 1)
  obtain ⟨c₆, h₆, ha₆, hp₆, hbound₆⟩ := ha₅.exists_bind (harena₅ ▸ hget₄)
  have hpolicy₆ : c₆.policy = c.policy := by rw [hp₆, hp₅, hp₄, hp₃, hpolicy₂]
  obtain ⟨q, c₇, h₇, ha₇, hp₇⟩ := ha₆.exists_define (show 0 < pageWidth by decide)
    (show 0 < pageHeight by decide) (by rw [hpolicy₆, hpage]) (by omega) hbound₆ rfl
  obtain ⟨c₈, h₈, ha₈, hp₈, -⟩ := ha₇.exists_activate (Nat.zero_le 1)
  refine ⟨⟨palette, page⟩, c₈, ?_, ha₈, by rw [hp₈, hp₇, hpolicy₆]⟩
  rw [start, bind_of_ok h₁, bind_of_ok h₂, bind_of_ok (discard_of_ok h₃), bind_of_ok h₄, bind_of_ok h₅,
    bind_of_ok h₆, bind_of_ok (discard_of_ok h₇), bind_of_ok h₈]
  rfl

/-- So it is where only textures without memory were used, and then there is room for a frame of it, even of a
palette as large as the page. -/
theorem exists_start_of_unspent (h : c.Unspent) (htextures : c.arena.count + 2 < Word.limit) :
    ∃ scene d, start c = .ok (.ok scene, d) ∧ d.frame < frameLimit ∧
      d.Room (frameRoom (pageBytes d.policy.unit) d.policy.unit) := by
  have hunit : c.policy.unit = Surface.standardUnit := by rw [h.policy_eq]
  have haffords : c.Affords 2 2 (frameRoom (paletteBytes c.policy.unit) c.policy.unit +
      frameRoom (pageBytes c.policy.unit) c.policy.unit) :=
    h.affords htextures (by rw [hunit]; decide)
  obtain ⟨scene, d, hscene, haffords', hpolicy⟩ := exists_start haffords (by rw [hunit]; decide)
  have hframe : d.frame = 0 :=
    ((starts_of_start h.reachable hscene).counts h.reachable).1.trans h.frame_eq
  exact ⟨scene, d, hscene, by rw [hframe]; decide, by rw [hpolicy]; exact haffords'.room⟩

end Scene

end TextureMemory
