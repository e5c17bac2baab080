import TextureMemory.Proofs.Scene.Session
import TextureMemory.Proofs.Scene.Upload

/-!
# Drawing a frame

A frame uploads to the texture on unit 0 and stamps it, and uploads to the one on unit 1, which it stamps in
some frames only. So it is about these two textures, whatever else is there. `Scene.Draws` says what it
leaves as it was wherever it stops, and `Scene.Drawn` what it has done when it is done.

It halts the program only if one of the two textures has rows too short for a frame, or if the sum of an event
or the number of the frame is towards the end of the range of words (`Scene.frame_ensures`).
-/

namespace TextureMemory

namespace Context

/-- The texture of a slot shows the frame of a number, and is stamped with it. -/
def Bears (c : Context) (slot : Slot) (number : Nat) : Prop :=
  c.Shows slot number ∧ ∃ t, c.arena.get? slot = some t ∧ t.stamp = .frame number

variable {c d : Context} {slot other : Slot} {unit number : Nat} {t : Texture} {told : Answer}

/-- A texture that is spared keeps its mark and its picture. -/
theorem Bears.of_spares (hb : c.Bears slot number) (hspares : c.Spares d slot)
    (hpolicy : d.policy = c.policy) : d.Bears slot number := by
  obtain ⟨hshows, t, ht, hstamp⟩ := hb
  exact ⟨hshows.of_spares hspares hpolicy, t, (hspares t ht).1, hstamp⟩

/-! ## Stamping a texture -/

/-- Sampling stamps the texture on the active unit with the frame, and does nothing else. -/
theorem Effect.of_sample (he : Effect c .sample .done d) : ∃ slot t,
    c.units.boundAt? c.units.active = some slot ∧ c.arena.get? slot = some t ∧
    d = { c with arena := c.arena.set slot { t with stamp := .frame c.frame } } := by
  cases he with
  | sample hbound =>
    obtain ⟨hunit, hget⟩ := bound_iff_boundAt?.mp hbound
    exact ⟨_, _, hunit, hget, rfl⟩

/-- It draws nothing anew. -/
theorem Effect.redraws_of_sample (he : Effect c .sample .done d) (hd : d.Reachable) :
    c.Redraws d 0 := by
  obtain ⟨slot, t, -, hget, rfl⟩ := he.of_sample
  refine ⟨hd, rfl, rfl, fun _ => rfl, ?_, fun _ _ => Nat.le_refl _⟩
  intro other t' ht'
  rw [(Arena.update_set hget).get?] at ht'
  split at ht'
  · next heq =>
    cases ht'
    exact ⟨t, heq ▸ hget, rfl⟩
  · exact ⟨t', ht', rfl⟩

/-- All textures are as they were, but for a stamp. -/
theorem Effect.get?_of_sample (he : Effect c .sample .done d) (ht : c.arena.get? slot = some t) :
    ∃ stamp, d.arena.get? slot = some { t with stamp } := by
  obtain ⟨slot', t', -, hget, rfl⟩ := he.of_sample
  by_cases heq : slot = slot'
  · subst heq
    cases hget.symm.trans ht
    exact ⟨_, by rw [(Arena.update_set hget).get?, if_pos rfl]⟩
  · exact ⟨t.stamp, by rw [(Arena.update_set hget).get?, if_neg heq, ht]⟩

/-- A stamp does not change what is shown. -/
theorem Effect.shows_of_sample (he : Effect c .sample .done d) (hs : c.Shows other number) :
    d.Shows other number := by
  obtain ⟨t, p, b, stride, ht, hrest⟩ := hs
  obtain ⟨stamp, hget⟩ := he.get?_of_sample ht
  obtain ⟨slot, t', -, -, rfl⟩ := he.of_sample
  exact ⟨_, p, b, stride, hget, hrest⟩

/-- A texture that shows the frame and is sampled bears its mark. -/
theorem Effect.bears_of_sample (he : Effect c .sample .done d)
    (hunit : c.units.boundAt? c.units.active = some slot) (hs : c.Shows slot c.frame) :
    d.Bears slot c.frame := by
  refine ⟨he.shows_of_sample hs, ?_⟩
  obtain ⟨slot', t, hunit', hget, rfl⟩ := he.of_sample
  cases hunit.symm.trans hunit'
  refine ⟨{ t with stamp := .frame c.frame }, ?_, rfl⟩
  rw [(Arena.update_set hget).get?, if_pos rfl]

/-- Sampling never halts the program. -/
theorem Valid.exists_sample (hv : c.Valid) : ∃ reply, c.sample = .ok reply := by
  rcases hv.bound_cases with ⟨slot, t, hbound⟩ | ⟨cause, -, hbound⟩ <;>
    (rw [sample, hbound]; exact ⟨_, rfl⟩)

/-- Sampling succeeds where a texture is bound. -/
theorem Reachable.exists_sample (hc : c.Reachable)
    (hunit : c.units.boundAt? c.units.active = some slot) : ∃ d, c.sample = .ok (.ok (), d) := by
  rcases hc.coherent.bound_cases hc.valid with ⟨hnone, -⟩ | ⟨slot, t, -, -, hbound⟩
  · cases hunit.symm.trans hnone
  · rw [sample, hbound]
    exact ⟨_, rfl⟩

/-! ## Unit 0, and the end of a frame -/

/-- There is always a unit 0. -/
theorem Valid.activate_zero (hv : c.Valid) :
    c.activate 0 = (.ok (), { c with units := { c.units with active := 0 } }) := by
  rw [activate, Units.activate, if_pos (Nat.zero_lt_of_lt hv.active_lt)]

/-- A frame ends, unless it is the last of all. -/
theorem Valid.endFrame_cases (hv : c.Valid) :
    (∃ window, c.endFrame =
      .ok (c.frame + 1, { c with window, pending := 0, frame := c.frame + 1 })) ∨
    (Word.limit ≤ c.frame + 1 ∧ c.endFrame = .error .overflow) := by
  obtain ⟨window, hwindow⟩ : ∃ window, c.window.update (·.push c.pending) = .ok window := by
    cases hw : c.window with
    | off => exact ⟨.off, rfl⟩
    | on w =>
      have hvalid := hv.window
      rw [hw] at hvalid
      obtain ⟨w', hpush⟩ := Window.Valid.exists_push_eq_ok hvalid c.pending
      exact ⟨.on w', by rw [Recorder.update, hpush]; rfl⟩
  rw [endFrame, hwindow]
  simp only [Fault.ok_bind]
  by_cases hroom : c.frame + 1 < Word.limit
  · rw [show Word.add c.frame 1 = .ok (c.frame + 1) from if_pos hroom]
    exact .inl ⟨window, rfl⟩
  · rw [show Word.add c.frame 1 = .error .overflow from if_neg hroom]
    exact .inr ⟨Nat.le_of_not_lt hroom, rfl⟩

end Context

namespace Scene

open Context (Answer Effect Reachable)
open Session (call Ensures)

/-- Calls led from `c` to `d` that are about the textures on units 0 and 1. -/
structure Draws (c d : Context) (k : Nat) : Prop extends Context.Redraws c d k where
  spares : ∀ slot, (∀ unit ≤ 1, c.units.boundAt? unit ≠ some slot) → c.Spares d slot

/-- The textures on units 0 and 1 show the frame, and are stamped with it: the first unless the other is
the same one, which is uploaded to after it was stamped, and the second if it is to be sampled. -/
structure Marks (c d : Context) : Prop where
  shows : ∀ unit ≤ 1, ∃ slot, c.units.boundAt? unit = some slot ∧ d.Shows slot c.frame
  first : ∀ slot, c.units.boundAt? 0 = some slot → c.units.boundAt? 1 ≠ some slot →
    d.Bears slot c.frame
  second : c.frame % pageInterval = 0 → ∀ slot, c.units.boundAt? 1 = some slot →
    d.Bears slot c.frame

/-- A frame was drawn, from `c` to `d`. -/
structure Drawn (c d : Context) : Prop extends Marks c d where
  frame_eq : d.frame = c.frame + 1
  boundAt?_eq : ∀ unit, d.units.boundAt? unit = c.units.boundAt? unit
  spares : ∀ slot, (∀ unit ≤ 1, c.units.boundAt? unit ≠ some slot) → c.Spares d slot

/-- A call of a frame failed, after calls that led from `c` to `d`. -/
def Fails (c : Context) (e : TextureError) (d : Context) : Prop :=
  Draws c d 2 ∧ ∀ unit, e = .notBound unit → unit ≤ 1 ∧ c.units.boundAt? unit = none

/-- The reasons for a frame to halt the program. -/
def Faults (c : Context) (fault : Fault) : Prop :=
  (fault = .outOfRange ∧ ∃ unit ≤ 1, c.Overrun unit) ∨
    (fault = .overflow ∧ (c.Crowded 2 ∨ frameLimit ≤ c.frame))

variable {c d e : Context} {slot : Slot} {unit number k l : Nat} {told : Answer}

/-- A frame has left its marks if each unit shows it, and the textures that were sampled last bear it. -/
theorem Marks.of_bears {first second : Slot} (hfirst : c.units.boundAt? 0 = some first)
    (hsecond : c.units.boundAt? 1 = some second) (hshows : d.Shows second c.frame)
    (hbears : first ≠ second → d.Bears first c.frame)
    (hpage : c.frame % pageInterval = 0 → d.Bears second c.frame) : Marks c d where
  shows unit hunit := by
    obtain rfl | rfl : unit = 0 ∨ unit = 1 := by omega
    · refine ⟨first, hfirst, ?_⟩
      by_cases hne : first = second
      · exact hne ▸ hshows
      · exact (hbears hne).1
    · exact ⟨second, hsecond, hshows⟩
  first slot hslot hne := by
    cases hfirst.symm.trans hslot
    refine hbears ?_
    rintro rfl
    exact hne hsecond
  second h slot hslot := by
    cases hsecond.symm.trans hslot
    exact hpage h

/-- The marks of a frame stay as long as the textures are spared. -/
theorem Marks.of_spares (h : Marks c d) (hspares : ∀ slot, d.Spares e slot)
    (hpolicy : e.policy = d.policy) : Marks c e where
  shows unit hunit := by
    obtain ⟨slot, hslot, hshows⟩ := h.shows unit hunit
    exact ⟨slot, hslot, hshows.of_spares (hspares slot) hpolicy⟩
  first slot hslot hne := (h.first slot hslot hne).of_spares (hspares slot) hpolicy
  second hpage slot hslot := (h.second hpage slot hslot).of_spares (hspares slot) hpolicy

/-! ## The calls of a frame -/

namespace Draws

theorem refl (hc : c.Reachable) : Draws c c 0 := ⟨.refl hc, fun slot _ => .refl c slot⟩

/-- Fewer calls tally no more than more of them may. -/
theorem mono (h : Draws c d k) (hle : k ≤ l) : Draws c d l := by
  refine ⟨{ h.toRedraws with count_le := ?_ }, h.spares⟩
  intro e he
  exact Nat.le_trans (h.count_le e he) (Nat.add_le_add_left hle _)

/-- Calls that are about the texture on the active unit. -/
theorem next (h : Draws c d k) (hredraws : d.Redraws e l)
    (hspares : ∀ slot, d.units.boundAt? d.units.active ≠ some slot → d.Spares e slot)
    (hunit : d.units.active ≤ 1) : Draws c e (k + l) where
  toRedraws := h.toRedraws.trans hredraws
  spares slot hslot := by
    refine (h.spares slot hslot).trans (hspares slot ?_)
    rw [h.boundAt?_eq]
    exact hslot _ hunit

/-- Making a unit the active one spares all textures. -/
theorem activate (h : Draws c d k) (hk : k ≤ 2) (unit : Nat) :
    (Scene.activate unit).Ensures d
      (fun _ e => Draws c e k ∧ e.units.active = unit ∧ ∀ slot, d.Spares e slot)
      (Fails c) (Faults c) := by
  have hensures := (Session.performs_activate unit).ensures h.reachable
  refine ⟨fun hok => ?_, fun herror => ?_, fun hfault => ?_⟩
  · obtain ⟨hreachable, he⟩ := hensures.ok hok
    cases he with
    | activate hunit =>
      exact ⟨⟨⟨hreachable, h.policy_eq, h.frame_eq, h.boundAt?_eq, h.layout, h.count_le⟩, h.spares⟩,
        rfl, .refl d⟩
  · obtain ⟨hreachable, he⟩ := hensures.error herror
    cases he with
    | reject hrejects =>
      cases hrejects with
      | activate => exact ⟨h.mono hk, nofun⟩
    | exhaust hrenews => cases hrenews
    | stray hrenews => cases hrenews
  · cases (hfault : Except.ok (d.activate unit) = .error _)

/-- The texture on the active unit is stamped. -/
theorem sample (h : Draws c d k) (hk : k ≤ 2) (hunit : d.units.active ≤ 1) :
    (call (·.sample)).Ensures d (fun _ e => Draws c e k ∧ Effect d .sample .done e)
      (Fails c) (Faults c) := by
  have hensures := Session.performs_sample.ensures h.reachable
  refine ⟨fun hok => ?_, fun herror => ?_, fun hfault => ?_⟩
  · obtain ⟨hreachable, he⟩ := hensures.ok hok
    refine ⟨h.next (he.redraws_of_sample hreachable) (fun slot hne => ?_) hunit, he⟩
    exact he.spares h.reachable.valid (fun _ => nofun) hne
  · obtain ⟨hreachable, he⟩ := hensures.error herror
    cases he with
    | reject hrejects =>
      cases hrejects with
      | sample hbound =>
        refine ⟨h.mono hk, ?_⟩
        rintro unit rfl
        obtain ⟨rfl, hnone⟩ := h.reachable.boundAt?_of_bound hbound
        exact ⟨hunit, (h.boundAt?_eq _).symm.trans hnone⟩
    | exhaust hrenews => cases hrenews
    | stray hrenews => cases hrenews
  · obtain ⟨reply, hsample⟩ := h.reachable.valid.exists_sample
    cases (hfault : d.sample = .error _).symm.trans hsample

/-- The frame is uploaded to the texture on the active unit. -/
theorem upload (h : Draws c d k) (hk : k ≤ 1) (hunit : d.units.active ≤ 1) :
    (call (Scene.upload c.frame)).Ensures d
      (fun _ e => Draws c e (k + 1) ∧ e.units = d.units ∧
        ∃ slot, c.units.boundAt? d.units.active = some slot ∧ e.Shows slot c.frame ∧
          ∀ other ≠ slot, d.Spares e other)
      (Fails c) (Faults c) := by
  have hd := h.reachable
  have hcases := upload_cases hd c.frame
  have hnext : ∀ {reply e}, Scene.upload c.frame d = .ok (reply, e) → Draws c e (k + 1) := by
    intro reply e heq
    rw [heq] at hcases
    exact h.next (hcases.redraws hd) (fun slot => hcases.spares hd) hunit
  refine ⟨fun hok => ?_, fun herror => ?_, fun hfault => ?_⟩
  · have hok : Scene.upload c.frame d = _ := hok
    refine ⟨hnext hok, ?_⟩
    rw [hok] at hcases
    obtain ⟨slot, hslot, hshows⟩ := hcases.shows_of_ok hd
    refine ⟨hcases.units_eq hd, slot, (h.boundAt?_eq _).symm.trans hslot, hshows, ?_⟩
    intro other hne
    apply hcases.spares hd
    rw [hslot]
    exact fun heq => hne (Option.some.inj heq).symm
  · have herror : Scene.upload c.frame d = _ := herror
    refine ⟨(hnext herror).mono (by omega), ?_⟩
    rintro unit rfl
    rw [herror] at hcases
    obtain ⟨rfl, hnone⟩ := hcases.boundAt?_of_notBound hd
    exact ⟨hunit, (h.boundAt?_eq _).symm.trans hnone⟩
  · have hfault : Scene.upload c.frame d = _ := hfault
    rw [hfault] at hcases
    rcases hcases.fault_cases hd with ⟨rfl, hover⟩ | ⟨rfl, hcrowded | hnumber⟩
    · exact .inl ⟨rfl, _, hunit, h.overrun hover⟩
    · obtain ⟨e, he, hlimit⟩ := h.crowded hcrowded
      exact .inr ⟨rfl, .inl ⟨e, he, by omega⟩⟩
    · exact .inr ⟨rfl, .inr hnumber⟩

/-- Unit 0 is made the active one, and the frame ends. -/
theorem finish (h : Draws c d 2) (hmarks : Marks c d) :
    (do Scene.activate 0; call fun c => return (.ok (), (← c.endFrame).2) : Session Unit).Ensures d
      (fun _ e => Drawn c e) (Fails c) (Faults c) := by
  refine (h.activate (Nat.le_refl 2) 0).bind ?_
  rintro - d' ⟨h', hactive, hspares⟩
  have hframe : d'.frame = c.frame := h'.frame_eq
  have hpolicy : d'.policy = d.policy := h'.policy_eq.trans h.policy_eq.symm
  rcases h'.reachable.valid.endFrame_cases with ⟨window, hend⟩ | ⟨hlast, hend⟩
  · have hperform : d'.perform .endFrame = .ok (.frame (d'.frame + 1),
        { d' with window, pending := 0, frame := d'.frame + 1 }) := by
      rw [Context.perform, hend]
      rfl
    refine .of_ok (by rw [call, hend]; rfl) ?_
    refine ⟨(hmarks.of_spares hspares hpolicy).of_spares (fun slot => ?_) ?_,
      congrArg (· + 1) hframe, h'.boundAt?_eq, h'.spares⟩
    · exact .refl d' slot
    · rfl
  · have hlimit : frameLimit < Word.limit := by decide
    exact .of_fault (by rw [call, hend]; rfl) (.inr ⟨rfl, .inr (by omega)⟩)

end Draws

/-! ## A frame -/

/-- A frame is drawn, or one of its calls fails, or it halts the program. -/
theorem frame_ensures (hc : c.Reachable) :
    frame.Ensures c (fun _ d => Drawn c d) (Fails c) (Faults c) := by
  have hget : (get : Session Context).Ensures c (fun a d => c = a ∧ c = d) (Fails c) (Faults c) :=
    .of_ok rfl ⟨rfl, rfl⟩
  refine hget.bind ?_
  rintro _ _ ⟨rfl, rfl⟩
  -- The texture on unit 0.
  refine ((Draws.refl hc).activate (by decide) 0).bind ?_
  rintro - d₁ ⟨h₁, hunit₁, -⟩
  refine (h₁.upload (by decide) (by omega)).bind ?_
  rintro - d₂ ⟨h₂, hunits₂, first, hfirst, hshows₂, -⟩
  refine (h₂.sample (by decide) (by rw [hunits₂]; omega)).bind ?_
  rintro - d₃ ⟨h₃, he₃⟩
  rw [hunit₁] at hfirst
  have hbears₃ : d₃.Bears first c.frame := by
    rw [← h₂.frame_eq] at hshows₂ ⊢
    refine he₃.bears_of_sample ?_ hshows₂
    rw [h₂.boundAt?_eq, hunits₂, hunit₁, hfirst]
  -- The texture on unit 1.
  refine (h₃.activate (by decide) 1).bind ?_
  rintro - d₄ ⟨h₄, hunit₄, hspares₄⟩
  refine (h₄.upload (by decide) (by omega)).bind ?_
  rintro - d₅ ⟨h₅, hunits₅, second, hsecond, hshows₅, hspares₅⟩
  rw [hunit₄] at hsecond
  have hbears₅ : first ≠ second → d₅.Bears first c.frame := fun hne =>
    hbears₃.of_spares ((hspares₄ first).trans (hspares₅ first hne))
      (h₅.policy_eq.trans h₃.policy_eq.symm)
  by_cases hpage : c.frame % pageInterval = 0
  · simp only [if_pos hpage]
    refine (h₅.sample (Nat.le_refl 2) (by rw [hunits₅]; omega)).bind ?_
    rintro - d₆ ⟨h₆, he₆⟩
    have hbound₅ : d₅.units.boundAt? d₅.units.active = some second := by
      rw [h₅.boundAt?_eq, hunits₅, hunit₄, hsecond]
    refine h₆.finish (.of_bears hfirst hsecond (he₆.shows_of_sample hshows₅) ?_ fun _ => ?_)
    · intro hne
      refine (hbears₅ hne).of_spares (he₆.spares h₅.reachable.valid (fun _ => nofun) ?_)
        (h₆.policy_eq.trans h₅.policy_eq.symm)
      exact fun heq => hne (Option.some.inj (heq.symm.trans hbound₅))
    · rw [← h₅.frame_eq] at hshows₅ ⊢
      exact he₆.bears_of_sample hbound₅ hshows₅
  · simp only [if_neg hpage]
    exact h₅.finish (.of_bears hfirst hsecond hshows₅ hbears₅ fun h => absurd h hpage)

/-- Wherever a frame stops, all bindings are as they were, and all textures but those on units 0 and 1. -/
theorem frame_spares {reply : Except TextureError Unit} (hc : c.Reachable)
    (h : frame c = .ok (reply, d)) : (∀ unit, d.units.boundAt? unit = c.units.boundAt? unit) ∧
      ∀ slot, (∀ unit ≤ 1, c.units.boundAt? unit ≠ some slot) → c.Spares d slot := by
  cases reply with
  | ok =>
    have hdrawn := (frame_ensures hc).ok h
    exact ⟨hdrawn.boundAt?_eq, hdrawn.spares⟩
  | error =>
    have hdraws := ((frame_ensures hc).error h).1
    exact ⟨hdraws.boundAt?_eq, hdraws.spares⟩

/-- A unit that something is bound to can be made the active one. -/
theorem exists_activate (hunit : c.units.boundAt? unit = some slot) :
    ∃ d, activate unit c = .ok (.ok (), d) := by
  have hlt : unit < c.units.count := Nat.lt_of_not_le fun hle => by
    rw [Units.boundAt?, Array.getElem?_eq_none hle] at hunit
    cases hunit
  rw [show activate unit c = .ok (c.activate unit) from rfl, Context.activate, Units.activate,
    if_pos hlt]
  exact ⟨_, rfl⟩

/-- A texture that can be uploaded to may be stamped then. -/
theorem Draws.exists_turn (h : Draws c d k) (hk : k ≤ 1) (hunit : unit ≤ 1)
    (hslot : c.units.boundAt? unit = some slot)
    (hupload : ∀ d₁, Scene.activate unit d = .ok (.ok (), d₁) →
      ∃ d₂, Scene.upload c.frame d₁ = .ok (.ok (), d₂)) :
    ∃ d₁ d₂ d₃, Scene.activate unit d = .ok (.ok (), d₁) ∧
      call (Scene.upload c.frame) d₁ = .ok (.ok (), d₂) ∧ call (·.sample) d₂ = .ok (.ok (), d₃) ∧
      Draws c d₂ (k + 1) ∧ Draws c d₃ (k + 1) ∧ ∀ other ≠ slot, d.Spares d₃ other := by
  obtain ⟨d₁, hd₁⟩ := exists_activate ((h.boundAt?_eq unit).trans hslot)
  obtain ⟨h₁, hunit₁, hspares₁⟩ := (h.activate (by omega) unit).ok hd₁
  obtain ⟨d₂, hd₂⟩ := hupload d₁ hd₁
  obtain ⟨h₂, hunits₂, _, hslot₂, -, hspares₂⟩ := (h₁.upload hk (by omega)).ok hd₂
  rw [hunit₁] at hslot₂
  cases hslot.symm.trans hslot₂
  have hbound₂ : d₂.units.boundAt? d₂.units.active = some slot := by
    rw [h₂.boundAt?_eq, hunits₂, hunit₁, hslot]
  obtain ⟨d₃, hd₃⟩ := h₂.reachable.exists_sample hbound₂
  obtain ⟨h₃, he₃⟩ := (h₂.sample (by omega) (by rw [hunits₂]; omega)).ok hd₃
  refine ⟨d₁, d₂, d₃, hd₁, hd₂, hd₃, h₂, h₃, fun other hne => ?_⟩
  refine ((hspares₁ other).trans (hspares₂ other hne)).trans
    (he₃.spares h₂.reachable.valid (fun _ => nofun) ?_)
  exact fun heq => hne (Option.some.inj (heq.symm.trans hbound₂))

/-- A texture that is ready is uploaded to. -/
theorem Draws.exists_upload (h : Draws c d k) (hk : k ≤ 1) (hnumber : c.frame < frameLimit)
    (hslot : c.units.boundAt? unit = some slot) (hready : d.Ready slot) (d₁ : Context)
    (hd₁ : Scene.activate unit d = .ok (.ok (), d₁)) :
    ∃ d₂, Scene.upload c.frame d₁ = .ok (.ok (), d₂) := by
  obtain ⟨h₁, hunit₁, hspares₁⟩ := (h.activate (by omega) unit).ok hd₁
  have hbound₁ : d₁.units.boundAt? d₁.units.active = some slot := by
    rw [h₁.boundAt?_eq, hunit₁, hslot]
  exact Scene.exists_upload h₁.reachable hbound₁
    (hready.of_spares (hspares₁ slot) (h₁.policy_eq.trans h.policy_eq.symm)) hnumber

/-- The last calls of a frame succeed. -/
theorem Draws.exists_finish (h : Draws c d 2) (hnumber : c.frame < frameLimit)
    (hslot : c.units.boundAt? 0 = some slot) : ∃ e,
      (do Scene.activate 0; call fun c => return (.ok (), (← c.endFrame).2) : Session Unit) d =
        .ok (.ok (), e) := by
  obtain ⟨d₁, hd₁⟩ := exists_activate ((h.boundAt?_eq 0).trans hslot)
  obtain ⟨h₁, -⟩ := (h.activate (Nat.le_refl 2) 0).ok hd₁
  rw [Session.bind_of_ok hd₁]
  have hframe := h₁.frame_eq
  have hlimit : frameLimit < Word.limit := by decide
  rcases h₁.reachable.valid.endFrame_cases with ⟨window, hend⟩ | ⟨hlast, -⟩
  · rw [call, hend]
    exact ⟨_, rfl⟩
  · omega

/-- A frame is drawn where both uploads succeed. -/
theorem exists_frame_of_uploads {first second : Slot} (hc : c.Reachable)
    (hnumber : c.frame < frameLimit) (hfirst : c.units.boundAt? 0 = some first)
    (hsecond : c.units.boundAt? 1 = some second)
    (hupload : ∀ d₁, activate 0 c = .ok (.ok (), d₁) → ∃ d₂, upload c.frame d₁ = .ok (.ok (), d₂))
    (hupload' : ∀ d₁ d₂ d₃, activate 0 c = .ok (.ok (), d₁) →
      upload c.frame d₁ = .ok (.ok (), d₂) → call (·.sample) d₂ = .ok (.ok (), d₃) → Draws c d₃ 1 →
      (∀ other ≠ first, c.Spares d₃ other) →
      ∀ d₄, activate 1 d₃ = .ok (.ok (), d₄) → ∃ d₅, upload c.frame d₄ = .ok (.ok (), d₅)) :
    ∃ d, frame c = .ok (.ok (), d) := by
  have hget : (get : Session Context) c = .ok (.ok c, c) := rfl
  obtain ⟨d₁, d₂, d₃, hd₁, hd₂, hd₃, -, h₃, hspares⟩ :=
    (Draws.refl hc).exists_turn (by decide) (by decide) hfirst hupload
  obtain ⟨d₄, d₅, d₆, hd₄, hd₅, hd₆, h₅, h₆, -⟩ := h₃.exists_turn (by decide) (Nat.le_refl 1)
    hsecond (hupload' d₁ d₂ d₃ hd₁ hd₂ hd₃ h₃ hspares)
  rw [frame, Session.bind_of_ok hget, Session.bind_of_ok hd₁, Session.bind_of_ok hd₂,
    Session.bind_of_ok hd₃, Session.bind_of_ok hd₄, Session.bind_of_ok hd₅]
  by_cases hpage : c.frame % pageInterval = 0
  · simp only [if_pos hpage]
    rw [Session.bind_of_ok hd₆]
    exact h₆.exists_finish hnumber hfirst
  · simp only [if_neg hpage]
    exact h₅.exists_finish hnumber hfirst

/-- A frame is drawn to two textures that are ready. -/
theorem exists_frame {first second : Slot} (hc : c.Reachable) (hnumber : c.frame < frameLimit)
    (hfirst : c.units.boundAt? 0 = some first) (hsecond : c.units.boundAt? 1 = some second)
    (hne : second ≠ first) (hready : c.Ready first) (hready' : c.Ready second) :
    ∃ d, frame c = .ok (.ok (), d) :=
  exists_frame_of_uploads hc hnumber hfirst hsecond
    ((Draws.refl hc).exists_upload (by decide) hnumber hfirst hready)
    fun _ _ _ _ _ _ h₃ hspares => h₃.exists_upload (by decide) hnumber hsecond
      (hready'.of_spares (hspares second hne) h₃.policy_eq)

/-- Where nothing is bound to unit 0, a frame fails before it did anything. -/
theorem frame_eq_notBound (hc : c.Reachable) (hactive : c.units.active = 0)
    (hnone : c.units.boundAt? 0 = none) : frame c = .ok (.error (.notBound 0), c) := by
  have hactivate : activate 0 c = .ok (.ok (), c) := by
    have hsame : { c with units := { c.units with active := 0 } } = c := by rw [← hactive]
    rw [show activate 0 c = .ok (c.activate 0) from rfl, hc.valid.activate_zero, hsame]
  have hbound : c.bound = .ok (.error (.notBound 0)) := by
    rcases hc.coherent.bound_cases hc.valid with ⟨-, hbound⟩ | ⟨slot, t, hunit, -⟩
    · rw [hbound, hactive]
    · rw [hactive, hnone] at hunit
      cases hunit
  have hupload : call (upload c.frame) c = .ok (.error (.notBound 0), c) := by
    rw [call, upload, Context.resolve_of_not_bound hbound]
    rfl
  have hget : (get : Session Context) c = .ok (.ok c, c) := rfl
  rw [frame, Session.bind_of_ok hget, Session.bind_of_ok hactivate, Session.bind_of_error hupload]

end Scene

end TextureMemory
