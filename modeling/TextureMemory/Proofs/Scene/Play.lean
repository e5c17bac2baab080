import TextureMemory.Proofs.Scene.Frame
import TextureMemory.Proofs.Scene.Strokes

/-!
# Scenes between other calls

Scenes are set up, drawn and torn down in any order, with calls of any kind between them (`Scene.Plays`):
textures are bound, defined and deleted, and blocks are freed behind the back of the textures. A session that
fails may be followed by others. All this is made of calls, so it leads to contexts that runs lead to.

A frame writes rows of two bytes for a pixel to whatever is bound to units 0 and 1. Nothing keeps a texture
of another format from being bound there, and then a row may be longer than the surface has room for. It is
the one way for a frame to leave the range of a block (`Scene.frame_stays_in_range`).
-/

namespace TextureMemory.Scene

open Context (ofSettings Run Reachable)
open Session (Ensures Keeps call exists_of_passes eq_of_halts performs_generate performs_activate
  performs_bind performs_define performs_delete)

/-- Calls and scenes lead from one context to the other. -/
inductive Plays (c₀ : Context) : Context → Prop
  | refl : Plays c₀ c₀
  | call {c action told d} (h : Plays c₀ c) (hperform : c.perform action = .ok (told, d)) : Plays c₀ d
  | start {c reply d} (h : Plays c₀ c) (hstart : Scene.start c = .ok (reply, d)) : Plays c₀ d
  | frame {c reply d} (h : Plays c₀ c) (hframe : Scene.frame c = .ok (reply, d)) : Plays c₀ d
  | teardown {c s reply d} (h : Plays c₀ c) (hteardown : Scene.teardown s c = .ok (reply, d)) :
      Plays c₀ d

variable {c₀ c c' : Context} {s : Settings} {budgets : Budgets} {number : Nat}

/-! ## Scenes are made of calls -/

section

variable {I : Context → Prop}
  (hI : ∀ c action told d, I c → Context.perform c action = .ok (told, d) → I d)

include hI

/-- Setting up a scene maintains what every call does. -/
theorem maintains_start : start.Maintains I := by
  have hcall : ∀ {α : Type} {m : Session α} {action told}, m.Performs action told → m.Maintains I :=
    fun {_ _ action _} hm => hm.maintains fun c => hI c action
  exact (hcall performs_generate).bind fun palette => (hcall (performs_bind palette)).bind fun _ =>
    (hcall (performs_define _ _ _)).discard.bind fun _ => (hcall performs_generate).bind fun page =>
    (hcall (performs_activate 1)).bind fun _ => (hcall (performs_bind page)).bind fun _ =>
    (hcall (performs_define _ _ _)).discard.bind fun _ => (hcall (performs_activate 0)).bind fun _ =>
    .pure _

/-- Tearing down a scene maintains what every call does. -/
theorem maintains_teardown (scene : Scene) : (teardown scene).Maintains I := by
  have hcall : ∀ slot, (Session.call (·.delete slot)).Maintains I := fun slot =>
    (performs_delete slot).maintains fun c => hI c (.delete slot)
  exact (hcall scene.palette).bind fun _ => hcall scene.page

end

/-- Setting up a scene leads to reachable contexts only. -/
theorem keeps_start : start.Keeps := maintains_start fun _ _ _ _ hc => hc.next

/-- Drawing a frame leads to reachable contexts only, wherever it stops. -/
theorem keeps_frame : frame.Keeps := fun c hc =>
  (maintains_frame hc c .refl).mono (fun _ _ h => h.reachable hc) (fun _ _ h => h.reachable hc)
    fun _ h => h

theorem keeps_teardown (scene : Scene) : (teardown scene).Keeps :=
  maintains_teardown (fun _ _ _ _ hc => hc.next) scene

/-- Scenes do not leave the contexts that runs lead to. -/
theorem Plays.reachable (hstart : ofSettings s (.ofBudgets budgets) = .ok (.ok c₀))
    (hplays : Plays c₀ c) : c.Reachable := by
  induction hplays with
  | refl => exact .of_run hstart .start
  | call _ hperform ih => exact ih.next hperform
  | start _ h ih => exact keeps_start.reachable ih h
  | frame _ h ih => exact keeps_frame.reachable ih h
  | teardown _ h ih => exact (keeps_teardown _).reachable ih h

/-- Nothing changes the policy. -/
theorem Plays.policy_eq (hstart : ofSettings s (.ofBudgets budgets) = .ok (.ok c₀))
    (hplays : Plays c₀ c) : c.policy = ⟨s.purgeThreshold, s.alignUnit, s.memoryClass⟩ := by
  have hcall : ∀ c action told d, (c.Reachable ∧ c.policy = c₀.policy) →
      Context.perform c action = .ok (told, d) → d.Reachable ∧ d.policy = c₀.policy :=
    fun _ _ _ _ h hperform =>
      ⟨h.1.next hperform, (h.1.valid.effect hperform).policy_eq.trans h.2⟩
  have hsame : c.Reachable ∧ c.policy = c₀.policy := by
    induction hplays with
    | refl => exact ⟨.of_run hstart .start, rfl⟩
    | call _ hperform ih => exact hcall _ _ _ _ ih hperform
    | start _ h ih => exact (maintains_start hcall).holds ih h
    | frame _ h ih =>
      have hsteady := (strokes_of_frame ih.1 h).steady ih.1
      exact ⟨hsteady.reachable, hsteady.policy_eq.trans ih.2⟩
    | teardown _ h ih => exact (maintains_teardown hcall _).holds ih h
  rw [hsame.2, (Context.eq_start hstart).2]
  rfl

/-- A run goes on for a scene. -/
theorem Plays.run {past : List Context.Step} (hplays : Plays c₀ c) (hrun : Run c past c') :
    Plays c₀ c' := by
  induction hrun with
  | start => exact hplays
  | next _ hperform ih => exact ih.call hperform

/-! ## Where a frame leaves the range of a block -/

/-- A frame leaves the range of a block if the first of its uploads does. -/
theorem frame_eq_outOfRange {p : Address} {d : Context} (hc : c.Reachable)
    (hnumber : c.frame < frameLimit) (hover : c.Overrun 0)
    (hresolve : (c.activate 0).2.resolve = .ok (.ok p, d)) (hlive : d.heap.contains p = true) :
    frame c = .error .outOfRange := by
  have hactivate : activate 0 c = .ok (.ok (), (c.activate 0).2) := by
    rw [show activate 0 c = .ok (c.activate 0) from rfl, hc.valid.activate_zero]
  generalize (c.activate 0).2 = c₁ at hactivate hresolve
  have hensures : Ensures (activate 0) c _ (Fails c) (Faults c) :=
    (Draws.refl hc).activate (by decide) 0
  obtain ⟨h₁, hunit₁, -⟩ := hensures.ok hactivate
  -- The texture that is found is the one on unit 0, with the same layout.
  obtain ⟨slot, t, hfinds⟩ := exists_finds h₁.reachable hresolve
  have hredraws := h₁.toRedraws.trans (hfinds.redraws h₁.reachable)
  have hbound := hfinds.boundAt? h₁.reachable
  rw [hunit₁, h₁.boundAt?_eq] at hbound
  obtain ⟨old, hold, hlayout⟩ := hredraws.layout slot t hfinds.get?
  obtain ⟨slot', t', hbound', hget', -, hover⟩ := hover
  cases hbound.symm.trans hbound'
  cases hold.symm.trans hget'
  obtain ⟨b, hb⟩ := Option.isSome_iff_exists.mp hlive
  rw [← Texture.overruns_congr hlayout, ← h₁.policy_eq] at hover
  have hupload : call (upload c.frame) c₁ = .error .outOfRange :=
    (upload_eq_outOfRange_iff h₁.reachable hnumber).mpr ⟨d, slot, t, p, b, hfinds, hb, hover⟩
  have hget : (get : Session Context) c = .ok (.ok c, c) := rfl
  rw [frame, Session.bind_of_ok hget, Session.bind_of_ok hactivate, Session.bind_of_fault hupload]

/-- **A frame leaves the range of a block only where its rows are too long for it.** Let calls of any kind,
and scenes that are set up, drawn and torn down, lead to a context whose frame has a number below `2^63`.
Then

* drawing a frame answers, if only with an error. Otherwise it goes out of range, and the texture on unit 0
  or 1 has memory, and rows that are too short for those of a frame; or it overflows, and the sum of an event
  is within two of the end of the words;
* rows are too short for those of a frame just if the format has one byte for a pixel and the width is not
  padded to its double;
* in a block in use, the rows of a frame lie within just if those of the texture are not too short;
* if those of the texture on unit 0 are, and its block is found and is in use, the frame goes out of
  range. -/
theorem frame_stays_in_range (hstart : ofSettings s (.ofBudgets budgets) = .ok (.ok c₀))
    (hplays : Plays c₀ c) (hnumber : c.frame < frameLimit) :
    ((∃ reply d, frame c = .ok (reply, d)) ∨
      (frame c = .error .outOfRange ∧ ∃ unit ≤ 1, c.Overrun unit) ∨
      (frame c = .error .overflow ∧ c.Crowded 2)) ∧
    (∀ t : Texture, t.Overruns c.policy.unit ↔ t.handle.format.bytesPerPixel = 1 ∧
      Alignment.ceil t.handle.width c.policy.unit < 2 * t.handle.width) ∧
    (∀ slot t p b, c.arena.get? slot = some t → t.backing = some p → c.heap.block? p = some b →
      ∃ stride, t.stride? c.policy.unit = .ok (some stride) ∧
        (RowsFit b.bytes (2 * t.handle.width) stride t.handle.height ↔
          ¬t.Overruns c.policy.unit)) ∧
    (∀ p d, c.Overrun 0 → (c.activate 0).2.resolve = .ok (.ok p, d) → d.heap.contains p = true →
      frame c = .error .outOfRange) := by
  have hc := hplays.reachable hstart
  refine ⟨?_, fun t => Texture.overruns_iff (Nat.pos_of_isPowerOfTwo hc.valid.unit), ?_, ?_⟩
  · cases h : frame c with
    | ok reply => exact .inl ⟨reply.1, reply.2, rfl⟩
    | error fault =>
      rcases (frame_ensures hc).fault h with ⟨rfl, hover⟩ | ⟨rfl, hcrowded | hlate⟩
      · exact .inr (.inl ⟨rfl, hover⟩)
      · exact .inr (.inr ⟨rfl, hcrowded⟩)
      · exact absurd hnumber (Nat.not_lt.mpr hlate)
  · intro slot t p b hget hp hb
    obtain ⟨stride, hstride, -⟩ := hc.exists_stride hget hp
    exact ⟨stride, hstride, hc.rowsFit_iff hget hp hb hstride⟩
  · intro p d hover hresolve hlive
    exact frame_eq_outOfRange hc hnumber hover hresolve hlive

/-- A texture of one byte a pixel, eight pixels wide, is bound to unit 0 in place of the palette. -/
private theorem exists_rebound : ∃ c₀ scene c₁ past c,
    ofSettings .standard (.ofBudgets .standard) = .ok (.ok c₀) ∧
    start c₀ = .ok (.ok scene, c₁) ∧ Run c₁ past c ∧ c.frame < frameLimit ∧
    frame c = .error .outOfRange := by
  have hstart : ofSettings .standard (.ofBudgets .standard) =
      .ok (.ok (Context.start .standard (.ofBudgets .standard))) := by rfl
  obtain ⟨scene, c₁, hscene, hreaches⟩ := exists_of_passes
    (show start.passes (Context.start .standard (.ofBudgets .standard)) (fun _ c₁ =>
      Trace.reaches Context.perform c₁ [.generate, .bind ⟨2, 0⟩, .define .luminance8 8 1] fun _ c =>
        c.frame < frameLimit && frame.halts c .outOfRange) = true by decide +kernel)
  obtain ⟨past, c, hrun, htest⟩ := Trace.exists_of_reaches Context.perform _ hreaches
  simp only [Bool.and_eq_true, decide_eq_true_eq] at htest
  exact ⟨_, scene, c₁, past, c, hstart, hscene, hrun, htest.1, eq_of_halts htest.2⟩

/-- A frame that goes out of range finds a texture whose rows are too short. -/
theorem frame_stays_in_range_after_rebind : ∃ c₀ scene c₁ past c,
    ofSettings .standard (.ofBudgets .standard) = .ok (.ok c₀) ∧
    start c₀ = .ok (.ok scene, c₁) ∧ Run c₁ past c ∧ c.frame < frameLimit ∧
    frame c = .error .outOfRange ∧ ∃ unit ≤ 1, c.Overrun unit := by
  obtain ⟨c₀, scene, c₁, past, c, hstart, hscene, hrun, hnumber, hframe⟩ := exists_rebound
  refine ⟨c₀, scene, c₁, past, c, hstart, hscene, hrun, hnumber, hframe, ?_⟩
  have hplays : Plays c₀ c := (Plays.refl.start hscene).run hrun
  rcases (frame_stays_in_range hstart hplays hnumber).1 with ⟨reply, d, hok⟩ | ⟨-, hover⟩ | ⟨hflow, -⟩
  · cases hframe.symm.trans hok
  · exact hover
  · cases hframe.symm.trans hflow

/-- Between frames of a scene, calls may lead to where the next frame does not answer. -/
theorem frame_stays_in_range_ne : ¬∀ s budgets c₀ scene c₁ past c,
    ofSettings s (.ofBudgets budgets) = .ok (.ok c₀) → start c₀ = .ok (.ok scene, c₁) →
    Run c₁ past c → c.frame < frameLimit → ∃ reply d, frame c = .ok (reply, d) := by
  intro hall
  obtain ⟨c₀, scene, c₁, past, c, hstart, hscene, hrun, hnumber, hframe⟩ := exists_rebound
  obtain ⟨reply, d, hok⟩ := hall _ _ c₀ scene c₁ past c hstart hscene hrun hnumber
  cases hframe.symm.trans hok

end TextureMemory.Scene
