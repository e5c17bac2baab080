import TextureMemory.Proofs.Scene.Session
import TextureMemory.Proofs.Scene.Upload

/-!
# The strokes of a frame

Wherever a frame stops, it has come there by strokes of a few kinds: calls that make unit 0 or 1 the active
one, resolve or stamp the bound texture or end a frame, and rows of pixels that are painted in the block of
the bound texture (`Scene.Strokes`). So does every sequence of frames, whichever of them fail
(`Scene.Attempts`). What each stroke leaves true is true after all of them, and no frame needs to be followed
call by call for it.
-/

namespace TextureMemory

/-- The sum of deletions changes when a texture is deleted. -/
theorem Context.Effect.deletions_eq {c d : Context} {action : Action} {told : Answer}
    (he : Effect c action told d) (hc : c.Reachable) (hne : ∀ slot, action ≠ .delete slot) :
    d.count Event.deletions.name = c.count Event.deletions.name := by
  rw [he.count_eq hc.valid hc.tally_ne_off .deletions]
  cases action with
  | delete slot => exact absurd rfl (hne slot)
  | _ => rfl

namespace Scene

open Context (Action Answer Effect Reachable)
open Session (Maintains call performs_activate performs_sample)

/-- The calls that frames make. -/
inductive Makes : Action → Prop
  | activate {unit} (hunit : unit ≤ 1) : Makes (.activate unit)
  | resolve : Makes .resolve
  | sample : Makes .sample
  | endFrame : Makes .endFrame

/-- Calls that frames make, and rows painted in the block of the bound texture, lead from one context to the
other. -/
inductive Strokes (c₀ : Context) : Context → Prop
  | refl : Strokes c₀ c₀
  | perform {c action told d} (h : Strokes c₀ c) (hmakes : Makes action)
      (hperform : c.perform action = .ok (told, d)) : Strokes c₀ d
  | paint {c slot t p b stride} (h : Strokes c₀ c) (hbound : c.bound = .ok (.ok (slot, t)))
      (hp : t.backing = some p) (hblock : c.heap.block? p = some b)
      (hstride : t.stride? c.policy.unit = .ok (some stride))
      (hfit : RowsFit b.bytes (2 * t.handle.width) stride t.handle.height)
      (hrow : 2 * t.handle.width ≤ stride) (number : Nat) :
      Strokes c₀ { c with
        heap := c.heap.setBytes p
          (painted b.bytes (rowBytes t.handle.width number) stride t.handle.height) }

/-- Frames lead from one context to the other, whether or not they succeed. -/
inductive Attempts (c₀ : Context) : Context → Prop
  | refl : Attempts c₀ c₀
  | next {c reply d} (h : Attempts c₀ c) (hframe : frame c = .ok (reply, d)) : Attempts c₀ d

/-- What strokes leave as it was. -/
structure Steady (c d : Context) : Prop where
  reachable : d.Reachable
  policy_eq : d.policy = c.policy
  boundAt?_eq : ∀ unit, d.units.boundAt? unit = c.units.boundAt? unit
  textures_eq : d.arena.count = c.arena.count
  deletions_eq : d.count Event.deletions.name = c.count Event.deletions.name

variable {c₀ c d : Context} {action : Action} {told : Answer} {number n : Nat}
  {reply : Except TextureError Unit}

/-! ## Frames are made of strokes -/

/-- Strokes lead to reachable contexts only. -/
theorem Strokes.reachable (h : Strokes c₀ c) (hc₀ : c₀.Reachable) : c.Reachable := by
  induction h with
  | refl => exact hc₀
  | perform _ _ hperform ih => exact ih.next hperform
  | paint _ _ _ hblock _ hfit _ number ih =>
    rw [← length_rowBytes _ number] at hfit
    exact ih.painted hblock hfit

/-- An upload that answers is made of strokes. -/
theorem Upload.strokes (hu : Upload number c (.ok (reply, d))) (hc : c.Reachable)
    (h : Strokes c₀ c) : Strokes c₀ d := by
  cases hu with
  | failed hresolve => exact h.perform .resolve (Context.perform_of_resolve hresolve)
  | gone hfinds => exact h.perform .resolve hfinds.perform
  | painted hfinds hblock hstride hfit hrow =>
    rw [← (hfinds.effect hc).policy_eq] at hstride
    exact (h.perform .resolve hfinds.perform).paint hfinds.bound hfinds.backing hblock hstride hfit hrow _

/-- An upload goes on from strokes to strokes. -/
theorem maintains_upload (hc₀ : c₀.Reachable) (number : Nat) :
    (call (upload number)).Maintains (Strokes c₀) := by
  intro c h
  have hcases := upload_cases (h.reachable hc₀) number
  refine ⟨fun heq => ?_, fun heq => ?_, fun _ => trivial⟩
  all_goals
    rw [show upload number c = _ from heq] at hcases
    exact hcases.strokes (h.reachable hc₀) h

/-- A call that frames make is a stroke. -/
theorem strokes_of_performs {α : Type} {m : Session α} {a : α} {told : α → Answer}
    (hm : m.Performs action told) (hmakes : Makes action) (h : m c = .ok (.ok a, d)) : Strokes c d :=
  .perform .refl hmakes (by rw [hm c, h]; rfl)

/-- The end of a frame is a call, which answers with the number of the next one. -/
theorem exists_perform_of_endFrame
    (h : (call fun c => return (.ok (), (← c.endFrame).2) : Session Unit) c = .ok (reply, d)) :
    ∃ number, c.perform .endFrame = .ok (.frame number, d) := by
  obtain ⟨⟨number, d⟩, hend, ⟨⟩⟩ := Fault.bind_eq_ok_iff.mp h
  exact ⟨number, by rw [Context.perform, hend]; rfl⟩

/-- The end of a frame goes on from strokes to strokes. -/
theorem maintains_endFrame :
    (call fun c => return (.ok (), (← c.endFrame).2)).Maintains (Strokes c₀) := by
  intro c h
  refine ⟨fun {_ d} heq => ?_, fun {_ d} heq => ?_, fun _ => trivial⟩ <;>
    (obtain ⟨number, hperform⟩ := exists_perform_of_endFrame heq
     exact h.perform .endFrame hperform)

theorem maintains_frame (hc₀ : c₀.Reachable) : frame.Maintains (Strokes c₀) := by
  have hactivate : ∀ unit ≤ 1, (activate unit).Maintains (Strokes c₀) := fun unit hunit =>
    (performs_activate unit).maintains fun _ _ _ h hperform => h.perform (.activate hunit) hperform
  have hsample : (call (·.sample)).Maintains (Strokes c₀) :=
    performs_sample.maintains fun _ _ _ h hperform => h.perform .sample hperform
  have hend : (do activate 0; call fun c => return (.ok (), (← c.endFrame).2)).Maintains (Strokes c₀) :=
    (hactivate 0 (by decide)).bind fun _ => maintains_endFrame
  refine Maintains.get.bind fun c => (hactivate 0 (by decide)).bind fun _ =>
    (maintains_upload hc₀ c.frame).bind fun _ => hsample.bind fun _ =>
    (hactivate 1 (by decide)).bind fun _ => (maintains_upload hc₀ c.frame).bind fun _ => ?_
  by_cases hpage : c.frame % pageInterval = 0
  · simp only [if_pos hpage]
    exact hsample.bind fun _ => hend
  · simp only [if_neg hpage]
    exact hend

/-- A frame is made of strokes. -/
theorem strokes_of_frame (hc : c.Reachable) (h : frame c = .ok (reply, d)) : Strokes c d :=
  (maintains_frame hc).holds .refl h

theorem Attempts.strokes (h : Attempts c₀ c) (hc₀ : c₀.Reachable) : Strokes c₀ c := by
  induction h with
  | refl => exact .refl
  | next _ hframe ih => exact (maintains_frame hc₀).holds ih hframe

/-! ## What strokes leave as it was -/

/-- No call that frames make binds a texture. -/
theorem Makes.boundAt?_eq (hmakes : Makes action) (he : Effect c action told d) (hv : c.Valid)
    (unit : Nat) : d.units.boundAt? unit = c.units.boundAt? unit := by
  rw [he.boundAt?_eq hv]
  cases hmakes <;> rfl

/-- No stroke creates a texture or deletes one. -/
theorem Makes.textures_eq (hmakes : Makes action) (he : Effect c action told d) :
    d.arena.count = c.arena.count := by
  have heq := he.textures_eq
  cases hmakes <;> exact heq

/-- Strokes change neither the policy nor the bindings nor the number of textures, and they delete none. -/
theorem Strokes.steady (h : Strokes c₀ c) (hc₀ : c₀.Reachable) : Steady c₀ c := by
  induction h with
  | refl => exact ⟨hc₀, rfl, fun _ => rfl, rfl, rfl⟩
  | perform h hmakes hperform ih =>
    have he := ih.reachable.valid.effect hperform
    exact ⟨ih.reachable.next hperform, he.policy_eq.trans ih.policy_eq,
      fun unit => (hmakes.boundAt?_eq he ih.reachable.valid unit).trans (ih.boundAt?_eq unit),
      (hmakes.textures_eq he).trans ih.textures_eq,
      (he.deletions_eq ih.reachable (by cases hmakes <;> simp)).trans ih.deletions_eq⟩
  | paint h hbound hp hblock hstride hfit hrow number ih =>
    exact ⟨(h.paint hbound hp hblock hstride hfit hrow number).reachable hc₀, ih.policy_eq,
      ih.boundAt?_eq, ih.textures_eq, ih.deletions_eq⟩

/-- A frame works on units 0 and 1 only. -/
theorem Strokes.active_le (h : Strokes c₀ c) (hc₀ : c₀.Reachable) (hactive : c₀.units.active ≤ 1) :
    c.units.active ≤ 1 := by
  induction h with
  | refl => exact hactive
  | paint _ _ _ _ _ _ _ _ ih => exact ih
  | perform h hmakes hperform ih =>
    have he := (h.reachable hc₀).valid.effect hperform
    cases hmakes with
    | activate hunit =>
      cases he with
      | activate => exact hunit
      | reject => exact ih
      | renew hrenews | exhaust hrenews | stray hrenews => cases hrenews
    | resolve | sample | endFrame => cases he <;> exact ih

end Scene

end TextureMemory
