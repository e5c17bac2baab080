import TextureMemory.Proofs.Context.Run

/-!
# A context seen later, and with nothing measured

Two things about a context make no difference to what calls do: how many frames have passed on the whole,
and whether anything is measured. `Context.image` is a context as it is some frames later, with all stamps
that name a frame, and with or without what it has measured. Every call on the image does what it would
have done on the context, and answers and leaves the image of that (`Context.perform_image`), and so do
calls one after the other (`Context.play_image`).

Nothing looks at the number of a frame for itself. A stamp is compared with the current frame, and what
counts is how many frames lie between them (`Policy.reclaims_later`). The one exception is the end of the
last frame that a word can number, which comes sooner for a context that is later
(`Context.overruns`).

What is measured is written and never read. But recording may halt the program, and where nothing is
recorded it does not. So the image follows strictly, in the sense of `Fault.Follows`, only if it measures
what the context does.
-/

namespace TextureMemory

variable {k : Nat} {measured : Bool}

/-! ## Textures -/

/-- The stamp, so many frames later. A stamp that names no frame stays. -/
def Stamp.later (k : Nat) : Stamp → Stamp
  | .unused => .unused
  | .frame n => .frame (n + k)

/-- The texture with its stamp so many frames later. -/
def Texture.later (k : Nat) (t : Texture) : Texture := { t with stamp := t.stamp.later k }

theorem Stamp.later_zero (stamp : Stamp) : stamp.later 0 = stamp := by cases stamp <;> rfl

theorem Texture.later_zero (t : Texture) : t.later 0 = t := by
  rw [Texture.later, Stamp.later_zero]

/-- The policy asks how many frames have elapsed, and not which. -/
theorem Policy.reclaims_later (p : Policy) (stamp : Stamp) (n : Nat) :
    p.reclaims (stamp.later k) (n + k) = p.reclaims stamp n := by
  cases stamp with
  | unused => rfl
  | frame m =>
    rw [reclaims, reclaims, Stamp.later, Stamp.elapsed?, Stamp.elapsed?, Nat.add_sub_add_right]

/-- The policy finds the same address for a texture that is later. -/
theorem Policy.resolve_later (p : Policy) (t : Texture) (heap : Heap) (n : Nat) :
    p.resolve (t.later k) heap (n + k) = p.resolve t heap n := by
  have hreclaims : p.reclaims (t.later k).stamp (n + k) = p.reclaims t.stamp n :=
    p.reclaims_later t.stamp n
  rw [resolve, resolve, hreclaims]
  rfl

/-! ## The arena -/

/-- The entry with its texture so many frames later. -/
def Entry.later (k : Nat) (e : Entry) : Entry := { e with texture := e.texture.map (·.later k) }

namespace Arena

/-- The arena with all textures so many frames later. -/
def later (k : Nat) (a : Arena) : Arena := { a with entries := a.entries.map (·.later k) }

/-- Where no frames have passed, nothing is later. -/
theorem later_zero (a : Arena) : a.later 0 = a := by
  have hentry : Entry.later 0 = id := by
    funext e
    have htexture : (fun t : Texture => t.later 0) = id := funext Texture.later_zero
    rw [Entry.later, htexture, Option.map_id]
    rfl
  rw [later, hentry, Array.map_id]

/-- Later textures are found under the same slots. -/
theorem get?_later (a : Arena) (s : Slot) : (a.later k).get? s = (a.get? s).map (·.later k) := by
  rw [get?, get?, later, Array.getElem?_map]
  cases a.entries[s.index]? with
  | none => rfl
  | some e =>
    show (if e.generation = s.generation then e.texture.map (·.later k) else none) =
      (if e.generation = s.generation then e.texture else none).map (·.later k)
    split <;> rfl

theorem get_later (a : Arena) (s : Slot) : (a.later k).get s = (a.get s).map (·.later k) := by
  rw [get, get, get?_later]
  cases a.get? s <;> rfl

theorem contains_later (a : Arena) (s : Slot) : (a.later k).contains s = a.contains s := by
  rw [contains, contains, get?_later, Option.isSome_map]

/-- Later textures come in the same order. -/
theorem toList_later (a : Arena) : (a.later k).toList = a.toList.map (·.later k) := by
  rw [toList, toList, later, Array.toList_map, List.filterMap_map, List.map_filterMap]
  rfl

/-- Where one entry is changed, it may be changed before or after. -/
theorem modify_later {entries : Array Entry} {i : Nat} {f f' : Entry → Entry}
    (h : ∀ e, (f e).later k = f' (e.later k)) :
    (entries.map (·.later k)).modify i f' = (entries.modify i f).map (·.later k) := by
  apply Array.ext_getElem?
  intro j
  rw [Array.getElem?_modify, Array.getElem?_map, Array.getElem?_map, Array.getElem?_modify]
  split
  · rw [Option.map_map, Option.map_map]
    congr 1
    funext e
    exact (h e).symm
  · rfl

/-- A texture that is changed is changed in the later arena as well. -/
theorem set_later (a : Arena) (s : Slot) (t : Texture) :
    (a.later k).set s (t.later k) = (a.set s t).later k := by
  rw [set, set, contains_later]
  split
  · rw [later, later, modify_later]
    intro e
    rfl
  · rfl

/-- The same entry is vacant. -/
theorem vacancy_later (a : Arena) : (a.later k).vacancy = a.vacancy.map id (later k) := by
  have hvacant : (a.later k).vacant = a.vacant := rfl
  rw [vacancy, vacancy, hvacant]
  cases a.vacant with
  | cons i vacant => rfl
  | nil =>
    have hsize : (a.later k).entries.size = a.entries.size := Array.size_map
    rw [hsize, later]
    simp only [Prod.map, id, later, Array.map_push]
    rfl

/-- A new texture gets the same slot. -/
theorem insert_later (a : Arena) :
    Fault.Follows measured (Prod.map id (later k)) a.insert (a.later k).insert := by
  rw [insert, insert, vacancy_later]
  obtain ⟨i, grown⟩ := a.vacancy
  have hentry : (grown.later k).entries[i]? = grown.entries[i]?.map (·.later k) :=
    Array.getElem?_map
  simp only [Prod.map, hentry, id]
  cases grown.entries[i]? with
  | none => exact .halt _
  | some e =>
    refine .same fun count => ?_
    -- A new texture has not been sampled, so it is the same at any time.
    have hblank : (grown.later k).entries.setIfInBounds i
          ⟨e.generation, some (.blank ⟨i, e.generation⟩)⟩ =
        (grown.entries.setIfInBounds i
          ⟨e.generation, some (.blank ⟨i, e.generation⟩)⟩).map (·.later k) := by
      rw [Array.map_setIfInBounds]
      rfl
    exact .answer_eq (Prod.ext rfl (congrArg (Arena.mk · grown.vacant count) hblank))

/-- The same texture is taken out. -/
theorem remove_later (a : Arena) (s : Slot) :
    Fault.Follows measured (Prod.map (Except.map (·.later k)) (later k)) (a.remove s)
      ((a.later k).remove s) := by
  rw [remove, remove, get?_later]
  cases a.get? s with
  | none => exact .answer _
  | some t =>
    refine .same fun count => ?_
    have hvacated : (a.later k).entries.modify s.index
          (fun e => ⟨(e.generation + 1) % Slot.limit, none⟩) =
        (a.entries.modify s.index
          fun e => ⟨(e.generation + 1) % Slot.limit, none⟩).map (·.later k) :=
      modify_later fun e => rfl
    rw [hvacated]
    exact .answer _

end Arena

/-! ## Contexts -/

/-- A measurement, if it is kept. -/
def Recorder.kept {α : Type} (r : Recorder α) (measured : Bool) : Recorder α :=
  if measured then r else .off

/-- Where nothing is measured, recording is left out. -/
theorem Recorder.update_kept {α : Type} (r : Recorder α) (f : α → Except Fault α) :
    Fault.Follows measured (·.kept measured) (r.update f) ((r.kept measured).update f) := by
  cases measured with
  | true => exact .refl
  | false => exact .of_answers fun _ _ => rfl

namespace Context

/-- The context so many frames later, with all stamps that name a frame, and with or without what it has
measured. -/
def image (k : Nat) (measured : Bool) (c : Context) : Context :=
  { c with
    arena := c.arena.later k
    frame := c.frame + k
    tally := c.tally.kept measured
    window := c.window.kept measured }

/-- The answer so many frames later. -/
def Answer.later (k : Nat) : Answer → Answer
  | .frame n => .frame (n + k)
  | told => told

theorem Answer.later_zero (told : Answer) : told.later 0 = told := by cases told <;> rfl

/-- The call as it is on the image of the context. -/
def Step.image (k : Nat) (measured : Bool) (step : Step) : Step where
  before := step.before.image k measured
  action := step.action
  answer := step.answer.later k
  after := step.after.image k measured

/-- Whether one of the calls is to end the last frame that a word can number. -/
def overruns (c : Context) : List Action → Bool
  | [] => false
  | action :: rest =>
    (action = .endFrame && Word.limit ≤ c.frame + 1) ||
      match c.perform action with
      | .ok (_, c') => c'.overruns rest
      | .error _ => false

/-! ### One call -/

/-- Tallying an event is done on the image as on the context, if it measures. -/
theorem record_image (c : Context) (event : Event) (n : Nat) :
    Fault.Follows measured (image k measured) (c.record event n)
      ((c.image k measured).record event n) := by
  rw [record, record]
  exact (c.tally.update_kept _).bind fun tally => .answer _

/-- Giving a texture a new block, and recording it. -/
theorem record_moved_image (c : Context) (heap : Heap) (slot : Slot) (shape : Texture)
    (fresh : Address) (reclaims pending : Nat) (event : Event) (n : Nat) :
    Fault.Follows measured (image k measured)
      (record { c with heap, arena := c.arena.set slot (shape.moveTo fresh), reclaims, pending }
        event n)
      (record { c.image k measured with
        heap, arena := (c.image k measured).arena.set slot ((shape.later k).moveTo fresh), reclaims,
        pending } event n) := by
  -- A block that is new has not been sampled, at whatever time.
  have hset : (c.image k measured).arena.set slot ((shape.later k).moveTo fresh) =
      (c.arena.set slot (shape.moveTo fresh)).later k := c.arena.set_later slot (shape.moveTo fresh)
  rw [hset]
  exact record_image
    { c with heap, arena := c.arena.set slot (shape.moveTo fresh), reclaims, pending } event n

/-- The same texture is bound. -/
theorem bound_image (c : Context) :
    Fault.Follows measured (Except.map (Prod.map id (Texture.later k))) c.bound
      (c.image k measured).bound := by
  rw [bound, bound]
  refine .same fun slot => ?_
  cases slot with
  | error e => exact .answer _
  | ok slot =>
    have hget : (c.image k measured).arena.get slot = (c.arena.get slot).map (·.later k) :=
      c.arena.get_later slot
    simp only [hget]
    cases c.arena.get slot <;> exact .answer _

/-- Creating a texture gives the image of the context that it would have given. -/
theorem generate_image (c : Context) :
    Fault.Follows measured (Prod.map id (image k measured)) c.generate
      (c.image k measured).generate := by
  rw [generate, generate]
  refine c.arena.insert_later.bind ?_
  rintro ⟨slot, arena⟩
  exact .answer _

theorem activate_image (c : Context) (unit : Nat) :
    (c.image k measured).activate unit = Prod.map id (image k measured) (c.activate unit) := by
  have hunits : (c.image k measured).units.activate unit = c.units.activate unit := rfl
  rw [activate, activate, hunits]
  cases c.units.activate unit <;> rfl

theorem bind_image (c : Context) (slot : Slot) :
    Fault.Follows measured (Prod.map id (image k measured)) (c.bind slot)
      ((c.image k measured).bind slot) := by
  have hcontains : (c.image k measured).arena.contains slot = c.arena.contains slot :=
    c.arena.contains_later slot
  rw [bind, bind, hcontains]
  cases c.arena.contains slot with
  | false => exact .answer _
  | true => exact .same fun _ => .answer _

theorem unbind_image (c : Context) :
    Fault.Follows measured (image k measured) c.unbind (c.image k measured).unbind := by
  rw [unbind, unbind]
  exact .same fun _ => .answer _

/-- So does defining one: its surface and its block do not depend on the frame. -/
theorem define_image (c : Context) (format : Format) (width height : Nat) :
    Fault.Follows measured (Prod.map id (image k measured)) (c.define format width height)
      ((c.image k measured).define format width height) := by
  rw [define, define]
  by_cases hempty : width = 0 ∨ height = 0
  · rw [if_pos hempty, if_pos hempty]
    exact .answer _
  rw [if_neg hempty, if_neg hempty]
  refine .same fun size => ?_
  cases size with
  | error e => exact .answer _
  | ok size =>
    refine (bound_image c).bind fun bound => ?_
    obtain e | ⟨slot, t⟩ := bound
    · exact .answer _
    · refine .same fun reply => ?_
      obtain ⟨(cause | cause) | fresh, heap⟩ := reply
      · exact (record_image _ _ _).bind fun _ => .answer _
      · exact .answer _
      · exact (record_moved_image c heap slot (t.reshape format width height) fresh c.reclaims
          c.pending .definitions 1).bind fun _ => .answer _

/-- So does resolving one: whether its block is replaced depends on how many frames have elapsed. -/
theorem resolve_image (c : Context) :
    Fault.Follows measured (Prod.map id (image k measured)) c.resolve (c.image k measured).resolve := by
  rw [resolve, resolve]
  refine (bound_image c).bind fun bound => ?_
  obtain e | ⟨slot, t⟩ := bound
  · exact .answer _
  · have hresolve : (c.image k measured).policy.resolve (t.later k) (c.image k measured).heap
          (c.image k measured).frame =
        c.policy.resolve t c.heap c.frame := c.policy.resolve_later t c.heap c.frame
    simp only [Except.map, Prod.map, id, hresolve]
    refine .same fun reply => ?_
    obtain ⟨e | (address | ⟨fresh, previous, size⟩), heap⟩ := reply
    · cases e with
      | memory cause => exact (record_image _ _ _).bind fun _ => .answer _
      | _ => exact .answer _
    · exact .answer _
    · refine .same fun reclaims => .same fun pending => ?_
      refine (record_moved_image c heap slot t fresh reclaims pending .reclaims 1).bind fun c => ?_
      exact (record_image _ _ _).bind fun _ => .answer _

/-- So does sampling one: the stamp names the later frame. -/
theorem sample_image (c : Context) :
    Fault.Follows measured (Prod.map id (image k measured)) c.sample (c.image k measured).sample := by
  rw [sample, sample]
  refine (bound_image c).bind fun bound => ?_
  obtain e | ⟨slot, t⟩ := bound
  · exact .answer _
  · -- Sampled later, it is stamped later.
    have hset : (c.image k measured).arena.set slot
          { t.later k with stamp := .frame (c.image k measured).frame } =
        (c.arena.set slot { t with stamp := .frame c.frame }).later k :=
      c.arena.set_later slot { t with stamp := .frame c.frame }
    exact .answer_eq (Prod.ext rfl (congrArg (fun arena => { c.image k measured with arena }) hset))

theorem delete_image (c : Context) (slot : Slot) :
    Fault.Follows measured (Prod.map id (image k measured)) (c.delete slot)
      ((c.image k measured).delete slot) := by
  have hget : (c.image k measured).arena.get slot = (c.arena.get slot).map (·.later k) :=
    c.arena.get_later slot
  rw [delete, delete, hget]
  cases c.arena.get slot with
  | error e => exact .answer _
  | ok t =>
    refine .same fun released => ?_
    obtain ⟨cause | ⟨⟩, heap⟩ := released
    · exact .answer _
    · refine (c.arena.remove_later slot).bind fun removed => ?_
      obtain ⟨e | t, arena⟩ := removed
      · exact .answer _
      · exact (record_image _ _ _).bind fun _ => .answer _

/-- The next frame comes after as many frames as this one, unless a word cannot number it. -/
theorem add_image {n : Nat} (h : 0 < k → n + k + 1 < Word.limit) :
    Fault.Follows measured (· + k) (Word.add n 1) (Word.add (n + k) 1) := by
  by_cases hk : k = 0
  · subst hk
    exact .refl
  · have hroom : n + k + 1 < Word.limit := h (Nat.pos_of_ne_zero hk)
    have hadd : Word.add n 1 = .ok (n + 1) := Word.add_eq_ok_iff.mpr ⟨rfl, by omega⟩
    have hadd_later : Word.add (n + k) 1 = .ok (n + 1 + k) :=
      Word.add_eq_ok_iff.mpr ⟨Nat.add_right_comm n 1 k, hroom⟩
    rw [hadd, hadd_later]
    exact .answer _

/-- So does ending a frame, unless the number of the later frame is no word. -/
theorem endFrame_image (c : Context) (h : 0 < k → c.frame + k + 1 < Word.limit) :
    Fault.Follows measured (Prod.map (· + k) (image k measured)) c.endFrame
      (c.image k measured).endFrame := by
  rw [endFrame, endFrame]
  exact (c.window.update_kept _).bind fun window => (add_image h).bind fun frame => .answer _

/-- An answer that names no frame is the same for the image. -/
theorem answer_image {α : Type} {told : α → Answer} (htold : ∀ a, (told a).later k = told a)
    (reply : Reply Context TextureError α) :
    answer told (Prod.map id (image k measured) reply) =
      Prod.map (Answer.later k) (image k measured) (answer told reply) := by
  obtain ⟨e | a, c⟩ := reply
  · rfl
  · exact Prod.ext (htold a).symm rfl

/-- A reply that names no frame is told the same at any time. -/
theorem follows_told {α : Type} {x y : Except Fault (Reply Context TextureError α)}
    (h : Fault.Follows measured (Prod.map id (image k measured)) x y) {told : α → Answer}
    (htold : ∀ a, (told a).later k = told a) :
    Fault.Follows measured (Prod.map (Answer.later k) (image k measured))
      (x >>= fun reply => .ok (answer told reply)) (y >>= fun reply => .ok (answer told reply)) := by
  refine h.bind fun reply => ?_
  rw [answer_image htold]
  exact .answer _

/-- A call does what it would have done, and answers so many frames later, unless it is to end the last
frame. -/
theorem perform_image (c : Context) (action : Action)
    (h : action = .endFrame → 0 < k → c.frame + k + 1 < Word.limit) :
    Fault.Follows measured (Prod.map (Answer.later k) (image k measured)) (c.perform action)
      ((c.image k measured).perform action) := by
  cases action with
  | generate =>
    refine (generate_image c).bind ?_
    rintro ⟨slot, c'⟩
    exact .answer _
  | activate unit =>
    rw [perform, perform, activate_image]
    exact .answer_eq (answer_image (fun _ => rfl) _)
  | bind slot => exact follows_told (bind_image c slot) fun _ => rfl
  | unbind => exact (unbind_image c).bind fun _ => .answer _
  | define format width height => exact follows_told (define_image c format width height) fun _ => rfl
  | resolve => exact follows_told (resolve_image c) fun _ => rfl
  | sample => exact follows_told (sample_image c) fun _ => rfl
  | delete slot => exact follows_told (delete_image c slot) fun _ => rfl
  | endFrame =>
    refine (endFrame_image c (h rfl)).bind ?_
    rintro ⟨number, c'⟩
    exact .answer _
  | heap action =>
    refine .same ?_
    rintro ⟨told, heap⟩
    exact .answer _

/-! ### Many calls -/

/-- Calls one after the other do what they would have done. Only if the context is later does it matter
whether they end the last frame. -/
theorem play_image (past : List Step) (c : Context) (actions : List Action)
    (h : 0 < k → (c.image k measured).overruns actions = false) :
    Fault.Follows measured (Prod.map (List.map (Step.image k measured)) (image k measured))
      (Trace.play perform past c actions)
      (Trace.play perform (past.map (Step.image k measured)) (c.image k measured) actions) := by
  induction actions generalizing past c with
  | nil => exact .answer _
  | cons action rest ih =>
    have hframe : action = .endFrame → 0 < k → c.frame + k + 1 < Word.limit := by
      rintro rfl hk
      have hlast := h hk
      rw [overruns, Bool.or_eq_false_iff] at hlast
      exact Nat.lt_of_not_le (of_decide_eq_false hlast.1)
    have hcall : Fault.Follows measured (Prod.map (Answer.later k) (image k measured))
        (c.perform action) ((c.image k measured).perform action) := perform_image c action hframe
    refine hcall.bind_of_answers ?_
    rintro ⟨told, c'⟩ heq
    refine ih (⟨c, action, told, c'⟩ :: past) c' fun hk => ?_
    have hrest := h hk
    rw [overruns, Bool.or_eq_false_iff, hcall.answers _ heq] at hrest
    exact hrest.2

end Context

end TextureMemory
