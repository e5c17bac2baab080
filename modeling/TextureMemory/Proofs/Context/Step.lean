import TextureMemory.Proofs.Context.Valid

/-!
# What calls on a context come to

`Context.Effect` lists all that a call may do and answer, each way with its condition, and
`Context.Halts` lists where a call halts the program. A call on a valid context does one or the other
(`Context.Valid.perform_cases`), so what is shown of every `Context.Effect` holds after every call
that answers.

`Context.define` and `Context.resolve` go by the same steps when they give a texture a new block.
`Context.Renews` says when they come to that, and they differ in what they count.
-/

namespace TextureMemory

/-! ## The block of a texture that was sampled recently -/

namespace Policy

variable {p : Policy} {t : Texture} {h : Heap} {current size : Nat} {previous : Address}
  {reply : Reply Heap Heap.ExchangeError Address} {fault : Fault}

/-- The policy finds the size of a texture as the texture itself does. -/
theorem size_eq (hsize : t.size? p.unit = .ok (some size)) :
    p.size t.handle.format t.handle.width t.handle.height = .ok (.ok size) := by
  rw [Policy.size, show Surface.size? _ _ _ _ = _ from hsize]
  rfl

/-- The policy answers what an exchange of the block comes to. -/
theorem resolve_of_exchange (hprevious : t.backing = some previous)
    (hrecent : p.reclaims t.stamp current = true) (hsize : t.size? p.unit = .ok (some size))
    (hexchange : h.exchange t.backing size p.request = .ok reply) :
    p.resolve t h current = .ok
      ((reply.1.mapError fun e => .memory e.cause).map (.reclaimed · previous size), reply.2) := by
  rw [hprevious] at hexchange
  rw [resolve, hprevious, hrecent, size_eq hsize]
  simp only [hexchange, Fault.ok_bind]
  obtain ⟨e | fresh, h'⟩ := reply <;> rfl

/-- The policy leaves a texture alone that was not sampled recently. -/
theorem resolve_of_stale (hprevious : t.backing = some previous)
    (hstale : p.reclaims t.stamp current = false) :
    p.resolve t h current = .ok (.ok (.reused previous), h) := by
  rw [resolve, hprevious, hstale]
  rfl

/-- A fault in the exchange of blocks is a fault in resolving. -/
theorem resolve_of_exchange_error (hprevious : t.backing = some previous)
    (hrecent : p.reclaims t.stamp current = true) (hsize : t.size? p.unit = .ok (some size))
    (hexchange : h.exchange t.backing size p.request = .error fault) :
    p.resolve t h current = .error fault := by
  rw [hprevious] at hexchange
  rw [resolve, hprevious, hrecent, size_eq hsize]
  simp only [hexchange, Fault.ok_bind]
  rfl

end Policy

/-! ## The ways of a call -/

namespace Context

/-- A call that is to give a texture a new block: the slot, the texture, the shape that it is to
have, and the bytes that this takes. -/
inductive Renews (c : Context) : Action → Slot → Texture → Texture → Nat → Prop
  | define {format width height slot t size} (hw : 0 < width) (hh : 0 < height)
      (hsize : Surface.size? width height format c.policy.unit = .ok (some size))
      (hbound : c.bound = .ok (.ok (slot, t))) :
      Renews c (.define format width height) slot t (t.reshape format width height) size
  | resolve {slot t previous size} (hbound : c.bound = .ok (.ok (slot, t)))
      (hprevious : t.backing = some previous)
      (hrecent : c.policy.reclaims t.stamp c.frame = true)
      (hsize : t.size? c.policy.unit = .ok (some size)) :
      Renews c .resolve slot t t size

/-- What is counted when a texture was given a new block. -/
inductive Counts (c : Context) (size : Nat) : Action → Nat → Nat → Recorder Tally → Prop
  | define {format width height tally}
      (htally : c.tally.update (·.add Event.definitions.name 1) = .ok tally) :
      Counts c size (.define format width height) c.reclaims c.pending tally
  | resolve {once tally} (hreclaims : c.reclaims + 1 < Word.limit)
      (hpending : c.pending + size < Word.limit)
      (honce : c.tally.update (·.add Event.reclaims.name 1) = .ok once)
      (htally : once.update (·.add Event.reclaimedBytes.name size) = .ok tally) :
      Counts c size .resolve (c.reclaims + 1) (c.pending + size) tally

/-- What is counted when the old block of a texture could not be taken back. -/
inductive CountsStray (c : Context) : Action → Recorder Tally → Prop
  | define {format width height} : CountsStray c (.define format width height) c.tally
  | resolve {tally} (htally : c.tally.update (·.add Event.allocFailures.name 1) = .ok tally) :
      CountsStray c .resolve tally

/-- The errors of calls that do not get as far as the heap. -/
inductive Rejects (c : Context) : Action → TextureError → Prop
  | activate {unit} (hunit : c.units.count ≤ unit) :
      Rejects c (.activate unit) (.unitOutOfRange unit c.units.count)
  | bind {slot} (hslot : c.arena.get? slot = none) : Rejects c (.bind slot) (.unknownSlot slot)
  | empty {format width height} (hempty : width = 0 ∨ height = 0) :
      Rejects c (.define format width height) (.invalidDimensions width height)
  | huge {format width height} (hw : 0 < width) (hh : 0 < height)
      (hsize : Surface.size? width height format c.policy.unit = .ok none) :
      Rejects c (.define format width height) (.invalidDimensions width height)
  | define {format width height size cause} (hw : 0 < width) (hh : 0 < height)
      (hsize : Surface.size? width height format c.policy.unit = .ok (some size))
      (hbound : c.bound = .ok (.error cause)) : Rejects c (.define format width height) cause
  | resolve {cause} (hbound : c.bound = .ok (.error cause)) : Rejects c .resolve cause
  | undefined {slot t} (hbound : c.bound = .ok (.ok (slot, t))) (hbacking : t.backing = none) :
      Rejects c .resolve (.undefined t.slot)
  | sample {cause} (hbound : c.bound = .ok (.error cause)) : Rejects c .sample cause
  | delete {slot} (hslot : c.arena.get? slot = none) : Rejects c (.delete slot) (.unknownSlot slot)

/-- All that a call on a context may do and answer. -/
inductive Effect (c : Context) : Action → Answer → Context → Prop
  | generate {slot arena} (hinsert : c.arena.insert = .ok (slot, arena))
      (hupdate : c.arena.Update arena slot (some (.blank slot))) (hvalid : arena.Valid)
      (hcount : arena.count = c.arena.count + 1)
      (hnew : c.arena.count < Slot.limit → c.arena.get? slot = none) :
      Effect c .generate (.slot slot) { c with arena }
  | activate {unit} (hunit : unit < c.units.count) :
      Effect c (.activate unit) .done { c with units := { c.units with active := unit } }
  | bind {slot t} (hslot : c.arena.get? slot = some t) :
      Effect c (.bind slot) .done { c with units := { c.units with
        bindings := c.units.bindings.setIfInBounds c.units.active (some slot) } }
  | unbind :
      Effect c .unbind .done { c with units := { c.units with
        bindings := c.units.bindings.setIfInBounds c.units.active none } }
  | renew {action slot t shape size pool cursor reclaims pending tally}
      (hrenews : Renews c action slot t shape size)
      (hgrants : c.heap.Grants size c.policy.request pool cursor)
      (hlive : ∀ a ∈ t.backing, ∃ b, c.heap.block? a = some b)
      (hcounts : Counts c size action reclaims pending tally) :
      Effect c action (.address c.heap.cursor) { c with
        heap := (c.heap.extend size pool cursor).discard (t.backing.bind c.heap.block?)
        arena := c.arena.set slot (shape.moveTo c.heap.cursor)
        reclaims, pending, tally }
  | reuse {slot t address} (hbound : c.bound = .ok (.ok (slot, t)))
      (haddress : t.backing = some address)
      (hrecent : c.policy.reclaims t.stamp c.frame = false) :
      Effect c .resolve (.address address) c
  | sample {slot t} (hbound : c.bound = .ok (.ok (slot, t))) :
      Effect c .sample .done { c with
        arena := c.arena.set slot { t with stamp := .frame c.frame } }
  | delete {slot t arena tally} (hslot : c.arena.get? slot = some t)
      (hlive : ∀ a ∈ t.backing, ∃ b, c.heap.block? a = some b)
      (hupdate : c.arena.Update arena slot none) (hvalid : arena.Valid)
      (hcount : arena.count + 1 = c.arena.count)
      (htally : c.tally.update (·.add Event.deletions.name 1) = .ok tally) :
      Effect c (.delete slot) .done { c with
        heap := c.heap.discard (t.backing.bind c.heap.block?)
        arena, units := c.units.unbindEverywhere slot, tally }
  | endFrame {window} (hwindow : c.window.update (·.push c.pending) = .ok window)
      (hframe : c.frame + 1 < Word.limit) :
      Effect c .endFrame (.frame (c.frame + 1))
        { c with window, pending := 0, frame := c.frame + 1 }
  | heap {action told heap} (hheap : c.heap.Effect action told heap) :
      Effect c (.heap action) (.heap told) { c with heap }
  | reject {action cause} (hrejects : Rejects c action cause) : Effect c action (.failed cause) c
  | exhaust {action slot t shape size cause tally} (hrenews : Renews c action slot t shape size)
      (hallocate : c.heap.allocate size c.policy.request = .ok (.error cause, c.heap))
      (hrefuses : Heap.Refuses size c.policy.request cause)
      (htally : c.tally.update (·.add Event.allocFailures.name 1) = .ok tally) :
      Effect c action (.failed (.memory cause)) { c with tally }
  | stray {action slot t shape size pool cursor a tally}
      (hrenews : Renews c action slot t shape size)
      (hgrants : c.heap.Grants size c.policy.request pool cursor) (hbacking : t.backing = some a)
      (hdead : c.heap.block? a = none) (hcounts : CountsStray c action tally) :
      Effect c action (.failed (.memory (.notLive a)))
        { c with heap := { c.heap with cursor }, tally }
  | keep {slot t a} (hslot : c.arena.get? slot = some t) (hbacking : t.backing = some a)
      (hdead : c.heap.block? a = none) : Effect c (.delete slot) (.failed (.memory (.notLive a))) c

/-- All the reasons for a call on a context to halt the program. -/
inductive Halts (c : Context) : Action → Fault → Prop
  | generate (hcount : Word.limit ≤ c.arena.count + 1) : Halts c .generate .overflow
  | renew {action slot t shape size} (hrenews : Renews c action slot t shape size)
      (hsize : Extent.limit ≤ size)
      (hallocate : c.heap.allocate size c.policy.request = .error .tooLarge) :
      Halts c action .tooLarge
  | allocate {size request} (hsize : Extent.limit ≤ size) :
      Halts c (.heap (.allocate size request)) .tooLarge
  | event {action event fault} (hevent : event ≠ Event.reclaimedBytes)
      (htally : c.tally.update (·.add event.name 1) = .error fault) : Halts c action fault
  | reclaims (hreclaims : Word.limit ≤ c.reclaims + 1) : Halts c .resolve .overflow
  | pending {slot t shape size pool cursor} (hrenews : Renews c .resolve slot t shape size)
      (hgrants : c.heap.Grants size c.policy.request pool cursor)
      (hpending : Word.limit ≤ c.pending + size) : Halts c .resolve .overflow
  | bytes {slot t shape size pool cursor once fault}
      (hrenews : Renews c .resolve slot t shape size)
      (hgrants : c.heap.Grants size c.policy.request pool cursor)
      (honce : c.tally.update (·.add Event.reclaims.name 1) = .ok once)
      (htally : once.update (·.add Event.reclaimedBytes.name size) = .error fault) :
      Halts c .resolve fault
  | window {fault} (hwindow : c.window.update (·.push c.pending) = .error fault) :
      Halts c .endFrame fault
  | frame (hframe : Word.limit ≤ c.frame + 1) : Halts c .endFrame .overflow

/-- A call does what `Effect` says, or it halts the program as `Halts` says. -/
def Settles (c : Context) (action : Action) : Prop :=
  (∃ told c', c.perform action = .ok (told, c') ∧ Effect c action told c') ∨
  (∃ fault, c.perform action = .error fault ∧ Halts c action fault)

variable {c c' : Context} {action : Action} {told : Answer} {slot : Slot} {t shape : Texture}
  {size reclaims pending : Nat} {tally : Recorder Tally} {cause : TextureError} {fault : Fault}

/-- A call that ends by tallying an event settles, if it does what `Effect` says with every tally that
may come out of that. -/
theorem settles_of_record {event : Event} (next : Context) (hevent : event ≠ .reclaimedBytes)
    (hnext : next.tally = c.tally)
    (hperform : c.perform action = (next.record event 1).map (told, ·))
    (heffect : ∀ tally, c.tally.update (·.add event.name 1) = .ok tally →
      Effect c action told { next with tally }) : c.Settles action := by
  cases htally : c.tally.update (·.add event.name 1) with
  | ok tally =>
    refine .inl ⟨told, { next with tally }, ?_, heffect tally htally⟩
    rw [hperform, record, hnext, htally]
    rfl
  | error fault =>
    refine .inr ⟨fault, ?_, .event hevent htally⟩
    rw [hperform, record, hnext, htally]
    rfl

/-! ## Textures and units -/

/-- Creating a texture answers, unless they can no longer be counted. -/
theorem Valid.settles_generate (hv : c.Valid) : c.Settles .generate := by
  rcases hv.arena.insert_cases with ⟨slot, arena, heq, hu, ha, hcount, hnew⟩ | ⟨hlimit, heq⟩
  · refine .inl ⟨_, _, ?_, .generate heq hu ha hcount hnew⟩
    rw [perform, generate, heq]
    rfl
  · refine .inr ⟨_, ?_, .generate hlimit⟩
    rw [perform, generate, heq]
    rfl

/-- Making a unit the active one answers, and fails if there is no such unit. -/
theorem settles_activate (unit : Nat) : c.Settles (.activate unit) := by
  by_cases hunit : unit < c.units.count
  · have heq : c.units.activate unit = .ok { c.units with active := unit } := if_pos hunit
    refine .inl ⟨_, _, ?_, .activate hunit⟩
    rw [perform, activate, heq]
    rfl
  · have heq : c.units.activate unit = .error (.unitOutOfRange unit c.units.count) := if_neg hunit
    refine .inl ⟨_, _, ?_, .reject (.activate (Nat.le_of_not_lt hunit))⟩
    rw [perform, activate, heq]
    rfl

/-- Binding a texture answers, and fails if there is no such texture. -/
theorem Valid.settles_bind (hv : c.Valid) (slot : Slot) : c.Settles (.bind slot) := by
  have hbind : c.units.bind (some slot) = .ok { c.units with
      bindings := c.units.bindings.setIfInBounds c.units.active (some slot) } := if_pos hv.active_lt
  cases hslot : c.arena.get? slot with
  | none =>
    refine .inl ⟨_, _, ?_, .reject (.bind hslot)⟩
    have hcontains : c.arena.contains slot = false := by rw [Arena.contains, hslot]; rfl
    rw [perform, bind, hcontains]
    rfl
  | some t =>
    refine .inl ⟨_, _, ?_, .bind hslot⟩
    have hcontains : c.arena.contains slot = true := by rw [Arena.contains, hslot]; rfl
    rw [perform, bind, hcontains, hbind]
    rfl

/-- Unbinding answers. -/
theorem Valid.settles_unbind (hv : c.Valid) : c.Settles .unbind := by
  have hbind : c.units.bind none = .ok { c.units with
      bindings := c.units.bindings.setIfInBounds c.units.active none } := if_pos hv.active_lt
  refine .inl ⟨_, _, ?_, .unbind⟩
  rw [perform, unbind, hbind]
  rfl

/-- Sampling answers, and fails if no texture is bound. -/
theorem Valid.settles_sample (hv : c.Valid) : c.Settles .sample := by
  rcases hv.bound_cases with ⟨slot, t, hbound⟩ | ⟨cause, -, hbound⟩
  · refine .inl ⟨_, _, ?_, .sample hbound⟩
    rw [perform, sample, hbound]
    rfl
  · refine .inl ⟨_, _, ?_, .reject (.sample hbound)⟩
    rw [perform, sample, hbound]
    rfl

/-- Ending a frame answers, unless the frame is the last that a word can number. -/
theorem settles_endFrame : c.Settles .endFrame := by
  cases hwindow : c.window.update (·.push c.pending) with
  | error fault =>
    refine .inr ⟨_, ?_, .window hwindow⟩
    rw [perform, endFrame, hwindow]
    rfl
  | ok window =>
    by_cases hframe : c.frame + 1 < Word.limit
    · have hadd : Word.add c.frame 1 = .ok (c.frame + 1) := if_pos hframe
      refine .inl ⟨_, _, ?_, .endFrame hwindow hframe⟩
      rw [perform, endFrame, hwindow]
      simp only [Fault.ok_bind, hadd]
      rfl
    · have hadd : Word.add c.frame 1 = .error .overflow := if_neg hframe
      refine .inr ⟨_, ?_, .frame (Nat.le_of_not_lt hframe)⟩
      rw [perform, endFrame, hwindow]
      simp only [Fault.ok_bind, hadd]
      rfl

/-- A call on the heap does to the context what it does to the heap. -/
theorem Valid.settles_heap (hv : c.Valid) (action : Heap.Action) : c.Settles (.heap action) := by
  rcases hv.heap.perform_cases action with ⟨told, heap, heq, he⟩ | ⟨size, request, rfl, hsize, heq⟩
  · refine .inl ⟨_, _, ?_, .heap he⟩
    rw [perform, heq]
    rfl
  · refine .inr ⟨_, ?_, .allocate hsize⟩
    rw [perform, heq]
    rfl

/-- Deleting a texture answers, unless deletions can no longer be counted, and fails if the texture or its
block is missing. -/
theorem Valid.settles_delete (hv : c.Valid) (slot : Slot) : c.Settles (.delete slot) := by
  cases hslot : c.arena.get? slot with
  | none =>
    have hget : c.arena.get slot = .error (.unknownSlot slot) := by rw [Arena.get, hslot]
    refine .inl ⟨_, _, ?_, .reject (.delete hslot)⟩
    rw [perform, delete, hget]
    rfl
  | some t =>
    have hget : c.arena.get slot = .ok t := by rw [Arena.get, hslot]
    rcases hv.heap.release_cases t.backing with ⟨hlive, heq⟩ | ⟨a, hbacking, hdead, heq⟩
    · obtain ⟨arena, hremove, hu, ha, hcount⟩ := hv.arena.remove_of_get? hslot
      refine settles_of_record { c with
        heap := c.heap.discard (t.backing.bind c.heap.block?)
        arena, units := c.units.unbindEverywhere slot } (by decide : Event.deletions ≠ _) rfl ?_
        fun tally htally => .delete hslot hlive hu ha hcount htally
      rw [perform, delete, hget]
      simp only [heq, hremove, Fault.ok_bind]
      cases record _ _ _ <;> rfl
    · refine .inl ⟨_, _, ?_, .keep hslot hbacking hdead⟩
      rw [perform, delete, hget]
      simp only [heq, Fault.ok_bind]
      rfl

/-! ## The memory of a texture -/

/-- The block of the texture that is bound begins below the cursor. -/
theorem Valid.lt_cursor (hv : c.Valid) (hbound : c.bound = .ok (.ok (slot, t))) :
    ∀ a ∈ t.backing, a.value < c.heap.cursor.value := fun a ha =>
  hv.owns.lt_cursor slot t a (bound_eq_ok_iff.mp hbound).2 ha

/-- Defining a texture that is bound and that the heap has a block for. What is left is counting. -/
theorem define_of_exchange {format : Format} {width height : Nat} {fresh : Address} {heap : Heap}
    (hw : 0 < width) (hh : 0 < height)
    (hsize : Surface.size? width height format c.policy.unit = .ok (some size))
    (hbound : c.bound = .ok (.ok (slot, t)))
    (hexchange : c.heap.exchange t.backing size c.policy.request = .ok (.ok fresh, heap)) :
    c.define format width height = (record { c with
      heap
      arena := c.arena.set slot ((t.reshape format width height).moveTo fresh) } .definitions 1).map
        (.ok fresh, ·) := by
  rw [define, if_neg (by omega), Policy.size, hsize]
  simp only [hbound, hexchange, Fault.ok_bind, pure_bind]
  cases record _ _ _ <;> rfl

/-- Defining a texture that is bound, with a shape that has a size. -/
theorem Valid.settles_define_of_bound (hv : c.Valid) {format : Format} {width height : Nat}
    (hw : 0 < width) (hh : 0 < height)
    (hsize : Surface.size? width height format c.policy.unit = .ok (some size))
    (hbound : c.bound = .ok (.ok (slot, t))) : c.Settles (.define format width height) := by
  have hempty : ¬(width = 0 ∨ height = 0) := by omega
  have hpolicy : c.policy.size format width height = .ok (.ok size) := by
    rw [Policy.size, hsize]
    rfl
  have hrenews : c.Renews (.define format width height) slot t
      (t.reshape format width height) size := .define hw hh hsize hbound
  -- One case for each way that the heap may answer.
  rcases hv.heap.exchange_cases (hv.lt_cursor hbound) size c.policy.request with
    ⟨cause, hrefuses, hallocate, heq⟩ | ⟨pool, cursor, hgrants, hlive, heq⟩ |
    ⟨a, pool, cursor, hgrants, hbacking, hdead, heq⟩ | ⟨hlarge, hallocate, heq⟩
  · refine settles_of_record c (by decide : Event.allocFailures ≠ _) rfl ?_
      fun tally htally => .exhaust hrenews hallocate hrefuses htally
    rw [perform, define, if_neg hempty, hpolicy]
    simp only [hbound, heq, Fault.ok_bind]
    cases record _ _ _ <;> rfl
  · refine settles_of_record { c with
      heap := (c.heap.extend size pool cursor).discard (t.backing.bind c.heap.block?)
      arena := c.arena.set slot ((t.reshape format width height).moveTo c.heap.cursor) }
      (by decide : Event.definitions ≠ _) rfl ?_
      fun tally htally => .renew hrenews hgrants hlive (.define htally)
    rw [perform, define_of_exchange hw hh hsize hbound heq]
    cases record _ _ _ <;> rfl
  · refine .inl ⟨_, _, ?_, .stray hrenews hgrants hbacking hdead .define⟩
    rw [perform, define, if_neg hempty, hpolicy]
    simp only [hbound, heq, Fault.ok_bind]
    rfl
  · refine .inr ⟨_, ?_, .renew hrenews hlarge hallocate⟩
    rw [perform, define, if_neg hempty, hpolicy]
    simp only [hbound, heq, Fault.ok_bind]
    rfl

/-- A surface without pixels, or without a size that is a word, is refused before anything else. -/
theorem define_of_invalid {format : Format} {width height : Nat}
    (h : (width = 0 ∨ height = 0) ∨
      Surface.size? width height format c.policy.unit = .ok none) :
    c.define format width height = .ok (.error (.invalidDimensions width height), c) := by
  by_cases hempty : width = 0 ∨ height = 0
  · rw [define, if_pos hempty]
    rfl
  · rw [define, if_neg hempty, Policy.size, h.resolve_left hempty]
    rfl

/-- A surface that has a size is refused where no texture is bound. -/
theorem define_of_not_bound {format : Format} {width height : Nat} (hw : 0 < width)
    (hh : 0 < height) (hsize : Surface.size? width height format c.policy.unit = .ok (some size))
    (hbound : c.bound = .ok (.error cause)) :
    c.define format width height = .ok (.error cause, c) := by
  rw [define, if_neg (by omega), Policy.size, hsize]
  simp only [Fault.ok_bind, hbound, pure_bind]
  rfl

/-- Defining a texture settles. -/
theorem Valid.settles_define (hv : c.Valid) (format : Format) (width height : Nat) :
    c.Settles (.define format width height) := by
  by_cases hempty : width = 0 ∨ height = 0
  · refine .inl ⟨_, _, ?_, .reject (.empty hempty)⟩
    rw [perform, define_of_invalid (.inl hempty)]
    rfl
  have hw : 0 < width := by omega
  have hh : 0 < height := by omega
  obtain ⟨o, hsize⟩ : ∃ o, Surface.size? width height format c.policy.unit = .ok o :=
    Surface.exists_size?_eq_ok hv.unit
  cases o with
  | none =>
    refine .inl ⟨_, _, ?_, .reject (.huge hw hh hsize)⟩
    rw [perform, define_of_invalid (.inr hsize)]
    rfl
  | some size =>
    rcases hv.bound_cases with ⟨slot, t, hbound⟩ | ⟨cause, -, hbound⟩
    · exact hv.settles_define_of_bound hw hh hsize hbound
    · refine .inl ⟨_, _, ?_, .reject (.define hw hh hsize hbound)⟩
      rw [perform, define_of_not_bound hw hh hsize hbound]
      rfl

/-- Resolving a texture whose old block was taken back and that has a new one. What is left is
counting, which may overflow in four places. -/
theorem settles_resolve_of_grants {previous cursor : Address} {pool : Pool}
    (hbound : c.bound = .ok (.ok (slot, t))) (hrenews : c.Renews .resolve slot t t size)
    (hgrants : c.heap.Grants size c.policy.request pool cursor)
    (hlive : ∀ a ∈ t.backing, ∃ b, c.heap.block? a = some b)
    (hresolve : c.policy.resolve t c.heap c.frame = .ok
      (.ok (.reclaimed c.heap.cursor previous size),
        (c.heap.extend size pool cursor).discard (t.backing.bind c.heap.block?))) :
    c.Settles .resolve := by
  suffices hcount : (∃ reclaims pending tally, Counts c size .resolve reclaims pending tally ∧
      c.resolve = .ok (.ok c.heap.cursor, { c with
        heap := (c.heap.extend size pool cursor).discard (t.backing.bind c.heap.block?)
        arena := c.arena.set slot (t.moveTo c.heap.cursor)
        reclaims, pending, tally })) ∨
      ∃ fault, c.resolve = .error fault ∧ Halts c .resolve fault by
    rcases hcount with ⟨reclaims, pending, tally, hcounts, hok⟩ | ⟨fault, herror, hhalts⟩
    · refine .inl ⟨_, _, ?_, .renew hrenews hgrants hlive hcounts⟩
      rw [perform, hok]
      rfl
    · refine .inr ⟨fault, ?_, hhalts⟩
      rw [perform, herror]
      rfl
  rw [resolve, hbound]
  simp only [hresolve, record, Fault.ok_bind]
  -- The sums are formed in this order, so each case has those before it as words.
  by_cases hreclaims : Word.limit ≤ c.reclaims + 1
  · have hadd : Word.add c.reclaims 1 = .error .overflow := if_neg (Nat.not_lt.mpr hreclaims)
    simp only [hadd, Fault.error_bind]
    exact .inr ⟨_, rfl, .reclaims hreclaims⟩
  rw [Nat.not_le] at hreclaims
  have haddReclaims : Word.add c.reclaims 1 = .ok (c.reclaims + 1) := if_pos hreclaims
  by_cases hpending : Word.limit ≤ c.pending + size
  · have hadd : Word.add c.pending size = .error .overflow := if_neg (Nat.not_lt.mpr hpending)
    simp only [haddReclaims, hadd, Fault.error_bind, Fault.ok_bind]
    exact .inr ⟨_, rfl, .pending hrenews hgrants hpending⟩
  rw [Nat.not_le] at hpending
  have haddPending : Word.add c.pending size = .ok (c.pending + size) := if_pos hpending
  simp only [haddReclaims, haddPending, Fault.ok_bind]
  cases honce : c.tally.update (·.add Event.reclaims.name 1) with
  | error fault => exact .inr ⟨fault, rfl, .event (by decide : Event.reclaims ≠ _) honce⟩
  | ok once =>
    simp only [Fault.ok_bind, pure_bind]
    cases htally : once.update (·.add Event.reclaimedBytes.name size) with
    | error fault => exact .inr ⟨fault, rfl, .bytes hrenews hgrants honce htally⟩
    | ok tally => exact .inl ⟨_, _, tally, .resolve hreclaims hpending honce htally, rfl⟩

/-- Resolving a texture that was sampled recently. -/
theorem Valid.settles_resolve_of_recent (hv : c.Valid) {previous : Address}
    (hbound : c.bound = .ok (.ok (slot, t))) (hprevious : t.backing = some previous)
    (hrecent : c.policy.reclaims t.stamp c.frame = true) : c.Settles .resolve := by
  obtain ⟨size, -, hsize⟩ :=
    hv.owns.size slot t previous (bound_eq_ok_iff.mp hbound).2 hprevious
  have hrenews : c.Renews .resolve slot t t size := .resolve hbound hprevious hrecent hsize
  -- Here a failure is tallied also where the old block could not be taken back.
  rcases hv.heap.exchange_cases (hv.lt_cursor hbound) size c.policy.request with
    ⟨cause, hrefuses, hallocate, heq⟩ | ⟨pool, cursor, hgrants, hlive, heq⟩ |
    ⟨a, pool, cursor, hgrants, hbacking, hdead, heq⟩ | ⟨hlarge, hallocate, heq⟩
  · have hresolve : c.policy.resolve t c.heap c.frame = .ok (.error (.memory cause), c.heap) :=
      Policy.resolve_of_exchange hprevious hrecent hsize heq
    refine settles_of_record c (by decide : Event.allocFailures ≠ _) rfl ?_
      fun tally htally => .exhaust hrenews hallocate hrefuses htally
    rw [perform, resolve, hbound]
    simp only [hresolve, Fault.ok_bind]
    cases record _ _ _ <;> rfl
  · exact settles_resolve_of_grants hbound hrenews hgrants hlive
      (Policy.resolve_of_exchange hprevious hrecent hsize heq)
  · have hresolve : c.policy.resolve t c.heap c.frame =
        .ok (.error (.memory (.notLive a)), { c.heap with cursor }) :=
      Policy.resolve_of_exchange hprevious hrecent hsize heq
    refine settles_of_record { c with heap := { c.heap with cursor } }
      (by decide : Event.allocFailures ≠ _) rfl ?_
      fun tally htally => .stray hrenews hgrants hbacking hdead (.resolve htally)
    rw [perform, resolve, hbound]
    simp only [hresolve, Fault.ok_bind]
    cases record _ _ _ <;> rfl
  · have hresolve : c.policy.resolve t c.heap c.frame = .error .tooLarge :=
      Policy.resolve_of_exchange_error hprevious hrecent hsize heq
    refine .inr ⟨_, ?_, .renew hrenews hlarge hallocate⟩
    rw [perform, resolve, hbound]
    simp only [hresolve, Fault.ok_bind]
    rfl

/-- Nothing is resolved where no texture is bound. -/
theorem resolve_of_not_bound (hbound : c.bound = .ok (.error cause)) :
    c.resolve = .ok (.error cause, c) := by
  rw [resolve, hbound]
  rfl

/-- A texture without memory is not resolved. -/
theorem resolve_of_undefined (hbound : c.bound = .ok (.ok (slot, t))) (hbacking : t.backing = none) :
    c.resolve = .ok (.error (.undefined t.slot), c) := by
  have hresolve : c.policy.resolve t c.heap c.frame =
      .ok (.error (.undefined t.slot), c.heap) := by
    rw [Policy.resolve, hbacking]
    rfl
  rw [resolve, hbound]
  simp only [hresolve, Fault.ok_bind]
  rfl

/-- A texture that was not sampled recently is resolved to the block that it has. -/
theorem resolve_of_stale {previous : Address} (hbound : c.bound = .ok (.ok (slot, t)))
    (hprevious : t.backing = some previous) (hstale : c.policy.reclaims t.stamp c.frame = false) :
    c.resolve = .ok (.ok previous, c) := by
  rw [resolve, hbound]
  simp only [Policy.resolve_of_stale hprevious hstale, Fault.ok_bind]
  rfl

/-- Resolving a texture settles. -/
theorem Valid.settles_resolve (hv : c.Valid) : c.Settles .resolve := by
  rcases hv.bound_cases with ⟨slot, t, hbound⟩ | ⟨cause, -, hbound⟩
  · cases hbacking : t.backing with
    | none =>
      refine .inl ⟨_, _, ?_, .reject (.undefined hbound hbacking)⟩
      rw [perform, resolve_of_undefined hbound hbacking]
      rfl
    | some previous =>
      cases hrecent : c.policy.reclaims t.stamp c.frame with
      | false =>
        refine .inl ⟨_, _, ?_, .reuse hbound hbacking hrecent⟩
        rw [perform, resolve_of_stale hbound hbacking hrecent]
        rfl
      | true => exact hv.settles_resolve_of_recent hbound hbacking hrecent
  · refine .inl ⟨_, _, ?_, .reject (.resolve hbound)⟩
    rw [perform, resolve_of_not_bound hbound]
    rfl

/-- A call on a valid context does what `Effect` says, or it halts the program as `Halts` says. -/
theorem Valid.perform_cases (hv : c.Valid) (action : Action) : c.Settles action := by
  cases action with
  | generate => exact hv.settles_generate
  | activate unit => exact settles_activate unit
  | bind slot => exact hv.settles_bind slot
  | unbind => exact hv.settles_unbind
  | define format width height => exact hv.settles_define format width height
  | resolve => exact hv.settles_resolve
  | sample => exact hv.settles_sample
  | delete slot => exact hv.settles_delete slot
  | endFrame => exact settles_endFrame
  | heap action => exact hv.settles_heap action

/-- What a call on a valid context that answers has done. -/
theorem Valid.effect (hv : c.Valid) (h : c.perform action = .ok (told, c')) :
    Effect c action told c' := by
  rcases hv.perform_cases action with ⟨told', c'', heq, he⟩ | ⟨fault, heq, -⟩
  · rw [heq] at h
    cases h
    exact he
  · rw [heq] at h
    cases h

end Context

end TextureMemory
