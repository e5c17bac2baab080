import TextureMemory.Proofs.Context.Reachable
import TextureMemory.Proofs.Scene.Rows

/-!
# Uploading a frame

An upload resolves the texture bound to the active unit and writes rows of pixels to its block.
`Scene.Upload` lists all that it may come to. It is a run of calls: the one that resolves the texture, and a
write to the heap for each row, so it leads from a reachable context to another.

It is about one texture. It may give it a new block, but leaves its layout as it is, and all other textures
with their blocks (`Context.Spares`), and what is bound to the units. It halts the program only if the rows
of the texture are too short for those of the frame, or the sum of an event is about to leave the range of
words (`Scene.Upload.fault_cases`).
-/

namespace TextureMemory

/-- What a texture has apart from the place of its block and the stamp. -/
def Texture.layout (t : Texture) : Format × Nat × Nat × Bool :=
  (t.handle.format, t.handle.width, t.handle.height, t.backing.isSome)

/-- Whether rows are too long depends on the layout only. -/
theorem Texture.overruns_congr {t t' : Texture} {unit : Nat} (h : t'.layout = t.layout) :
    t'.Overruns unit ↔ t.Overruns unit := by
  simp only [layout, Prod.mk.injEq] at h
  rw [Overruns, Overruns, h.1, h.2.1]

namespace Heap

variable {h : Heap} {a : Address} {b : Block} {bytes bytes' : Buffer}

/-- Of two writes to the whole of a block, the later one counts. -/
theorem setBytes_setBytes : (h.setBytes a bytes).setBytes a bytes' = h.setBytes a bytes' := by
  simp only [setBytes, List.map_map]
  congr 2
  funext b
  rw [Function.comp_apply]
  by_cases hb : b.address = a
  · rw [if_pos hb, if_pos hb, if_pos hb]
  · rw [if_neg hb, if_neg hb]

/-- The bytes that a block has already change nothing. -/
theorem Valid.setBytes_self (hv : h.Valid) (hb : h.block? a = some b) : h.setBytes a b.bytes = h := by
  have hsame : ∀ b' ∈ h.blocks, (if b'.address = a then { b' with bytes := b.bytes } else b') = id b' := by
    intro b' hb'
    split
    · next ha =>
      have hblock := hv.block?_eq_some hb'
      rw [ha, hb] at hblock
      cases hblock
      rfl
    · rfl
  rw [Heap.setBytes, List.map_congr_left hsame, List.map_id]

end Heap

namespace Context

/-- A texture of `c` is in `d` as it was, and what is found at the address of its block too. -/
def Spares (c d : Context) (slot : Slot) : Prop :=
  ∀ t, c.arena.get? slot = some t → d.arena.get? slot = some t ∧
    ∀ p, t.backing = some p → d.heap.block? p = c.heap.block? p

/-- The texture of a slot shows the frame of a number: it has a block in use, and in the block every row of
the texture begins with a row of that frame. -/
def Shows (c : Context) (slot : Slot) (number : Nat) : Prop :=
  ∃ t p b stride, c.arena.get? slot = some t ∧ t.backing = some p ∧ c.heap.block? p = some b ∧
    t.stride? c.policy.unit = .ok (some stride) ∧
    ∀ y < t.handle.height, ∀ x < 2 * t.handle.width,
      b.bytes[y * stride + x]? = (Scene.rowBytes t.handle.width number)[x]?

/-- The texture bound to a unit has memory, and rows that are too short for those of a frame. -/
def Overrun (c : Context) (unit : Nat) : Prop :=
  ∃ slot t, c.units.boundAt? unit = some slot ∧ c.arena.get? slot = some t ∧
    t.backing.isSome = true ∧ t.Overruns c.policy.unit

/-- The texture of a slot can be uploaded to as it is: it has a block in use, was not sampled, and its rows
are not too short. -/
def Ready (c : Context) (slot : Slot) : Prop :=
  ∃ t p, c.arena.get? slot = some t ∧ t.backing = some p ∧ c.heap.contains p = true ∧
    t.stamp = .unused ∧ ¬t.Overruns c.policy.unit

/-- Calls led from `c` to `d` that left the policy, the number of the frame, the bindings and all layouts as
they were, and that added `k` at most to the sum of each event but that of the replaced bytes. -/
structure Redraws (c d : Context) (k : Nat) : Prop where
  reachable : d.Reachable
  policy_eq : d.policy = c.policy
  frame_eq : d.frame = c.frame
  boundAt?_eq : ∀ unit, d.units.boundAt? unit = c.units.boundAt? unit
  layout : ∀ slot t, d.arena.get? slot = some t →
    ∃ old, c.arena.get? slot = some old ∧ t.layout = old.layout
  count_le : ∀ e ≠ Event.reclaimedBytes, d.count e.name ≤ c.count e.name + k

variable {c d e : Context} {action : Action} {told : Answer} {slot : Slot} {t : Texture} {p : Address}
  {b : Block} {number unit stride height k l : Nat} {row : List UInt8} {cause : TextureError}

theorem Spares.refl (c : Context) (slot : Slot) : c.Spares c slot := fun _ ht => ⟨ht, fun _ _ => rfl⟩

/-- What is spared twice is spared. -/
theorem Spares.trans (h : c.Spares d slot) (h' : d.Spares e slot) : c.Spares e slot := by
  intro t ht
  obtain ⟨hd, hblock⟩ := h t ht
  obtain ⟨he, hblock'⟩ := h' t hd
  exact ⟨he, fun p hp => (hblock' p hp).trans (hblock p hp)⟩

/-- A call on textures spares all that it is not about. -/
theorem Effect.spares (he : Effect c action told d) (hv : c.Valid)
    (hcall : ∀ call, action ≠ .heap call) (hne : c.target? action told ≠ some slot) :
    c.Spares d slot :=
  fun _ ht => ⟨(he.get?_of_ne_target hne).trans ht, fun _ hp => he.block?_of_ne_target hv hcall ht hp hne⟩

/-- A texture that is spared goes on to show what it shows. -/
theorem Shows.of_spares (hs : c.Shows slot number) (hspares : c.Spares d slot)
    (hpolicy : d.policy = c.policy) : d.Shows slot number := by
  obtain ⟨t, p, b, stride, ht, hp, hb, hstride, hrows⟩ := hs
  obtain ⟨hget, hblock⟩ := hspares t ht
  exact ⟨t, p, b, stride, hget, hp, (hblock p hp).trans hb, hpolicy ▸ hstride, hrows⟩

/-- A texture that is spared stays ready. -/
theorem Ready.of_spares (hr : c.Ready slot) (hspares : c.Spares d slot) (hpolicy : d.policy = c.policy) :
    d.Ready slot := by
  obtain ⟨t, p, ht, hp, hlive, hstamp, hover⟩ := hr
  obtain ⟨hget, hblock⟩ := hspares t ht
  refine ⟨t, p, hget, hp, ?_, hstamp, hpolicy ▸ hover⟩
  rwa [Heap.contains, hblock p hp]

/-- Resolving a texture is a call. -/
theorem perform_of_resolve {outcome : Except Fault (Reply Context TextureError Address)}
    (h : c.resolve = outcome) : c.perform .resolve = outcome.map (answer .address) :=
  h ▸ perform_resolve

/-- Resolving a texture halts the program only if the sum of an event is about to leave the range of
words. -/
theorem Reachable.crowded_of_resolve {fault : Fault} (hc : c.Reachable) (h : c.resolve = .error fault) :
    fault = .overflow ∧ c.Crowded 1 := by
  rcases hc.valid.perform_cases .resolve with ⟨told, d, hok, -⟩ | ⟨fault', herror, hhalts⟩
  · cases (perform_of_resolve h).symm.trans hok
  · cases (perform_of_resolve h).symm.trans herror
    exact hc.crowded_of_halts hhalts

/-- Resolving a texture leaves the units and the number of the frame alone. -/
theorem Effect.of_resolve (he : Effect c .resolve told d) : d.units = c.units ∧ d.frame = c.frame := by
  cases he <;> exact ⟨rfl, rfl⟩

/-- Resolving a texture leaves all layouts as they were. -/
theorem Effect.layout_of_resolve (he : Effect c .resolve told d) (ht : d.arena.get? slot = some t) :
    ∃ old, c.arena.get? slot = some old ∧ t.layout = old.layout := by
  cases he.origin ht with
  | old hold => exact ⟨t, hold, rfl⟩
  | moved hrenews _ heq =>
    have hget := hrenews.get?
    cases hrenews with
    | resolve _ hprevious =>
      refine ⟨_, hget, ?_⟩
      rw [heq, Texture.layout, Texture.layout, hprevious]
      rfl

/-- Nothing is found to be bound only where nothing is bound to the active unit. -/
theorem Reachable.boundAt?_of_bound (hc : c.Reachable)
    (hbound : c.bound = .ok (.error (.notBound unit))) :
    unit = c.units.active ∧ c.units.boundAt? unit = none := by
  rcases hc.coherent.bound_cases hc.valid with ⟨hunit, hnone⟩ | ⟨slot, t, -, -, hsome⟩
  · cases hbound.symm.trans hnone
    exact ⟨rfl, hunit⟩
  · cases hbound.symm.trans hsome

/-- Resolving fails for want of a texture only where the active unit has none. -/
theorem Effect.boundAt?_of_notBound (he : Effect c .resolve (.failed (.notBound unit)) d)
    (hc : c.Reachable) : unit = c.units.active ∧ c.units.boundAt? unit = none := by
  cases he with
  | reject hrejects =>
    cases hrejects with
    | resolve hbound => exact hc.boundAt?_of_bound hbound

/-- A texture that has memory has a stride, and is not wider than memory. -/
theorem Reachable.exists_stride (hc : c.Reachable) (hget : c.arena.get? slot = some t)
    (hp : t.backing = some p) : ∃ stride, t.stride? c.policy.unit = .ok (some stride) ∧
      0 < t.handle.height ∧ stride * t.handle.height < Extent.limit := by
  obtain ⟨size, hpos, hsize⟩ := hc.valid.owns.size slot t p hget hp
  have hlt := hc.size_lt hget hp hsize
  obtain ⟨stride, hstride, rfl⟩ := Surface.exists_stride_of_size? hsize
  exact ⟨stride, hstride, Nat.pos_of_mul_pos_left hpos, hlt⟩

/-- The rows of a texture with memory do not take half of the words. -/
theorem Reachable.width_lt (hc : c.Reachable) (hget : c.arena.get? slot = some t)
    (hp : t.backing = some p) : t.handle.width < Extent.limit := by
  obtain ⟨stride, hstride, hheight, hlt⟩ := hc.exists_stride hget hp
  refine Nat.lt_of_le_of_lt ?_ hlt
  calc t.handle.width
      ≤ Alignment.ceil t.handle.width c.policy.unit :=
        Alignment.le_ceil (Nat.pos_of_isPowerOfTwo hc.valid.unit)
    _ ≤ Alignment.ceil t.handle.width c.policy.unit * t.handle.format.bytesPerPixel :=
        Nat.le_mul_of_pos_right _ t.handle.format.bytesPerPixel_pos
    _ = stride := (Surface.stride_eq hstride).2.symm
    _ ≤ stride * t.handle.height := Nat.le_mul_of_pos_right _ hheight

/-- In a block in use, the rows of a frame fit just if the rows of the texture are not too short. -/
theorem Reachable.rowsFit_iff (hc : c.Reachable) (hget : c.arena.get? slot = some t)
    (hp : t.backing = some p) (hb : c.heap.block? p = some b)
    (hstride : t.stride? c.policy.unit = .ok (some stride)) :
    Scene.RowsFit b.bytes (2 * t.handle.width) stride t.handle.height ↔
      ¬t.Overruns c.policy.unit := by
  have hsize := hc.sized slot t p b hget hp hb
  obtain ⟨stride', hstride', hmul⟩ := Surface.exists_stride_of_size? hsize
  cases hstride.symm.trans hstride'
  obtain ⟨-, -, hheight, -⟩ := hc.exists_stride hget hp
  rw [Scene.rowsFit_iff hmul hheight, Texture.Overruns, ← (Surface.stride_eq hstride).2, Nat.not_lt]

/-- Data that lie within a block are written to it. -/
theorem perform_write {offset : Nat} (hb : c.heap.block? p = some b)
    (hin : offset + row.length ≤ b.bytes.size) :
    c.perform (.heap (.write p offset row)) = .ok (.heap (.written row.length),
      { c with heap := c.heap.setBytes p (Buffer.overwrite b.bytes offset row) }) := by
  have hbytes : c.heap.bytes? p = some b.bytes := by rw [Heap.bytes?, hb]; rfl
  have hwrite : Buffer.write? b.bytes offset row = some (Buffer.overwrite b.bytes offset row) := if_pos hin
  rw [perform, Heap.perform, Heap.write, hbytes]
  simp only [hwrite]
  rfl

/-- Rows are painted by calls that write to the heap. -/
theorem Reachable.painted (hc : c.Reachable) (hb : c.heap.block? p = some b)
    (hfit : Scene.RowsFit b.bytes row.length stride height) :
    { c with heap := c.heap.setBytes p (Scene.painted b.bytes row stride height) }.Reachable := by
  induction height with
  | zero =>
    have hself : c.heap.setBytes p (Scene.painted b.bytes row stride 0) = c.heap :=
      hc.valid.heap.setBytes_self hb
    rw [hself]
    exact hc
  | succ height ih =>
    obtain ⟨hrest, hlast⟩ := hfit.of_succ
    -- The block with the upper rows in it, to which the last row is written.
    have hblock : (c.heap.setBytes p (Scene.painted b.bytes row stride height)).block? p =
        some { b with bytes := Scene.painted b.bytes row stride height } :=
      Heap.block?_setBytes_self hb
    have hin : height * stride + row.length ≤
        (Scene.painted b.bytes row stride height).size := by rwa [Scene.size_painted]
    have hnext := (ih hrest).next (perform_write hblock hin)
    rw [Heap.setBytes_setBytes, ← Scene.painted_succ] at hnext
    exact hnext

/-! ## What is left as it was -/

namespace Redraws

theorem refl (hc : c.Reachable) : c.Redraws c 0 :=
  ⟨hc, rfl, rfl, fun _ => rfl, fun _ t ht => ⟨t, ht, rfl⟩, fun _ _ => Nat.le_refl _⟩

/-- What calls one after the other tally is added up. -/
theorem trans (h : c.Redraws d k) (h' : d.Redraws e l) : c.Redraws e (k + l) where
  reachable := h'.reachable
  policy_eq := h'.policy_eq.trans h.policy_eq
  frame_eq := h'.frame_eq.trans h.frame_eq
  boundAt?_eq unit := (h'.boundAt?_eq unit).trans (h.boundAt?_eq unit)
  layout slot t ht := by
    obtain ⟨mid, hmid, hlast⟩ := h'.layout slot t ht
    obtain ⟨old, hold, hfirst⟩ := h.layout slot mid hmid
    exact ⟨old, hold, hlast.trans hfirst⟩
  count_le e he := by
    have hfirst := h.count_le e he
    have hlast := h'.count_le e he
    omega

/-- What is done to the heap does not matter. -/
theorem with_heap {heap : Heap} (h : c.Redraws d k) (hd : { d with heap }.Reachable) :
    c.Redraws { d with heap } k :=
  ⟨hd, h.policy_eq, h.frame_eq, h.boundAt?_eq, h.layout, h.count_le⟩

/-- Rows that are too long were too long before. -/
theorem overrun (h : c.Redraws d k) (hover : d.Overrun unit) : c.Overrun unit := by
  obtain ⟨slot, t, hunit, ht, hmemory, hover⟩ := hover
  obtain ⟨old, hold, hlayout⟩ := h.layout slot t ht
  refine ⟨slot, old, (h.boundAt?_eq unit).symm.trans hunit, hold, ?_, ?_⟩
  · simp only [Texture.layout, Prod.mk.injEq] at hlayout
    exact hlayout.2.2.2.symm.trans hmemory
  · rw [← Texture.overruns_congr hlayout, ← h.policy_eq]
    exact hover

/-- A sum that is close to the end of the words was so before, but for the calls between. -/
theorem crowded (h : c.Redraws d k) (hcrowded : d.Crowded l) : c.Crowded (k + l) := by
  obtain ⟨e, he, hlimit⟩ := hcrowded
  have hle := h.count_le e he
  exact ⟨e, he, by omega⟩

end Redraws

/-- Resolving a texture. -/
theorem Effect.redraws_of_resolve (he : Effect c .resolve told d) (hc : c.Reachable)
    (hd : d.Reachable) : c.Redraws d 1 where
  reachable := hd
  policy_eq := he.policy_eq
  frame_eq := he.of_resolve.2
  boundAt?_eq unit := by rw [he.of_resolve.1]
  layout _ _ := he.layout_of_resolve
  count_le _ hne := he.count_le hc.valid hc.tally_ne_off hne

end Context

namespace Scene

open Context (Reachable Run Effect Halts)

/-- The first frame whose rows might not be counted within the words: no surface is so wide that it takes the
other half of them. -/
abbrev frameLimit : Nat := Nat.pow 2 63

/-- Resolving the bound texture answers with the address of its block, and leaves the context `c'`. -/
structure Finds (c c' : Context) (slot : Slot) (t : Texture) (p : Address) : Prop where
  resolve : c.resolve = .ok (.ok p, c')
  bound : c'.bound = .ok (.ok (slot, t))
  backing : t.backing = some p

/-- All that uploading the frame of a number may come to. -/
inductive Upload (number : Nat) (c : Context) : Except Fault (Reply Context TextureError Unit) → Prop
  | failed {cause c'} (hresolve : c.resolve = .ok (.error cause, c')) :
      Upload number c (.ok (.error cause, c'))
  | halted {fault} (hresolve : c.resolve = .error fault) : Upload number c (.error fault)
  | late {c' slot t p} (hfinds : Finds c c' slot t p)
      (hlate : Word.limit < t.handle.width + number) : Upload number c (.error .overflow)
  | gone {c' slot t p} (hfinds : Finds c c' slot t p) (hdead : c'.heap.block? p = none) :
      Upload number c (.ok (.error (.undefined slot), c'))
  | overrun {c' slot t p b} (hfinds : Finds c c' slot t p) (hblock : c'.heap.block? p = some b)
      (hover : t.Overruns c.policy.unit) : Upload number c (.error .outOfRange)
  | painted {c' slot t p b stride} (hfinds : Finds c c' slot t p)
      (hblock : c'.heap.block? p = some b) (hstride : t.stride? c.policy.unit = .ok (some stride))
      (hfit : RowsFit b.bytes (2 * t.handle.width) stride t.handle.height)
      (hrow : 2 * t.handle.width ≤ stride) :
      Upload number c (.ok (.ok (), { c' with
        heap := c'.heap.setBytes p
          (painted b.bytes (rowBytes t.handle.width number) stride t.handle.height) }))

variable {c c' : Context} {slot : Slot} {t : Texture} {p : Address} {number : Nat} {fault : Fault}
  {reply : Except TextureError Unit}

/-- Resolving a texture is a call that answers with an address. -/
theorem Finds.perform (hf : Finds c c' slot t p) : c.perform .resolve = .ok (.address p, c') :=
  Context.perform_of_resolve hf.resolve

theorem Finds.reachable (hf : Finds c c' slot t p) (hc : c.Reachable) : c'.Reachable :=
  hc.next hf.perform

theorem Finds.effect (hf : Finds c c' slot t p) (hc : c.Reachable) :
    Effect c .resolve (.address p) c' := hc.valid.effect hf.perform

/-- An address that was resolved is that of the texture that is bound. -/
theorem exists_finds (hc : c.Reachable) (h : c.resolve = .ok (.ok p, c')) :
    ∃ slot t, Finds c c' slot t p := by
  obtain ⟨slot, t, hbound, hp⟩ :=
    (hc.valid.effect (Context.perform_of_resolve h)).bound_of_address
  exact ⟨slot, t, h, hbound, hp⟩

/-- The texture that is found, its address and the context after that are determined. -/
theorem Finds.unique {d : Context} {slot' : Slot} {t' : Texture} {p' : Address}
    (h : Finds c c' slot t p) (h' : Finds c d slot' t' p') :
    d = c' ∧ slot' = slot ∧ t' = t ∧ p' = p := by
  cases h.resolve.symm.trans h'.resolve
  cases h.bound.symm.trans h'.bound
  exact ⟨rfl, rfl, rfl, rfl⟩

/-- The texture that was resolved, as it is then. -/
theorem Finds.get? (hf : Finds c c' slot t p) : c'.arena.get? slot = some t :=
  (Context.bound_eq_ok_iff.mp hf.bound).2

/-- The texture that is found is the one on the active unit. -/
theorem Finds.boundAt? (hf : Finds c c' slot t p) (hc : c.Reachable) :
    c.units.boundAt? c.units.active = some slot := by
  rw [← (hf.effect hc).of_resolve.1]
  exact (Context.bound_iff_boundAt?.mp hf.bound).1

/-- Finding a texture draws nothing anew. -/
theorem Finds.redraws (hf : Finds c c' slot t p) (hc : c.Reachable) : c.Redraws c' 1 :=
  (hf.effect hc).redraws_of_resolve hc (hf.reachable hc)

/-- The places of a row are counted within the words. -/
theorem Finds.width_add_le (hf : Finds c c' slot t p) (hc : c.Reachable)
    (hnumber : number < frameLimit) : t.handle.width + number ≤ Word.limit := by
  have hwidth := (hf.reachable hc).width_lt hf.get? hf.backing
  have hlimit : Extent.limit + frameLimit = Word.limit := by decide
  omega

/-- What uploading a frame does. -/
theorem upload_cases (hc : c.Reachable) (number : Nat) : Upload number c (upload number c) := by
  cases hresolve : c.resolve with
  | error fault =>
    have heq : upload number c = .error fault := by
      rw [upload, hresolve]
      rfl
    exact heq ▸ .halted hresolve
  | ok reply =>
    obtain ⟨cause | p, c'⟩ := reply
    · have heq : upload number c = .ok (.error cause, c') := by
        rw [upload, hresolve]
        rfl
      exact heq ▸ .failed hresolve
    · obtain ⟨slot, t, hf⟩ := exists_finds hc hresolve
      have hc' : c'.Reachable := hf.reachable hc
      obtain ⟨stride, hstride, -⟩ := hc'.exists_stride hf.get? hf.backing
      rw [upload, hresolve]
      simp only [Fault.ok_bind, hf.bound, hstride]
      by_cases hlate : Word.limit < t.handle.width + number
      · rw [if_pos hlate]
        exact .late hf hlate
      rw [if_neg hlate]
      cases hblock : c'.heap.block? p with
      | none =>
        have hbytes : c'.heap.bytes? p = none := by rw [Heap.bytes?, hblock]; rfl
        simp only [hbytes]
        exact .gone hf hblock
      | some b =>
        have hbytes : c'.heap.bytes? p = some b.bytes := by rw [Heap.bytes?, hblock]; rfl
        have hiff := hc'.rowsFit_iff hf.get? hf.backing hblock hstride
        rw [(hf.effect hc).policy_eq] at hstride hiff
        simp only [hbytes]
        by_cases hover : t.Overruns c.policy.unit
        · have hfit := fun h => hiff.mp h hover
          rw [← length_rowBytes _ number] at hfit
          rw [paint_of_not_fit hfit]
          exact .overrun hf hblock hover
        · have hfit := hiff.mpr hover
          rw [← length_rowBytes _ number] at hfit
          rw [paint_of_fit hfit]
          rw [length_rowBytes] at hfit
          rw [Texture.Overruns, ← (Surface.stride_eq hstride).2, Nat.not_lt] at hover
          exact .painted hf hblock hstride hfit hover

/-! ## What an upload leaves as it was -/

namespace Upload

variable {d : Context} {other : Slot}

/-- An upload that answers has resolved the texture, and then it wrote to the block of the texture only, if
to any. -/
theorem exists_resolve (hu : Upload number c (.ok (reply, d))) :
    ∃ told c', c.perform .resolve = .ok (told, c') ∧ (d = c' ∨ ∃ slot t p bytes,
      Finds c c' slot t p ∧ d = { c' with heap := c'.heap.setBytes p bytes }) := by
  cases hu with
  | failed hresolve => exact ⟨_, _, Context.perform_of_resolve hresolve, .inl rfl⟩
  | gone hfinds => exact ⟨_, _, hfinds.perform, .inl rfl⟩
  | painted hfinds => exact ⟨_, _, hfinds.perform, .inr ⟨_, _, _, _, hfinds, rfl⟩⟩

/-- An upload leads to reachable contexts only. -/
theorem reachable (hu : Upload number c (.ok (reply, d))) (hc : c.Reachable) : d.Reachable := by
  cases hu with
  | failed hresolve => exact hc.next (Context.perform_of_resolve hresolve)
  | gone hfinds => exact hfinds.reachable hc
  | painted hfinds hblock _ hfit =>
    rw [← length_rowBytes _ number] at hfit
    exact (hfinds.reachable hc).painted hblock hfit

/-- It leaves the units as they were. -/
theorem units_eq (hu : Upload number c (.ok (reply, d))) (hc : c.Reachable) : d.units = c.units := by
  obtain ⟨told, c', hperform, hd⟩ := hu.exists_resolve
  have hunits : c'.units = c.units := (hc.valid.effect hperform).of_resolve.1
  rcases hd with rfl | ⟨slot, t, p, bytes, -, rfl⟩ <;> exact hunits

/-- It draws nothing anew, and tallies one event at most. -/
theorem redraws (hu : Upload number c (.ok (reply, d))) (hc : c.Reachable) : c.Redraws d 1 := by
  obtain ⟨told, c', hperform, hd⟩ := hu.exists_resolve
  have h := (hc.valid.effect hperform).redraws_of_resolve hc (hc.next hperform)
  rcases hd with rfl | ⟨slot, t, p, bytes, -, rfl⟩
  · exact h
  · exact h.with_heap (hu.reachable hc)

/-- All textures but the one bound to the active unit are spared. -/
theorem spares (hu : Upload number c (.ok (reply, d))) (hc : c.Reachable)
    (hne : c.units.boundAt? c.units.active ≠ some other) : c.Spares d other := by
  obtain ⟨told, c', hperform, hd⟩ := hu.exists_resolve
  have he := hc.valid.effect hperform
  have hspares : c.Spares c' other := he.spares hc.valid (fun _ => nofun) hne
  rcases hd with rfl | ⟨slot, t, p, bytes, hfinds, rfl⟩
  · exact hspares
  · refine hspares.trans fun t' ht' => ⟨ht', fun q hq => ?_⟩
    -- The block that is written to is that of another texture.
    have hpq : q ≠ p := by
      rintro rfl
      have hsame := (hc.next hperform).valid.owns.unique other slot t' t q ht' hfinds.get? hq
        hfinds.backing
      exact hne (hsame ▸ hfinds.boundAt? hc)
    exact Heap.block?_setBytes_of_ne hpq

/-! ## What an upload comes to -/

/-- An upload that succeeds leaves the rows of its frame in the texture bound to the active unit. -/
theorem shows_of_ok (hu : Upload number c (.ok (.ok (), d))) (hc : c.Reachable) :
    ∃ slot, c.units.boundAt? c.units.active = some slot ∧ d.Shows slot number := by
  cases hu with
  | @painted c' slot t p b stride hfinds hblock hstride hfit hrow =>
    rw [← (hfinds.effect hc).policy_eq] at hstride
    refine ⟨slot, hfinds.boundAt? hc, t, p, _, stride, hfinds.get?, hfinds.backing,
      Heap.block?_setBytes_self hblock, hstride, ?_⟩
    intro y hy x hx
    rw [← length_rowBytes _ number] at hfit hrow hx
    exact getElem?_painted_row hfit hrow hx hy

/-- An upload finds nothing bound only where nothing is bound to the active unit. -/
theorem boundAt?_of_notBound {unit : Nat} (hu : Upload number c (.ok (.error (.notBound unit), d)))
    (hc : c.Reachable) : unit = c.units.active ∧ c.units.boundAt? unit = none := by
  cases hu with
  | failed hresolve =>
    exact (hc.valid.effect (Context.perform_of_resolve hresolve)).boundAt?_of_notBound hc

/-- An upload halts the program only if the rows of the texture are too short for those of the frame, the
sum of an event is about to leave the range of words, or the number of the frame is within the half of them
that a width may take. -/
theorem fault_cases (hu : Upload number c (.error fault)) (hc : c.Reachable) :
    (fault = .outOfRange ∧ c.Overrun c.units.active) ∨
      (fault = .overflow ∧ (c.Crowded 1 ∨ frameLimit ≤ number)) := by
  cases hu with
  | halted hresolve =>
    obtain ⟨rfl, hcrowded⟩ := hc.crowded_of_resolve hresolve
    exact .inr ⟨rfl, .inl hcrowded⟩
  | late hfinds hlate =>
    -- A surface that memory can hold is not so wide.
    refine .inr ⟨rfl, .inr (Nat.le_of_not_lt fun hnumber => ?_)⟩
    exact absurd hlate (Nat.not_lt.mpr (hfinds.width_add_le hc hnumber))
  | @overrun c' slot t p b hfinds hblock hover =>
    have hredraws := hfinds.redraws hc
    refine .inl ⟨rfl, hredraws.overrun ⟨slot, t, ?_, hfinds.get?, ?_, ?_⟩⟩
    · rw [hredraws.boundAt?_eq, hfinds.boundAt? hc]
    · rw [hfinds.backing]
      rfl
    · rwa [hredraws.policy_eq]

end Upload

/-- An upload leaves the range of a block just if it finds one whose rows are too short for those of the
frame. -/
theorem upload_eq_outOfRange_iff (hc : c.Reachable) (hnumber : number < frameLimit) :
    upload number c = .error .outOfRange ↔ ∃ d slot t p b, Finds c d slot t p ∧
      d.heap.block? p = some b ∧ t.Overruns c.policy.unit := by
  have hcases := upload_cases hc number
  generalize upload number c = outcome at hcases ⊢
  constructor
  · rintro rfl
    cases hcases with
    | halted hresolve => cases (hc.crowded_of_resolve hresolve).1
    | overrun hfinds hblock hover => exact ⟨_, _, _, _, _, hfinds, hblock, hover⟩
  · rintro ⟨d, slot, t, p, b, hfinds, hblock, hover⟩
    cases hcases with
    | failed hresolve => cases hfinds.resolve.symm.trans hresolve
    | halted hresolve => cases hfinds.resolve.symm.trans hresolve
    | late hfinds' hlate => exact absurd hlate (Nat.not_lt.mpr (hfinds'.width_add_le hc hnumber))
    | gone hfinds' hdead =>
      obtain ⟨rfl, rfl, rfl, rfl⟩ := hfinds'.unique hfinds
      cases hblock.symm.trans hdead
    | overrun => rfl
    | painted hfinds' _ hstride _ hrow =>
      obtain ⟨rfl, rfl, rfl, rfl⟩ := hfinds'.unique hfinds
      rw [Texture.Overruns, ← (Surface.stride_eq hstride).2] at hover
      omega

/-- The frame is uploaded where a block is found that is in use, and rows that are not too short. -/
theorem Finds.exists_upload (hf : Finds c c' slot t p) (hc : c.Reachable)
    (hlive : c'.heap.contains p = true) (hover : ¬t.Overruns c.policy.unit)
    (hnumber : number < frameLimit) : ∃ d, upload number c = .ok (.ok (), d) := by
  have hcases := upload_cases hc number
  generalize upload number c = outcome at hcases ⊢
  cases hcases with
  | failed hresolve => cases hf.resolve.symm.trans hresolve
  | halted hresolve => cases hf.resolve.symm.trans hresolve
  | late hf' hlate => exact absurd hlate (Nat.not_lt.mpr (hf'.width_add_le hc hnumber))
  | gone hf' hdead =>
    obtain ⟨rfl, rfl, rfl, rfl⟩ := hf'.unique hf
    rw [Heap.contains, hdead] at hlive
    cases hlive
  | overrun hf' _ hover' =>
    obtain ⟨rfl, rfl, rfl, rfl⟩ := hf'.unique hf
    exact absurd hover' hover
  | painted => exact ⟨_, rfl⟩

/-- The frame is uploaded to a texture that is ready. -/
theorem exists_upload (hc : c.Reachable) (hunit : c.units.boundAt? c.units.active = some slot)
    (hready : c.Ready slot) (hnumber : number < frameLimit) :
    ∃ d, upload number c = .ok (.ok (), d) := by
  obtain ⟨t, p, hget, hp, hlive, hstamp, hover⟩ := hready
  have hbound : c.bound = .ok (.ok (slot, t)) := Context.bound_iff_boundAt?.mpr ⟨hunit, hget⟩
  have hstale : c.policy.reclaims t.stamp c.frame = false := by
    rw [hstamp]
    rfl
  have hfinds : Finds c c slot t p := ⟨Context.resolve_of_stale hbound hp hstale, hbound, hp⟩
  exact hfinds.exists_upload hc hlive hover hnumber

end Scene

end TextureMemory
