import TextureMemory.Proofs.Scene.Start

/-!
# The picture that a frame leaves

A frame writes the pixels of each row and nothing behind them, so it leaves a whole picture only if the
places behind them were zero before. They are zero in every new block, be it from the definition of the
texture or in the place of a block that was sampled. And no stroke of a frame changes that: what it paints
ends with the pixels of a row (`Context.Padded.strokes`). With what a frame is known to show
(`Scene.Drawn.shows`), every byte of the block is told (`Scene.frame_bytes_exact`).
-/

namespace TextureMemory

namespace Context

/-- The texture of a slot has a surface of 16 bits a pixel and of this width and height, and a block in use,
with zeros behind the pixels of every row. -/
def Padded (c : Context) (slot : Slot) (width height : Nat) : Prop :=
  ∃ t p b stride, c.arena.get? slot = some t ∧ t.backing = some p ∧ c.heap.block? p = some b ∧
    t.stride? c.policy.unit = .ok (some stride) ∧ t.handle.format = .standard ∧
    t.handle.width = width ∧ t.handle.height = height ∧
    ∀ y < height, ∀ x < stride, 2 * width ≤ x → b.bytes[y * stride + x]? = some 0

/-- The texture of a slot, of this width and height, has a block in use that holds the picture of the frame of
a number and nothing else: in each row the two bytes of every pixel, the low one first, and then zeros. -/
def Depicts (c : Context) (slot : Slot) (width height number : Nat) : Prop :=
  ∃ t p b stride, c.arena.get? slot = some t ∧ t.backing = some p ∧ c.heap.block? p = some b ∧
    t.stride? c.policy.unit = .ok (some stride) ∧ t.handle.format = .standard ∧
    t.handle.width = width ∧ t.handle.height = height ∧ b.size = stride * height ∧
    ∀ y < height,
      (∀ x < width, ∃ low high, b.bytes[y * stride + 2 * x]? = some low ∧
        b.bytes[y * stride + 2 * x + 1]? = some high ∧
        low.toNat + 256 * high.toNat = 0x8000 ||| (x + number) % 0x8000) ∧
      ∀ x < stride, 2 * width ≤ x → b.bytes[y * stride + x]? = some 0

variable {c d : Context} {told : Answer} {slot : Slot} {t : Texture} {p : Address}
  {width height number unit : Nat} {action : Action}

/-! ## The places behind the rows -/

/-- In a block of zeros, all places of the rows are zero. -/
theorem getElem?_zeros {stride x y : Nat} (hy : y < height) (hx : x < stride) :
    (Array.replicate (stride * height) (0 : UInt8))[y * stride + x]? = some 0 := by
  have hrow : (y + 1) * stride ≤ height * stride := Nat.mul_le_mul_right stride hy
  rw [Nat.succ_mul, Nat.mul_comm height] at hrow
  rw [Array.getElem?_replicate, if_pos (by omega)]

/-- A texture that was given a new block is padded, if it has 16 bits a pixel. -/
theorem Moved.padded {handle : Handle} {size : Nat} (hm : d.Moved slot t handle size p)
    (hformat : handle.format = .standard)
    (hsize : Surface.size? handle.width handle.height handle.format d.policy.unit = .ok (some size)) :
    d.Padded slot handle.width handle.height := by
  obtain ⟨b, hb, hzeros⟩ := hm.block
  obtain ⟨stride, hstride, rfl⟩ := Surface.exists_stride_of_size? hsize
  refine ⟨_, p, b, stride, hm.texture, rfl, hb, hstride, hformat, rfl, rfl, fun y hy x hx _ => ?_⟩
  rw [hzeros]
  exact getElem?_zeros hy hx

/-- A texture that was defined just now is padded. -/
theorem Effect.padded_of_define (he : Effect c (.define .standard width height) (.address p) d)
    (hv : c.Valid) (hslot : c.units.boundAt? c.units.active = some slot) :
    d.Padded slot width height := by
  cases he with
  | @renew _ _ _ _ _ pool cursor reclaims pending tally hrenews =>
    have hmoved := hrenews.moved hv pool cursor reclaims pending tally
    cases hslot.symm.trans (bound_iff_boundAt?.mp hrenews.bound).1
    have hsize := hrenews.size_eq
    cases hrenews with
    | define => exact hmoved.padded rfl hsize

namespace Padded

/-- A texture that is spared stays padded. -/
theorem of_spares (hp : c.Padded slot width height) (hspares : c.Spares d slot)
    (hpolicy : d.policy = c.policy) : d.Padded slot width height := by
  obtain ⟨t, p, b, stride, ht, hbacking, hb, hstride, hrest⟩ := hp
  obtain ⟨hget, hblock⟩ := hspares t ht
  exact ⟨t, p, b, stride, hget, hbacking, (hblock p hbacking).trans hb, hpolicy ▸ hstride, hrest⟩

/-- The rows of a frame are not too long for the texture. -/
theorem not_overrun (hp : c.Padded slot width height) (hc : c.Reachable)
    (hunit : c.units.boundAt? unit = some slot) : ¬c.Overrun unit := by
  rintro ⟨slot', t', hunit', ht', -, hover⟩
  obtain ⟨t, p, b, stride, ht, -, -, -, hformat, -⟩ := hp
  cases hunit.symm.trans hunit'
  cases ht.symm.trans ht'
  have hone := ((Texture.overruns_iff (Nat.pos_of_isPowerOfTwo hc.valid.unit)).mp hover).1
  rw [hformat] at hone
  cases hone

/-- Resolving a padded texture leaves it padded: a new block is full of zeros. -/
theorem resolve (hp : c.Padded slot width height) (hc : c.Reachable) (he : Effect c .resolve told d) :
    d.Padded slot width height := by
  by_cases htarget : c.target? .resolve told = some slot
  · cases he with
    | @renew _ slot' t' _ _ pool cursor reclaims pending tally hrenews =>
      -- The new block is one of zeros, and the surface is as it was.
      cases hrenews.target?.symm.trans htarget
      have hmoved := hrenews.moved hc.valid pool cursor reclaims pending tally
      have hsize := hrenews.size_eq
      obtain ⟨t, p, b, stride, ht, -, -, -, hformat, rfl, rfl, -⟩ := hp
      cases hrenews.get?.symm.trans ht
      cases hrenews with
      | resolve => exact hmoved.padded hformat hsize
    | reuse | reject | exhaust | stray => exact hp
  · exact hp.of_spares (he.spares hc.valid (by simp) htarget) he.policy_eq

/-- Sampling a padded texture leaves it padded. -/
theorem sample (hp : c.Padded slot width height) (he : Effect c .sample told d) :
    d.Padded slot width height := by
  obtain ⟨t, p, b, stride, ht, hrest⟩ := hp
  cases he with
  | sample hbound =>
    obtain ⟨stamp, hget⟩ := (Effect.sample hbound).get?_of_sample ht
    exact ⟨_, p, b, stride, hget, hrest⟩
  | reject => exact ⟨t, p, b, stride, ht, hrest⟩
  | renew hrenews | exhaust hrenews | stray hrenews => cases hrenews

/-- Rows that are painted end before the places behind them. -/
theorem paint {stride : Nat} {row : List UInt8} {b : Block} {slot' : Slot}
    (hp : c.Padded slot width height) (hc : c.Reachable) (ht : c.arena.get? slot' = some t)
    (hbacking : t.backing = some p) (hb : c.heap.block? p = some b)
    (hstride : t.stride? c.policy.unit = .ok (some stride)) (hrow : row.length = 2 * t.handle.width)
    (hfit : Scene.RowsFit b.bytes row.length stride t.handle.height) :
    { c with
      heap := c.heap.setBytes p (Scene.painted b.bytes row stride t.handle.height) }.Padded
        slot width height := by
  obtain ⟨t', p', b', stride', ht', hbacking', hb', hstride', hformat, hwidth, hheight, hzero⟩ := hp
  by_cases hne : p' = p
  · subst hne
    cases hc.valid.owns.unique slot slot' t' t p' ht' ht hbacking' hbacking
    cases ht'.symm.trans ht
    cases hb'.symm.trans hb
    cases hstride'.symm.trans hstride
    refine ⟨t, p', _, stride, ht', hbacking', Heap.block?_setBytes_self hb, hstride', hformat, hwidth,
      hheight, fun y hy x hx hpad => ?_⟩
    rw [Scene.getElem?_painted_padding hfit (by omega) hx]
    exact hzero y hy x hx hpad
  · refine ⟨t', p', b', stride', ht', hbacking', ?_, hstride', hformat, hwidth, hheight, hzero⟩
    rw [← hb']
    exact Heap.block?_setBytes_of_ne hne

end Padded

/-- A texture that was just defined is padded with zeros. -/
theorem JustDefined.padded (h : d.JustDefined slot width height) : d.Padded slot width height := by
  obtain ⟨c₁, c₂, p, hc₁, he, hslot, hspares, hpolicy⟩ := h
  exact (he.padded_of_define hc₁.valid hslot).of_spares hspares hpolicy

/-- A padded texture that shows a frame has nothing but the picture of it. -/
theorem Shows.depicts (hs : c.Shows slot number) (hp : c.Padded slot width height)
    (hc : c.Reachable) : c.Depicts slot width height number := by
  obtain ⟨t, p, b, stride, ht, hbacking, hb, hstride, hformat, rfl, rfl, hzero⟩ := hp
  obtain ⟨t', p', b', stride', ht', hbacking', hb', hstride', hrows⟩ := hs
  cases ht.symm.trans ht'
  cases hbacking.symm.trans hbacking'
  cases hb.symm.trans hb'
  cases hstride.symm.trans hstride'
  have hsize : b.size = stride * t.handle.height := by
    obtain ⟨stride', hstride', heq⟩ :=
      Surface.exists_stride_of_size? (hc.sized slot t p b ht hbacking hb)
    cases hstride.symm.trans hstride'
    exact heq
  refine ⟨t, p, b, stride, ht, hbacking, hb, hstride, hformat, rfl, rfl, hsize, fun y hy =>
    ⟨fun x hx => ?_, hzero y hy⟩⟩
  obtain ⟨low, high, hlow, hhigh, heq⟩ := @Scene.getElem?_rowBytes _ number _ hx
  refine ⟨low, high, ?_, ?_, heq.trans (Scene.texel_eq number x)⟩
  · rw [hrows y hy _ (by omega), hlow]
  · rw [Nat.add_assoc, hrows y hy _ (by omega), hhigh]

end Context

namespace Scene

open Context (Reachable Effect)

variable {c₀ c c' d e : Context} {slot : Slot} {width height : Nat} {scene : Scene} {s : Settings}
  {budgets : Budgets}

/-- Frames leave a texture padded, wherever they stop. -/
theorem Strokes.padded (h : Strokes c₀ c) (hc₀ : c₀.Reachable) (hp : c₀.Padded slot width height) :
    c.Padded slot width height := by
  induction h with
  | refl => exact hp
  | perform h hmakes hperform ih =>
    have hc := h.reachable hc₀
    have he := hc.valid.effect hperform
    cases hmakes with
    | resolve => exact ih.resolve hc he
    | sample => exact ih.sample he
    | activate | endFrame =>
      exact ih.of_spares (he.spares hc.valid (by simp) (by simp [Context.target?])) he.policy_eq
  | paint h hbound hbacking hblock hstride hfit _ number ih =>
    rw [← length_rowBytes _ number] at hfit
    exact ih.paint (h.reachable hc₀) (Context.bound_eq_ok_iff.mp hbound).2 hbacking hblock hstride
      (length_rowBytes _ number) hfit

/-! ## A scene between its frames -/

/-- A scene that was set up with unit 0 active, and of which nothing was drawn but frames. -/
structure Stands (scene : Scene) (c : Context) : Prop where
  reachable : c.Reachable
  first : c.units.boundAt? 0 = some scene.palette
  second : c.units.boundAt? 1 = some scene.page
  page_padded : c.Padded scene.page pageWidth pageHeight
  palette_padded : scene.page ≠ scene.palette → c.Padded scene.palette paletteWidth 1

/-- A scene stands where it was set up. -/
theorem Starts.stands (h : Starts c scene d) (hc : c.Reachable) (hactive : c.units.active = 0) :
    Stands scene d := by
  have hsets := h.sets hc
  obtain ⟨hpage, hpalette⟩ := h.justDefined
  refine ⟨hsets.reachable, ?_, ?_, hpage.padded, fun hne => (hpalette hne).padded⟩
  · rw [hsets.boundAt?_eq, if_neg (by decide), if_pos hactive.symm]
  · rw [hsets.boundAt?_eq, if_pos rfl]

/-- It goes on standing whatever frames are drawn. -/
theorem Strokes.stands (h : Strokes c d) (hs : Stands scene c) : Stands scene d where
  reachable := h.reachable hs.reachable
  first := ((h.steady hs.reachable).boundAt?_eq 0).trans hs.first
  second := ((h.steady hs.reachable).boundAt?_eq 1).trans hs.second
  page_padded := h.padded hs.reachable hs.page_padded
  palette_padded hne := h.padded hs.reachable (hs.palette_padded hne)

/-- The palette is padded too, be it another texture than the page or not. -/
theorem Stands.exists_padded (hs : Stands scene c) :
    ∃ width height, c.Padded scene.palette width height := by
  by_cases hsame : scene.page = scene.palette
  · exact ⟨_, _, hsame ▸ hs.page_padded⟩
  · exact ⟨_, _, hs.palette_padded hsame⟩

/-- The rows of a scene fit its textures. -/
theorem Stands.not_overrun (hs : Stands scene c) {unit : Nat} (hunit : unit ≤ 1) : ¬c.Overrun unit := by
  obtain rfl | rfl : unit = 0 ∨ unit = 1 := by omega
  · obtain ⟨_, _, hpadded⟩ := hs.exists_padded
    exact hpadded.not_overrun hs.reachable hs.first
  · exact hs.page_padded.not_overrun hs.reachable hs.second

/-- **A frame leaves its picture in both textures, byte for byte.** Let a scene be set up with unit 0 active,
after calls of any kind, and let frames of it be drawn, whether or not they succeed. Then

* the next frame does not leave the range of a block;
* if it succeeds, the page and the palette have blocks in use of just as many bytes as their strides and
  heights come to. In each row, the two bytes of a pixel are the number `0x8000 ||| (x + frame) % 0x8000`, the
  low one first, and all bytes behind the pixels are zero;
* the palette is another texture than the page, if there were indices to spare for two. -/
theorem frame_bytes_exact (hstart : Context.ofSettings s (.ofBudgets budgets) = .ok (.ok c₀))
    (hplays : Plays c₀ c) (hactive : c.units.active = 0) (hscene : start c = .ok (.ok scene, c'))
    (hattempts : Attempts c' d) :
    frame d ≠ .error .outOfRange ∧
    (∀ e, frame d = .ok (.ok (), e) → e.Depicts scene.page pageWidth pageHeight d.frame ∧
      (scene.page ≠ scene.palette → e.Depicts scene.palette paletteWidth 1 d.frame)) ∧
    (c.arena.count + 1 < Slot.limit → scene.page ≠ scene.palette) := by
  have hc := hplays.reachable hstart
  have hstarts := starts_of_start hc hscene
  have hstands := hstarts.stands hc hactive
  have hd := (hattempts.strokes hstands.reachable).stands hstands
  refine ⟨fun h => ?_, fun e h => ?_, (hstarts.sets hc).page_new⟩
  · rcases (frame_ensures hd.reachable).fault h with ⟨-, unit, hunit, hover⟩ | ⟨hfault, -⟩
    · exact hd.not_overrun hunit hover
    · cases hfault
  · have hdrawn := (frame_ensures hd.reachable).ok h
    have he := (strokes_of_frame hd.reachable h).stands hd
    obtain ⟨_, hslot₀, hshows₀⟩ := hdrawn.shows 0 (by decide)
    obtain ⟨_, hslot₁, hshows₁⟩ := hdrawn.shows 1 (by decide)
    cases hd.first.symm.trans hslot₀
    cases hd.second.symm.trans hslot₁
    exact ⟨hshows₁.depicts he.page_padded he.reachable,
      fun hne => hshows₀.depicts (he.palette_padded hne) he.reachable⟩

/-- The first frame of the first scene. -/
theorem frame_bytes_exact_after_start : ∃ c₀ scene c d,
    Context.ofSettings .standard (.ofBudgets .standard) = .ok (.ok c₀) ∧
    start c₀ = .ok (.ok scene, c) ∧ frame c = .ok (.ok (), d) ∧
    d.Depicts scene.page pageWidth pageHeight c.frame ∧ d.Depicts scene.palette paletteWidth 1 c.frame := by
  obtain ⟨c₀, scene, c, d, hstart, hactive, hcount, hscene, hframe⟩ := exists_first_frame
  obtain ⟨-, hdepicts, hne⟩ := frame_bytes_exact hstart .refl hactive hscene .refl
  obtain ⟨hpage, hpalette⟩ := hdepicts d hframe
  exact ⟨c₀, scene, c, d, hstart, hscene, hframe, hpage, hpalette (hne (by rw [hcount]; decide))⟩

end Scene

end TextureMemory
