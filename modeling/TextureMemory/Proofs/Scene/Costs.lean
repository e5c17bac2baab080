import TextureMemory.Proofs.Scene.Picture
import TextureMemory.Proofs.Surface.Size

/-!
# What a frame replaces

A block is replaced when its texture is uploaded to and was sampled a short time ago (`Context.recent`). The
stamp goes with the block, so it counts for one replacement only, and a texture that was left its block
keeps it until it is sampled again (`Context.Idle`). Each call of a frame is told by what it replaces
(`Context.Spends`), and the frame by the sum: the blocks of those textures of the scene that were sampled
recently (`Scene.frame_spends`).
-/

namespace TextureMemory

/-- A stamp that is too old to count stays so. -/
theorem Policy.reclaims_mono {p : Policy} {stamp : Stamp} {current later : Nat}
    (h : p.reclaims stamp current = false) (hle : current ≤ later) : p.reclaims stamp later = false := by
  cases stamp with
  | unused => rfl
  | frame n =>
    simp only [reclaims, Stamp.elapsed?, decide_eq_false_iff_not] at h ⊢
    omega

namespace Heap

variable {h : Heap} {size : Nat} {request : MemoryClass} {pool : Pool} {cursor : Address}
  {old : Option Address}

theorem discard_budgets {o : Option Block} : (h.discard o).budgets = h.budgets := by
  cases o <;> rfl

/-- As many blocks are in use after one was handed out and another taken back. -/
theorem Valid.count_of_exchange (hv : h.Valid) (hgrants : h.Grants size request pool cursor)
    (hlt : ∀ a ∈ old, a.value < h.cursor.value) (hlive : ∀ a ∈ old, ∃ b, h.block? a = some b)
    (hsome : old.isSome) : ((h.extend size pool cursor).discard (old.bind h.block?)).count = h.count := by
  obtain ⟨a, rfl⟩ := Option.isSome_iff_exists.mp hsome
  have hperm := (hv.extend hgrants).addresses_discard hlive fun a ha => by
    rw [block?_extend, if_neg (Address.ne_of_lt (hlt a ha)).symm]
  have hlength := hperm.length_eq
  rw [addresses_extend, Option.toList_some, List.singleton_append, List.length_cons, List.length_cons,
    addresses, addresses, List.length_map, List.length_map] at hlength
  exact (Nat.succ.inj hlength).symm

end Heap

namespace Context

/-- Whether the texture of a slot was sampled so recently that it gets a new block when it is resolved. -/
def recent (c : Context) (slot : Slot) : Bool :=
  (c.arena.get? slot).any fun t => c.policy.reclaims t.stamp c.frame

/-- The texture of a slot keeps its block from now on, unless it is sampled. -/
def Idle (c : Context) (slot : Slot) : Prop :=
  ∀ t, c.arena.get? slot = some t → ∀ later ≥ c.frame, c.policy.reclaims t.stamp later = false

/-- Calls led from `c` to `d` that replaced `n` blocks by others of so many bytes in all, and left as many
blocks in use. The addresses that this took are those of the bytes, each block rounded up, and no event was
tallied more often than blocks were replaced. -/
structure Spends (c d : Context) (n bytes : Nat) : Prop where
  reclaims_eq : d.reclaims = c.reclaims + n
  bytes_eq : d.count Event.reclaimedBytes.name = c.count Event.reclaimedBytes.name + bytes
  blocks_eq : d.heap.count = c.heap.count
  budgets_eq : d.heap.budgets = c.heap.budgets
  cursor_le : d.heap.cursor.value ≤ c.heap.cursor.value + bytes + Heap.alignment * n
  count_le : ∀ e ≠ Event.reclaimedBytes, d.count e.name ≤ c.count e.name + n

variable {c d e : Context} {action : Action} {told : Answer} {slot : Slot} {t : Texture} {p : Address}
  {n n' bytes bytes' number : Nat}

/-- A texture that exists is recent if the policy would replace its block. -/
theorem recent_eq (ht : c.arena.get? slot = some t) :
    c.recent slot = c.policy.reclaims t.stamp c.frame := by
  rw [recent, ht]
  rfl

/-- An idle texture is not recent. -/
theorem Idle.recent_eq (hi : c.Idle slot) : c.recent slot = false := by
  rw [recent]
  cases ht : c.arena.get? slot with
  | none => rfl
  | some t => exact hi t ht c.frame (Nat.le_refl _)

/-- A texture that is left alone goes on to be idle. -/
theorem Idle.of_get? (hi : c.Idle slot) (hget : d.arena.get? slot = c.arena.get? slot)
    (hpolicy : d.policy = c.policy) (hframe : c.frame ≤ d.frame) : d.Idle slot := by
  intro t ht later hle
  rw [hpolicy]
  exact hi t (hget ▸ ht) later (Nat.le_trans hframe hle)

/-- A call about another texture, or about none, leaves it idle. -/
theorem Idle.of_effect (hi : c.Idle slot) (he : Effect c action told d)
    (hne : c.target? action told ≠ some slot) : d.Idle slot :=
  hi.of_get? (he.get?_of_ne_target hne) he.policy_eq he.frame_le

/-- Whether a texture counts as recent is told by its stamp, the policy and the frame. -/
theorem recent_congr (hget : d.arena.get? slot = c.arena.get? slot) (hpolicy : d.policy = c.policy)
    (hframe : d.frame = c.frame) : d.recent slot = c.recent slot := by
  rw [recent, recent, hget, hpolicy, hframe]

/-- A texture that is ready was not sampled. -/
theorem Ready.recent_eq (h : c.Ready slot) : c.recent slot = false := by
  obtain ⟨t, -, ht, -, -, hstamp, -⟩ := h
  rw [Context.recent_eq ht, hstamp]
  rfl

/-- The surface of a padded texture has a size. -/
theorem Padded.size?_eq {width height : Nat} (hp : c.Padded slot width height) (hc : c.Reachable) :
    Surface.size? width height .standard c.policy.unit =
      .ok (some (Surface.exactSize width height .standard c.policy.unit)) := by
  obtain ⟨t, p, b, -, ht, hbacking, hb, -, hformat, rfl, rfl, -⟩ := hp
  have hsize : Surface.size? t.handle.width t.handle.height .standard c.policy.unit =
      .ok (some b.size) := hformat ▸ hc.sized slot t p b ht hbacking hb
  rw [hsize, Surface.eq_exactSize hsize]

/-- A texture that was sampled in the frame before counts as recent, unless the threshold is zero. -/
theorem recent_of_stamp (ht : c.arena.get? slot = some t) (hstamp : t.stamp = .frame n)
    (hframe : c.frame = n + 1) : c.recent slot = decide (1 ≤ c.policy.threshold) := by
  rw [recent_eq ht, hstamp, hframe, Policy.reclaims, Stamp.elapsed?, Nat.add_sub_cancel_left]

/-- A texture that was sampled just now counts as recent, whatever the threshold is. -/
theorem Effect.recent_of_sample (he : Effect c .sample .done d)
    (hslot : c.units.boundAt? c.units.active = some slot) : d.recent slot = true := by
  cases he with
  | sample hbound =>
    obtain ⟨hunit, hget⟩ := bound_iff_boundAt?.mp hbound
    cases hslot.symm.trans hunit
    have hstamped : ∀ t', (c.arena.set slot t').get? slot = some t' := fun t' =>
      ((Arena.update_set hget).get? slot).trans (if_pos rfl)
    rw [recent, hstamped, Option.any_some, Policy.reclaims, Stamp.elapsed?, Nat.sub_self]
    exact decide_eq_true (Nat.zero_le _)

namespace Spends

theorem refl (c : Context) : c.Spends c 0 0 :=
  ⟨rfl, rfl, rfl, rfl, Nat.le_refl _, fun _ _ => Nat.le_refl _⟩

/-- The costs of calls one after the other are added up. -/
theorem trans (h : c.Spends d n bytes) (h' : d.Spends e n' bytes') :
    c.Spends e (n + n') (bytes + bytes') where
  reclaims_eq := by rw [h'.reclaims_eq, h.reclaims_eq, Nat.add_assoc]
  bytes_eq := by rw [h'.bytes_eq, h.bytes_eq, Nat.add_assoc]
  blocks_eq := h'.blocks_eq.trans h.blocks_eq
  budgets_eq := h'.budgets_eq.trans h.budgets_eq
  cursor_le := by
    have hfirst := h.cursor_le
    have hlast := h'.cursor_le
    rw [Nat.mul_add]
    omega
  count_le event hne := by
    have hfirst := h.count_le event hne
    have hlast := h'.count_le event hne
    omega

/-- What is written to the blocks in use costs nothing. -/
theorem setBytes {bytes' : Buffer} (h : c.Spends d n bytes) :
    c.Spends { d with heap := d.heap.setBytes p bytes' } n bytes where
  reclaims_eq := h.reclaims_eq
  bytes_eq := h.bytes_eq
  blocks_eq := by
    rw [← h.blocks_eq, Heap.count, Heap.count, Heap.setBytes, List.length_map]
  budgets_eq := h.budgets_eq
  cursor_le := h.cursor_le
  count_le := h.count_le

/-- A call of a frame that resolves nothing replaces nothing. -/
theorem of_makes (he : Effect c action told d) (hc : c.Reachable) (hmakes : Scene.Makes action)
    (hne : action ≠ .resolve) : c.Spends d 0 0 := by
  have hreclaims := he.reclaims_eq hc.valid
  have hcount := fun event => he.count_eq (e := event) hc.valid hc.tally_ne_off
  have hheap : d.heap = c.heap := by
    cases hmakes with
    | resolve => exact absurd rfl hne
    | activate | sample | endFrame =>
      cases he with
      | renew hrenews | exhaust hrenews | stray hrenews => cases hrenews
      | _ => rfl
  cases hmakes with
  | resolve => exact absurd rfl hne
  | activate | sample | endFrame =>
    refine ⟨hreclaims, hcount .reclaimedBytes, congrArg Heap.count hheap, congrArg Heap.budgets hheap, ?_,
      fun event _ => ?_⟩
    · rw [hheap]
      exact Nat.le_refl _
    · rw [hcount event]
      cases event <;> exact Nat.le_refl _

end Spends

/-- Resolving a texture replaces its block just if it was sampled recently. After that it is idle. -/
theorem Effect.spends_of_resolve (he : Effect c .resolve (.address p) d) (hc : c.Reachable)
    (hslot : c.units.boundAt? c.units.active = some slot) (ht : c.arena.get? slot = some t)
    (hsize : t.size? c.policy.unit = .ok (some n)) :
    c.Spends d (c.recent slot).toNat ((c.recent slot).toNat * n) ∧ d.Idle slot := by
  have hreclaims := he.reclaims_eq hc.valid
  have hbytes := he.count_eq hc.valid hc.tally_ne_off .reclaimedBytes
  have hcount := fun event => he.count_le (e := event) hc.valid hc.tally_ne_off
  rw [recent_eq ht]
  cases he with
  | @renew _ slot' t' shape size pool cursor _ _ _ hrenews hgrants hlive =>
    obtain ⟨hunit, hget⟩ := bound_iff_boundAt?.mp hrenews.bound
    cases hslot.symm.trans hunit
    cases ht.symm.trans hget
    rw [Step.adds, Step.replacedBytes, hrenews.answeredBytes hc.valid rfl, hrenews.replaces hc.valid,
      if_pos rfl] at hbytes
    rw [hrenews.replaces hc.valid] at hreclaims
    cases hrenews with
    | resolve _ hprevious hrecent hsize' =>
      cases hsize.symm.trans hsize'
      rw [hrecent, Bool.toNat_true, Nat.one_mul]
      refine ⟨⟨hreclaims, hbytes, ?_, Heap.discard_budgets, ?_, hcount⟩, ?_⟩
      · exact hc.valid.heap.count_of_exchange hgrants (hc.valid.owns.lt_cursor slot t · hget) hlive
          (by rw [hprevious]; rfl)
      · have hceil : Alignment.ceil n Heap.alignment < n + Heap.alignment :=
          Alignment.ceil_lt_add (by decide)
        have hcursor := (Heap.cursorAfter?_eq_some hgrants.next).1
        rw [Heap.discard_cursor, Heap.extend_cursor]
        omega
      · rintro t' ht' later -
        rw [(Arena.update_set hget).get?, if_pos rfl] at ht'
        cases ht'
        rfl
  | reuse hbound _ hstale =>
    obtain ⟨hunit, hget⟩ := bound_iff_boundAt?.mp hbound
    cases hslot.symm.trans hunit
    cases ht.symm.trans hget
    rw [hstale, Bool.toNat_false, Nat.zero_mul]
    refine ⟨.refl c, fun t' ht' later hle => ?_⟩
    cases ht.symm.trans ht'
    exact Policy.reclaims_mono hstale hle

end Context

namespace Scene

open Context (Effect Reachable Spends)
open Session (call exists_of_bind performs_activate performs_sample)

variable {c₀ c c' d e : Context} {scene : Scene} {slot : Slot} {t : Texture} {s : Settings}
  {budgets : Budgets} {n number unit width height size : Nat} {reply : Except TextureError Unit}

/-- An upload replaces the block of a recent texture, and nothing else, and the texture is idle then. -/
theorem Upload.spends (hu : Upload number c (.ok (.ok (), d))) (hc : c.Reachable)
    (hslot : c.units.boundAt? c.units.active = some slot) (ht : c.arena.get? slot = some t)
    (hsize : t.size? c.policy.unit = .ok (some n)) :
    c.Spends d (c.recent slot).toNat ((c.recent slot).toNat * n) ∧ d.Idle slot := by
  cases hu with
  | painted hfinds =>
    obtain ⟨hspends, hidle⟩ := (hfinds.effect hc).spends_of_resolve hc hslot ht hsize
    exact ⟨hspends.setBytes, hidle⟩

/-- The bytes of the palette. -/
def paletteBytes (unit : Nat) : Nat := Surface.exactSize paletteWidth 1 .standard unit

/-- The bytes of the page. -/
def pageBytes (unit : Nat) : Nat := Surface.exactSize pageWidth pageHeight .standard unit

/-! ## The turns of a frame -/

/-- A unit was made the active one and its texture uploaded to, from `c` to `d`. -/
structure Turns (c d : Context) (unit : Nat) (slot : Slot) (size : Nat) : Prop where
  strokes : Strokes c d
  spends : c.Spends d (c.recent slot).toNat ((c.recent slot).toNat * size)
  idle : d.Idle slot
  spares : ∀ other ≠ slot, c.Spares d other
  frame_eq : d.frame = c.frame
  active_eq : d.units.active = unit

/-- The turn of a unit costs what the upload to its texture costs. -/
theorem turns_of_upload (hc : c.Reachable) (hunit : unit ≤ 1)
    (hslot : c.units.boundAt? unit = some slot) (hp : c.Padded slot width height)
    (hactivate : activate unit c = .ok (.ok (), d))
    (hupload : call (upload number) d = .ok (.ok (), e)) :
    Turns c e unit slot (Surface.exactSize width height .standard c.policy.unit) := by
  have hsize := hp.size?_eq hc
  obtain ⟨hd, he⟩ := (performs_activate unit).effect hc hactivate
  have hstrokes : Strokes c d :=
    .perform .refl (.activate hunit) (by rw [performs_activate unit c, hactivate]; rfl)
  have hspends : c.Spends d 0 0 := .of_makes he hc (.activate hunit) nofun
  obtain ⟨hactive, hbound⟩ := he.of_activate
  have hspares : ∀ other, c.Spares d other := fun _ => he.spares hc.valid (by simp) nofun
  have hcases := upload_cases hd number
  rw [show upload number d = _ from hupload] at hcases
  obtain ⟨t, -, -, -, ht, -, -, -, hformat, rfl, rfl, -⟩ := hp
  have hget : d.arena.get? slot = some t := (hspares slot t ht).1
  have hslot' : d.units.boundAt? d.units.active = some slot := by rw [hactive, hbound, hslot]
  obtain ⟨hspends', hidle⟩ := hcases.spends hd hslot' hget (by
    rw [Texture.size?, hformat, he.policy_eq, hsize])
  have hrecent : d.recent slot = c.recent slot :=
    Context.recent_congr (hget.trans ht.symm) he.policy_eq (he.frame_eq nofun)
  rw [hrecent] at hspends'
  refine ⟨hcases.strokes hd hstrokes, by simpa using hspends.trans hspends', hidle,
    fun other hne => (hspares other).trans (hcases.spares hd ?_),
    (hcases.redraws hd).frame_eq.trans (he.frame_eq nofun), ?_⟩
  · rw [hslot']
    exact fun heq => hne (Option.some.inj heq).symm
  · rw [hcases.units_eq hd, hactive]

/-- The end of a frame replaces nothing, and stamps nothing. -/
theorem exists_of_finish (hs : Stands scene c)
    (h : (do activate 0; call fun c => return (.ok (), (← c.endFrame).2) : Session Unit) c =
      .ok (.ok (), e)) : c.Spends e 0 0 ∧ ∀ slot, c.Idle slot → e.Idle slot := by
  obtain ⟨_, d, h₁, h₂⟩ := exists_of_bind h
  obtain ⟨hd, he₁⟩ := (performs_activate 0).effect hs.reachable h₁
  obtain ⟨number, hperform⟩ := exists_perform_of_endFrame h₂
  have he₂ := hd.valid.effect hperform
  exact ⟨(Spends.of_makes he₁ hs.reachable (.activate (by decide)) nofun).trans
    (.of_makes he₂ hd .endFrame nofun), fun _ hi => (hi.of_effect he₁ nofun).of_effect he₂ nofun⟩

/-- Whether a frame gives the page a new block: if it was sampled recently, or if it is the palette, which the
frame has sampled when it comes to the page. -/
def due (scene : Scene) (c : Context) : Bool := scene.page = scene.palette || c.recent scene.page

/-- The page is due by itself where it is another texture than the palette. -/
theorem due_eq (hne : scene.page ≠ scene.palette) : scene.due c = c.recent scene.page := by
  rw [due, decide_eq_false hne, Bool.false_or]

/-- After the turn of the palette, the page counts as recent if it is due. -/
theorem recent_eq_due {d₁ d₂ : Context} (hs : Stands scene c) (ht : Turns c d₁ 0 scene.palette size)
    (he : Effect d₁ .sample .done d₂) : d₂.recent scene.page = scene.due c := by
  have hs₁ := ht.strokes.stands hs
  have hactive : d₁.units.boundAt? d₁.units.active = some scene.palette := by rw [ht.active_eq, hs₁.first]
  by_cases hsame : scene.page = scene.palette
  · rw [due, decide_eq_true hsame, Bool.true_or, hsame]
    exact he.recent_of_sample hactive
  · have hspares : c.Spares d₂ scene.page := by
      refine (ht.spares _ hsame).trans (he.spares hs₁.reachable.valid (by simp) ?_)
      rw [Context.target?, hactive]
      exact fun heq => hsame (Option.some.inj heq).symm
    have hpolicy : d₂.policy = c.policy :=
      he.policy_eq.trans (ht.strokes.steady hs.reachable).policy_eq
    obtain ⟨t, -, -, -, hget, -⟩ := hs.page_padded
    rw [due_eq hsame]
    exact Context.recent_congr ((hspares t hget).1.trans hget.symm) hpolicy
      ((he.frame_eq (by simp)).trans ht.frame_eq)

/-- A frame takes a turn with each texture, and samples the palette between them. What comes then replaces
nothing, and leaves idle what is, if it does not sample the page. -/
theorem exists_turns_of_frame (hs : Stands scene c) (hpalette : c.Padded scene.palette width height)
    (h : frame c = .ok (.ok (), e)) : ∃ d₁ d₂ d₃,
    Turns c d₁ 0 scene.palette (Surface.exactSize width height .standard c.policy.unit) ∧
    Effect d₁ .sample .done d₂ ∧ Turns d₂ d₃ 1 scene.page (pageBytes c.policy.unit) ∧
    d₃.Spends e 0 0 ∧ (c.frame % pageInterval ≠ 0 → ∀ slot, d₃.Idle slot → e.Idle slot) := by
  obtain ⟨_, _, ⟨⟩, h⟩ := exists_of_bind h
  -- The palette.
  obtain ⟨_, d, h₀, h⟩ := exists_of_bind h
  obtain ⟨_, d₁, h₁, h⟩ := exists_of_bind h
  have hfirst := turns_of_upload hs.reachable (by decide) hs.first hpalette h₀ h₁
  have hs₁ := hfirst.strokes.stands hs
  obtain ⟨_, d₂, h₂, h⟩ := exists_of_bind h
  obtain ⟨hd₂, he₂⟩ := performs_sample.effect hs₁.reachable h₂
  have hs₂ := (strokes_of_performs performs_sample .sample h₂).stands hs₁
  have hpolicy : d₂.policy = c.policy :=
    he₂.policy_eq.trans (hfirst.strokes.steady hs.reachable).policy_eq
  -- The page.
  obtain ⟨_, d', h₂', h⟩ := exists_of_bind h
  obtain ⟨_, d₃, h₃, h⟩ := exists_of_bind h
  have hsecond := turns_of_upload hd₂ (Nat.le_refl 1) hs₂.second hs₂.page_padded h₂' h₃
  have hs₃ := hsecond.strokes.stands hs₂
  refine ⟨d₁, d₂, d₃, hfirst, he₂, hpolicy ▸ hsecond, ?_⟩
  -- It is sampled in some frames only.
  by_cases hsampled : c.frame % pageInterval = 0
  · simp only [if_pos hsampled] at h
    obtain ⟨_, d₄, h₄, h⟩ := exists_of_bind h
    obtain ⟨-, he₄⟩ := performs_sample.effect hs₃.reachable h₄
    have hs₄ := (strokes_of_performs performs_sample .sample h₄).stands hs₃
    obtain ⟨hfinish, -⟩ := exists_of_finish hs₄ h
    exact ⟨(Spends.of_makes he₄ hs₃.reachable .sample (by simp)).trans hfinish,
      fun hother => absurd hsampled hother⟩
  · simp only [if_neg hsampled] at h
    obtain ⟨hfinish, hidle⟩ := exists_of_finish hs₃ h
    exact ⟨hfinish, fun _ => hidle⟩

/-- A frame replaces the block of the palette if it was sampled recently, and that of the page if it is due.
After one that does not sample the page, the page is idle. -/
theorem frame_spends (hs : Stands scene c) (hpalette : c.Padded scene.palette width height)
    (h : frame c = .ok (.ok (), e)) :
    c.Spends e ((c.recent scene.palette).toNat + (scene.due c).toNat)
      ((c.recent scene.palette).toNat * Surface.exactSize width height .standard c.policy.unit +
        (scene.due c).toNat * pageBytes c.policy.unit) ∧
    (c.frame % pageInterval ≠ 0 → e.Idle scene.page) := by
  obtain ⟨d₁, d₂, d₃, hfirst, he, hsecond, hrest, hidle⟩ := exists_turns_of_frame hs hpalette h
  have hs₁ := hfirst.strokes.stands hs
  have hsample : d₁.Spends d₂ 0 0 := .of_makes he hs₁.reachable .sample (by simp)
  have hspends := ((hfirst.spends.trans hsample).trans hsecond.spends).trans hrest
  rw [recent_eq_due hs hfirst he] at hspends
  exact ⟨hspends, fun hother => hidle hother _ hsecond.idle⟩

end Scene

end TextureMemory
