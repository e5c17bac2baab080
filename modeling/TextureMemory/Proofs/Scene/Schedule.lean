import TextureMemory.Proofs.Scene.Shared

/-!
# When a scene has its blocks replaced

A frame is over one frame after its own stamps. So whatever the threshold is, as long as it is not zero, the
palette gets a new block in each frame but the first, and the page in each that comes after one in which it
was sampled (`Scene.frames_replace`). The first frame finds no stamps, and each of the others those of the
frame before (`Scene.Follows`).
-/

namespace TextureMemory

/-- Where a surface of two bytes a pixel has a size, the width can be rounded up. -/
theorem Surface.up_eq_of_size? {width height unit size : Nat} (hw : 0 < width) (hh : 0 < height)
    (h : size? width height .standard unit = .ok (some size)) :
    Alignment.up width unit = .ok (Alignment.ceil width unit) := by
  obtain ⟨stride, hstride, -⟩ := exists_stride_of_size? h
  have hunit : unit.isPowerOfTwo := (stride_eq hstride).1
  have hpos : 0 < unit := Nat.pos_of_isPowerOfTwo hunit
  rw [size?_eq hunit hw hh] at h
  have hlt := (Word.ofNat?_eq_some_iff.mp (Except.ok.inj h)).2
  have htwice : Alignment.ceil width unit * 2 ≤ exactSize width height .standard unit :=
    Nat.le_mul_of_pos_right _ hh
  have hwidth : width ≤ Alignment.ceil width unit := Alignment.le_ceil hpos
  have hceil : unit ≤ Alignment.ceil width unit := Nat.le_of_dvd (by omega) Alignment.dvd_ceil
  rw [Alignment.up_eq hunit, if_pos (by omega)]

namespace Context

variable {c : Context}

/-- The summary tells how many blocks were replaced. -/
theorem Reachable.exists_stats (hc : c.Reachable) :
    ∃ stats, c.stats = .ok stats ∧ stats.reclaims = c.reclaims := by
  obtain ⟨n, hn⟩ := hc.exists_bounded
  exact ⟨_, hc.valid.stats_eq (Nat.lt_of_le_of_lt hn.held_le hc.valid.heap.spent_lt), rfl⟩

end Context

namespace Scene

open Context (Reachable Spends)
open Session (exists_of_bind)

variable {c₀ c c' d : Context} {scene : Scene} {s : Settings} {budgets : Budgets} {n number unit : Nat}

/-- The palette has one row. -/
theorem paletteBytes_eq : paletteBytes unit = 2 * Alignment.ceil paletteWidth unit := by
  rw [paletteBytes, Surface.exactSize, Nat.mul_one, Nat.mul_comm]
  rfl

/-- The page has 96 rows of two bytes a pixel. -/
theorem pageBytes_eq : pageBytes unit = 192 * Alignment.ceil pageWidth unit := by
  rw [pageBytes, Surface.exactSize, Nat.mul_assoc, Nat.mul_comm]
  rfl

/-! ## One frame after the other -/

/-- The frames among so many, from the first on, in which the page is sampled. -/
def pageFrames (first count : Nat) : Nat :=
  (List.range count).countP fun i => (first + i) % pageInterval = 0

/-- The first of the frames is counted, or it is not, and then the rest of them. -/
theorem pageFrames_succ (first count : Nat) : pageFrames first (count + 1) =
    (decide (first % pageInterval = 0)).toNat + pageFrames (first + 1) count := by
  have hnext : (fun i => decide ((first + i) % pageInterval = 0)) ∘ Nat.succ =
      fun i => decide ((first + 1 + i) % pageInterval = 0) := by
    funext i
    rw [Function.comp_apply, Nat.succ_eq_add_one, Nat.add_comm i 1, Nat.add_assoc]
  rw [pageFrames, List.range_succ_eq_map, List.countP_cons, List.countP_map, hnext, Nat.add_comm]
  by_cases hfirst : first % pageInterval = 0 <;> simp [hfirst, pageFrames]

/-- A scene of which a frame of this number was drawn last. -/
structure Follows (scene : Scene) (c : Context) (number : Nat) : Prop where
  stands : Stands scene c
  frame_eq : c.frame = number + 1
  palette_recent : c.recent scene.palette = decide (1 ≤ c.policy.threshold)
  page_recent : c.recent scene.page =
    (decide (number % pageInterval = 0) && decide (1 ≤ c.policy.threshold))

/-- A frame replaces the blocks of those textures of the scene that were sampled recently. -/
theorem Stands.spends_of_frame (hs : Stands scene c) (hne : scene.page ≠ scene.palette)
    (h : frame c = .ok (.ok (), d)) :
    c.Spends d ((c.recent scene.palette).toNat + (c.recent scene.page).toNat)
      ((c.recent scene.palette).toNat * paletteBytes c.policy.unit +
        (c.recent scene.page).toNat * pageBytes c.policy.unit) := by
  have hspends := (frame_spends hs (hs.palette_padded hne) h).1
  rwa [due_eq hne] at hspends

/-- After a frame its number is the one that was drawn last. -/
theorem follows_of_frame (hs : Stands scene c) (hne : scene.page ≠ scene.palette)
    (h : frame c = .ok (.ok (), d)) : Follows scene d c.frame := by
  have hdrawn := (frame_ensures hs.reachable).ok h
  refine ⟨(strokes_of_frame hs.reachable h).stands hs, hdrawn.frame_eq, ?_, ?_⟩
  · obtain ⟨-, t, ht, hstamp⟩ := hdrawn.first _ hs.first (by
      rw [hs.second]
      exact fun heq => hne (Option.some.inj heq))
    exact Context.recent_of_stamp ht hstamp hdrawn.frame_eq
  · by_cases hsampled : c.frame % pageInterval = 0
    · obtain ⟨-, t, ht, hstamp⟩ := hdrawn.second hsampled _ hs.second
      rw [Context.recent_of_stamp ht hstamp hdrawn.frame_eq, decide_eq_true hsampled, Bool.true_and]
    · rw [((frame_spends hs (hs.palette_padded hne) h).2 hsampled).recent_eq, decide_eq_false hsampled, Bool.false_and]

/-- What the frames after the first replace: the palette each time, and the page each time that it was sampled
in the frame before. -/
theorem Follows.spends (hf : Follows scene c number) (hne : scene.page ≠ scene.palette) (n : Nat)
    (h : frames n c = .ok (.ok (), d)) :
    c.Spends d (if c.policy.threshold = 0 then 0 else n + pageFrames number n)
      (if c.policy.threshold = 0 then 0
        else n * paletteBytes c.policy.unit + pageFrames number n * pageBytes c.policy.unit) := by
  induction n generalizing c number with
  | zero =>
    cases h
    simpa [pageFrames] using Spends.refl _
  | succ n ih =>
    obtain ⟨_, e, hframe, hrest⟩ := exists_of_bind h
    have hspends := hf.stands.spends_of_frame hne hframe
    have hnext := follows_of_frame hf.stands hne hframe
    rw [hf.frame_eq] at hnext
    have hspends' := ih hnext hrest
    have hpolicy : e.policy = c.policy :=
      ((strokes_of_frame hf.stands.reachable hframe).steady hf.stands.reachable).policy_eq
    rw [hpolicy] at hspends'
    rw [hf.palette_recent, hf.page_recent] at hspends
    have htotal := hspends.trans hspends'
    rw [pageFrames_succ]
    by_cases hzero : c.policy.threshold = 0
    · simpa [hzero] using htotal
    · have hone : 1 ≤ c.policy.threshold := Nat.pos_of_ne_zero hzero
      rw [decide_eq_true hone, Bool.and_true, Bool.toNat_true, if_neg hzero, if_neg hzero] at htotal
      have hbytes : ∀ a b m k, (n + 1) * a + (m + k) * b = 1 * a + m * b + (n * a + k * b) := by
        intro a b m k
        rw [Nat.add_mul, Nat.add_mul]
        omega
      rw [if_neg hzero, if_neg hzero, hbytes, Nat.add_comm n 1, Nat.add_add_add_comm]
      exact htotal

/-- What all frames after a scene was set up replace: nothing in the first of them. -/
theorem Stands.spends (hs : Stands scene c) (hne : scene.page ≠ scene.palette)
    (hpalette : c.Ready scene.palette) (hpage : c.Ready scene.page) (n : Nat)
    (h : frames (n + 1) c = .ok (.ok (), d)) :
    c.Spends d (if c.policy.threshold = 0 then 0 else n + pageFrames c.frame n)
      (if c.policy.threshold = 0 then 0
        else n * paletteBytes c.policy.unit + pageFrames c.frame n * pageBytes c.policy.unit) := by
  obtain ⟨_, e, hframe, hrest⟩ := exists_of_bind h
  have hspends := hs.spends_of_frame hne hframe
  have hspends' := (follows_of_frame hs hne hframe).spends hne n hrest
  rw [((strokes_of_frame hs.reachable hframe).steady hs.reachable).policy_eq] at hspends'
  rw [hpalette.recent_eq, hpage.recent_eq] at hspends
  simpa using hspends.trans hspends'

/-- Frames are made of strokes, wherever they stop. -/
theorem maintains_frames (hc₀ : c₀.Reachable) (n : Nat) : (frames n).Maintains (Strokes c₀) := by
  induction n with
  | zero => exact .pure _
  | succ n ih => exact (maintains_frame hc₀).bind fun _ => ih

/-- As many blocks are in use after frames as before them. -/
theorem Stands.blocks_eq (hs : Stands scene c) (n : Nat) (h : frames n c = .ok (.ok (), d)) :
    d.heap.count = c.heap.count := by
  induction n generalizing c with
  | zero =>
    cases h
    rfl
  | succ n ih =>
    obtain ⟨_, e, hframe, hrest⟩ := exists_of_bind h
    obtain ⟨_, _, hpalette⟩ := hs.exists_padded
    exact (ih ((strokes_of_frame hs.reachable hframe).stands hs) hrest).trans
      (frame_spends hs hpalette hframe).1.blocks_eq

/-- If so many frames succeed, so do fewer. -/
theorem exists_of_frames_le {k : Nat} (hle : k ≤ n) (h : frames n c = .ok (.ok (), d)) :
    ∃ e, frames k c = .ok (.ok (), e) := by
  induction k generalizing n c with
  | zero => exact ⟨c, rfl⟩
  | succ k ih =>
    obtain ⟨m, rfl⟩ := Nat.exists_eq_add_of_lt hle
    obtain ⟨_, e, hframe, hrest⟩ := exists_of_bind h
    obtain ⟨e', he'⟩ := ih (Nat.le_add_right k m) hrest
    exact ⟨e', (Session.bind_of_ok hframe).trans he'⟩

/-- **What the frames of a scene replace does not depend on the threshold, unless it is zero.** Let a scene be
set up with unit 0 active, after calls of any kind, and let `n + 1` frames of it be drawn, all of which
succeed. Then

* the page is another texture than the palette, if there were indices to spare for two textures;
* if it is, then with a threshold of zero no block is replaced. With any other, the palette gets a new one in
  each frame but the first, and the page in each that comes after one whose number is a multiple of
  `pageInterval`. This is what the summary counts, and the sum of the replaced bytes grows by the sizes of
  these blocks;
* after each frame as many blocks are in use as before the first. -/
theorem frames_replace (hstart : Context.ofSettings s (.ofBudgets budgets) = .ok (.ok c₀))
    (hplays : Plays c₀ c) (hactive : c.units.active = 0) (hscene : start c = .ok (.ok scene, c'))
    (hframes : frames (n + 1) c' = .ok (.ok (), d)) :
    (c.arena.count + 1 < Slot.limit → scene.page ≠ scene.palette) ∧
    (scene.page ≠ scene.palette → ∃ wide narrow before after,
      Alignment.up paletteWidth s.alignUnit = .ok wide ∧
      Alignment.up pageWidth s.alignUnit = .ok narrow ∧
      c'.stats = .ok before ∧ d.stats = .ok after ∧
      after.reclaims = before.reclaims +
        (if s.purgeThreshold = 0 then 0 else n + pageFrames c.frame n) ∧
      d.count Event.reclaimedBytes.name = c'.count Event.reclaimedBytes.name +
        (if s.purgeThreshold = 0 then 0
          else n * (2 * wide) + pageFrames c.frame n * (192 * narrow))) ∧
    ∀ k ≤ n + 1, ∃ e, frames k c' = .ok (.ok (), e) ∧ e.heap.count = c'.heap.count := by
  have hc := hplays.reachable hstart
  have hstarts := starts_of_start hc hscene
  have hsets := hstarts.sets hc
  have hstands := hstarts.stands hc hactive
  refine ⟨hsets.page_new, fun hne => ?_, fun k hk => ?_⟩
  · have hpolicy : c'.policy = ⟨s.purgeThreshold, s.alignUnit, s.memoryClass⟩ :=
      (hplays.start hscene).policy_eq hstart
    have hspends := hstands.spends hne (hsets.palette_ready hne) hsets.page_ready n hframes
    have hpalette := (hstands.palette_padded hne).size?_eq hstands.reachable
    have hpage := hstands.page_padded.size?_eq hstands.reachable
    rw [(hstarts.counts hc).1, hpolicy] at hspends
    rw [hpolicy] at hpalette hpage
    have hd : d.Reachable :=
      ((maintains_frames hstands.reachable (n + 1)).holds .refl hframes).reachable hstands.reachable
    obtain ⟨before, hbefore, hreclaims⟩ := hstands.reachable.exists_stats
    obtain ⟨after, hafter, hreclaims'⟩ := hd.exists_stats
    refine ⟨_, _, before, after, Surface.up_eq_of_size? (by decide) (by decide) hpalette,
      Surface.up_eq_of_size? (by decide) (by decide) hpage, hbefore, hafter, ?_, ?_⟩
    · rw [hreclaims', hreclaims]
      exact hspends.reclaims_eq
    · rw [hspends.bytes_eq, paletteBytes_eq, pageBytes_eq]
  · obtain ⟨e, he⟩ := exists_of_frames_le hk hframes
    exact ⟨e, he, hstands.blocks_eq k he⟩

/-- After the frame in which the page is sampled for the second time, the palette was replaced 46 times and
the page twice. -/
theorem frames_replace_after_start : ∃ c₀ scene c d before after,
    Context.ofSettings .standard (.ofBudgets .standard) = .ok (.ok c₀) ∧
    start c₀ = .ok (.ok scene, c) ∧ frames 47 c = .ok (.ok (), d) ∧ scene.page ≠ scene.palette ∧
    c.stats = .ok before ∧ d.stats = .ok after ∧ after.reclaims = before.reclaims + 48 := by
  have hstart : Context.ofSettings .standard (.ofBudgets .standard) =
      .ok (.ok (Context.start .standard (.ofBudgets .standard))) := by rfl
  obtain ⟨scene, c, hscene, htest⟩ := Session.exists_of_passes
    (show start.passes (Context.start .standard (.ofBudgets .standard)) (fun _ c => c.frame = 0 &&
      c.policy = ⟨30, Surface.standardUnit, .main⟩ && c.heap.spent < 2 ^ 20 && c.heap.cursor.value < 2 ^ 32 &&
      c.heap.budgets = .standard && Event.all.all (c.count ·.name ≤ 2)) = true by decide +kernel)
  simp only [Bool.and_eq_true, decide_eq_true_eq, List.all_eq_true] at htest
  obtain ⟨⟨⟨⟨⟨hnumber, hpolicy⟩, hspent⟩, hcursor⟩, hbudgets⟩, hcounts⟩ := htest
  have hstarts := starts_of_start (.of_run hstart .start) hscene
  have hne := (hstarts.sets (.of_run hstart .start)).page_new (by decide)
  have hroom : c.Room (47 * frameRoom (paletteBytes c.policy.unit) c.policy.unit) := by
    rw [show c.policy.unit = Surface.standardUnit by rw [hpolicy]]
    refine ⟨⟨.vram, by rw [hpolicy]; decide, ?_⟩, ?_⟩
    · have hbytes : 2 ^ 20 + 47 * frameRoom (paletteBytes Surface.standardUnit) Surface.standardUnit ≤
          Budgets.standard.get .vram := by decide
      rw [hbudgets]
      omega
    · have hbytes : 2 ^ 32 + 47 * frameRoom (paletteBytes Surface.standardUnit) Surface.standardUnit <
          Word.limit := by decide
      omega
  have hquiet : ¬c.Crowded (2 * 47) := by
    rintro ⟨event, -, hlimit⟩
    have hcount := hcounts event (by cases event <;> decide)
    have hwords : 2 + 2 * 47 < Word.limit := by decide
    omega
  have hstands := hstarts.stands (.of_run hstart .start) rfl
  obtain ⟨d, hframes⟩ := exists_frames hstands (hstands.palette_padded hne) 47
    (by rw [hnumber]; decide) hquiet hroom
  obtain ⟨-, -, before, after, -, -, hbefore, hafter, hreclaims, -⟩ :=
    (frames_replace hstart .refl rfl hscene hframes).2.1 hne
  exact ⟨_, scene, c, d, before, after, hstart, hscene, hframes, hne, hbefore, hafter, hreclaims⟩

/-- Where the page has the slot of the palette, more is replaced: the first frame replaces a block already. -/
theorem frames_replace_ne : ¬∀ s budgets c₀ past c scene c' n d before after,
    Context.ofSettings s (.ofBudgets budgets) = .ok (.ok c₀) → Context.Run c₀ past c →
    (∀ step ∈ past, step.action.meddles = false) → c.units.active = 0 →
    start c = .ok (.ok scene, c') → frames (n + 1) c' = .ok (.ok (), d) →
    c'.stats = .ok before → d.stats = .ok after →
    after.reclaims = before.reclaims +
      (if s.purgeThreshold = 0 then 0 else n + pageFrames c.frame n) := by
  intro hall
  have hstart : Context.ofSettings .standard (.ofBudgets .standard) =
      .ok (.ok (Context.start .standard (.ofBudgets .standard))) := by rfl
  obtain ⟨past, c, scene, c', d, hrun, hmeddles, hactive, hscene, hframe, hreclaims⟩ := exists_shared
  have hc : c.Reachable := .of_run hstart hrun
  have hstands := (starts_of_start hc hscene).stands hc hactive
  obtain ⟨before, hbefore, hbefore'⟩ := hstands.reachable.exists_stats
  obtain ⟨after, hafter, hafter'⟩ :=
    ((strokes_of_frame hstands.reachable hframe).reachable hstands.reachable).exists_stats
  have hframes : frames 1 c' = .ok (.ok (), d) := Session.bind_of_ok hframe
  have hsame := hall .standard .standard _ past c scene c' 0 d before after hstart hrun hmeddles hactive
    hscene hframes hbefore hafter
  have hnone : pageFrames c.frame 0 = 0 := rfl
  rw [hafter', hbefore', hnone, Nat.add_zero, ite_self, Nat.add_zero] at hsame
  omega

end Scene

end TextureMemory
