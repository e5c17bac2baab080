import TextureMemory.Proofs.Heap.Requests
import TextureMemory.Proofs.Scene.Costs

/-!
# When frames succeed

Nothing but memory can make a frame of a scene fail, or a count that is about to leave the range of words. A
block is replaced while the old one is in use, and each takes new addresses. So what has to be left for a
frame is room for a palette and a page more (`Context.Room`), and frames go on for as long as there is room
for all that they replace (`Scene.exists_frames`).
-/

namespace TextureMemory

namespace Context

/-- There is room for blocks of so many bytes in all: a pool of the class that is asked has them in its budget
together with all that was ever handed out, and as many addresses are left. -/
structure Room (c : Context) (bytes : Nat) : Prop where
  pool : ∃ p ∈ c.policy.request.candidates, c.heap.spent + bytes ≤ c.heap.budgets.get p
  address : c.heap.cursor.value + bytes < Word.limit

variable {c d : Context} {slot : Slot} {n k l size bytes width height : Nat}

/-- Where there is room for more there is room for less. -/
theorem Room.mono (h : c.Room l) (hle : k ≤ l) : c.Room k := by
  obtain ⟨⟨p, hp, hpool⟩, haddress⟩ := h
  exact ⟨⟨p, hp, by omega⟩, by omega⟩

/-- What was spent is missing from the room. -/
theorem Room.of_spends (h : c.Room (bytes + Heap.alignment * n + k)) (hs : c.Spends d n bytes)
    (hpolicy : d.policy = c.policy) : d.Room k := by
  obtain ⟨⟨p, hp, hpool⟩, haddress⟩ := h
  have hcursor := hs.cursor_le
  refine ⟨⟨p, hpolicy ▸ hp, ?_⟩, by omega⟩
  rw [hs.budgets_eq, Heap.spent]
  rw [Heap.spent] at hpool
  omega

/-- A block that is handed out takes its bytes, rounded up, from the room. -/
theorem Room.of_grants {request : MemoryClass} {pool : Pool} {cursor : Address}
    (h : c.Room (size + Heap.alignment + k)) (hgrants : c.heap.Grants size request pool cursor)
    (hcursor : d.heap.cursor = cursor) (hbudgets : d.heap.budgets = c.heap.budgets)
    (hpolicy : d.policy = c.policy) : d.Room k := by
  obtain ⟨⟨p, hp, hpool⟩, haddress⟩ := h
  have hceil : Alignment.ceil size Heap.alignment < size + Heap.alignment :=
    Alignment.ceil_lt_add (by decide)
  have hnext := (Heap.cursorAfter?_eq_some hgrants.next).1
  refine ⟨⟨p, hpolicy ▸ hp, ?_⟩, by rw [hcursor]; omega⟩
  rw [hbudgets, Heap.spent, hcursor]
  rw [Heap.spent] at hpool
  omega

/-- A block is handed out where there is room for it. -/
theorem Room.serves (h : c.Room (size + Heap.alignment)) (hv : c.Valid) (hsize : 0 < size) :
    c.heap.Serves size c.policy.request := by
  obtain ⟨⟨p, hp, hpool⟩, haddress⟩ := h
  have hused := hv.heap.used_le_spent p
  have hceil : Alignment.ceil size Heap.alignment < size + Heap.alignment :=
    Alignment.ceil_lt_add (by decide)
  refine ⟨hsize, ⟨p, hp, ?_⟩, by omega⟩
  rw [Heap.Fits, Heap.usedBy]
  omega

/-- A padded texture is resolved where there is room for its block. -/
theorem Padded.exists_resolve (hp : c.Padded slot width height) (hc : c.Reachable)
    (hslot : c.units.boundAt? c.units.active = some slot) (hquiet : ¬c.Crowded 1)
    (hroom : c.Room (Surface.exactSize width height .standard c.policy.unit + Heap.alignment)) :
    ∃ p d, c.resolve = .ok (.ok p, d) := by
  have hsize := hp.size?_eq hc
  obtain ⟨t, q, b, -, ht, hbacking, hb, -, hformat, rfl, rfl, -⟩ := hp
  have hbound : c.bound = .ok (.ok (slot, t)) := bound_iff_boundAt?.mpr ⟨hslot, ht⟩
  rw [← hformat] at hsize hroom
  obtain ⟨size, hpos, hsize'⟩ := hc.valid.owns.size slot t q ht hbacking
  cases hsize.symm.trans hsize'
  cases hresolve : c.resolve with
  | error fault => exact absurd (hc.crowded_of_resolve hresolve).2 hquiet
  | ok reply =>
    obtain ⟨cause | p, d⟩ := reply
    · -- None of the reasons to fail is there.
      cases hc.valid.effect (perform_of_resolve hresolve) with
      | reject hrejects =>
        cases hrejects with
        | resolve hnot => cases hbound.symm.trans hnot
        | undefined hbound' hnone =>
          cases hbound.symm.trans hbound'
          cases hbacking.symm.trans hnone
      | exhaust hrenews hallocate =>
        cases hrenews with
        | resolve hbound' _ _ hsize' =>
          cases hbound.symm.trans hbound'
          cases hsize.symm.trans hsize'
          obtain ⟨_, _, -, -, hserved⟩ := (hroom.serves hc.valid hpos).allocate_eq hc.valid.heap
            (hc.size_lt ht hbacking hsize)
          cases hserved.symm.trans hallocate
      | stray hrenews _ hold hdead =>
        cases hrenews with
        | resolve hbound' =>
          cases hbound.symm.trans hbound'
          cases hbacking.symm.trans hold
          cases hb.symm.trans hdead
    · exact ⟨p, d, rfl⟩

/-- So a frame is uploaded to it. -/
theorem Padded.exists_upload {number : Nat} (hp : c.Padded slot width height) (hc : c.Reachable)
    (hslot : c.units.boundAt? c.units.active = some slot) (hnumber : number < Scene.frameLimit)
    (hquiet : ¬c.Crowded 1)
    (hroom : c.Room (Surface.exactSize width height .standard c.policy.unit + Heap.alignment)) :
    ∃ d, Scene.upload number c = .ok (.ok (), d) := by
  obtain ⟨p, d, hresolve⟩ := hp.exists_resolve hc hslot hquiet hroom
  obtain ⟨slot', t, hfinds⟩ := Scene.exists_finds hc hresolve
  have he := hfinds.effect hc
  have hbound := hfinds.boundAt? hc
  cases hslot.symm.trans hbound
  have hd : d.Padded slot width height := hp.resolve hc he
  have hunit : d.units.boundAt? c.units.active = some slot := he.of_resolve.1 ▸ hbound
  refine hfinds.exists_upload hc ?_ (fun hover => ?_) hnumber
  · obtain ⟨t', p', b, -, ht', hbacking', hb, -⟩ := hd
    cases ht'.symm.trans hfinds.get?
    cases hbacking'.symm.trans hfinds.backing
    rw [Heap.contains, hb]
    rfl
  · refine hd.not_overrun (hfinds.reachable hc) hunit
      ⟨slot, t, hunit, hfinds.get?, ?_, he.policy_eq ▸ hover⟩
    rw [hfinds.backing]
    rfl

/-- A sum that is near the end of its range after some calls was near it before. -/
theorem Spends.crowded (hs : c.Spends d n bytes) (h : d.Crowded k) : c.Crowded (n + k) := by
  obtain ⟨event, hne, hlimit⟩ := h
  have hle := hs.count_le event hne
  exact ⟨event, hne, by omega⟩

/-- A sum that is close to the end of the words is no farther from it than that. -/
theorem Crowded.mono (h : c.Crowded k) (hle : k ≤ l) : c.Crowded l := by
  obtain ⟨event, hne, hlimit⟩ := h
  exact ⟨event, hne, by omega⟩

end Context

namespace Scene

open Context (Effect Reachable Spends Room)
open Session (call performs_activate performs_sample)

variable {c d e : Context} {scene : Scene} {slot : Slot} {n k number unit width height : Nat}

/-- The room that a frame may take: that of a palette of so many bytes and of a page, each rounded up. -/
def frameRoom (bytes unit : Nat) : Nat :=
  bytes + Heap.alignment + (pageBytes unit + Heap.alignment)

/-- A unit is made the active one and its texture is uploaded to, where there is room for a block of it. -/
theorem exists_upload_of_room (hc : c.Reachable) (hunit : unit ≤ 1)
    (hslot : c.units.boundAt? unit = some slot) (hp : c.Padded slot width height)
    (hnumber : number < frameLimit) (hquiet : ¬c.Crowded 1)
    (hroom : c.Room (Surface.exactSize width height .standard c.policy.unit + Heap.alignment))
    (hactivate : activate unit c = .ok (.ok (), d)) : ∃ e, upload number d = .ok (.ok (), e) := by
  obtain ⟨hd, he⟩ := (performs_activate unit).effect hc hactivate
  have hspends : c.Spends d 0 0 := .of_makes he hc (.activate hunit) nofun
  obtain ⟨hactive, hbound⟩ := he.of_activate
  have hpadded := (strokes_of_performs (performs_activate unit) (.activate hunit) hactivate).padded hc hp
  refine hpadded.exists_upload hd (by rw [hactive, hbound, hslot]) hnumber (fun hcrowded => ?_) ?_
  · exact hquiet (by simpa using hspends.crowded hcrowded)
  · rw [he.policy_eq]
    exact Room.of_spends (by simpa using hroom) hspends he.policy_eq

/-- What so many blocks of the palette take, and so many of the page, is within the room of a frame. -/
theorem le_frameRoom (a b : Bool) (bytes : Nat) :
    a.toNat * bytes + b.toNat * pageBytes unit + Heap.alignment * (a.toNat + b.toNat) ≤
      frameRoom bytes unit := by
  have hpalette := Nat.mul_le_mul_right (bytes + Heap.alignment) (Bool.toNat_le a)
  have hpage := Nat.mul_le_mul_right (pageBytes unit + Heap.alignment) (Bool.toNat_le b)
  rw [Nat.mul_add, Nat.one_mul] at hpalette hpage
  rw [frameRoom, Nat.mul_add, Nat.mul_comm Heap.alignment, Nat.mul_comm Heap.alignment]
  omega

/-- A frame leaves the room that it may not take. -/
theorem room_of_frame (hs : Stands scene c) (hpalette : c.Padded scene.palette width height)
    (hroom : c.Room (frameRoom (Surface.exactSize width height .standard c.policy.unit) c.policy.unit + k))
    (h : frame c = .ok (.ok (), d)) : d.Room k := by
  have hspends := (frame_spends hs hpalette h).1
  refine Room.of_spends (hroom.mono ?_) hspends
    ((strokes_of_frame hs.reachable h).steady hs.reachable).policy_eq
  exact Nat.add_le_add_right (le_frameRoom _ _ _) k

/-- A frame is drawn where there is room for both textures. -/
theorem exists_frame_of_room (hs : Stands scene c) (hpalette : c.Padded scene.palette width height)
    (hnumber : c.frame < frameLimit) (hquiet : ¬c.Crowded 2)
    (hroom : c.Room (frameRoom (Surface.exactSize width height .standard c.policy.unit) c.policy.unit)) :
    ∃ d, frame c = .ok (.ok (), d) := by
  refine exists_frame_of_uploads hs.reachable hnumber hs.first hs.second (fun d₁ h₁ => ?_) ?_
  · refine exists_upload_of_room hs.reachable (by decide) hs.first hpalette hnumber
      (fun hcrowded => hquiet (hcrowded.mono (by decide))) (hroom.mono ?_) h₁
    exact Nat.le_add_right _ _
  rintro d₁ d₂ d₃ h₁ h₂ h₃ - - d₄ h₄
  -- The palette was uploaded to and sampled: that replaced one block at most.
  have hfirst := turns_of_upload hs.reachable (by decide) hs.first hpalette h₁ h₂
  have hs₂ := hfirst.strokes.stands hs
  obtain ⟨-, he₃⟩ := performs_sample.effect hs₂.reachable h₃
  have hs₃ := (strokes_of_performs performs_sample .sample h₃).stands hs₂
  have hspends := hfirst.spends.trans (.of_makes he₃ hs₂.reachable .sample (by simp))
  have hpolicy : d₃.policy = c.policy :=
    he₃.policy_eq.trans (hfirst.strokes.steady hs.reachable).policy_eq
  have hone := Bool.toNat_le (c.recent scene.palette)
  refine exists_upload_of_room hs₃.reachable (Nat.le_refl 1) hs₃.second hs₃.page_padded hnumber
    (fun hcrowded => hquiet ((hspends.crowded hcrowded).mono (by omega))) ?_ h₄
  rw [hpolicy]
  refine Room.of_spends (hroom.mono ?_) hspends hpolicy
  have htaken := Nat.mul_le_mul_right
    (Surface.exactSize width height .standard c.policy.unit + Heap.alignment) hone
  rw [Nat.mul_add, Nat.one_mul] at htaken
  rw [frameRoom, pageBytes, Nat.add_zero, Nat.add_zero, Nat.mul_comm Heap.alignment]
  omega

/-- **Frames go on while there is room.** A scene that was set up with unit 0 active has any number of frames
drawn to it, if there is room for a palette and a page for each, and neither the number of the frame nor a sum
comes to the end of its range. -/
theorem exists_frames (hs : Stands scene c) (hpalette : c.Padded scene.palette width height) (n : Nat)
    (hnumber : c.frame + n ≤ frameLimit) (hquiet : ¬c.Crowded (2 * n))
    (hroom : c.Room
      (n * frameRoom (Surface.exactSize width height .standard c.policy.unit) c.policy.unit)) :
    ∃ d, frames n c = .ok (.ok (), d) := by
  induction n generalizing c with
  | zero => exact ⟨c, rfl⟩
  | succ n ih =>
    rw [Nat.add_mul, Nat.one_mul, Nat.add_comm] at hroom
    obtain ⟨d, hframe⟩ := exists_frame_of_room hs hpalette (by omega)
      (fun hcrowded => hquiet (hcrowded.mono (by omega))) (hroom.mono (Nat.le_add_right _ _))
    have hstrokes := strokes_of_frame hs.reachable hframe
    have hpolicy := (hstrokes.steady hs.reachable).policy_eq
    have hnext : d.frame = c.frame + 1 := ((frame_ensures hs.reachable).ok hframe).frame_eq
    -- A frame replaces two blocks at most.
    have hquiet' : ¬d.Crowded (2 * n) := by
      intro hcrowded
      have hrecent := Bool.toNat_le (c.recent scene.palette)
      have hdue := Bool.toNat_le (scene.due c)
      exact hquiet (((frame_spends hs hpalette hframe).1.crowded hcrowded).mono (by omega))
    obtain ⟨e, hrest⟩ := ih (hstrokes.stands hs) (hstrokes.padded hs.reachable hpalette) (by omega)
      hquiet' (hpolicy ▸ room_of_frame hs hpalette hroom hframe)
    exact ⟨e, (Session.bind_of_ok hframe).trans hrest⟩

end Scene

end TextureMemory
