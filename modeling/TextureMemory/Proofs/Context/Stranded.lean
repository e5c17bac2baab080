import TextureMemory.Proofs.Context.Failure
import TextureMemory.Proofs.Context.Interference
import TextureMemory.Proofs.Context.Outcomes
import TextureMemory.Proofs.Context.Stability

/-!
# Textures whose block is gone

Someone may give back the block of a texture behind its back. The texture then owns an address where
nothing begins (`Context.Stranded`), and it will never come off it. No block begins there again, because
new ones begin at the cursor and the address lies below; and a texture changes its address, or ceases to
exist, only together with the block there.

So all that can be done to it is to stamp it. A call that is to give it a new block, or to delete it, asks
the heap to take back what is not there, and fails for that, if it comes so far. No such call leaves a
trace but the cursor and the tally (`Context.stranded_for_good`).
-/

namespace TextureMemory.Context

/-- The texture of a slot owns an address where no block in use begins. -/
structure Stranded (c : Context) (slot : Slot) (t : Texture) (p : Address) : Prop where
  get? : c.arena.get? slot = some t
  backing : t.backing = some p
  dead : c.heap.block? p = none

/-- A call fails, and leaves everything as it was but the cursor of the heap and the tally. -/
def Fails (c : Context) (action : Action) : Prop :=
  ∃ cause c', c.perform action = .ok (.failed cause, c') ∧
    c' = { c with heap := { c.heap with cursor := c'.heap.cursor }, tally := c'.tally }

variable {c₀ c c' : Context} {past later : List Step} {action : Action} {told : Answer} {slot : Slot}
  {t shape : Texture} {p : Address} {size n : Nat} {cause : TextureError} {s : Settings}
  {budgets : Budgets}

/-! ## One call -/

/-- An address below the cursor where no block begins stays dead, whatever is done to the heap. -/
theorem Effect.block?_of_dead (he : Effect c action told c') (hv : c.Valid)
    (hlt : p.value < c.heap.cursor.value) (hdead : c.heap.block? p = none) :
    c'.heap.block? p = none := by
  have hcursor : p ≠ c.heap.cursor := Address.ne_of_lt hlt
  cases he with
  | renew hrenews =>
    rw [Heap.block?_extend_discard (hv.lt_cursor hrenews.bound), if_neg hcursor, hdead, ite_self]
  | delete => rw [Heap.block?_discard, hdead, ite_self]
  | heap heff =>
    rw [← Option.not_isSome_iff_eq_none]
    intro hlive
    rcases heff.live_cases hlive with ⟨hbefore, -⟩ | rfl
    · rw [hdead] at hbefore
      cases hbefore
    · exact hcursor (Effect.address_eq (.heap heff) rfl nofun)
  | _ => exact hdead

/-- A call that fails leaves everything as it was but the cursor and the tally. -/
theorem Valid.fails (hv : c.Valid) (h : c.perform action = .ok (.failed cause, c')) :
    c.Fails action :=
  ⟨cause, c', h, ((hv.effect h).eq_of_failed hv).1⟩

namespace Stranded

/-- The address of a stranded texture lies below the cursor. -/
theorem lt_cursor (hs : c.Stranded slot t p) (hv : c.Valid) : p.value < c.heap.cursor.value :=
  hv.owns.lt_cursor slot t p hs.get? hs.backing

/-- Its block is not in use. -/
theorem not_live (hs : c.Stranded slot t p) : ¬∀ a ∈ t.backing, ∃ b, c.heap.block? a = some b := by
  intro hlive
  obtain ⟨b, hb⟩ := hlive p hs.backing
  rw [hs.dead] at hb
  cases hb

/-- A stranded texture stays stranded, and as it is but for its stamp, if an index is left for each new
texture. -/
theorem next (hs : c.Stranded slot t p) (he : Effect c action told c') (hv : c.Valid)
    (hspare : action = .generate → c.arena.count < Slot.limit) :
    ∃ stamp, c'.Stranded slot { t with stamp } p := by
  have hdead : c'.heap.block? p = none := he.block?_of_dead hv (hs.lt_cursor hv) hs.dead
  cases he.fate hv hs.get? hspare with
  | kept hget => exact ⟨t.stamp, hget, hs.backing, hdead⟩
  | stamped _ hget => exact ⟨_, hget, hs.backing, hdead⟩
  | moved _ hlive | deleted hlive =>
    -- It would have had to give up its block, which was not in use.
    exact absurd hlive hs.not_live

end Stranded

/-! ## Along a run -/

/-- A stranded texture stays stranded. -/
theorem Run.stranded (hrun : Run c past c') (hv : c.Valid) (hs : c.Stranded slot t p)
    (hcount : ∀ step ∈ past, step.after.arena.count ≤ Slot.limit) :
    ∃ stamp, c'.Stranded slot { t with stamp } p := by
  refine hrun.induct_mem (P := fun _ c => ∃ stamp, c.Stranded slot { t with stamp } p) hv hcount
    ⟨t.stamp, hs⟩ ?_
  rintro past c action told c' hv ⟨stamp, hsBefore⟩ he hle
  exact hsBefore.next he hv (he.spare hle)

/-- The surface of a texture that was given memory is one that memory can hold. -/
theorem Run.size_lt (hstart : ofSettings s (.ofBudgets budgets) = .ok (.ok c₀))
    (hrun : Run c₀ past c) : ∀ slot t p n, c.arena.get? slot = some t → t.backing = some p →
      t.size? c.policy.unit = .ok (some n) → n < Extent.limit := by
  refine hrun.induct_of_start (P := fun _ c => ∀ slot t p n, c.arena.get? slot = some t →
    t.backing = some p → t.size? c.policy.unit = .ok (some n) → n < Extent.limit) hstart ?_ ?_
  · intro slot t p n hget
    rw [get?_start] at hget
    cases hget
  · intro past c action told c' _ hbefore he slot t p n hget hp hsize
    rw [he.policy_eq] at hsize
    cases he.origin hget with
    | old hold => exact hbefore slot t p n hold hp hsize
    | blank ht =>
      rw [ht] at hp
      cases hp
    | moved hrenews hgrants ht =>
      rw [ht] at hsize
      cases hrenews.size_eq.symm.trans hsize
      exact hgrants.size_lt
    | stamped hbound ht =>
      rw [ht] at hp hsize
      exact hbefore slot _ p n (bound_eq_ok_iff.mp hbound).2 hp hsize

/-! ## What the calls on a stranded texture come to -/

namespace Stranded

/-- A stranded texture cannot be deleted. -/
theorem perform_delete (hs : c.Stranded slot t p) :
    c.perform (.delete slot) = .ok (.failed (.memory (.notLive p)), c) := by
  have hget : c.arena.get slot = .ok t := by rw [Arena.get, hs.get?]
  have hrelease : c.heap.release t.backing = .ok (.error (.notLive p), c.heap) := by
    rw [hs.backing]
    exact Heap.free_of_not_live hs.dead
  rw [perform, delete, hget]
  simp only [hrelease, Fault.ok_bind]
  rfl

/-- A call that is to give a stranded texture a new block fails, unless the block is too large for any
memory, or a count overflows. -/
theorem renews_cases (hs : c.Stranded slot t p) (hr : Renews c action slot t shape size)
    (hv : c.Valid) (hn : c.Bounded n) :
    c.Fails action ∨
    (c.perform action = .error .tooLarge ∧ Extent.limit ≤ size ∧
      c.heap.allocate size c.policy.request = .error .tooLarge) ∨
    (c.perform action = .error .overflow ∧ Word.limit ≤ n + 1) := by
  cases hperform : c.perform action with
  | ok reply =>
    left
    obtain ⟨told, c'⟩ := reply
    rcases hr.effect_cases (hv.effect hperform) with
      ⟨_, _, -, hlive, -⟩ | ⟨_, -, -, rfl⟩ | ⟨_, _, _, -, -, -, rfl⟩
    · exact absurd hlive hs.not_live
    · exact hv.fails hperform
    · exact hv.fails hperform
  | error fault =>
    right
    rcases hr.fault_cases hv hn hperform with hallocate | ⟨rfl, hlimit⟩
    · rcases hv.heap.allocate_cases size c.policy.request with
        ⟨_, -, heq⟩ | ⟨_, _, -, heq⟩ | ⟨hlarge, heq⟩ <;> cases hallocate.symm.trans heq
      exact .inl ⟨rfl, hlarge, hallocate⟩
    · exact .inr ⟨rfl, hlimit⟩

/-- Defining a stranded texture fails, unless it asks for a block too large for any memory. -/
theorem define_cases (hs : c.Stranded slot t p) (hv : c.Valid) (hn : c.Bounded n)
    (hunit : c.units.boundAt? c.units.active = some slot) (format : Format) (width height : Nat) :
    c.Fails (.define format width height) ∨
    (c.perform (.define format width height) = .error .tooLarge ∧
      Extent.limit ≤ Surface.exactSize width height format c.policy.unit ∧
      c.heap.allocate (Surface.exactSize width height format c.policy.unit) c.policy.request =
        .error .tooLarge) ∨
    (c.perform (.define format width height) = .error .overflow ∧ Word.limit ≤ n + 1) := by
  have hinvalid : (width = 0 ∨ height = 0) ∨
      Surface.size? width height format c.policy.unit = .ok none →
      c.Fails (.define format width height) := by
    intro hinvalid
    apply hv.fails
    rw [perform_define, define_of_invalid hinvalid]
    rfl
  by_cases hempty : width = 0 ∨ height = 0
  · exact .inl (hinvalid (.inl hempty))
  obtain ⟨o, hsize⟩ : ∃ o, Surface.size? width height format c.policy.unit = .ok o :=
    Surface.exists_size?_eq_ok hv.unit
  cases o with
  | none => exact .inl (hinvalid (.inr hsize))
  | some size =>
    have hbound : c.bound = .ok (.ok (slot, t)) := bound_iff_boundAt?.mpr ⟨hunit, hs.get?⟩
    have hrenews : Renews c (.define format width height) slot t (t.reshape format width height)
        size := .define (by omega) (by omega) hsize hbound
    rw [← Surface.eq_exactSize hsize]
    exact hs.renews_cases hrenews hv hn

/-- A stranded texture is resolved to the address that it has, if its stamp is old. -/
theorem resolve_cases (hs : c.Stranded slot t p) (hv : c.Valid) (hn : c.Bounded n)
    (hfits : ∀ n, t.size? c.policy.unit = .ok (some n) → n < Extent.limit)
    (hunit : c.units.boundAt? c.units.active = some slot) :
    c.perform .resolve = .ok (.address p, c) ∨ c.Fails .resolve ∨
    (c.perform .resolve = .error .overflow ∧ Word.limit ≤ n + 1) := by
  cases hrecent : c.policy.reclaims t.stamp c.frame with
  | false =>
    have hrests : c.Rests slot t p := ⟨hs.get?, hs.backing, hrecent⟩
    exact .inl (hrests.perform_resolve hunit)
  | true =>
    right
    obtain ⟨size, -, hsize⟩ := hv.owns.size slot t p hs.get? hs.backing
    have hrenews : Renews c .resolve slot t t size :=
      .resolve (bound_iff_boundAt?.mpr ⟨hunit, hs.get?⟩) hs.backing hrecent hsize
    rcases hs.renews_cases hrenews hv hn with hfails | ⟨-, hlarge, -⟩ | hoverflow
    · exact .inl hfails
    · exact absurd (hfits size hsize) (Nat.not_lt.mpr hlarge)
    · exact .inr hoverflow

end Stranded

/-- **A texture whose block was given back behind its back is stuck, and harmless.** After any run, let a
texture own an address where no block in use begins. Let there be any further calls, to the heap behind the
back of the textures too, that never make more textures than there are indices. Then

* no block in use begins at that address;
* the texture exists, owns the address, and the device knows it; but for its stamp, it is as it was;
* deleting it fails and changes nothing;
* while it is bound to the active unit, defining it fails, and changes nothing but the cursor of the heap
  and the tally, unless it is to have a block for which the heap has room, and which is too large for any
  memory;
* while it is bound to the active unit, resolving it answers with the same address and changes nothing, or
  fails, and changes nothing but the cursor of the heap and the tally.

Only the number of calls sets this an end: a count that would not be a word halts the program, and before
that come as many calls as there are words, less one. -/
theorem stranded_for_good (hstart : ofSettings s (.ofBudgets budgets) = .ok (.ok c₀))
    (hrun : Run c₀ past c) (hget : c.arena.get? slot = some t) (hp : t.backing = some p)
    (hdead : c.heap.block? p = none) (hlater : Run c later c')
    (hcount : ∀ step ∈ later, step.after.arena.count ≤ Slot.limit) :
    c'.heap.block? p = none ∧
    (t.handle.data = some p ∧ ∃ stamp, c'.arena.get? slot = some { t with stamp }) ∧
    c'.perform (.delete slot) = .ok (.failed (.memory (.notLive p)), c') ∧
    (c'.units.boundAt? c'.units.active = some slot →
      (∀ format width height,
        c'.Fails (.define format width height) ∨
        (c'.perform (.define format width height) = .error .tooLarge ∧
          Extent.limit ≤ Surface.exactSize width height format c'.policy.unit ∧
          c'.heap.allocate (Surface.exactSize width height format c'.policy.unit)
            c'.policy.request = .error .tooLarge) ∨
        (c'.perform (.define format width height) = .error .overflow ∧
          Word.limit ≤ (later ++ past).length + 1)) ∧
      (c'.perform .resolve = .ok (.address p, c') ∨ c'.Fails .resolve ∨
        (c'.perform .resolve = .error .overflow ∧ Word.limit ≤ (later ++ past).length + 1))) := by
  have hv : c.Valid := hrun.valid (valid_of_ofSettings hstart)
  have hv' : c'.Valid := hlater.valid hv
  have hrun' : Run c₀ (later ++ past) c' := hrun.trans hlater
  have hn : c'.Bounded (later ++ past).length := hrun'.bounded hstart
  have hs : c.Stranded slot t p := ⟨hget, hp, hdead⟩
  obtain ⟨stamp, hs'⟩ := hlater.stranded hv hs hcount
  refine ⟨hs'.dead, ⟨(hv.owns.data_eq slot t hget).trans hp, stamp, hs'.get?⟩, hs'.perform_delete,
    fun hunit => ⟨hs'.define_cases hv' hn hunit, hs'.resolve_cases hv' hn ?_ hunit⟩⟩
  exact fun n => hrun'.size_lt hstart slot _ p n hs'.get? hs'.backing

/-- The block of a texture is given back, and then others get a block, the texture is sampled, resolving
and defining it fail, and the frame ends. -/
theorem stranded_for_good_after_resolve : ∃ c₀ past c t later c',
    ofSettings .standard (.ofBudgets .standard) = .ok (.ok c₀) ∧ Run c₀ past c ∧
    c.arena.get? ⟨0, 0⟩ = some t ∧ t.backing = some Heap.base ∧ c.heap.block? Heap.base = none ∧
    Run c later c' ∧ (∀ step ∈ later, step.after.arena.count ≤ Slot.limit) ∧ later.length = 5 ∧
    c'.units.boundAt? c'.units.active = some ⟨0, 0⟩ ∧ c'.heap.block? Heap.base = none ∧
    c'.perform (.delete ⟨0, 0⟩) = .ok (.failed (.memory (.notLive Heap.base)), c') ∧
    c'.Fails (.define .luminance8 1 1) := by
  have hstart : ofSettings .standard (.ofBudgets .standard) =
      .ok (.ok (Context.start .standard (.ofBudgets .standard))) := by rfl
  obtain ⟨past, c, hrun, htest⟩ := Trace.exists_of_reaches perform
    [.generate, .bind ⟨0, 0⟩, .define .abgr8888 4 1, .heap (.free Heap.base)]
    (show Trace.reaches perform (Context.start .standard (.ofBudgets .standard)) _ (fun past c =>
      (c.arena.get? ⟨0, 0⟩).any (·.backing = some Heap.base) && c.heap.block? Heap.base = none &&
        past.length = 4 && Trace.reaches perform c [.heap (.allocate 32 .main), .sample, .resolve,
          .define .abgr8888 4 1, .endFrame] fun later c' =>
            later.all (·.after.arena.count ≤ Slot.limit) && later.length = 5 &&
            c'.units.boundAt? c'.units.active = some ⟨0, 0⟩ &&
            Surface.exactSize 1 1 .luminance8 c'.policy.unit = 8) = true by decide +kernel)
  simp only [Bool.and_eq_true, decide_eq_true_eq, Option.any_eq_true] at htest
  obtain ⟨⟨⟨⟨t, hget, hp⟩, hdead⟩, hlength⟩, hreaches⟩ := htest
  obtain ⟨later, c', hlater, htest'⟩ := Trace.exists_of_reaches perform _ hreaches
  simp only [Bool.and_eq_true, decide_eq_true_eq, List.all_eq_true] at htest'
  obtain ⟨⟨⟨hcount, hlength'⟩, hunit⟩, hsize⟩ := htest'
  obtain ⟨hdead', -, hdelete, hbound⟩ := stranded_for_good hstart hrun hget hp hdead hlater hcount
  refine ⟨_, past, c, t, later, c', hstart, hrun, hget, hp, hdead, hlater, hcount, hlength', hunit,
    hdead', hdelete, ?_⟩
  rcases (hbound hunit).1 .luminance8 1 1 with hfails | ⟨-, hlarge, -⟩ | ⟨-, hlimit⟩
  · exact hfails
  · rw [hsize] at hlarge
    exact absurd hlarge (by decide)
  · rw [List.length_append, hlength, hlength'] at hlimit
    exact absurd hlimit (by decide)

/-- Where the heap has room for a block that is too large for any memory, defining a stranded texture does
not fail but halt the program. -/
theorem stranded_for_good_ne : ¬∀ s budgets c₀ past c slot t p later c',
    ofSettings s (.ofBudgets budgets) = .ok (.ok c₀) → Run c₀ past c →
    c.arena.get? slot = some t → t.backing = some p → c.heap.block? p = none → Run c later c' →
    (∀ step ∈ later, step.after.arena.count ≤ Slot.limit) →
    c'.units.boundAt? c'.units.active = some slot →
    ∀ format width height, ∃ cause c'',
      c'.perform (.define format width height) = .ok (.failed cause, c'') := by
  intro hall
  have hstart : ofSettings .standard .unbounded = .ok (.ok (start .standard .unbounded)) := by rfl
  obtain ⟨past, c, hrun, htest⟩ := Trace.exists_of_reaches perform
    [.generate, .bind ⟨0, 0⟩, .define .abgr8888 4 1, .heap (.free Heap.base)]
    (show Trace.reaches perform (start .standard .unbounded) _ (fun _ c =>
      (c.arena.get? ⟨0, 0⟩).any (·.backing = some Heap.base) && c.heap.block? Heap.base = none &&
        c.units.boundAt? c.units.active = some ⟨0, 0⟩ &&
        (c.perform (.define .abgr8888 4294967295 536870912)).toOption = none) = true by
      decide +kernel)
  simp only [Bool.and_eq_true, decide_eq_true_eq, Option.any_eq_true] at htest
  obtain ⟨⟨⟨⟨t, hget, hp⟩, hdead⟩, hunit⟩, hhalts⟩ := htest
  obtain ⟨cause, c', heq⟩ := hall _ _ _ past c _ t _ [] c hstart hrun hget hp hdead .start (by simp)
    hunit .abgr8888 4294967295 536870912
  rw [heq] at hhalts
  cases hhalts

end TextureMemory.Context
