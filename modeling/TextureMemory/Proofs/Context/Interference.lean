import TextureMemory.Proofs.Context.History
import TextureMemory.Proofs.Heap.Run

/-!
# Textures and others on one heap

Others than the textures may ask the heap for blocks, and may give back any block, those of the
textures too. So there are blocks that textures own, blocks that others hold, and addresses that
textures still own although nothing begins there any more.

The cursor keeps them apart. All addresses that were ever answered with lie below it, and the next one
is the cursor itself; so an address that was given to others is `Foreign` ever after, and a dead
address that a texture owns never comes to life for someone else.
-/

namespace TextureMemory.Context

namespace Step

/-- The address of the memory that a call answered with, whoever made it. -/
def address? (step : Step) : Option Address :=
  match step.answer with
  | .address p | .heap (.allocated p) => some p
  | _ => none

/-- The call on the heap that someone made behind the back of the textures. -/
def heapCall? (step : Step) : Option Heap.Step :=
  match step.action, step.answer with
  | .heap action, .heap answer => some ⟨step.before.heap, action, answer, step.after.heap⟩
  | _, _ => none

end Step

/-- The calls on the heap that were made behind the back of the textures, the latest first. -/
def heapCalls (past : List Step) : List Heap.Step := past.filterMap Step.heapCall?

/-- The heap gave someone the block at an address in the call `step`, and in none of the `later` calls
was it given back. -/
structure Holds (past : List Step) (p : Address) (step : Step) (later : List Step) : Prop where
  split : ∃ earlier, past = later ++ step :: earlier
  answer : step.answer = .heap (.allocated p)
  kept : ∀ other ∈ later, other.action ≠ .heap (.free p)

/-- Some texture owns an address, be a block in use there or not. -/
def Owned (c : Context) (p : Address) : Prop :=
  ∃ slot t, c.arena.get? slot = some t ∧ t.backing = some p

/-- An address that was handed out, and that no texture owns. -/
structure Foreign (c : Context) (p : Address) : Prop where
  lt_cursor : p.value < c.heap.cursor.value
  not_owned : ¬c.Owned p

variable {c₀ c c' : Context} {past : List Step} {step : Step} {later : List Step} {action : Action}
  {told : Answer} {p : Address} {b : Block} {bytes : Buffer} {slot : Slot} {t shape : Texture}
  {size : Nat} {cause : TextureError} {s : Settings} {budgets : Budgets}

/-! ## Calls on the heap -/

/-- A call on the heap gives no texture a block. -/
theorem Renews.ne_heap (hr : Renews c action slot t shape size) (call : Heap.Action) :
    action ≠ .heap call := by
  cases hr <;> exact nofun

/-- A call on the heap is not refused as one about textures. -/
theorem Rejects.ne_heap (hr : Rejects c action cause) (call : Heap.Action) :
    action ≠ .heap call := by
  cases hr <;> exact nofun

/-- Calls on textures are none on the heap. -/
theorem heapCalls_of_ne_heap (h : ∀ call, step.action ≠ .heap call) : heapCalls [step] = [] := by
  have hcall : step.heapCall? = none := by
    unfold Step.heapCall?
    split
    · next haction _ => exact absurd haction (h _)
    · rfl
  rw [heapCalls, List.filterMap_cons_none hcall, List.filterMap_nil]

/-- The calls on the heap are read off one step after the other. -/
theorem heapCalls_cons : heapCalls (step :: past) = heapCalls [step] ++ heapCalls past :=
  List.filterMap_append (l := [step])

theorem Holds.next (h : Holds past p step later) {other : Step}
    (hkept : other.action ≠ .heap (.free p)) : Holds (other :: past) p step (other :: later) where
  split := by
    obtain ⟨earlier, rfl⟩ := h.split
    exact ⟨earlier, rfl⟩
  answer := h.answer
  kept := List.forall_mem_cons.mpr ⟨hkept, h.kept⟩

/-! ## One call -/

/-- A new block begins at the cursor, whoever it is for. -/
theorem Effect.address_eq (he : Effect c action told c')
    (h : Step.address? ⟨c, action, told, c'⟩ = some p)
    (hnew : action = .resolve → Step.replaces ⟨c, action, told, c'⟩ = true) :
    p = c.heap.cursor := by
  cases he with
  | renew =>
    cases h
    rfl
  | reuse hbound haddress _ =>
    cases h
    rw [replaces_eq_false ((ownAddress?_of_bound hbound).trans haddress)] at hnew
    cases hnew rfl
  | heap heff =>
    cases heff with
    | allocate =>
      cases h
      rfl
    | _ => cases h
  | _ => cases h

/-- The cursor is above all that a call answers with. -/
theorem Effect.address_lt (he : Effect c action told c') (hv : c.Valid)
    (h : Step.address? ⟨c, action, told, c'⟩ = some p) :
    p.value < c'.heap.cursor.value := by
  cases he with
  | renew _ hgrants =>
    cases h
    have hge := hgrants.cursor_ge
    have hpos := hgrants.size_pos
    rw [Heap.discard_cursor, Heap.extend_cursor]
    omega
  | reuse hbound haddress _ =>
    cases h
    exact hv.lt_cursor hbound p haddress
  | heap heff =>
    cases heff with
    | allocate hgrants =>
      cases h
      have hge := hgrants.cursor_ge
      have hpos := hgrants.size_pos
      rw [Heap.extend_cursor]
      omega
    | _ => cases h
  | _ => cases h

/-- No texture comes by an address that others were given. -/
theorem Effect.foreign (he : Effect c action told c') (hf : c.Foreign p) : c'.Foreign p where
  lt_cursor := Nat.lt_of_lt_of_le hf.lt_cursor he.cursor_le
  not_owned := by
    rintro ⟨slot, t, hslot, hp⟩
    cases he.origin hslot with
    | old hold => exact hf.not_owned ⟨slot, t, hold, hp⟩
    | blank ht =>
      rw [ht] at hp
      cases hp
    | moved _ _ ht =>
      rw [ht] at hp
      cases hp
      exact Nat.lt_irrefl _ hf.lt_cursor
    | stamped hbound ht =>
      rw [ht] at hp
      exact hf.not_owned ⟨slot, _, (bound_eq_ok_iff.mp hbound).2, hp⟩

/-- A block that no texture owns stays in use until someone gives it back. Its bytes change when
someone writes to it. -/
theorem Effect.block?_of_foreign (he : Effect c action told c') (hv : c.Valid) (hf : c.Foreign p)
    (hb : c.heap.block? p = some b) (hkept : action ≠ .heap (.free p)) :
    c'.heap.block? p =
      some { b with bytes := Heap.overwritten (heapCalls [⟨c, action, told, c'⟩]) p b.bytes } := by
  have hother : ∀ {slot t}, c.arena.get? slot = some t → t.backing ≠ some p := fun hslot hp =>
    hf.not_owned ⟨_, _, hslot, hp⟩
  have hcursor : p ≠ c.heap.cursor := Address.ne_of_lt hf.lt_cursor
  cases he with
  | renew hrenews =>
    rw [Heap.block?_extend_discard (hv.lt_cursor hrenews.bound), if_neg hcursor,
      if_neg (hother hrenews.get?), heapCalls_of_ne_heap hrenews.ne_heap]
    exact hb
  | delete hslot =>
    rw [Heap.block?_discard, if_neg fun hand => hother hslot hand.1]
    exact hb
  | heap heff =>
    rw [heff.block?_of_live hv.heap hb fun hfree => hkept (congrArg _ hfree)]
    cases heff <;> rfl
  | reject hrejects =>
    rw [heapCalls_of_ne_heap hrejects.ne_heap]
    exact hb
  | exhaust hrenews | stray hrenews =>
    rw [heapCalls_of_ne_heap hrenews.ne_heap]
    exact hb
  | _ => exact hb

/-- A texture gives an address up only together with the block there, if an index is left for each
new texture. -/
theorem Effect.owned (he : Effect c action told c') (hv : c.Valid) (ho : c.Owned p)
    (hlive : (c'.heap.block? p).isSome)
    (hspare : action = .generate → c.arena.count < Slot.limit) : c'.Owned p := by
  obtain ⟨slot, t, hslot, hp⟩ := ho
  cases he.fate hv hslot hspare with
  | kept hget => exact ⟨slot, t, hget, hp⟩
  | stamped _ hget => exact ⟨slot, _, hget, hp⟩
  | moved _ _ hgone | deleted _ hgone =>
    rw [hgone p hp] at hlive
    cases hlive

/-- A block that is in use after a call was in use before and was not given back, or a texture owns
it, or the call handed it out. -/
theorem Effect.block_cases (he : Effect c action told c') (hv : c.Valid)
    (hlive : (c'.heap.block? p).isSome) :
    (c.heap.block? p).isSome ∧ action ≠ .heap (.free p) ∨ c'.Owned p ∨
      told = .heap (.allocated p) := by
  cases he with
  | @renew _ slot _ shape _ _ _ _ _ _ hrenews =>
    rw [Heap.block?_extend_discard (hv.lt_cursor hrenews.bound)] at hlive
    split at hlive
    · next hcursor =>
      refine .inr (.inl ⟨slot, shape.moveTo c.heap.cursor, ?_, congrArg some hcursor.symm⟩)
      rw [(Arena.update_set hrenews.get?).get?, if_pos rfl]
    · split at hlive
      · cases hlive
      · exact .inl ⟨hlive, hrenews.ne_heap _⟩
  | delete =>
    rw [Heap.block?_discard] at hlive
    split at hlive
    · cases hlive
    · exact .inl ⟨hlive, nofun⟩
  | heap heff =>
    rcases heff.live_cases hlive with ⟨hbefore, hkept⟩ | rfl
    · refine .inl ⟨hbefore, ?_⟩
      rintro ⟨⟩
      exact hkept rfl
    · exact .inr (.inr rfl)
  | reject hrejects => exact .inl ⟨hlive, hrejects.ne_heap _⟩
  | exhaust hrenews | stray hrenews => exact .inl ⟨hlive, hrenews.ne_heap _⟩
  | _ => exact .inl ⟨hlive, nofun⟩

/-! ## Along a run -/

/-- All addresses that were answered with lie below the cursor. -/
theorem Run.address_lt (hrun : Run c₀ past c) (hv : c₀.Valid) :
    ∀ step ∈ past, step.address? = some p → p.value < c.heap.cursor.value := by
  refine hrun.induct
    (P := fun past c => ∀ step ∈ past, step.address? = some p → p.value < c.heap.cursor.value)
    hv (by simp) ?_
  intro past c action told c' hv hbelow he step hmem h
  rcases List.mem_cons.mp hmem with rfl | hmem
  · exact he.address_lt hv h
  · exact Nat.lt_of_lt_of_le (hbelow step hmem h) he.cursor_le

/-- An address that no texture owns stays so along a run. -/
theorem Run.foreign (hrun : Run c₀ past c) (hv : c₀.Valid) (hf : c₀.Foreign p) : c.Foreign p :=
  hrun.induct (P := fun _ c => c.Foreign p) hv hf fun _ hf he => he.foreign hf

/-- The block of someone else stays where it is, with what was written to it since. -/
theorem Run.block?_of_foreign (hrun : Run c₀ past c) (hv : c₀.Valid) (hf : c₀.Foreign p)
    (hb : c₀.heap.block? p = some b) (hkept : ∀ step ∈ past, step.action ≠ .heap (.free p)) :
    c.heap.block? p = some { b with bytes := Heap.overwritten (heapCalls past) p b.bytes } := by
  induction hrun with
  | start => exact hb
  | next hrun hperform ih =>
    have hvBefore := Run.valid hrun hv
    have hbefore := ih fun step hmem => hkept step (List.mem_cons_of_mem _ hmem)
    rw [heapCalls_cons, Heap.overwritten_append]
    exact (hvBefore.effect hperform).block?_of_foreign hvBefore (Run.foreign hrun hv hf) hbefore
      (hkept _ List.mem_cons_self)

/-- A block that was handed out begins at the cursor, is full of zeros, and belongs to no texture. -/
theorem Effect.allocated (he : Effect c action (.heap (.allocated p)) c') (hv : c.Valid) :
    c'.Foreign p ∧ ∃ size request pool, action = .heap (.allocate size request) ∧
      pool ∈ request.candidates ∧ c'.heap.block? p = some ⟨p, pool, Array.replicate size 0⟩ := by
  have hlt : p.value < c'.heap.cursor.value := he.address_lt hv rfl
  cases he with
  | heap heff =>
    obtain ⟨size, request, pool, rfl, hpool, hblock⟩ := heff.allocated
    obtain rfl : p = c.heap.cursor := Effect.address_eq (.heap heff) rfl nofun
    refine ⟨⟨hlt, ?_⟩, size, request, pool, rfl, hpool, hblock⟩
    rintro ⟨slot, t, hslot, hp⟩
    exact Nat.lt_irrefl _ (hv.owns.lt_cursor slot t _ hslot hp)

/-- Nothing is lost: a block that is in use is that of a texture, or someone else holds it. -/
theorem Run.owned_or_held (hstart : ofSettings s (.ofBudgets budgets) = .ok (.ok c₀))
    (hrun : Run c₀ past c) (hcount : ∀ step ∈ past, step.after.arena.count ≤ Slot.limit)
    (hlive : (c.heap.block? p).isSome) : c.Owned p ∨ ∃ step later, Holds past p step later := by
  have hvalid := valid_of_ofSettings hstart
  obtain ⟨-, rfl⟩ := eq_start hstart
  induction hrun with
  | start => cases hlive
  | @next past c action told c' hrun hperform ih =>
    have hv := Run.valid hrun hvalid
    have he := hv.effect hperform
    rcases he.block_cases hv hlive with ⟨hbefore, hkept⟩ | howned | rfl
    · rcases ih (fun step hmem => hcount step (List.mem_cons_of_mem _ hmem)) hbefore with
        howned | ⟨step, later, hholds⟩
      · exact .inl (he.owned hv howned hlive (he.spare (hcount _ List.mem_cons_self)))
      · exact .inr ⟨step, _, hholds.next hkept⟩
    · exact .inl howned
    · exact .inr ⟨_, [], ⟨past, rfl⟩, rfl, by simp⟩

/-- **Textures and others do not get into each other's way.** After any run, with any calls to the
heap behind the back of the textures,

* an address that a call handed out, because it defined a texture, gave it a new block, or asked the
  heap, is none that any call before it had answered with;
* no two textures own the same address, and the device knows the address of each;
* the block that someone asked the heap for is in use until it is given back, in the same pool, of the
  same size, and with the bytes that were written to it;
* no texture ever owns the address of such a block;
* if never more textures existed than there are indices, a block in use begins where a texture owns
  it, or someone who asked for it has not given it back. -/
theorem blocks_separated (hstart : ofSettings s (.ofBudgets budgets) = .ok (.ok c₀))
    (hrun : Run c₀ past c) :
    (∀ later step earlier p, past = later ++ step :: earlier → step.address? = some p →
      (step.action = .resolve → step.replaces = true) →
      ∀ other ∈ earlier, other.address? ≠ some p) ∧
    (∀ slot slot' t t' p, c.arena.get? slot = some t → c.arena.get? slot' = some t' →
      t.backing = some p → t'.backing = some p → slot = slot') ∧
    (∀ slot t, c.arena.get? slot = some t → t.handle.data = t.backing) ∧
    (∀ p step later, Holds past p step later →
      ∃ size request pool b, step.action = .heap (.allocate size request) ∧
        pool ∈ request.candidates ∧
        step.after.heap.block? p = some ⟨p, pool, Array.replicate size 0⟩ ∧
        c.heap.block? p = some b ∧ b.pool = pool ∧ b.size = size ∧
        b.bytes = Heap.overwritten (heapCalls later) p (Array.replicate size 0)) ∧
    (∀ step ∈ past, ∀ p, step.answer = .heap (.allocated p) →
      ∀ slot t, c.arena.get? slot = some t → t.backing ≠ some p) ∧
    ((∀ step ∈ past, step.after.arena.count ≤ Slot.limit) → ∀ p, (c.heap.block? p).isSome →
      (∃ slot t, c.arena.get? slot = some t ∧ t.backing = some p) ∨
      ∃ step later, Holds past p step later) := by
  have hv₀ : c₀.Valid := valid_of_ofSettings hstart
  have hv : c.Valid := hrun.valid hv₀
  refine ⟨?_, hv.owns.unique, hv.owns.data_eq, ?_, ?_, ?_⟩
  · rintro later ⟨before, action, told, after⟩ earlier p rfl haddress hnew other hmem hother
    obtain ⟨hearlier, hperform, -⟩ := hrun.split
    have he := (Run.valid hearlier hv₀).effect hperform
    -- What was answered with before lies below the cursor, and the new block begins there.
    have hlt := Run.address_lt hearlier hv₀ other hmem hother
    rw [he.address_eq haddress hnew] at hlt
    exact Nat.lt_irrefl _ hlt
  · rintro p ⟨before, action, told, after⟩ later ⟨⟨earlier, rfl⟩, rfl, hkept⟩
    obtain ⟨hearlier, hperform, hlater⟩ := hrun.split
    have hvBefore := Run.valid hearlier hv₀
    have he : Effect before action (.heap (.allocated p)) after := hvBefore.effect hperform
    obtain ⟨hforeign, size, request, pool, haction, hpool, hblock⟩ := he.allocated hvBefore
    refine ⟨size, request, pool, _, haction, hpool, hblock,
      Run.block?_of_foreign hlater (he.valid hvBefore) hforeign hblock hkept, rfl, ?_, rfl⟩
    rw [Block.size, Heap.size_overwritten, Array.size_replicate]
  · rintro step hmem p hanswer slot t hslot hp
    obtain ⟨later, earlier, rfl⟩ := List.append_of_mem hmem
    obtain ⟨hearlier, hperform, hlater⟩ := hrun.split
    have hvBefore := Run.valid hearlier hv₀
    have he := hvBefore.effect hperform
    rw [hanswer] at he
    have hforeign := Run.foreign hlater (he.valid hvBefore) (he.allocated hvBefore).1
    exact hforeign.not_owned ⟨slot, t, hslot, hp⟩
  · intro hcount p hlive
    exact hrun.owned_or_held hstart hcount hlive

/-- Someone asks for a block, writes to it, and gives back the block of a texture: the texture can
neither be deleted nor resolved any more, and the block is there with what was written. -/
theorem blocks_separated_after_stray_free : ∃ c₀ past c step later b,
    ofSettings .standard (.ofBudgets .standard) = .ok (.ok c₀) ∧ Run c₀ past c ∧
    Holds past Heap.base step later ∧
    (past.take 2).all (·.answer = .failed (.memory (.notLive ⟨0x81000100, by decide⟩))) ∧
    c.heap.block? Heap.base = some b ∧ b.size = 4 ∧ b.bytes = #[0, 7, 9, 0] := by
  have hstart : ofSettings .standard (.ofBudgets .standard) =
      .ok (.ok (Context.start .standard (.ofBudgets .standard))) := by rfl
  obtain ⟨past, c, hrun, htest⟩ := Trace.exists_of_reaches perform
    [.heap (.allocate 4 .main), .generate, .bind ⟨0, 0⟩, .define .abgr8888 4 1, .sample,
      .heap (.write Heap.base 1 [7, 9]), .heap (.free ⟨0x81000100, by decide⟩), .delete ⟨0, 0⟩,
      .resolve]
    (show Trace.reaches perform (Context.start .standard (.ofBudgets .standard)) _ (fun past _ =>
      (past.take 2).all (·.answer = .failed (.memory (.notLive ⟨0x81000100, by decide⟩))) &&
        ((past.take 8).all (·.action ≠ .heap (.free Heap.base)) &&
        (Heap.overwritten (heapCalls (past.take 8)) Heap.base #[0, 0, 0, 0] = #[0, 7, 9, 0] &&
        (past.drop 8).head?.any fun step => step.action = .heap (.allocate 4 .main) &&
          step.answer = .heap (.allocated Heap.base)))) = true by decide +kernel)
  simp only [Bool.and_eq_true, decide_eq_true_eq, Option.any_eq_true] at htest
  obtain ⟨hfailed, hkept, hbytes, step, hhead, haction, hanswer⟩ := htest
  obtain ⟨earlier, hdrop⟩ := List.head?_eq_some_iff.mp hhead
  have hholds : Holds past Heap.base step (past.take 8) := by
    refine ⟨⟨earlier, ?_⟩, hanswer, ?_⟩
    · rw [← hdrop, List.take_append_drop]
    · intro other hmem
      exact of_decide_eq_true (List.all_eq_true.mp hkept other hmem)
  obtain ⟨size, request, pool, b, hcall, -, -, hblock, -, hsize, hwritten⟩ :=
    (blocks_separated hstart hrun).2.2.2.1 _ step _ hholds
  rw [haction] at hcall
  cases hcall
  exact ⟨_, past, c, step, _, b, hstart, hrun, hholds, hfailed, hblock, hsize,
    hwritten.trans hbytes⟩

end TextureMemory.Context
