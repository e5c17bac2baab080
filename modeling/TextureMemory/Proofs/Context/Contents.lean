import TextureMemory.Proofs.Context.Interference
import TextureMemory.Proofs.Heap.Bytes

/-!
# What is found in blocks

Textures reach the heap through its calls alone: an exchange of blocks is a block that is asked for and
one that is given back, and neither writes to a block. So the heap of a context is one that calls on a heap
have led to, and what was written in them is what was written behind the back of the textures
(`Context.Run.exists_heap_run`). What is shown of all such heaps holds of the blocks of textures too.
-/

namespace TextureMemory

namespace Heap

/-- The address, the place and the data of a call that wrote to a block. -/
def Step.write? (step : Step) : Option (Address × Nat × List UInt8) :=
  match step.action, step.answer with
  | .write a offset data, .written _ => some (a, offset, data)
  | _, _ => none

/-- All that was written, the latest first. -/
def writes (past : List Step) : List (Address × Nat × List UInt8) := past.filterMap Step.write?

/-- Calls led from one heap to another that gave and took back blocks, and wrote to none. -/
def Rearranged (h h' : Heap) : Prop := ∃ calls, Run h calls h' ∧ writes calls = []

variable {h h' h'' : Heap} {old : Option Address} {size : Nat} {request : MemoryClass}

/-- What was written later comes before what was written earlier. -/
theorem writes_append {past later : List Step} :
    writes (later ++ past) = writes later ++ writes past :=
  List.filterMap_append

theorem Rearranged.refl (h : Heap) : h.Rearranged h := ⟨[], .start, rfl⟩

/-- One call after the other rearranges the heap as well. -/
theorem Rearranged.trans (hr : h.Rearranged h') (hr' : h'.Rearranged h'') : h.Rearranged h'' := by
  obtain ⟨calls, hrun, hwrites⟩ := hr
  obtain ⟨later, hlater, hnone⟩ := hr'
  refine ⟨later ++ calls, hrun.trans hlater, ?_⟩
  rw [writes_append, hwrites, hnone, List.append_nil]

/-- Asking for a block writes nothing. -/
theorem rearranged_of_allocate {reply : Except HeapError Address}
    (hallocate : h.allocate size request = .ok (reply, h')) : h.Rearranged h' := by
  obtain ⟨answer, hperform⟩ : ∃ answer, h.perform (.allocate size request) = .ok (answer, h') := by
    rw [perform, hallocate]
    cases reply with
    | error cause => exact ⟨.refused cause, rfl⟩
    | ok a => exact ⟨.allocated a, rfl⟩
  exact ⟨_, Trace.start.next hperform, rfl⟩

theorem rearranged_of_free {a : Address} {reply : Except HeapError Unit}
    (hfree : h.free a = .ok (reply, h')) : h.Rearranged h' := by
  obtain ⟨answer, hperform⟩ : ∃ answer, h.perform (.free a) = .ok (answer, h') := by
    rw [perform, hfree]
    cases reply with
    | error cause => exact ⟨.refused cause, rfl⟩
    | ok u => exact ⟨.freed, rfl⟩
  exact ⟨_, Trace.start.next hperform, rfl⟩

theorem rearranged_of_release {reply : Except HeapError Unit}
    (hrelease : h.release old = .ok (reply, h')) : h.Rearranged h' := by
  cases old with
  | none =>
    cases hrelease
    exact .refl h
  | some a => exact rearranged_of_free hrelease

/-- An exchange asks for a block, gives the old one back, and, where that fails, the new one. -/
theorem rearranged_of_exchange {reply : Except ExchangeError Address}
    (hexchange : h.exchange old size request = .ok (reply, h')) : h.Rearranged h' := by
  obtain ⟨⟨acquired, h₁⟩, hallocate, hrest⟩ := Fault.bind_eq_ok_iff.mp hexchange
  have hacquire := rearranged_of_allocate hallocate
  cases acquired with
  | error cause =>
    cases hrest
    exact hacquire
  | ok fresh =>
    obtain ⟨⟨released, h₂⟩, hrelease, hlast⟩ := Fault.bind_eq_ok_iff.mp hrest
    have hboth := hacquire.trans (rearranged_of_release hrelease)
    cases released with
    | ok u =>
      cases hlast
      exact hboth
    | error cause =>
      obtain ⟨⟨_, h₃⟩, hfree, hend⟩ := Fault.bind_eq_ok_iff.mp hlast
      cases hend
      exact hboth.trans (rearranged_of_free hfree)

end Heap

/-- A policy that replaces a block does so by an exchange, and otherwise calls nothing. -/
theorem Policy.rearranged_of_resolve {policy : Policy} {t : Texture} {h h' : Heap} {current : Nat}
    {reply : Except TextureError Resolution}
    (hresolve : policy.resolve t h current = .ok (reply, h')) : h.Rearranged h' := by
  rw [resolve] at hresolve
  split at hresolve
  · next previous _ =>
    split at hresolve
    · cases hresolve
      exact .refl h
    · obtain ⟨cause | size, -, hsized⟩ := Fault.bind_eq_ok_iff.mp hresolve
      · cases hsized
        exact .refl h
      · obtain ⟨⟨cause | fresh, heap⟩, hexchange, heq⟩ := Fault.bind_eq_ok_iff.mp hsized <;> cases heq
        · exact Heap.rearranged_of_exchange hexchange
        · exact Heap.rearranged_of_exchange hexchange
  · cases hresolve
    exact .refl h

namespace Context

variable {c₀ c c' : Context} {past : List Step} {action : Action} {told : Answer} {slot : Slot}
  {p : Address} {s : Settings} {budgets : Budgets}

/-! ## The calls on the heap -/

/-- Tallying does nothing to the heap. -/
theorem heap_of_record {event : Event} {n : Nat} (h : c.record event n = .ok c') :
    c'.heap = c.heap := by
  obtain ⟨tally, -, heq⟩ := Fault.bind_eq_ok_iff.mp h
  cases heq
  rfl

/-- Defining a texture writes nothing. -/
theorem rearranged_of_define {format : Format} {width height : Nat}
    {reply : Except TextureError Address}
    (hdefine : c.define format width height = .ok (reply, c')) : c.heap.Rearranged c'.heap := by
  rw [define] at hdefine
  split at hdefine
  · cases hdefine
    exact .refl c.heap
  obtain ⟨cause | size, -, hsized⟩ := Fault.bind_eq_ok_iff.mp hdefine
  · cases hsized
    exact .refl c.heap
  obtain ⟨cause | ⟨slot, texture⟩, -, hbound⟩ := Fault.bind_eq_ok_iff.mp hsized
  · cases hbound
    exact .refl c.heap
  obtain ⟨⟨exchanged, heap⟩, hexchange, hcounted⟩ := Fault.bind_eq_ok_iff.mp hbound
  have hheap := Heap.rearranged_of_exchange hexchange
  -- What is counted after the exchange leaves its heap.
  rcases exchanged with (cause | cause) | fresh
  · obtain ⟨after, hrecord, heq⟩ := Fault.bind_eq_ok_iff.mp hcounted
    cases heq
    rwa [heap_of_record hrecord]
  · cases hcounted
    exact hheap
  · obtain ⟨after, hrecord, heq⟩ := Fault.bind_eq_ok_iff.mp hcounted
    cases heq
    rwa [heap_of_record hrecord]

theorem rearranged_of_resolve {reply : Except TextureError Address}
    (hresolve : c.resolve = .ok (reply, c')) : c.heap.Rearranged c'.heap := by
  obtain ⟨cause | ⟨slot, texture⟩, -, hbound⟩ := Fault.bind_eq_ok_iff.mp hresolve
  · cases hbound
    exact .refl c.heap
  obtain ⟨⟨resolution, heap⟩, hpolicy, hcounted⟩ := Fault.bind_eq_ok_iff.mp hbound
  have hheap := Policy.rearranged_of_resolve hpolicy
  rcases resolution with cause | (address | ⟨fresh, previous, size⟩)
  · cases cause with
    | memory cause =>
      obtain ⟨after, hrecord, heq⟩ := Fault.bind_eq_ok_iff.mp hcounted
      cases heq
      rwa [heap_of_record hrecord]
    | _ =>
      cases hcounted
      exact hheap
  · cases hcounted
    exact hheap
  · obtain ⟨reclaims, -, hreclaims⟩ := Fault.bind_eq_ok_iff.mp hcounted
    obtain ⟨pending, -, hpending⟩ := Fault.bind_eq_ok_iff.mp hreclaims
    obtain ⟨once, honce, hbytes⟩ := Fault.bind_eq_ok_iff.mp hpending
    obtain ⟨after, hrecord, heq⟩ := Fault.bind_eq_ok_iff.mp hbytes
    cases heq
    rwa [heap_of_record hrecord, heap_of_record honce]

theorem rearranged_of_delete {reply : Except TextureError Unit}
    (hdelete : c.delete slot = .ok (reply, c')) : c.heap.Rearranged c'.heap := by
  rw [delete] at hdelete
  split at hdelete
  · cases hdelete
    exact .refl c.heap
  obtain ⟨⟨released, heap⟩, hrelease, hremoved⟩ := Fault.bind_eq_ok_iff.mp hdelete
  have hheap := Heap.rearranged_of_release hrelease
  cases released with
  | error cause =>
    cases hremoved
    exact hheap
  | ok u =>
    obtain ⟨⟨cause | t, arena⟩, -, hcounted⟩ := Fault.bind_eq_ok_iff.mp hremoved
    · cases hcounted
      exact hheap
    · obtain ⟨after, hrecord, heq⟩ := Fault.bind_eq_ok_iff.mp hcounted
      cases heq
      rwa [heap_of_record hrecord]

/-- Whatever a call on a context does to the heap, calls on the heap do, and they write what it wrote. -/
theorem Valid.exists_heap_run (hv : c.Valid) (hperform : c.perform action = .ok (told, c')) :
    ∃ calls, Heap.Run c.heap calls c'.heap ∧
      Heap.writes calls = Heap.writes (heapCalls [⟨c, action, told, c'⟩]) := by
  cases action with
  | define format width height =>
    obtain ⟨⟨reply, after⟩, hdefine, heq⟩ := Fault.bind_eq_ok_iff.mp hperform
    cases reply <;> cases heq <;> exact rearranged_of_define hdefine
  | resolve =>
    obtain ⟨⟨reply, after⟩, hresolve, heq⟩ := Fault.bind_eq_ok_iff.mp hperform
    cases reply <;> cases heq <;> exact rearranged_of_resolve hresolve
  | delete slot =>
    obtain ⟨⟨reply, after⟩, hdelete, heq⟩ := Fault.bind_eq_ok_iff.mp hperform
    cases reply <;> cases heq <;> exact rearranged_of_delete hdelete
  | heap call =>
    obtain ⟨⟨answer, heap⟩, hcall, heq⟩ := Fault.bind_eq_ok_iff.mp hperform
    cases heq
    exact ⟨_, Trace.start.next hcall, rfl⟩
  | generate | activate | bind | unbind | sample | endFrame =>
    cases hv.effect hperform with
    | renew hrenews | stray hrenews => cases hrenews
    | _ => exact ⟨[], .start, rfl⟩

/-- The heap of a context is one that calls on a heap led to, which wrote what was written to blocks behind
the back of the textures, and nothing else. -/
theorem Run.exists_heap_run (hrun : Run c₀ past c) (hv : c₀.Valid) :
    ∃ calls, Heap.Run c₀.heap calls c.heap ∧ Heap.writes calls = Heap.writes (heapCalls past) := by
  induction hrun with
  | start => exact ⟨[], .start, rfl⟩
  | @next past c action told c' hrun hperform ih =>
    obtain ⟨earlier, hearlier, hwrites⟩ := ih
    obtain ⟨calls, hcalls, hlast⟩ := (Run.valid hrun hv).exists_heap_run hperform
    refine ⟨calls ++ earlier, hearlier.trans hcalls, ?_⟩
    rw [heapCalls_cons, Heap.writes_append, Heap.writes_append, hlast, hwrites]

/-! ## The bytes of new blocks -/

/-- A texture that was defined, or was given another block, has a block of its size, full of zeros. -/
theorem Effect.bytes?_of_new (he : Effect c action (.address p) c') (hv : c.Valid)
    (hnew : action = .resolve → Step.replaces ⟨c, action, .address p, c'⟩ = true) :
    ∃ slot t size, c'.arena.get? slot = some t ∧ t.backing = some p ∧
      t.size? c'.policy.unit = .ok (some size) ∧
      c'.heap.bytes? p = some (Array.replicate size 0) := by
  cases he with
  | @renew _ slot t shape size _ _ _ _ _ hrenews =>
    refine ⟨slot, shape.moveTo c.heap.cursor, size, ?_, rfl, hrenews.size_eq, ?_⟩
    · rw [(Arena.update_set hrenews.get?).get?, if_pos rfl]
    · rw [Heap.bytes?, Heap.block?_extend_discard (hv.lt_cursor hrenews.bound), if_pos rfl]
      rfl
  | reuse hbound haddress =>
    rw [replaces_eq_false ((ownAddress?_of_bound hbound).trans haddress)] at hnew
    cases hnew rfl

/-- **Blocks are private memories.** After any calls on a heap, whether they failed or not,

* there are bytes at an address if and only if a block in use begins there, which is so if and only if
  the block was handed out and was not given back since;
* these bytes are as many as were asked for, and each is the one that was written there last since the
  block was handed out, or zero;
* data can be written wherever a block in use has room for them, and nowhere else;
* a block keeps its bytes in every call that does not give it back and does not write to it, and a call
  that fails changes nothing at all;
* a block that is handed out is full of zeros, at an address where none was handed out before.

The heap of a context is such a heap, and what was written there is what was written behind the back of the
textures. The block that a texture is given when it is defined, or in the place of another, is as large as
the texture and full of zeros, at an address that no call before was answered with. -/
theorem bytes_private {calls : List Heap.Step} {h : Heap}
    (hrun : Heap.Run (.ofBudgets budgets) calls h) :
    (∀ p, h.contains p = (h.bytes? p).isSome ∧
      (h.contains p = true ↔ ∃ step later, Heap.Holds calls p step later)) ∧
    (∀ p step later, Heap.Holds calls p step later →
      ∃ size request bytes, step.action = .allocate size request ∧ h.bytes? p = some bytes ∧
        bytes.size = size ∧
        ∀ place < size, bytes[place]? = some ((Heap.lastByte? later p place).getD 0)) ∧
    (∀ p offset data, (∃ h', h.perform (.write p offset data) = .ok (.written data.length, h')) ↔
      ∃ bytes, h.bytes? p = some bytes ∧ offset + data.length ≤ bytes.size) ∧
    (∀ action told h', h.perform action = .ok (told, h') →
      (∀ p, h.contains p = true → action ≠ .free p →
        (∀ offset data, action ≠ .write p offset data) → h'.bytes? p = h.bytes? p) ∧
      ((∃ cause, told = .refused cause) ∨ (∃ cause, told = .denied cause) → h' = h)) ∧
    (∀ size request p h', h.perform (.allocate size request) = .ok (.allocated p, h') →
      h'.bytes? p = some (Array.replicate size 0) ∧
      ∀ step ∈ calls, step.answer ≠ .allocated p) ∧
    (∀ s c₀ past c, ofSettings s (.ofBudgets budgets) = .ok (.ok c₀) → Run c₀ past c →
      (∃ made, Heap.Run (.ofBudgets budgets) made c.heap ∧ Heap.writes made = Heap.writes (heapCalls past)) ∧
      ∀ action p c', c.perform action = .ok (.address p, c') →
        (action = .resolve → Step.replaces ⟨c, action, .address p, c'⟩ = true) →
        (∃ slot t size, c'.arena.get? slot = some t ∧ t.backing = some p ∧
          t.size? c'.policy.unit = .ok (some size) ∧
          c'.heap.bytes? p = some (Array.replicate size 0)) ∧
        ∀ step ∈ past, step.address? ≠ some p) := by
  have hv₀ : (Heap.ofBudgets budgets).Valid := Heap.ofBudgets_valid budgets
  have hv : h.Valid := Heap.Run.valid hrun hv₀
  refine ⟨?_, ?_, fun _ _ _ => Heap.perform_write_eq_ok_iff, ?_, ?_, ?_⟩
  · intro p
    refine ⟨by rw [Heap.bytes?, Option.isSome_map]; rfl, Heap.Run.exists_holds hrun, ?_⟩
    rintro ⟨step, later, hholds⟩
    obtain ⟨_, _, bytes, -, hbytes, -⟩ := Heap.Run.getElem?_of_holds hrun hv₀ hholds
    rw [Heap.bytes?] at hbytes
    obtain ⟨b, hb, -⟩ := Option.map_eq_some_iff.mp hbytes
    rw [Heap.contains, hb]
    rfl
  · intro p step later hholds
    exact Heap.Run.getElem?_of_holds hrun hv₀ hholds
  · intro action told h' hperform
    have he := hv.effect hperform
    refine ⟨fun p hlive hkept hother => he.bytes?_eq hv hlive hkept hother, ?_⟩
    rintro (⟨cause, rfl⟩ | ⟨cause, rfl⟩) <;> cases he <;> rfl
  · intro size request p h' hperform
    exact Heap.Run.fresh hrun hperform
  · intro s c₀ past c hstart hpast
    have hvStart : c₀.Valid := valid_of_ofSettings hstart
    have hvc : c.Valid := hpast.valid hvStart
    refine ⟨?_, ?_⟩
    · have hheap : c₀.heap = .ofBudgets budgets := by
        obtain ⟨-, rfl⟩ := eq_start hstart
        rfl
      rw [← hheap]
      exact hpast.exists_heap_run hvStart
    · intro action p c' hperform hnew
      have he := hvc.effect hperform
      refine ⟨he.bytes?_of_new hvc hnew, ?_⟩
      intro step hmem haddress
      have hlt := hpast.address_lt hvStart step hmem haddress
      rw [he.address_eq rfl hnew] at hlt
      exact Nat.lt_irrefl _ hlt

/-- A block is given back and another is handed out, and both are written to, which is refused where
there is no room. And a texture is written to and sampled: the block that it is given then is full of
zeros. -/
theorem bytes_private_after_reclaim : ∃ calls h bytes c₀ past c c',
    Heap.Run (.ofBudgets .standard) calls h ∧ h.bytes? Heap.base = none ∧
    h.bytes? ⟨0x81000100, by decide⟩ = some bytes ∧ bytes.size = 4 ∧
    (List.range 4).map (bytes[·]?) = [some 0, some 7, some 5, some 0] ∧
    ofSettings .standard (.ofBudgets .standard) = .ok (.ok c₀) ∧ Run c₀ past c ∧
    c.heap.bytes? Heap.base = some (#[0, 0, 7] ++ Array.replicate 29 0) ∧
    c.perform .resolve = .ok (.address ⟨0x81000100, by decide⟩, c') ∧
    c'.heap.bytes? ⟨0x81000100, by decide⟩ = some (Array.replicate 32 0) := by
  obtain ⟨calls, h, hcalls, htest⟩ := Trace.exists_of_reaches Heap.perform
    [.allocate 4 .main, .write Heap.base 0 [1, 2, 3, 4], .free Heap.base, .allocate 4 .main,
      .write ⟨0x81000100, by decide⟩ 1 [7, 9], .write ⟨0x81000100, by decide⟩ 2 [5],
      .write ⟨0x81000100, by decide⟩ 3 [1, 1], .write Heap.base 0 [8], .allocate 2 .main]
    (show Trace.reaches Heap.perform (.ofBudgets .standard) _ (fun calls h =>
      h.contains Heap.base = false &&
      ((calls.take 5).all (·.action ≠ .free ⟨0x81000100, by decide⟩) &&
      (((List.range 4).map fun place =>
          some ((Heap.lastByte? (calls.take 5) ⟨0x81000100, by decide⟩ place).getD 0)) =
            [some 0, some 7, some 5, some 0] &&
      (calls.drop 5).head?.any fun step => step.action = .allocate 4 .main &&
        step.answer = .allocated ⟨0x81000100, by decide⟩))) = true by decide +kernel)
  simp only [Bool.and_eq_true, decide_eq_true_eq, Option.any_eq_true, List.all_eq_true] at htest
  obtain ⟨hdead, hkept, hlast, step, hhead, haction, hanswer⟩ := htest
  obtain ⟨earlier, hdrop⟩ := List.head?_eq_some_iff.mp hhead
  have hholds : Heap.Holds calls ⟨0x81000100, by decide⟩ step (calls.take 5) :=
    ⟨⟨earlier, by rw [← hdrop, List.take_append_drop]⟩, hanswer, hkept⟩
  have hstart : ofSettings .standard (.ofBudgets .standard) =
      .ok (.ok (Context.start .standard (.ofBudgets .standard))) := by rfl
  obtain ⟨past, c', hrun, hreached⟩ := Trace.exists_of_reaches perform
    [.generate, .bind ⟨0, 0⟩, .define .abgr8888 4 1, .heap (.write Heap.base 2 [7]), .sample, .resolve]
    (show Trace.reaches perform (Context.start .standard (.ofBudgets .standard)) _ (fun past _ =>
      past.head?.any fun step => step.action = .resolve && (Step.replaces step &&
        (step.answer = .address ⟨0x81000100, by decide⟩ &&
        (step.before.heap.bytes? Heap.base = some (#[0, 0, 7] ++ Array.replicate 29 0) &&
        (step.after.heap.bytes? ⟨0x81000100, by decide⟩).map (·.size) = some 32)))) = true by
          decide +kernel)
  simp only [Option.any_eq_true, Bool.and_eq_true, decide_eq_true_eq] at hreached
  obtain ⟨⟨c, action, told, after⟩, hlatest, rfl, hreplaces, rfl, hwritten, hlength⟩ := hreached
  obtain ⟨made, rfl⟩ := List.head?_eq_some_iff.mp hlatest
  obtain ⟨hlive, hbytes, -, -, -, hcontexts⟩ := bytes_private hcalls
  obtain ⟨size, request, bytes, hcall, hfound, hsize, hread⟩ := hbytes _ step _ hholds
  rw [haction] at hcall
  cases hcall
  cases hrun with
  | next hrun hresolve =>
    obtain ⟨-, hnew⟩ := hcontexts _ _ _ c hstart hrun
    obtain ⟨⟨_, _, size, -, -, -, hzeros⟩, -⟩ := hnew .resolve _ _ hresolve fun _ => hreplaces
    rw [hzeros, Option.map_some, Array.size_replicate, Option.some.injEq] at hlength
    subst hlength
    refine ⟨calls, h, bytes, _, made, c, _, hcalls, ?_, hfound, hsize, ?_, hstart, hrun, hwritten,
      hresolve, hzeros⟩
    · rw [← Option.not_isSome_iff_eq_none, ← (hlive _).1, hdead]
      exact Bool.false_ne_true
    · rw [← hlast]
      exact List.map_congr_left fun place hplace => hread place (List.mem_range.mp hplace)

end Context

end TextureMemory
