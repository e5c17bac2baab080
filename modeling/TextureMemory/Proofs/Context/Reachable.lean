import TextureMemory.Proofs.Context.Accounts
import TextureMemory.Proofs.Context.Stranded

/-!
# Contexts that runs lead to

What holds along every run holds of every context that a run leads to (`Context.Reachable`), and it goes
on to hold after each further call. So of a program that makes calls one after the other, all that needs
to be shown is that it makes nothing but calls.

Along a run, whatever is done to the heap behind the back of the textures, a block that is still in use
where a texture owns one has the size of its surface (`Context.Sized`). And resolving a texture halts the
program only if the sum of an event is about to leave the range of words (`Context.Halts.crowded`).
-/

namespace TextureMemory

namespace Heap

variable {h h' : Heap} {action : Action} {answer : Answer} {p : Address} {b : Block}

/-- A block that is not new was there before a call, and as large. -/
theorem Effect.block_before (he : Effect h action answer h') (hv : h.Valid)
    (hlt : p.value < h.cursor.value) (hb : h'.block? p = some b) :
    ∃ old, h.block? p = some old ∧ old.size = b.size := by
  rcases he.live_cases (Option.isSome_iff_exists.mpr ⟨b, hb⟩) with ⟨hlive, hkept⟩ | rfl
  · obtain ⟨old, hold⟩ := Option.isSome_iff_exists.mp hlive
    refine ⟨old, hold, ?_⟩
    rw [he.block?_of_live hv hold hkept] at hb
    cases hb
    exact Step.size_overwrite.symm
  · cases he with
    | allocate => exact absurd rfl (Address.ne_of_lt hlt)

end Heap

namespace Context

/-- A run leads to the context, from one that settings set up on a fresh heap. -/
def Reachable (c : Context) : Prop :=
  ∃ s budgets c₀ past, ofSettings s (.ofBudgets budgets) = .ok (.ok c₀) ∧ Run c₀ past c

/-- A block in use where a texture owns one has the size of its surface. -/
def Sized (c : Context) : Prop :=
  ∀ slot t p b, c.arena.get? slot = some t → t.backing = some p → c.heap.block? p = some b →
    t.size? c.policy.unit = .ok (some b.size)

/-- The sum of an event is a word, and will be none after `k` more of it. The bytes that were replaced do not
count: they are bounded by the addresses that are left. -/
def Crowded (c : Context) (k : Nat) : Prop :=
  ∃ e, e ≠ Event.reclaimedBytes ∧ Word.limit ≤ c.count e.name + k

variable {c₀ c c' : Context} {past : List Step} {action : Action} {told : Answer} {slot : Slot}
  {t shape : Texture} {p : Address} {b : Block} {size n k : Nat} {s : Settings} {budgets : Budgets}
  {fault : Fault} {e : Event}

/-! ## One call -/

/-- A block that is not new was there before a call, and as large. -/
theorem Effect.block_before (he : Effect c action told c') (hv : c.Valid)
    (hlt : p.value < c.heap.cursor.value) (hb : c'.heap.block? p = some b) :
    ∃ old, c.heap.block? p = some old ∧ old.size = b.size := by
  cases he with
  | renew hrenews =>
    rw [Heap.block?_extend_discard (hv.lt_cursor hrenews.bound), if_neg (Address.ne_of_lt hlt)] at hb
    split at hb
    · cases hb
    · exact ⟨b, hb, rfl⟩
  | delete =>
    rw [Heap.block?_discard] at hb
    split at hb
    · cases hb
    · exact ⟨b, hb, rfl⟩
  | heap heff => exact heff.block_before hv.heap hlt hb
  | _ => exact ⟨b, hb, rfl⟩

/-- Calls keep the blocks of textures as large as their surfaces. -/
theorem Sized.next (hs : c.Sized) (hv : c.Valid) (he : Effect c action told c') : c'.Sized := by
  -- A texture that was there before has the block that it had.
  have hold : ∀ {slot t p b}, c.arena.get? slot = some t → t.backing = some p →
      c'.heap.block? p = some b → t.size? c.policy.unit = .ok (some b.size) := by
    intro slot t p b hget hp hb
    obtain ⟨old, hblock, heq⟩ := he.block_before hv (hv.owns.lt_cursor slot t p hget hp) hb
    exact heq ▸ hs slot t p old hget hp hblock
  intro slot t p b hget hp hb
  rw [he.policy_eq]
  cases he.origin hget with
  | old hget => exact hold hget hp hb
  | blank ht =>
    rw [ht] at hp
    cases hp
  | @stamped t₀ hbound ht =>
    rw [ht] at hp ⊢
    have hsize : t₀.size? c.policy.unit = _ := hold (bound_eq_ok_iff.mp hbound).2 hp hb
    exact hsize
  | moved hrenews _ ht =>
    rw [ht] at hp ⊢
    cases hp
    cases he with
    | renew hrenews' =>
      obtain ⟨-, -, rfl⟩ := hrenews.unique hrenews'
      rw [Heap.block?_extend_discard (hv.lt_cursor hrenews'.bound), if_pos rfl] at hb
      cases hb
      rw [Block.size, Array.size_replicate]
      exact hrenews.size_eq
    | reuse hbound haddress =>
      exact absurd rfl (Address.ne_of_lt (hv.lt_cursor hbound _ haddress))

/-- Of each event but the replaced bytes, a call adds one at most. -/
theorem Step.adds_le_one {step : Step} (hne : e ≠ .reclaimedBytes) : step.adds e ≤ 1 := by
  cases e with
  | reclaimedBytes => exact absurd rfl hne
  | reclaims | definitions | deletions => exact Bool.toNat_le _
  | allocFailures =>
    -- Where the old block could not be taken back, there was a new one to be had.
    obtain ⟨before, action, answer, after⟩ := step
    simp only [Step.adds, Step.starves, Step.strays]
    split <;> split <;> simp_all

/-- A call tallies no event twice. -/
theorem Effect.count_le (he : Effect c action told c') (hv : c.Valid) (hon : c.tally ≠ .off)
    (hne : e ≠ .reclaimedBytes) : c'.count e.name ≤ c.count e.name + 1 := by
  rw [he.count_eq hv hon]
  exact Nat.add_le_add_left (Step.adds_le_one hne) _

namespace Reachable

theorem of_run (hstart : ofSettings s (.ofBudgets budgets) = .ok (.ok c₀)) (hrun : Run c₀ past c) :
    c.Reachable := ⟨s, budgets, c₀, past, hstart, hrun⟩

/-- A call leads on from what can be reached. -/
theorem next (hc : c.Reachable) (hperform : c.perform action = .ok (told, c')) : c'.Reachable := by
  obtain ⟨s, budgets, c₀, past, hstart, hrun⟩ := hc
  exact of_run hstart (hrun.next hperform)

theorem valid (hc : c.Reachable) : c.Valid := by
  obtain ⟨s, budgets, c₀, past, hstart, hrun⟩ := hc
  exact hrun.valid (valid_of_ofSettings hstart)

theorem coherent (hc : c.Reachable) : c.Coherent := by
  obtain ⟨s, budgets, c₀, past, hstart, hrun⟩ := hc
  exact hrun.coherent hstart

theorem tally_ne_off (hc : c.Reachable) : c.tally ≠ .off := by
  obtain ⟨s, budgets, c₀, past, hstart, hrun⟩ := hc
  exact hrun.tally_ne_off hstart

theorem exists_bounded (hc : c.Reachable) : ∃ n, c.Bounded n := by
  obtain ⟨s, budgets, c₀, past, hstart, hrun⟩ := hc
  exact ⟨_, hrun.bounded hstart⟩

/-- No surface with memory in a context that can be reached is larger than memory can hold. -/
theorem size_lt (hc : c.Reachable) (hget : c.arena.get? slot = some t) (hp : t.backing = some p)
    (hsize : t.size? c.policy.unit = .ok (some n)) : n < Extent.limit := by
  obtain ⟨s, budgets, c₀, past, hstart, hrun⟩ := hc
  exact hrun.size_lt hstart slot t p n hget hp hsize

/-- Blocks are as large as the surfaces of their textures in a context that can be reached. -/
theorem sized (hc : c.Reachable) : c.Sized := by
  obtain ⟨s, budgets, c₀, past, hstart, hrun⟩ := hc
  refine hrun.induct_of_start (P := fun _ c => c.Sized) hstart ?_ fun hv hs he => hs.next hv he
  intro slot t p b hget
  rw [get?_start] at hget
  cases hget

/-- The number of blocks that were replaced is the sum of that event. -/
theorem reclaims_eq_count (hc : c.Reachable) : c.reclaims = c.count Event.reclaims.name := by
  obtain ⟨s, budgets, c₀, past, hstart, hrun⟩ := hc
  rw [hrun.count_eq hstart, hrun.reclaims_eq hstart]
  exact (Word.total_map_toNat Step.replaces past).symm

/-- Resolving a texture halts the program only if the sum of an event is about to leave the range of
words. -/
theorem crowded_of_halts (hc : c.Reachable) (hhalts : Halts c .resolve fault) :
    fault = .overflow ∧ c.Crowded 1 := by
  have hv : c.Valid := hc.valid
  obtain ⟨n, hn⟩ := hc.exists_bounded
  cases hhalts with
  | renew hrenews hlarge =>
    -- A texture that has memory has a surface that memory can hold.
    cases hrenews with
    | resolve hbound hprevious _ hsize =>
      have hlt := hc.size_lt (bound_eq_ok_iff.mp hbound).2 hprevious hsize
      omega
  | event hevent htally =>
    obtain ⟨rfl, hlimit⟩ := Recorder.overflow_of_update hv.tally htally
    exact ⟨rfl, _, hevent, hlimit⟩
  | reclaims hlimit =>
    rw [hc.reclaims_eq_count] at hlimit
    exact ⟨rfl, .reclaims, by decide, hlimit⟩
  | pending _ hgrants hlimit =>
    have hwindow := hn.window_le
    have hlt := hgrants.spent_add_lt hv.heap
    omega
  | bytes _ hgrants honce htally =>
    obtain ⟨-, hlimit⟩ :=
      Recorder.overflow_of_update (Recorder.holds_of_update hv.tally honce) htally
    have hle := (hn.tally.update hv.tally (by decide) honce).bytes_le
    have hlt := hgrants.spent_add_lt hv.heap
    omega

end Reachable

end Context

end TextureMemory
