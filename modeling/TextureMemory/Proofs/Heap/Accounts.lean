import TextureMemory.Proofs.Heap.Run

/-!
# What the pools of a heap are charged with

A heap keeps its blocks and what each pool is charged with in two places, and changes them one after the
other. A block is charged to the first pool that had room for it, and it is that pool which gets the
bytes back. So whatever calls were made, each pool is charged with the bytes of its own blocks, and
what is left is what its budget leaves (`Heap.pools_balance`).

The blocks, the budgets and the cursor tell all of a valid heap (`Heap.Valid.ext`). From this follows
that the order in which blocks are given back leaves no trace: what is left are the blocks that were not
given back (`Heap.Valid.play_free`).
-/

namespace TextureMemory.Heap

variable {g h h' : Heap} {past : List Step} {a : Address} {l : List Block} {budgets : Budgets}

/-! ## Pools and blocks -/

/-- Every block is charged to one of the pools. -/
theorem total_charged (l : List Block) :
    Word.total (Pool.all.map (charged l)) = Word.total (l.map Block.size) := by
  induction l with
  | nil => rfl
  | cons b l ih =>
    simp only [Pool.all, List.map_cons, List.map_nil, Word.total_cons, Word.total_nil,
      charged_cons] at ih ⊢
    -- The block counts for its own pool and for no other.
    cases b.pool <;> simp <;> omega

/-- Valid heaps with the same blocks have charged the same to each pool. -/
theorem Valid.used_congr (hg : g.Valid) (hh : h.Valid) (hblocks : g.blocks = h.blocks) :
    g.used = h.used := by
  apply PerPool.ext_get
  intro p
  rw [hg.used_eq, hh.used_eq, hblocks]

/-- Valid heaps with the same budgets, blocks and cursor are the same. -/
theorem Valid.ext (hg : g.Valid) (hh : h.Valid) (hbudgets : g.budgets = h.budgets)
    (hblocks : g.blocks = h.blocks) (hcursor : g.cursor = h.cursor) : g = h := by
  have hused := hg.used_congr hh hblocks
  cases g
  cases h
  simp only [mk.injEq]
  exact ⟨hbudgets, hused, hblocks, hcursor⟩

/-- The bytes in use are those that the pools are charged with, and their sum is a word. -/
theorem Valid.size_eq (hv : h.Valid) :
    h.size = .ok (Word.total (Pool.all.map fun p => h.usedBy (.only p))) := by
  have hused : (Pool.all.map fun p => h.usedBy (.only p)) = Pool.all.map (charged h.blocks) :=
    List.map_congr_left fun p _ => hv.used_eq p
  have hsize := hv.size_le
  have hcursor := hv.cursor_lt
  rw [hused, total_charged]
  exact Word.sum_eq_ok_iff.mpr ⟨rfl, by rw [spent] at hsize; omega⟩

/-- What is left in a pool and what it is charged with make up its budget. -/
theorem Valid.used_add_left (hv : h.Valid) (p : Pool) :
    h.usedBy (.only p) + h.leftIn (.only p) = h.budgets.get p :=
  Nat.add_sub_cancel' (hv.used_le p)

/-- Without blocks in use, a pool has its whole budget. -/
theorem Valid.leftIn_eq (hv : h.Valid) (hnone : h.blocks = []) (p : Pool) :
    h.leftIn (.only p) = h.budgets.get p := by
  have hbalance := hv.used_add_left p
  have hused : h.usedBy (.only p) = 0 := by
    rw [usedBy, hv.used_eq, hnone]
    rfl
  rw [hused, Nat.zero_add] at hbalance
  exact hbalance

/-! ## Giving back -/

/-- Giving back answers, and tells whether a block in use began at the address. Where none did, nothing
changes. -/
theorem Valid.free_cases (hv : h.Valid) (a : Address) :
    (h.contains a = false ∧ h.free a = .ok (.error (.notLive a), h)) ∨
    (h.contains a = true ∧ ∃ h', h.free a = .ok (.ok (), h') ∧ h'.contains a = false) := by
  cases hb : h.block? a with
  | none => exact .inl ⟨by rw [contains, hb]; rfl, free_of_not_live hb⟩
  | some b =>
    obtain ⟨-, haddress⟩ := mem_of_block?_eq_some hb
    refine .inr ⟨by rw [contains, hb]; rfl, _, hv.free_of_live hb, ?_⟩
    rw [contains, block?_without, if_pos haddress.symm]
    rfl

/-- After giving back, whether or not a block in use began at the address, none does. -/
theorem Valid.exists_perform_free (hv : h.Valid) (a : Address) :
    ∃ answer h', h.perform (.free a) = .ok (answer, h') ∧ h'.Valid ∧ h'.budgets = h.budgets ∧
      h'.cursor = h.cursor ∧ h'.blocks = h.blocks.filter (·.address ≠ a) := by
  cases hb : h.block? a with
  | none =>
    refine ⟨.refused (.notLive a), h, ?_, hv, rfl, rfl, ?_⟩
    · rw [perform, free_of_not_live hb]
      rfl
    · symm
      apply List.filter_eq_self.mpr
      intro b hmem
      simpa using block?_eq_none_iff.mp hb b hmem
  | some b =>
    obtain ⟨hmem, rfl⟩ := mem_of_block?_eq_some hb
    refine ⟨.freed, h.without b, ?_, hv.without hmem, rfl, rfl, rfl⟩
    rw [perform, hv.free_of_live hb]
    rfl

/-- Addresses can be given back one after the other, whether or not a block in use begins there. What is
left are the blocks that begin elsewhere. -/
theorem Valid.play_free (hv : h.Valid) (l : List Address) (past : List Step) :
    ∃ later h', Trace.play perform past h (l.map .free) = .ok (later, h') ∧ h'.Valid ∧
      h'.budgets = h.budgets ∧ h'.cursor = h.cursor ∧
      h'.blocks = h.blocks.filter (·.address ∉ l) := by
  induction l generalizing h past with
  | nil => exact ⟨past, h, rfl, hv, rfl, rfl, (List.filter_eq_self.mpr (by simp)).symm⟩
  | cons a l ih =>
    obtain ⟨answer, h₁, hperform, hv₁, hbudgets₁, hcursor₁, hblocks₁⟩ := hv.exists_perform_free a
    obtain ⟨later, h', hplay, hv', hbudgets, hcursor, hblocks⟩ :=
      ih hv₁ (⟨h, .free a, answer, h₁⟩ :: past)
    refine ⟨later, h', ?_, hv', hbudgets.trans hbudgets₁, hcursor.trans hcursor₁, ?_⟩
    · rw [List.map_cons, Trace.play_cons hperform]
      exact hplay
    · rw [hblocks, hblocks₁, List.filter_filter]
      apply List.filter_congr
      intro b _
      simp only [List.mem_cons, not_or, Bool.decide_and]
      exact Bool.and_comm _ _

/-! ## Along a run -/

/-- **Each pool is charged with its blocks.** After any calls on a heap of given budgets,

* a pool is charged with the bytes of the blocks that it serves, and this and what it can still give
  away make up its budget;
* the main class is charged with nothing, and no block is in it;
* the bytes in use are those of the five pools together;
* a block that was handed out and not given back is in use, in the pool of then and with the size that
  was asked for;
* giving back an address fails if no block in use begins there, and then changes nothing, and it
  succeeds if one does;
* giving back all blocks, in whatever order, leaves none, and every pool has its whole budget;
* giving back the same addresses in two orders, or some of them more than once, leaves the same heap. -/
theorem pools_balance (hrun : Run (ofBudgets budgets) past h) :
    (∀ p, h.usedBy (.only p) = Word.total ((h.blocks.filter (·.pool = p)).map Block.size) ∧
      h.usedBy (.only p) + h.leftIn (.only p) = budgets.get p) ∧
    (h.usedBy .main = 0 ∧ ∀ b ∈ h.blocks, MemoryClass.only b.pool ≠ .main) ∧
    h.size = .ok (Word.total (Pool.all.map fun p => h.usedBy (.only p))) ∧
    (∀ later step earlier p, past = later ++ step :: earlier → step.answer = .allocated p →
      (∀ other ∈ later, other.action ≠ .free p) →
      ∃ size request pool b b', step.action = .allocate size request ∧
        pool ∈ request.candidates ∧ step.after.block? p = some b ∧ b.pool = pool ∧ b.size = size ∧
        h.block? p = some b' ∧ b'.pool = pool ∧ b'.size = size) ∧
    (∀ a, (h.contains a = false ∧ h.free a = .ok (.error (.notLive a), h)) ∨
      (h.contains a = true ∧ ∃ h', h.free a = .ok (.ok (), h') ∧ h'.contains a = false)) ∧
    (∀ l : List Address, (∀ b ∈ h.blocks, b.address ∈ l) →
      ∃ later h', Trace.play perform [] h (l.map .free) = .ok (later, h') ∧ h'.count = 0 ∧
        ∀ p, h'.leftIn (.only p) = budgets.get p) ∧
    (∀ l l' : List Address, (∀ a, a ∈ l ↔ a ∈ l') →
      ∃ later later' h', Trace.play perform [] h (l.map .free) = .ok (later, h') ∧
        Trace.play perform [] h (l'.map .free) = .ok (later', h')) := by
  have hv₀ : (ofBudgets budgets).Valid := ofBudgets_valid budgets
  have hv : h.Valid := Run.valid hrun hv₀
  have hbudgets : h.budgets = budgets := Run.budgets_eq hrun hv₀
  refine ⟨fun p => ⟨hv.used_eq p, ?_⟩, ⟨rfl, nofun⟩, hv.size_eq, ?_, hv.free_cases, ?_, ?_⟩
  · rw [← hbudgets]
    exact hv.used_add_left p
  · rintro later ⟨before, action, answer, after⟩ earlier p rfl rfl hkept
    obtain ⟨hearlier, hperform, hlater⟩ := hrun.split
    have hvBefore := Run.valid hearlier hv₀
    have he : Effect before action (.allocated p) after := hvBefore.effect hperform
    obtain ⟨size, request, pool, haction, hpool, hblock⟩ := he.allocated
    have hnow := Run.block?_of_live hlater (he.valid hvBefore) hblock hkept
    refine ⟨size, request, pool, _, _, haction, hpool, hblock, rfl, ?_, hnow, rfl, ?_⟩
    · exact Array.size_replicate
    · rw [Block.size, size_overwritten]
      exact Array.size_replicate
  · intro l hall
    obtain ⟨later, h', hplay, hv', hbudgets', -, hblocks⟩ := hv.play_free l []
    have hnone : h'.blocks = [] := by
      rw [hblocks]
      apply List.filter_eq_nil_iff.mpr
      intro b hb
      simpa using hall b hb
    refine ⟨later, h', hplay, by rw [count, hnone]; rfl, ?_⟩
    intro p
    rw [hv'.leftIn_eq hnone, hbudgets', hbudgets]
  · intro l l' hsame
    obtain ⟨later, h₁, hplay, hv₁, hbudgets₁, hcursor₁, hblocks₁⟩ := hv.play_free l []
    obtain ⟨later', h₂, hplay', hv₂, hbudgets₂, hcursor₂, hblocks₂⟩ := hv.play_free l' []
    have hblocks : h₁.blocks = h₂.blocks := by
      rw [hblocks₁, hblocks₂]
      apply List.filter_congr
      intro b _
      exact decide_eq_decide.mpr (not_congr (hsame b.address))
    have heq : h₁ = h₂ := hv₁.ext hv₂ (hbudgets₁.trans hbudgets₂.symm) hblocks
      (hcursor₁.trans hcursor₂.symm)
    exact ⟨later, later', h₁, hplay, heq ▸ hplay'⟩

/-- The main class spills from video memory into main memory. Giving back both blocks, the later first
and with a stray address between them, leaves every budget whole. -/
theorem pools_balance_after_spill : ∃ past h,
    Run (ofBudgets ⟨8, 16, 0, 0, 0⟩) past h ∧ h.count = 2 ∧
    h.usedBy (.only .vram) = 5 ∧ h.usedBy (.only .ram) = 6 ∧
    ∃ later h', Trace.play perform [] h
        ([⟨0x81000100, by decide⟩, ⟨7, by decide⟩, base].map .free) = .ok (later, h') ∧
      h'.count = 0 ∧ ∀ p, h'.leftIn (.only p) = (⟨8, 16, 0, 0, 0⟩ : Budgets).get p := by
  obtain ⟨past, h, hrun, htest⟩ := Trace.exists_of_reaches perform
    [.allocate 5 .main, .allocate 0 .main, .allocate 6 .main, .allocate 9 (.only .vram),
      .allocate 3 (.only .vram), .free ⟨0x81000200, by decide⟩, .free ⟨7, by decide⟩]
    (show Trace.reaches perform (ofBudgets ⟨8, 16, 0, 0, 0⟩) _ (fun _ h =>
      h.blocks.map (·.address) = [⟨0x81000100, by decide⟩, base] && h.usedBy (.only .vram) = 5 &&
        h.usedBy (.only .ram) = 6) = true by decide +kernel)
  simp only [Bool.and_eq_true, decide_eq_true_eq] at htest
  obtain ⟨⟨hblocks, hvram⟩, hram⟩ := htest
  have hcount : h.count = 2 := by
    rw [count, ← List.length_map (·.address), hblocks]
    rfl
  refine ⟨past, h, hrun, hcount, hvram, hram, (pools_balance hrun).2.2.2.2.2.1 _ ?_⟩
  intro b hb
  have hmem : b.address ∈ h.blocks.map (·.address) := List.mem_map_of_mem hb
  rw [hblocks] at hmem
  simp only [List.mem_cons, List.not_mem_nil, or_false] at hmem ⊢
  rcases hmem with heq | heq
  · exact .inl heq
  · exact .inr (.inr heq)

end TextureMemory.Heap
