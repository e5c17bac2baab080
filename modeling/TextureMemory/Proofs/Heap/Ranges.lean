import TextureMemory.Proofs.Heap.Run

/-!
# Where blocks lie

The blocks that a heap ever handed out lie one behind the other, whether they are still in use or not:
each begins at the cursor, and the cursor moves behind it before the next is handed out. Nothing else
moves the cursor, so how far it has moved is the sum of their sizes, rounded up, and no two of them
share a place (`Heap.ranges_apart`).
-/

namespace TextureMemory.Heap

/-- The places that a block was handed out with. -/
structure Range where
  /-- The address of the first place. -/
  address : Address
  /-- The number of places. -/
  size : Nat

namespace Range

/-- The first place behind a range. -/
def stop (r : Range) : Nat := r.address.value + r.size

/-- Whether a place is one of a range. -/
def Covers (r : Range) (n : Nat) : Prop := r.address.value ≤ n ∧ n < r.stop

/-- The number of places, rounded up to the alignment of blocks. -/
def span (r : Range) : Nat := Alignment.down (r.size + (alignment - 1)) alignment

end Range

/-- The range that a call handed out. -/
def Step.range? (step : Step) : Option Range :=
  match step.action, step.answer with
  | .allocate size _, .allocated address => some ⟨address, size⟩
  | _, _ => none

/-- The ranges that were ever handed out, the latest first. -/
def ranges (past : List Step) : List Range := past.filterMap Step.range?

/-- The ranges that were handed out lie in order below the cursor, with nothing but their rounding
between them. -/
structure Laid (past : List Step) (h : Heap) : Prop where
  stop_le : ∀ r ∈ ranges past, r.stop ≤ h.cursor.value
  size_pos : ∀ r ∈ ranges past, 0 < r.size
  aligned : ∀ r ∈ ranges past, alignment ∣ r.address.value ∧ base.value ≤ r.address.value
  ordered : (ranges past).Pairwise fun new old => old.stop ≤ new.address.value
  total_eq : base.value + Word.total ((ranges past).map Range.span) = h.cursor.value

variable {h h' : Heap} {past : List Step} {action : Action} {answer : Answer} {size : Nat}
  {cursor : Address} {budgets : Budgets} {r : Range}

/-! ## One call -/

/-- Rounding up does not fall below the number of places. -/
theorem Range.size_le_span : r.size ≤ r.span := Alignment.le_ceil (by decide)

/-- A call hands out a range at the cursor, which moves on by its span, or it leaves the cursor where
it is. -/
theorem Effect.range_cases (he : Effect h action answer h') :
    (∃ r, Step.range? ⟨h, action, answer, h'⟩ = some r ∧ r.address = h.cursor ∧ 0 < r.size ∧
      h'.cursor.value = h.cursor.value + r.span) ∨
    (Step.range? ⟨h, action, answer, h'⟩ = none ∧ h'.cursor = h.cursor) := by
  cases he with
  | @allocate size _ _ _ hgrants =>
    exact .inl ⟨⟨h.cursor, size⟩, rfl, rfl, hgrants.size_pos, (cursorAfter?_eq_some hgrants.next).1⟩
  | _ => exact .inr ⟨rfl, rfl⟩

/-- One more range begins at the cursor, which moves on by its span. -/
theorem Laid.cons {past' : List Step} (hl : Laid past h) (hv : h.Valid) (haddress : r.address = h.cursor)
    (hpos : 0 < r.size) (hranges : ranges past' = r :: ranges past)
    (hcursor : h'.cursor.value = h.cursor.value + r.span) : Laid past' h' where
  stop_le x hx := by
    rw [hranges] at hx
    rcases List.mem_cons.mp hx with rfl | hx
    · have hspan := x.size_le_span
      rw [Range.stop, haddress]
      omega
    · have hle := hl.stop_le x hx
      omega
  size_pos x hx := by
    rw [hranges] at hx
    rcases List.mem_cons.mp hx with rfl | hx
    · exact hpos
    · exact hl.size_pos x hx
  aligned x hx := by
    rw [hranges] at hx
    rcases List.mem_cons.mp hx with rfl | hx
    · rw [haddress]
      exact ⟨hv.aligned, hv.base_le⟩
    · exact hl.aligned x hx
  ordered := by
    -- The new range begins at the cursor, and all others end below it.
    rw [hranges]
    exact List.pairwise_cons.mpr ⟨fun x hx => haddress ▸ hl.stop_le x hx, hl.ordered⟩
  total_eq := by
    have htotal := hl.total_eq
    rw [hranges, List.map_cons, Word.total_cons]
    omega

/-- A call keeps the ranges in order, whether it hands out one more or not. -/
theorem Laid.next (hl : Laid past h) (hv : h.Valid) (he : Effect h action answer h') :
    Laid (⟨h, action, answer, h'⟩ :: past) h' := by
  rcases he.range_cases with ⟨r, hrange, haddress, hpos, hcursor⟩ | ⟨hrange, hcursor⟩
  · exact hl.cons hv haddress hpos (List.filterMap_cons_some hrange) hcursor
  · have hranges : ranges (⟨h, action, answer, h'⟩ :: past) = ranges past :=
      List.filterMap_cons_none hrange
    refine ⟨?_, ?_, ?_, ?_, ?_⟩ <;> rw [hranges]
    · exact hcursor ▸ hl.stop_le
    · exact hl.size_pos
    · exact hl.aligned
    · exact hl.ordered
    · exact hcursor ▸ hl.total_eq

/-- The check that a new block is aligned passes, and does not overflow: there is room for one more
unit above the cursor, or no block would fit. -/
theorem Valid.requireAligned (hv : h.Valid) (hpos : 0 < size)
    (hnext : h.cursorAfter? size = some cursor) :
    Alignment.requireAligned h.cursor.value alignment = .ok () := by
  have hle := cursor_add_alignment_le hpos hnext
  have hlt := (cursorAfter?_eq_some hnext).2
  exact Alignment.requireAligned_eq_ok ⟨8, rfl⟩ hv.aligned (Nat.lt_of_le_of_lt hle hlt)

/-! ## Along a run -/

/-- The ranges are in order after every run. -/
theorem Run.laid (hrun : Run (ofBudgets budgets) past h) : Laid past h := by
  refine Run.induct hrun (ofBudgets_valid budgets) ?_ fun hv hl he => hl.next hv he
  exact ⟨by simp [ranges], by simp [ranges], by simp [ranges], List.Pairwise.nil, rfl⟩

/-- **No place is handed out twice.** After any calls on a heap, whether they failed or not, the ranges
that were ever handed out

* rise from call to call, and each ends where the next begins or below;
* share no place with each other;
* begin at multiples of the alignment, from the base on, and end below the limit of words;
* take, rounded up to the alignment, as many places as the cursor has moved from the base.

The next range begins at the cursor, behind all of them. The check that it is aligned passes without an
overflow, and asking for a block halts the program only where no memory could hold it. -/
theorem ranges_apart (hrun : Run (ofBudgets budgets) past h) :
    ((ranges past).Pairwise fun new old =>
      old.address.value < new.address.value ∧ old.stop ≤ new.address.value) ∧
    ((ranges past).Pairwise fun new old => ∀ n, ¬(new.Covers n ∧ old.Covers n)) ∧
    (∀ r ∈ ranges past, alignment ∣ r.address.value ∧ base.value ≤ r.address.value ∧
      r.stop ≤ h.cursor.value ∧ r.stop < Word.limit) ∧
    base.value + Word.total ((ranges past).map Range.span) = h.cursor.value ∧
    (∀ size request a h', h.perform (.allocate size request) = .ok (.allocated a, h') →
      a = h.cursor) ∧
    (∀ size cursor, 0 < size → h.cursorAfter? size = some cursor →
      Alignment.requireAligned h.cursor.value alignment = .ok ()) ∧
    (∀ size request fault, h.allocate size request = .error fault →
      fault = .tooLarge ∧ Extent.limit ≤ size) := by
  have hv : h.Valid := Run.valid hrun (ofBudgets_valid budgets)
  have hl : Laid past h := Run.laid hrun
  refine ⟨?_, ?_, ?_, hl.total_eq, ?_, fun size cursor => hv.requireAligned, ?_⟩
  · refine hl.ordered.imp_of_mem ?_
    intro new old _ hold hle
    have hpos := hl.size_pos old hold
    rw [Range.stop] at hle
    exact ⟨by omega, hle⟩
  · refine hl.ordered.imp ?_
    rintro new old hle n ⟨⟨hnew, -⟩, -, hold⟩
    omega
  · intro r hr
    obtain ⟨haligned, hbase⟩ := hl.aligned r hr
    have hstop := hl.stop_le r hr
    exact ⟨haligned, hbase, hstop, Nat.lt_of_le_of_lt hstop hv.cursor_lt⟩
  · intro size request a h' hperform
    cases hv.effect hperform with
    | allocate => rfl
  · intro size request fault hfault
    rcases hv.allocate_cases size request with
      ⟨cause, -, heq⟩ | ⟨pool, cursor, -, heq⟩ | ⟨hsize, heq⟩
    · rw [heq] at hfault
      cases hfault
    · rw [heq] at hfault
      cases hfault
    · rw [heq] at hfault
      cases hfault
      exact ⟨rfl, hsize⟩

/-- Two blocks are handed out, and between them one that is given back and calls that fail: the second
begins behind all three. -/
theorem ranges_apart_after_free : ∃ past h,
    Run (ofBudgets ⟨1024, 0, 0, 0, 0⟩) past h ∧
    (ranges past).map (fun r => (r.address.value, r.size, r.span)) =
      [(0x81000400, 9, 256), (0x81000200, 300, 512), (0x81000000, 257, 512)] ∧
    h.cursor.value = 0x81000500 ∧
    (ranges past).Pairwise fun new old => ∀ n, ¬(new.Covers n ∧ old.Covers n) := by
  obtain ⟨past, h, hrun, htest⟩ := Trace.exists_of_reaches perform
    [.allocate 257 .main, .allocate 300 (.only .vram), .free ⟨0x81000200, by decide⟩,
      .allocate 2000 .main, .free ⟨0x81000200, by decide⟩, .allocate 0 .main, .allocate 9 .main]
    (show Trace.reaches perform (ofBudgets ⟨1024, 0, 0, 0, 0⟩) _ (fun past h =>
      (ranges past).map (fun r => (r.address.value, r.size, r.span)) =
        [(0x81000400, 9, 256), (0x81000200, 300, 512), (0x81000000, 257, 512)] &&
      h.cursor.value = 0x81000500) = true by decide +kernel)
  simp only [Bool.and_eq_true, decide_eq_true_eq] at htest
  exact ⟨past, h, hrun, htest.1, htest.2, (ranges_apart hrun).2.1⟩

end TextureMemory.Heap
