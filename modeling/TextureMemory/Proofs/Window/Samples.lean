import TextureMemory.Proofs.Window

/-!
# The samples in the table of a window

A window starts empty, and samples are added to it one after the other (`Window.ofSamples`). The place of
the next sample goes round the table with each of them, whether the table still grows or is full, so it is
the number of the samples modulo the room in the table (`Window.Filled`).

Once the table is full, the place of the next sample is that of the oldest one. Read round from there, the
table lists the latest samples in the order in which they came (`Window.latest_shown`).
-/

namespace TextureMemory.Window

variable {α : Type} {w w' : Window α} {past : List α} {sample : α} {count i : Nat}

/-- Adds samples one after the other. -/
def pushAll (w : Window α) (samples : List α) : Except Fault (Window α) := samples.foldlM push w

/-- Sets up a window for samples of `width` bytes each, and adds samples to it. -/
def ofSamples (width capacity : Nat) (samples : List α) : Except Fault (Window α) := do
  (← ofCapacity width capacity).pushAll samples

/-- The place in the table at which the samples begin. -/
def oldest (w : Window α) : Nat := if w.size = w.capacity then w.next else 0

/-- The last `count` samples of a list, or all if there are not as many. -/
def latest (count : Nat) (samples : List α) : List α := samples.drop (samples.length - count)

/-- All samples are among the last `count` ones if there are not more. -/
theorem latest_of_length_le {samples : List α} (h : samples.length ≤ count) :
    latest count samples = samples := by
  rw [latest, Nat.sub_eq_zero_of_le h, List.drop_zero]

/-- The last sample is among the last `count` ones. -/
theorem latest_ne_nil {samples : List α} (hcount : 0 < count) (h : samples ≠ []) :
    latest count samples ≠ [] := by
  have hpos : 0 < samples.length := List.length_pos_iff.mpr h
  apply List.length_pos_iff.mp
  rw [latest, List.length_drop]
  omega

/-- The window has room for `count` samples, and those in `past` were added to it, the first one first. -/
structure Filled (w : Window α) (count : Nat) (past : List α) : Prop where
  tracks : w.Tracks past.reverse
  capacity_eq : w.capacity = count
  next_eq : w.next = past.length % count

/-- Without samples the next one goes to the first place. -/
theorem empty_filled (capacity : Nat) :
    (empty capacity : Window α).Filled (max capacity 1) [] where
  tracks := empty_tracks capacity
  capacity_eq := rfl
  next_eq := (Nat.zero_mod _).symm

/-- One more sample moves the place of the next one by one. -/
theorem Filled.push (hf : w.Filled count past) (h : w.push sample = .ok w') :
    w'.Filled count (past ++ [sample]) where
  tracks := List.reverse_concat ▸ hf.tracks.push h
  capacity_eq := (push_cases h).1.trans hf.capacity_eq
  next_eq := by
    rw [(push_cases h).2.1, hf.next_eq, hf.capacity_eq, Nat.mod_add_mod, List.length_append,
      List.length_singleton]

/-- Samples can always be added. -/
theorem Filled.pushAll (hf : w.Filled count past) (samples : List α) :
    ∃ w', w.pushAll samples = .ok w' ∧ w'.Filled count (past ++ samples) := by
  induction samples generalizing w past with
  | nil => exact ⟨w, rfl, (List.append_nil past).symm ▸ hf⟩
  | cons sample rest ih =>
    obtain ⟨w₁, h₁⟩ := hf.tracks.valid.exists_push_eq_ok sample
    obtain ⟨w', h', hf'⟩ := ih (hf.push h₁)
    refine ⟨w', ?_, List.append_cons past sample rest ▸ hf'⟩
    rw [Window.pushAll, List.foldlM_cons, h₁]
    exact h'

/-- There are as many samples as were added, up to the room for them. -/
theorem Filled.size_eq (hf : w.Filled count past) : w.size = min past.length count := by
  rw [hf.tracks.size_eq, hf.capacity_eq, List.length_reverse, Nat.min_comm]

/-- The window shows the latest samples, in the order in which they came. -/
theorem Filled.toList_eq (hf : w.Filled count past) : w.toList = latest count past := by
  rw [hf.tracks.toList_eq, hf.capacity_eq, List.reverse_take, List.reverse_reverse,
    List.length_reverse, latest]

/-- The samples lie in the table round from the place of the oldest one. -/
theorem Valid.getElem?_toList (hv : w.Valid) (hi : i < w.size) :
    w.toList[i]? = w.samples[(w.oldest + i) % w.size]? := by
  have hsize := hv.size_le
  have hnext := hv.next_lt
  rw [← Array.getElem?_toList]
  by_cases hfull : w.size = w.capacity
  · have hlen : (w.samples.toList.drop w.next).length = w.size - w.next := List.length_drop
    rw [toList_of_le (Nat.le_of_eq hfull.symm), oldest, if_pos hfull, List.getElem?_append, hlen]
    by_cases hwrap : w.next + i < w.size
    · rw [if_pos (by omega), List.getElem?_drop, Nat.mod_eq_of_lt hwrap]
    · -- Behind the end of the table, the samples go on at its start.
      have hround : (w.next + i) % w.size = i - (w.size - w.next) := by
        rw [Nat.mod_eq_sub_mod (Nat.le_of_not_lt hwrap), Nat.mod_eq_of_lt (by omega)]
        omega
      rw [if_neg (by omega), List.getElem?_take_of_lt (by omega), hround]
  · rw [toList_of_lt (by omega), oldest, if_neg hfull, Nat.zero_add, Nat.mod_eq_of_lt hi]

/-- The next sample goes to the end of the table, or to the place of the oldest one if it is full. -/
theorem Valid.exists_push_samples (hv : w.Valid) (sample : α) : ∃ w', w.push sample = .ok w' ∧
    w'.samples = if w.size = w.capacity then w.samples.setIfInBounds w.oldest sample
      else w.samples.push sample := by
  obtain ⟨w', h⟩ := hv.exists_push_eq_ok sample
  refine ⟨w', h, ?_⟩
  have hsize := hv.size_le
  rcases push_cases h with ⟨-, -, ⟨hroom, heq⟩ | ⟨hfull, -, heq⟩⟩
  · rw [if_neg (Nat.ne_of_lt hroom), heq]
  · have hend : w.size = w.capacity := Nat.le_antisymm hsize hfull
    rw [oldest, if_pos hend, if_pos hend, heq]

/-- The mean is not larger than the peak. -/
theorem total_div_le_max {l : List Nat} : Word.total l / l.length ≤ l.max?.getD 0 :=
  Nat.div_le_of_le_mul (Word.total_le fun _ hn => List.le_max?_getD_of_mem hn)

/-- A table that is not too large can be set up, and any samples can be added to it. -/
theorem ofSamples_filled {width capacity : Nat} (h : max capacity 1 * width < Extent.limit)
    (samples : List α) :
    ∃ w, ofSamples width capacity samples = .ok w ∧ w.Filled (max capacity 1) samples := by
  obtain ⟨w, hw, hf⟩ := (empty_filled capacity).pushAll samples
  refine ⟨w, ?_, hf⟩
  rw [ofSamples, ofCapacity, Extent.require_eq_ok_iff.mpr h]
  exact hw

/-- **A window keeps the latest samples, in the order in which they came.** Let a window be set up for
samples of some width in bytes, and let any samples be added to it.

* If the table is too large, setting it up halts the program before there is any sample.
* Otherwise each sample is added. The window has as many samples as it has room for or as were added,
  whichever is less; the place of the next one is their number modulo the room, and the oldest one is there
  if the table is full, and at its start if it is not.
* Read round from the oldest one, the table lists the last of the samples that were added.
* The next sample takes the place of the oldest one if the table is full, and goes to its end if not.
* If the samples are numbers and those kept add up to a word, their mean is rounded down, their peak is the
  largest of them, both are zero if there are none, and the mean is not larger than the peak. -/
theorem latest_shown {width capacity : Nat} :
    (Extent.limit ≤ max capacity 1 * width →
      ∀ samples : List α, ofSamples width capacity samples = .error .tooLarge) ∧
    (max capacity 1 * width < Extent.limit →
      (∀ samples : List α, ∃ w, ofSamples width capacity samples = .ok w ∧
        w.size = min samples.length (max capacity 1) ∧
        w.next = samples.length % max capacity 1 ∧
        w.oldest = (if w.size = max capacity 1 then w.next else 0) ∧
        (∀ i < w.size, w.samples[(w.oldest + i) % w.size]? =
          (latest (max capacity 1) samples)[i]?) ∧
        ∀ sample, ∃ w', w.push sample = .ok w' ∧
          w'.samples = if w.size = max capacity 1 then w.samples.setIfInBounds w.oldest sample
            else w.samples.push sample) ∧
      ∀ samples : List Nat, Word.total (latest (max capacity 1) samples) < Word.limit →
        ∃ w mean, ofSamples width capacity samples = .ok w ∧ w.mean = .ok mean ∧
          mean = Word.total (latest (max capacity 1) samples) /
            (latest (max capacity 1) samples).length ∧
          w.peak = (latest (max capacity 1) samples).max?.getD 0 ∧
          (samples = [] → mean = 0 ∧ w.peak = 0) ∧ mean ≤ w.peak) := by
  refine ⟨fun hlarge samples => ?_, fun hfits => ⟨fun samples => ?_, fun samples htotal => ?_⟩⟩
  · rw [ofSamples, ofCapacity, Extent.require, if_neg (Nat.not_lt.mpr hlarge)]
    rfl
  · obtain ⟨w, hw, hf⟩ := ofSamples_filled hfits samples
    have hv : w.Valid := hf.tracks.valid
    refine ⟨w, hw, hf.size_eq, hf.next_eq, hf.capacity_eq ▸ rfl, fun i hi => ?_, ?_⟩
    · rw [← hv.getElem?_toList hi, hf.toList_eq]
    · exact hf.capacity_eq ▸ hv.exists_push_samples
  · obtain ⟨w, hw, hf⟩ := ofSamples_filled hfits samples
    have hlist : w.toList = latest (max capacity 1) samples := hf.toList_eq
    have hsum : w.total < Word.limit := by
      rwa [total, ← Word.total_perm toList_perm, hlist]
    have hpeak : w.peak = (latest (max capacity 1) samples).max?.getD 0 := hlist ▸ peak_eq
    refine ⟨w, _, hw, hlist ▸ mean_eq hsum, rfl, hpeak, ?_, hpeak ▸ total_div_le_max⟩
    rintro rfl
    have hnil : latest (max capacity 1) ([] : List Nat) = [] := List.drop_nil
    rw [hpeak, hnil]
    exact ⟨Nat.zero_div _, rfl⟩

/-- Three of four samples are kept in a table of 24 bytes, the last one in the place of the first. -/
theorem latest_shown_after_four : max 3 1 * 8 < Extent.limit ∧
    Word.total (latest (max 3 1) [10, 20, 30, 40]) < Word.limit ∧
    (∃ w : Window Nat, ofSamples 8 3 [10, 20, 30, 40] = .ok w ∧ w.size = 3 ∧ w.oldest = 1 ∧
      w.samples[(w.oldest + 2) % w.size]? = some 40) ∧
    ∃ w, ofSamples 8 3 [10, 20, 30, 40] = .ok w ∧ w.mean = .ok 30 ∧ w.peak = 40 := by
  have hfits : max 3 1 * 8 < Extent.limit := by decide
  have htotal : Word.total (latest (max 3 1) [10, 20, 30, 40]) < Word.limit := by decide
  obtain ⟨hkept, hmean⟩ := latest_shown.2 hfits
  refine ⟨hfits, htotal, ?_, ?_⟩
  · obtain ⟨w, hw, hsize, hnext, holdest, hread, -⟩ := hkept [10, 20, 30, 40]
    have hsize : w.size = 3 := hsize
    have hone : w.oldest = 1 := by
      rw [holdest, hsize, hnext]
      rfl
    exact ⟨w, hw, hsize, hone, hread 2 (by omega)⟩
  · obtain ⟨w, mean, hw, heq, rfl, hpeak, -⟩ := hmean _ htotal
    exact ⟨w, hw, heq, hpeak⟩

/-- A table for 2 ^ 60 numbers of eight bytes is too large, so not even one of them is kept. -/
theorem latest_shown_ne : ¬∀ capacity (samples : List Nat), capacity < Word.limit →
    ∃ w, ofSamples 8 capacity samples = .ok w ∧
      w.size = min samples.length (max capacity 1) := by
  intro hall
  obtain ⟨w, hw, -⟩ := hall (Nat.pow 2 60) [7] (by decide)
  cases hw

end TextureMemory.Window
