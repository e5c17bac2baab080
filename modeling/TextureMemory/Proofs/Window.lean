import TextureMemory.Proofs.Metrics

/-!
# What a window shows

A window is written round and round, and shows the samples in the order in which they came: a new one
goes to the end, and the first one goes away once the window is full. So it shows the latest samples of
all that were ever added, as many as it has room for (`Window.Tracks`).

The mean and the peak are taken of the table as it lies. The table is the list that is shown, put
together in another order, so both are those of the list.
-/

namespace TextureMemory.Window

variable {α : Type} {w w' : Window α} {l : List α} {sample : α}

/-- The window shows the latest of the samples in `l`, which lists the latest one first. As long as it
is not full, the next sample goes to the end of the table. -/
structure Tracks (w : Window α) (l : List α) : Prop where
  valid : w.Valid
  next_eq : w.size < w.capacity → w.next = w.size
  toList_eq : w.toList = (l.take w.capacity).reverse

/-- Without samples there is nothing to show. -/
theorem empty_tracks (capacity : Nat) : (empty capacity : Window α).Tracks [] where
  valid := empty_valid capacity
  next_eq _ := rfl
  toList_eq := by
    have hpos := (empty_valid (α := α) capacity).capacity_pos
    rw [toList, if_pos (show (empty capacity : Window α).size < _ from hpos), List.take_nil]
    rfl

/-! ## One more sample -/

/-- Replacing the element at which a rotated list begins takes it from the front and puts the new one
at the end. -/
theorem drop_append_take_set {i : Nat} (hi : i < l.length) :
    (l.set i sample).drop (i + 1) ++ (l.set i sample).take (i + 1) =
      (l.drop i ++ l.take i).tail ++ [sample] := by
  have hlen : i < (l.set i sample).length := by rwa [List.length_set]
  rw [List.drop_eq_getElem_cons hi, List.cons_append, List.tail_cons, List.append_assoc,
    List.take_succ_eq_append_getElem hlen, List.getElem_set_self,
    List.drop_set_of_lt (Nat.lt_succ_self i), List.take_set_of_le (Nat.le_refl i)]

/-- A window that is not full shows its table. -/
theorem toList_of_lt (h : w.size < w.capacity) : w.toList = w.samples.toList := if_pos h

/-- A full window shows its table from the place of the oldest sample on, round to that place. -/
theorem toList_of_le (h : w.capacity ≤ w.size) :
    w.toList = w.samples.toList.drop w.next ++ w.samples.toList.take w.next :=
  if_neg (Nat.not_lt.mpr h)

/-- While there is room, a sample goes to the end. -/
theorem toList_push_of_lt (h : w.push sample = .ok w') (hroom : w.size < w.capacity)
    (hnext : w.next = w.size) : w'.toList = w.toList ++ [sample] ∧
      (w'.size < w'.capacity → w'.next = w'.size) := by
  obtain ⟨hcapacity, hnext', ⟨-, hsamples⟩ | ⟨hfull, -⟩⟩ := push_cases h
  · have hsize : w'.size = w.size + 1 := by rw [size, hsamples, Array.size_push, ← size]
    rw [toList_of_lt hroom, ← Array.toList_push, ← hsamples]
    by_cases hmore : w'.size < w'.capacity
    · refine ⟨toList_of_lt hmore, fun _ => ?_⟩
      rw [hnext', hnext, hsize, Nat.mod_eq_of_lt (by omega)]
    · -- The table has just become full, and the oldest sample is the first.
      have hzero : w'.next = 0 := by
        rw [hnext', hnext, show w.size + 1 = w.capacity by omega, Nat.mod_self]
      refine ⟨?_, fun hlt => absurd hlt hmore⟩
      rw [toList_of_le (Nat.le_of_not_lt hmore), hzero, List.drop_zero, List.take_zero,
        List.append_nil]
  · omega

/-- A full window loses its first sample for the one that goes to the end. -/
theorem toList_push_of_le (hv : w.Valid) (h : w.push sample = .ok w')
    (hfull : w.capacity ≤ w.size) :
    w'.toList = w.toList.tail ++ [sample] ∧ w'.capacity ≤ w'.size := by
  obtain ⟨hcapacity, hnext', ⟨hroom, -⟩ | ⟨-, hin, hsamples⟩⟩ := push_cases h
  · omega
  · have hsize : w'.size = w.size := by rw [size, hsamples, Array.size_setIfInBounds, ← size]
    have hsizeLe := hv.size_le
    have hstill : w'.capacity ≤ w'.size := by omega
    refine ⟨?_, hstill⟩
    rw [toList_of_le hfull, ← drop_append_take_set hin, ← Array.toList_setIfInBounds, ← hsamples,
      toList_of_le hstill, hnext']
    -- The oldest sample is now the one behind the new one, or the first if the new one is the last.
    by_cases hwrap : w.next + 1 < w.capacity
    · rw [Nat.mod_eq_of_lt hwrap]
    · have hend : w.next + 1 = w.capacity := by
        have := hv.next_lt
        omega
      have hlen : w'.samples.toList.length ≤ w.capacity := by
        rw [Array.length_toList, ← size]
        omega
      rw [hend, Nat.mod_self, List.drop_of_length_le hlen, List.take_of_length_le hlen,
        List.drop_zero, List.take_zero, List.append_nil, List.nil_append]

/-- The window shows as many samples as it has. -/
theorem Valid.length_toList (hv : w.Valid) : w.toList.length = w.size := by
  by_cases hfull : w.size < w.capacity
  · rw [toList_of_lt hfull]
    rfl
  · have hle := hv.size_le
    have hlt := hv.next_lt
    rw [toList_of_le (Nat.le_of_not_lt hfull), List.length_append, List.length_drop,
      List.length_take, Array.length_toList, ← size]
    omega

/-- There are as many samples as were added, up to the capacity. -/
theorem Tracks.size_eq (ht : w.Tracks l) : w.size = min w.capacity l.length := by
  rw [← ht.valid.length_toList, ht.toList_eq, List.length_reverse, List.length_take]

/-- After one more sample, the window shows the latest of one more. -/
theorem Tracks.push (ht : w.Tracks l) (h : w.push sample = .ok w') : w'.Tracks (sample :: l) := by
  have hvalid := ht.valid.push h
  have hcapacity := (push_cases h).1
  have hpos := ht.valid.capacity_pos
  have hsize := ht.size_eq
  obtain ⟨n, hn⟩ : ∃ n, w.capacity = n + 1 := ⟨w.capacity - 1, by omega⟩
  by_cases hroom : w.size < w.capacity
  · -- There is room for all samples so far.
    have hall : l.take n = l.take w.capacity := by
      rw [List.take_of_length_le (by omega), List.take_of_length_le (by omega)]
    obtain ⟨hlist, hnext⟩ := toList_push_of_lt h hroom (ht.next_eq hroom)
    refine ⟨hvalid, hnext, ?_⟩
    rw [hlist, hcapacity, ht.toList_eq, ← hall, hn, List.take_succ_cons, List.reverse_cons]
  · obtain ⟨hlist, hfull⟩ := toList_push_of_le ht.valid h (Nat.le_of_not_lt hroom)
    refine ⟨hvalid, fun hlt => absurd hlt (Nat.not_lt.mpr hfull), ?_⟩
    have hlast : (l.take (n + 1)).dropLast = l.take n := by
      rw [List.dropLast_eq_take, List.length_take, Nat.min_eq_left (by omega), Nat.add_sub_cancel,
        List.take_take, Nat.min_eq_left (Nat.le_succ n)]
    rw [hlist, hcapacity, ht.toList_eq, hn, List.take_succ_cons, List.reverse_cons,
      List.tail_reverse, hlast]

/-! ## The mean and the peak -/

/-- The window shows its table, in another order. -/
theorem toList_perm : w.toList.Perm w.samples.toList := by
  by_cases hfull : w.size < w.capacity
  · rw [toList_of_lt hfull]
  · rw [toList_of_le (Nat.le_of_not_lt hfull)]
    apply List.perm_append_comm.trans
    rw [List.take_append_drop]

variable {v : Window Nat}

/-- The mean is that of the samples shown, rounded down; it is zero if there are none. -/
theorem mean_eq (h : v.total < Word.limit) :
    v.mean = .ok (Word.total v.toList / v.toList.length) := by
  have hperm : v.toList.Perm v.samples.toList := toList_perm
  have hsum : Word.sum v.samples.toList = .ok v.total := Word.sum_eq_ok_iff.mpr ⟨rfl, h⟩
  rw [Word.total_perm hperm, hperm.length_eq, mean, hsum]
  split
  · next hempty =>
    rw [isEmpty, Array.isEmpty_iff] at hempty
    rw [hempty]
    rfl
  · rfl

/-- The peak is the largest of the samples shown, or zero if there are none. -/
theorem peak_eq : v.peak = v.toList.max?.getD 0 := by
  have hperm : v.toList.Perm v.samples.toList := toList_perm
  rw [peak]
  congr 1
  cases hmax : v.samples.toList.max? with
  | none =>
    rw [List.max?_eq_none_iff] at hmax
    rw [hmax] at hperm
    rw [hperm.eq_nil]
    rfl
  | some m =>
    obtain ⟨hmem, hle⟩ := List.max?_eq_some_iff.mp hmax
    symm
    rw [List.max?_eq_some_iff]
    exact ⟨hperm.mem_iff.mpr hmem, fun n hn => hle n (hperm.mem_iff.mp hn)⟩

end TextureMemory.Window
