import TextureMemory.Metrics.Event
import TextureMemory.Metrics.Recorder
import TextureMemory.Metrics.Tally
import TextureMemory.Metrics.Window
import TextureMemory.Proofs.Fault

/-!
# What recorders, tallies and windows keep

A tally whose names are in order finds each name that it holds, so adding to a name halts the program
exactly where the new sum is no word (`Tally.Valid.add_eq`). A window is never written outside its
table, and replacing the oldest sample only takes away from the sum of the samples
(`Window.Valid.exists_push`).
-/

namespace TextureMemory

/-- Every event is tallied under a name of its own. -/
theorem Event.name_inj {e e' : Event} (h : e.name = e'.name) : e = e' := by
  cases e <;> cases e' <;> first | rfl | exact absurd h (by decide)

/-! ## Recorders -/

namespace Recorder

variable {α : Type} {r r' : Recorder α} {f : α → Except Fault α} {P : α → Prop} {fault : Fault}

/-- What is measured, if anything is, has a property. -/
def Holds (P : α → Prop) : Recorder α → Prop
  | on a => P a
  | off => True

/-- An update answers with the measurement brought up to date, or with none. -/
theorem update_eq_ok_iff : r.update f = .ok r' ↔
    (∃ a a', r = .on a ∧ f a = .ok a' ∧ r' = .on a') ∨ (r = .off ∧ r' = .off) := by
  cases r with
  | on a =>
    rw [update, Fault.bind_eq_ok_iff]
    constructor
    · rintro ⟨a', ha', h⟩
      exact .inl ⟨a, a', rfl, ha', (Except.ok.inj h).symm⟩
    · rintro (⟨_, a', h, ha', rfl⟩ | ⟨h, -⟩)
      · exact ⟨a', Recorder.on.inj h ▸ ha', rfl⟩
      · cases h
  | off =>
    constructor
    · exact fun h => .inr ⟨rfl, (Except.ok.inj h).symm⟩
    · rintro (⟨_, _, h, -⟩ | ⟨-, rfl⟩)
      · cases h
      · rfl

/-- An update halts only where measuring is on, and the measurement itself halts. -/
theorem update_eq_error_iff : r.update f = .error fault ↔ ∃ a, r = .on a ∧ f a = .error fault := by
  cases r with
  | on a =>
    rw [update, Fault.bind_eq_error_iff]
    constructor
    · rintro (h | ⟨_, _, h⟩)
      · exact ⟨a, rfl, h⟩
      · cases h
    · rintro ⟨_, h, ha⟩
      exact .inl (Recorder.on.inj h ▸ ha)
  | off =>
    constructor
    · intro h
      cases h
    · rintro ⟨_, h, -⟩
      cases h

/-- What is measured goes on being measured. -/
theorem ne_off_of_update (h : r.update f = .ok r')
    (hon : r ≠ .off) : r' ≠ .off := by
  rcases update_eq_ok_iff.mp h with ⟨_, _, -, -, rfl⟩ | ⟨hoff, -⟩
  · exact nofun
  · exact absurd hoff hon

end Recorder

/-! ## Tallies -/

namespace Tally

variable {t t' : Tally} {name other : String} {n m : Nat} {l : List (String × Nat)}

/-- The names of a list are in increasing order. -/
def Sorted (l : List (String × Nat)) : Prop := l.Pairwise fun a b => key a.1 < key b.1

/-- The names of the tally are in increasing order, each once. -/
def Valid (t : Tally) : Prop := Sorted t.entries

/-- Adds `n` to the sum under `name` in an ordered list, without a limit. -/
def insertSum (name : String) (n : Nat) : List (String × Nat) → List (String × Nat)
  | [] => [(name, n)]
  | (other, m) :: rest =>
    if key name < key other then (name, n) :: (other, m) :: rest
    else if name = other then (other, m + n) :: rest
    else (other, m) :: insertSum name n rest

/-- A name does not come before itself. -/
theorem key_ne (h : key name < key other) : name ≠ other := fun heq =>
  List.lt_irrefl _ (heq ▸ h)

theorem lookup_cons (a : String) (b : Nat) : ((a, b) :: l).lookup other =
    if other = a then some b else l.lookup other := by
  rw [List.lookup_cons]
  by_cases h : other = a
  · rw [if_pos h, beq_iff_eq.mpr h]
  · rw [if_neg h, beq_false_of_ne h]

/-- A name that comes before all others of a list is not in it. -/
theorem lookup_eq_none (h : ∀ a ∈ l, key name < key a.1) : l.lookup name = none := by
  apply List.lookup_eq_none_iff.mpr
  intro a ha
  simpa using key_ne (h a ha)

/-- A name that comes before the first of an ordered list comes before all of them. -/
theorem Sorted.lt_of_lt_head {c : String × Nat} (hl : Sorted (c :: l)) (h : key name < key c.1) :
    ∀ a ∈ c :: l, key name < key a.1 := by
  intro a ha
  rcases List.mem_cons.mp ha with rfl | ha
  · exact h
  · exact List.lt_trans h ((List.pairwise_cons.mp hl).1 a ha)

/-- The names of the list after adding are those of the list, and the name added to. -/
theorem mem_insertSum {a : String × Nat} (ha : a ∈ insertSum name n l) :
    a.1 = name ∨ ∃ b ∈ l, b.1 = a.1 := by
  induction l with
  | nil => exact .inl (by simp_all [insertSum])
  | cons c rest ih =>
    obtain ⟨other, m⟩ := c
    rw [insertSum] at ha
    split at ha
    · rcases List.mem_cons.mp ha with rfl | ha
      · exact .inl rfl
      · exact .inr ⟨a, ha, rfl⟩
    · split at ha
      · rcases List.mem_cons.mp ha with rfl | ha
        · exact .inr ⟨(other, m), List.mem_cons_self, rfl⟩
        · exact .inr ⟨a, List.mem_cons_of_mem _ ha, rfl⟩
      · rcases List.mem_cons.mp ha with rfl | ha
        · exact .inr ⟨(other, m), List.mem_cons_self, rfl⟩
        · exact (ih ha).imp_right fun ⟨b, hb, heq⟩ => ⟨b, List.mem_cons_of_mem _ hb, heq⟩

/-- Adding keeps the names in order. -/
theorem insertSum_sorted (hl : Sorted l) : Sorted (insertSum name n l) := by
  induction l with
  | nil => exact List.pairwise_singleton _ _
  | cons c rest ih =>
    obtain ⟨other, m⟩ := c
    obtain ⟨hlt, hrest⟩ := List.pairwise_cons.mp hl
    rw [insertSum]
    split
    · next hname =>
      exact List.pairwise_cons.mpr ⟨hl.lt_of_lt_head hname, hl⟩
    · next hname =>
      split
      · exact List.pairwise_cons.mpr ⟨hlt, hrest⟩
      · next hne =>
        refine List.pairwise_cons.mpr ⟨?_, ih hrest⟩
        intro a ha
        -- The name lies behind the first of the list, so it may stand anywhere in the rest.
        rcases mem_insertSum ha with ha | ⟨b, hb, heq⟩
        · have hkey : key other ≠ key name := fun heq => hne (key_inj.mp heq).symm
          rw [ha]
          exact (List.le_iff_lt_or_eq.mp (List.not_lt.mp hname)).resolve_right hkey
        · exact heq ▸ hlt b hb

/-- The sum under a name that was added to, and under every other name. -/
theorem lookup_insertSum (hl : Sorted l) : (insertSum name n l).lookup other =
    if other = name then some ((l.lookup name).getD 0 + n) else l.lookup other := by
  induction l with
  | nil =>
    rw [insertSum, lookup_cons]
    simp
  | cons c rest ih =>
    obtain ⟨first, m⟩ := c
    obtain ⟨-, hrest⟩ := List.pairwise_cons.mp hl
    rw [insertSum]
    split
    · next hname =>
      rw [lookup_cons, lookup_eq_none (hl.lt_of_lt_head hname), Option.getD_none, Nat.zero_add]
    · split
      · next heq =>
        subst heq
        rw [lookup_cons, List.lookup_cons_self, Option.getD_some]
        split
        · rfl
        · next h => rw [lookup_cons, if_neg h]
      · next hne =>
        rw [lookup_cons, lookup_cons, lookup_cons, ih hrest, if_neg hne]
        by_cases h : other = first
        · rw [if_pos h, if_pos h, if_neg fun heq => hne (heq.symm.trans h)]
        · rw [if_neg h, if_neg h]

/-- Adding to a name leaves the entries of all other names as they were. -/
theorem filter_insertSum : (insertSum name n l).filter (·.1 ≠ name) = l.filter (·.1 ≠ name) := by
  induction l with
  | nil => simp [insertSum]
  | cons c rest ih =>
    obtain ⟨other, m⟩ := c
    rw [insertSum]
    split
    · rw [List.filter_cons_of_neg (by simp)]
    · split
      · next heq => rw [List.filter_cons_of_neg (by simp [heq]), List.filter_cons_of_neg (by simp [heq])]
      · next hne =>
        rw [List.filter_cons_of_pos (by simpa using Ne.symm hne), ih,
          List.filter_cons_of_pos (by simpa using Ne.symm hne)]

/-- Adding to an ordered list halts the program exactly where the new sum is no word. -/
theorem addTo_eq (hl : Sorted l) : addTo name n l =
    if (l.lookup name).getD 0 + n < Word.limit then .ok (insertSum name n l)
    else .error .overflow := by
  induction l with
  | nil =>
    rw [addTo, Word.add]
    simp only [List.lookup_nil, Option.getD_none, Nat.zero_add, insertSum]
    split <;> rfl
  | cons c rest ih =>
    obtain ⟨other, m⟩ := c
    obtain ⟨hlt, hrest⟩ := List.pairwise_cons.mp hl
    rw [addTo, insertSum]
    split
    · next hname =>
      rw [lookup_eq_none (hl.lt_of_lt_head hname), Word.add, Option.getD_none, Nat.zero_add]
      split <;> rfl
    · split
      · next heq =>
        subst heq
        rw [List.lookup_cons_self, Option.getD_some, Word.add]
        split <;> rfl
      · next hne =>
        rw [ih hrest, List.lookup_cons, beq_false_of_ne hne]
        split <;> rfl

/-- A tally that nothing was added to is in order. -/
theorem empty_valid : empty.Valid := List.Pairwise.nil

/-- Adding halts the program exactly where the new sum is no word. -/
theorem Valid.add_eq (ht : t.Valid) (name : String) (n : Nat) : t.add name n =
    if t.get name + n < Word.limit then .ok ⟨insertSum name n t.entries⟩ else .error .overflow := by
  rw [add, addTo_eq ht, get]
  split <;> rfl

variable (ht : t.Valid) (hadd : t.add name n = .ok t')
include ht hadd

/-- The tally after adding, and that the new sum is a word. -/
theorem Valid.entries_of_add : t.get name + n < Word.limit ∧
    t' = ⟨insertSum name n t.entries⟩ := by
  rw [ht.add_eq] at hadd
  split at hadd
  · next hlt => exact ⟨hlt, (Except.ok.inj hadd).symm⟩
  · cases hadd

/-- Adding keeps the names in order, and each of them once. -/
theorem Valid.add : t'.Valid := by
  obtain ⟨-, rfl⟩ := ht.entries_of_add hadd
  exact insertSum_sorted ht

/-- Adding changes the sum under one name. -/
theorem Valid.get_of_add (other : String) :
    t'.get other = t.get other + if other = name then n else 0 := by
  obtain ⟨-, rfl⟩ := ht.entries_of_add hadd
  rw [get, lookup_insertSum ht, get]
  split
  · next heq => rw [heq, Option.getD_some]
  · rfl

/-- Adding to a name leaves the entries of all other names as they were. -/
theorem Valid.filter_of_add :
    t'.toList.filter (·.1 ≠ name) = t.toList.filter (·.1 ≠ name) := by
  obtain ⟨-, rfl⟩ := ht.entries_of_add hadd
  exact filter_insertSum

end Tally

namespace Recorder

variable {r r' : Recorder Tally}

/-- A tally that is held stays in order when an event is tallied. -/
theorem holds_of_update {name : String} {n : Nat} (hv : r.Holds Tally.Valid)
    (h : r.update (·.add name n) = .ok r') : r'.Holds Tally.Valid := by
  rcases update_eq_ok_iff.mp h with ⟨t, t', rfl, hadd, rfl⟩ | ⟨-, rfl⟩
  · exact Tally.Valid.add hv hadd
  · trivial

/-- Tallying adds to the sum of the event, and to no other. -/
theorem read_of_update {event : Event} {n : Nat} (hv : r.Holds Tally.Valid) (hon : r ≠ .off)
    (h : r.update (·.add event.name n) = .ok r') (e : Event) :
    r'.get e.name = r.get e.name + if e = event then n else 0 := by
  rcases update_eq_ok_iff.mp h with ⟨t, t', rfl, hadd, rfl⟩ | ⟨hoff, -⟩
  · refine (Tally.Valid.get_of_add hv hadd e.name).trans ?_
    by_cases he : e = event
    · rw [if_pos he, if_pos (congrArg Event.name he)]
      rfl
    · rw [if_neg he, if_neg fun heq => he (Event.name_inj heq)]
      rfl
  · exact absurd hoff hon

end Recorder

/-! ## Windows -/

namespace Window

variable {α : Type} {w w' : Window α} {sample : α} {v : Window Nat}

/-- The next sample goes behind the last one while the table grows, and into the table once it is
full. -/
structure Valid (w : Window α) : Prop where
  capacity_pos : 0 < w.capacity
  size_le : w.size ≤ w.capacity
  next_lt : w.next < w.capacity

/-- A window without samples has room for one at least. -/
theorem empty_valid (capacity : Nat) : (empty capacity : Window α).Valid where
  capacity_pos := Nat.lt_of_lt_of_le Nat.zero_lt_one (Nat.le_max_right _ _)
  size_le := Nat.zero_le _
  next_lt := Nat.lt_of_lt_of_le Nat.zero_lt_one (Nat.le_max_right _ _)

/-- Adding a sample: the table grows by it, or it is put in the place of the oldest. -/
theorem push_cases (h : w.push sample = .ok w') :
    w'.capacity = w.capacity ∧ w'.next = (w.next + 1) % w.capacity ∧
      ((w.size < w.capacity ∧ w'.samples = w.samples.push sample) ∨
        (w.capacity ≤ w.size ∧ w.next < w.size ∧
          w'.samples = w.samples.setIfInBounds w.next sample)) := by
  unfold push at h
  by_cases hroom : w.size < w.capacity
  · rw [if_pos hroom] at h
    cases h
    exact ⟨rfl, rfl, .inl ⟨hroom, rfl⟩⟩
  · rw [if_neg hroom] at h
    split at h
    · next hin =>
      cases h
      exact ⟨rfl, rfl, .inr ⟨Nat.le_of_not_lt hroom, hin, rfl⟩⟩
    · cases h

/-- Adding a sample keeps the place of the next one within the table. -/
theorem Valid.push (hv : w.Valid) (h : w.push sample = .ok w') : w'.Valid := by
  obtain ⟨hcapacity, hnext, hsamples⟩ := push_cases h
  have hpos := hv.capacity_pos
  refine ⟨by rwa [hcapacity], ?_, ?_⟩
  · rw [hcapacity]
    rcases hsamples with ⟨hroom, heq⟩ | ⟨-, -, heq⟩
    · rw [size, heq, Array.size_push]
      exact hroom
    · rw [size, heq, Array.size_setIfInBounds]
      exact hv.size_le
  · rw [hcapacity, hnext]
    exact Nat.mod_lt _ hpos

/-- The sum of the samples. -/
def total (w : Window Nat) : Nat := Word.total w.samples.toList

/-- Putting a number in the place of another adds no more than that number to the sum. -/
theorem total_set_le (l : List Nat) (i n : Nat) :
    Word.total (l.set i n) ≤ Word.total l + n := by
  induction l generalizing i with
  | nil => simp
  | cons m rest ih =>
    cases i with
    | zero =>
      simp only [List.set_cons_zero, Word.total_cons]
      omega
    | succ i =>
      have hle := ih i
      simp only [List.set_cons_succ, Word.total_cons]
      omega

/-- Adding a sample never halts the program. -/
theorem Valid.exists_push_eq_ok (hv : w.Valid) (sample : α) : ∃ w', w.push sample = .ok w' := by
  unfold Window.push
  split
  · exact ⟨_, rfl⟩
  · next hfull =>
    -- The table is full, so the place of the oldest sample lies within it.
    have hin : w.next < w.size := Nat.lt_of_lt_of_le hv.next_lt (Nat.le_of_not_lt hfull)
    exact ⟨_, if_pos hin⟩

/-- Adding a number to a window adds no more than that number to the sum. -/
theorem Valid.exists_push (hv : v.Valid) (n : Nat) :
    ∃ v', v.push n = .ok v' ∧ v'.Valid ∧ v'.total ≤ v.total + n := by
  obtain ⟨v', h⟩ := hv.exists_push_eq_ok n
  refine ⟨v', h, hv.push h, ?_⟩
  obtain ⟨-, -, ⟨-, hsamples⟩ | ⟨-, -, hsamples⟩⟩ := push_cases h
  · simp [total, hsamples, Word.total_append]
  · rw [total, hsamples, Array.toList_setIfInBounds]
    exact total_set_le _ _ _

/-- The mean of samples whose sum is a word never halts the program. -/
theorem exists_mean (h : v.total < Word.limit) : ∃ mean, v.mean = .ok mean := by
  have hsum : Word.sum v.samples.toList = .ok v.total := Word.sum_eq_ok_iff.mpr ⟨rfl, h⟩
  rw [mean, hsum]
  split <;> exact ⟨_, rfl⟩

end Window

end TextureMemory
