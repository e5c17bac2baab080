import TextureMemory.Proofs.Metrics

/-!
# A tally is a sorted map of sums

A tally starts empty. Numbers are added under names, and now and then all names are forgotten
(`Tally.ofActions`). What the tally then holds is told by the additions since it was last emptied: a sum
under each name that was added to (`Tally.Sums`). One action after another keeps this up, or halts the
program because a sum is no word.

A list whose names are in order is settled by what it holds under each name (`Tally.Sorted.ext`), and two
additions have the same effect whichever comes first. So the order of the additions does not matter
(`Tally.addAll_perm`).
-/

namespace TextureMemory.Tally

variable {t t' : Tally} {name other : String} {n m : Nat} {l l' : List (String × Nat)}

/-! ## Lists in order -/

/-- An ordered list has an entry where it finds it. -/
theorem Sorted.mem_iff_lookup (hl : Sorted l) : (name, n) ∈ l ↔ l.lookup name = some n := by
  induction l with
  | nil => simp
  | cons c rest ih =>
    obtain ⟨first, k⟩ := c
    obtain ⟨hlt, hrest⟩ := List.pairwise_cons.mp hl
    rw [List.mem_cons, lookup_cons, ih hrest]
    by_cases h : name = first
    · subst h
      rw [if_pos rfl, lookup_eq_none hlt]
      simp [eq_comm]
    · rw [if_neg h]
      simp [h]

/-- An ordered list is settled by what it holds under each name. -/
theorem Sorted.ext (hl : Sorted l) (hl' : Sorted l') (h : ∀ name, l.lookup name = l'.lookup name) :
    l = l' := by
  have hnodup : ∀ {l : List (String × Nat)}, Sorted l → l.Nodup := fun hl =>
    hl.imp fun hlt heq => key_ne hlt (congrArg Prod.fst heq)
  have hperm : l.Perm l' := by
    apply (List.perm_ext_iff_of_nodup (hnodup hl) (hnodup hl')).mpr
    rintro ⟨name, n⟩
    rw [hl.mem_iff_lookup, hl'.mem_iff_lookup, h]
  refine List.Perm.eq_of_pairwise ?_ hl hl' hperm
  intro a b _ _ hab hba
  exact absurd (List.lt_trans hab hba) (List.lt_irrefl _)

/-! ## Additions in any order -/

/-- Numbers that are added under two names leave the same list whichever comes first. -/
theorem Sorted.insertSum_comm (hl : Sorted l) :
    insertSum other m (insertSum name n l) = insertSum name n (insertSum other m l) := by
  apply Sorted.ext (insertSum_sorted (insertSum_sorted hl)) (insertSum_sorted (insertSum_sorted hl))
  intro k
  rw [lookup_insertSum (insertSum_sorted hl), lookup_insertSum (insertSum_sorted hl),
    lookup_insertSum hl, lookup_insertSum hl, lookup_insertSum hl, lookup_insertSum hl]
  by_cases heq : other = name
  · subst heq
    simp only [if_true, Option.getD_some, Nat.add_right_comm]
    split <;> rfl
  · rw [if_neg heq, if_neg (Ne.symm heq)]
    by_cases hk : k = other
    · rw [if_pos hk, if_neg fun h => heq (hk.symm.trans h), if_pos hk]
    · rw [if_neg hk, if_neg hk]

/-- Adding twice halts the program exactly where one of the new sums is no word. -/
theorem Valid.add_add_eq (ht : t.Valid) : (t.add name n >>= fun t => t.add other m) =
    if t.get name + n < Word.limit ∧ t.get other + (if other = name then n else 0) + m < Word.limit
    then .ok ⟨insertSum other m (insertSum name n t.entries)⟩ else .error .overflow := by
  rw [ht.add_eq]
  by_cases hfits : t.get name + n < Word.limit
  · have hadd : t.add name n = .ok ⟨insertSum name n t.entries⟩ := by rw [ht.add_eq, if_pos hfits]
    rw [if_pos hfits, Fault.ok_bind, (ht.add hadd).add_eq, ht.get_of_add hadd]
    simp only [hfits, true_and]
  · rw [if_neg hfits, if_neg fun h => hfits h.1]
    rfl

/-- Two additions have the same effect whichever comes first. -/
theorem Valid.add_comm (ht : t.Valid) : (t.add name n >>= fun t => t.add other m) =
    (t.add other m >>= fun t => t.add name n) := by
  rw [ht.add_add_eq, ht.add_add_eq, Sorted.insertSum_comm ht]
  congr 1
  by_cases heq : other = name
  · subst heq
    simp only [if_true, eq_iff_iff]
    omega
  · simp only [heq, Ne.symm heq, if_false, Nat.add_zero, and_comm]

/-- Adds numbers under names, one after the other. -/
def addAll (t : Tally) (l : List (String × Nat)) : Except Fault Tally :=
  l.foldlM (fun t entry => t.add entry.1 entry.2) t

/-- The first addition is made before the rest. -/
theorem addAll_cons (entry : String × Nat) :
    t.addAll (entry :: l) = t.add entry.1 entry.2 >>= fun t => t.addAll l := List.foldlM_cons

/-- **The order of additions does not matter**, neither for what they leave nor for whether they halt the
program. -/
theorem Valid.addAll_perm (ht : t.Valid) (h : l.Perm l') : t.addAll l = t.addAll l' := by
  induction h generalizing t with
  | nil => rfl
  | cons entry _ ih =>
    rw [addAll_cons, addAll_cons]
    cases hadd : t.add entry.1 entry.2 with
    | ok t₁ => exact ih (ht.add hadd)
    | error fault => rfl
  | swap first second l =>
    simp only [addAll_cons, ← bind_assoc]
    rw [ht.add_comm]
  | trans _ _ ih ih' => exact (ih ht).trans (ih' ht)

/-! ## What was added since the last reset -/

/-- What may be done to a tally. -/
inductive Action where
  /-- Adds to the sum under a name. -/
  | add (name : String) (n : Nat)
  /-- Forgets all names. -/
  | reset

/-- Performs an action. -/
def act (t : Tally) : Action → Except Fault Tally
  | .add name n => t.add name n
  | .reset => return empty

/-- The addition of an entry. -/
def Action.ofEntry (entry : String × Nat) : Action := .add entry.1 entry.2

/-- Performs actions on the empty tally, one after the other. -/
def ofActions (actions : List Action) : Except Fault Tally := actions.foldlM act empty

/-- The additions since the last reset, if an action comes after those in `l`. -/
def Action.extend (l : List (String × Nat)) : Action → List (String × Nat)
  | .add name n => l ++ [(name, n)]
  | .reset => []

/-- The additions since the last reset, the first one first. -/
def additions (actions : List Action) : List (String × Nat) := actions.foldl Action.extend []

/-- The sum of all that was added under a name. -/
def sumUnder (name : String) (l : List (String × Nat)) : Nat :=
  Word.total ((l.filter (·.1 = name)).map (·.2))

/-- No sum is ever too large for a word, after any of the actions. -/
def Fits (actions : List Action) : Prop :=
  ∀ past, past <+: actions → ∀ name, sumUnder name (additions past) < Word.limit

/-- One more action comes behind those before it. -/
theorem additions_concat (past : List Action) (action : Action) :
    additions (past ++ [action]) = action.extend (additions past) := List.foldl_append

/-- One more addition goes to the sum under its own name. -/
theorem sumUnder_concat : sumUnder other (l ++ [(name, n)]) =
    sumUnder other l + if other = name then n else 0 := by
  rw [sumUnder, List.filter_append, List.map_append, Word.total_append, ← sumUnder]
  congr 1
  by_cases h : other = name
  · rw [if_pos h, List.filter_cons_of_pos (by simpa using h.symm)]
    rfl
  · rw [if_neg h, List.filter_cons_of_neg (by simpa using Ne.symm h)]
    rfl

/-- Nothing was added up under a name that does not occur. -/
theorem sumUnder_eq_zero (h : name ∉ l.map (·.1)) : sumUnder name l = 0 := by
  have hnone : l.filter (·.1 = name) = [] := by
    apply List.filter_eq_nil_iff.mpr
    intro entry hentry
    rw [decide_eq_true_iff]
    exact fun heq => h (List.mem_map.mpr ⟨entry, hentry, heq⟩)
  rw [sumUnder, hnone]
  rfl

/-- The tally holds the sums of the additions in `l`. -/
structure Sums (t : Tally) (l : List (String × Nat)) : Prop where
  valid : t.Valid
  fits : ∀ name, sumUnder name l < Word.limit
  lookup_iff : ∀ name n, t.entries.lookup name = some n ↔
    name ∈ l.map (·.1) ∧ n = sumUnder name l

/-- Without additions there are no sums. -/
theorem empty_sums : empty.Sums [] where
  valid := empty_valid
  fits _ := Nat.two_pow_pos 64
  lookup_iff _ _ := by simp [empty]

/-- What is looked up under a name is the sum of its additions. -/
theorem Sums.get_eq (ht : t.Sums l) (name : String) : t.get name = sumUnder name l := by
  by_cases h : name ∈ l.map (·.1)
  · rw [get, (ht.lookup_iff name _).mpr ⟨h, rfl⟩, Option.getD_some]
  · have hnone : t.entries.lookup name = none :=
      Option.eq_none_iff_forall_ne_some.mpr fun n hn => h ((ht.lookup_iff name n).mp hn).1
    rw [get, hnone, sumUnder_eq_zero h, Option.getD_none]

/-- The entries are the names that were added to, with their sums. -/
theorem Sums.mem_toList_iff (ht : t.Sums l) :
    (name, n) ∈ t.toList ↔ name ∈ l.map (·.1) ∧ n = sumUnder name l :=
  ht.valid.mem_iff_lookup.trans (ht.lookup_iff name n)

/-- What a tally holds under a name after adding, and under every other name. -/
theorem Valid.lookup_of_add (ht : t.Valid) (hadd : t.add name n = .ok t') (other : String) :
    t'.entries.lookup other =
      if other = name then some (t.get name + n) else t.entries.lookup other := by
  obtain ⟨-, rfl⟩ := ht.entries_of_add hadd
  exact lookup_insertSum ht

/-- One more addition, if the new sum is a word. -/
theorem Sums.add (ht : t.Sums l) (hadd : t.add name n = .ok t') : t'.Sums (l ++ [(name, n)]) where
  valid := ht.valid.add hadd
  fits other := by
    have hnew : t.get name + n < Word.limit := (ht.valid.entries_of_add hadd).1
    rw [ht.get_eq] at hnew
    rw [sumUnder_concat]
    split
    · next h => exact h ▸ hnew
    · exact ht.fits other
  lookup_iff other k := by
    rw [ht.valid.lookup_of_add hadd, ht.get_eq, sumUnder_concat, List.map_append, List.mem_append]
    by_cases h : other = name
    · subst h
      simp [eq_comm]
    · simp [h, ht.lookup_iff]

/-- Adding halts the program exactly where the new sum is no word. -/
theorem Sums.add_eq_error_iff (ht : t.Sums l) :
    t.add name n = .error .overflow ↔ Word.limit ≤ sumUnder name l + n := by
  rw [ht.valid.add_eq, ht.get_eq]
  split
  · next h => exact iff_of_false nofun (Nat.not_le.mpr h)
  · next h => exact iff_of_true rfl (Nat.not_lt.mp h)

/-- Adding succeeds exactly where the new sum is a word. -/
theorem Sums.add_eq_ok_iff (ht : t.Sums l) :
    (∃ t', t.add name n = .ok t') ↔ sumUnder name l + n < Word.limit := by
  rw [ht.valid.add_eq, ht.get_eq]
  split
  · next h => exact iff_of_true ⟨_, rfl⟩ h
  · next h => exact iff_of_false nofun h

/-- After one more action, the tally holds the sums of the additions since the last reset. If the action
halts the program, one of the sums would be no word. -/
theorem Sums.act_cases {past : List Action} (ht : t.Sums (additions past)) (action : Action) :
    (∃ t', t.act action = .ok t' ∧ t'.Sums (additions (past ++ [action]))) ∨
      (t.act action = .error .overflow ∧
        ∃ name, Word.limit ≤ sumUnder name (additions (past ++ [action]))) := by
  rw [additions_concat]
  cases action with
  | add name n =>
    by_cases hnew : Word.limit ≤ sumUnder name (additions past) + n
    · refine .inr ⟨ht.add_eq_error_iff.mpr hnew, name, ?_⟩
      rw [Action.extend, sumUnder_concat, if_pos rfl]
      exact hnew
    · have hadd : t.add name n = .ok ⟨insertSum name n t.entries⟩ := by
        rw [ht.valid.add_eq, ht.get_eq, if_pos (Nat.not_le.mp hnew)]
      exact .inl ⟨_, hadd, ht.add hadd⟩
  | reset => exact .inl ⟨empty, rfl, empty_sums⟩

/-- Actions are performed as long as every sum is a word. The first addition that makes one too large
halts the program. -/
theorem Sums.acts_cases {past : List Action} (ht : t.Sums (additions past)) (actions : List Action) :
    (∃ t', actions.foldlM act t = .ok t' ∧ t'.Sums (additions (past ++ actions)) ∧
        ∀ mid, mid <+: actions → ∀ name, sumUnder name (additions (past ++ mid)) < Word.limit) ∨
      (actions.foldlM act t = .error .overflow ∧ ∃ mid, mid <+: actions ∧
        ∃ name, Word.limit ≤ sumUnder name (additions (past ++ mid))) := by
  induction actions generalizing t past with
  | nil =>
    refine .inl ⟨t, rfl, (List.append_nil past).symm ▸ ht, fun mid hmid => ?_⟩
    rw [List.prefix_nil.mp hmid, List.append_nil]
    exact ht.fits
  | cons action rest ih =>
    rw [List.foldlM_cons, List.append_cons]
    rcases ht.act_cases action with ⟨t₁, hact, ht₁⟩ | ⟨hact, hlarge⟩
    · rw [hact]
      refine (ih ht₁).imp ?_ ?_
      · rintro ⟨t', hrest, ht', hfits⟩
        refine ⟨t', hrest, ht', fun mid hmid => ?_⟩
        rcases List.prefix_cons_iff.mp hmid with rfl | ⟨tail, rfl, htail⟩
        · rw [List.append_nil]
          exact ht.fits
        · rw [List.append_cons]
          exact hfits tail htail
      · rintro ⟨hrest, mid, hmid, hlarge⟩
        refine ⟨hrest, action :: mid, List.cons_prefix_cons.mpr ⟨rfl, hmid⟩, ?_⟩
        rwa [List.append_cons]
    · rw [hact]
      exact .inr ⟨rfl, [action], List.cons_prefix_cons.mpr ⟨rfl, List.nil_prefix⟩, hlarge⟩

/-- Where all sums are words the tally holds them, and elsewhere the program is halted. -/
theorem ofActions_cases (actions : List Action) :
    (Fits actions ∧ ∃ t, ofActions actions = .ok t ∧ t.Sums (additions actions)) ∨
      (¬Fits actions ∧ ofActions actions = .error .overflow) := by
  have hstart : empty.Sums (additions []) := empty_sums
  rcases hstart.acts_cases actions with ⟨t, h, ht, hfits⟩ | ⟨h, mid, hmid, name, hlarge⟩
  · exact .inl ⟨hfits, t, h, ht⟩
  · exact .inr ⟨fun hfits => absurd (hfits mid hmid name) (Nat.not_lt.mpr hlarge), h⟩

/-- All sums are words exactly where the actions can be performed. -/
theorem fits_iff {actions : List Action} : Fits actions ↔ ∃ t, ofActions actions = .ok t := by
  rcases ofActions_cases actions with ⟨hfits, t, h, -⟩ | ⟨hlarge, h⟩
  · exact iff_of_true hfits ⟨t, h⟩
  · refine iff_of_false hlarge ?_
    rintro ⟨t, ht⟩
    cases h.symm.trans ht

/-- The names are in order after any actions. -/
theorem valid_of_actions {actions : List Action} (h : ofActions actions = .ok t) : t.Valid := by
  rcases ofActions_cases actions with ⟨-, t', h', ht'⟩ | ⟨-, h'⟩
  · cases h.symm.trans h'
    exact ht'.valid
  · cases h.symm.trans h'

/-- Actions of which those in the middle are additions. -/
theorem ofActions_append (past later : List Action) (adds : List (String × Nat)) :
    ofActions (past ++ adds.map .ofEntry ++ later) =
      (ofActions past >>= fun t => t.addAll adds) >>= fun t => later.foldlM act t := by
  rw [ofActions, List.foldlM_append, List.foldlM_append]
  simp only [List.foldlM_map]
  rfl

/-- **A tally is a sorted map of sums.** Let actions be performed on the empty tally. The sum of a name is
that of all that was added to it since the last reset.

* If a sum is too large for a word after some of the actions, the program is halted.
* If not, the tally has the sum of every name, which is zero for the names that were not added to. It lists
  those that were, also if only zero was, each once, in increasing order of their bytes, and each with its
  sum. One more addition halts the program exactly if the new sum is too large for a word.
* Additions without a reset between them may as well be made in any other order. -/
theorem sums_held (actions : List Action) :
    (¬Fits actions → ofActions actions = .error .overflow) ∧
    (Fits actions → ∃ t, ofActions actions = .ok t ∧
      (∀ name, t.get name = sumUnder name (additions actions)) ∧
      Sorted t.toList ∧
      (∀ name n, (name, n) ∈ t.toList ↔
        name ∈ (additions actions).map (·.1) ∧ n = t.get name) ∧
      ∀ name n,
        (t.add name n = .error .overflow ↔ Word.limit ≤ sumUnder name (additions actions) + n) ∧
        ((∃ t', t.add name n = .ok t') ↔ sumUnder name (additions actions) + n < Word.limit)) ∧
    ∀ (past later : List Action) (adds adds' : List (String × Nat)), adds.Perm adds' →
      actions = past ++ adds.map .ofEntry ++ later →
      ofActions (past ++ adds'.map .ofEntry ++ later) = ofActions actions := by
  refine ⟨fun hlarge => ?_, fun hfits => ?_, ?_⟩
  · exact ((ofActions_cases actions).resolve_left fun h => hlarge h.1).2
  · obtain ⟨-, t, h, ht⟩ := (ofActions_cases actions).resolve_right fun h => h.1 hfits
    refine ⟨t, h, ht.get_eq, ht.valid, fun name n => ?_, fun name n =>
      ⟨ht.add_eq_error_iff, ht.add_eq_ok_iff⟩⟩
    rw [ht.get_eq]
    exact ht.mem_toList_iff
  · rintro past later adds adds' hperm rfl
    rw [ofActions_append, ofActions_append]
    cases hpast : ofActions past with
    | error fault => rfl
    | ok t => rw [Fault.ok_bind, Fault.ok_bind, (valid_of_actions hpast).addAll_perm hperm]

/-- After a reset, what was added before it is forgotten, and two names are listed in order. -/
theorem sums_held_after_reset :
    Fits [.add "vram" 1, .reset, .add "vram" 0, .add "ram" 2, .add "ram" 3] ∧
    List.Perm [("vram", 0), ("ram", 2), ("ram", 3)] [("ram", 2), ("ram", 3), ("vram", 0)] ∧
    ∃ t, ofActions [.add "vram" 1, .reset, .add "vram" 0, .add "ram" 2, .add "ram" 3] = .ok t ∧
      t.get "ram" = 5 ∧ ("vram", 0) ∈ t.toList ∧
      t.add "ram" (Word.limit - 5) = .error .overflow ∧
      ofActions [.add "vram" 1, .reset, .add "ram" 2, .add "ram" 3, .add "vram" 0] = .ok t := by
  have hrun : ∃ t, ofActions [.add "vram" 1, .reset, .add "vram" 0, .add "ram" 2, .add "ram" 3] =
      .ok t := ⟨⟨[("ram", 5), ("vram", 0)]⟩, rfl⟩
  have hfits := fits_iff.mpr hrun
  have hperm : List.Perm [("vram", 0), ("ram", 2), ("ram", 3)]
      [("ram", 2), ("ram", 3), ("vram", 0)] := by decide
  obtain ⟨-, hheld, horder⟩ :=
    sums_held [.add "vram" 1, .reset, .add "vram" 0, .add "ram" 2, .add "ram" 3]
  obtain ⟨t, ht, hget, -, hmem, hadd⟩ := hheld hfits
  refine ⟨hfits, hperm, t, ht, (hget "ram").trans (by decide), ?_, ?_, ?_⟩
  · exact (hmem "vram" 0).mpr ⟨by decide, ((hget "vram").trans (by decide)).symm⟩
  · exact (hadd "ram" _).1.mpr (by decide)
  · exact (horder [.add "vram" 1, .reset] [] _ _ hperm rfl).trans ht

end TextureMemory.Tally
