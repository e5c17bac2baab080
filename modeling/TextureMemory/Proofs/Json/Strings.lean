import TextureMemory.Proofs.Json.Grammar

/-!
# Reading strings

A string is passed over by its form alone (`Json.IsString.skipString_append`). Where its characters are
asked for, it is read if it stands for characters, as these (`Json.Spells.readString_append`), and refused
otherwise: where a string was read, the reading ended with the string, and the string stands for what was
read (`Json.IsString.of_readString`). So a string stands for one text at most (`Json.Spells.unique`).
-/

namespace TextureMemory.Json

variable {c e : Char} {s rest read cs cs' : List Char} {name : String} {out : String × List Char}

/-! ## Passing over -/

/-- A character without an escape is passed over. -/
theorem skipString_plain (hc : isPlain c = true) : skipString (c :: s) = skipString s := by
  simp only [isPlain, Bool.and_eq_true, bne_iff_ne, Bool.not_eq_true', decide_eq_false_iff_not] at hc
  obtain ⟨⟨hmark, hescape⟩, hcontrol⟩ := hc
  rw [skipString]
  · exact if_neg hcontrol
  · exact hmark
  -- None of the patterns for an escape fits.
  all_goals
    intros
    exact hescape ‹_›

/-- A letter is passed over with its escape. -/
theorem skipString_letter (he : escaped? e = some c) :
    skipString ('\\' :: e :: s) = skipString s := by
  rw [skipString, he]
  -- No letter that stands for a character begins a code.
  all_goals
    intros
    subst_vars
    cases he

/-- A string is passed over, whatever follows. -/
theorem IsString.skipString_append (hs : IsString s) : skipString (s ++ rest) = .ok rest := by
  induction hs with
  | closed => rw [List.cons_append, skipString_closing, List.nil_append]
  | plain hc _ ih => rw [List.cons_append, skipString_plain hc, ih]
  | letter he _ ih => rw [List.cons_append, List.cons_append, skipString_letter he, ih]
  | code hn _ ih =>
    simp only [List.cons_append]
    rw [skipString, hn]
    exact ih

/-! ## Reading -/

/-- A character without an escape is read as itself. -/
theorem readString_plain (hc : isPlain c = true) :
    readString read (c :: s) = readString (c :: read) s := by
  simp only [isPlain, Bool.and_eq_true, bne_iff_ne, Bool.not_eq_true', decide_eq_false_iff_not] at hc
  obtain ⟨⟨hmark, hescape⟩, hcontrol⟩ := hc
  rw [readString]
  · exact if_neg hcontrol
  · exact hmark
  -- None of the patterns for an escape fits.
  all_goals
    intros
    exact hescape ‹_›

/-- An escaped letter is read as the character it stands for. -/
theorem readString_letter (he : escaped? e = some c) :
    readString read ('\\' :: e :: s) = readString (c :: read) s := by
  rw [readString, he]
  all_goals
    intros
    subst_vars
    cases he

/-- No number is a first and a second half. -/
theorem isLowHalf_of_isHighHalf {n : Nat} (hn : isHighHalf n = true) : isLowHalf n = false := by
  simp only [isHighHalf, Bool.and_eq_true, decide_eq_true_eq] at hn
  refine Bool.eq_false_iff.mpr fun hlow => ?_
  simp only [isLowHalf, Bool.and_eq_true, decide_eq_true_eq] at hlow
  omega

/-- A string that stands for characters is read as these. -/
theorem Spells.readString_append (hs : Spells cs s) :
    readString read (s ++ rest) = .ok (String.ofList (read.reverse ++ cs), rest) := by
  induction hs generalizing read with
  | closed => rw [List.cons_append, List.nil_append, List.append_nil, readString_closing]
  | plain hc _ ih =>
    rw [List.cons_append, readString_plain hc, ih, List.reverse_cons, List.append_assoc]
    rfl
  | letter he _ ih =>
    rw [List.cons_append, List.cons_append, readString_letter he, ih, List.reverse_cons,
      List.append_assoc]
    rfl
  | code hn hhigh hlow _ ih =>
    simp only [List.cons_append]
    rw [readString, hn]
    simp only [hhigh, hlow]
    rw [if_neg Bool.false_ne_true, if_neg Bool.false_ne_true, ih, List.reverse_cons,
      List.append_assoc]
    rfl
  | pair hn hhigh hm hlow _ ih =>
    simp only [List.cons_append]
    rw [readString, hn]
    simp only [isLowHalf_of_isHighHalf hhigh, hhigh, hm, hlow, Bool.false_eq_true, if_true, if_false]
    rw [ih, List.reverse_cons, List.append_assoc]
    rfl

/-- A string stands for one text at most. -/
theorem Spells.unique (hs : Spells cs s) (hs' : Spells cs' s) : cs = cs' := by
  have hread : readString [] (s ++ []) = .ok (String.ofList ([].reverse ++ cs), []) :=
    hs.readString_append
  have heq := hread.symm.trans hs'.readString_append
  simp only [List.reverse_nil, List.nil_append, Except.ok.injEq, Prod.mk.injEq, and_true] at heq
  exact String.ofList_injective heq

/-- What stands for a text is a string. -/
theorem Spells.isString (hs : Spells cs s) : IsString s := by
  induction hs with
  | closed => exact .closed
  | plain hc _ ih => exact .plain hc ih
  | letter he _ ih => exact .letter he ih
  | code hn _ _ _ ih => exact .code hn ih
  | pair hn _ hm _ _ ih => exact .code hn (.code hm ih)

/-- A string that begins with a code holds the whole of it. -/
theorem IsString.of_code {a b c d : Char} (hs : IsString s)
    (heq : s ++ rest = '\\' :: 'u' :: a :: b :: c :: d :: cs) :
    ∃ t, s = '\\' :: 'u' :: a :: b :: c :: d :: t ∧ t ++ rest = cs ∧ IsString t := by
  cases hs with
  | closed => cases heq
  | plain hc =>
    rw [(List.cons.inj heq).1] at hc
    cases hc
  | letter he =>
    rw [(List.cons.inj (List.cons.inj heq).2).1] at he
    cases he
  | code _ hs =>
    simp only [List.cons_append, List.cons.injEq, true_and] at heq
    obtain ⟨rfl, rfl, rfl, rfl, htail⟩ := heq
    exact ⟨_, rfl, htail, hs⟩

/-- Where a string was read, the reading ended with it, and the string stands for what was read. -/
theorem IsString.of_readString (hs : IsString s)
    (hread : readString read (s ++ rest) = .ok out) :
    out.2 = rest ∧ ∃ cs, Spells cs s ∧ out.1 = String.ofList (read.reverse ++ cs) := by
  -- A pair of halves takes two codes, so the induction is on the length of the string.
  induction hlen : s.length using Nat.strongRecOn generalizing s read with
  | ind n ih =>
    subst hlen
    cases hs with
    | closed =>
      rw [List.cons_append, List.nil_append, readString_closing] at hread
      cases hread
      exact ⟨rfl, [], .closed, by rw [List.append_nil]⟩
    | plain hc hs =>
      rw [List.cons_append, readString_plain hc] at hread
      obtain ⟨hrest, cs, hspells, hout⟩ := ih _ (by simp only [List.length_cons]; omega) hs hread rfl
      exact ⟨hrest, _, .plain hc hspells, by rw [hout]; simp⟩
    | letter he hs =>
      rw [List.cons_append, List.cons_append, readString_letter he] at hread
      obtain ⟨hrest, cs, hspells, hout⟩ := ih _ (by simp only [List.length_cons]; omega) hs hread rfl
      exact ⟨hrest, _, .letter he hspells, by rw [hout]; simp⟩
    | @code a b c d n s hn hs =>
      simp only [List.cons_append] at hread
      rw [readString, hn] at hread
      dsimp only at hread
      split at hread
      · cases hread
      rename_i hlow
      split at hread
      · rename_i hhigh
        split at hread
        · rename_i heq
          obtain ⟨t, rfl, rfl, ht⟩ := hs.of_code heq
          split at hread
          · cases hread
          rename_i hm
          split at hread
          · rename_i hlow'
            obtain ⟨hrest, cs, hspells, hout⟩ := ih _ (by simp; omega) ht hread rfl
            exact ⟨hrest, _, .pair hn hhigh hm hlow' hspells, by rw [hout]; simp⟩
          · cases hread
        · cases hread
      · rename_i hhigh
        obtain ⟨hrest, cs, hspells, hout⟩ := ih _ (by simp only [List.length_cons]; omega) hs hread rfl
        exact ⟨hrest, _, .code hn (by simpa using hhigh) (by simpa using hlow) hspells,
          by rw [hout]; simp⟩

/-- A string that was read as a name spells it. -/
theorem IsString.spells_of_readString (hs : IsString s) {s' : List Char}
    (hread : readString [] (s ++ rest) = .ok (name, s')) : s' = rest ∧ Spells name.toList s := by
  obtain ⟨hrest, cs, hspells, hname⟩ := hs.of_readString hread
  refine ⟨hrest, ?_⟩
  rw [show name = String.ofList cs from hname, String.toList_ofList]
  exact hspells

/-- A string that spells a name is read as the name. -/
theorem Spells.readString_name (hs : Spells name.toList s) :
    readString [] (s ++ rest) = .ok (name, rest) := by
  rw [hs.readString_append, List.reverse_nil, List.nil_append, String.ofList_toList]

/-- A text without marks and escapes is written as it is. -/
theorem spells_plain (hcs : cs.all isPlain = true) : Spells cs (cs ++ ['"']) := by
  induction cs with
  | nil => exact .closed
  | cons c cs ih =>
    rw [List.all_cons, Bool.and_eq_true] at hcs
    exact .plain hcs.1 (ih hcs.2)

end TextureMemory.Json
