import TextureMemory.Json.Record

/-!
# Reading what was written: numbers

A machine word is written by its decimal digits. Digits that are read are appended to a number for as long as
it stays a word, and no part of the digits of a word spells more than the word itself, so all of them are
read (`Json.extend_append`). The first is no zero unless it is the only one. What comes behind the digits must
be nothing that a number may go on with (`Json.Stops`).
-/

namespace TextureMemory.Json

/-- No number goes on with the characters that are left. -/
def Stops (s : List Char) : Prop :=
  ∀ c, s.head? = some c → isDigit c = false ∧ c ≠ '.' ∧ isExponentMark c = false

variable {c : Char} {s digits : List Char} {n : Nat}

/-- A character that no number goes on with stops it. -/
theorem Stops.cons (h : (isDigit c || c == '.' || isExponentMark c) = false) : Stops (c :: s) := by
  rintro _ ⟨⟩
  simp only [Bool.or_eq_false_iff, beq_eq_false_iff_ne] at h
  exact ⟨h.1.1, h.1.2, h.2⟩

/-- There are no digits where a number stops. -/
theorem Stops.takeWhile_isDigit (h : Stops s) : s.takeWhile isDigit = [] := by
  cases s with
  | nil => rfl
  | cons c s => exact List.takeWhile_cons_of_neg (Bool.eq_false_iff.mp (h c rfl).1)

theorem Stops.dropWhile_isDigit (h : Stops s) : s.dropWhile isDigit = s := by
  cases s with
  | nil => rfl
  | cons c s => exact List.dropWhile_cons_of_neg (Bool.eq_false_iff.mp (h c rfl).1)

theorem Stops.any_isDigit (h : Stops s) : s.head?.any isDigit = false := by
  cases s with
  | nil => rfl
  | cons c s => exact (h c rfl).1

theorem Stops.any_isExponentMark (h : Stops s) : s.head?.any isExponentMark = false := by
  cases s with
  | nil => rfl
  | cons c s => exact (h c rfl).2.2

/-! ## Digits -/

/-- The value of a digit is its distance from zero. -/
theorem digit?_of_isDigit (h : c.isDigit = true) : digit? c = some (c.toNat - '0'.toNat) := by
  simp only [Char.isDigit, Bool.and_eq_true, decide_eq_true_eq] at h
  exact if_pos h

/-- Zero is the digit that stands for nothing. -/
theorem eq_zero_of_isDigit (h : c.isDigit = true) (hnone : c.toNat - '0'.toNat = 0) : c = '0' := by
  simp only [Char.isDigit, Bool.and_eq_true, decide_eq_true_eq] at h
  have hle : '0'.toNat ≤ c.toNat := h.1
  exact Char.toNat_inj.mp (by omega)

/-- The digits of numbers are those of all characters. -/
theorem isDigit_of_isDigit (h : c.isDigit = true) : isDigit c = true := by
  rw [isDigit, digit?_of_isDigit h]
  rfl

/-- More digits do not make a number smaller. -/
theorem le_ofDigitChars : n ≤ Nat.ofDigitChars 10 digits n := by
  induction digits generalizing n with
  | nil => exact Nat.le_refl n
  | cons c digits ih =>
    rw [Nat.ofDigitChars_cons]
    exact Nat.le_trans (by omega) ih

/-- As long as digits spell a word, all of them are appended. -/
theorem extend_append (hdigits : ∀ c ∈ digits, c.isDigit = true) (hstops : Stops s)
    (hlt : Nat.ofDigitChars 10 digits n < Word.limit) :
    extend n (digits ++ s) = (Nat.ofDigitChars 10 digits n, s) := by
  induction digits generalizing n with
  | nil =>
    cases s with
    | nil => rfl
    | cons c s =>
      have hnone : digit? c = none := Option.not_isSome_iff_eq_none.mp
        (Bool.eq_false_iff.mp (hstops c rfl).1)
      simp only [List.nil_append, extend, hnone]
      rfl
  | cons c digits ih =>
    have hdigit := digit?_of_isDigit (hdigits c List.mem_cons_self)
    rw [Nat.ofDigitChars_cons, Nat.mul_comm] at hlt ⊢
    have hword : n * 10 + (c.toNat - '0'.toNat) < Word.limit :=
      Nat.lt_of_le_of_lt le_ofDigitChars hlt
    rw [List.cons_append, extend]
    simp only [hdigit, if_pos hword]
    exact ih (fun c hc => hdigits c (List.mem_cons_of_mem _ hc)) hlt

/-- A number begins with zero only if it is zero. -/
theorem exists_toDigits (n : Nat) :
    ∃ c digits, Nat.toDigits 10 n = c :: digits ∧ (c = '0' → digits = []) := by
  induction n using Nat.strongRecOn with
  | ind n ih =>
    rw [Nat.toDigits_eq_if (by decide)]
    by_cases hlt : n < 10
    · exact ⟨_, [], if_pos hlt, fun _ => rfl⟩
    · obtain ⟨c, digits, heq, hzero⟩ := ih (n / 10) (by omega)
      rw [if_neg hlt, heq]
      refine ⟨c, _, rfl, ?_⟩
      rintro rfl
      -- The digits in front of the last one are those of a number that is not zero.
      rw [hzero rfl] at heq
      have hvalue := Nat.ofDigitChars_ten_toDigits (n := n / 10)
      rw [heq] at hvalue
      have hnone : n / 10 = 0 := hvalue.symm
      omega

/-! ## Numbers -/

/-- What is no blank is not passed over as one. -/
theorem skipBlanks_cons (h : isBlank c = false) : skipBlanks (c :: s) = c :: s :=
  List.dropWhile_cons_of_neg (Bool.eq_false_iff.mp h)

/-- No digit is a blank. -/
theorem isBlank_of_isDigit (h : c.isDigit = true) : isBlank c = false := by
  refine Bool.eq_false_iff.mpr fun hblank => ?_
  simp only [isBlank, Bool.or_eq_true, beq_iff_eq] at hblank
  rcases hblank with ((rfl | rfl) | rfl) | rfl <;> cases h

/-- A number that begins with a digit has no sign. -/
theorem readNumber_of_isDigit (h : c.isDigit = true) :
    readNumber (c :: s) = readUnsigned false (c :: s) := by
  rw [readNumber]
  rintro _ ⟨⟩
  cases h

/-- Digits that are followed by nothing that belongs to a number are read as the word that they spell. -/
theorem readUnsigned_append {first : Nat} (hfirst : digit? c = some first)
    (hzero : first = 0 → digits = []) (hdigits : ∀ d ∈ digits, d.isDigit = true) (hstops : Stops s)
    (hlt : Nat.ofDigitChars 10 digits first < Word.limit) :
    readUnsigned false (c :: (digits ++ s)) =
      .ok (.natural (Nat.ofDigitChars 10 digits first), s) := by
  have hsingle : (first = 0 && (digits ++ s).head?.any isDigit) = false := by
    by_cases hz : first = 0
    · rw [hzero hz, List.nil_append, hstops.any_isDigit, Bool.and_false]
    · rw [decide_eq_false hz, Bool.false_and]
  rw [readUnsigned]
  simp only [hfirst, hsingle, extend_append hdigits hstops hlt, hstops.takeWhile_isDigit,
    hstops.dropWhile_isDigit]
  rw [if_neg Bool.false_ne_true]
  split
  · exact absurd rfl (hstops '.' rfl).2.1
  · rw [hstops.any_isExponentMark, if_neg Bool.false_ne_true, if_pos List.length_nil]
    rfl

/-- The digits of a word are read as that word. -/
theorem readNumber_toDigits (hn : n < Word.limit) (hstops : Stops s) :
    readNumber (Nat.toDigits 10 n ++ s) = .ok (.natural n, s) := by
  obtain ⟨c, digits, heq, hzero⟩ := exists_toDigits n
  have hdigits : ∀ d ∈ c :: digits, d.isDigit = true := fun d hd =>
    Nat.isDigit_of_mem_toDigits (by decide) (by decide) (heq ▸ hd)
  have hvalue : Nat.ofDigitChars 10 digits (c.toNat - '0'.toNat) = n := by
    have hall := Nat.ofDigitChars_ten_toDigits (n := n)
    rwa [heq, Nat.ofDigitChars_cons, Nat.mul_zero, Nat.zero_add] at hall
  have hdigit : c.isDigit = true := hdigits c List.mem_cons_self
  have hsingle : c.toNat - '0'.toNat = 0 → digits = [] := fun hnone =>
    hzero (eq_zero_of_isDigit hdigit hnone)
  rw [heq, List.cons_append, readNumber_of_isDigit hdigit,
    readUnsigned_append (digit?_of_isDigit hdigit) hsingle
      (fun d hd => hdigits d (List.mem_cons_of_mem _ hd)) hstops (by rwa [hvalue]), hvalue]

/-- The digits of a word are read where a word is expected. -/
theorem readNatural_toDigits (expected : Expected) (hn : n < Word.limit) (hstops : Stops s) :
    readNatural expected (Nat.toDigits 10 n ++ s) = .ok (n, s) := by
  obtain ⟨c, digits, heq, -⟩ := exists_toDigits n
  have hnumber := readNumber_toDigits hn hstops
  have hdigit : c.isDigit = true :=
    Nat.isDigit_of_mem_toDigits (by decide) (by decide) (heq ▸ List.mem_cons_self)
  rw [heq, List.cons_append] at hnumber ⊢
  rw [readNatural, skipBlanks_cons (isBlank_of_isDigit hdigit)]
  simp only [isDigit_of_isDigit hdigit, Bool.or_true, if_true, hnumber]
  rfl

end TextureMemory.Json
