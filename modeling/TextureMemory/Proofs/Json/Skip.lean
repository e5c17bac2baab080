import TextureMemory.Proofs.Json.Number
import TextureMemory.Proofs.Json.Strings

/-!
# Passing over what is a value

Whatever is a value by the grammar is passed over, and nothing but the value, however deep it is nested
(`Json.IsValue.skipValue_eq`). The brackets that are open when a value begins are open again when it ends,
so the induction over the value is for any of them (`Json.IsValue.skipFrom_eq`). No more rounds are needed
than the value has characters.
-/

namespace TextureMemory.Json

variable {α : Type} {Item : α → List Char → Prop} {bracket : Bracket} {first : Bool} {items : List α}
  {a : α} {c : Char} {b s t v rest : List Char} {rounds : Nat} {stack : List Bracket}

/-! ## Blanks -/

@[simp] theorem blank_nil : Blank [] := rfl

/-- Blanks are passed over, whatever follows. -/
theorem Blank.skipBlanks_append (hb : Blank b) : skipBlanks (b ++ s) = skipBlanks s :=
  List.dropWhile_append_of_pos fun c hc => List.all_eq_true.mp hb c hc

/-- Behind a blank no number goes on. -/
theorem Blank.stops_append (hb : Blank b) (hs : Stops s) : Stops (b ++ s) := by
  cases b with
  | nil => exact hs
  | cons c b =>
    have hc : isBlank c = true := List.all_eq_true.mp hb c List.mem_cons_self
    simp only [isBlank, Bool.or_eq_true, beq_iff_eq] at hc
    rcases hc with ((rfl | rfl) | rfl) | rfl <;> exact .cons rfl

/-- Nothing that follows an item goes on with a number. -/
theorem Items.stops (hs : Items Item bracket false items s) : Stops (s ++ rest) := by
  cases hs with
  | closed hb =>
    rw [List.append_assoc]
    refine hb.stops_append ?_
    cases bracket <;> exact .cons rfl
  | next hb =>
    rw [List.append_assoc]
    exact hb.stops_append (.cons rfl)

/-- There is at least the end of the bracket. -/
theorem Items.length_pos (hs : Items Item bracket first items s) : 0 < s.length := by
  induction hs with
  | closed => simp
  | first _ _ _ ih => simp only [List.length_append]; omega
  | next => simp only [List.length_append, List.length_cons]; omega

/-! ## Numbers -/

/-- Digits begin with a digit. -/
theorem Digits.any_isDigit (hs : Digits s) : (s ++ rest).head?.any isDigit = true := by
  cases s with
  | nil => exact absurd rfl hs.ne_nil
  | cons c s => exact List.all_eq_true.mp hs.all c List.mem_cons_self

/-- Digits are dropped together. -/
theorem Digits.dropWhile_append (hs : Digits s) :
    (s ++ rest).dropWhile isDigit = rest.dropWhile isDigit :=
  List.dropWhile_append_of_pos fun c hc => List.all_eq_true.mp hs.all c hc

/-- Digits are passed over where no other digit follows. -/
theorem Digits.skipDigits_append (hs : Digits s) (hrest : rest.head?.any isDigit = false) :
    skipDigits (s ++ rest) = .ok rest := by
  rw [skipDigits, if_pos hs.any_isDigit, hs.dropWhile_append]
  cases rest with
  | nil => rfl
  | cons c rest => rw [List.dropWhile_cons_of_neg (by simpa using hrest)]

/-- Digits begin with nothing but a digit. -/
theorem Digits.append_ne (hs : Digits s) (hc : isDigit c = false) : s ++ rest ≠ c :: t := by
  obtain ⟨d, s, rfl⟩ := List.exists_cons_of_ne_nil hs.ne_nil
  intro heq
  obtain rfl : d = c := (List.cons.inj heq).1
  exact Bool.false_ne_true (hc.symm.trans (List.all_eq_true.mp hs.all d List.mem_cons_self))

/-- A whole number consists of digits. -/
theorem IsWhole.digits_all (hs : IsWhole s) : Digits s := by
  cases hs with
  | zero => exact ⟨by decide, rfl⟩
  | digits hs => exact hs

/-- A power of ten is passed over where the number stops. -/
theorem IsExponent.skipExponent_append (hs : IsExponent s) (hrest : Stops rest) :
    skipExponent (s ++ rest) = .ok rest := by
  cases hs with
  | none =>
    cases rest with
    | nil => rfl
    | cons c rest =>
      unfold skipExponent
      rw [List.nil_append]
      simp only [(hrest c rfl).2.2]
      rfl
  | @digits mark sign s hmark hsign hs =>
    have hskip := hs.skipDigits_append hrest.any_isDigit
    rw [List.cons_append, List.append_assoc]
    simp only [List.mem_cons, List.not_mem_nil, or_false] at hsign
    rcases hsign with rfl | rfl | rfl
    · rw [List.nil_append, skipExponent, if_pos hmark, hskip]
      -- Without a sign, the exponent begins with a digit.
      · exact fun _ => hs.append_ne rfl
      · exact fun _ => hs.append_ne rfl
    · rw [List.cons_append, List.nil_append, skipExponent, if_pos hmark, hskip]
    · rw [List.cons_append, List.nil_append, skipExponent, if_pos hmark, hskip]

/-- Behind the digits before the point there is no digit. -/
theorem any_isDigit_of_isFraction {fraction exponent : List Char} (hfraction : IsFraction fraction)
    (hexponent : IsExponent exponent) (hrest : Stops rest) :
    (fraction ++ (exponent ++ rest)).head?.any isDigit = false := by
  cases hfraction with
  | digits => rfl
  | none =>
    cases hexponent with
    | none => exact hrest.any_isDigit
    | @digits mark _ _ hmark =>
      simp only [isExponentMark, Bool.or_eq_true, beq_iff_eq] at hmark
      rcases hmark with rfl | rfl <;> rfl

/-- The digits before the point are passed over, whichever they are. -/
theorem IsWhole.skipUnsigned_append (hs : IsWhole s) (hrest : rest.head?.any isDigit = false) :
    skipUnsigned (s ++ rest) = skipUnsigned ('0' :: rest) := by
  cases hs with
  | zero => rfl
  | digits hs hzero =>
    obtain ⟨c, s, rfl⟩ := List.exists_cons_of_ne_nil hs.ne_nil
    have hskip := hs.skipDigits_append hrest
    rw [List.cons_append] at hskip ⊢
    rw [skipUnsigned, skipUnsigned, hskip, hrest, if_neg Bool.false_ne_true]
    · rfl
    · exact fun _ heq => hzero (congrArg List.head? heq)

/-- Behind a fraction, an exponent may follow. -/
theorem skipUnsigned_zero {fraction exponent : List Char} (hfraction : IsFraction fraction)
    (hexponent : IsExponent exponent) (hrest : Stops rest) :
    skipUnsigned ('0' :: (fraction ++ (exponent ++ rest))) = .ok rest := by
  have hskip := hexponent.skipExponent_append hrest
  have hdigit : (exponent ++ rest).head?.any isDigit = false :=
    any_isDigit_of_isFraction .none hexponent hrest
  rw [skipUnsigned, any_isDigit_of_isFraction hfraction hexponent hrest,
    if_neg Bool.false_ne_true, pure_bind]
  cases hfraction with
  | none =>
    dsimp only
    rw [List.nil_append]
    split
    · rename_i heq
      -- Neither an exponent nor what follows the number begins with a point.
      cases hexponent with
      | none => exact absurd rfl (hrest '.' (congrArg List.head? heq)).2.1
      | digits hmark =>
        rw [(List.cons.inj heq).1] at hmark
        cases hmark
    · exact hskip
  | digits hs =>
    rw [List.cons_append]
    simp only [hs.skipDigits_append hdigit]
    exact hskip

/-- A number is passed over where it stops. -/
theorem IsNumber.skipNumber_append (hs : IsNumber s) (hrest : Stops rest) :
    skipNumber (s ++ rest) = .ok rest := by
  obtain ⟨hsign, hwhole, hfraction, hexponent⟩ := hs
  have hskip := (hwhole.skipUnsigned_append (any_isDigit_of_isFraction hfraction hexponent hrest)).trans
    (skipUnsigned_zero hfraction hexponent hrest)
  simp only [List.mem_cons, List.not_mem_nil, or_false] at hsign
  simp only [List.append_assoc]
  rcases hsign with rfl | rfl
  · rw [List.nil_append, skipNumber, hskip]
    -- Without a sign, the number begins with a digit.
    exact fun _ => hwhole.digits_all.append_ne rfl
  · rw [List.cons_append, List.nil_append, skipNumber, hskip]

/-! ## Values without parts -/

/-- A number begins with a sign or a digit. -/
theorem IsNumber.exists_cons (hs : IsNumber s) :
    ∃ c t, s = c :: t ∧ (c == '-' || isDigit c) = true := by
  obtain ⟨hsign, hwhole, -, -⟩ := hs
  simp only [List.mem_cons, List.not_mem_nil, or_false] at hsign
  rcases hsign with rfl | rfl
  · have hdigits := hwhole.digits_all
    obtain ⟨c, t, rfl⟩ := List.exists_cons_of_ne_nil hdigits.ne_nil
    have hdigit : isDigit c = true := List.all_eq_true.mp hdigits.all c List.mem_cons_self
    exact ⟨c, _, rfl, by rw [hdigit, Bool.or_true]⟩
  · exact ⟨'-', _, rfl, rfl⟩

/-- What begins a number begins nothing else. -/
theorem ne_of_begins_number (hc : (c == '-' || isDigit c) = true) {d : Char}
    (hd : (d == '-' || isDigit d) = false) : c ≠ d := by
  rintro rfl
  exact Bool.false_ne_true (hd.symm.trans hc)

/-- What begins a number is no blank. -/
theorem not_blank_of_begins_number (hc : (c == '-' || isDigit c) = true) : isBlank c = false := by
  refine Bool.eq_false_iff.mpr fun hblank => ?_
  simp only [isBlank, Bool.or_eq_true, beq_iff_eq] at hblank
  rcases hblank with ((rfl | rfl) | rfl) | rfl <;> cases hc

/-- A value begins with neither a blank nor the end of an array. -/
theorem IsValue.exists_cons (hv : IsValue v) :
    ∃ c t, v = c :: t ∧ isBlank c = false ∧ c ≠ ']' := by
  cases hv with
  | number hs =>
    obtain ⟨c, t, rfl, hc⟩ := hs.exists_cons
    exact ⟨c, t, rfl, not_blank_of_begins_number hc, ne_of_begins_number hc rfl⟩
  | _ => exact ⟨_, _, rfl, rfl, by decide⟩

/-- A number is passed over as a value without parts. -/
theorem IsNumber.skipScalar_append (hs : IsNumber s) (hrest : Stops rest) :
    skipScalar (s ++ rest) = .ok rest := by
  have hskip := hs.skipNumber_append hrest
  obtain ⟨c, t, rfl, hc⟩ := hs.exists_cons
  rw [List.cons_append] at hskip ⊢
  rw [skipScalar, if_pos hc, hskip]
  · exact ne_of_begins_number hc rfl
  · exact ne_of_begins_number hc rfl
  · exact ne_of_begins_number hc rfl
  · exact ne_of_begins_number hc rfl

/-! ## One round -/

/-- The character that opens a bracket. -/
def Bracket.opening : Bracket → Char
  | array => '['
  | object => '\x7b'

/-- Blanks before a value take no round. -/
theorem skipFrom_value_append (hb : Blank b) :
    skipFrom rounds .value stack (b ++ s) = skipFrom rounds .value stack s := by
  cases rounds with
  | zero =>
    rw [skipFrom, skipFrom]
    all_goals
      intro h
      cases h
  | succ rounds => rw [skipFrom, skipFrom, hb.skipBlanks_append]

/-- Nor do blanks behind a bracket or a comma. -/
theorem enter_append (hb : Blank b) :
    (enter bracket (b ++ s) >>= skipFrom rounds .value stack) =
      enter bracket s >>= skipFrom rounds .value stack := by
  cases bracket with
  | array => exact skipFrom_value_append hb
  | object => rw [enter, enter, skipKey, skipKey, hb.skipBlanks_append]

/-- A value without parts takes one round. -/
theorem skipFrom_scalar (hblank : isBlank c = false) (harray : c ≠ '[') (hobject : c ≠ '\x7b')
    (hskip : skipScalar (c :: s) = .ok rest) :
    skipFrom (rounds + 1) .value stack (c :: s) = skipFrom rounds .follow stack rest := by
  rw [skipFrom, skipBlanks_cons hblank]
  split
  · rename_i heq
    exact absurd (List.cons.inj heq).1 harray
  · rename_i heq
    exact absurd (List.cons.inj heq).1 hobject
  · rw [hskip]
    rfl

/-- So does a bracket with nothing in it. -/
theorem skipFrom_empty (hb : Blank b) :
    skipFrom (rounds + 1) .value stack (bracket.opening :: (b ++ bracket.closing :: rest)) =
      skipFrom rounds .follow stack rest := by
  have hskip : skipBlanks (b ++ bracket.closing :: rest) = bracket.closing :: rest := by
    rw [hb.skipBlanks_append]
    cases bracket <;> exact skipBlanks_cons rfl
  cases bracket with
  | array =>
    rw [skipFrom, Bracket.opening, skipBlanks_cons rfl]
    simp only [hskip]
    rfl
  | object =>
    rw [skipFrom, Bracket.opening, skipBlanks_cons rfl]
    simp only [hskip]
    rfl

/-- One round opens a bracket, and goes on with what is in it. -/
theorem skipFrom_opening (hb : Blank b) (hblank : isBlank c = false) (hc : c ≠ bracket.closing) :
    skipFrom (rounds + 1) .value stack (bracket.opening :: (b ++ c :: s)) =
      enter bracket (c :: s) >>= skipFrom rounds .value (bracket :: stack) := by
  have hskip : skipBlanks (b ++ c :: s) = c :: s := by
    rw [hb.skipBlanks_append, skipBlanks_cons hblank]
  cases bracket with
  | array =>
    rw [skipFrom, Bracket.opening, skipBlanks_cons rfl]
    simp only [hskip, if_neg hc]
  | object =>
    rw [skipFrom, Bracket.opening, skipBlanks_cons rfl]
    simp only [hskip, if_neg hc]

/-- One round takes a comma, and goes on with the next item of the open bracket. -/
theorem skipFrom_comma (hb : Blank b) :
    skipFrom (rounds + 1) .follow (bracket :: stack) (b ++ ',' :: s) =
      enter bracket s >>= skipFrom rounds .value (bracket :: stack) := by
  rw [skipFrom, hb.skipBlanks_append, skipBlanks_cons rfl]
  rfl

/-- One round closes the bracket that was opened last. -/
theorem skipFrom_closing (hb : Blank b) :
    skipFrom (rounds + 1) .follow (bracket :: stack) (b ++ bracket.closing :: rest) =
      skipFrom rounds .follow stack rest := by
  rw [skipFrom, hb.skipBlanks_append]
  cases bracket with
  | array =>
    rw [Bracket.closing, skipBlanks_cons rfl]
    rfl
  | object =>
    rw [Bracket.closing, skipBlanks_cons rfl]
    rfl

/-! ## Values with parts -/

/-- A text that is passed over within a bracket, in at most as many rounds as it has characters. -/
structure Passes (bracket : Bracket) (t : List Char) : Prop where
  begins : ∃ c s, t = c :: s ∧ isBlank c = false ∧ c ≠ bracket.closing
  skips : ∃ k ≤ t.length, ∀ rounds stack rest, Stops rest →
    (enter bracket (t ++ rest) >>= skipFrom (rounds + k) .value (bracket :: stack)) =
      skipFrom rounds .follow (bracket :: stack) rest

/-- Items that follow another one are passed over, and so is the end of their bracket. -/
theorem Items.skipFrom_follow (hs : Items Item bracket false items s)
    (hitems : ∀ a ∈ items, ∀ t, Item a t → Passes bracket t) :
    ∃ k ≤ s.length, ∀ rounds stack rest,
      skipFrom (rounds + k) .follow (bracket :: stack) (s ++ rest) =
        skipFrom rounds .follow stack rest := by
  generalize hfirst : false = first at hs
  induction hs with
  | closed hb =>
    refine ⟨1, by simp, fun rounds stack rest => ?_⟩
    rw [List.append_assoc, List.singleton_append, skipFrom_closing hb]
  | first => cases hfirst
  | @next a items b b' t s hb hb' ha hs ih =>
    obtain ⟨k, hk, hskip⟩ := (hitems a List.mem_cons_self t ha).skips
    obtain ⟨l, hl, hrest⟩ := ih (fun a ha => hitems a (List.mem_cons_of_mem _ ha)) rfl
    refine ⟨l + k + 1, by simp; omega, fun rounds stack rest => ?_⟩
    have hround : rounds + (l + k + 1) = rounds + l + k + 1 := by omega
    simp only [List.append_assoc, List.cons_append]
    rw [hround, skipFrom_comma hb, enter_append hb', hskip _ _ _ hs.stops, hrest]

/-- Items are passed over from the bracket that opens them to its end. -/
theorem Items.skipFrom_value (hs : Items Item bracket true items s)
    (hitems : ∀ a ∈ items, ∀ t, Item a t → Passes bracket t) :
    ∃ k ≤ s.length + 1, ∀ rounds stack rest,
      skipFrom (rounds + k) .value stack (bracket.opening :: (s ++ rest)) =
        skipFrom rounds .follow stack rest := by
  cases hs with
  | closed hb =>
    refine ⟨1, by simp, fun rounds stack rest => ?_⟩
    rw [List.append_assoc, List.singleton_append, skipFrom_empty hb]
  | @first a items b t s hb ha hs =>
    have hpasses := hitems a List.mem_cons_self t ha
    obtain ⟨k, hk, hskip⟩ := hpasses.skips
    obtain ⟨l, hl, hrest⟩ := hs.skipFrom_follow fun a ha => hitems a (List.mem_cons_of_mem _ ha)
    refine ⟨l + k + 1, by simp; omega, fun rounds stack rest => ?_⟩
    obtain ⟨c, t, rfl, hblank, hc⟩ := hpasses.begins
    have hround : rounds + (l + k + 1) = rounds + l + k + 1 := by omega
    rw [hround, List.append_assoc, List.append_assoc, List.cons_append,
      skipFrom_opening hb hblank hc]
    exact (hskip _ _ _ hs.stops).trans (hrest _ _ _)

/-- The name of a member is passed over with the colon behind it. -/
theorem skipKey_append {name : List Char} (hname : IsString name) (hb : Blank b) :
    skipKey ('"' :: (name ++ (b ++ ':' :: s))) = .ok s := by
  rw [skipKey, skipBlanks_cons rfl]
  simp only [hname.skipString_append]
  change readColon (b ++ ':' :: s) = .ok s
  rw [readColon, hb.skipBlanks_append]
  rfl

/-- A value is passed over within any brackets, in at most as many rounds as it has characters. -/
theorem IsValue.skipFrom_eq (hv : IsValue v) :
    ∃ k ≤ v.length, ∀ rounds stack rest, Stops rest →
      skipFrom (rounds + k) .value stack (v ++ rest) = skipFrom rounds .follow stack rest := by
  induction hv with
  | null => exact ⟨1, by decide, fun _ _ _ _ => skipFrom_scalar rfl (by decide) (by decide) rfl⟩
  | yes => exact ⟨1, by decide, fun _ _ _ _ => skipFrom_scalar rfl (by decide) (by decide) rfl⟩
  | no => exact ⟨1, by decide, fun _ _ _ _ => skipFrom_scalar rfl (by decide) (by decide) rfl⟩
  | number hs =>
    refine ⟨1, ?_, fun rounds stack rest hrest => ?_⟩
    · obtain ⟨c, t, rfl, -⟩ := hs.exists_cons
      simp
    · have hskip := hs.skipScalar_append hrest
      obtain ⟨c, t, rfl, hc⟩ := hs.exists_cons
      exact skipFrom_scalar (not_blank_of_begins_number hc) (ne_of_begins_number hc rfl)
        (ne_of_begins_number hc rfl) hskip
  | string hs =>
    refine ⟨1, by simp, fun rounds stack rest _ => ?_⟩
    exact skipFrom_scalar rfl (by decide) (by decide) hs.skipString_append
  | @array values s hvalues hs ih =>
    have hitems : ∀ v ∈ values, ∀ t, v = t → Passes .array t := by
      rintro v hv _ rfl
      obtain ⟨k, hk, hskip⟩ := ih v hv
      exact ⟨(hvalues v hv).exists_cons, k, hk, fun rounds stack rest => hskip rounds _ rest⟩
    obtain ⟨k, hk, hskip⟩ := hs.skipFrom_value hitems
    exact ⟨k, hk, fun rounds stack rest _ => hskip rounds stack rest⟩
  | @object members s hnames hvalues hs ih =>
    have hitems : ∀ m ∈ members, ∀ t, IsMember m t → Passes .object t := by
      rintro ⟨name, v⟩ hm _ ⟨b, b', hb, hb', rfl⟩
      obtain ⟨k, hk, hskip⟩ := ih _ hm
      refine ⟨⟨_, _, rfl, rfl, by decide⟩, k, by simp at hk ⊢; omega, fun rounds stack rest hrest => ?_⟩
      simp only [List.append_assoc, List.cons_append]
      rw [enter, skipKey_append (hnames _ hm) hb]
      exact (skipFrom_value_append hb').trans (hskip _ _ _ hrest)
    obtain ⟨k, hk, hskip⟩ := hs.skipFrom_value hitems
    exact ⟨k, hk, fun rounds stack rest _ => hskip rounds stack rest⟩

/-- A value is passed over, however deep it is nested, and nothing but the value. -/
theorem IsValue.skipValue_eq (hv : IsValue v) (hrest : Stops rest) (hb : Blank b)
    (hrounds : v.length ≤ rounds) : skipValue rounds (b ++ (v ++ rest)) = .ok rest := by
  obtain ⟨k, hk, hskip⟩ := hv.skipFrom_eq
  obtain ⟨n, rfl⟩ := Nat.exists_eq_add_of_le (Nat.le_trans hk hrounds)
  rw [skipValue, skipFrom_value_append hb, Nat.add_comm, hskip _ _ _ hrest, skipFrom_follow_nil]

end TextureMemory.Json
