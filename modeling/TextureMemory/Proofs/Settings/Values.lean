import TextureMemory.Proofs.Json.Exact

/-!
# Values in the text of settings

A number is given by the digits of a machine word, and a memory class by its name, or by an object whose
only member has that name and is null. These texts are read as what they stand for, in front of anything
that does not belong to them (`Json.naturalField_reads`, `Json.IsClass.readClass_append`). Whatever other
value is read as a number or as a class, it is read to its end (`Json.naturalField_exact`,
`Json.IsValue.of_readClass`).
-/

namespace TextureMemory

/-- A class is found by its name. -/
theorem MemoryClass.ofName?_name (c : MemoryClass) : ofName? c.name = some c := by
  cases c with
  | main => rfl
  | only p => cases p <;> rfl

namespace Json

/-- The text of a machine word: its digits. -/
structure IsWord (n : Nat) (t : List Char) : Prop where
  lt : n < Word.limit
  digits : t = Nat.toDigits 10 n

/-- The texts of a memory class: its name, or an object whose only member has that name and is null. -/
inductive IsClass (c : MemoryClass) : List Char → Prop
  | name {key : List Char} (hkey : Spells c.name.toList key) : IsClass c ('"' :: key)
  | object {t : List Char} (ht : IsObject [(c.name, ['n', 'u', 'l', 'l'])] t) : IsClass c t

variable {ρ : Type} {name : String} {expected : Expected} {set : ρ → Nat → ρ} {n : Nat} {c c' : MemoryClass}
  {b b' key v s t rest : List Char}

/-! ## Numbers -/

/-- A word is written in digits. -/
theorem isWord_toString (hn : n < Word.limit) : IsWord n (toString n).toList :=
  ⟨hn, by rw [Nat.toString_eq_repr, Nat.toList_repr]⟩

/-- Blanks before the value of a field do not matter. -/
theorem naturalField_append {r : ρ} (hb : Blank b) :
    (naturalField name expected set).read r (b ++ s) = (naturalField name expected set).read r s := by
  simp only [naturalField, readNatural_append hb]

/-- A field is read from the text of its word. -/
theorem naturalField_reads (ht : IsWord n t) : (naturalField name expected set).Reads t (set · n) := by
  obtain ⟨hn, rfl⟩ := ht
  intro r rest hrest
  simp only [naturalField, readNatural_toDigits expected hn hrest]
  rfl

/-- A word is a number without a point. -/
theorem IsWord.isValue (ht : IsWord n t) : IsValue t := by
  obtain ⟨-, rfl⟩ := ht
  obtain ⟨c, digits, heq, hzero⟩ := exists_toDigits n
  have hdigits : (c :: digits).all isDigit = true := List.all_eq_true.mpr fun d hd =>
    isDigit_of_isDigit (Nat.isDigit_of_mem_toDigits (by decide) (by decide) (heq ▸ hd))
  have hwhole : IsWhole (c :: digits) := by
    by_cases hc : c = '0'
    · rw [hzero hc, hc]
      exact .zero
    · exact .digits ⟨List.cons_ne_nil _ _, hdigits⟩ fun hhead => hc (Option.some.inj hhead)
  have hnumber := IsNumber.mk (List.mem_cons_self (a := [])) hwhole .none .none
  rw [List.nil_append, List.append_nil, List.append_nil] at hnumber
  exact heq ▸ .number hnumber

/-- No field that holds a word is read beyond the end of its value. -/
theorem naturalField_exact : (naturalField name expected set).Exact := by
  intro v hv r rest out hrest h
  simp only [naturalField, bind, Except.bind] at h
  cases hread : readNatural expected (v ++ rest) with
  | error e =>
    rw [hread] at h
    cases h
  | ok read =>
    obtain ⟨n, s⟩ := read
    rw [hread] at h
    cases h
    exact hv.of_readNatural hrest hread

/-! ## Memory classes -/

theorem readClass_append (hb : Blank b) : readClass (b ++ s) = readClass s := by
  rw [readClass, readClass, hb.skipBlanks_append]

/-- The name of a class is the name of that class. -/
theorem classOfName_name (c : MemoryClass) : classOfName c.name = .ok c := by
  rw [classOfName, MemoryClass.ofName?_name]

/-- There is nothing to escape in the name of a class. -/
theorem isPlain_name (c : MemoryClass) : c.name.toList.all isPlain = true := by
  cases c with
  | main => rfl
  | only p => cases p <;> rfl

/-- The name of a class without escapes is a text of the class. -/
theorem isClass_name (c : MemoryClass) : IsClass c ("\"" ++ c.name ++ "\"").toList := by
  rw [String.toList_append, String.toList_append]
  exact .name (spells_plain (isPlain_name c))

/-- Reads the end of the object of a class. -/
def readClassEnd (c : MemoryClass) (s : List Char) : Except Error (MemoryClass × List Char) :=
  match skipBlanks s with
  | [] => .error .truncated
  | d :: s => if d = '\x7d' then .ok (c, s) else .error .malformed

/-- Reads what is behind the name in the object of a class: a null, and the end of the object. -/
def readClassMark (c : MemoryClass) (s : List Char) : Except Error (MemoryClass × List Char) := do
  let s ← match skipBlanks (← readColon s) with
    | 'n' :: s => readWord ['u', 'l', 'l'] s
    | s => .error (wrongType .unit s)
  readClassEnd c s

/-- The object of a class is read as its name and what is behind that. -/
theorem readClass_quote (hb : Blank b) :
    readClass ('\x7b' :: (b ++ '"' :: s)) = (do
      let read ← readString [] s
      let c ← classOfName read.1
      readClassMark c read.2) := by
  rw [readClass, skipBlanks_cons rfl]
  simp only [hb.skipBlanks_append, skipBlanks_cons (rfl : isBlank '"' = false)]
  rfl

/-- The mark of the class is passed over with the blanks around it. -/
theorem readClassMark_null (hb : Blank b) (hb' : Blank b') :
    readClassMark c (b ++ ':' :: (b' ++ 'n' :: 'u' :: 'l' :: 'l' :: s)) = readClassEnd c s := by
  rw [readClassMark, readColon_append hb]
  simp only [bind, Except.bind, hb'.skipBlanks_append, skipBlanks_cons (rfl : isBlank 'n' = false)]
  rfl

/-- The end of the object is passed over with the blanks before it. -/
theorem readClassEnd_closing (hb : Blank b) : readClassEnd c (b ++ '\x7d' :: s) = .ok (c, s) := by
  rw [readClassEnd, hb.skipBlanks_append]
  rfl

/-- Every text of a class is read as the class. -/
theorem IsClass.readClass_append (ht : IsClass c t) : readClass (t ++ rest) = .ok (c, rest) := by
  cases ht with
  | name hkey =>
    rw [List.cons_append, readClass, skipBlanks_cons rfl]
    simp only [bind, Except.bind, hkey.readString_name, classOfName_name]
    rfl
  | object ht =>
    obtain ⟨s, rfl, hs⟩ := ht.layout
    obtain _ | ⟨hb, ⟨key, hkey, b₁, b₂, hb₁, hb₂, rfl⟩, hs⟩ := hs
    obtain ⟨hb₃⟩ := hs
    simp only [List.append_assoc, List.cons_append, List.nil_append]
    rw [readClass_quote hb, hkey.readString_name]
    simp only [bind, Except.bind, classOfName_name]
    rw [readClassMark_null hb₁ hb₂]
    exact readClassEnd_closing hb₃

/-- The texts of a class are values. -/
theorem IsClass.isValue (ht : IsClass c t) : IsValue t := by
  cases ht with
  | name hkey => exact .string hkey.isString
  | object ht => exact .of_isObject ht

/-- Where the object of a class is read behind its name, its only member is null. -/
theorem IsValue.of_readClassMark {members : List (List Char × List Char)} (hv : IsValue v)
    (hb : Blank b) (hb' : Blank b') (hs : Items IsMember .object false members t)
    (h : readClassMark c (b ++ ':' :: (b' ++ (v ++ (t ++ rest)))) = .ok (c', s)) : s = rest := by
  cases hv with
  | null =>
    simp only [List.cons_append, List.nil_append] at h
    rw [readClassMark_null hb hb'] at h
    cases hs with
    | closed hb₃ =>
      rw [List.append_assoc, Bracket.closing, List.singleton_append, readClassEnd_closing hb₃] at h
      cases h
      rfl
    | next hb₃ =>
      rw [List.append_assoc, readClassEnd, hb₃.skipBlanks_append] at h
      cases h
  | number hs =>
    obtain ⟨d, v, rfl, hd⟩ := hs.exists_cons
    rw [readClassMark, readColon_append hb] at h
    simp only [bind, Except.bind, hb'.skipBlanks_append, List.cons_append,
      skipBlanks_cons (not_blank_of_begins_number hd)] at h
    split at h
    · rename_i heq
      exact absurd (List.cons.inj heq).1 (ne_of_begins_number hd rfl)
    · cases h
  | _ =>
    rw [readClassMark, readColon_append hb] at h
    simp only [bind, Except.bind, hb'.skipBlanks_append] at h
    cases h

/-- A value that is read as a class is read to its end. -/
theorem IsValue.of_readClass (hv : IsValue v) (h : readClass (v ++ rest) = .ok (c, s)) : s = rest := by
  cases hv with
  | number hs =>
    obtain ⟨d, v, rfl, hd⟩ := hs.exists_cons
    rw [List.cons_append, readClass, skipBlanks_cons (not_blank_of_begins_number hd)] at h
    split at h
    · cases h
    · rename_i heq
      exact absurd (List.cons.inj heq).1 (ne_of_begins_number hd rfl)
    · rename_i heq
      exact absurd (List.cons.inj heq).1 (ne_of_begins_number hd rfl)
    · cases h
  | string hs =>
    rw [List.cons_append, readClass, skipBlanks_cons rfl] at h
    simp only [bind, Except.bind] at h
    split at h
    · cases h
    rename_i read hread
    split at h
    · cases h
    cases h
    exact (hs.spells_of_readString hread).1
  | object hnames hvalues hs =>
    obtain ⟨hb⟩ | ⟨hb, ⟨b₁, b₂, hb₁, hb₂, rfl⟩, hs⟩ := hs
    · rw [List.cons_append, List.append_assoc, readClass, skipBlanks_cons rfl] at h
      simp only [hb.skipBlanks_append] at h
      cases h
    · simp only [List.append_assoc, List.cons_append] at h
      rw [readClass_quote hb] at h
      simp only [bind, Except.bind] at h
      split at h
      · cases h
      rename_i read hread
      split at h
      · cases h
      rw [((hnames _ List.mem_cons_self).spells_of_readString hread).1] at h
      exact (hvalues _ List.mem_cons_self).of_readClassMark hb₁ hb₂ hs h
  | _ => cases h

end Json

end TextureMemory
