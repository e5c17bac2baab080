import TextureMemory.Proofs.Json.Forms

/-!
# What was read is the whole value

A reader need not accept a value. But where it does, it ends with the value (`Json.Field.Exact`), whatever
the value is and whatever follows, so that what is read behind it is read as it would be otherwise. From
this follows what a record that was read from an object or an array cannot have been: no field was given
twice (`Json.Items.of_readMembers`), and there were no more values than fields
(`Json.Items.of_readElements`).
-/

namespace TextureMemory.Json

variable {n : Nat} {negative : Bool} {significand : Nat} {exponent : Int} {x : Number}
  {s s' v rest : List Char} {expected : Expected}

/-! ## Numbers -/

/-- What is finished as a double is a double. -/
theorem exists_of_fractional (h : fractional negative significand exponent = .ok x) :
    ∃ bits, x = .fractional bits := by
  rw [fractional] at h
  split at h
  · cases h
  · cases h
    exact ⟨_, rfl⟩

/-- A number that is finished as a double is no word. -/
theorem exists_of_bind_fractional
    (h : (do return (← fractional negative significand exponent, s)) = Except.ok (x, s')) :
    ∃ bits, x = .fractional bits := by
  cases hx : fractional negative significand exponent with
  | error e =>
    rw [hx] at h
    cases h
  | ok y =>
    rw [hx] at h
    cases h
    exact exists_of_fractional hx

/-- A number with a power of ten is read as a double. -/
theorem exists_of_readExponent (h : readExponent negative significand exponent s = .ok (x, s')) :
    ∃ bits, x = .fractional bits := by
  unfold readExponent at h
  dsimp only at h
  split at h
  · cases h
  split at h
  · cases h
  -- Whatever the sign of the exponent, the number is finished in one of the same two places.
  split at h
  all_goals
    dsimp only at h
    split at h
    · exact exists_of_bind_fractional h
    split at h
    · cases h
    · exact exists_of_bind_fractional h

/-- A number with digits behind its point is read as a double. -/
theorem exists_of_readFraction (h : readFraction negative significand exponent s = .ok (x, s')) :
    ∃ bits, x = .fractional bits := by
  unfold readFraction at h
  split at h
  · cases h
  dsimp only at h
  split at h
  · cases h
  split at h
  · exact exists_of_bind_fractional h
  split at h
  · exact exists_of_readExponent h
  · exact exists_of_bind_fractional h

/-- A number that is finished as a word had no sign. -/
theorem natural_of_whole (h : whole negative significand = .ok (.natural n)) : negative = false := by
  rw [whole] at h
  split at h
  · simpa using ‹(!negative) = true›
  split at h
  · cases h
  · obtain ⟨bits, hbits⟩ := exists_of_fractional h
    cases hbits

/-- Where digits are appended to a number, only digits are taken. -/
theorem dropWhile_extend : (extend n s).2.dropWhile isDigit = s.dropWhile isDigit := by
  induction s generalizing n with
  | nil => rfl
  | cons c s ih =>
    rw [extend]
    split
    · rfl
    · rename_i d hd
      split
      · rw [ih, List.dropWhile_cons_of_pos (by rw [isDigit, hd]; rfl)]
      · rfl

/-- A word that was read consists of the digits at the front, and no number goes on behind them. -/
theorem of_readUnsigned (h : readUnsigned negative s = .ok (.natural n, s')) :
    negative = false ∧ s' = s.dropWhile isDigit ∧ Stops s' := by
  unfold readUnsigned at h
  split at h
  · cases h
  rename_i c s
  split at h
  · rename_i first hfirst
    have hdigit : isDigit c = true := by
      rw [isDigit, hfirst]
      rfl
    dsimp only at h
    split at h
    · cases h
    rw [dropWhile_extend] at h
    rw [List.dropWhile_cons_of_pos hdigit]
    generalize hrest : s.dropWhile isDigit = rest at h
    split at h
    · obtain ⟨bits, hbits⟩ := exists_of_readFraction h
      cases hbits
    rename_i hpoint
    split at h
    · obtain ⟨bits, hbits⟩ := exists_of_readExponent h
      cases hbits
    rename_i hmark
    split at h
    · cases hwhole : whole negative (extend first s).1 with
      | error e =>
        rw [hwhole] at h
        cases h
      | ok y =>
        rw [hwhole] at h
        cases h
        refine ⟨natural_of_whole hwhole, rfl, fun d hd => ⟨?_, ?_, ?_⟩⟩
        · have hfirst := List.head?_dropWhile_not isDigit s
          rw [hrest, hd] at hfirst
          exact hfirst
        · rintro rfl
          obtain ⟨t, rfl⟩ := List.head?_eq_some_iff.mp hd
          exact hpoint t rfl
        · rw [hd] at hmark
          exact Bool.eq_false_iff.mpr hmark
    · obtain ⟨bits, hbits⟩ := exists_of_bind_fractional h
      cases hbits
  · cases h

/-- The digits of a whole number are passed over together. -/
theorem IsWhole.dropWhile_append (hs : IsWhole s) (hrest : rest.head?.any isDigit = false) :
    (s ++ rest).dropWhile isDigit = rest := by
  rw [hs.digits_all.dropWhile_append]
  cases rest with
  | nil => rfl
  | cons c rest => exact List.dropWhile_cons_of_neg (by simpa using hrest)

/-- A number that is read as a word ends with its digits. -/
theorem IsNumber.of_readNumber (hs : IsNumber s) (hrest : Stops rest)
    (h : readNumber (s ++ rest) = .ok (.natural n, s')) : s' = rest := by
  obtain ⟨hsign, hwhole, hfraction, hexponent⟩ := hs
  simp only [List.mem_cons, List.not_mem_nil, or_false] at hsign
  simp only [List.append_assoc] at h
  rcases hsign with rfl | rfl
  · rw [List.nil_append, readNumber] at h
    · obtain ⟨-, heq, hstops⟩ := of_readUnsigned h
      rw [hwhole.dropWhile_append (any_isDigit_of_isFraction hfraction hexponent hrest)] at heq
      subst heq
      -- A point or an exponent would go on with the number.
      cases hfraction with
      | digits => exact absurd rfl (hstops '.' rfl).2.1
      | none =>
        cases hexponent with
        | none => rfl
        | digits hmark => exact absurd hmark (Bool.eq_false_iff.mp (hstops _ rfl).2.2)
    · exact fun _ => hwhole.digits_all.append_ne rfl
  · rw [List.cons_append, List.nil_append, readNumber] at h
    exact absurd (of_readUnsigned h).1 Bool.noConfusion

/-- A value that is read as a word is read to its end. -/
theorem IsValue.of_readNatural (hv : IsValue v) (hrest : Stops rest)
    (h : readNatural expected (v ++ rest) = .ok (n, s)) : s = rest := by
  cases hv with
  | number hs =>
    have hread : ∀ s', readNumber (v ++ rest) = .ok (.natural n, s') → s' = rest :=
      fun s' h => hs.of_readNumber hrest h
    obtain ⟨c, t, rfl, hc⟩ := hs.exists_cons
    rw [List.cons_append] at h hread
    rw [readNatural, skipBlanks_cons (not_blank_of_begins_number hc)] at h
    simp only [hc, if_true, bind, Except.bind] at h
    split at h
    · cases h
    rename_i out hout
    split at h
    · cases h
      exact hread _ hout
    · cases h
    · cases h
  | _ => cases h

/-! ## Records -/

variable {ρ α : Type} {fields : List (Field ρ)} {field : Field ρ} {seen : List String} {default r r' : ρ}
  {first : Bool} {rounds : Nat} {items : List α} {a : α} {out : ρ × List Char}
  {members : List (String × List Char)} {values : List (List Char)} {t : List Char}

/-- Where a value is read, it is read to its end. -/
def Field.Exact (f : Field ρ) : Prop :=
  ∀ v, IsValue v → ∀ r rest out, Stops rest → f.read r (v ++ rest) = .ok out → out.2 = rest

/-- The text is read as a value of the field, at some place. -/
def Field.Accepts (f : Field ρ) (v : List Char) : Prop :=
  ∃ r rest out, Stops rest ∧ f.read r (v ++ rest) = .ok out

section

variable {Key : α → List Char → Prop} {name : α → String} {value : α → List Char}

/-- The text of a member whose name is written by one of its keys. -/
def IsKeyed (Key : α → List Char → Prop) (value : α → List Char) (a : α) (t : List Char) : Prop :=
  ∃ key, Key a key ∧ IsMember (key, value a) t

/-- Keys are strings that stand for the name, if for anything. -/
def Calls (Key : α → List Char → Prop) (name : α → String) : Prop :=
  ∀ a key, Key a key → IsString key ∧ ∀ n : String, Spells n.toList key → n = name a

/-- Where the members of an object were read, so was the first: its name was not seen before if it is the name
of a field, and then its value was accepted. -/
theorem Items.of_readMembers_cons (hproper : Proper fields) (hexact : ∀ f ∈ fields, f.Exact)
    (hcalls : Calls Key name) (hv : IsValue (value a))
    (hs : Items (IsKeyed Key value) .object first (a :: items) s) (hrounds : s.length ≤ rounds + 1)
    (h : readMembers fields (rounds + 1) first seen r (s ++ rest) = .ok out) :
    ∃ s' r', Items (IsKeyed Key value) .object false items s' ∧ s'.length ≤ rounds ∧
      (∃ key, Key a key ∧ Spells (name a).toList key) ∧
      (∀ f ∈ fields, f.name = name a → name a ∉ seen ∧ f.Accepts (value a)) ∧
      readMembers fields rounds false (if name a ∈ fields.map Field.name then name a :: seen else seen)
        r' (s' ++ rest) = .ok out := by
  obtain ⟨_, s', ⟨key, hkey, b, b', hb, hb', rfl⟩, hs', hlength, hfirst⟩ := hs.exists_first
  simp only [List.length_cons, List.length_append] at hlength
  obtain ⟨hstring, hunique⟩ := hcalls a key hkey
  rw [readMembers, hfirst _ rest rfl, readName.name, if_pos rfl] at h
  simp only [List.append_assoc, List.cons_append, bind, Except.bind] at h
  cases hread : readString [] (key ++ (b ++ ':' :: (b' ++ (value a ++ (s' ++ rest))))) with
  | error e =>
    rw [hread] at h
    cases h
  | ok named =>
    obtain ⟨n, s''⟩ := named
    obtain ⟨rfl, hspells⟩ := hstring.spells_of_readString hread
    obtain rfl := hunique n hspells
    rw [hread] at h
    simp only [pure, Except.pure] at h
    by_cases hmem : name a ∈ fields.map Field.name
    · obtain ⟨f, hf, heq⟩ := List.mem_map.mp hmem
      have hfound : fields.find? (·.name = name a) = some f := heq ▸ find?_name hproper.nodup hf
      simp only [hfound, readColon_append hb, hproper.skips f hf _ _ _ hb'] at h
      split at h
      · cases h
      rename_i hnew
      cases hout : f.read r (value a ++ (s' ++ rest)) with
      | error e =>
        rw [hout] at h
        cases h
      | ok read =>
        rw [hout] at h
        have hrest := hexact f hf _ hv _ _ _ hs'.stops hout
        refine ⟨s', read.1, hs', by omega, ⟨key, hkey, hspells⟩, fun f' hf' heq' => ⟨hnew, ?_⟩, ?_⟩
        · obtain rfl : f' = f := eq_of_name hproper.nodup hf' hf (heq'.trans heq.symm)
          exact ⟨r, _, read, hs'.stops, hout⟩
        · rw [if_pos hmem, ← hrest]
          exact h
    · have hlength' : (value a).length ≤ rounds := by omega
      simp only [find?_eq_none hmem, readColon_append hb, hv.skipValue_eq hs'.stops hb' hlength'] at h
      refine ⟨s', r, hs', by omega, ⟨key, hkey, hspells⟩, fun f hf heq => ?_, ?_⟩
      · exact absurd (heq ▸ List.mem_map_of_mem hf) hmem
      · rw [if_neg hmem]
        exact h

/-- Where the members of an object were read, they were read to its end, every name was one, no field was given
twice, and what was given to a field was accepted. -/
theorem Items.of_readMembers (hproper : Proper fields) (hexact : ∀ f ∈ fields, f.Exact)
    (hcalls : Calls Key name) (hvalues : ∀ a ∈ items, IsValue (value a))
    (hs : Items (IsKeyed Key value) .object first items s) (hrounds : s.length ≤ rounds)
    (hseen : ∀ f ∈ fields, seen.count f.name ≤ 1)
    (h : readMembers fields rounds first seen r (s ++ rest) = .ok out) :
    out.2 = rest ∧ (∀ a ∈ items, ∃ key, Key a key ∧ Spells (name a).toList key) ∧
      (∀ f ∈ fields, (items.map name ++ seen).count f.name ≤ 1) ∧
      ∀ a ∈ items, ∀ f ∈ fields, f.name = name a → f.Accepts (value a) := by
  obtain ⟨rounds, rfl⟩ := Nat.exists_eq_add_one_of_ne_zero
    (Nat.ne_zero_of_lt (Nat.lt_of_lt_of_le hs.length_pos hrounds))
  induction items generalizing rounds first seen r s with
  | nil =>
    obtain ⟨hb⟩ := hs
    rw [List.append_assoc, readMembers, Bracket.closing, List.singleton_append, readName_closing hb] at h
    cases h
    exact ⟨rfl, List.forall_mem_nil _, hseen, List.forall_mem_nil _⟩
  | cons a items ih =>
    obtain ⟨s', r', hs', hrounds', hkey, hfield, hread⟩ := hs.of_readMembers_cons hproper hexact hcalls
      (hvalues a List.mem_cons_self) hrounds h
    obtain ⟨rounds, rfl⟩ := Nat.exists_eq_add_one_of_ne_zero
      (Nat.ne_zero_of_lt (Nat.lt_of_lt_of_le hs'.length_pos hrounds'))
    generalize hseen' : (if name a ∈ fields.map Field.name then name a :: seen else seen) = seen' at hread
    -- Of the names of fields, those seen so far are the old ones and that of the first member.
    have hcount : ∀ f ∈ fields, seen'.count f.name = ([name a] ++ seen).count f.name := by
      intro f hf
      subst hseen'
      split
      · rfl
      · rename_i hnone
        have hne : name a ≠ f.name := fun heq => hnone (heq ▸ List.mem_map_of_mem hf)
        rw [List.singleton_append, List.count_cons_of_ne hne]
    have hle : ∀ f ∈ fields, seen'.count f.name ≤ 1 := by
      intro f hf
      rw [hcount f hf, List.singleton_append, List.count_cons]
      have hold := hseen f hf
      split
      · rename_i heq
        have hname : f.name = name a := (beq_iff_eq.mp heq).symm
        have hnone : seen.count (name a) = 0 := List.count_eq_zero.mpr (hfield f hf hname).1
        rw [hname]
        omega
      · exact hold
    obtain ⟨hrest, hkeys, hcounts, haccepts⟩ := ih (fun a ha => hvalues a (List.mem_cons_of_mem _ ha))
      hs' hle rounds hrounds' hread
    refine ⟨hrest, ?_, fun f hf => ?_, ?_⟩
    · exact List.forall_mem_cons.mpr ⟨hkey, hkeys⟩
    · have hfinal := hcounts f hf
      rw [List.count_append, hcount f hf, List.count_append] at hfinal
      rw [List.map_cons, ← List.singleton_append, List.count_append, List.count_append]
      omega
    · exact List.forall_mem_cons.mpr ⟨fun f hf heq => (hfield f hf heq).2, haccepts⟩

/-- The same where the record was read from the whole object. -/
theorem Items.of_readObject (hproper : Proper fields) (hexact : ∀ f ∈ fields, f.Exact)
    (hcalls : Calls Key name) (hvalues : ∀ a ∈ items, IsValue (value a))
    (hs : Items (IsKeyed Key value) .object true items s)
    (h : readRecord expected fields default ('\x7b' :: (s ++ rest)) = .ok out) :
    out.2 = rest ∧ (∀ a ∈ items, ∃ key, Key a key ∧ Spells (name a).toList key) ∧
      (∀ f ∈ fields, (items.map name).count f.name ≤ 1) ∧
      ∀ a ∈ items, ∀ f ∈ fields, f.name = name a → f.Accepts (value a) := by
  rw [readRecord, skipBlanks_cons rfl] at h
  have hrounds : s.length ≤ (s ++ rest).length + 1 := by
    rw [List.length_append]
    omega
  have hseen : ∀ f ∈ fields, ([] : List String).count f.name ≤ 1 := fun _ _ => Nat.zero_le 1
  have hread := hs.of_readMembers hproper hexact hcalls hvalues hrounds hseen h
  rwa [List.append_nil] at hread

end

/-- An array does not end before its values do. -/
theorem Items.readEnd_eq (hs : Items Eq .array first (v :: values) s) (hv : IsValue v) :
    readEnd (s ++ rest) = .error .malformed := by
  cases hs with
  | first hb ha hs =>
    subst ha
    obtain ⟨c, t, rfl, hblank, hc⟩ := hv.exists_cons
    simp only [List.append_assoc, List.cons_append]
    rw [readEnd, hb.skipBlanks_append, skipBlanks_cons hblank]
    exact if_neg hc
  | next hb hb' ha hs =>
    simp only [List.append_assoc, List.cons_append]
    rw [readEnd, hb.skipBlanks_append, skipBlanks_cons rfl]
    rfl

/-- Where the values of an array were read, they were read to its end, there were no more of them than
fields, and each was accepted by its field. -/
theorem Items.of_readElements (hexact : ∀ f ∈ fields, f.Exact) (hvalues : ∀ v ∈ values, IsValue v)
    (hs : Items Eq .array first values s)
    (h : readElements first fields r (s ++ rest) = .ok out) :
    out.2 = rest ∧ values.length ≤ fields.length ∧ ∀ p ∈ fields.zip values, p.1.Accepts p.2 := by
  induction fields generalizing first values s r with
  | nil =>
    cases values with
    | nil =>
      obtain ⟨hb⟩ := hs
      rw [List.append_assoc, readElements, Bracket.closing, List.singleton_append, readEnd_closing hb] at h
      cases h
      exact ⟨rfl, Nat.le_refl 0, List.forall_mem_nil _⟩
    | cons v values =>
      rw [readElements, hs.readEnd_eq (hvalues v List.mem_cons_self)] at h
      cases h
  | cons f fields ih =>
    cases values with
    | nil =>
      obtain ⟨hb⟩ := hs
      rw [List.append_assoc, readElements, Bracket.closing, List.singleton_append,
        readSeparator_closing hb] at h
      cases h
      exact ⟨rfl, Nat.zero_le _, by simp⟩
    | cons v values =>
      have hv := hvalues v List.mem_cons_self
      obtain ⟨s', hs', hread⟩ := hs.exists_readSeparator hv
      rw [readElements, hread] at h
      simp only [bind, Except.bind] at h
      cases hout : f.read r (v ++ (s' ++ rest)) with
      | error e =>
        rw [hout] at h
        cases h
      | ok read =>
        rw [hout] at h
        have hrest := hexact f List.mem_cons_self v hv _ _ _ hs'.stops hout
        dsimp only at h
        rw [hrest] at h
        obtain ⟨hend, hlength, haccepts⟩ := ih (fun f hf => hexact f (List.mem_cons_of_mem _ hf))
          (fun v hv => hvalues v (List.mem_cons_of_mem _ hv)) hs' h
        refine ⟨hend, Nat.succ_le_succ hlength, ?_⟩
        rw [List.zip_cons_cons]
        exact List.forall_mem_cons.mpr ⟨⟨r, _, read, hs'.stops, hout⟩, haccepts⟩

/-! ## Both forms -/

/-- The text that a string stands for, or none. -/
def textOf (key : List Char) : String :=
  match readString [] key with
  | .ok (name, _) => name
  | .error _ => ""

/-- A key that spells a name has that name as its text. -/
theorem Spells.textOf_eq {name : String} {key : List Char} (h : Spells name.toList key) :
    textOf key = name := by
  have hread : readString [] (key ++ []) = .ok (name, []) := h.readString_name
  rw [List.append_nil] at hread
  rw [textOf, hread]

/-- Items stay what they are when less is asked of each. -/
theorem Items.mono {Item Item' : α → List Char → Prop} {bracket : Bracket}
    (hs : Items Item bracket first items s) (h : ∀ a ∈ items, ∀ t, Item a t → Item' a t) :
    Items Item' bracket first items s := by
  induction hs with
  | closed hb => exact .closed hb
  | first hb ha _ ih =>
    exact .first hb (h _ List.mem_cons_self _ ha) (ih fun a ha => h a (List.mem_cons_of_mem _ ha))
  | next hb hb' ha _ ih =>
    exact .next hb hb' (h _ List.mem_cons_self _ ha) (ih fun a ha => h a (List.mem_cons_of_mem _ ha))

/-- Members with names are members whose names are strings. -/
theorem Items.exists_members {bracket : Bracket} {members : List (String × List Char)}
    (hs : Items IsNamed bracket first members s) (hvalues : ∀ m ∈ members, IsValue m.2) :
    ∃ members', Items IsMember bracket first members' s ∧
      ∀ m ∈ members', IsString m.1 ∧ IsValue m.2 := by
  induction hs with
  | closed hb => exact ⟨[], .closed hb, List.forall_mem_nil _⟩
  | first hb hm _ ih =>
    obtain ⟨key, hkey, hm⟩ := hm
    obtain ⟨hv, hvalues⟩ := List.forall_mem_cons.mp hvalues
    obtain ⟨members', hs, hstrings⟩ := ih hvalues
    exact ⟨_, .first hb hm hs, List.forall_mem_cons.mpr ⟨⟨hkey.isString, hv⟩, hstrings⟩⟩
  | next hb hb' hm _ ih =>
    obtain ⟨key, hkey, hm⟩ := hm
    obtain ⟨hv, hvalues⟩ := List.forall_mem_cons.mp hvalues
    obtain ⟨members', hs, hstrings⟩ := ih hvalues
    exact ⟨_, .next hb hb' hm hs, List.forall_mem_cons.mpr ⟨⟨hkey.isString, hv⟩, hstrings⟩⟩

/-- Objects with named members are values. -/
theorem IsValue.of_isObject (ht : IsObject members t) : IsValue t := by
  obtain ⟨s, rfl, hs⟩ := ht.layout
  obtain ⟨members', hs, hmembers⟩ := hs.exists_members ht.isValue
  exact .object (fun m hm => (hmembers m hm).1) (fun m hm => (hmembers m hm).2) hs

/-- Arrays are values. -/
theorem IsValue.of_isArray (ht : IsArray values t) : IsValue t := by
  obtain ⟨s, rfl, hs⟩ := ht.layout
  exact .array ht.isValue hs

/-- Where a record was read from the members of an object, every name was one, and the object was read to
its end. -/
theorem Items.of_readRecord {members : List (List Char × List Char)} (hproper : Proper fields)
    (hexact : ∀ f ∈ fields, f.Exact) (hnames : ∀ m ∈ members, IsString m.1)
    (hvalues : ∀ m ∈ members, IsValue m.2) (hs : Items IsMember .object true members s)
    (h : readRecord expected fields default ('\x7b' :: (s ++ rest)) = .ok out) :
    out.2 = rest ∧ ∀ m ∈ members, ∃ name : String, Spells name.toList m.1 := by
  have hcalls : Calls (fun (m : List Char × List Char) key => key = m.1 ∧ IsString key)
      (fun m => textOf m.1) := by
    rintro m key ⟨rfl, hkey⟩
    exact ⟨hkey, fun name hname => hname.textOf_eq.symm⟩
  have hs' := hs.mono fun m hm t ht =>
    (⟨m.1, ⟨rfl, hnames m hm⟩, ht⟩ : IsKeyed (fun m key => key = m.1 ∧ IsString key) Prod.snd m t)
  obtain ⟨hrest, hkeys, -, -⟩ := hs'.of_readObject hproper hexact hcalls hvalues h
  refine ⟨hrest, fun m hm => ?_⟩
  obtain ⟨key, ⟨rfl, -⟩, hspells⟩ := hkeys m hm
  exact ⟨_, hspells⟩

/-- Where a record was read from an object, no field was given twice, and what was given to a field was
accepted. -/
theorem IsObject.of_readRecord (hproper : Proper fields) (hexact : ∀ f ∈ fields, f.Exact)
    (ht : IsObject members t) (h : readRecord expected fields default (t ++ rest) = .ok out) :
    (∀ f ∈ fields, (members.map Prod.fst).count f.name ≤ 1) ∧
      ∀ m ∈ members, ∀ f ∈ fields, f.name = m.1 → f.Accepts m.2 := by
  obtain ⟨s, rfl, hs⟩ := ht.layout
  have hcalls : Calls (fun (m : String × List Char) key => Spells m.1.toList key) Prod.fst :=
    fun m key hkey => ⟨hkey.isString, fun name hname => String.toList_injective (hname.unique hkey)⟩
  rw [List.cons_append] at h
  exact (hs.of_readObject hproper hexact hcalls ht.isValue h).2.2

/-- Where a record was read from an array, there were no more values than fields, and each was accepted. -/
theorem IsArray.of_readRecord (hexact : ∀ f ∈ fields, f.Exact) (ht : IsArray values t)
    (h : readRecord expected fields default (t ++ rest) = .ok out) :
    values.length ≤ fields.length ∧ ∀ p ∈ fields.zip values, p.1.Accepts p.2 := by
  obtain ⟨s, rfl, hs⟩ := ht.layout
  rw [List.cons_append, readRecord, skipBlanks_cons rfl] at h
  exact (hs.of_readElements hexact ht.isValue h).2

/-- Where a record is read from a value, the value is read to its end. -/
theorem IsValue.of_readRecord (hproper : Proper fields) (hexact : ∀ f ∈ fields, f.Exact) (hv : IsValue v)
    (h : readRecord expected fields default (v ++ rest) = .ok out) : out.2 = rest := by
  cases hv with
  | number hs =>
    obtain ⟨c, t, rfl, hc⟩ := hs.exists_cons
    rw [List.cons_append, readRecord, skipBlanks_cons (not_blank_of_begins_number hc)] at h
    split at h
    · rename_i heq
      exact absurd (List.cons.inj heq).1 (ne_of_begins_number hc rfl)
    · rename_i heq
      exact absurd (List.cons.inj heq).1 (ne_of_begins_number hc rfl)
    · cases h
  | array hvalues hs =>
    rw [List.cons_append, readRecord, skipBlanks_cons rfl] at h
    exact (hs.of_readElements hexact hvalues h).1
  | object hnames hvalues hs => exact (hs.of_readRecord hproper hexact hnames hvalues h).1
  | _ => cases h

end TextureMemory.Json
