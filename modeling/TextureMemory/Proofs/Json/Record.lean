import TextureMemory.Proofs.Json.Skip
import TextureMemory.Settings.Text

/-!
# Reading records

A record is read from an object of some of its fields, in whatever order and among any members of other
names, or from an array of the values of its first fields. What is needed of a field is that its name is its
own, and that blanks before its value make no difference (`Json.Proper`); what is needed of a value is that
it is read from in front of anything that does not belong to it (`Json.Field.Reads`). Then an object is read
as the default that its members change one after the other (`Json.readRecord_members`). An object that is
written without blanks is one of these objects (`Json.isObject_object`).
-/

namespace TextureMemory.Json

/-- The text is read as a value of the field that changes a record so, whatever follows. -/
def Field.Reads {ρ : Type} (f : Field ρ) (t : List Char) (set : ρ → ρ) : Prop :=
  ∀ r rest, Stops rest → f.read r (t ++ rest) = .ok (set r, rest)

/-- Fields with names of their own, before whose values there may be blanks. -/
structure Proper {ρ : Type} (fields : List (Field ρ)) : Prop where
  nodup : (fields.map Field.name).Nodup
  skips : ∀ f ∈ fields, ∀ r b s, Blank b → f.read r (b ++ s) = f.read r s

/-- The characters of a member: its name and the text of its value. -/
def memberChars (name text : String) : List Char := '"' :: (name.toList ++ '"' :: ':' :: text.toList)

/-- The characters of members, behind others or as the first. -/
def membersChars : Bool → List (String × String) → List Char
  | _, [] => []
  | first, (name, text) :: members =>
    (if first then [] else [',']) ++ memberChars name text ++ membersChars false members

/-- Fields can still be told apart without the first of them. -/
theorem Proper.tail {ρ : Type} {f : Field ρ} {fields : List (Field ρ)} (h : Proper (f :: fields)) :
    Proper fields :=
  ⟨(List.nodup_cons.mp h.nodup).2, fun f hf => h.skips f (List.mem_cons_of_mem _ hf)⟩

variable {ρ α : Type} {fields : List (Field ρ)} {field : Field ρ} {seen : List String}
  {default r : ρ} {c : Char} {b b' s t v key rest : List Char} {name : String} {first : Bool}
  {expected : Expected} {rounds : Nat}

/-! ## Blanks before a value -/

/-- Blanks before a word do not matter. -/
theorem readNatural_append (hb : Blank b) : readNatural expected (b ++ s) = readNatural expected s := by
  rw [readNatural, readNatural, hb.skipBlanks_append]

theorem readRecord_append (hb : Blank b) :
    readRecord expected fields default (b ++ s) = readRecord expected fields default s := by
  rw [readRecord, readRecord, hb.skipBlanks_append]

/-! ## Names -/

/-- Among things of different names, each is found by its name. -/
theorem find?_name {called : α → String} {l : List α} {a : α} (hnodup : (l.map called).Nodup)
    (hmem : a ∈ l) : l.find? (called · = called a) = some a := by
  induction l with
  | nil => cases hmem
  | cons b l ih =>
    rw [List.map_cons, List.nodup_cons] at hnodup
    by_cases hname : called b = called a
    · rcases List.mem_cons.mp hmem with rfl | hmem
      · exact List.find?_cons_of_pos (decide_eq_true hname)
      · exact absurd (hname ▸ List.mem_map_of_mem hmem) hnodup.1
    · rcases List.mem_cons.mp hmem with rfl | hmem
      · exact absurd rfl hname
      · rw [List.find?_cons_of_neg (by simpa using hname)]
        exact ih hnodup.2 hmem

/-- Among things of different names, no two have the same. -/
theorem eq_of_name {called : α → String} {l : List α} {a a' : α} (hnodup : (l.map called).Nodup)
    (hmem : a ∈ l) (hmem' : a' ∈ l) (heq : called a = called a') : a = a' := by
  have hfound := find?_name hnodup hmem
  rw [heq, find?_name hnodup hmem'] at hfound
  exact (Option.some.inj hfound).symm

/-- A name that no field has is not found. -/
theorem find?_eq_none (hname : name ∉ fields.map Field.name) :
    fields.find? (·.name = name) = none := by
  refine List.find?_eq_none.mpr fun f hf heq => ?_
  exact hname ((of_decide_eq_true heq) ▸ List.mem_map_of_mem hf)

/-- A colon is passed over with the blanks before it. -/
theorem readColon_append (hb : Blank b) : readColon (b ++ ':' :: s) = .ok s := by
  rw [readColon, hb.skipBlanks_append]
  rfl

/-- The end of an object is found behind any of its members. -/
theorem readName_closing (hb : Blank b) :
    readName first (b ++ '\x7d' :: rest) = .ok (none, rest) := by
  rw [readName, hb.skipBlanks_append, skipBlanks_cons rfl]
  rfl

/-- The first name of an object follows the blanks behind the bracket. -/
theorem readName_quote (hb : Blank b) :
    readName true (b ++ '"' :: s) = readName.name ('"' :: s) := by
  rw [readName, hb.skipBlanks_append, skipBlanks_cons rfl]
  rfl

/-- Any other name follows a comma, with blanks around it. -/
theorem readName_comma (hb : Blank b) (hb' : Blank b') :
    readName false (b ++ ',' :: (b' ++ '"' :: s)) = readName.name ('"' :: s) := by
  rw [readName, hb.skipBlanks_append, skipBlanks_cons rfl]
  simp only [hb'.skipBlanks_append, skipBlanks_cons (rfl : isBlank '"' = false)]
  rfl

/-- The first of the items of an object, with the items that follow it: its name is what is read first. -/
theorem Items.exists_first {Item : α → List Char → Prop} {a : α} {items : List α}
    (hs : Items Item .object first (a :: items) s) :
    ∃ t s', Item a t ∧ Items Item .object false items s' ∧ t.length + s'.length ≤ s.length ∧
      ∀ t' rest, t = '"' :: t' →
        readName first (s ++ rest) = readName.name ('"' :: (t' ++ (s' ++ rest))) := by
  cases hs with
  | first hb ha hs =>
    refine ⟨_, _, ha, hs, by simp, ?_⟩
    rintro t' rest rfl
    simp only [List.append_assoc, List.cons_append]
    exact readName_quote hb
  | next hb hb' ha hs =>
    refine ⟨_, _, ha, hs, by simp; omega, ?_⟩
    rintro t' rest rfl
    simp only [List.append_assoc, List.cons_append]
    exact readName_comma hb hb'

/-! ## Objects -/

/-- A member of a field is read as that. -/
theorem readMembers_of_field (hproper : Proper fields) (hmem : field ∈ fields) (hnew : field.name ∉ seen)
    {set : ρ → ρ} (hreads : field.Reads v set) (hb : Blank b) (hb' : Blank b') (hrest : Stops rest)
    (hname : readName first s = .ok (some field.name, b ++ ':' :: (b' ++ (v ++ rest)))) :
    readMembers fields (rounds + 1) first seen r s =
      readMembers fields rounds false (field.name :: seen) (set r) rest := by
  rw [readMembers, hname]
  simp only [bind, Except.bind, find?_name hproper.nodup hmem, if_neg hnew, readColon_append hb,
    hproper.skips _ hmem _ _ _ hb', hreads _ _ hrest]

/-- A member that belongs to no field is passed over. -/
theorem readMembers_of_value (hnone : name ∉ fields.map Field.name) (hv : IsValue v) (hb : Blank b)
    (hb' : Blank b') (hrest : Stops rest) (hrounds : v.length ≤ rounds)
    (hname : readName first s = .ok (some name, b ++ ':' :: (b' ++ (v ++ rest)))) :
    readMembers fields (rounds + 1) first seen r s = readMembers fields rounds false seen r rest := by
  rw [readMembers, hname]
  simp only [bind, Except.bind, find?_eq_none hnone, readColon_append hb,
    hv.skipValue_eq hrest hb' hrounds]

section

variable {name : α → String} {value : α → List Char} {set : α → ρ → ρ} {a : α} {items : List α}

/-- What the members of an object do to a record: those of its fields change it, and the others are passed
over. -/
structure Sets (fields : List (Field ρ)) (name : α → String) (value : α → List Char)
    (set : α → ρ → ρ) (items : List α) : Prop where
  reads : ∀ a ∈ items, ∀ f ∈ fields, f.name = name a → f.Reads (value a) (set a)
  skips : ∀ a ∈ items, name a ∉ fields.map Field.name → IsValue (value a) ∧ ∀ r, set a r = r

/-- The members behind the first do what they did. -/
theorem Sets.tail (h : Sets fields name value set (a :: items)) : Sets fields name value set items :=
  ⟨fun a ha => h.reads a (List.mem_cons_of_mem _ ha), fun a ha => h.skips a (List.mem_cons_of_mem _ ha)⟩

/-- One member is read. Its name is seen from then on if it is the name of a field. -/
theorem readMembers_cons (hproper : Proper fields) (hsets : Sets fields name value set (a :: items))
    (hs : Items (fun a => IsNamed (name a, value a)) .object first (a :: items) s)
    (hseen : ∀ f ∈ fields, f.name = name a → name a ∉ seen) (hrounds : s.length ≤ rounds + 1) :
    ∃ s', Items (fun a => IsNamed (name a, value a)) .object false items s' ∧ s'.length ≤ rounds ∧
      ∀ r rest, readMembers fields (rounds + 1) first seen r (s ++ rest) =
        readMembers fields rounds false (if name a ∈ fields.map Field.name then name a :: seen else seen)
          (set a r) (s' ++ rest) := by
  obtain ⟨_, s', ⟨key, hkey, b, b', hb, hb', rfl⟩, hs', hlength, hfirst⟩ := hs.exists_first
  simp only [List.length_cons, List.length_append] at hlength
  refine ⟨s', hs', by omega, fun r rest => ?_⟩
  have hname : readName first (s ++ rest) =
      .ok (some (name a), b ++ ':' :: (b' ++ (value a ++ (s' ++ rest)))) := by
    rw [hfirst _ rest rfl, readName.name, if_pos rfl]
    simp only [List.append_assoc, List.cons_append, hkey.readString_name]
    rfl
  by_cases hmem : name a ∈ fields.map Field.name
  · obtain ⟨f, hf, heq⟩ := List.mem_map.mp hmem
    rw [if_pos hmem, ← heq]
    rw [← heq] at hname
    exact readMembers_of_field hproper hf (heq ▸ hseen f hf heq)
      (hsets.reads a List.mem_cons_self f hf heq) hb hb' hs'.stops hname
  · obtain ⟨hv, hset⟩ := hsets.skips a List.mem_cons_self hmem
    rw [if_neg hmem, hset]
    exact readMembers_of_value hmem hv hb hb' hs'.stops (by omega) hname

/-- The members of an object are read one after the other, whatever their order. -/
theorem readMembers_items (hproper : Proper fields) (hsets : Sets fields name value set items)
    (hs : Items (fun a => IsNamed (name a, value a)) .object first items s)
    (hcount : ∀ f ∈ fields, (items.map name ++ seen).count f.name ≤ 1) (hrounds : s.length ≤ rounds) :
    readMembers fields rounds first seen r (s ++ rest) =
      .ok (items.foldl (fun r a => set a r) r, rest) := by
  obtain ⟨rounds, rfl⟩ := Nat.exists_eq_add_one_of_ne_zero
    (Nat.ne_zero_of_lt (Nat.lt_of_lt_of_le hs.length_pos hrounds))
  induction items generalizing rounds first seen r s with
  | nil =>
    obtain ⟨hb⟩ := hs
    rw [List.append_assoc, readMembers, Bracket.closing, List.singleton_append, readName_closing hb]
    rfl
  | cons a items ih =>
    have hseen : ∀ f ∈ fields, f.name = name a → name a ∉ seen := by
      intro f hf heq hmem
      have hle := hcount f hf
      have hpos : 0 < seen.count (name a) := List.count_pos_iff.mpr hmem
      rw [heq, List.map_cons, List.cons_append, List.count_cons_self, List.count_append] at hle
      omega
    obtain ⟨s', hs', hrounds', hread⟩ := readMembers_cons hproper hsets hs hseen hrounds
    rw [hread]
    obtain ⟨rounds, rfl⟩ := Nat.exists_eq_add_one_of_ne_zero
      (Nat.ne_zero_of_lt (Nat.lt_of_lt_of_le hs'.length_pos hrounds'))
    refine ih hsets.tail hs' (fun f hf => ?_) rounds hrounds'
    have hle := hcount f hf
    rw [List.map_cons, List.cons_append, List.count_cons, List.count_append] at hle
    split
    · rw [List.count_append, List.count_cons]
      omega
    · rw [List.count_append]
      omega

/-- A record is read from an object: its members change the default one after the other. -/
theorem readRecord_members (hproper : Proper fields) (hsets : Sets fields name value set items)
    (hs : Items (fun a => IsNamed (name a, value a)) .object true items s)
    (hcount : ∀ f ∈ fields, (items.map name).count f.name ≤ 1) :
    readRecord expected fields default ('\x7b' :: (s ++ rest)) =
      .ok (items.foldl (fun r a => set a r) default, rest) := by
  rw [readRecord, skipBlanks_cons rfl]
  refine readMembers_items hproper hsets hs (fun f hf => ?_) ?_
  · rw [List.append_nil]
    exact hcount f hf
  · rw [List.length_append]
    omega

end

/-! ## Arrays -/

/-- The bracket that closes an array ends it. -/
theorem readSeparator_closing (hb : Blank b) :
    readSeparator first (b ++ ']' :: rest) = .ok (false, rest) := by
  rw [readSeparator, hb.skipBlanks_append, skipBlanks_cons rfl]
  rfl

/-- The first value of an array follows the blanks behind the bracket. -/
theorem readSeparator_value (hv : IsValue v) (hb : Blank b) :
    readSeparator true (b ++ (v ++ rest)) = .ok (true, v ++ rest) := by
  obtain ⟨c, t, rfl, hblank, hc⟩ := hv.exists_cons
  rw [readSeparator, hb.skipBlanks_append, List.cons_append, skipBlanks_cons hblank]
  exact if_neg hc

/-- Any other value follows a comma, with blanks around it. -/
theorem readSeparator_comma (hv : IsValue v) (hb : Blank b) (hb' : Blank b') :
    readSeparator false (b ++ ',' :: (b' ++ (v ++ rest))) = .ok (true, v ++ rest) := by
  obtain ⟨c, t, rfl, hblank, hc⟩ := hv.exists_cons
  rw [readSeparator, hb.skipBlanks_append, skipBlanks_cons rfl]
  simp only [hb'.skipBlanks_append, List.cons_append, skipBlanks_cons hblank, if_neg hc]
  rfl

/-- The first of the values of an array, with those that follow it. -/
theorem Items.exists_readSeparator {values : List (List Char)}
    (hs : Items Eq .array first (v :: values) s) (hv : IsValue v) :
    ∃ s', Items Eq .array false values s' ∧
      ∀ rest, readSeparator first (s ++ rest) = .ok (true, v ++ (s' ++ rest)) := by
  cases hs with
  | first hb ha hs =>
    subst ha
    refine ⟨_, hs, fun rest => ?_⟩
    rw [List.append_assoc, List.append_assoc, readSeparator_value hv hb]
  | next hb hb' ha hs =>
    subst ha
    refine ⟨_, hs, fun rest => ?_⟩
    simp only [List.append_assoc, List.cons_append]
    rw [readSeparator_comma hv hb hb']

/-- The end of an array is passed over with the blanks before it. -/
theorem readEnd_closing (hb : Blank b) : readEnd (b ++ ']' :: rest) = .ok rest := by
  rw [readEnd, hb.skipBlanks_append, skipBlanks_cons rfl]
  rfl

/-! ## Objects without blanks -/

/-- Members that are put together with commas are the characters of members. -/
theorem intercalate_eq_membersChars (members : List (String × String)) :
    [','].intercalate (members.map fun m => memberChars m.1 m.2) = membersChars true members := by
  induction members with
  | nil => rfl
  | cons m members ih =>
    cases members with
    | nil => simp [membersChars]
    | cons m' members =>
      rw [List.map_cons, List.map_cons, List.intercalate_cons_cons]
      rw [List.map_cons] at ih
      rw [ih]
      simp [membersChars]

/-- The characters of an object without blanks. -/
theorem toList_object (members : List (String × String)) :
    (object members).toList = '\x7b' :: (membersChars true members ++ ['\x7d']) := by
  have hmembers : (members.map fun m => "\"" ++ m.1 ++ "\":" ++ m.2).map String.toList =
      members.map fun m => memberChars m.1 m.2 := by
    rw [List.map_map]
    refine List.map_congr_left fun m _ => ?_
    simp [memberChars]
  rw [object, String.toList_append, String.toList_append, String.toList_intercalate, hmembers]
  rw [show ",".toList = [','] from rfl, intercalate_eq_membersChars]
  rfl

/-- A member without blanks is a member. -/
theorem isNamed_memberChars (text : String) (h : name.toList.all isPlain = true) :
    IsNamed (name, text.toList) (memberChars name text) := by
  refine ⟨_, spells_plain h, [], [], blank_nil, blank_nil, ?_⟩
  simp [memberChars]

/-- Members without blanks, and the end of their object. -/
theorem items_membersChars {members : List (String × String)} (first : Bool)
    (h : ∀ m ∈ members, m.1.toList.all isPlain = true) :
    Items IsNamed .object first (members.map fun m => (m.1, m.2.toList))
      (membersChars first members ++ ['\x7d']) := by
  induction members generalizing first with
  | nil => exact .closed blank_nil
  | cons m members ih =>
    have hm := isNamed_memberChars m.2 (h m List.mem_cons_self)
    have hs := ih false fun m hm => h m (List.mem_cons_of_mem _ hm)
    rw [membersChars, List.append_assoc]
    cases first with
    | true => exact Items.first (t := memberChars m.1 m.2) blank_nil hm hs
    | false => exact Items.next (t := memberChars m.1 m.2) blank_nil blank_nil hm hs

/-- An object that is written without blanks is an object of what was written. -/
theorem isObject_object (members : List (String × String)) (hplain : ∀ m ∈ members, m.1.toList.all isPlain = true)
    (hvalues : ∀ m ∈ members, IsValue m.2.toList) :
    IsObject (members.map fun m => (m.1, m.2.toList)) (object members).toList := by
  refine ⟨fun m hm => ?_, _, toList_object members, items_membersChars true hplain⟩
  obtain ⟨written, hwritten, rfl⟩ := List.mem_map.mp hm
  exact hvalues written hwritten

end TextureMemory.Json
