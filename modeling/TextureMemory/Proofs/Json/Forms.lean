import TextureMemory.Proofs.Json.Record

/-!
# The two forms of a record

A record is read from an object, where values are found by the names of their fields, or from an array,
where they are found by their positions. Both are looked up in a list of names with texts: the members of
the object, or the names of the first fields put together with the values of the array. Given what the texts
that are found tell about the fields (`Json.Tells`), both forms are read as the default in which the fields
that are given are set (`Json.IsObjectOf.readRecord_append`, `Json.IsArrayOf.readRecord_append`). For an
object this is so whatever the order of its members, as the fields are set independently of each other.
-/

namespace TextureMemory.Json

variable {ρ ι : Type} {all : List ι} {field : ι → Field ρ} {set : ι → ρ → ρ} {i j : ι}
  {default r : ρ} {expected : Expected} {text : String → Option (List Char)}
  {members : List (String × List Char)} {values : List (List Char)} {s t rest : List Char}
  {name : String} {first : Bool}

/-- The texts that are found by the names of fields tell how the fields are set, and a field whose text is
not found is left alone. -/
structure Tells (all : List ι) (field : ι → Field ρ) (set : ι → ρ → ρ)
    (text : String → Option (List Char)) : Prop where
  reads : ∀ i ∈ all, ∀ t, text (field i).name = some t → (field i).Reads t (set i)
  keeps : ∀ i ∈ all, text (field i).name = none → ∀ r, set i r = r

/-! ## Fields that are looked up -/

/-- A member whose name is not given again is the one that is found. -/
theorem valueOf?_of_mem (hm : (name, t) ∈ members) (hcount : (members.map Prod.fst).count name ≤ 1) :
    valueOf? members name = some t := by
  obtain ⟨l, l', rfl⟩ := List.append_of_mem hm
  refine List.lookup_eq_some_iff.mpr ⟨l, l', rfl, fun m hm => bne_iff_ne.mpr ?_⟩
  intro heq
  have hpos : 0 < (l.map Prod.fst).count name :=
    List.count_pos_iff.mpr (heq ▸ List.mem_map_of_mem (f := Prod.fst) hm)
  rw [List.map_append, List.map_cons, List.count_append, List.count_cons_self] at hcount
  omega

/-! ## The order of members -/

/-- The field of a name. -/
def fieldNamed? (all : List ι) (field : ι → Field ρ) (name : String) : Option ι :=
  all.find? fun i => (field i).name = name

/-- The field that is found by a name is one of the fields, and has that name. -/
theorem mem_of_fieldNamed? (h : fieldNamed? all field name = some i) :
    i ∈ all ∧ (field i).name = name := by
  rw [fieldNamed?] at h
  have hname := List.find?_some h
  exact ⟨List.mem_of_find?_eq_some h, of_decide_eq_true hname⟩

/-- Fields that can be told apart have names of their own. -/
theorem Proper.nodup_names (hproper : Proper (all.map field)) :
    (all.map fun i => (field i).name).Nodup := by
  have hnodup := hproper.nodup
  rwa [List.map_map] at hnodup

/-- A field is found by its name. -/
theorem fieldNamed?_name (hproper : Proper (all.map field)) (hi : i ∈ all) :
    fieldNamed? all field (field i).name = some i :=
  find?_name hproper.nodup_names hi

/-- The fields that are given, in the order of the members. -/
def givenFields (all : List ι) (field : ι → Field ρ) (members : List (String × List Char)) : List ι :=
  members.filterMap fun m => fieldNamed? all field m.1

/-- No field is given twice if its name is not. -/
theorem nodup_givenFields (hcount : ∀ i ∈ all, (members.map Prod.fst).count (field i).name ≤ 1) :
    (givenFields all field members).Nodup := by
  induction members with
  | nil => exact List.nodup_nil
  | cons m members ih =>
    have hrest := ih fun i hi => by
      have hle := hcount i hi
      rw [List.map_cons, List.count_cons] at hle
      omega
    rw [givenFields, List.filterMap_cons]
    split
    · exact hrest
    · rename_i i hfield
      refine List.nodup_cons.mpr ⟨fun hmem => ?_, hrest⟩
      -- The field of the first member would be given again.
      obtain ⟨m', hm', hfield'⟩ := List.mem_filterMap.mp hmem
      obtain ⟨hi, hname⟩ := mem_of_fieldNamed? hfield
      have hname' := (mem_of_fieldNamed? hfield').2
      have hpos : 0 < (members.map Prod.fst).count (field i).name :=
        List.count_pos_iff.mpr (hname' ▸ List.mem_map_of_mem (f := Prod.fst) hm')
      have hle := hcount i hi
      rw [List.map_cons, hname, List.count_cons_self] at hle
      rw [hname] at hpos
      omega

/-- The fields that are given are those that are found, in another order. -/
theorem perm_givenFields (hproper : Proper (all.map field))
    (hcount : ∀ i ∈ all, (members.map Prod.fst).count (field i).name ≤ 1) :
    (givenFields all field members).Perm
      (all.filter fun i => (valueOf? members (field i).name).isSome) := by
  have hall : all.Nodup := (List.pairwise_map.mp hproper.nodup_names).imp fun hne heq =>
    hne (congrArg (fun i => (field i).name) heq)
  refine (List.perm_ext_iff_of_nodup (nodup_givenFields hcount) (hall.filter _)).mpr fun i => ?_
  rw [givenFields, List.mem_filterMap, List.mem_filter, valueOf?, List.lookup_isSome_iff]
  constructor
  · rintro ⟨m, hm, hfield⟩
    obtain ⟨hi, hname⟩ := mem_of_fieldNamed? hfield
    exact ⟨hi, m, hm, beq_iff_eq.mpr hname⟩
  · rintro ⟨hi, m, hm, hname⟩
    exact ⟨m, hm, beq_iff_eq.mp hname ▸ fieldNamed?_name hproper hi⟩

/-- Leaving out what changes nothing makes no difference. -/
theorem foldl_filter_of_keeps {p : ι → Bool} (hkeeps : ∀ i ∈ all, p i = false → ∀ r, set i r = r) :
    (all.filter p).foldl (fun r i => set i r) r = all.foldl (fun r i => set i r) r := by
  induction all generalizing r with
  | nil => rfl
  | cons i all ih =>
    have hrest := fun r => ih (r := r) fun j hj => hkeeps j (List.mem_cons_of_mem _ hj)
    cases hp : p i with
    | true => rw [List.filter_cons_of_pos hp, List.foldl_cons, List.foldl_cons, hrest]
    | false =>
      rw [List.filter_cons_of_neg (by simp [hp]), List.foldl_cons, hrest,
        hkeeps i List.mem_cons_self hp]

namespace Tells

/-- Fields that are set independently of each other may be set in the order of the members. -/
theorem foldl_members (htells : Tells all field set (valueOf? members)) (hproper : Proper (all.map field))
    (hcomm : ∀ i j r, set i (set j r) = set j (set i r))
    (hcount : ∀ i ∈ all, (members.map Prod.fst).count (field i).name ≤ 1) :
    members.foldl (fun r m => (fieldNamed? all field m.1).elim r (set · r)) r =
      all.foldl (fun r i => set i r) r := by
  calc members.foldl (fun r m => (fieldNamed? all field m.1).elim r (set · r)) r
    _ = (givenFields all field members).foldl (fun r i => set i r) r := by
      rw [givenFields, List.foldl_filterMap]
      congr 1
      funext r m
      cases fieldNamed? all field m.1 <;> rfl
    _ = (all.filter fun i => (valueOf? members (field i).name).isSome).foldl (fun r i => set i r) r :=
      (perm_givenFields hproper hcount).foldl_eq' (fun i _ j _ r => hcomm j i r) r
    _ = all.foldl (fun r i => set i r) r :=
      foldl_filter_of_keeps fun i hi hnone => htells.keeps i hi (by simpa using hnone)

/-- A record is read from an object as the default in which the fields that are given are set, whatever the
order of the members, and whatever members of other names there are. -/
theorem readRecord_object (htells : Tells all field set (valueOf? members)) (hproper : Proper (all.map field))
    (hcomm : ∀ i j r, set i (set j r) = set j (set i r))
    (hcount : ∀ i ∈ all, (members.map Prod.fst).count (field i).name ≤ 1)
    (ht : IsObject members t) :
    readRecord expected (all.map field) default (t ++ rest) =
      .ok (all.foldl (fun r i => set i r) default, rest) := by
  obtain ⟨s, rfl, hs⟩ := ht.layout
  have hsets : Sets (all.map field) Prod.fst Prod.snd
      (fun m r => (fieldNamed? all field m.1).elim r (set · r)) members := by
    refine ⟨fun m hm f hf heq => ?_, fun m hm hnone => ⟨ht.isValue m hm, fun r => ?_⟩⟩
    · obtain ⟨i, hi, rfl⟩ := List.mem_map.mp hf
      have htext : valueOf? members (field i).name = some m.2 :=
        valueOf?_of_mem (heq ▸ hm) (hcount i hi)
      rw [← heq, fieldNamed?_name hproper hi]
      exact htells.reads i hi _ htext
    · cases hfield : fieldNamed? all field m.1 with
      | none => rfl
      | some i =>
        obtain ⟨hi, hname⟩ := mem_of_fieldNamed? hfield
        exact absurd (hname ▸ List.mem_map_of_mem (List.mem_map_of_mem hi)) hnone
  rw [List.cons_append, readRecord_members hproper hsets hs, htells.foldl_members hproper hcomm hcount]
  intro f hf
  obtain ⟨i, hi, rfl⟩ := List.mem_map.mp hf
  exact hcount i hi

/-! ## The order of values -/

/-- Where nothing is given, nothing is set. -/
theorem foldl_eq_of_nil (htells : Tells all field set (valueOf? [])) :
    all.foldl (fun r i => set i r) r = r := by
  rw [← foldl_filter_of_keeps (p := fun _ => false) fun i hi _ => htells.keeps i hi rfl,
    List.filter_eq_nil_iff.mpr fun _ _ => Bool.false_ne_true]
  rfl

/-- What is told about the fields behind the first one. -/
theorem tail (hproper : Proper ((i :: all).map field))
    (htells : Tells (i :: all) field set (valueOf? (((field i).name, t) :: members))) :
    Tells all field set (valueOf? members) := by
  have hlookup : ∀ j ∈ all, valueOf? (((field i).name, t) :: members) (field j).name =
      valueOf? members (field j).name := by
    intro j hj
    have hne : (field j).name ≠ (field i).name := fun heq =>
      (List.nodup_cons.mp hproper.nodup_names).1 (List.mem_map.mpr ⟨j, hj, heq⟩)
    rw [valueOf?, List.lookup_cons, beq_eq_false_iff_ne.mpr hne]
    rfl
  constructor
  · intro j hj t ht
    exact htells.reads j (List.mem_cons_of_mem _ hj) t ((hlookup j hj).trans ht)
  · intro j hj ht
    exact htells.keeps j (List.mem_cons_of_mem _ hj) ((hlookup j hj).trans ht)

/-- The values of an array are read one after the other, as those of the first fields. -/
theorem readElements_items (hproper : Proper (all.map field))
    (htells : Tells all field set (valueOf? ((all.map fun i => (field i).name).zip values)))
    (hs : Items Eq .array first values s) (hvalues : ∀ v ∈ values, IsValue v)
    (hlength : values.length ≤ all.length) :
    readElements first (all.map field) r (s ++ rest) =
      .ok (all.foldl (fun r i => set i r) r, rest) := by
  induction all generalizing first values s r with
  | nil =>
    obtain rfl : values = [] := List.length_eq_zero_iff.mp (Nat.le_zero.mp hlength)
    obtain ⟨hb⟩ := hs
    rw [List.append_assoc, List.map_nil, readElements, Bracket.closing, List.singleton_append,
      readEnd_closing hb]
    rfl
  | cons i all ih =>
    cases values with
    | nil =>
      obtain ⟨hb⟩ := hs
      rw [List.append_assoc, List.map_cons, readElements, Bracket.closing, List.singleton_append,
        readSeparator_closing hb]
      exact congrArg (fun r => Except.ok (r, rest)) htells.foldl_eq_of_nil.symm
    | cons v values =>
      rw [List.map_cons, List.zip_cons_cons] at htells
      obtain ⟨s', hs', hread⟩ := hs.exists_readSeparator (hvalues v List.mem_cons_self)
      have hfirst := htells.reads i List.mem_cons_self v List.lookup_cons_self
      rw [List.map_cons, readElements, hread]
      simp only [bind, Except.bind, hfirst _ _ hs'.stops]
      exact ih (hproper.tail) (htells.tail hproper) hs'
        (fun v hv => hvalues v (List.mem_cons_of_mem _ hv)) (Nat.le_of_succ_le_succ hlength)

/-- A record is read from an array as the default in which its first fields are set. -/
theorem readRecord_array (htells : Tells all field set (valueOf? ((all.map fun i => (field i).name).zip values)))
    (hproper : Proper (all.map field)) (hlength : values.length ≤ all.length) (ht : IsArray values t) :
    readRecord expected (all.map field) default (t ++ rest) =
      .ok (all.foldl (fun r i => set i r) default, rest) := by
  obtain ⟨s, rfl, hs⟩ := ht.layout
  rw [List.cons_append, readRecord, skipBlanks_cons rfl]
  exact htells.readElements_items hproper hs ht.isValue hlength

end Tells

/-! ## Both forms -/

/-- No name is given twice by the members. -/
def Once (names : List String) (members : List (String × List Char)) : Prop :=
  ∀ name ∈ names, (members.map Prod.fst).count name ≤ 1

instance {names : List String} : Decidable (Once names members) :=
  inferInstanceAs (Decidable (∀ name ∈ names, (members.map Prod.fst).count name ≤ 1))

/-- An object that gives none of these names twice, and gives them texts with such a property. -/
def IsObjectOf (names : List String) (Given : (String → Option (List Char)) → Prop) (t : List Char) : Prop :=
  ∃ members, IsObject members t ∧ Once names members ∧ Given (valueOf? members)

/-- An array of values for the first of these names, so that the names have texts with such a property. -/
def IsArrayOf (names : List String) (Given : (String → Option (List Char)) → Prop) (t : List Char) : Prop :=
  ∃ values, IsArray values t ∧ values.length ≤ names.length ∧ Given (valueOf? (names.zip values))

variable {names : List String} {Given : (String → Option (List Char)) → Prop}

/-- An object that is written without blanks, of all of these names. -/
theorem isObjectOf_object {members : List (String × String)} (hnames : members.map Prod.fst = names)
    (hnodup : names.Nodup) (hplain : ∀ name ∈ names, name.toList.all isPlain = true)
    (hvalues : ∀ m ∈ members, IsValue m.2.toList)
    (hgiven : Given (valueOf? (members.map fun m => (m.1, m.2.toList)))) :
    IsObjectOf names Given (object members).toList := by
  subst hnames
  refine ⟨_, isObject_object members (fun m hm => hplain m.1 (List.mem_map_of_mem hm)) hvalues, ?_, hgiven⟩
  intro name _
  rw [List.map_map]
  exact List.nodup_iff_count.mp hnodup name

/-- A record is read from an object as its default in which the fields that are given are set. -/
theorem IsObjectOf.readRecord_append (ht : IsObjectOf names Given t)
    (hnames : (all.map fun i => (field i).name) = names) (hproper : Proper (all.map field))
    (htells : ∀ text, Given text → Tells all field set text)
    (hcomm : ∀ i j r, set i (set j r) = set j (set i r)) :
    readRecord expected (all.map field) default (t ++ rest) =
      .ok (all.foldl (fun r i => set i r) default, rest) := by
  obtain ⟨members, ht, honce, hgiven⟩ := ht
  refine (htells _ hgiven).readRecord_object hproper hcomm (fun i hi => ?_) ht
  exact honce _ (hnames ▸ List.mem_map_of_mem hi)

/-- A record is read from an array as its default in which the fields that are given are set. -/
theorem IsArrayOf.readRecord_append (ht : IsArrayOf names Given t)
    (hnames : (all.map fun i => (field i).name) = names) (hproper : Proper (all.map field))
    (htells : ∀ text, Given text → Tells all field set text) :
    readRecord expected (all.map field) default (t ++ rest) =
      .ok (all.foldl (fun r i => set i r) default, rest) := by
  obtain ⟨values, ht, hlength, hgiven⟩ := ht
  subst hnames
  rw [List.length_map] at hlength
  exact (htells _ hgiven).readRecord_array hproper hlength ht

end TextureMemory.Json
