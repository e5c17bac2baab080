import TextureMemory.Proofs.Settings.Choices

/-!
# Texts of settings that are refused

A text whose record cannot be read is refused because of the text, and not because of the settings that it
might mean (`Settings.exists_text_of_ne`). This is what becomes of an object that gives a field twice and of
an array with more values than there are fields, at the level of the settings and at that of the budgets,
and whatever else there is in them (`Settings.Repeats.exists_text`, `Settings.Exceeds.exists_text`). And it
is what becomes of an object with a member whose name stands for nothing
(`Settings.exists_text_of_unspelled`), even though the grammar has a place for such a name.
-/

namespace TextureMemory

namespace Json

/-- An object that gives one of these names more than once. -/
def Repeats (names : List String) (t : List Char) : Prop :=
  ∃ members, IsObject members t ∧ ¬Once names members

/-- An array with more values than there are names. -/
def Exceeds (names : List String) (t : List Char) : Prop :=
  ∃ values, IsArray values t ∧ names.length < values.length

variable {ρ : Type} {fields : List (Field ρ)} {expected : Expected} {default : ρ} {out : ρ × List Char}
  {names : List String} {t rest : List Char}

/-- No record is read from an object that gives one of its fields twice. -/
theorem Repeats.readRecord_ne (ht : Repeats names t) (hproper : Proper fields)
    (hexact : ∀ f ∈ fields, f.Exact) (hnames : fields.map Field.name = names) :
    readRecord expected fields default (t ++ rest) ≠ .ok out := by
  obtain ⟨members, hobject, htwice⟩ := ht
  intro h
  refine htwice fun name hname => ?_
  obtain ⟨f, hf, rfl⟩ := List.mem_map.mp (hnames ▸ hname)
  exact (hobject.of_readRecord hproper hexact h).1 f hf

/-- No record is read from an array with more values than the record has fields. -/
theorem Exceeds.readRecord_ne (ht : Exceeds names t) (hexact : ∀ f ∈ fields, f.Exact)
    (hnames : fields.map Field.name = names) : readRecord expected fields default (t ++ rest) ≠ .ok out := by
  obtain ⟨values, harray, hlong⟩ := ht
  intro h
  have hlength := (harray.of_readRecord hexact h).1
  rw [← hnames, List.length_map] at hlong
  omega

end Json

open Json (Holds IsString IsMember IsValue Items Spells)

/-- No budget is read beyond the end of its value. -/
theorem Budgets.exact_fields : ∀ f ∈ fields, f.Exact := by
  intro f hf
  obtain ⟨p, -, rfl⟩ := List.mem_map.mp hf
  exact Json.naturalField_exact

namespace Settings

variable {text : String} {s t : List Char} {members : List (List Char × List Char)}

/-- No field of settings is read beyond the end of its value. -/
theorem exact_fields : ∀ f ∈ fields, f.Exact := by
  simp only [fields, List.forall_mem_cons]
  refine ⟨Json.naturalField_exact, Json.naturalField_exact, ?_, Json.naturalField_exact, ?_,
    Json.naturalField_exact, List.forall_mem_nil _⟩
  · intro v hv r rest out _ h
    simp only [bind, Except.bind] at h
    split at h
    · cases h
    rename_i read hread
    cases h
    exact hv.of_readClass hread
  · intro v hv r rest out _ h
    simp only [bind, Except.bind] at h
    split at h
    · cases h
    rename_i read hread
    have hrest := hv.of_readRecord Budgets.proper_fields Budgets.exact_fields hread
    cases h
    exact hrest

/-- Where a text is accepted for the budgets, budgets are read from it. -/
theorem exists_readRecord_of_accepts (h : poolsField.Accepts t) :
    ∃ rest out, Json.readRecord .budgets Budgets.fields .standard (t ++ rest) = .ok out := by
  obtain ⟨r, rest, out, -, h⟩ := h
  simp only [poolsField, fields, List.getElem_cons_succ, List.getElem_cons_zero, bind, Except.bind] at h
  split at h
  · cases h
  rename_i read hread
  exact ⟨rest, read, hread⟩

/-- A text is refused where no record is read from what it holds. -/
theorem exists_text_of_ne (htext : Holds text t)
    (hnone : ∀ rest out, Json.readRecord .settings fields standard (t ++ rest) ≠ .ok out) :
    ∃ cause, ofText text = .error (.text cause) := by
  cases hparse : parse text.toList with
  | error cause =>
    refine ⟨cause, ?_⟩
    rw [ofText, hparse]
    rfl
  | ok settings =>
    obtain ⟨b, b', hb, -, heq⟩ := htext
    rw [heq, parse, Json.readRecord_append hb] at hparse
    cases hread : Json.readRecord .settings fields standard (t ++ b') with
    | error cause =>
      rw [hread] at hparse
      cases hparse
    | ok out => exact absurd hread (hnone b' out)

/-! ## Too much -/

/-- An object that gives a field twice, or an object for the budgets that does. -/
def Repeats (text : String) : Prop :=
  ∃ t, Holds text t ∧ (Json.Repeats names t ∨
    ∃ members v, Json.IsObject members t ∧ ("pools", v) ∈ members ∧ Json.Repeats Budgets.names v)

/-- An array of more values than there are fields, or such an array for the budgets, in an array or in an
object. -/
def Exceeds (text : String) : Prop :=
  ∃ t, Holds text t ∧ (Json.Exceeds names t ∨
    (∃ values v, Json.IsArray values t ∧ ("pools", v) ∈ names.zip values ∧ Json.Exceeds Budgets.names v) ∨
    ∃ members v, Json.IsObject members t ∧ ("pools", v) ∈ members ∧ Json.Exceeds Budgets.names v)

/-- The budgets of an object from which settings are read are read on their own. -/
theorem accepts_of_object {members : List (String × List Char)} {v rest : List Char}
    {out : Settings × List Char} (ht : Json.IsObject members t) (hv : ("pools", v) ∈ members)
    (h : Json.readRecord .settings fields standard (t ++ rest) = .ok out) : poolsField.Accepts v :=
  (ht.of_readRecord proper_fields exact_fields h).2 _ hv _ (List.getElem_mem _) rfl

/-- The budgets of an array from which settings are read are read on their own. -/
theorem accepts_of_array {values : List (List Char)} {v rest : List Char}
    {out : Settings × List Char} (ht : Json.IsArray values t) (hv : ("pools", v) ∈ names.zip values)
    (h : Json.readRecord .settings fields standard (t ++ rest) = .ok out) : poolsField.Accepts v := by
  rw [show names = fields.map Json.Field.name from rfl, List.zip_map_left] at hv
  obtain ⟨⟨f, v⟩, hmem, heq⟩ := List.mem_map.mp hv
  obtain ⟨hname, rfl⟩ := Prod.mk.inj heq
  have hf : f = poolsField :=
    Json.eq_of_name proper_fields.nodup (List.of_mem_zip hmem).1 (List.getElem_mem _) hname
  exact hf ▸ (ht.of_readRecord exact_fields h).2 _ hmem

/-- A field that is given twice makes the text wrong. -/
theorem Repeats.exists_text (htext : Repeats text) : ∃ cause, ofText text = .error (.text cause) := by
  obtain ⟨t, htext, htwice⟩ := htext
  refine exists_text_of_ne htext fun rest out h => ?_
  rcases htwice with htwice | ⟨members, v, ht, hv, htwice⟩
  · exact htwice.readRecord_ne proper_fields exact_fields rfl h
  · obtain ⟨rest, out, h⟩ := exists_readRecord_of_accepts (accepts_of_object ht hv h)
    exact htwice.readRecord_ne Budgets.proper_fields Budgets.exact_fields rfl h

/-- Too many values make the text wrong. -/
theorem Exceeds.exists_text (htext : Exceeds text) : ∃ cause, ofText text = .error (.text cause) := by
  obtain ⟨t, htext, hlong⟩ := htext
  refine exists_text_of_ne htext fun rest out h => ?_
  -- Budgets that are too long would have been accepted as the value of their field.
  have hpools : ∀ v, Json.Exceeds Budgets.names v → ¬poolsField.Accepts v := by
    intro v hlong haccepts
    obtain ⟨rest, out, h⟩ := exists_readRecord_of_accepts haccepts
    exact hlong.readRecord_ne Budgets.exact_fields rfl h
  rcases hlong with hlong | ⟨values, v, ht, hv, hlong⟩ | ⟨members, v, ht, hv, hlong⟩
  · exact hlong.readRecord_ne exact_fields rfl h
  · exact hpools v hlong (accepts_of_array ht hv h)
  · exact hpools v hlong (accepts_of_object ht hv h)

/-! ## Names that are none -/

/-- An object that holds what stands for no name is refused. -/
theorem exists_text_of_unspelled (htext : Holds text ('\x7b' :: s)) (hs : Items IsMember .object true members s)
    (hnames : ∀ m ∈ members, IsString m.1) (hvalues : ∀ m ∈ members, IsValue m.2)
    {m : List Char × List Char} (hm : m ∈ members) (hnone : ∀ name : String, ¬Spells name.toList m.1) :
    ∃ cause, ofText text = .error (.text cause) := by
  refine exists_text_of_ne htext fun rest out h => ?_
  obtain ⟨name, hname⟩ := (hs.of_readRecord proper_fields exact_fields hnames hvalues h).2 m hm
  exact hnone name hname

end Settings

end TextureMemory
