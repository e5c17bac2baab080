import TextureMemory.Proofs.Settings.Values

/-!
# Choices in text

A text of settings chooses values for some of the fields, and the default holds for the others. The budgets
of the pools are one of the fields, and of these again only some may be chosen. What a text chooses is said
by the grammar, for an object of members in any order and for an array of the first values alike
(`Settings.Choices.IsObject`, `Settings.Choices.IsArray`); texts are looked up by the names of the fields in
both. Either way, reading the text comes to checking what it chose (`Settings.Choices.IsObject.ofText_eq`,
`Settings.Choices.IsArray.ofText_eq`).
-/

namespace TextureMemory

namespace Json

variable {ρ α : Type} {f : Field ρ} {IsText : α → List Char → Prop}
  {chosen : Option α} {found : Option (List Char)} {names : List String} {members : List (String × List Char)}

/-- A field is read from the text of the value that is chosen for it, and left alone where none is. -/
theorem tells_of_rel (put : Option α → ρ → ρ) (hrel : Option.Rel IsText chosen found) (hnone : ∀ r, put none r = r)
    (hreads : ∀ a t, IsText a t → f.Reads t (put (some a))) :
    (∀ t, found = some t → f.Reads t (put chosen)) ∧ (found = none → ∀ r, put chosen r = r) := by
  cases hrel with
  | some ha =>
    refine ⟨?_, nofun⟩
    rintro _ ⟨⟩
    exact hreads _ _ ha
  | none => exact ⟨nofun, fun _ => hnone⟩

/-- The same for a field that holds a word. -/
theorem tells_of_word {name : String} {expected : Expected} {get : ρ → Nat} {set : ρ → Nat → ρ} {word : Option Nat}
    (hrel : Option.Rel IsWord word found) (hget : ∀ r, set r (get r) = r) :
    (∀ t, found = some t → (naturalField name expected set).Reads t fun r => set r (word.getD (get r))) ∧
      (found = none → ∀ r, set r (word.getD (get r)) = r) :=
  tells_of_rel (fun o r => set r (o.getD (get r))) hrel hget fun _ _ => naturalField_reads

/-- The text consists of a value and of blanks around it. -/
def Holds (text : String) (t : List Char) : Prop :=
  ∃ b b', Blank b ∧ Blank b' ∧ text.toList = b ++ (t ++ b')

/-- The characters of a text hold it without blanks. -/
theorem holds_toList (text : String) : Holds text text.toList :=
  ⟨[], [], blank_nil, blank_nil, by rw [List.nil_append, List.append_nil]⟩

end Json

open Json (IsWord IsClass Proper Tells Holds)

/-! ## Budgets -/

namespace Budgets

/-- The names of the fields of budgets. -/
def names : List String := ["vram", "ram", "slow", "budget", "external"]

/-- Replaces the budgets that are chosen. -/
def replace (b : Budgets) (c : PerPool (Option Nat)) : Budgets where
  vram := c.vram.getD b.vram
  ram := c.ram.getD b.ram
  slow := c.slow.getD b.slow
  budget := c.budget.getD b.budget
  external := c.external.getD b.external

/-- The texts that are given to the names of pools are those of the budgets that are chosen. -/
def Given (c : PerPool (Option Nat)) (text : String → Option (List Char)) : Prop :=
  ∀ p, Option.Rel IsWord (c.get p) (text (MemoryClass.only p).name)

/-- The texts that choose budgets: an object of some of them among other members, or an array of the first
ones. -/
inductive IsText (c : PerPool (Option Nat)) (t : List Char) : Prop
  | object (ht : Json.IsObjectOf names (Given c) t)
  | array (ht : Json.IsArrayOf names (Given c) t)

variable {c : PerPool (Option Nat)} {t rest : List Char} {text : String → Option (List Char)}

/-- The texts of budgets are values. -/
theorem IsText.isValue (ht : IsText c t) : Json.IsValue t := by
  cases ht with
  | object ht =>
    obtain ⟨members, ht, -⟩ := ht
    exact .of_isObject ht
  | array ht =>
    obtain ⟨values, ht, -⟩ := ht
    exact .of_isArray ht

/-- Each pool has a field of its own, with blanks allowed before its value. -/
theorem proper_fields : Proper fields := by
  refine ⟨by decide, fun f hf r b s hb => ?_⟩
  obtain ⟨p, -, rfl⟩ := List.mem_map.mp hf
  exact Json.naturalField_append hb

/-- The field of a pool. -/
def field (p : Pool) : Json.Field Budgets := Json.naturalField (MemoryClass.only p).name .size (·.set p ·)

/-- Replaces the budget of a pool by the one that is chosen, if one is. -/
def choose (c : PerPool (Option Nat)) (p : Pool) (b : Budgets) : Budgets :=
  b.set p ((c.get p).getD (b.get p))

/-- All that is chosen is replaced by going through the pools. -/
theorem foldl_choose (b : Budgets) : Pool.all.foldl (fun b p => choose c p b) b = b.replace c := rfl

/-- The order in which budgets are replaced does not matter. -/
theorem choose_comm (p q : Pool) (b : Budgets) :
    choose c p (choose c q b) = choose c q (choose c p b) := by
  cases p <;> cases q <;> rfl

theorem set_get (b : Budgets) (p : Pool) : b.set p (b.get p) = b := by
  cases p <;> rfl

/-- What a text says of a pool is what is chosen for it. -/
theorem tells (hgiven : Given c text) : Tells Pool.all field (choose c) text := by
  have hfield : ∀ p, (∀ t, text (field p).name = some t → (field p).Reads t (choose c p)) ∧
      (text (field p).name = none → ∀ b, choose c p b = b) :=
    fun p => Json.tells_of_word (hgiven p) fun b => set_get b p
  exact ⟨fun p _ => (hfield p).1, fun p _ => (hfield p).2⟩

/-- Budgets are read from any text that chooses them. -/
theorem IsText.readRecord_append (ht : IsText c t) :
    Json.readRecord .budgets fields standard (t ++ rest) = .ok (standard.replace c, rest) := by
  rw [← foldl_choose]
  cases ht with
  | object ht => exact ht.readRecord_append rfl proper_fields (fun _ => tells) choose_comm
  | array ht => exact ht.readRecord_append rfl proper_fields fun _ => tells

end Budgets

/-! ## Settings -/

namespace Settings

/-- The names of the fields of settings. -/
def names : List String :=
  ["purge_threshold", "align_unit", "memory_class", "texture_units", "pools", "metrics_window"]

/-- What is chosen: a value for some of the fields, and of the budgets a value for some of the pools. -/
structure Choices where
  purgeThreshold : Option Nat := none
  alignUnit : Option Nat := none
  memoryClass : Option MemoryClass := none
  textureUnits : Option Nat := none
  pools : Option (PerPool (Option Nat)) := none
  metricsWindow : Option Nat := none

/-- Replaces the values that are chosen. Budgets that are not chosen are the default ones. -/
def replace (s : Settings) (c : Choices) : Settings where
  purgeThreshold := c.purgeThreshold.getD s.purgeThreshold
  alignUnit := c.alignUnit.getD s.alignUnit
  memoryClass := c.memoryClass.getD s.memoryClass
  textureUnits := c.textureUnits.getD s.textureUnits
  pools := (c.pools.map Budgets.standard.replace).getD s.pools
  metricsWindow := c.metricsWindow.getD s.metricsWindow

namespace Choices

/-- The texts that are given to the names of fields are those of the values that are chosen. -/
structure Given (c : Choices) (text : String → Option (List Char)) : Prop where
  purgeThreshold : Option.Rel IsWord c.purgeThreshold (text "purge_threshold")
  alignUnit : Option.Rel IsWord c.alignUnit (text "align_unit")
  memoryClass : Option.Rel IsClass c.memoryClass (text "memory_class")
  textureUnits : Option.Rel IsWord c.textureUnits (text "texture_units")
  pools : Option.Rel Budgets.IsText c.pools (text "pools")
  metricsWindow : Option.Rel IsWord c.metricsWindow (text "metrics_window")

/-- The objects that make these choices: members for the fields that are chosen, in any order, among any members
of other names. -/
def IsObject (c : Choices) (text : String) : Prop :=
  ∃ t, Holds text t ∧ Json.IsObjectOf names c.Given t

/-- The arrays that make these choices: the values of the first fields. -/
def IsArray (c : Choices) (text : String) : Prop :=
  ∃ t, Holds text t ∧ Json.IsArrayOf names c.Given t

end Choices

/-- The field of the memory class. -/
def classField : Json.Field Settings := fields[2]

/-- The field of the budgets. -/
def poolsField : Json.Field Settings := fields[4]

/-- Each field has a name of its own, with blanks allowed before its value. -/
theorem proper_fields : Proper fields := by
  refine ⟨by decide, ?_⟩
  simp only [fields, List.forall_mem_cons]
  refine ⟨fun _ _ _ => Json.naturalField_append, fun _ _ _ => Json.naturalField_append,
    fun _ _ _ hb => ?_, fun _ _ _ => Json.naturalField_append, fun _ _ _ hb => ?_,
    fun _ _ _ => Json.naturalField_append, List.forall_mem_nil _⟩
  · rw [Json.readClass_append hb]
  · rw [Json.readRecord_append hb]

/-- The fields of settings, by name. -/
inductive Key where
  | purgeThreshold
  | alignUnit
  | memoryClass
  | textureUnits
  | pools
  | metricsWindow

namespace Key

/-- All fields, in their order. -/
def all : List Key := [purgeThreshold, alignUnit, memoryClass, textureUnits, pools, metricsWindow]

/-- How the field is read. -/
abbrev field : Key → Json.Field Settings
  | purgeThreshold => Json.naturalField "purge_threshold" .frameCount ({ · with purgeThreshold := · })
  | alignUnit => Json.naturalField "align_unit" .size ({ · with alignUnit := · })
  | memoryClass => classField
  | textureUnits => Json.naturalField "texture_units" .size ({ · with textureUnits := · })
  | pools => poolsField
  | metricsWindow => Json.naturalField "metrics_window" .size ({ · with metricsWindow := · })

theorem map_field : all.map field = fields := rfl

/-- Replaces the value of the field by the one that is chosen, if one is. -/
def choose (c : Choices) : Key → Settings → Settings
  | purgeThreshold, s => { s with purgeThreshold := c.purgeThreshold.getD s.purgeThreshold }
  | alignUnit, s => { s with alignUnit := c.alignUnit.getD s.alignUnit }
  | memoryClass, s => { s with memoryClass := c.memoryClass.getD s.memoryClass }
  | textureUnits, s => { s with textureUnits := c.textureUnits.getD s.textureUnits }
  | pools, s => { s with pools := (c.pools.map Budgets.standard.replace).getD s.pools }
  | metricsWindow, s => { s with metricsWindow := c.metricsWindow.getD s.metricsWindow }

variable {c : Choices} {text : String → Option (List Char)}

/-- All that is chosen is replaced by going through the fields. -/
theorem foldl_choose (s : Settings) : all.foldl (fun s k => choose c k s) s = s.replace c := rfl

/-- The order in which fields are replaced does not matter. -/
theorem choose_comm (k l : Key) (s : Settings) :
    choose c k (choose c l s) = choose c l (choose c k s) := by
  cases k <;> cases l <;> rfl

/-- The class is read from its text. -/
theorem classField_reads {k : MemoryClass} {t : List Char} (ht : IsClass k t) :
    classField.Reads t ({ · with memoryClass := k }) := by
  intro s rest _
  simp only [classField, fields, List.getElem_cons_succ, List.getElem_cons_zero, ht.readClass_append]
  rfl

/-- The budgets are read from their text. -/
theorem poolsField_reads {b : PerPool (Option Nat)} {t : List Char} (ht : Budgets.IsText b t) :
    poolsField.Reads t ({ · with pools := Budgets.standard.replace b }) := by
  intro s rest _
  simp only [poolsField, fields, List.getElem_cons_succ, List.getElem_cons_zero, ht.readRecord_append]
  rfl

/-- What a text says of a field is what is chosen for it. -/
theorem tells (hgiven : c.Given text) : Tells all field (choose c) text := by
  have hfield : ∀ k, (∀ t, text (field k).name = some t → (field k).Reads t (choose c k)) ∧
      (text (field k).name = none → ∀ s, choose c k s = s) := by
    intro k
    cases k with
    | purgeThreshold => exact Json.tells_of_word hgiven.purgeThreshold fun _ => rfl
    | alignUnit => exact Json.tells_of_word hgiven.alignUnit fun _ => rfl
    | memoryClass =>
      exact Json.tells_of_rel (fun o (s : Settings) => { s with memoryClass := o.getD s.memoryClass })
        hgiven.memoryClass (fun _ => rfl) fun _ _ => classField_reads
    | textureUnits => exact Json.tells_of_word hgiven.textureUnits fun _ => rfl
    | pools =>
      exact Json.tells_of_rel
        (fun o (s : Settings) => { s with pools := (o.map Budgets.standard.replace).getD s.pools })
        hgiven.pools (fun _ => rfl) fun _ _ => poolsField_reads
    | metricsWindow => exact Json.tells_of_word hgiven.metricsWindow fun _ => rfl
  exact ⟨fun k _ => (hfield k).1, fun k _ => (hfield k).2⟩

end Key

variable {c : Choices} {text : String} {s : Settings} {t : List Char}

/-- Where the value in a text is read to its end, the blanks around it make no difference. -/
theorem parse_eq_of_readRecord (htext : Holds text t)
    (hread : ∀ rest, Json.readRecord .settings fields standard (t ++ rest) = .ok (s, rest)) :
    parse text.toList = .ok s := by
  obtain ⟨b, b', hb, hb', heq⟩ := htext
  have hrest : Json.skipBlanks b' = [] := by
    have happend := hb'.skipBlanks_append (s := [])
    rwa [List.append_nil] at happend
  rw [heq, parse, Json.readRecord_append hb, hread]
  simp only [bind, Except.bind, hrest]
  rfl

/-- Reading settings from text that means them comes to checking them. -/
theorem ofText_of_parse (h : parse text.toList = .ok s) : ofText text = s.validate.map fun _ => s := by
  rw [ofText, h]
  cases hvalidate : s.validate <;> simp only [hvalidate] <;> rfl

namespace Choices

/-- An object is read as the default with the values that it chooses. -/
theorem IsObject.parse_eq (htext : c.IsObject text) : parse text.toList = .ok (standard.replace c) := by
  obtain ⟨t, htext, ht⟩ := htext
  refine parse_eq_of_readRecord htext fun rest => ?_
  rw [← Key.foldl_choose, ← Key.map_field]
  exact ht.readRecord_append rfl proper_fields (fun _ => Key.tells) Key.choose_comm

/-- An array is read as the default with the values that it chooses. -/
theorem IsArray.parse_eq (htext : c.IsArray text) : parse text.toList = .ok (standard.replace c) := by
  obtain ⟨t, htext, ht⟩ := htext
  refine parse_eq_of_readRecord htext fun rest => ?_
  rw [← Key.foldl_choose, ← Key.map_field]
  exact ht.readRecord_append rfl proper_fields fun _ => Key.tells

/-- Reading an object comes to checking the default with the values that it chooses. -/
theorem IsObject.ofText_eq (htext : c.IsObject text) :
    ofText text = (standard.replace c).validate.map fun _ => standard.replace c :=
  ofText_of_parse htext.parse_eq

/-- Reading an array comes to checking the default with the values that it chooses. -/
theorem IsArray.ofText_eq (htext : c.IsArray text) :
    ofText text = (standard.replace c).validate.map fun _ => standard.replace c :=
  ofText_of_parse htext.parse_eq

end Choices

end Settings

end TextureMemory
