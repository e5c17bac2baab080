import TextureMemory.Proofs.Settings.Refusals

/-!
# Settings from objects and from arrays

An object gives some of the fields of settings, in any order, among members of other names, which may hold any
values and may be given again and again. Only the fields that are given differ from the default. To give one of
them twice is an error of the text, at the level of the settings as at that of the budgets.

All of this takes it that the names are names. By the grammar, a member may also have a string for its name that
stands for nothing, since one of its escapes is half of a pair. Within a value that is passed over such a string
does no harm, but the reader needs the name of a member to know its field, and refuses it
(`Settings.objects_read_ne`).

An array gives the values of the first fields, in their order. It means what an object means that gives these
values to the names of the fields, and the same goes for the budgets within it: each of the two may be given in
either form. Values that no field is left for are refused.
-/

namespace TextureMemory.Settings

open Json (IsClass IsString IsMember IsValue IsWord IsNumber IsExponent Items Spells Holds blank_nil
  holds_toList isObject_object)

/-! ## Objects -/

/-- **An object replaces in the default what it gives, whatever its order and whatever else it holds.** An
object that gives some of the fields, each at most once and with a value of its type, among members of other
names with any values

* is read as the default with these fields replaced, and of the budgets those of the pools that are given, and
  then checked;
* so any two objects that choose the same are read as the same;
* and if an object gives a field twice, or the budget of a pool twice, it is refused because of the text. -/
theorem objects_read :
    (∀ c text, Choices.IsObject c text →
      ofText text = (standard.replace c).validate.map fun _ => standard.replace c) ∧
    (∀ c text text', Choices.IsObject c text → Choices.IsObject c text' → ofText text = ofText text') ∧
    ∀ text, Repeats text → ∃ cause, ofText text = .error (.text cause) := by
  refine ⟨fun c text htext => htext.ofText_eq, fun c text text' htext htext' => ?_,
    fun text htext => htext.exists_text⟩
  rw [htext.ofText_eq, htext'.ofText_eq]

/-- Values for all fields but the last, and of the budgets for the first pool. -/
def someChoices : Choices where
  purgeThreshold := some 7
  alignUnit := some 4
  memoryClass := some (.only .slow)
  textureUnits := some 2
  pools := some { vram := some 5, ram := none, slow := none, budget := none, external := none }

/-- An object in which these are chosen. -/
def objectText : String :=
  Json.object [("purge_threshold", "7"), ("align_unit", "4"), ("memory_class", "\"slow\""),
    ("texture_units", "2"), ("pools", Json.object [("vram", "5")])]

/-- An object in which the same is chosen in another order, with blanks and with other members. -/
def mixedText : String :=
  " " ++ Json.object [("note", "[1e400]"), ("pools", Json.object [("vram", "5")]), ("texture_units", "2"),
    ("note", "\x7b\x7d"), ("memory_class", "\"slow\""), ("purge_threshold", "7"), ("align_unit", "4")] ++ "\n"

theorem isWord_digits : IsWord 2 ['2'] ∧ IsWord 4 ['4'] ∧ IsWord 5 ['5'] ∧ IsWord 7 ['7'] :=
  ⟨⟨by decide, rfl⟩, ⟨by decide, rfl⟩, ⟨by decide, rfl⟩, ⟨by decide, rfl⟩⟩

theorem isClass_slow : IsClass (.only .slow) "\"slow\"".toList := Json.isClass_name (.only .slow)

/-- Budgets of one pool, as an object. -/
theorem isText_object :
    Budgets.IsText { vram := some 5, ram := none, slow := none, budget := none, external := none }
      (Json.object [("vram", "5")]).toList := by
  obtain ⟨-, -, hfive, -⟩ := isWord_digits
  have hvalues : ∀ m ∈ [("vram", "5")], IsValue m.2.toList := List.forall_mem_singleton.mpr hfive.isValue
  refine .object ⟨_, isObject_object _ (by decide) hvalues, by decide, fun p => ?_⟩
  cases p with
  | vram => exact .some hfive
  | _ => exact .none

/-- An object without members is a value. -/
theorem isValue_empty : IsValue "\x7b\x7d".toList :=
  @IsValue.object [] _ (List.forall_mem_nil _) (List.forall_mem_nil _) (.closed blank_nil)

/-- A number that no double can hold is a value all the same. -/
theorem isValue_large : IsValue "[1e400]".toList := by
  have hnumber : IsNumber "1e400".toList :=
    @IsNumber.mk [] ['1'] [] ['e', '4', '0', '0'] (by decide)
      (.digits ⟨by decide, by decide⟩ (by decide)) .none
      (@IsExponent.digits 'e' [] ['4', '0', '0'] rfl (by decide) ⟨by decide, by decide⟩)
  exact .array (List.forall_mem_singleton.mpr (.number hnumber)) (.first blank_nil rfl (.closed blank_nil))

/-- The first object chooses just that. -/
theorem isObject_objectText : someChoices.IsObject objectText := by
  obtain ⟨htwo, hfour, -, hseven⟩ := isWord_digits
  have hvalues : ∀ m ∈ [("purge_threshold", "7"), ("align_unit", "4"), ("memory_class", "\"slow\""),
      ("texture_units", "2"), ("pools", Json.object [("vram", "5")])], IsValue m.2.toList := by
    simp only [List.forall_mem_cons]
    exact ⟨hseven.isValue, hfour.isValue, isClass_slow.isValue, htwo.isValue, isText_object.isValue,
      List.forall_mem_nil _⟩
  refine ⟨_, holds_toList _, _, isObject_object _ (by decide) hvalues, by decide, ?_⟩
  exact ⟨.some hseven, .some hfour, .some isClass_slow, .some htwo, .some isText_object, .none⟩

/-- Neither the order nor the blanks nor the other members keep the second object from choosing the same. -/
theorem isObject_mixedText : someChoices.IsObject mixedText := by
  obtain ⟨htwo, hfour, -, hseven⟩ := isWord_digits
  have hvalues : ∀ m ∈ [("note", "[1e400]"), ("pools", Json.object [("vram", "5")]), ("texture_units", "2"),
      ("note", "\x7b\x7d"), ("memory_class", "\"slow\""), ("purge_threshold", "7"), ("align_unit", "4")],
      IsValue m.2.toList := by
    simp only [List.forall_mem_cons]
    exact ⟨isValue_large, isText_object.isValue, htwo.isValue, isValue_empty, isClass_slow.isValue,
      hseven.isValue, hfour.isValue, List.forall_mem_nil _⟩
  refine ⟨_, ⟨[' '], ['\n'], rfl, rfl, ?_⟩, _, isObject_object _ (by decide) hvalues, by decide, ?_⟩
  · rw [mixedText, String.toList_append, String.toList_append, List.append_assoc]
    rfl
  · exact ⟨.some hseven, .some hfour, .some isClass_slow, .some htwo, .some isText_object, .none⟩

/-- What was chosen passes the checks. -/
theorem validate_someChoices : (standard.replace someChoices).validate = .ok () :=
  validate_eq_ok_iff.mpr ⟨⟨2, rfl⟩, by decide⟩

/-- An object in which the budget of a pool is given twice. -/
def twiceText : String :=
  Json.object [("align_unit", "4"), ("pools", Json.object [("vram", "5"), ("note", "\x7b\x7d"), ("vram", "5")])]

/-- One of the pools is named twice, with another member between. -/
theorem repeats_twiceText : Repeats twiceText := by
  obtain ⟨-, hfour, hfive, -⟩ := isWord_digits
  have hbudgets : ∀ m ∈ [("vram", "5"), ("note", "\x7b\x7d"), ("vram", "5")], IsValue m.2.toList := by
    simp only [List.forall_mem_cons]
    exact ⟨hfive.isValue, isValue_empty, hfive.isValue, List.forall_mem_nil _⟩
  have hpools := isObject_object _ (by decide) hbudgets
  have hvalues : ∀ m ∈ [("align_unit", "4"),
      ("pools", Json.object [("vram", "5"), ("note", "\x7b\x7d"), ("vram", "5")])], IsValue m.2.toList := by
    simp only [List.forall_mem_cons]
    exact ⟨hfour.isValue, .of_isObject hpools, List.forall_mem_nil _⟩
  refine ⟨_, holds_toList _, .inr ⟨_, _, isObject_object _ (by decide) hvalues, ?_, _, hpools, by decide⟩⟩
  exact List.mem_cons_of_mem _ List.mem_cons_self

/-- An object in another order, with blanks and other members, is read as one without them, and to give the
budget of a pool twice is an error. -/
theorem objects_read_among_others :
    someChoices.IsObject objectText ∧ someChoices.IsObject mixedText ∧ Repeats twiceText ∧
      ofText mixedText = .ok { standard with
        purgeThreshold := 7
        alignUnit := 4
        memoryClass := .only .slow
        textureUnits := 2
        pools := { Budgets.standard with vram := 5 } } ∧
      ofText objectText = ofText mixedText ∧ ∃ cause, ofText twiceText = .error (.text cause) := by
  obtain ⟨hread, hsame, hrepeats⟩ := objects_read
  refine ⟨isObject_objectText, isObject_mixedText, repeats_twiceText, ?_,
    hsame _ _ _ isObject_objectText isObject_mixedText, hrepeats _ repeats_twiceText⟩
  rw [hread _ _ isObject_mixedText, validate_someChoices]
  rfl

/-- An object whose only member is called by half of a pair. -/
def halfText : String := "\x7b\"\\uDEAD\":0\x7d"

/-- **A member need not have a name.** Half of a pair is a string by the grammar, but stands for nothing and
so for no field. As the name of a member of another name it would change nothing, and the default is
accepted. But the text is refused. -/
theorem objects_read_ne :
    ∃ key, IsString key ∧ (∀ name : String, ¬Spells name.toList key) ∧
      (∃ s, halfText.toList = '\x7b' :: s ∧ Items IsMember .object true [(key, ['0'])] s) ∧
      IsValue ['0'] ∧ IsValue halfText.toList ∧
      (standard.replace {}).validate = .ok () ∧ ofText halfText ≠ .ok (standard.replace {}) := by
  have hkey : IsString "\\uDEAD\"".toList := .code (n := 0xDEAD) rfl .closed
  have hnone : ∀ name : String, ¬Spells name.toList "\\uDEAD\"".toList := by
    intro name hname
    generalize name.toList = cs at hname
    cases hname with
    | plain hc => cases hc
    | letter he => cases he
    | code hn _ hlow =>
      cases hn
      cases hlow
  have hvalue : IsValue ['0'] := (⟨by decide, rfl⟩ : IsWord 0 ['0']).isValue
  have hmember : IsMember ("\\uDEAD\"".toList, ['0']) "\"\\uDEAD\":0".toList :=
    ⟨[], [], blank_nil, blank_nil, rfl⟩
  have hs : Items IsMember .object true [("\\uDEAD\"".toList, ['0'])] "\"\\uDEAD\":0\x7d".toList :=
    .first blank_nil hmember (.closed blank_nil)
  have htext : Holds halfText ('\x7b' :: "\"\\uDEAD\":0\x7d".toList) := holds_toList halfText
  have hvalidate : (standard.replace {}).validate = .ok () :=
    validate_eq_ok_iff.mpr ⟨⟨3, rfl⟩, by decide⟩
  have hnames : ∀ m ∈ [("\\uDEAD\"".toList, ['0'])], IsString m.1 := List.forall_mem_singleton.mpr hkey
  have hvalues : ∀ m ∈ [("\\uDEAD\"".toList, ['0'])], IsValue m.2 := List.forall_mem_singleton.mpr hvalue
  refine ⟨_, hkey, hnone, ⟨_, rfl, hs⟩, hvalue, .object hnames hvalues hs, hvalidate, fun h => ?_⟩
  obtain ⟨cause, hcause⟩ := exists_text_of_unspelled htext hs hnames hvalues List.mem_cons_self hnone
  exact nomatch hcause.symm.trans h

/-! ## Arrays -/

/-- **An array means the same as an object.** An array of values of their types for the first fields

* is read as any object is that gives the same values to the names of these fields, whichever of the two has
  the budgets in whichever form;
* which is as the default with these fields replaced, and then checked;
* and an array of more values than there are fields is refused because of the text, and so is any text of
  settings with budgets that are such an array. -/
theorem arrays_read :
    (∀ c array object, Choices.IsArray c array → Choices.IsObject c object → ofText array = ofText object) ∧
    (∀ c text, Choices.IsArray c text →
      ofText text = (standard.replace c).validate.map fun _ => standard.replace c) ∧
    ∀ text, Exceeds text → ∃ cause, ofText text = .error (.text cause) := by
  refine ⟨fun c array object harray hobject => ?_, fun c text htext => htext.ofText_eq,
    fun text htext => htext.exists_text⟩
  rw [harray.ofText_eq, hobject.ofText_eq]

/-- An array in which the same is chosen, with an array of budgets. -/
def arrayText : String := "[7,4,\"slow\",2,[5]]"

/-- An object with budgets for more pools than there are. -/
def longText : String := Json.object [("pools", "[5,5,5,5,5,5]")]

/-- The same budgets of one pool, as an array. -/
theorem isText_array :
    Budgets.IsText { vram := some 5, ram := none, slow := none, budget := none, external := none }
      "[5]".toList := by
  obtain ⟨-, -, hfive, -⟩ := isWord_digits
  have harray : Json.IsArray [['5']] "[5]".toList :=
    ⟨List.forall_mem_singleton.mpr hfive.isValue, _, rfl, .first blank_nil rfl (.closed blank_nil)⟩
  refine .array ⟨_, harray, by decide, fun p => ?_⟩
  cases p with
  | vram => exact .some hfive
  | _ => exact .none

/-- The array chooses the same as the objects. -/
theorem isArray_arrayText : someChoices.IsArray arrayText := by
  obtain ⟨htwo, hfour, -, hseven⟩ := isWord_digits
  have hvalues : ∀ v ∈ [['7'], ['4'], "\"slow\"".toList, ['2'], "[5]".toList], IsValue v := by
    simp only [List.forall_mem_cons]
    exact ⟨hseven.isValue, hfour.isValue, isClass_slow.isValue, htwo.isValue, isText_array.isValue,
      List.forall_mem_nil _⟩
  refine ⟨_, holds_toList arrayText, _, ⟨hvalues, _, rfl, ?_⟩, by decide, ?_⟩
  · exact .first blank_nil rfl (.next blank_nil blank_nil rfl (.next blank_nil blank_nil rfl
      (.next blank_nil blank_nil rfl (.next blank_nil blank_nil rfl (.closed blank_nil)))))
  · exact ⟨.some hseven, .some hfour, .some isClass_slow, .some htwo, .some isText_array, .none⟩

/-- There are six budgets for five pools. -/
theorem exceeds_longText : Exceeds longText := by
  obtain ⟨-, -, hfive, -⟩ := isWord_digits
  have hlong : Json.IsArray (List.replicate 6 ['5']) "[5,5,5,5,5,5]".toList := by
    refine ⟨fun v hv => List.eq_of_mem_replicate hv ▸ hfive.isValue, _, rfl, ?_⟩
    exact .first blank_nil rfl (.next blank_nil blank_nil rfl (.next blank_nil blank_nil rfl
      (.next blank_nil blank_nil rfl (.next blank_nil blank_nil rfl (.next blank_nil blank_nil rfl
        (.closed blank_nil))))))
  have hvalues : ∀ m ∈ [("pools", "[5,5,5,5,5,5]")], IsValue m.2.toList :=
    List.forall_mem_singleton.mpr (.of_isArray hlong)
  exact ⟨_, holds_toList _, .inr (.inr
    ⟨_, _, isObject_object _ (by decide) hvalues, List.mem_singleton_self _, _, hlong, by decide⟩)⟩

/-- An array with an array of budgets is read as an object with an object of budgets, and budgets for more pools
than there are make an error. -/
theorem arrays_read_in_both_forms :
    someChoices.IsArray arrayText ∧ someChoices.IsObject objectText ∧ Exceeds longText ∧
      ofText arrayText = ofText objectText ∧
      ofText arrayText = .ok { standard with
        purgeThreshold := 7
        alignUnit := 4
        memoryClass := .only .slow
        textureUnits := 2
        pools := { Budgets.standard with vram := 5 } } ∧
      ∃ cause, ofText longText = .error (.text cause) := by
  obtain ⟨hsame, hread, hrefused⟩ := arrays_read
  refine ⟨isArray_arrayText, isObject_objectText, exceeds_longText,
    hsame _ _ _ isArray_arrayText isObject_objectText, ?_, hrefused _ exceeds_longText⟩
  rw [hread _ _ isArray_arrayText, validate_someChoices]
  rfl

end TextureMemory.Settings
