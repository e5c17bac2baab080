import TextureMemory.Proofs.Settings.Choices

/-!
# Settings that are written and read back

Settings are written as an object of all their fields, the budgets of the pools as an object within it. Such
an object chooses every value, so nothing of the default is left when it is read (`Settings.parse_text`).
Only then the settings are checked. So reading back fails just as checking does, and never because of the
text (`Settings.ofText_text`).
-/

namespace TextureMemory

open Json (holds_toList isObjectOf_object isWord_toString)

namespace Budgets

variable {b : Budgets}

/-- The budgets of all pools, as choices. -/
def chosen (b : Budgets) : PerPool (Option Nat) where
  vram := some b.vram
  ram := some b.ram
  slow := some b.slow
  budget := some b.budget
  external := some b.external

/-- The names of the pools with the texts of their budgets. -/
def written (b : Budgets) : List (String × String) :=
  Pool.all.map fun p => ((MemoryClass.only p).name, toString (b.get p))

theorem text_eq (b : Budgets) : b.text = Json.object b.written := rfl

/-- Budgets that are written choose every budget. -/
theorem isText_text (hb : ∀ p, b.get p < Word.limit) : IsText b.chosen b.text.toList := by
  have hword := fun p => isWord_toString (hb p)
  refine .object (text_eq b ▸ isObjectOf_object rfl (by decide) (by decide) (fun m hm => ?_) fun p => ?_)
  · obtain ⟨p, -, rfl⟩ := List.mem_map.mp hm
    exact (hword p).isValue
  · cases p with
    | vram => exact .some (hword .vram)
    | ram => exact .some (hword .ram)
    | slow => exact .some (hword .slow)
    | budget => exact .some (hword .budget)
    | external => exact .some (hword .external)

end Budgets

namespace Settings

/-- All numbers are machine words. -/
structure InRange (s : Settings) : Prop where
  purgeThreshold : s.purgeThreshold < Word.limit
  alignUnit : s.alignUnit < Word.limit
  textureUnits : s.textureUnits < Word.limit
  pools : ∀ p, s.pools.get p < Word.limit
  metricsWindow : s.metricsWindow < Word.limit

variable {s : Settings}

/-- All values of settings, as choices. -/
def chosen (s : Settings) : Choices where
  purgeThreshold := some s.purgeThreshold
  alignUnit := some s.alignUnit
  memoryClass := some s.memoryClass
  textureUnits := some s.textureUnits
  pools := some s.pools.chosen
  metricsWindow := some s.metricsWindow

/-- The names of the fields with the texts of their values. -/
def written (s : Settings) : List (String × String) :=
  [("purge_threshold", toString s.purgeThreshold),
   ("align_unit", toString s.alignUnit),
   ("memory_class", "\"" ++ s.memoryClass.name ++ "\""),
   ("texture_units", toString s.textureUnits),
   ("pools", s.pools.text),
   ("metrics_window", toString s.metricsWindow)]

theorem text_eq (s : Settings) : s.text = Json.object s.written := rfl

/-- What is written for a field is a text of its value. -/
theorem given_written (hs : s.InRange) :
    s.chosen.Given (Json.valueOf? (s.written.map fun m => (m.1, m.2.toList))) where
  purgeThreshold := .some (isWord_toString hs.purgeThreshold)
  alignUnit := .some (isWord_toString hs.alignUnit)
  memoryClass := .some (Json.isClass_name s.memoryClass)
  textureUnits := .some (isWord_toString hs.textureUnits)
  pools := .some (Budgets.isText_text hs.pools)
  metricsWindow := .some (isWord_toString hs.metricsWindow)

/-- Settings that are written choose every value. -/
theorem isObject_text (hs : s.InRange) : s.chosen.IsObject s.text := by
  have hvalues : ∀ m ∈ s.written, Json.IsValue m.2.toList := by
    simp only [written, List.forall_mem_cons]
    exact ⟨(isWord_toString hs.purgeThreshold).isValue, (isWord_toString hs.alignUnit).isValue,
      (Json.isClass_name s.memoryClass).isValue, (isWord_toString hs.textureUnits).isValue,
      (Budgets.isText_text hs.pools).isValue, (isWord_toString hs.metricsWindow).isValue,
      List.forall_mem_nil _⟩
  have hobject : Json.IsObjectOf names s.chosen.Given (Json.object s.written).toList :=
    isObjectOf_object rfl (by decide) (by decide) hvalues (given_written hs)
  exact ⟨_, holds_toList _, text_eq s ▸ hobject⟩

/-- What was written is read back. -/
theorem parse_text (hs : s.InRange) : parse s.text.toList = .ok s :=
  (isObject_text hs).parse_eq

/-- Reading back settings that were written comes to what checking them does. -/
theorem ofText_text (hs : s.InRange) : ofText s.text = s.validate.map fun _ => s :=
  ofText_of_parse (parse_text hs)

/-- **Settings that are written and read back are the same, and only then they are checked.** Whatever the
settings, if all numbers are machine words, reading back their text

* gives the same settings, if they are accepted;
* and otherwise fails with the error of checking them: with the row alignment if that is no power of two,
  whatever the number of units, and if it is one, with the missing units;
* and never finds anything wrong with the text. -/
theorem text_round_trip (hs : s.InRange) :
    (s.validate = .ok () → ofText s.text = .ok s) ∧
    (∀ e, s.validate = .error e → ofText s.text = .error e) ∧
    (¬s.alignUnit.isPowerOfTwo → ofText s.text = .error (.invalidAlignUnit s.alignUnit)) ∧
    (s.alignUnit.isPowerOfTwo → s.textureUnits = 0 → ofText s.text = .error .noTextureUnits) ∧
    ∀ cause, ofText s.text ≠ .error (.text cause) := by
  rw [ofText_text hs]
  refine ⟨fun h => ?_, fun e h => ?_, fun hunit => ?_, fun hunit hnone => ?_, fun cause h => ?_⟩
  · rw [h]
    rfl
  · rw [h]
    rfl
  · rw [validate, if_pos hunit]
    rfl
  · rw [validate, if_neg (not_not_intro hunit), if_pos hnone]
    rfl
  · rw [validate] at h
    split at h
    · cases h
    · split at h <;> cases h

/-- Settings with the largest numbers that are accepted. -/
def largest : Settings where
  purgeThreshold := Word.limit - 1
  alignUnit := Nat.pow 2 63
  memoryClass := .only .external
  textureUnits := Word.limit - 1
  pools := .uniform (Word.limit - 1)
  metricsWindow := Word.limit - 1

/-- The largest numbers are read back. -/
theorem text_round_trip_of_largest :
    largest.InRange ∧ largest.validate = .ok () ∧ ofText largest.text = .ok largest := by
  have hrange : largest.InRange := by
    refine ⟨by decide, by decide, by decide, fun p => ?_, by decide⟩
    rw [largest, PerPool.get_uniform]
    decide
  have hvalidate : largest.validate = .ok () := validate_eq_ok_iff.mpr ⟨⟨63, rfl⟩, by decide⟩
  exact ⟨hrange, hvalidate, (text_round_trip hrange).1 hvalidate⟩

end Settings

end TextureMemory
