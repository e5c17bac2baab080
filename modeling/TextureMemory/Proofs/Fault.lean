import TextureMemory.Fault

/-!
# Opening calls that may halt the program

A call made of several others answers if each of them does, and halts with the first that halts.

Two calls that go by the same steps on related data are compared step by step, by the rules of
`Fault.Follows`.
-/

namespace TextureMemory.Fault

variable {α β : Type} {x : Except Fault α} {f : α → Except Fault β} {a : α} {b : β} {fault : Fault}

/-- After a call that answers, its answer goes to the next. -/
@[simp] theorem ok_bind : ((.ok a : Except Fault α) >>= f) = f a := rfl

/-- After a call that halts, there is no next. -/
@[simp] theorem error_bind : ((.error fault : Except Fault α) >>= f) = .error fault := rfl

/-- Two calls in a row answer if the first answers and then the second does. -/
theorem bind_eq_ok_iff : (x >>= f) = .ok b ↔ ∃ a, x = .ok a ∧ f a = .ok b := by
  cases x with
  | error fault => simp
  | ok a => simp

/-- Two calls in a row halt if the first does, or if it answers and then the second does. -/
theorem bind_eq_error_iff :
    (x >>= f) = .error fault ↔ x = .error fault ∨ ∃ a, x = .ok a ∧ f a = .error fault := by
  cases x with
  | error fault => simp
  | ok a => simp

/-! ## Two calls side by side -/

/-- Where the one call answers, the other answers with the image of it. If the other is to follow
strictly, it halts where the one halts, and in the same way. -/
structure Follows {α β : Type} (strict : Bool) (image : α → β) (x : Except Fault α)
    (y : Except Fault β) : Prop where
  answers : ∀ a, x = .ok a → y = .ok (image a)
  halts : strict = true → ∀ fault, x = .error fault → y = .error fault

namespace Follows

variable {γ δ : Type} {strict : Bool} {image : α → β} {g : γ → δ} {y : Except Fault β}
  {k : α → Except Fault γ}

theorem refl : Follows strict id x x := ⟨fun _ h => h, fun _ _ h => h⟩

/-- Both answer. -/
theorem answer_eq (h : b = image a) : Follows strict image (.ok a) (.ok b) := by
  subst h
  constructor
  · rintro _ ⟨⟩
    rfl
  · rintro - _ ⟨⟩

theorem answer (a : α) : Follows strict image (.ok a) (.ok (image a)) := answer_eq rfl

/-- Where it is not strict, a call follows another if it answers where that does. -/
theorem of_answers (h : ∀ a, x = .ok a → y = .ok (image a)) : Follows false image x y :=
  ⟨h, fun hstrict => absurd hstrict Bool.false_ne_true⟩

/-- Both halt, in the same way. -/
theorem halt (fault : Fault) : Follows strict image (.error fault) (.error fault) := by
  constructor
  · rintro _ ⟨⟩
  · rintro - _ ⟨⟩
    rfl

/-- Calls follow one another if their first steps do, and what comes after each answer that the first step
can give does. -/
theorem bind_of_answers {k' : β → Except Fault δ} (h : Follows strict image x y)
    (hk : ∀ a, x = .ok a → Follows strict g (k a) (k' (image a))) :
    Follows strict g (x >>= k) (y >>= k') := by
  cases x with
  | ok a =>
    rw [h.answers a rfl]
    exact hk a rfl
  | error fault =>
    constructor
    · rintro _ ⟨⟩
    · rintro hstrict _ ⟨⟩
      rw [h.halts hstrict fault rfl]
      rfl

/-- Calls follow one another if their first steps do, and what comes after each answer does. -/
theorem bind {k' : β → Except Fault δ} (h : Follows strict image x y)
    (hk : ∀ a, Follows strict g (k a) (k' (image a))) :
    Follows strict g (x >>= k) (y >>= k') :=
  h.bind_of_answers fun a _ => hk a

/-- Calls that take the same first step are compared by what comes after it. -/
theorem same {k' : α → Except Fault δ} (hk : ∀ a, Follows strict g (k a) (k' a)) :
    Follows strict g (x >>= k) (x >>= k') :=
  refl.bind hk

/-- A call that follows strictly does the same as the other, but for the image. -/
theorem eq_map (h : Follows true image x y) : y = x.map image := by
  cases x with
  | ok a => exact h.answers a rfl
  | error fault => exact h.halts rfl fault rfl

end Follows

end TextureMemory.Fault
