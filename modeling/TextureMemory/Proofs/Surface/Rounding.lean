import TextureMemory.Proofs.Surface

/-!
# Two ways of rounding up

Both `Alignment.up` and `Alignment.up?` go up by all but one of a unit and round that down. They differ in
the order of the sum: `up` adds the whole unit first and takes one away then, `up?` takes one away first.
So they agree wherever value and unit together are less than the limit of words, and both give up where
they are more.

In between lies one value for each unit. Value and unit make the limit just where the value is the largest
multiple of the unit that is a word. It is rounded up already, and `up?` answers with it, but the sum that
`up` forms is no word (`Alignment.rounding_agrees`).
-/

namespace TextureMemory.Alignment

variable {value unit : Nat}

/-- A unit that makes the limit together with some value divides that value. -/
theorem dvd_of_add_eq_limit (h : unit.isPowerOfTwo) (hsum : value + unit = Word.limit) :
    unit ∣ value := by
  have hlimit : unit ∣ value + unit :=
    hsum ▸ dvd_limit h (Nat.le_of_add_left_le (Nat.le_of_eq hsum))
  exact (Nat.dvd_add_left (Nat.dvd_refl unit)).mp hlimit

/-- **The two ways of rounding up differ in one value for each unit.** Let the unit be a power of two.

* Unless value and unit together make the limit of words, `up?` answers with a number just where `up` does,
  and with the same one, and it answers with `none` just where `up` halts the program for an overflow.
* If they do, `up?` answers with the value itself, and `up` halts the program nevertheless. -/
theorem rounding_agrees (h : unit.isPowerOfTwo) :
    (value + unit ≠ Word.limit →
      (∀ n, up? value unit = .ok (some n) ↔ up value unit = .ok n) ∧
      (up? value unit = .ok none ↔ up value unit = .error .overflow)) ∧
    (value + unit = Word.limit →
      up? value unit = .ok (some value) ∧ up value unit = .error .overflow) := by
  have hpos : 0 < unit := Nat.pos_of_isPowerOfTwo h
  rw [up?_eq_ok h, up_eq h]
  rcases Nat.lt_trichotomy (value + unit) Word.limit with hlt | heq | hgt
  · have hlast : value + (unit - 1) < Word.limit := by omega
    rw [if_pos hlt, if_pos hlast]
    refine ⟨fun _ => ⟨fun n => ?_, ?_⟩, fun heq => absurd heq (Nat.ne_of_lt hlt)⟩ <;> simp
  · -- The value is a multiple of the unit, so it stays where it is.
    have hlast : value + (unit - 1) < Word.limit := by omega
    have hceil : ceil value unit = value := ceil_eq_of_dvd hpos (dvd_of_add_eq_limit h heq)
    rw [if_pos hlast, hceil, if_neg (Nat.not_lt.mpr (Nat.le_of_eq heq.symm))]
    exact ⟨fun hne => absurd heq hne, fun _ => ⟨rfl, rfl⟩⟩
  · have hlast : ¬value + (unit - 1) < Word.limit := by omega
    rw [if_neg hlast, if_neg (Nat.not_lt.mpr (Nat.le_of_lt hgt))]
    refine ⟨fun _ => ⟨fun n => ?_, ?_⟩, fun heq => absurd heq (Nat.ne_of_gt hgt)⟩ <;> simp

/-- Both ways agree one below the largest multiple of 256, and differ at that multiple. -/
theorem rounding_agrees_below_limit :
    Nat.isPowerOfTwo 256 ∧
    ((∀ n, up? (Word.limit - 257) 256 = .ok (some n) ↔ up (Word.limit - 257) 256 = .ok n) ∧
      (up? (Word.limit - 257) 256 = .ok none ↔ up (Word.limit - 257) 256 = .error .overflow)) ∧
    up? (Word.limit - 256) 256 = .ok (some (Word.limit - 256)) ∧
    up (Word.limit - 256) 256 = .error .overflow := by
  have h : Nat.isPowerOfTwo 256 := ⟨8, rfl⟩
  exact ⟨h, (rounding_agrees h).1 (by decide), (rounding_agrees h).2 (by decide)⟩

/-- The largest multiple of eight that is a word is rounded up by `up?` and halts the program in `up`. -/
theorem rounding_agrees_ne : ¬∀ value unit, unit.isPowerOfTwo → value < Word.limit →
    unit < Word.limit →
    (∀ n, up? value unit = .ok (some n) ↔ up value unit = .ok n) ∧
      (up? value unit = .ok none ↔ up value unit = .error .overflow) := by
  intro hall
  have hround : up? (Word.limit - 8) 8 = .ok (some (Word.limit - 8)) := by rfl
  have hhalt : up (Word.limit - 8) 8 = .error .overflow := by rfl
  have hagree := (hall (Word.limit - 8) 8 ⟨3, rfl⟩ (by decide) (by decide)).1 (Word.limit - 8)
  rw [hhalt] at hagree
  cases hagree.mp hround

end TextureMemory.Alignment
