import TextureMemory.Proofs.Fault
import TextureMemory.Surface.Size

/-!
# Rounding and sizes of surfaces

A unit that is a power of two never halts the program. Rounding down takes away less than one unit,
so rounding up never falls below the value it starts from, and a surface with pixels takes at least
one byte. The size of a surface is the number of its rows times its stride.

`Surface.exactSize` is the size as a natural number, whether or not a word can tell it. As no factor is
zero, each product on the way to it is a word if the size is, so asking for the size answers with that
number if it is a word, and with `none` otherwise (`Surface.size?_eq`).
-/

namespace TextureMemory

namespace Word

variable {a b : Nat}

/-- A natural number as a word, if it is one. -/
def ofNat? (n : Nat) : Option Nat := if n < limit then some n else none

/-- A number below the limit is the word of that number. -/
theorem ofNat?_of_lt (h : a < limit) : ofNat? a = some a := if_pos h

/-- A number from the limit on is no word. -/
theorem ofNat?_of_le (h : limit ≤ a) : ofNat? a = none := if_neg (Nat.not_lt.mpr h)

/-- A number is a word just if it lies below the limit. -/
theorem ofNat?_eq_some_iff : ofNat? a = some b ↔ b = a ∧ a < limit := by
  unfold ofNat?; split <;> simp [*, eq_comm]

/-- A number that is a word, times another that is not zero: all that decides is whether the product is a
word. -/
theorem bind_mul? (hb : 0 < b) : (ofNat? a).bind (mul? · b) = ofNat? (a * b) := by
  have hle : a ≤ a * b := Nat.le_mul_of_pos_right a hb
  by_cases hword : a * b < limit
  · rw [ofNat?_of_lt (Nat.lt_of_le_of_lt hle hword)]
    rfl
  · rw [ofNat?_of_le (Nat.le_of_not_lt hword)]
    rcases Nat.lt_or_ge a limit with hlt | hge
    · rw [ofNat?_of_lt hlt]
      exact if_neg hword
    · rw [ofNat?_of_le hge]
      rfl

end Word

namespace Alignment

variable {value unit n : Nat}

/-- The least multiple of the unit that is not below the value, whether or not it is a word. -/
def ceil (value unit : Nat) : Nat := down (value + (unit - 1)) unit

/-- Rounding down takes away less than one unit. -/
theorem lt_down_add (h : 0 < unit) : value < down value unit + unit := by
  have hmod := Nat.mod_lt value h
  have hdiv := Nat.div_add_mod' value unit
  rw [down]
  omega

/-- Rounding up gives a multiple of the unit. -/
theorem dvd_ceil : unit ∣ ceil value unit := Nat.dvd_mul_left unit _

/-- Going up by all but one of a unit before rounding down does not fall below the value. -/
theorem le_ceil (h : 0 < unit) : value ≤ ceil value unit := by
  have hlt : value + (unit - 1) < ceil value unit + unit := lt_down_add h
  omega

/-- A multiple of the unit that is not below the value is not below the least of them. -/
theorem ceil_le_of_dvd (h : 0 < unit) (hdvd : unit ∣ n) (hle : value ≤ n) : ceil value unit ≤ n := by
  obtain ⟨k, rfl⟩ := hdvd
  have hlt : value + (unit - 1) < unit * (k + 1) := by
    rw [Nat.mul_add_one]
    omega
  have hdiv : (value + (unit - 1)) / unit ≤ k :=
    Nat.le_of_lt_add_one (Nat.div_lt_of_lt_mul hlt)
  rw [ceil, down, Nat.mul_comm]
  exact Nat.mul_le_mul_left unit hdiv

/-- Rounding up leaves a multiple of the unit where it is. -/
theorem ceil_eq_of_dvd (h : 0 < unit) (hdvd : unit ∣ value) : ceil value unit = value :=
  Nat.le_antisymm (ceil_le_of_dvd h hdvd (Nat.le_refl value)) (le_ceil h)

/-- A unit that is not beyond the limit of words divides it. -/
theorem dvd_limit (h : unit.isPowerOfTwo) (hle : unit ≤ Word.limit) : unit ∣ Word.limit := by
  obtain ⟨k, rfl⟩ := h
  exact Nat.pow_dvd_pow 2 ((Nat.pow_le_pow_iff_right (by decide)).mp hle)

/-- Rounding up leaves the range of words just where the sum does that is rounded down. -/
theorem ceil_lt_limit_iff (h : unit.isPowerOfTwo) (hvalue : 0 < value) :
    ceil value unit < Word.limit ↔ value + (unit - 1) < Word.limit := by
  have hpos : 0 < unit := Nat.pos_of_isPowerOfTwo h
  refine ⟨?_, Nat.lt_of_le_of_lt (Nat.div_mul_le_self _ _)⟩
  intro hlt
  have hle : value ≤ ceil value unit := le_ceil hpos
  have hunit : unit ≤ ceil value unit := Nat.le_of_dvd (by omega) dvd_ceil
  -- The limit is a multiple of the unit, so the next multiple is not beyond it.
  have hgap : unit ≤ Word.limit - ceil value unit :=
    Nat.le_of_dvd (by omega) (Nat.dvd_sub (dvd_limit h (by omega)) dvd_ceil)
  omega

/-- A power of two is accepted as a unit. -/
theorem require_eq_ok (h : unit.isPowerOfTwo) : require unit = .ok () := if_pos h

/-- With a power of two, the rounding that may answer `none` never halts the program. It answers so where
the value and all but one of the unit together are no word. -/
theorem up?_eq_ok (h : unit.isPowerOfTwo) : up? value unit =
    .ok (if value + (unit - 1) < Word.limit then some (ceil value unit) else none) := by
  rw [up?, require_eq_ok h, Word.add?]
  split <;> rfl

/-- Rounding a positive number up answers with the least multiple if that is a word, and with `none`
otherwise. -/
theorem up?_eq (h : unit.isPowerOfTwo) (hvalue : 0 < value) :
    up? value unit = .ok (Word.ofNat? (ceil value unit)) := by
  simp only [up?_eq_ok h, Word.ofNat?, ceil_lt_limit_iff h hvalue]

/-- With a power of two, the rounding that may halt the program does so where value and unit together
are no word. -/
theorem up_eq (h : unit.isPowerOfTwo) : up value unit =
    if value + unit < Word.limit then .ok (ceil value unit) else .error .overflow := by
  have hpos : 0 < unit := Nat.pos_of_isPowerOfTwo h
  rw [up, require_eq_ok h]
  by_cases hlt : value + unit < Word.limit
  · have hadd : Word.add value unit = .ok (value + unit) := if_pos hlt
    have hsub : Word.sub (value + unit) 1 = .ok (value + (unit - 1)) :=
      Word.sub_eq_ok_iff.mpr (by omega)
    rw [if_pos hlt, ceil]
    simp only [hadd, hsub, Fault.ok_bind]
    rfl
  · have hadd : Word.add value unit = .error .overflow := if_neg hlt
    rw [if_neg hlt]
    simp only [hadd, Fault.ok_bind, Fault.error_bind]

/-- A multiple of the unit is aligned, if one more unit still gives a word. -/
theorem requireAligned_eq_ok (h : unit.isPowerOfTwo) (hdvd : unit ∣ value)
    (hlt : value + unit < Word.limit) : requireAligned value unit = .ok () := by
  have hceil : ceil value unit = value := ceil_eq_of_dvd (Nat.pos_of_isPowerOfTwo h) hdvd
  rw [requireAligned, up_eq h, if_pos hlt, hceil]
  exact if_pos rfl

end Alignment

namespace Surface

variable {width height unit n : Nat} {format : Format}

/-- With a power of two as the unit, asking for a size never halts the program. -/
theorem exists_size?_eq_ok (h : unit.isPowerOfTwo) :
    ∃ size, size? width height format unit = .ok size := by
  rw [size?, stride?, Alignment.up?_eq_ok h]
  exact ⟨_, rfl⟩

/-- A size is the stride times the number of rows. -/
theorem exists_stride_of_size? (h : size? width height format unit = .ok (some n)) :
    ∃ stride, stride? width format unit = .ok (some stride) ∧ n = stride * height := by
  cases hs : stride? width format unit with
  | error fault => rw [size?, hs] at h; cases h
  | ok stride =>
    rw [size?, hs] at h
    replace h : (stride.bind fun s => Word.mul? s height) = some n := Except.ok.inj h
    obtain ⟨s, rfl, hmul⟩ := Option.bind_eq_some_iff.mp h
    exact ⟨s, rfl, (Word.mul?_eq_some_iff.mp hmul).1⟩

/-- A stride that is told is the width, rounded up to the unit, times the bytes of a pixel. -/
theorem stride_eq (h : stride? width format unit = .ok (some n)) :
    unit.isPowerOfTwo ∧ n = Alignment.ceil width unit * format.bytesPerPixel := by
  by_cases hu : unit.isPowerOfTwo
  · rw [stride?, Alignment.up?_eq_ok hu] at h
    obtain ⟨padded, hpad, hmul⟩ := Option.bind_eq_some_iff.mp (Except.ok.inj h)
    split at hpad
    · cases hpad
      exact ⟨hu, (Word.mul?_eq_some_iff.mp hmul).1⟩
    · cases hpad
  · rw [stride?, Alignment.up?, Alignment.require, if_neg hu] at h
    cases h

/-- A row of pixels takes at least one byte. -/
theorem stride_pos (hw : 0 < width) (h : stride? width format unit = .ok (some n)) : 0 < n := by
  obtain ⟨hu, rfl⟩ := stride_eq h
  have hle : width ≤ Alignment.ceil width unit :=
    Alignment.le_ceil (Nat.pos_of_isPowerOfTwo hu)
  exact Nat.mul_pos (by omega) format.bytesPerPixel_pos

/-- The bytes that a surface takes, whether or not a word can tell them. -/
def exactSize (width height : Nat) (format : Format) (unit : Nat) : Nat :=
  Alignment.ceil width unit * format.bytesPerPixel * height

/-- Where the width, rounded up, is told if it is a word, so is the stride. -/
theorem stride?_eq_of_up?
    (hup : Alignment.up? width unit = .ok (Word.ofNat? (Alignment.ceil width unit))) :
    stride? width format unit =
      .ok (Word.ofNat? (Alignment.ceil width unit * format.bytesPerPixel)) := by
  rw [stride?, hup]
  exact congrArg Except.ok (Word.bind_mul? format.bytesPerPixel_pos)

/-- Where the width, rounded up, is told if it is a word, so is the size of a surface that has rows. -/
theorem size?_eq_of_up? (hh : 0 < height)
    (hup : Alignment.up? width unit = .ok (Word.ofNat? (Alignment.ceil width unit))) :
    size? width height format unit = .ok (Word.ofNat? (exactSize width height format unit)) := by
  rw [size?, stride?_eq_of_up? hup]
  exact congrArg Except.ok (Word.bind_mul? hh)

/-- Asking for the size of a surface with pixels answers with it if it is a word, and with `none`
otherwise. -/
theorem size?_eq (h : unit.isPowerOfTwo) (hw : 0 < width) (hh : 0 < height) :
    size? width height format unit = .ok (Word.ofNat? (exactSize width height format unit)) :=
  size?_eq_of_up? hh (Alignment.up?_eq h hw)

/-- A size that is told is the exact one. -/
theorem eq_exactSize (h : size? width height format unit = .ok (some n)) :
    n = exactSize width height format unit := by
  obtain ⟨stride, hstride, rfl⟩ := exists_stride_of_size? h
  rw [(stride_eq hstride).2, exactSize]

/-- A surface with pixels takes at least one byte. -/
theorem size_pos (hw : 0 < width) (hh : 0 < height)
    (h : size? width height format unit = .ok (some n)) : 0 < n := by
  obtain ⟨stride, hs, rfl⟩ := exists_stride_of_size? h
  exact Nat.mul_pos (stride_pos hw hs) hh

end Surface

end TextureMemory
