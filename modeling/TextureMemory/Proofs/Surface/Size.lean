import TextureMemory.Proofs.Surface
import TextureMemory.Purge

/-!
# The sizes of surfaces, exactly

A stride and a size are told exactly where they are words, although they are reached by steps each of which
may give up (`Surface.size_exact`). No step gives up too early, because none of the factors is zero: a
product that is a word has none but words on the way to it. No step lets a number pass that is not a word.

The unit is a word here. Only for a width of zero does that matter: it is rounded up by all but one of the
unit and then down to zero again, so the unit itself must be one that a word can tell.

A row of pixels is padded by less than one unit, and more pixels or more rows never take fewer bytes.
-/

namespace TextureMemory

namespace Alignment

variable {value value' unit : Nat}

/-- Rounding up adds less than one unit. -/
theorem ceil_lt_add (h : 0 < unit) : ceil value unit < value + unit := by
  have hle : ceil value unit ≤ value + (unit - 1) := Nat.div_mul_le_self _ _
  omega

/-- Rounding up keeps the order of numbers. -/
theorem ceil_mono (h : 0 < unit) (hle : value ≤ value') : ceil value unit ≤ ceil value' unit :=
  ceil_le_of_dvd h dvd_ceil (Nat.le_trans hle (le_ceil h))

/-- With a unit that is a word, rounding up answers with the least multiple if that is a word, and with
`none` otherwise. -/
theorem up?_eq_of_lt (h : unit.isPowerOfTwo) (hword : unit < Word.limit) :
    up? value unit = .ok (Word.ofNat? (ceil value unit)) := by
  rcases Nat.eq_zero_or_pos value with rfl | hpos
  · have hceil : ceil 0 unit = 0 := ceil_eq_of_dvd (Nat.pos_of_isPowerOfTwo h) (Nat.dvd_zero unit)
    have hlast : 0 + (unit - 1) < Word.limit := by omega
    rw [up?_eq_ok h, if_pos hlast, hceil]
    rfl
  · exact up?_eq h hpos

/-- Rounding a word down to a power of two clears the bits below that power. -/
theorem down_eq_and (h : unit.isPowerOfTwo) (hword : unit < Word.limit) (hvalue : value < Word.limit) :
    down value unit = value &&& (Word.limit - unit) := by
  obtain ⟨k, rfl⟩ := h
  have hsucc : 2 ^ k - 1 + 1 = 2 ^ k := Nat.sub_add_cancel (Nat.two_pow_pos k)
  have hlimit : Word.limit = 2 ^ 64 := rfl
  have hmask : Word.limit - 2 ^ k = 2 ^ 64 - (2 ^ k - 1 + 1) := by rw [hlimit, hsucc]
  have hlast : 2 ^ k - 1 < 2 ^ 64 := Nat.lt_of_le_of_lt (Nat.sub_le _ _) hword
  apply Nat.eq_of_testBit_eq
  intro i
  rw [down, Nat.testBit_mul_two_pow, Nat.testBit_div_two_pow, Nat.testBit_and, hmask,
    Nat.testBit_two_pow_sub_succ hlast, Nat.testBit_two_pow_sub_one]
  by_cases hi : k ≤ i
  · rw [Nat.sub_add_cancel hi]
    by_cases hwidth : i < 64
    · simp [hi, hwidth]
    · -- A word has no bits from the limit on.
      have hbit : value.testBit i = false := Nat.testBit_lt_two_pow
        (Nat.lt_of_lt_of_le hvalue (Nat.pow_le_pow_right (by decide) (Nat.le_of_not_lt hwidth)))
      simp [hbit]
  · have hlow : i < k := Nat.lt_of_not_le hi
    simp [hi, hlow]

end Alignment

/-- A policy tells the size of a surface as it is asked for, or the error that no word can tell it. -/
theorem Policy.size_eq_of_size? {p : Policy} {format : Format} {width height size : Nat}
    (h : Surface.size? width height format p.unit = .ok (Word.ofNat? size)) :
    p.size format width height =
      .ok (if size < Word.limit then .ok size else .error (.invalidDimensions width height)) := by
  rw [Policy.size, h]
  rcases Nat.lt_or_ge size Word.limit with hlt | hge
  · rw [Word.ofNat?_of_lt hlt, if_pos hlt]
    rfl
  · rw [Word.ofNat?_of_le hge, if_neg (Nat.not_lt.mpr hge)]
    rfl

namespace Surface

open TextureMemory.Alignment

variable {width width' height height' unit n : Nat} {format : Format}

/-- A stride is a whole number of pixels, none of the row is cut off, and less than one unit of pixels is
added to it. -/
theorem stride_bounds (h : stride? width format unit = .ok (some n)) :
    format.bytesPerPixel ∣ n ∧ width * format.bytesPerPixel ≤ n ∧
      n < (width + unit) * format.bytesPerPixel := by
  obtain ⟨hunit, rfl⟩ := stride_eq h
  have hpos : 0 < unit := Nat.pos_of_isPowerOfTwo hunit
  refine ⟨Nat.dvd_mul_left _ _, Nat.mul_le_mul_right _ (le_ceil hpos), ?_⟩
  exact Nat.mul_lt_mul_of_pos_right (ceil_lt_add hpos) format.bytesPerPixel_pos

/-- More pixels and more rows take at least as many bytes. -/
theorem exactSize_mono (hunit : 0 < unit) (hw : width ≤ width') (hh : height ≤ height') :
    exactSize width height format unit ≤ exactSize width' height' format unit :=
  Nat.mul_le_mul (Nat.mul_le_mul_right _ (ceil_mono hunit hw)) hh

/-- **A size is told exactly where it is a word.** Let the unit be a power of two that is a word. For every
format, every width and every height that is not zero,

* `ceil` is the least multiple of the unit that is not below the number;
* rounding up answers with it if it is a word, and with `none` otherwise; the answer is the sum that is
  rounded down with the bits below the unit cleared;
* the stride, the size of the surface, and the size as a policy tells it, are the exact products of these
  if they are words, and otherwise they are refused;
* a stride that is told is a whole number of pixels, at least those of the row, and less than one unit of
  pixels more;
* if a size is told, so is that of every surface with no more pixels in a row and no more rows, and it is
  not larger. -/
theorem size_exact (hunit : unit.isPowerOfTwo) (hword : unit < Word.limit) :
    (∀ value, unit ∣ ceil value unit ∧ value ≤ ceil value unit ∧
      (∀ n, unit ∣ n → value ≤ n → ceil value unit ≤ n) ∧
      up? value unit = .ok (Word.ofNat? (ceil value unit)) ∧
      ∀ n, up? value unit = .ok (some n) → n = (value + (unit - 1)) &&& (Word.limit - unit)) ∧
    (∀ width format, stride? width format unit =
      .ok (Word.ofNat? (ceil width unit * format.bytesPerPixel))) ∧
    (∀ width height format, 0 < height → size? width height format unit =
      .ok (Word.ofNat? (ceil width unit * format.bytesPerPixel * height))) ∧
    (∀ (policy : Policy) width height format, policy.unit = unit → 0 < height →
      policy.size format width height =
        .ok (if ceil width unit * format.bytesPerPixel * height < Word.limit then
          .ok (ceil width unit * format.bytesPerPixel * height)
        else .error (.invalidDimensions width height))) ∧
    (∀ width format n, stride? width format unit = .ok (some n) →
      format.bytesPerPixel ∣ n ∧ width * format.bytesPerPixel ≤ n ∧
        n < (width + unit) * format.bytesPerPixel) ∧
    ∀ width width' height height' format n', width ≤ width' → 0 < height → height ≤ height' →
      size? width' height' format unit = .ok (some n') →
      ∃ n, size? width height format unit = .ok (some n) ∧ n ≤ n' := by
  have hpos : 0 < unit := Nat.pos_of_isPowerOfTwo hunit
  have hup : ∀ {value}, up? value unit = .ok (Word.ofNat? (ceil value unit)) :=
    up?_eq_of_lt hunit hword
  refine ⟨?_, fun width format => stride?_eq_of_up? hup,
    fun width height format hh => size?_eq_of_up? hh hup, ?_,
    fun width format n => stride_bounds, ?_⟩
  · intro value
    refine ⟨dvd_ceil, le_ceil hpos, fun n => ceil_le_of_dvd hpos, hup, ?_⟩
    intro n h
    rw [up?_eq_ok hunit] at h
    split at h
    · next hsum =>
      cases h
      exact down_eq_and hunit hword hsum
    · cases h
  · rintro policy width height format rfl hh
    exact Policy.size_eq_of_size? (size?_eq_of_up? hh hup)
  · intro width width' height height' format n' hw hh hle h
    rw [size?_eq_of_up? (Nat.lt_of_lt_of_le hh hle) hup] at h
    obtain ⟨rfl, hlt⟩ := Word.ofNat?_eq_some_iff.mp (Except.ok.inj h)
    have hmono : exactSize width height format unit ≤ exactSize width' height' format unit :=
      exactSize_mono hpos hw hle
    refine ⟨exactSize width height format unit, ?_, hmono⟩
    rw [size?_eq_of_up? hh hup, Word.ofNat?_of_lt (Nat.lt_of_le_of_lt hmono hlt)]

/-- With the largest unit, one row of one byte for each pixel has a size, two rows have none, and neither
has a row of three bytes for each pixel. -/
theorem size_exact_of_largest_unit :
    Nat.isPowerOfTwo (Nat.pow 2 63) ∧ Nat.pow 2 63 < Word.limit ∧
    stride? 1 .bgr888 (Nat.pow 2 63) = .ok none ∧
    size? 1 1 .luminance8 (Nat.pow 2 63) = .ok (some (Nat.pow 2 63)) ∧
    size? 1 2 .luminance8 (Nat.pow 2 63) = .ok none := by
  have hunit : Nat.isPowerOfTwo (Nat.pow 2 63) := ⟨63, rfl⟩
  have hword : Nat.pow 2 63 < Word.limit := by decide
  obtain ⟨-, hstride, hsize, -⟩ := size_exact hunit hword
  refine ⟨hunit, hword, ?_, ?_, ?_⟩
  · rw [hstride]
    rfl
  · rw [hsize 1 1 _ (by decide)]
    rfl
  · rw [hsize 1 2 _ (by decide)]
    rfl

end Surface

end TextureMemory
