import TextureMemory.Proofs.Surface
import TextureMemory.Scene

/-!
# Rows of pixels

A frame is painted row by row, each row two bytes for a pixel, whatever the format of the texture. The
rows begin a stride apart, and the stride follows the format. So they fit into the surface just if the
row is no longer than the stride (`Scene.rowsFit_iff`): for all formats of two bytes a pixel and more, and for
those of one byte where the padding is as wide as the texture (`Texture.overruns_iff`).
-/

namespace TextureMemory

/-- The rows of a frame are longer than the rows of the texture. -/
def Texture.Overruns (t : Texture) (unit : Nat) : Prop :=
  Alignment.ceil t.handle.width unit * t.handle.format.bytesPerPixel < 2 * t.handle.width

/-- This is so for formats of one byte a pixel only, and there just if the padding is narrower than the
texture. -/
theorem Texture.overruns_iff {t : Texture} {unit : Nat} (hunit : 0 < unit) :
    t.Overruns unit ↔ t.handle.format.bytesPerPixel = 1 ∧
      Alignment.ceil t.handle.width unit < 2 * t.handle.width := by
  have hceil : t.handle.width ≤ Alignment.ceil t.handle.width unit := Alignment.le_ceil hunit
  have hpos := t.handle.format.bytesPerPixel_pos
  rw [Overruns]
  by_cases hone : t.handle.format.bytesPerPixel = 1
  · rw [hone, Nat.mul_one]
    exact ⟨fun h => ⟨rfl, h⟩, fun h => h.2⟩
  · refine iff_of_false (Nat.not_lt.mpr ?_) fun h => hone h.1
    rw [Nat.mul_comm 2]
    exact Nat.mul_le_mul hceil (by omega)

namespace Scene

/-- The buffer with the same row written `height` times, `stride` bytes apart. -/
def painted (buffer : Buffer) (row : List UInt8) (stride height : Nat) : Buffer :=
  (List.range height).foldl (fun buffer y => buffer.overwrite (y * stride) row) buffer

/-- Every row lies within the buffer. -/
def RowsFit (buffer : Buffer) (length stride height : Nat) : Prop :=
  ∀ y < height, y * stride + length ≤ buffer.size

variable {buffer : Buffer} {row : List UInt8} {length stride height width frame place : Nat}

/-! ## Painting -/

/-- The last row is painted behind the others. -/
theorem painted_succ : painted buffer row stride (height + 1) =
    (painted buffer row stride height).overwrite (height * stride) row := by
  rw [painted, List.range_succ, List.foldl_append]
  rfl

/-- Painting makes a buffer neither longer nor shorter. -/
@[simp] theorem size_painted : (painted buffer row stride height).size = buffer.size := by
  induction height with
  | zero => rfl
  | succ height ih => rw [painted_succ, Buffer.size_overwrite, ih]

/-- One more row is written, if it lies within the buffer. -/
theorem paint_succ {upper : Buffer} (h : paint buffer row stride height = .ok upper) :
    paint buffer row stride (height + 1) =
      if height * stride + row.length ≤ upper.size then .ok (upper.overwrite (height * stride) row)
      else .error .outOfRange := by
  rw [paint, List.range_succ, List.foldlM_append, ← paint, h]
  simp only [Fault.ok_bind, List.foldlM_cons, List.foldlM_nil, bind_pure, Buffer.write?]
  by_cases hin : height * stride + row.length ≤ upper.size
  · rw [if_pos hin, if_pos hin]
  · rw [if_neg hin, if_neg hin]

/-- Where the upper rows cannot be painted, neither can all. -/
theorem paint_succ_of_error {fault : Fault} (h : paint buffer row stride height = .error fault) :
    paint buffer row stride (height + 1) = .error fault := by
  rw [paint, List.range_succ, List.foldlM_append, ← paint, h]
  rfl

/-- Rows fit if the upper ones do, and the last. -/
theorem RowsFit.of_succ (h : RowsFit buffer length stride (height + 1)) :
    RowsFit buffer length stride height ∧ height * stride + length ≤ buffer.size :=
  ⟨fun y hy => h y (Nat.lt_succ_of_lt hy), h height (Nat.lt_succ_self height)⟩

/-- Rows that lie within the buffer are painted. -/
theorem paint_of_fit (h : RowsFit buffer row.length stride height) :
    paint buffer row stride height = .ok (painted buffer row stride height) := by
  induction height with
  | zero => rfl
  | succ height ih =>
    obtain ⟨hrest, hlast⟩ := h.of_succ
    rw [paint_succ (ih hrest), size_painted, if_pos hlast, painted_succ]

/-- The first row that does not lie within the buffer halts the program. -/
theorem paint_of_not_fit (h : ¬RowsFit buffer row.length stride height) :
    paint buffer row stride height = .error .outOfRange := by
  induction height with
  | zero => exact absurd (fun _ hy => absurd hy (Nat.not_lt_zero _)) h
  | succ height ih =>
    by_cases hrest : RowsFit buffer row.length stride height
    · rw [paint_succ (paint_of_fit hrest), size_painted, if_neg]
      intro hlast
      apply h
      intro y hy
      rcases Nat.lt_succ_iff_lt_or_eq.mp hy with hlt | rfl
      · exact hrest y hlt
      · exact hlast
    · exact paint_succ_of_error (ih hrest)

/-- In a surface with rows, the rows of a frame fit just if they are no longer than the stride. -/
theorem rowsFit_iff (hsize : buffer.size = stride * height) (hheight : 0 < height) :
    RowsFit buffer length stride height ↔ length ≤ stride := by
  constructor
  · intro h
    have hlast := h (height - 1) (by omega)
    rw [hsize, Nat.mul_comm stride, Nat.sub_one_mul] at hlast
    have hle : stride ≤ height * stride := Nat.le_mul_of_pos_left stride hheight
    omega
  · intro hle y hy
    have hrow : (y + 1) * stride ≤ height * stride := Nat.mul_le_mul_right stride hy
    rw [Nat.succ_mul] at hrow
    rw [hsize, Nat.mul_comm stride]
    omega

/-- What is found in a buffer after rows were written that are no longer than the stride: the byte of the
row at its place in the row, and between the rows and behind them what was there before. -/
theorem getElem?_painted (hfit : RowsFit buffer row.length stride height)
    (hrow : row.length ≤ stride) (hstride : 0 < stride) :
    (painted buffer row stride height)[place]? =
      if place / stride < height ∧ place % stride < row.length then row[place % stride]?
      else buffer[place]? := by
  induction height with
  | zero => simp [painted]
  | succ height ih =>
    obtain ⟨hrest, hlast⟩ := hfit.of_succ
    have hplace := Nat.div_add_mod' place stride
    have hmod := Nat.mod_lt place hstride
    rw [painted_succ, Buffer.getElem?_overwrite (by rwa [size_painted]), ih hrest]
    -- The last row covers the places whose quotient is its number, up to its length.
    by_cases heq : place / stride = height
    · rw [heq] at hplace
      by_cases hin : place % stride < row.length
      · rw [if_pos (by omega), if_pos ⟨by omega, hin⟩]
        congr 1
        omega
      · rw [if_neg (by omega), if_neg fun h => hin h.2, if_neg fun h => hin h.2]
    · have hout : ¬(height * stride ≤ place ∧ place < height * stride + row.length) := by
        rintro ⟨hge, hlt⟩
        apply heq
        apply Nat.div_eq_of_lt_le hge
        rw [Nat.succ_mul]
        omega
      rw [if_neg hout]
      congr 1
      rw [eq_iff_iff]
      omega

/-- A byte of the row is found in each row that was written. -/
theorem getElem?_painted_row (hfit : RowsFit buffer row.length stride height)
    (hrow : row.length ≤ stride) {x y : Nat} (hx : x < row.length) (hy : y < height) :
    (painted buffer row stride height)[y * stride + x]? = row[x]? := by
  have hstride : 0 < stride := by omega
  have hdiv : (y * stride + x) / stride = y := by
    rw [Nat.add_comm, Nat.add_mul_div_right x y hstride, Nat.div_eq_of_lt (by omega), Nat.zero_add]
  have hmod : (y * stride + x) % stride = x := by
    rw [Nat.add_comm, Nat.add_mul_mod_self_right, Nat.mod_eq_of_lt (by omega)]
  rw [getElem?_painted hfit hrow hstride, hdiv, hmod, if_pos ⟨hy, hx⟩]

/-- Behind the rows that were written there is what was there before. -/
theorem getElem?_painted_padding (hfit : RowsFit buffer row.length stride height)
    {x y : Nat} (hx : row.length ≤ x) (hstride : x < stride) :
    (painted buffer row stride height)[y * stride + x]? = buffer[y * stride + x]? := by
  have hmod : (y * stride + x) % stride = x := by
    rw [Nat.add_comm, Nat.add_mul_mod_self_right, Nat.mod_eq_of_lt hstride]
  rw [getElem?_painted hfit (by omega) (by omega), hmod, if_neg fun hin => by omega]

/-! ## The bytes of a row -/

/-- A pixel has 15 bits of color, under one that is set. -/
theorem texel_eq (frame x : Nat) : texel frame x = 0x8000 ||| (x + frame) % 0x8000 := by
  have hlt : (x + frame) % 0x8000 < Nat.pow 2 15 := Nat.mod_lt _ (by decide)
  exact Nat.two_pow_add_eq_or_of_lt hlt 1

/-- A texel takes two bytes. -/
theorem texel_lt (frame x : Nat) : texel frame x < 0x10000 := by
  have hlt : (x + frame) % 0x8000 < 0x8000 := Nat.mod_lt _ (by decide)
  rw [texel]
  omega

/-- The last pixel of a row comes behind the others. -/
theorem rowBytes_succ : rowBytes (width + 1) frame = rowBytes width frame ++
    [UInt8.ofNat (texel frame width % 256), UInt8.ofNat (texel frame width / 256)] := by
  rw [rowBytes, List.range_succ, List.flatMap_append]
  rfl

/-- A row has two bytes for each pixel. -/
@[simp] theorem length_rowBytes (width frame : Nat) : (rowBytes width frame).length = 2 * width := by
  induction width with
  | zero => rfl
  | succ width ih =>
    rw [rowBytes_succ, List.length_append, ih]
    rfl

/-- The two bytes of a pixel stand in the row at the double of its place, the low one first. -/
theorem getElem?_rowBytes {x : Nat} (hx : x < width) : ∃ low high : UInt8,
    (rowBytes width frame)[2 * x]? = some low ∧ (rowBytes width frame)[2 * x + 1]? = some high ∧
      low.toNat + 256 * high.toNat = texel frame x := by
  induction width with
  | zero => cases hx
  | succ width ih =>
    rw [rowBytes_succ]
    rcases Nat.lt_succ_iff_lt_or_eq.mp hx with hlt | rfl
    · obtain ⟨low, high, hlow, hhigh, heq⟩ := ih hlt
      refine ⟨low, high, ?_, ?_, heq⟩
      · rw [List.getElem?_append_left (by rw [length_rowBytes]; omega), hlow]
      · rw [List.getElem?_append_left (by rw [length_rowBytes]; omega), hhigh]
    · -- The pixel is the last of the row.
      have hbyte := texel_lt frame x
      refine ⟨UInt8.ofNat (texel frame x % 256), UInt8.ofNat (texel frame x / 256), ?_, ?_, ?_⟩
      · rw [List.getElem?_append_right (Nat.le_of_eq (length_rowBytes x frame)), length_rowBytes,
          Nat.sub_self]
        rfl
      · rw [List.getElem?_append_right (by rw [length_rowBytes]; omega), length_rowBytes,
          Nat.add_sub_cancel_left]
        rfl
      · show texel frame x % 256 % 256 + 256 * (texel frame x / 256 % 256) = texel frame x
        omega

end Scene

end TextureMemory
