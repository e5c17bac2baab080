/-!
# The shortest decimal of a double

A double stands for every real number that rounds to it. Of the decimals among these, the one with
the fewest digits is written, and of several such the one that is nearest to the double; of two
that are equally near, the even one. All comparisons are made in whole numbers.
-/

namespace TextureMemory.Decimal

/-- A positive double: `significand · 2 ^ exponent`. -/
structure Binary where
  /-- The digits of the double, as a whole number. -/
  significand : Nat
  /-- The power of two that they are multiplied with. -/
  exponent : Int
  /-- Whether the next smaller double is only half as far away as the next larger one. -/
  narrow : Bool

/-- A decimal: the number that its digits spell, times a power of ten. -/
structure Digits where
  /-- The digits, as a whole number. -/
  significand : Nat
  /-- The power of ten that they are multiplied with. -/
  exponent : Int

/-- Takes the bits of a double apart, leaving the sign aside. -/
def Binary.ofBits (bits : UInt64) : Binary :=
  let fraction := bits.toNat % Nat.pow 2 52
  let scale := bits.toNat / Nat.pow 2 52 % Nat.pow 2 11
  if scale = 0 then ⟨fraction, -1074, false⟩
  else ⟨fraction + Nat.pow 2 52, Int.ofNat scale - 1075, fraction == 0 && scale != 1⟩

/-- Compares `d · 10 ^ p` with `m · 2 ^ q`. -/
def compareScaled (d : Nat) (p : Int) (m : Nat) (q : Int) : Ordering :=
  compare (d * Nat.pow 10 p.toNat * Nat.pow 2 (-q).toNat)
    (m * Nat.pow 2 q.toNat * Nat.pow 10 (-p).toNat)

/-- Whether a decimal rounds to the double: it lies between the points that are halfway to the
neighbours of the double, and these count if the significand of the double is even. -/
def Binary.covers (b : Binary) (d : Digits) : Bool :=
  let low := compareScaled d.significand d.exponent
    (4 * b.significand - if b.narrow then 1 else 2) (b.exponent - 2)
  let high := compareScaled d.significand d.exponent (4 * b.significand + 2) (b.exponent - 2)
  if b.significand % 2 = 0 then low != .lt && high != .gt else low == .gt && high == .lt

/-- The least power of ten above the double. -/
def Binary.magnitude (b : Binary) : Int :=
  let powers := (List.range 640).map fun (i : Nat) => (i : Int) - 330
  (powers.find? fun p => compareScaled 1 p b.significand b.exponent == .gt).getD 310

/-- The largest multiple of `10 ^ p` that is at most the double, divided by `10 ^ p`. -/
def Binary.quotient (b : Binary) (p : Int) : Nat :=
  (b.significand * Nat.pow 2 b.exponent.toNat * Nat.pow 10 (-p).toNat) /
    (Nat.pow 10 p.toNat * Nat.pow 2 (-b.exponent).toNat)

/-- The decimal with digits down to `10 ^ p` that rounds to the double and is nearest to it. -/
def Binary.decimalAt? (b : Binary) (p : Int) : Option Digits :=
  let below := b.quotient p
  let hits := [below, below + 1].filter fun d => b.covers ⟨d, p⟩
  match hits with
  | [d] => some ⟨d, p⟩
  | [d, e] =>
    -- The double lies between the two, so it is nearer to the first if it is below their middle.
    match compareScaled (d + e) p (2 * b.significand) b.exponent with
    | .gt => some ⟨d, p⟩
    | .lt => some ⟨e, p⟩
    | .eq => some ⟨if d % 2 = 0 then d else e, p⟩
  | _ => none

/-- The shortest decimal of a double. Seventeen digits tell any two doubles apart. -/
def Binary.shortest (b : Binary) : Digits :=
  let magnitude := b.magnitude
  let places := (List.range 17).map fun (i : Nat) => magnitude - 1 - i
  (places.findSome? b.decimalAt?).getD ⟨b.quotient (magnitude - 17), magnitude - 17⟩

/-- The digits without the zeros at their end, and the power of ten of the first one. -/
def Digits.normal (d : Digits) : List Char × Int :=
  let digits := Nat.toDigits 10 d.significand
  let kept := (digits.reverse.dropWhile (· == '0')).reverse
  (kept, d.exponent + digits.length - 1)

/-- Numbers from `10 ^ -5` up to `10 ^ 16` are written positionally, with at least one place behind
the point; all others with one digit before the point and a signed power of ten. -/
def layout (digits : List Char) (leading : Int) : String :=
  let zeros (n : Int) := List.replicate n.toNat '0'
  let chars :=
    if -5 ≤ leading && leading < 0 then
      '0' :: '.' :: zeros (-leading - 1) ++ digits
    else if 0 ≤ leading && leading ≤ 15 then
      let whole := digits.take (leading.toNat + 1)
      let rest := digits.drop (leading.toNat + 1)
      whole ++ zeros (leading + 1 - digits.length) ++ '.' :: (if rest.isEmpty then ['0'] else rest)
    else
      let rest := digits.drop 1
      let sign := if leading < 0 then '-' else '+'
      digits.take 1 ++ (if rest.isEmpty then [] else '.' :: rest) ++
        'e' :: sign :: Nat.toDigits 10 leading.natAbs
  String.ofList chars

/-- The text of a finite double, given by its bits. -/
def text (bits : UInt64) : String :=
  let b := Binary.ofBits bits
  let sign := if bits.toNat / Nat.pow 2 63 = 1 then "-" else ""
  if b.significand = 0 then
    sign ++ "0.0"
  else
    let (digits, leading) := b.shortest.normal
    sign ++ layout digits leading

end TextureMemory.Decimal
