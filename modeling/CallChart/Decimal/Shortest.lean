/-! The shortest decimal that reads back as a given binary fraction. A binary fraction stands for an
interval of reals, those that round to it; the shortest decimal is one of the fewest digits in that
interval, and the nearest of those. All arithmetic is on natural numbers. -/

namespace CallChart

/-- The number `digits * 10 ^ exponent`. -/
structure Decimal where
  digits : Nat
  exponent : Int
deriving DecidableEq, Repr

/-- The number `mantissa * 2 ^ exponent` with its place among its neighbours. -/
structure Binary where
  mantissa : Nat
  exponent : Int
  /-- Whether the neighbour below is at half the distance of the one above. -/
  narrow : Bool
deriving DecidableEq, Repr

namespace Binary

/-- The denominator under which the number and the middles to its neighbours are whole. -/
def denominator (number : Binary) : Nat := 4 * Nat.pow 2 (-number.exponent).toNat

def quarter (number : Binary) : Nat := Nat.pow 2 number.exponent.toNat

def numerator (number : Binary) : Nat := 4 * number.mantissa * number.quarter

/-- The lower end of the interval, over the denominator. -/
def lower (number : Binary) : Nat :=
  number.numerator - (if number.narrow then 1 else 2) * number.quarter

/-- The upper end of the interval, over the denominator. -/
def upper (number : Binary) : Nat := number.numerator + 2 * number.quarter

/-- Whether `point * 10 ^ exponent` rounds to the number. The ends belong to the interval when the
mantissa is even. -/
def admits (number : Binary) (point : Nat) (exponent : Int) : Bool :=
  let scaled := point * Nat.pow 10 exponent.toNat * number.denominator
  let shrunk := Nat.pow 10 (-exponent).toNat
  if number.mantissa % 2 = 0 then
    number.lower * shrunk ≤ scaled && scaled ≤ number.upper * shrunk
  else
    number.lower * shrunk < scaled && scaled < number.upper * shrunk

/-- The number of digits before the decimal point; for a fraction, the number of zeros after it, as a
negative. -/
def magnitude (number : Binary) : Int :=
  let whole := number.numerator / number.denominator
  if whole = 0 then
    match (List.range 400).find? (fun places => number.denominator ≤ number.numerator * Nat.pow 10 places) with
    | some places => 1 - (places : Int)
    | none => 0
  else ((Nat.toDigits 10 whole).length : Int)

/-- The nearer of the two neighbours on the grid of multiples of `10 ^ exponent`, if it rounds to the
number, and else the other, if that does. A tie goes to the even neighbour. -/
def onGrid? (number : Binary) (exponent : Int) : Option Decimal :=
  let top := number.numerator * Nat.pow 10 (-exponent).toNat
  let unit := number.denominator * Nat.pow 10 exponent.toNat
  let below := top / unit
  let above := below + 1
  let rest := top % unit
  let nearBelow := 2 * rest < unit || (2 * rest = unit && below % 2 = 0)
  let candidates := if nearBelow then [below, above] else [above, below]
  (candidates.find? (number.admits · exponent)).map (⟨·, exponent⟩)

def trim : Nat → Decimal → Decimal
  | 0, decimal => decimal
  | fuel + 1, decimal =>
    if decimal.digits % 10 = 0 && decimal.digits ≠ 0 then
      trim fuel ⟨decimal.digits / 10, decimal.exponent + 1⟩
    else decimal

/-- The shortest decimal of a number that is not zero. Seventeen digits always suffice. -/
def shortest (number : Binary) : Decimal :=
  let places := number.magnitude
  let grids := (List.range 17).map fun (count : Nat) => places - (count + 1 : Int)
  trim 20 ((grids.findSome? number.onGrid?).getD ⟨0, 0⟩)

end Binary

end CallChart
