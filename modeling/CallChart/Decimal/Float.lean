import CallChart.Decimal.Shortest

/-! The text of a double-precision number: the shortest digits that read back, written out in full
near one and with an exponent otherwise. -/

namespace CallChart

namespace Decimal

def parts (number : Float) : Binary :=
  let bits := number.toBits.toNat
  let fraction : Nat := bits % Nat.pow 2 52
  let scale : Nat := bits / Nat.pow 2 52 % Nat.pow 2 11
  if scale = 0 then { mantissa := fraction, exponent := -1074, narrow := false }
  else
    { mantissa := Nat.pow 2 52 + fraction
      exponent := (scale : Int) - 1075
      narrow := fraction = 0 && 1 < scale }

def negative (number : Float) : Bool := number.toBits.toNat / Nat.pow 2 63 = 1

/-- Digits with a point after the given number of them. Numbers from a hundred-thousandth up to, but
not including, ten to the sixteenth are written out; a whole number keeps one zero after the point. -/
def layout (decimal : Decimal) : String :=
  let digits := Nat.toDigits 10 decimal.digits
  let point := (digits.length : Int) + decimal.exponent
  if 0 ≤ decimal.exponent && point ≤ 16 then
    String.ofList (digits ++ List.replicate decimal.exponent.toNat '0') ++ ".0"
  else if 0 < point && point ≤ 16 then
    String.ofList (digits.take point.toNat) ++ "." ++ String.ofList (digits.drop point.toNat)
  else if -5 < point && point ≤ 0 then
    "0." ++ String.ofList (List.replicate (-point).toNat '0' ++ digits)
  else
    let power := point - 1
    let mark := if power < 0 then "e-" else "e+"
    let fraction := if digits.length = 1 then "" else "." ++ String.ofList (digits.drop 1)
    String.ofList (digits.take 1) ++ fraction ++ mark ++ power.natAbs.repr

def text (number : Float) : String :=
  let binary := parts number
  let body := if binary.mantissa = 0 then "0.0" else layout binary.shortest
  if negative number then "-" ++ body else body

end Decimal

end CallChart
