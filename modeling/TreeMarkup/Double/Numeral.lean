import TreeMarkup.Double.Basic
import TreeMarkup.Text.Basic

namespace TreeMarkup

namespace Double

/-- The quotients that round to a number: those between `low` and `high`, which are counted in
`1 / unit` like `value`. The ends belong to it if the number's significand is even. -/
structure Basin where
  low : Nat
  value : Nat
  high : Nat
  unit : Nat
  closed : Bool

/-- Half a unit on either side; below the first number of an exponent field, whose lower neighbour
is nearer, a quarter. -/
def basin (exponent : Fin 2047) (fraction : Fin fractionCount) : Basin :=
  let (up, down) := powerOfTwo (unitPower exponent)
  let value := 4 * (significand exponent fraction * up)
  { low := value - if fraction.val = 0 && 1 < exponent.val then up else 2 * up
    value
    high := value + 2 * up
    unit := 4 * down
    closed := significand exponent fraction % 2 == 0 }

namespace Basin

def holds (b : Basin) (power : Int) (c : Nat) : Bool :=
  let (up, down) := powerOfTen power
  let point := c * up * b.unit
  if b.closed then b.low * down ≤ point && point ≤ b.high * down
  else b.low * down < point && point < b.high * down

/-- The neighbour of the number on the grid of `10 ^ power` that reads back, if there is one. -/
def onGrid? (b : Basin) (power : Int) : Option Nat :=
  let (up, down) := powerOfTen power
  let numerator := b.value * down
  let denominator := b.unit * up
  let below := numerator / denominator
  match b.holds power below, b.holds power (below + 1) with
  | true, true => some (divHalfEven numerator denominator)
  | true, false => some below
  | false, true => some (below + 1)
  | false, false => none

end Basin

/-- Tries grids from coarse to fine; seventeen digits always tell two doubles apart. -/
def shortest (exponent : Fin 2047) (fraction : Fin fractionCount) : Decimal :=
  let b := basin exponent fraction
  let leading := floorLog10 b.value b.unit
  let found := (List.range 17).findSome? fun (step : Nat) ↦
    (b.onGrid? (leading - step)).map fun c ↦ (⟨c, leading - step⟩ : Decimal)
  (found.getD ⟨0, 0⟩).stripZeros

end Double

def Decimal.pointed (d : Decimal) : Text :=
  let s := d.digits
  let place := d.pointPlace
  if place ≤ 0 then "0." ++ Text.zeros (-place).toNat ++ s
  else if place < s.length then s.take place.toNat ++ '.' :: s.drop place.toNat
  else s ++ Text.zeros d.exponent.toNat ++ ".0"

def Text.exponentSign (power : Int) : Char := if power < 0 then '-' else '+'

def Decimal.scientific (d : Decimal) : Text :=
  let power := d.pointPlace - 1
  let mantissa := match d.digits with
    | first :: c :: cs => first :: '.' :: c :: cs
    | s => s
  let digits := Text.ofNat power.natAbs
  mantissa ++ 'e' :: Text.exponentSign power :: (Text.zeros (2 - digits.length) ++ digits)

def Decimal.general (d : Decimal) : Text :=
  let power := d.pointPlace - 1
  if -4 ≤ power && power < 16 then d.pointed else d.scientific

namespace Double

def signed (negative : Bool) (t : Text) : Text := if negative then '-' :: t else t

def general : Double → Text
  | x@(finite negative exponent fraction) =>
    signed negative (if x.isZero then "0.0" else (shortest exponent fraction).general)
  | infinite negative => signed negative "inf"
  | nan => "nan"

/-- The exact value with `places` digits after the point, half-way cases to the even digit. -/
def fixed (places : Nat) : Double → Text
  | finite negative exponent fraction =>
    let (numerator, denominator) := magnitude exponent fraction
    signed negative (fixedPlaces places numerator denominator)
  | infinite negative => signed negative "inf"
  | nan => "nan"

end Double

namespace Numeral

structure Scientific where
  negative : Bool
  mantissa : Text
  power : Int

def split? (t : Text) : Option Scientific :=
  match t.span (· != 'e') with
  | (_, []) => none
  | (mantissa, _ :: power) =>
    let (negative, digits) := match power with
      | '-' :: ds => (true, ds)
      | '+' :: ds => (false, ds)
      | ds => (false, ds)
    let n := ((Text.toNat? digits).getD 0 : Nat)
    some ⟨mantissa.head? == some '-', mantissa, if negative then -(n : Int) else n⟩

def Scientific.decimal (s : Scientific) : Decimal :=
  let fraction := (s.mantissa.dropWhile (· != '.')).drop 1
  ⟨(Text.toNat? (s.mantissa.filter Char.isDigit)).getD 0, s.power - fraction.length⟩

/-- The numeral of the same number that has an exponent only below -6 and above 20, and then
without padding. -/
def relax (t : Text) : Text :=
  match split? t with
  | none => t
  | some s =>
    if -7 < s.power && s.power < 21 then Double.signed s.negative s.decimal.positional
    else s.mantissa ++ 'e' :: Text.exponentSign s.power :: Text.ofNat s.power.natAbs

end Numeral

end TreeMarkup
