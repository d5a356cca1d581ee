import TreeMarkup.Text.Basic

namespace TreeMarkup

structure Decimal where
  coefficient : Nat
  exponent : Int
  deriving DecidableEq, Repr

namespace Decimal

def digits (d : Decimal) : Text := Text.ofNat d.coefficient

/-- The number is `0.s * 10 ^ pointPlace`, where `s` are the digits. -/
def pointPlace (d : Decimal) : Int := d.digits.length + d.exponent

/-- Trailing zeros of the coefficient move into the exponent. -/
def stripZeros (d : Decimal) : Decimal :=
  if h : 0 < d.coefficient ∧ d.coefficient % 10 = 0 then
    stripZeros ⟨d.coefficient / 10, d.exponent + 1⟩
  else d
termination_by d.coefficient
decreasing_by exact Nat.div_lt_self h.1 (by decide)

/-- The number without an exponent: as many zeros follow or precede the digits as it takes. -/
def positional (d : Decimal) : Text :=
  if 0 ≤ d.exponent then Text.ofNat (d.coefficient * Nat.pow 10 d.exponent.toNat)
  else
    let places := (-d.exponent).toNat
    let padded := Text.zeros (places + 1 - d.digits.length) ++ d.digits
    padded.take (padded.length - places) ++ '.' :: padded.drop (padded.length - places)

end Decimal

def divHalfEven (numerator denominator : Nat) : Nat :=
  let quotient := numerator / denominator
  let remainder := numerator % denominator
  if 2 * remainder < denominator then quotient
  else if denominator < 2 * remainder then quotient + 1
  else quotient + quotient % 2

/-- The quotient with exactly `places` digits after the point, and no point if there are none. -/
def fixedPlaces (places numerator denominator : Nat) : Text :=
  Decimal.positional ⟨divHalfEven (numerator * Nat.pow 10 places) denominator, -places⟩

abbrev fractionCount : Nat := 4503599627370496

/-- A finite number is its sign, its exponent field and its fraction field. -/
inductive Double
  | finite (negative : Bool) (exponent : Fin 2047) (fraction : Fin fractionCount)
  | infinite (negative : Bool)
  | nan
  deriving DecidableEq, Repr

namespace Double

instance : Inhabited Double := ⟨finite false 0 0⟩

def zero (negative : Bool) : Double := finite negative 0 0

def isZero : Double → Bool
  | finite _ exponent fraction => exponent.val == 0 && fraction.val == 0
  | _ => false

/-- The integer that a finite number is a multiple of its unit by; only numbers with an exponent
field of zero lack the leading bit. -/
def significand (exponent : Fin 2047) (fraction : Fin fractionCount) : Nat :=
  if exponent.val = 0 then fraction.val else fractionCount + fraction.val

def unitPower (exponent : Fin 2047) : Int :=
  if exponent.val = 0 then -1074 else exponent.val - 1075

def powerOfTwo (power : Int) : Nat × Nat := (Nat.pow 2 power.toNat, Nat.pow 2 (-power).toNat)

def powerOfTen (power : Int) : Nat × Nat := (Nat.pow 10 power.toNat, Nat.pow 10 (-power).toNat)

def magnitude (exponent : Fin 2047) (fraction : Fin fractionCount) : Nat × Nat :=
  let (up, down) := powerOfTwo (unitPower exponent)
  (significand exponent fraction * up, down)

/-- The magnitudes in increasing order, counted from zero; infinity comes after the last one. -/
def ofOrdinal (negative : Bool) (n : Nat) : Double :=
  if h : n / fractionCount < 2047 then
    finite negative ⟨n / fractionCount, h⟩ ⟨n % fractionCount, Nat.mod_lt n (by decide)⟩
  else infinite negative

/-- The integer `e` with `2 ^ e ≤ numerator / denominator < 2 ^ (e + 1)`. -/
def floorLog2 (numerator denominator : Nat) : Int :=
  let guess : Int := numerator.log2 - denominator.log2
  let (up, down) := powerOfTwo guess
  if denominator * up ≤ numerator * down then guess else guess - 1

def floorLog10 (numerator denominator : Nat) : Int :=
  let guess : Int := (Text.ofNat numerator).length - (Text.ofNat denominator).length
  let (up, down) := powerOfTen guess
  if denominator * up ≤ numerator * down then guess else guess - 1

/-- The double nearest to a quotient; half-way between two, the one with an even ordinal. -/
def ofRatio (negative : Bool) (numerator denominator : Nat) : Double :=
  if numerator = 0 then zero negative
  else
    let leading := floorLog2 numerator denominator - 52
    let power := if leading < -1074 then -1074 else leading
    let (up, down) := powerOfTwo power
    let units := divHalfEven (numerator * down) (denominator * up)
    ofOrdinal negative ((power + 1074).toNat * fractionCount + units)

def ofInt (n : Int) : Double := ofRatio (n < 0) n.natAbs 1

def truncate? : Double → Option Int
  | finite negative exponent fraction =>
    let (numerator, denominator) := magnitude exponent fraction
    let whole : Int := (numerator / denominator : Nat)
    some (if negative then -whole else whole)
  | _ => none

def isIntegral : Double → Bool
  | finite _ exponent fraction =>
    let (numerator, denominator) := magnitude exponent fraction
    numerator % denominator == 0
  | _ => false

def neg : Double → Double
  | finite negative exponent fraction => finite (!negative) exponent fraction
  | infinite negative => infinite (!negative)
  | nan => nan

def signedRatio (negative : Bool) (exponent : Fin 2047) (fraction : Fin fractionCount) :
    Int × Nat :=
  let (numerator, denominator) := magnitude exponent fraction
  (if negative then -(numerator : Int) else numerator, denominator)

/-- An exact sum of zero is negative only if both summands are. -/
def add : Double → Double → Double
  | finite s e f, finite s' e' f' =>
    let (a, b) := signedRatio s e f
    let (a', b') := signedRatio s' e' f'
    let sum := a * b' + a' * b
    if sum = 0 then zero (s && s') else ofRatio (sum < 0) sum.natAbs (b * b')
  | infinite s, infinite s' => if s = s' then infinite s else nan
  | infinite s, finite .. => infinite s
  | finite .., infinite s => infinite s
  | nan, _ | _, nan => nan

def sub (x y : Double) : Double := add x y.neg

def mul : Double → Double → Double
  | finite s e f, finite s' e' f' =>
    let (a, b) := magnitude e f
    let (a', b') := magnitude e' f'
    ofRatio (s != s') (a * a') (b * b')
  | infinite s, infinite s' => infinite (s != s')
  | infinite s, y@(finite s' ..) => if y.isZero then nan else infinite (s != s')
  | x@(finite s ..), infinite s' => if x.isZero then nan else infinite (s != s')
  | nan, _ | _, nan => nan

def div : Double → Double → Double
  | x@(finite s e f), y@(finite s' e' f') =>
    if y.isZero then if x.isZero then nan else infinite (s != s')
    else
      let (a, b) := magnitude e f
      let (a', b') := magnitude e' f'
      ofRatio (s != s') (a * b') (b * a')
  | infinite _, infinite _ => nan
  | infinite s, finite s' .. => infinite (s != s')
  | finite s .., infinite s' => zero (s != s')
  | nan, _ | _, nan => nan

end Double

/-- A number on the extended line: a signed quotient, or beyond all quotients on one side. -/
inductive Magnitude
  | below
  | quotient (numerator : Int) (denominator : Nat)
  | above

namespace Magnitude

def le : Magnitude → Magnitude → Bool
  | below, _ => true
  | _, above => true
  | quotient a b, quotient c d => a * d ≤ c * b
  | _, _ => false

def same (m n : Magnitude) : Bool := m.le n && n.le m

def ofInt (n : Int) : Magnitude := quotient n 1

def ofBoolean (b : Bool) : Magnitude := ofInt (if b then 1 else 0)

def ofDouble? : Double → Option Magnitude
  | .finite negative exponent fraction =>
    let (numerator, denominator) := Double.signedRatio negative exponent fraction
    some (quotient numerator denominator)
  | .infinite negative => some (if negative then below else above)
  | .nan => none

theorem le_refl (m : Magnitude) : m.le m = true := by cases m <;> simp [le]

end Magnitude

end TreeMarkup
