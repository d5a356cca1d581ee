import TreeMarkup.Double.Basic
import TreeMarkup.Text.Basic
import TreeMarkup.Text.Digit

namespace TreeMarkup

/-- The double nearest to a decimal. Beyond four hundred places the answer is decided without
writing the powers of ten out. -/
def Double.ofDecimal (negative : Bool) (d : Decimal) : Double :=
  if d.coefficient = 0 then zero negative
  else if 400 < d.pointPlace then infinite negative
  else if d.pointPlace < -400 then zero negative
  else
    let (up, down) := powerOfTen d.exponent
    ofRatio negative (d.coefficient * up) down

namespace Text

def readSign : Text → Bool × Text
  | '-' :: t => (true, t)
  | '+' :: t => (false, t)
  | t => (false, t)

/-- Underscores that stand between two digits are dropped; any other one makes the text no
number. -/
def dropUnderscores? : Text → Option Text
  | [] => some []
  | '_' :: _ => none
  | [c] => some [c]
  | c :: '_' :: d :: t =>
    if c.isDigit && d.isDigit then (dropUnderscores? (d :: t)).map (c :: ·) else none
  | c :: t => (dropUnderscores? t).map (c :: ·)

def isNumberGap (c : Char) : Bool := isBlank c && !(0x1C ≤ c.toNat && c.toNat ≤ 0x1F)

def bareNumber? (t : Text) : Option Text :=
  dropUnderscores? (asciiDigits ((t.dropWhile isNumberGap).reverse.dropWhile isNumberGap).reverse)

def toInt? (t : Text) : Option Int := do
  let (negative, digits) := readSign (← bareNumber? t)
  let n ← toNat? digits
  return if negative then -(n : Int) else n

def readMantissa? (t : Text) : Option Decimal :=
  let whole := t.takeWhile Char.isDigit
  match t.dropWhile Char.isDigit with
  | [] => (toNat? whole).map fun n ↦ ⟨n, 0⟩
  | '.' :: fraction =>
    if fraction.all Char.isDigit then (toNat? (whole ++ fraction)).map fun n ↦ ⟨n, -fraction.length⟩
    else none
  | _ => none

def readDecimal? (t : Text) : Option Decimal :=
  match t.span fun c ↦ c != 'e' && c != 'E' with
  | (mantissa, []) => readMantissa? mantissa
  | (mantissa, _ :: power) => do
    let d ← readMantissa? mantissa
    let (negative, digits) := readSign power
    let n ← toNat? digits
    return ⟨d.coefficient, d.exponent + if negative then -(n : Int) else n⟩

end Text

def Double.read? (t : Text) : Option Double := do
  let (negative, unsigned) := Text.readSign (← Text.bareNumber? t)
  let word := Text.lowerAscii unsigned
  if word = "inf" || word = "infinity" then return infinite negative
  if word = "nan" then return nan
  return ofDecimal negative (← Text.readDecimal? unsigned)

end TreeMarkup
