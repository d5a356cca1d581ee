import TreeMarkup.Double.Numeral
import TreeMarkup.Text.Quoted
import TreeMarkup.Value.Basic

namespace TreeMarkup

def Text.le : Text → Text → Bool
  | [], _ => true
  | _ :: _, [] => false
  | c :: cs, d :: ds => c.toNat < d.toNat || (c = d && le cs ds)

namespace Json

def writeBoolean (b : Bool) : Text := if b then "true" else "false"

def writeDouble : Double → Text
  | .infinite negative => Double.signed negative "Infinity"
  | .nan => "NaN"
  | x => x.general

/-- What the members of an object are ordered by. The key that is not a number has no magnitude. -/
inductive MemberKey
  | null
  | text (t : Text)
  | number (m : Option Magnitude) (name : Text)

namespace MemberKey

def ofValue? : Value → Option MemberKey
  | .null => some null
  | .boolean b => some (number (some (.ofBoolean b)) (writeBoolean b))
  | .integer n => some (number (some (.ofInt n)) (Text.ofInt n))
  | .float x => some (number (Magnitude.ofDouble? x) (writeDouble x))
  | .text t => some (text t)
  | _ => none

def name : MemberKey → Text
  | null => "null"
  | text t => t
  | number _ name => name

/-- What has no magnitude stays where it is. -/
def le : MemberKey → MemberKey → Bool
  | text s, text t => Text.le s t
  | number (some m) _, number (some n) _ => m.le n
  | number _ _, number _ _ => true
  | _, _ => false

def comparable : MemberKey → MemberKey → Bool
  | text _, text _ => true
  | number _ _, number _ _ => true
  | _, _ => false

end MemberKey
end Json

inductive Json
  | null
  | boolean (b : Bool)
  | integer (n : Int)
  | float (x : Double)
  | text (t : Text)
  | array (items : List Json)
  | object (members : List (Text × Json))
  deriving Repr, Inhabited

namespace Json

/-- The members of an object in order; none if two of its keys cannot be compared. -/
def sortMembers? : List (MemberKey × Json) → Option (List (Text × Json))
  | [] => some []
  | first :: others =>
    if others.all fun other ↦ first.1.comparable other.1 then
      some (((first :: others).mergeSort fun a b ↦ a.1.le b.1).map fun (key, j) ↦ (key.name, j))
    else none

mutual

/-- A value of a foreign kind has no place in a tree, and neither has a mapping with a key that is
no scalar. -/
def ofValue? : Value → Option Json
  | .null => some null
  | .boolean b => some (boolean b)
  | .integer n => some (integer n)
  | .float x => some (float x)
  | .text t => some (text t)
  | .list items => (ofItems? items).map array
  | .tuple items => (ofItems? items).map array
  | .map entries => (ofEntries? entries).bind fun members ↦ (sortMembers? members).map object
  | .foreign _ => none

def ofItems? : List Value → Option (List Json)
  | [] => some []
  | v :: vs => do return (← ofValue? v) :: (← ofItems? vs)

def ofEntries? : List (Value × Value) → Option (List (MemberKey × Json))
  | [] => some []
  | (key, v) :: entries => do
    return (← MemberKey.ofValue? key, ← ofValue? v) :: (← ofEntries? entries)

end

def escapeChar (c : Char) : Text :=
  if c = '"' || c = '\\' then ['\\', c]
  else if c.toNat = 0x08 then "\\b"
  else if c = '\t' then "\\t"
  else if c = '\n' then "\\n"
  else if c.toNat = 0x0C then "\\f"
  else if c = '\r' then "\\r"
  else if c.toNat < 0x20 then "\\u" ++ Text.padStart 4 '0' (Text.hexDigits c.toNat)
  else [c]

def writeText (t : Text) : Text := '"' :: t.flatMap escapeChar ++ ['"']

def block (opening closing : Char) (margin : Text) (pieces : List Text) : Text :=
  match pieces with
  | [] => [opening, closing]
  | pieces =>
    let deeper := '\n' :: margin ++ "  "
    opening :: deeper ++ List.intercalate (',' :: deeper) pieces ++ '\n' :: margin ++ [closing]

mutual

def writeAt (margin : Text) : Json → Text
  | null => "null"
  | boolean b => writeBoolean b
  | integer n => Text.ofInt n
  | float x => writeDouble x
  | text t => writeText t
  | array items => block '[' ']' margin (writeItems (margin ++ "  ") items)
  | object members => block '\x7b' '\x7d' margin (writeMembers (margin ++ "  ") members)

def writeItems (margin : Text) : List Json → List Text
  | [] => []
  | j :: js => writeAt margin j :: writeItems margin js

def writeMembers (margin : Text) : List (Text × Json) → List Text
  | [] => []
  | (name, j) :: members =>
    (writeText name ++ ": " ++ writeAt margin j) :: writeMembers margin members

end

def write (j : Json) : Text := writeAt [] j ++ ['\n']

def dump? (v : Value) : Option Text := (ofValue? v).map write

end Json

end TreeMarkup
