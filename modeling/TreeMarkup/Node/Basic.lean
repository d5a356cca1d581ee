import TreeMarkup.Declaration
import TreeMarkup.Double.Numeral
import TreeMarkup.Value.Basic
import TreeMarkup.Value.Display

namespace TreeMarkup

inductive Malformation
  | noTag
  | emptyKey
  | severalKeys (keys : List Text)
  | keyNotScalar
  deriving DecidableEq, Repr

inductive Position
  | node
  | content
  | attributeValue
  deriving DecidableEq, Repr

inductive ConversionError
  | notSequence (received : ValueKind)
  | malformed (declaration : Text) (malformation : Malformation)
  | unsupported (kind : ValueKind) (position : Position)
  deriving DecidableEq, Repr

def Malformation.message : Malformation → Text
  | noTag => "element must have a valid tag name"
  | emptyKey => "empty element key"
  | severalKeys keys =>
    "element mapping must have exactly one key (got: " ++ List.intercalate ", ".toList keys ++ ")"
  | keyNotScalar => "element key must be a string or number"

def Position.name : Position → Text
  | node => "nodes"
  | content => "content"
  | attributeValue => "attribute values"

def ConversionError.message : ConversionError → Text
  | notSequence received =>
    "YAHTML content must be a list. YAHTML documents always start with a list at the root level (got "
      ++ received.name ++ ")."
  | malformed declaration malformation =>
    "Malformed YAHTML element: \"" ++ declaration ++ "\" - " ++ malformation.message
  | unsupported kind position =>
    kind.name ++ " values cannot be used as element " ++ position.name ++
      ". Convert to string first (e.g., value.isoformat() or str(value))."

inductive Scalar
  | text (t : Text)
  | integer (n : Int)
  | float (x : Double)
  | boolean (b : Bool)
  deriving DecidableEq, Repr

namespace Scalar

def toValue : Scalar → Value
  | text t => .text t
  | integer n => .integer n
  | float x => .float x
  | boolean b => .boolean b

def ofValue? : Value → Option Scalar
  | .text t => some (text t)
  | .integer n => some (integer n)
  | .float x => some (float x)
  | .boolean b => some (boolean b)
  | _ => none

/-- Integral numbers are written as integers as long as they have at most 21 digits. -/
def formatFloat : Double → Text
  | x@(.finite negative exponent fraction) =>
    let (numerator, denominator) := Double.magnitude exponent fraction
    if x.isIntegral && numerator < Nat.pow 10 21 * denominator then
      Double.signed (negative && !x.isZero) (Text.ofNat (numerator / denominator))
    else Numeral.relax x.general
  | .infinite negative => Double.signed negative "Infinity"
  | .nan => "NaN"

def format : Scalar → Text
  | text t => t
  | integer n => Text.ofInt n
  | float x => formatFloat x
  | boolean true => "true"
  | boolean false => "false"

end Scalar

inductive Node
  | empty
  | scalar (s : Scalar)
  | sequence (items : List Value)
  | element (key : Text) (content : Value)

/-- Attributes stand in the order of their mapping; children that are not given are null. -/
inductive Content
  | empty
  | scalar (s : Scalar)
  | sequence (items : List Value)
  | attributes (entries : List (Value × Value)) (children : Value)

inductive Body
  | empty
  | scalar (s : Scalar)
  | sequence (items : List Value)

namespace Value

/-- The value as a scalar; no other value can stand at the position. -/
def scalarAt (position : Position) (v : Value) : Except ConversionError Scalar :=
  match Scalar.ofValue? v with
  | some s => .ok s
  | none => .error (.unsupported v.kind position)

/-- Numbers and booleans can be keys, written as scalars are. -/
def elementKey (v : Value) : Except ConversionError Text :=
  match Scalar.ofValue? v with
  | some s => .ok s.format
  | none => .error (.malformed v.literal .keyNotScalar)

/-- The element of a mapping is its first entry; unless several are allowed, it is the only one. -/
def elementOf (allowMultiKey : Bool) : List (Value × Value) → Except ConversionError Node
  | [] => .error (.malformed [] .emptyKey)
  | (key, content) :: rest =>
    if !rest.isEmpty && !allowMultiKey then
      .error (.malformed key.display (.severalKeys (key.display :: rest.map fun e ↦ e.1.display)))
    else key.elementKey.map fun k ↦ .element k content

def nodeOfText (t : Text) : Node :=
  match Declaration.ofText? t with
  | some d => .element d.key ((d.content.map text).getD null)
  | none => .scalar (.text t)

def toNode (allowMultiKey : Bool) : Value → Except ConversionError Node
  | null => .ok .empty
  | text t => .ok (nodeOfText t)
  | list items => .ok (.sequence items)
  | tuple items => .ok (.sequence items)
  | map entries => elementOf allowMultiKey entries
  | v => (v.scalarAt .node).map .scalar

def toContent : Value → Except ConversionError Content
  | null => .ok .empty
  | list items => .ok (.sequence items)
  | tuple items => .ok (.sequence items)
  | map entries =>
    .ok (.attributes (entries.filter fun e ↦ !e.1.isText "children")
      ((lookup? "children" entries).getD null))
  | v => (v.scalarAt .content).map .scalar

def toBody : Value → Except ConversionError Body
  | null => .ok .empty
  | text [] => .ok .empty
  | list items => .ok (.sequence items)
  | tuple items => .ok (.sequence items)
  | map entries => .ok (.sequence [map entries])
  | v => (v.scalarAt .content).map .scalar

end Value

def Content.body : Content → Except ConversionError Body
  | empty => .ok .empty
  | scalar s => .ok (.scalar s)
  | sequence items => .ok (.sequence items)
  | attributes _ children => children.toBody

end TreeMarkup
