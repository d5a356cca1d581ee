import TreeMarkup.Double.Basic
import TreeMarkup.Double.Numeral
import TreeMarkup.Double.Reading
import TreeMarkup.Text.Quoted

namespace TreeMarkup

structure Date where
  year : Nat
  month : Nat
  day : Nat
  deriving DecidableEq, Repr

structure TimeOfDay where
  hour : Nat
  minute : Nat
  second : Nat := 0
  microsecond : Nat := 0
  deriving DecidableEq, Repr

/-- Values that have no place in a document, with their members among `α`. The members of a set
stand in the order in which it lists them. Of any other object all that counts is its spelling. -/
inductive Foreign (α : Type)
  | date (day : Date)
  | dateTime (day : Date) (time : TimeOfDay)
  | time (time : TimeOfDay)
  | bytes (content : List UInt8)
  | byteArray (content : List UInt8)
  | decimal (numeral : Text)
  | complexNumber (re im : Double)
  | range (start stop step : Int)
  | set (members : List α)
  | frozenSet (members : List α)
  | object (spelling : Text)
  deriving Repr

/-- A loaded document. A mapping keeps the order of its entries, and its keys are values
themselves. -/
inductive Value
  | null
  | boolean (b : Bool)
  | integer (n : Int)
  | float (x : Double)
  | text (t : Text)
  | list (items : List Value)
  | tuple (items : List Value)
  | map (entries : List (Value × Value))
  | foreign (f : Foreign Value)
  deriving Repr, Inhabited

inductive ForeignKind
  | date
  | dateTime
  | time
  | bytes
  | byteArray
  | decimal
  | complexNumber
  | range
  | set
  | frozenSet
  | object
  deriving DecidableEq, Repr

inductive ValueKind
  | null
  | boolean
  | integer
  | float
  | text
  | list
  | tuple
  | map
  | foreign (kind : ForeignKind)
  deriving DecidableEq, Repr

def ForeignKind.name : ForeignKind → Text
  | date => "date"
  | dateTime => "datetime"
  | time => "time"
  | bytes => "bytes"
  | byteArray => "bytearray"
  | decimal => "Decimal"
  | complexNumber => "complex"
  | range => "range"
  | set => "set"
  | frozenSet => "frozenset"
  | object => "object"

def ValueKind.name : ValueKind → Text
  | null => "NoneType"
  | boolean => "bool"
  | integer => "int"
  | float => "float"
  | text => "str"
  | list => "list"
  | tuple => "tuple"
  | map => "dict"
  | foreign kind => kind.name

def rangeLength (start stop step : Int) : Nat :=
  if 0 < step then ((stop - start + step - 1) / step).toNat
  else if step < 0 then ((start - stop - step - 1) / -step).toNat
  else 0

/-- The number that a decimal numeral writes, which may be infinite or none. -/
def Magnitude.ofNumeral? (numeral : Text) : Option Magnitude :=
  let (negative, unsigned) := Text.readSign numeral
  if unsigned = "Infinity" then some (if negative then below else above)
  else (Text.readDecimal? unsigned).map fun d ↦
    let (up, down) := Double.powerOfTen d.exponent
    quotient (if negative then -(d.coefficient * up : Nat) else (d.coefficient * up : Nat)) down

namespace Foreign

variable {α : Type}

def kind : Foreign α → ForeignKind
  | date _ => .date
  | dateTime _ _ => .dateTime
  | time _ => .time
  | bytes _ => .bytes
  | byteArray _ => .byteArray
  | decimal _ => .decimal
  | complexNumber _ _ => .complexNumber
  | range _ _ _ => .range
  | set _ => .set
  | frozenSet _ => .frozenSet
  | object _ => .object

/-- A complex number is a number like others if it is real. -/
def magnitude? : Foreign α → Option Magnitude
  | decimal numeral => Magnitude.ofNumeral? numeral
  | complexNumber re im => if im.isZero then Magnitude.ofDouble? re else none
  | _ => none

def isEmpty : Foreign α → Bool
  | bytes content => content.isEmpty
  | byteArray content => content.isEmpty
  | decimal numeral => (Magnitude.ofNumeral? numeral).any (·.same (.ofInt 0))
  | complexNumber re im => re.isZero && im.isZero
  | range start stop step => rangeLength start stop step = 0
  | set members => members.isEmpty
  | frozenSet members => members.isEmpty
  | _ => false

end Foreign

namespace Value

def kind : Value → ValueKind
  | null => .null
  | boolean _ => .boolean
  | integer _ => .integer
  | float _ => .float
  | text _ => .text
  | list _ => .list
  | tuple _ => .tuple
  | map _ => .map
  | foreign f => .foreign f.kind

def isText (t : Text) : Value → Bool
  | text u => u = t
  | _ => false

def lookup? (key : Text) (entries : List (Value × Value)) : Option Value :=
  (entries.find? fun entry ↦ entry.1.isText key).map Prod.snd

def isEmpty : Value → Bool
  | null => true
  | boolean b => !b
  | integer n => n = 0
  | float x => x.isZero
  | text t => t.isEmpty
  | list items => items.isEmpty
  | tuple items => items.isEmpty
  | map entries => entries.isEmpty
  | foreign f => f.isEmpty

def members? : Value → Option (List Value)
  | list items => some items
  | tuple items => some items
  | foreign (.range start stop step) =>
    some <| (List.range (rangeLength start stop step)).map fun i : Nat ↦ integer (start + i * step)
  | foreign (.set members) => some members
  | foreign (.frozenSet members) => some members
  | _ => none

def magnitude? : Value → Option Magnitude
  | boolean b => some (.ofBoolean b)
  | integer n => some (.ofInt n)
  | float x => Magnitude.ofDouble? x
  | foreign f => f.magnitude?
  | _ => none

/-- Whether two numbers are equal, of whatever types they are; other values are no numbers. -/
def sameNumber (v w : Value) : Bool :=
  match v.magnitude?, w.magnitude? with
  | some m, some n => m.same n
  | _, _ => false

mutual

def sameKey : Value → Value → Bool
  | null, null => true
  | text s, text t => s = t
  | tuple vs, tuple ws => sameKeys vs ws
  | foreign f, foreign g => sameForeign f g
  | v, w => v.sameNumber w

def sameForeign : Foreign Value → Foreign Value → Bool
  | .date d, .date e => d = e
  | .dateTime d t, .dateTime e u => d = e && t = u
  | .time t, .time u => t = u
  | .bytes s, .bytes t => s = t
  | .complexNumber x y, .complexNumber x' y' =>
    (float x).sameNumber (float x') && (float y).sameNumber (float y')
  | .range start stop step, .range start' stop' step' =>
    let n := rangeLength start stop step
    n = rangeLength start' stop' step' && (n = 0 || start = start') && (n ≤ 1 || step = step')
  | .frozenSet vs, .frozenSet ws => vs.length = ws.length && sameMembers vs ws
  | .object s, .object t => s = t
  | f, g => (foreign f).sameNumber (foreign g)

def sameKeys : List Value → List Value → Bool
  | [], [] => true
  | v :: vs, w :: ws => sameKey v w && sameKeys vs ws
  | _, _ => false

def sameMembers : List Value → List Value → Bool
  | [], _ => true
  | v :: vs, ws => ws.any (fun w ↦ sameKey v w) && sameMembers vs ws

end

/-- Puts a value under a key. A key that is there already stays as it was first written. -/
def putEntry (key value : Value) : List (Value × Value) → List (Value × Value)
  | [] => [(key, value)]
  | (other, old) :: entries =>
    if key.sameKey other then (other, value) :: entries
    else (other, old) :: putEntry key value entries

def mapping (entries : List (Value × Value)) : Value :=
  map (entries.foldl (fun put (key, value) ↦ putEntry key value put) [])

end Value

end TreeMarkup
