import TreeMarkup.Double.Reading
import TreeMarkup.Text.Digit
import TreeMarkup.Value.Basic

namespace TreeMarkup.Json

def words : List (Text × Value) :=
  [("null", .null), ("true", .boolean true), ("false", .boolean false), ("NaN", .float .nan),
    ("Infinity", .float (.infinite false)), ("-Infinity", .float (.infinite true))]

def isNumberChar (c : Char) : Bool := c.isDigit || ['+', '-', '.', 'e', 'E'].contains c

/-- A number is an integer unless it has a point or an exponent. -/
def readNumber? (t : Text) : Option Value :=
  if t.all fun c ↦ c.isDigit || c = '-' then (Text.toInt? t).map .integer
  else (Double.read? t).map .float

def readAtom? (t : Text) : Option (Value × Text) :=
  match words.find? fun w ↦ w.1.isPrefixOf t with
  | some (word, v) => some (v, t.drop word.length)
  | none => (readNumber? (t.takeWhile isNumberChar)).map (·, t.dropWhile isNumberChar)

def escaped? (c : Char) : Option Char :=
  match c with
  | 'b' => some (Char.ofNat 0x08)
  | 'f' => some (Char.ofNat 0x0C)
  | 'n' => some '\n'
  | 'r' => some '\r'
  | 't' => some '\t'
  | '"' => some '"'
  | '\\' => some '\\'
  | '/' => some '/'
  | _ => none

def readText? : Text → Option (Text × Text)
  | [] => none
  | '"' :: t => some ([], t)
  | '\\' :: 'u' :: a :: b :: c :: d :: t => do
    let n ← Text.hexNat? [a, b, c, d]
    let (s, rest) ← readText? t
    return (Text.ofCodeUnit n :: s, rest)
  | '\\' :: c :: t => do
    let e ← escaped? c
    let (s, rest) ← readText? t
    return (e :: s, rest)
  | c :: t => do
    let (s, rest) ← readText? t
    return (c :: s, rest)

mutual

/-- A value and what follows it. Every level of nesting takes one off the bound. -/
def readWithin : Nat → Text → Option (Value × Text)
  | 0, _ => none
  | n + 1, t =>
    match Text.stripStart t with
    | [] => none
    | '[' :: t =>
      match Text.stripStart t with
      | ']' :: rest => some (.list [], rest)
      | t => do
        let (items, rest) ← readItems n t
        return (.list items, rest)
    | '\x7b' :: t =>
      match Text.stripStart t with
      | '\x7d' :: rest => some (.mapping [], rest)
      | t => do
        let (entries, rest) ← readMembers n t
        return (.mapping entries, rest)
    | '"' :: t => do
      let (s, rest) ← readText? t
      return (.text s, rest)
    | t => readAtom? t

def readItems : Nat → Text → Option (List Value × Text)
  | 0, _ => none
  | n + 1, t => do
    let (v, rest) ← readWithin n t
    match Text.stripStart rest with
    | ']' :: rest => return ([v], rest)
    | ',' :: rest =>
      let (vs, rest) ← readItems n rest
      return (v :: vs, rest)
    | _ => none

def readMembers : Nat → Text → Option (List (Value × Value) × Text)
  | 0, _ => none
  | n + 1, t => do
    match Text.stripStart t with
    | '"' :: t =>
      let (name, rest) ← readText? t
      match Text.stripStart rest with
      | ':' :: rest =>
        let (v, rest) ← readWithin n rest
        match Text.stripStart rest with
        | '\x7d' :: rest => return ([(.text name, v)], rest)
        | ',' :: rest =>
          let (entries, rest) ← readMembers n rest
          return ((.text name, v) :: entries, rest)
        | _ => none
      | _ => none
    | _ => none

end

def read? (t : Text) : Option Value :=
  match readWithin (2 * t.length + 1) t with
  | some (v, rest) => if rest.all isBlank then some v else none
  | none => none

end TreeMarkup.Json
