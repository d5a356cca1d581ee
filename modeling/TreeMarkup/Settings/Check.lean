import TreeMarkup.Text.Basic
import TreeMarkup.Value.Display

namespace TreeMarkup

inductive Step
  | field (name : Text)
  | index (i : Int)
  deriving DecidableEq, Repr

instance : Coe String Step := ⟨fun s ↦ .field s.toList⟩

inductive Fault
  | missing
  | notRecord (name : Text)
  | notText
  | notUnicode
  | notBoolean
  | unreadableBoolean
  | notList
  | notMapping
  | badKey
  | badOutput
  | repeatedKey (key : Text)
  deriving DecidableEq, Repr

structure Issue where
  location : List Step
  fault : Fault
  deriving DecidableEq, Repr

def Fault.message : Fault → Text
  | missing => "Field required"
  | notRecord name => "Input should be a valid dictionary or instance of " ++ name
  | notText => "Input should be a valid string"
  | notUnicode =>
    "Input should be a valid string, unable to parse raw data as a unicode string"
  | notBoolean => "Input should be a valid boolean"
  | unreadableBoolean => "Input should be a valid boolean, unable to interpret input"
  | notList => "Input should be a valid list"
  | notMapping => "Input should be a valid dictionary"
  | badKey => "Value error, key must be a non-empty slug without '/' or surrounding spaces"
  | badOutput => "Value error, output must be a relative path inside the build directory"
  | repeatedKey key => "Value error, duplicate page key: " ++ key

def Issue.under (step : Step) (issue : Issue) : Issue :=
  { issue with location := step :: issue.location }

inductive Check (α : Type)
  | valid (a : α)
  | invalid (issues : List Issue)

namespace Check

variable {α β : Type}

def refused (fault : Fault) : Check α := invalid [⟨[], fault⟩]

def issues : Check α → List Issue
  | valid _ => []
  | invalid found => found

def map (f : α → β) : Check α → Check β
  | valid a => valid (f a)
  | invalid found => invalid found

/-- A function and its argument, with the issues of both. -/
def apply : Check (α → β) → Check α → Check β
  | valid f, valid a => valid (f a)
  | valid _, invalid found => invalid found
  | invalid found, valid _ => invalid found
  | invalid found, invalid more => invalid (found ++ more)

/-- A further reader runs only on what could be read. -/
def bind : Check α → (α → Check β) → Check β
  | valid a, f => f a
  | invalid found, _ => invalid found

def under (step : Step) : Check α → Check α
  | valid a => valid a
  | invalid found => invalid (found.map (Issue.under step))

def members (read : Value → Check α) (start : Nat) : List Value → Check (List α)
  | [] => valid []
  | v :: vs => ((read v).under (.index start) |>.map List.cons).apply (members read (start + 1) vs)

end Check

namespace Value

variable {α : Type}

def readBytes (content : List UInt8) : Check Text :=
  match Text.ofUtf8? content with
  | some t => .valid t
  | none => .refused .notUnicode

def readText : Value → Check Text
  | text t => .valid t
  | foreign (.bytes content) => readBytes content
  | foreign (.byteArray content) => readBytes content
  | _ => .refused .notText

def readAnswer (t : Text) : Check Bool :=
  let word := String.ofList (Text.lowerAscii t)
  if ["1", "on", "t", "true", "y", "yes"].contains word then .valid true
  else if ["0", "off", "f", "false", "n", "no"].contains word then .valid false
  else if t.any Text.isHalf then .refused .notUnicode
  else .refused .unreadableBoolean

/-- Zero and one are booleans; other integers of 64 bits look like one that cannot be made out. -/
def readBitOf (n : Int) : Check Bool :=
  if n = 0 then .valid false
  else if n = 1 then .valid true
  else if -9223372036854775808 ≤ n && n ≤ 9223372036854775807 then .refused .unreadableBoolean
  else .refused .notBoolean

/-- The integer that a double is, if it lies strictly between the ends of 64 bits. -/
def wholeNumber? (x : Double) : Option Int :=
  if x.isIntegral then
    x.truncate?.filter fun n ↦ -9223372036854775808 < n && n < 9223372036854775808
  else none

def readWhole (x : Double) : Check Bool :=
  match wholeNumber? x with
  | some n => readBitOf n
  | none => .refused .notBoolean

def readBoolean : Value → Check Bool
  | boolean b => .valid b
  | integer n => readBitOf n
  | float x => readWhole x
  | text t => readAnswer t
  | foreign (.bytes content) =>
    match Text.ofUtf8? content with
    | some t => readAnswer t
    | none => .refused .unreadableBoolean
  | foreign (.decimal numeral) =>
    match Double.read? numeral with
    | some x => readWhole x
    | none => .refused .notBoolean
  | _ => .refused .notBoolean

def readOptional (read : Value → Check α) : Value → Check (Option α)
  | null => .valid none
  | v => (read v).map some

def readList (read : Value → Check α) (v : Value) : Check (List α) :=
  match v.members? with
  | some items => Check.members read 0 items
  | none => .refused .notList

/-- How a key of a mapping that should be a text is named in a location. -/
def keyStep : Value → Step
  | boolean b => .index (if b then 1 else 0)
  | integer n =>
    if -9223372036854775808 ≤ n && n ≤ 9223372036854775807 then .index n
    else .field (Text.ofInt n)
  | v => .field v.literal

def readEntries : List (Value × Value) → Check (List (Text × Value))
  | [] => .valid []
  | (key, value) :: entries =>
    let name := (key.readText.under "[key]").under key.keyStep
    (name.map fun name rest ↦ (name, value) :: rest).apply (readEntries entries)

def putNamed (name : Text) (value : Value) : List (Text × Value) → List (Text × Value)
  | [] => [(name, value)]
  | (other, old) :: entries =>
    if name = other then (other, value) :: entries
    else (other, old) :: putNamed name value entries

/-- Two keys may be read as the same text, of which the later one counts. -/
def readMapping : Value → Check (List (Text × Value))
  | map entries =>
    (readEntries entries).map (List.foldl (fun put (name, value) ↦ putNamed name value put) [])
  | _ => .refused .notMapping

def readRecord (name : Text) (read : List (Value × Value) → Check α) : Value → Check α
  | map entries => read entries
  | _ => .refused (.notRecord name)

def required (name : Text) (read : Value → Check α) (entries : List (Value × Value)) : Check α :=
  match lookup? name entries with
  | some v => (read v).under (.field name)
  | none => (Check.refused .missing).under (.field name)

def fieldOr (name : Text) (other : α) (read : Value → Check α) (entries : List (Value × Value)) :
    Check α :=
  match lookup? name entries with
  | some v => (read v).under (.field name)
  | none => .valid other

end Value

end TreeMarkup
