import TreeMarkup.Double.Reading
import TreeMarkup.Text.Digit
import TreeMarkup.Text.Quoted

namespace TreeMarkup.Command

inductive Parameter
  | none
  | text
  | integer
  | float
  deriving DecidableEq, Repr

structure Switch where
  names : List Text
  parameter : Parameter
  deriving DecidableEq, Repr

inductive ArgumentFault
  | ambiguous (word : Text) (candidates : List Text)
  | noValue (option : Switch)
  | needlessValue (option : Switch) (value : Text)
  | badValue (option : Switch) (value : Text)
  | required (names : List Text)
  | unrecognized (words : List Text)
  | unknownCommand (word : Text) (commands : List Text)
  deriving DecidableEq, Repr

inductive Stop
  | help
  | fault (f : ArgumentFault)
  deriving DecidableEq, Repr

def listed (ts : List Text) : Text := List.intercalate ", ".toList ts

def Switch.title (option : Switch) : Text := List.intercalate ['/'] option.names

def Parameter.name : Parameter → Text
  | none => []
  | text => "str"
  | integer => "int"
  | float => "float"

namespace ArgumentFault

def about (option : Switch) (problem : Text) : Text :=
  "argument " ++ option.title ++ ": " ++ problem

def message : ArgumentFault → Text
  | ambiguous word candidates =>
    "ambiguous option: " ++ word ++ " could match " ++ listed candidates
  | noValue option => about option "expected one argument"
  | needlessValue option value =>
    about option ("ignored explicit argument " ++ Text.quoted value)
  | badValue option value =>
    about option ("invalid " ++ option.parameter.name ++ " value: " ++ Text.quoted value)
  | required names => "the following arguments are required: " ++ listed names
  | unrecognized words => "unrecognized arguments: " ++ List.intercalate [' '] words
  | unknownCommand word commands =>
    "argument command: invalid choice: " ++ Text.quoted word ++ " (choose from " ++
      listed (commands.map Text.quoted) ++ ")"

end ArgumentFault

/-- How a value is joined to the name of its option in one word: a name of one letter takes the
rest of the word, with an equals sign in between or without. -/
inductive Attached
  | nothing
  | byEquals (value : Text)
  | directly (value : Text)

inductive Word
  | separator
  | plain (t : Text)
  | option (o : Switch) (attached : Attached)
  | unknown (t : Text)

def helpSwitch : Switch := ⟨["-h", "--help"], .none⟩

def named? (options : List Switch) (name : Text) : Option Switch :=
  options.find? fun o ↦ o.names.contains name

def allNames (options : List Switch) : List Text := options.flatMap Switch.names

def splitValue (word : Text) : Text × Attached :=
  match Text.cut? ['='] word with
  | some (name, value) => (name, .byEquals value)
  | none => (word, .nothing)

def candidates (options : List Switch) (word : Text) : List (Text × Attached) :=
  match word with
  | '-' :: '-' :: _ =>
    let (start, attached) := splitValue word
    ((allNames options).filter fun name ↦ start.isPrefixOf name).map (·, attached)
  | '-' :: c :: value =>
    ((allNames options).filter fun name ↦ name = ['-', c]).map (·, .directly value)
  | _ => []

/-- A dash and a number with or without a fraction. The digits may be those of any script, and a
line feed may follow the last one. -/
def isNegativeNumber : Text → Bool
  | '-' :: t =>
    let number := if t.getLast? = some '\n' then t.dropLast else t
    match number.dropWhile isDecimalDigit with
    | [] => !number.isEmpty
    | '.' :: fraction => !fraction.isEmpty && fraction.all isDecimalDigit
    | _ => false
  | _ => false

def undeclared (word : Text) : Word :=
  if isNegativeNumber word || word.contains ' ' then .plain word else .unknown word

def abbreviated (options : List Switch) (word : Text) : Except Stop Word :=
  match candidates options word with
  | [] => .ok (undeclared word)
  | [(name, attached)] =>
    .ok (match named? options name with
      | some o => .option o attached
      | none => .unknown word)
  | several => .error (.fault (.ambiguous word (several.map Prod.fst)))

def isShort (name : Text) : Bool := name[1]? != some '-'

def classify (options : List Switch) (word : Text) : Except Stop Word :=
  match word with
  | '-' :: _ :: _ =>
    match named? options word with
    | some o => .ok (.option o .nothing)
    | none =>
      let (name, attached) := splitValue word
      match attached, named? options name with
      | .byEquals value, some o =>
        .ok (.option o (if isShort name then .directly value else .byEquals value))
      | _, _ => abbreviated options word
  | _ => .ok (.plain word)

def classifyAll (options : List Switch) : List Text → Except Stop (List Word)
  | [] => .ok []
  | ['-', '-'] :: words => .ok (.separator :: words.map .plain)
  | word :: words => do
    let first ← classify options word
    let rest ← classifyAll options words
    return first :: rest

/-- The letter of a flag may be followed by letters of further flags. The only one there is asks for
help, and may be repeated; anything else that follows is a value that it does not take. -/
def bundle (o : Switch) : Text → Stop
  | ['h'] => .help
  | 'h' :: rest => bundle o rest
  | value => .fault (.needlessValue o value)

def takeFlag (o : Switch) : Attached → Except Stop Unit
  | .nothing => if o = helpSwitch then .error .help else .ok ()
  | .byEquals value => .error (.fault (.needlessValue o value))
  | .directly value => .error (bundle o value)

def isReadable (value : Text) : Parameter → Bool
  | .integer => (Text.toInt? value).isSome
  | .float => (Double.read? value).isSome
  | _ => true

def takeValue (o : Switch) (value : Text) : Except Stop Text :=
  if isReadable value o.parameter then .ok value else .error (.fault (.badValue o value))

structure Arguments where
  given : List (Switch × Text) := []
  others : List Text := []

namespace Arguments

def addOption (a : Arguments) (o : Switch) (value : Text) : Arguments :=
  { a with given := (o, value) :: a.given }

def addOther (a : Arguments) (word : Text) : Arguments := { a with others := word :: a.others }

def ofWords : List Word → Except Stop Arguments
  | [] => .ok {}
  | .separator :: words => return (← ofWords words).addOther "--"
  | .plain word :: words => return (← ofWords words).addOther word
  | .unknown word :: words => return (← ofWords words).addOther word
  | .option o attached :: words =>
    if o.parameter = .none then do
      takeFlag o attached
      return (← ofWords words).addOption o []
    else match attached, words with
      | .byEquals value, words => do
        let value ← takeValue o value
        return (← ofWords words).addOption o value
      | .directly value, words => do
        let value ← takeValue o value
        return (← ofWords words).addOption o value
      | .nothing, .plain value :: words => do
        let value ← takeValue o value
        return (← ofWords words).addOption o value
      | .nothing, _ => .error (.fault (.noValue o))

def read (options : List Switch) (words : List Text) : Except Stop Arguments := do
  ofWords (← classifyAll (helpSwitch :: options) words)

/-- The value of an option; the last one counts. -/
def value? (a : Arguments) (o : Switch) : Option Text :=
  (a.given.reverse.find? fun g ↦ g.1 = o).map Prod.snd

def has (a : Arguments) (o : Switch) : Bool := (a.value? o).isSome

end Arguments

end TreeMarkup.Command
