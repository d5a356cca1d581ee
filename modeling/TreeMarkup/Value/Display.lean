import TreeMarkup.Value.Basic

namespace TreeMarkup

def Date.display (d : Date) : Text :=
  Text.padStart 4 '0' (Text.ofNat d.year) ++ '-' :: Text.padStart 2 '0' (Text.ofNat d.month) ++
    '-' :: Text.padStart 2 '0' (Text.ofNat d.day)

def TimeOfDay.display (t : TimeOfDay) : Text :=
  Text.padStart 2 '0' (Text.ofNat t.hour) ++ ':' :: Text.padStart 2 '0' (Text.ofNat t.minute) ++
    ':' :: Text.padStart 2 '0' (Text.ofNat t.second) ++
    if t.microsecond = 0 then [] else '.' :: Text.padStart 6 '0' (Text.ofNat t.microsecond)

def Date.fields (d : Date) : List Nat := [d.year, d.month, d.day]

def TimeOfDay.fields (t : TimeOfDay) : List Nat :=
  if t.microsecond ≠ 0 then [t.hour, t.minute, t.second, t.microsecond]
  else if t.second ≠ 0 then [t.hour, t.minute, t.second]
  else [t.hour, t.minute]

def Text.call (name : Text) (arguments : List Text) : Text :=
  name ++ '(' :: List.intercalate ", ".toList arguments ++ [')']

def Text.quotedByte (quote : Char) (b : UInt8) : Text :=
  let c := Char.ofNat b.toNat
  if b.toNat < 0x80 then quotedChar quote c else hexEscape c

def Text.quotedBytes (content : List UInt8) : Text :=
  let quote := quoteFor (content.map fun b ↦ Char.ofNat b.toNat)
  'b' :: quote :: content.flatMap (quotedByte quote) ++ [quote]

/-- The general numeral, without a fraction of zero. -/
def Double.bare (x : Double) : Text :=
  let t := x.general
  if Text.endsWith ".0" t then t.take (t.length - 2) else t

def Double.signedBare (x : Double) : Text :=
  let t := x.bare
  if t.head? = some '-' then t else '+' :: t

/-- A real part that is plainly zero is left out. -/
def Text.ofComplex (re im : Double) : Text :=
  if re = .zero false then im.bare ++ ['j']
  else '(' :: re.bare ++ im.signedBare ++ ['j', ')']

namespace Value

mutual

/-- The spelling in which texts are quoted, also inside sequences and mappings. -/
def literal : Value → Text
  | null => "None"
  | boolean true => "True"
  | boolean false => "False"
  | integer n => Text.ofInt n
  | float x => x.general
  | text t => Text.quoted t
  | list items => '[' :: List.intercalate ", ".toList (literals items) ++ [']']
  | tuple [item] => '(' :: literal item ++ ",)"
  | tuple items => '(' :: List.intercalate ", ".toList (literals items) ++ [')']
  | map entries => '\x7b' :: List.intercalate ", ".toList (literalEntries entries) ++ ['\x7d']
  | foreign f => literalForeign f

def literalForeign : Foreign Value → Text
  | .date day => Text.call "datetime.date" (day.fields.map Text.ofNat)
  | .dateTime day time => Text.call "datetime.datetime" ((day.fields ++ time.fields).map Text.ofNat)
  | .time time => Text.call "datetime.time" (time.fields.map Text.ofNat)
  | .bytes content => Text.quotedBytes content
  | .byteArray content => Text.call "bytearray" [Text.quotedBytes content]
  | .decimal numeral => Text.call "Decimal" [Text.quoted numeral]
  | .complexNumber re im => Text.ofComplex re im
  | .range start stop step =>
    Text.call "range" ([start, stop].map Text.ofInt ++ if step = 1 then [] else [Text.ofInt step])
  | .set [] => "set()"
  | .set members => '\x7b' :: List.intercalate ", ".toList (literals members) ++ ['\x7d']
  | .frozenSet [] => "frozenset()"
  | .frozenSet members =>
    Text.call "frozenset" ['\x7b' :: List.intercalate ", ".toList (literals members) ++ ['\x7d']]
  | .object spelling => spelling

def literals : List Value → List Text
  | [] => []
  | item :: items => literal item :: literals items

def literalEntries : List (Value × Value) → List Text
  | [] => []
  | (key, value) :: entries => (literal key ++ ": " ++ literal value) :: literalEntries entries

end

/-- The spelling in which a text, a date, a time and a decimal stand for themselves. -/
def display : Value → Text
  | text t => t
  | foreign (.date day) => day.display
  | foreign (.dateTime day time) => day.display ++ ' ' :: time.display
  | foreign (.time time) => time.display
  | foreign (.decimal numeral) => numeral
  | v => v.literal

end Value

end TreeMarkup
