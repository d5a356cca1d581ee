import TreeMarkup.Key.Basic
import TreeMarkup.Key.Scan
import TreeMarkup.Markup.Escape
import TreeMarkup.Node.Basic

namespace TreeMarkup

inductive Piece
  | doctype
  | opening (tag : Text) (attributes : List Attribute)
  | closing (tag : Text)
  | text (t : Text)
  | raw (t : Text)
  deriving DecidableEq, Repr

def doctypeDeclaration : Text := "<!DOCTYPE html>"

namespace Piece

/-- Only what is raw stands unescaped between the tags. -/
def write : Piece → Text
  | doctype => doctypeDeclaration
  | opening tag attributes => '<' :: tag ++ Attribute.writeAll attributes ++ ['>']
  | closing tag => '<' :: '/' :: tag ++ ['>']
  | text t => Markup.escapeText t
  | raw t => t

def writeAll (pieces : List Piece) : Text := pieces.flatMap write

theorem writeAll_append (ps qs : List Piece) : writeAll (ps ++ qs) = writeAll ps ++ writeAll qs :=
  List.flatMap_append

def body (tag t : Text) : Piece := if Markup.isRaw tag then raw t else text t

end Piece

/-- True is a bare attribute, null is written as a word, and other scalars as in body text. -/
def Value.attributeValue : Value → Except ConversionError (Option Text)
  | boolean true => .ok none
  | null => .ok (some "null")
  | v => (v.scalarAt .attributeValue).map fun s ↦ some s.format

namespace OpeningTag

/-- Whether a key is the text of a name in the list; only a text equals a text. -/
def isWritten (names : List Text) : Value → Bool
  | .text name => names.contains name
  | _ => false

def addName (names : List Text) : Value → List Text
  | .text name => name :: names
  | _ => names

def entryAttributes : List Text → List (Value × Value) → Except ConversionError (List Attribute)
  | _, [] => .ok []
  | names, (key, value) :: entries =>
    if isWritten names key then entryAttributes names entries
    else do
      let value ← value.attributeValue
      let attributes ← entryAttributes (addName names key) entries
      return ⟨key.display, value⟩ :: attributes

def contentAttributes (k : ElementKey) : Content → Except ConversionError (List Attribute)
  | .attributes entries _ => entryAttributes (k.written.map Attribute.name) entries
  | _ => .ok []

def attributes (k : ElementKey) (content : Content) : Except ConversionError (List Attribute) :=
  (contentAttributes k content).map (k.written ++ ·)

end OpeningTag

structure Options where
  allowMultiKey : Bool := false
  deriving DecidableEq, Repr

inductive Task
  | visit (v : Value)
  | close (tag : Text)

/-- What a step writes, and the tasks that it leaves to be done next. -/
structure Progress where
  written : List Piece
  tasks : List Task

/-- Keys of document type declarations, with or without a quote in front. -/
def isDoctype (key : Text) : Bool :=
  "!DOCTYPE".toList.isPrefixOf key || "\"!DOCTYPE".toList.isPrefixOf key

def Body.progress (tag : Text) : Body → Progress
  | empty => ⟨[], [.close tag]⟩
  | scalar s => ⟨[.body tag s.format], [.close tag]⟩
  | sequence items => ⟨[], items.map .visit ++ [.close tag]⟩

/-- A key without a tag is refused before the content is looked at, and the attributes before the
children. The children of a void element are not looked at. -/
def elementProgress (key : Text) (content : Value) : Except ConversionError Progress :=
  if isDoctype key then .ok ⟨[.doctype], []⟩
  else
    let k := ElementKey.parse key
    if k.tag = [] then .error (.malformed key .noTag)
    else do
      let content ← content.toContent
      let opening := Piece.opening k.tag (← OpeningTag.attributes k content)
      if Markup.isVoid k.tag then return ⟨[opening], []⟩
      let rest := (← content.body).progress k.tag
      return ⟨opening :: rest.written, rest.tasks⟩

def Node.progress : Node → Except ConversionError Progress
  | empty => .ok ⟨[], []⟩
  | scalar s => .ok ⟨[.text s.format], []⟩
  | sequence items => .ok ⟨[], items.map .visit⟩
  | element key content => elementProgress key content

def Value.progress (options : Options) (v : Value) : Except ConversionError Progress := do
  (← v.toNode options.allowMultiKey).progress

def Task.progress (options : Options) : Task → Except ConversionError Progress
  | visit v => v.progress options
  | close tag => .ok ⟨[.closing tag], []⟩

end TreeMarkup
