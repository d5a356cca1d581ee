import TreeMarkup.Json.Basic
import TreeMarkup.Markup.Escape
import TreeMarkup.Markup.Token

namespace TreeMarkup.Markup

inductive Item
  | element (tag : Text) (attributes : List Attribute) (children : List Item)
  | text (t : Text)
  | aside (kind : Aside) (t : Text)
  deriving Repr, Inhabited

/-- Elements that end with their opening tag in documents at large; some of them are obsolete. -/
def emptyTags : List Text :=
  voidTags ++
    (["basefont", "bgsound", "command", "frame", "image", "isindex", "keygen", "menuitem", "nextid",
      "spacer"] : List Text)

def isEmptyTag (tag : Text) : Bool := emptyTags.contains tag

def keepsBlanks (tag : Text) : Bool := tag = "pre" || tag = "textarea"

/-- Blanks alone are one blank, or one line feed if there is any. -/
def squeeze (t : Text) : Text :=
  if t.all Token.isTagBlank then if t.contains '\n' then ['\n'] else [' '] else t

structure OpenElement where
  tag : Text
  attributes : List Attribute
  before : List Item

/-- A forest that is being read: the items of the innermost open element, the last one first; the
text behind them, of which more may come; the open elements, the innermost first; and the elements
that ended with their opening tag, each of which may have a closing tag yet. -/
structure Growth where
  items : List Item := []
  pending : List Text := []
  opened : List OpenElement := []
  ended : List Text := []

namespace Growth

def settle (g : Growth) : Growth :=
  if g.pending.flatten.isEmpty then { g with pending := [] }
  else { g with items := .text g.pending.reverse.flatten :: g.items, pending := [] }

def add (g : Growth) (item : Item) : Growth :=
  let g := g.settle
  { g with items := item :: g.items }

def start (g : Growth) (tag : Text) (attributes : List Attribute) : Growth :=
  let g := g.settle
  { g with items := [], opened := ⟨tag, attributes, g.items⟩ :: g.opened }

def finish (g : Growth) : Growth :=
  match g.opened with
  | [] => g
  | e :: es =>
    { g with items := .element e.tag e.attributes g.items.reverse :: e.before, opened := es }

def close (g : Growth) (tag : Text) : Growth :=
  let g := g.settle
  match g.opened.findIdx? fun e ↦ e.tag = tag with
  | none => g
  | some n => Nat.repeat finish (n + 1) g

/-- A closing tag is passed over if its element ended with the opening tag. -/
def closeOnce (g : Growth) (tag : Text) : Growth :=
  if g.ended.contains tag then { g with ended := g.ended.erase tag } else g.close tag

def grow (g : Growth) : Token → Growth
  | .text t => { g with pending := t :: g.pending }
  | .aside kind t =>
    g.add (.aside kind (if g.opened.any fun e ↦ keepsBlanks e.tag then t else squeeze t))
  | .closing tag => g.closeOnce tag
  | .opening tag attributes closed =>
    let g := g.start tag attributes
    if closed then g.closeOnce tag
    else if isEmptyTag tag then
      let g := g.close tag
      { g with ended := tag :: g.ended }
    else g

def all (g : Growth) : List Item := (Nat.repeat finish g.opened.length g.settle).items.reverse

end Growth

def forest (t : Text) : List Item := ((Token.ofText t).foldl Growth.grow {}).all

/-- Only what would be read as a tag or an entity is escaped. -/
def escapeMinimal (t : Text) : Text :=
  t.flatMap fun c ↦
    if c = '&' then "&amp;" else if c = '<' then "&lt;" else if c = '>' then "&gt;" else [c]

/-- A value in double quotes if it can stand in them, and otherwise in apostrophes if it can stand
in those. -/
def quoteValue (v : Text) : Text :=
  if !v.contains '"' then '"' :: v ++ ['"']
  else if !v.contains '\'' then '\'' :: v ++ ['\'']
  else '"' :: v.flatMap (fun c ↦ if c = '"' then "&quot;" else [c]) ++ ['"']

def wordAttributes (tag : Text) : List String :=
  ["class", "accesskey", "dropzone"] ++
    match String.ofList tag with
    | "a" | "link" => ["rel", "rev"]
    | "area" => ["rel"]
    | "td" | "th" => ["headers"]
    | "form" => ["accept-charset"]
    | "object" => ["archive"]
    | "icon" => ["sizes"]
    | "iframe" => ["sandbox"]
    | "output" => ["for"]
    | _ => []

def tidyValue (tag name : Text) (v : Text) : Text :=
  if (wordAttributes tag).contains (String.ofList name) then
    List.intercalate [' '] (Text.words v)
  else v

/-- Of several attributes of one name the last one counts. -/
def lastOfEach : List Attribute → List Attribute
  | [] => []
  | a :: as => if as.any fun b ↦ b.name = a.name then lastOfEach as else a :: lastOfEach as

def layAttribute (tag : Text) (a : Attribute) : Text :=
  ' ' :: a.name ++ '=' :: quoteValue (escapeMinimal (tidyValue tag a.name (a.value.getD [])))

def layAttributes (tag : Text) (as : List Attribute) : Text :=
  ((lastOfEach as).mergeSort fun a b ↦ Text.le a.name b.name).flatMap (layAttribute tag)

def layOpening (tag : Text) (as : List Attribute) : Text :=
  '<' :: tag ++ layAttributes tag as ++ ['>']

def layEmpty (tag : Text) (as : List Attribute) : Text := '<' :: tag ++ layAttributes tag as ++ "/>"

def layClosing (tag : Text) : Text := '<' :: '/' :: tag ++ ['>']

def layText (holder t : Text) : Text := if isRaw holder then t else escapeMinimal t

def layAside (t : Text) : Aside → Text
  | .comment => "<!--" ++ t ++ "-->"
  | .instruction => "<?" ++ t ++ ['>']
  | .section => "<![CDATA[" ++ t ++ "]]>"
  | .declaration => "<?" ++ t ++ "?>"
  | .doctype => "<!DOCTYPE " ++ t ++ ['>']

mutual

/-- An item without any line breaks of its own; `holder` is the tag of the element around it. -/
def inlineItem (holder : Text) : Item → Text
  | .text t => layText holder t
  | .aside kind t => layAside t kind ++ if kind = .doctype then ['\n'] else []
  | .element tag as children =>
    if isEmptyTag tag && children.isEmpty then layEmpty tag as
    else layOpening tag as ++ inlineItems tag children ++ layClosing tag

def inlineItems (holder : Text) : List Item → Text
  | [] => []
  | item :: items => inlineItem holder item ++ inlineItems holder items

end

def layLine (depth : Nat) (t : Text) : Text :=
  if t.isEmpty then [] else List.replicate depth ' ' ++ t ++ ['\n']

mutual

def layItem (depth : Nat) (holder : Text) : Item → Text
  | .text t => layLine depth (Text.strip (layText holder t))
  | .aside kind t => layLine depth (layAside t kind)
  | .element tag as children =>
    if isEmptyTag tag && children.isEmpty then layLine depth (layEmpty tag as)
    else if keepsBlanks tag then
      layLine depth (layOpening tag as ++ inlineItems tag children ++ layClosing tag)
    else
      layLine depth (layOpening tag as) ++ layItems (depth + 1) tag children ++
        layLine depth (layClosing tag)

def layItems (depth : Nat) (holder : Text) : List Item → Text
  | [] => []
  | item :: items => layItem depth holder item ++ layItems depth holder items

end

def pretty (t : Text) : Text := layItems 0 [] (forest t)

end TreeMarkup.Markup
