import TreeMarkup.Render.Progress
import TreeMarkup.Settings.Check

namespace TreeMarkup

abbrev Context := List (Text × Value)

def Context.get? (context : Context) (name : Text) : Option Value :=
  (context.find? fun entry ↦ entry.1 = name).map Prod.snd

structure PageDefaults where
  template : Option Text := none
  pretty : Bool := false
  allowMultiKey : Bool := false
  context : Context := []

structure Page where
  key : Text
  source : Text
  output : Option Text := none
  title : Option Text := none
  template : Option Text := none
  pretty : Option Bool := none
  allowMultiKey : Option Bool := none
  context : Context := []

structure PageSet where
  defaults : PageDefaults := {}
  pages : List Page := []

/-- The switch for several keys has two spellings, of which the first wins. -/
def multiKeyField (entries : List (Value × Value)) : Text :=
  if (Value.lookup? "allowMultiKey" entries).isSome then "allowMultiKey" else "allow_multi_key"

namespace Options

def read : Value → Check Options :=
  Value.readRecord "ConvertOptions" fun entries ↦
    (Value.fieldOr (multiKeyField entries) false Value.readBoolean entries).map Options.mk

end Options

namespace PageDefaults

def read : Value → Check PageDefaults :=
  Value.readRecord "PageDefaults" fun entries ↦
    (Check.valid PageDefaults.mk)
      |>.apply (Value.fieldOr "template" none (Value.readOptional Value.readText) entries)
      |>.apply (Value.fieldOr "pretty" false Value.readBoolean entries)
      |>.apply (Value.fieldOr (multiKeyField entries) false Value.readBoolean entries)
      |>.apply (Value.fieldOr "context" [] Value.readMapping entries)

end PageDefaults

namespace Page

def isSlug (key : Text) : Bool := !key.isEmpty && !key.contains '/' && Text.strip key == key

def readSlug (v : Value) : Check Text :=
  v.readText.bind fun key ↦ if isSlug key then .valid key else .refused .badKey

/-- A backslash separates the parts of an output path as a slash does. -/
def slashed (path : Text) : Text := path.map fun c ↦ if c = '\\' then '/' else c

def staysInside (path : Text) : Bool :=
  (slashed path).head? != some '/' && !(Text.splitOn '/' (slashed path)).contains ['.', '.'] &&
    path[1]? != some ':'

def readOutput (v : Value) : Check Text :=
  v.readText.bind fun path ↦ if staysInside path then .valid path else .refused .badOutput

def read : Value → Check Page :=
  Value.readRecord "PageSpec" fun entries ↦
    (Check.valid Page.mk)
      |>.apply (Value.required "key" readSlug entries)
      |>.apply (Value.required "source" Value.readText entries)
      |>.apply (Value.fieldOr "output" none (Value.readOptional readOutput) entries)
      |>.apply (Value.fieldOr "title" none (Value.readOptional Value.readText) entries)
      |>.apply (Value.fieldOr "template" none (Value.readOptional Value.readText) entries)
      |>.apply (Value.fieldOr "pretty" none (Value.readOptional Value.readBoolean) entries)
      |>.apply
        (Value.fieldOr (multiKeyField entries) none (Value.readOptional Value.readBoolean) entries)
      |>.apply (Value.fieldOr "context" [] Value.readMapping entries)

def outputPath (page : Page) : Text :=
  match page.output with
  | some (c :: cs) => c :: cs
  | _ => page.key ++ ".html"

end Page

namespace PageSet

/-- The first key that stands on an earlier page too. -/
def repeatedKey? (seen : List Text) : List Page → Option Text
  | [] => none
  | page :: pages =>
    if seen.contains page.key then some page.key else repeatedKey? (page.key :: seen) pages

/-- Keys are compared only if every page could be read. -/
def readPages (v : Value) : Check (List Page) :=
  (v.readList Page.read).bind fun pages ↦
    match repeatedKey? [] pages with
    | some key => .refused (.repeatedKey key)
    | none => .valid pages

def read : Value → Check PageSet :=
  Value.readRecord "PageSet" fun entries ↦
    (Check.valid PageSet.mk)
      |>.apply (Value.fieldOr "defaults" {} PageDefaults.read entries)
      |>.apply (Value.fieldOr "pages" [] readPages entries)

def optionsFor (set : PageSet) (page : Page) : Options :=
  ⟨page.allowMultiKey.getD set.defaults.allowMultiKey⟩

/-- An empty name stands for no template of the page's own. -/
def templateFor (set : PageSet) (page : Page) : Option Text :=
  match page.template with
  | some (c :: cs) => some (c :: cs)
  | _ => set.defaults.template

def prettyFor (set : PageSet) (page : Page) : Bool := page.pretty.getD set.defaults.pretty

/-- The context of the defaults, in which the page's own values replace those of the same name; its
other names follow. -/
def contextFor (set : PageSet) (page : Page) : Context :=
  set.defaults.context.map (fun (name, value) ↦ (name, (page.context.get? name).getD value)) ++
    page.context.filter fun (name, _) ↦ (set.defaults.context.get? name).isNone

end PageSet

end TreeMarkup
