import TreeMarkup.Files.Workspace
import TreeMarkup.Layout.Fill
import TreeMarkup.Node.Basic
import TreeMarkup.Render.Basic

namespace TreeMarkup

/-- How a library fails: with an error of its own kind, or with any other. -/
inductive Mishap
  | flaw (message : Text)
  | crash
  deriving DecidableEq, Repr

/-- What comes of filling in a layout, and the paths at which files were looked for to do it. -/
structure Filling where
  outcome : Except Mishap Text
  lookups : List Path

/-- The libraries that a site is built with; what they do is left open. A layout is filled in with the
files of the moment and may come out differently each time: `turn` tells one build from another. -/
structure Toolkit where
  parse : FileContent → Except Mishap Value
  fill (turn : Nat) (files : Workspace) (base : Path) (name : Text) (b : Layout.Bindings) : Filling
  indent : Text → Option Text

/-- A failure of the files themselves has no message, and neither has one that was not foreseen. -/
inductive Failure
  | noFile (p : Path)
  | unreadable (p : Path) (message : Text)
  | unconvertible (p : Path) (e : ConversionError)
  | noPageSet (p : Path)
  | badPageSet (p : Path) (issues : List Issue)
  | badLayout (template key message : Text)
  | indeterminate
  | files (e : FileError)
  | crash
  deriving DecidableEq, Repr

def Mishap.failure (foreseen : Text → Failure) : Mishap → Failure
  | flaw message => foreseen message
  | crash => .crash

namespace Failure

def message? : Failure → Option Text
  | noFile p => some ("File not found: " ++ p.display)
  | unreadable p message => some ("Invalid YAML in " ++ p.display ++ ": " ++ message)
  | unconvertible p e => some (p.display ++ ": " ++ e.message)
  | noPageSet p =>
    some (p.display ++ " must contain a list of pages or a mapping with 'pages'.")
  | badPageSet p _ => some ("Invalid page set in " ++ p.display)
  | badLayout template key message =>
    some ("Failed to render " ++ template ++ " for page '" ++ key ++ "': " ++ message)
  | indeterminate => some "Determinism check failed: outputs differ between runs"
  | files _ => none
  | crash => none

end Failure

def Toolkit.pretty (k : Toolkit) (t : Text) : Except Failure Text :=
  match k.indent t with
  | some u => .ok u
  | none => .error .crash

namespace Workspace

def fileFailure (p : Path) (e : FileError) : Failure := if e.isAbsence then .noFile p else .files e

def load (w : Workspace) (k : Toolkit) (p : Path) : Except Failure Value := do
  let content ← (w.read p).mapError (fileFailure p)
  (k.parse content).mapError (Mishap.failure (.unreadable p))

def convertFile (w : Workspace) (k : Toolkit) (options : Options) (p : Path) :
    Except Failure Text := do
  (convert options (← w.load k p)).mapError (.unconvertible p)

/-- The mapping of a page set; a list holds pages, and whatever is empty holds none. -/
def pageSetData? (v : Value) : Option Value :=
  if v.isEmpty then some (.map [])
  else match v with
    | .list items => some (.map [(.text "pages", .list items)])
    | .map entries => some (.map entries)
    | _ => none

def loadPageSet (w : Workspace) (k : Toolkit) (p : Path) : Except Failure PageSet := do
  match pageSetData? (← w.load k p) with
  | none => .error (.noPageSet p)
  | some data =>
    match PageSet.read data with
    | .valid set => .ok set
    | .invalid issues => .error (.badPageSet p issues)

def fillLayout (w : Workspace) (k : Toolkit) (turn : Nat) (base : Path) (set : PageSet) (page : Page)
    (template markup : Text) : Filling :=
  k.fill turn w base template (Layout.handed (set.contextFor page) page markup)

def layOut (w : Workspace) (k : Toolkit) (turn : Nat) (base : Path) (set : PageSet) (page : Page)
    (template markup : Text) : Except Failure Text :=
  (w.fillLayout k turn base set page template markup).outcome.mapError
    (Mishap.failure (.badLayout template page.key))

/-- The text of a page; its document and its layout are looked for from the base. -/
def renderPage (w : Workspace) (k : Toolkit) (turn : Nat) (base : Path) (set : PageSet)
    (page : Page) : Except Failure Text := do
  let markup ← w.convertFile k (set.optionsFor page) (base.join (.ofText page.source))
  let whole ← match set.templateFor page with
    | some (c :: cs) => w.layOut k turn base set page (c :: cs) markup
    | _ => pure markup
  if set.prettyFor page then k.pretty whole else pure whole

end Workspace

end TreeMarkup
