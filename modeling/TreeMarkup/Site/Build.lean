import TreeMarkup.Digest.Sha256
import TreeMarkup.Json.Basic
import TreeMarkup.Site.Page

namespace TreeMarkup

structure Session where
  files : Workspace
  warnings : List Text := []

abbrev SiteWork := ExceptT Failure (StateM Session)

namespace SiteWork

def onFiles {α : Type} (work : FileWork α) : SiteWork α := do
  let session ← get
  let (outcome, files) := work.run session.files
  set { session with files }
  ofExcept (outcome.mapError Failure.files)

def warn (t : Text) : SiteWork Unit := modify fun s ↦ { s with warnings := s.warnings ++ [t] }

end SiteWork

/-- A build reads a page set, and writes below a directory. Documents and layouts are read from what
`view` makes of the files that are written to, and `turn` tells it from other builds. -/
structure Build where
  kit : Toolkit
  turn : Nat
  pagesFile : Path
  output : Path
  view : Workspace → Workspace

namespace Build

def base (b : Build) : Path := b.pagesFile.parent

def target (b : Build) (page : Page) : Path := b.output.join (.ofText page.outputPath)

def manifestPath (b : Build) : Path := b.output.join (.ofText "manifest.json")

def loadPageSet (b : Build) (w : Workspace) : Except Failure PageSet :=
  (b.view w).loadPageSet b.kit b.pagesFile

def renderPage (b : Build) (set : PageSet) (w : Workspace) (page : Page) : Except Failure Text :=
  (b.view w).renderPage b.kit b.turn b.base set page

def manifestEntry (page : Page) (t : Text) : Json :=
  .object
    [("key", .text page.key), ("output", .text page.outputPath), ("sha256", .text (Text.sha256 t)),
      ("source", .text page.source)]

def manifest (entries : List Json) : Json := .object [("pages", .array entries)]

def writePage (b : Build) (set : PageSet) (page : Page) : SiteWork Json := do
  let t ← ofExcept (b.renderPage set (← get).files page)
  SiteWork.onFiles (.writeText (b.target page) t)
  return manifestEntry page t

def writePages (b : Build) (set : PageSet) : List Page → SiteWork (List Json)
  | [] => return []
  | page :: pages => do
    let entry ← b.writePage set page
    let entries ← writePages b set pages
    return entry :: entries

/-- The number of pages that were written. -/
def run (b : Build) : SiteWork Nat := do
  let set ← ofExcept (b.loadPageSet (← get).files)
  if set.pages.isEmpty then SiteWork.warn ("No pages defined in " ++ b.pagesFile.display)
  let entries ← b.writePages set set.pages
  SiteWork.onFiles (.writeText b.manifestPath (manifest entries).write)
  return entries.length

end Build

/-- The directory that a trial build writes below, in an empty workspace. Its path is as long as that
of a directory for temporary files, for a path that gets too long with it cannot be written to. -/
def trialOutput : Path := ⟨1, ["tmp", "tmpxxxxxxxx", "run1"]⟩

/-- The build of a trial, which reads the files as they were before it. -/
def trialBuild (k : Toolkit) (turn : Nat) (pagesFile : Path) (w : Workspace) : Build :=
  ⟨k, turn, pagesFile, trialOutput, fun _ ↦ w⟩

/-- Builds a site without touching the files; what it has written comes back. -/
def trial (k : Toolkit) (turn : Nat) (pagesFile : Path) : SiteWork (List (Place × Entry)) := do
  let session ← get
  let (outcome, after) := (trialBuild k turn pagesFile session.files).run.run
    { session with files := session.files.blank }
  set { session with warnings := after.warnings }
  discard (ofExcept outcome)
  return after.files.tree.below trialOutput.parts

def digests (entries : List (Place × Entry)) : List (Place × Text) :=
  entries.filterMap fun
    | (place, .file (.text t)) => some (place, t.sha256)
    | _ => none

/-- Builds a site twice; the outcome counts if it is the same both times. -/
def trials (k : Toolkit) (pagesFile : Path) : SiteWork (List (Place × Entry)) := do
  let first ← trial k 1 pagesFile
  let second ← trial k 2 pagesFile
  if digests first ≠ digests second then throw .indeterminate
  return first

/-- Puts the outcome of two trials where the output belongs, in place of everything that is
there. -/
def checkedBuild (k : Toolkit) (pagesFile output : Path) : SiteWork Unit := do
  let entries ← trials k pagesFile
  SiteWork.onFiles (.replaceTree output entries)

end TreeMarkup
