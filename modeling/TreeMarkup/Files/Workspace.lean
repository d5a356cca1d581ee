import TreeMarkup.Files.Tree

namespace TreeMarkup

/-- Where work is done: in which directory, and which characters cannot be encoded there. -/
structure Standpoint where
  current : Place := []
  isBroken : Char → Bool := Text.isHalf
  isBroken_ascii : ∀ c : Char, c.toNat < 128 → isBroken c = false := by exact Text.isHalf_ascii

structure Workspace extends Standpoint where
  tree : Tree := {}

/-- An operation that fails part of the way leaves what it has done until then. -/
abbrev FileWork := ExceptT FileError (StateM Workspace)

namespace Workspace

/-- No files at all, where there are other files. -/
def blank (w : Workspace) : Workspace := { w with tree := {}, current := [] }

def IsBroken (w : Workspace) (t : Text) : Prop := ∃ c ∈ t, w.isBroken c = true

instance (w : Workspace) (t : Text) : Decidable (w.IsBroken t) :=
  List.decidableBEx (fun c ↦ w.isBroken c = true) t

def origin (w : Workspace) (p : Path) : Place := if p.slashes = 0 then w.current else []

/-- The place that a path leads to, whether or not there is anything. No path holds a null
character, nor one that cannot be encoded. -/
def resolve (w : Workspace) (p : Path) : Except FileError Place :=
  if ∃ name ∈ p.parts, w.IsBroken name then .error .unencodable
  else if ∃ name ∈ p.parts, '\x00' ∈ name then .error .unusable
  else if ¬p.Fits then .error .tooLong
  else w.tree.walk (w.origin p) p.parts

def lookup (w : Workspace) (p : Path) : Except FileError Entry := do
  match w.tree.get? (← w.resolve p) with
  | some entry => .ok entry
  | none => .error .notFound

def pathExists (w : Workspace) (p : Path) : Bool :=
  match w.lookup p with
  | .ok _ => true
  | .error _ => false

def isDirectory (w : Workspace) (p : Path) : Bool :=
  match w.lookup p with
  | .ok entry => entry.isDirectory
  | .error _ => false

def read (w : Workspace) (p : Path) : Except FileError FileContent := do
  match ← w.lookup p with
  | .file content => .ok content
  | .directory => .error .isDirectory

def put (w : Workspace) (place : Place) (entry : Entry) : Workspace :=
  { w with tree := w.tree.put place entry }

end Workspace

namespace FileWork

def resolve (p : Path) : FileWork Place := do ofExcept ((← get).resolve p)

def makeDirectory (p : Path) : FileWork Unit := do
  let place ← resolve p
  match (← get).tree.get? place with
  | some _ => throw .alreadyExists
  | none => modify (·.put place .directory)

/-- An error is let pass if there is a directory in spite of it. -/
def unlessDirectory (p : Path) (e : FileError) : FileWork Unit := do
  if (← get).isDirectory p then return else throw e

/-- Makes a directory and first those above it that are missing; one that is there already will
do. -/
def makeDirectories (p : Path) : FileWork Unit :=
  tryCatch (makeDirectory p) fun e ↦
    if _h : e = .notFound ∧ p.parts ≠ [] then do
      makeDirectories p.parent
      tryCatch (makeDirectory p) fun e ↦
        if e = .notFound then throw e else unlessDirectory p e
    else unlessDirectory p e
termination_by p.parts.length
decreasing_by exact Path.length_parent_lt _h.2

/-- Makes a directory that must not be there yet, and those above it that are missing. -/
def makeNewDirectory (p : Path) : FileWork Unit := do
  if _h : p.parts ≠ [] then
    if p.parent.parts ≠ [] && !(← get).pathExists p.parent then
      tryCatch (makeNewDirectory p.parent) fun e ↦
        if e = .alreadyExists then pure () else throw e
  makeDirectory p
termination_by p.parts.length
decreasing_by exact Path.length_parent_lt _h

def prepare (p : Path) : FileWork Unit := do
  if p.parent ≠ Path.here then makeDirectories p.parent

def writeFile (p : Path) (content : FileContent) : FileWork Unit := do
  let place ← resolve p
  match (← get).tree.get? place with
  | some .directory => throw .isDirectory
  | _ => modify (·.put place (.file content))

/-- A file is emptied when it is opened, and only then is the text encoded. -/
def storeText (p : Path) (t : Text) : FileWork Unit := do
  if (← get).IsBroken t then
    writeFile p (.text [])
    throw .unencodable
  else writeFile p (.text t)

def writeText (p : Path) (t : Text) : FileWork Unit := do
  prepare p
  storeText p t

/-- Removes an empty directory. A path that names it only by going up, or not at all, is refused. -/
def removeDirectory (p : Path) : FileWork Unit := do
  let place ← resolve p
  if p.parts.getLast?.all (· = Path.up) then throw .notRemovable
  else modify fun w ↦ { w with tree := w.tree.erase place }

def removeTree (p : Path) : FileWork Unit := do
  let place ← resolve p
  match (← get).tree.get? place with
  | none => throw .notFound
  | some (.file _) => throw .notDirectory
  | some .directory =>
    modify fun w ↦ { w with tree := w.tree.eraseBelow place }
    removeDirectory p

def placeEntry (p : Path) (place : Place) (entry : Place × Entry) : FileWork Unit := do
  if (p.join ⟨0, entry.1⟩).Fits then modify (·.put (place ++ entry.1) entry.2)
  else throw .tooLong

/-- Puts entries in their order, going on after an error; all errors come out in the end. -/
def placeEntries (p : Path) (place : Place) : List (Place × Entry) → FileWork (List FileError)
  | [] => return []
  | entry :: entries => do
    let error ← tryCatch (do placeEntry p place entry; return []) fun e ↦ return [e]
    let errors ← placeEntries p place entries
    return error ++ errors

def fillDirectory (p : Path) (entries : List (Place × Entry)) : FileWork Unit := do
  let place ← resolve p
  if (← placeEntries p place entries) ≠ [] then throw .incomplete

def placeTree (p : Path) (entries : List (Place × Entry)) : FileWork Unit := do
  makeNewDirectory p
  fillDirectory p entries

/-- Removes what is at a path. That there is nothing is no error; that it cannot be told is one. -/
def removeExisting (p : Path) : FileWork Unit := do
  match (← get).lookup p with
  | .ok _ => removeTree p
  | .error e => if e.isAbsence then return else throw e

def replaceTree (p : Path) (entries : List (Place × Entry)) : FileWork Unit := do
  removeExisting p
  placeTree p entries

end FileWork

end TreeMarkup
