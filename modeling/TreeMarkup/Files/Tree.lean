import TreeMarkup.Text.Basic
import TreeMarkup.Value.Basic

namespace TreeMarkup

/-- A path starts with a number of slashes, of which three or more are the same as one. Parts of two
dots stay in it, for what they lead to depends on the files that there are. -/
structure Path where
  slashes : Nat
  parts : List Text
  deriving DecidableEq, Repr

namespace Path

def leadingSlashes : Text → Nat
  | '/' :: '/' :: '/' :: _ => 1
  | '/' :: '/' :: _ => 2
  | '/' :: _ => 1
  | _ => 0

def isSilent (part : Text) : Bool := part.isEmpty || part = ['.']

def ofText (t : Text) : Path :=
  ⟨leadingSlashes t, (Text.splitOn '/' t).filter fun part ↦ !isSilent part⟩

def here : Path := ⟨0, []⟩

def up : Text := ['.', '.']

def parent (p : Path) : Path := { p with parts := p.parts.dropLast }

/-- The path `q` from where `p` leads; an absolute path starts anew. -/
def join (p q : Path) : Path := if q.slashes = 0 then { p with parts := p.parts ++ q.parts } else q

def display (p : Path) : Text :=
  if p = here then ['.']
  else List.replicate p.slashes '/' ++ List.intercalate ['/'] p.parts

/-- The greatest number of bytes that a path can have. -/
def limit : Nat := 4095

def Fits (p : Path) : Prop := p.display.utf8Length ≤ limit

instance (p : Path) : Decidable p.Fits := inferInstanceAs (Decidable (_ ≤ _))

theorem length_parent_lt {p : Path} (h : p.parts ≠ []) :
    p.parent.parts.length < p.parts.length := by
  have := List.length_pos_iff.2 h
  simp only [parent, List.length_dropLast]
  omega

end Path

abbrev Place := List Text

/-- What a file holds: a text, or a document that is known only by the value that it loads as, or
by its not loading at all. -/
inductive FileContent
  | text (t : Text)
  | document (v : Value)
  | malformed

inductive Entry
  | directory
  | file (content : FileContent)

def Entry.isDirectory : Entry → Bool
  | directory => true
  | file _ => false

inductive FileError
  | notFound
  | notDirectory
  | isDirectory
  | alreadyExists
  | notRemovable
  | tooLong
  | unusable
  | unencodable
  | incomplete
  deriving DecidableEq, Repr

def FileError.isAbsence : FileError → Bool
  | notFound | notDirectory | unusable | unencodable => true
  | _ => false

/-- The greatest number of bytes that a name can have. -/
def nameLimit : Nat := 255

/-- Every file and every directory has a place, the names from the root down. The root is always a
directory. -/
structure Tree where
  entries : List (Place × Entry) := []

namespace Tree

def get? (t : Tree) (place : Place) : Option Entry :=
  if place = [] then some .directory else (t.entries.find? fun e ↦ e.1 = place).map Prod.snd

def put (t : Tree) (place : Place) (entry : Entry) : Tree :=
  if t.entries.any fun e ↦ e.1 = place then
    ⟨t.entries.map fun e ↦ if e.1 = place then (place, entry) else e⟩
  else ⟨t.entries ++ [(place, entry)]⟩

def erase (t : Tree) (place : Place) : Tree := ⟨t.entries.filter fun e ↦ e.1 ≠ place⟩

def isBelow (place other : Place) : Bool := place.isPrefixOf other && place ≠ other

def eraseBelow (t : Tree) (place : Place) : Tree :=
  ⟨t.entries.filter fun e ↦ !isBelow place e.1⟩

def below (t : Tree) (place : Place) : List (Place × Entry) :=
  (t.entries.filter fun e ↦ isBelow place e.1).map fun e ↦ (e.1.drop place.length, e.2)

def step (place : Place) (name : Text) : Place :=
  if name = Path.up then place.dropLast else place ++ [name]

/-- Follows names from a place. Whatever a further name is looked up in has to be a directory, and
only then is the name itself looked at. -/
def walk (t : Tree) (place : Place) : List Text → Except FileError Place
  | [] => .ok place
  | name :: names =>
    match t.get? place with
    | none => .error .notFound
    | some (.file _) => .error .notDirectory
    | some .directory =>
      if nameLimit < name.utf8Length then .error .tooLong else walk t (step place name) names

def files (t : Tree) : List (Place × FileContent) :=
  t.entries.filterMap fun
    | (place, .file content) => some (place, content)
    | (_, .directory) => none

end Tree

end TreeMarkup
