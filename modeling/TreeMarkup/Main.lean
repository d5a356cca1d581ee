import TreeMarkup.Command.Run
import TreeMarkup.Site.Plain

namespace TreeMarkup

/-- The entries below a directory on disk. A file that is no text cannot be read as a document. -/
partial def takeUp (directory : IO.FS.DirEntry) (place : Place) : IO (List (Place × Entry)) := do
  let here := place ++ [directory.fileName.toList]
  if ← directory.path.isDir then
    let below ← (← directory.path.readDir).toList.mapM (takeUp · here)
    return (here, .directory) :: below.flatten
  else
    try
      let t ← IO.FS.readFile directory.path
      return [(here, .file (.text t.toList))]
    catch _ => return [(here, .file .malformed)]

def takeUpAll : IO Workspace := do
  let entries ← (← (← IO.currentDir).readDir).toList.mapM (takeUp · [])
  return { tree := ⟨entries.flatten⟩ }

def diskName (place : Place) : String := String.ofList (Path.display ⟨0, place⟩)

def writeEntry (entry : Place × Entry) : IO Unit :=
  match entry with
  | (place, .directory) => IO.FS.createDirAll (diskName place)
  | (place, .file (.text t)) => do
    IO.FS.createDirAll (diskName place.dropLast)
    IO.FS.writeFile (diskName place) (String.ofList t)
  | _ => return

def isNew (before : Tree) (entry : Place × Entry) : Bool :=
  match before.get? entry.1, entry.2 with
  | some (.file (.text s)), .file (.text t) => s ≠ t
  | some .directory, .directory => false
  | some (.file _), .file (.text _) => true
  | some (.file _), .file _ => false
  | _, _ => true

def writeBack (before after : Tree) : IO Unit := do
  for (place, entry) in before.entries.reverse do
    if (after.get? place).isNone then
      if entry.isDirectory then IO.FS.removeDir (diskName place)
      else IO.FS.removeFile (diskName place)
  for entry in after.entries do
    if isNew before entry then writeEntry entry

def printEnding : Command.Ending → IO Unit
  | .done output => IO.print (String.ofList output)
  | .refused _ => return
  | .failed f =>
    IO.eprintln (String.ofList (f.message?.getD "the files cannot be read or written as asked"))

end TreeMarkup

open TreeMarkup in
def main (arguments : List String) : IO UInt32 := do
  let files ← takeUpAll
  let (ending, session) := Command.run .plain (arguments.map String.toList) files
  writeBack files.tree session.files.tree
  for line in ending.diagnosticLines session.warnings do
    IO.eprintln (String.ofList line)
  printEnding ending
  return ending.exitCode.toUInt32
