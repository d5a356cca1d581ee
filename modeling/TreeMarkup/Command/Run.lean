import TreeMarkup.Command.Basic
import TreeMarkup.Site.Build
import TreeMarkup.Text.Basic

namespace TreeMarkup.Command

def finishLine (t : Text) : Text := if Text.endsWith ['\n'] t then t else t ++ ['\n']

/-- Converts one document. The markup is printed, with a line feed at its end, unless it is
written to a file. Nothing is printed of what cannot be encoded. -/
def runConvert (k : Toolkit) (a : ConvertArguments) : SiteWork Text := do
  let files := (← get).files
  let converted ← ofExcept (files.convertFile k ⟨a.allowMultiKey⟩ (.ofText a.input))
  let markup ← ofExcept (if a.pretty then k.pretty converted else .ok converted)
  match a.output with
  | none => if files.IsBroken markup then throw (.files .unencodable) else return finishLine markup
  | some output =>
    SiteWork.onFiles (.writeText (.ofText output) markup)
    return "Wrote " ++ output ++ "\n"

def runBuild (k : Toolkit) (a : BuildArguments) : SiteWork Text := do
  let pagesFile := Path.ofText a.pages
  let output := Path.ofText a.output
  if a.check then
    checkedBuild k pagesFile output
    return "Determinism check passed. Output copied to " ++ output.display ++ "\n"
  else
    let count ← Build.run ⟨k, 0, pagesFile, output, id⟩
    return "Built " ++ Text.ofNat count ++ " page(s) into " ++ output.display ++ "\n"

def runTags : Text := Markup.voidTags.flatMap fun tag ↦ tag ++ ['\n']

def Invocation.run (k : Toolkit) : Invocation → SiteWork Text
  | convert a => runConvert k a
  | build a => runBuild k a
  | tags => return runTags

inductive Ending
  | done (output : Text)
  | failed (f : Failure)
  | refused (r : Refusal)

/-- A command line that is refused changes nothing; help that was asked for is no failure. -/
def run (k : Toolkit) (words : List Text) (files : Workspace) : Ending × Session :=
  match parse words with
  | .error (.help topic) => (.done topic.help, ⟨files, []⟩)
  | .error r => (.refused r, ⟨files, []⟩)
  | .ok invocation =>
    match (invocation.run k).run ⟨files, []⟩ with
    | (.ok output, session) => (.done output, session)
    | (.error f, session) => (.failed f, session)

/-- The lines that are given for diagnosis: all lines of the warnings, or the last line of what is
wrong with the command line. -/
def Ending.diagnosticLines (warnings : List Text) : Ending → List Text
  | refused r => (r.diagnostic?.bind fun t ↦ (Text.lines (t ++ "\n")).getLast?).toList
  | _ => Text.lines (warnings.flatMap (· ++ "\n"))

def Ending.exitCode : Ending → Nat
  | done _ => 0
  | failed _ => 1
  | refused _ => 2

end TreeMarkup.Command
