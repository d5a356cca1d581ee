import TreeMarkup.Json.Read
import TreeMarkup.Markup.Pretty
import TreeMarkup.Site.Page

namespace TreeMarkup

/-- What a file loads as. A text that is not written as a value is a single scalar. -/
def FileContent.parse : FileContent → Except Mishap Value
  | text t =>
    if (Text.strip t).isEmpty then .ok .null
    else .ok ((Json.read? t).getD (.text (Text.strip t)))
  | document v => .ok v
  | malformed => .error (.flaw [])

/-- The text of a file. What is known by its value only is without one. -/
def FileContent.plainText : FileContent → Text
  | text t => t
  | _ => []

/-- A layout is looked for below the base, and refers to no other. -/
def Layout.fillFrom (files : Workspace) (base : Path) (name : Text) (b : Bindings) : Filling :=
  match location name with
  | .error e => ⟨.error (.flaw e.message), []⟩
  | .ok names =>
    let p : Path := { base with parts := base.parts ++ names }
    match files.read p with
    | .error _ => ⟨.error (.flaw (LayoutError.notFound name base).message), [p]⟩
    | .ok content => ⟨(fill name b content.plainText).mapError fun e ↦ .flaw e.message, [p]⟩

def Toolkit.plain : Toolkit where
  parse := FileContent.parse
  fill _ := Layout.fillFrom
  indent t := some (Markup.pretty t)

end TreeMarkup
