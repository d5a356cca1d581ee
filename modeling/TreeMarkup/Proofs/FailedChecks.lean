import TreeMarkup.Proofs.ManifestIntegrity

namespace TreeMarkup.Command

variable {k : Toolkit} {a : BuildArguments} {s : Session} {f : Failure}

def onePage : Session :=
  let page : Value := .map [(.text "key", .text "a"), (.text "source", .text "a.yaml")]
  ⟨{ tree :=
      ⟨[(["pages.yaml"], .file (.document (.list [page]))),
        (["a.yaml"], .file (.document (.list [.text "hi"])))]⟩ }, []⟩

end TreeMarkup.Command
