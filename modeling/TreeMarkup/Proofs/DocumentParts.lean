import TreeMarkup.Proofs.Computations
import TreeMarkup.Render.Basic

namespace TreeMarkup

/-- An element has the attributes of its key and those that its content gives. -/
inductive Part
  | doctype
  | text (t : Text)
  | raw (t : Text)
  | element (tag : Text) (own given : List Attribute) (children : List Part)

namespace Part

def opening (tag : Text) (own given : List Attribute) : Text :=
  '<' :: tag ++ Attribute.writeAll own ++ Attribute.writeAll given ++ ['>']

def closing (tag : Text) : Text := '<' :: '/' :: tag ++ ['>']

mutual

def write : Part → Text
  | doctype => doctypeDeclaration
  | text t => Markup.escapeText t
  | raw t => t
  | element tag own given children =>
    if Markup.isVoid tag then opening tag own given
    else opening tag own given ++ writeAll children ++ closing tag

def writeAll : List Part → Text
  | [] => []
  | part :: parts => write part ++ writeAll parts

end

def scalar (tag t : Text) : Part := if Markup.isRaw tag then raw t else text t

end Part

def ElementKey.given (k : ElementKey) : Value → Except ConversionError (List Attribute)
  | .map entries =>
    OpeningTag.entryAttributes (k.written.map Attribute.name)
      (entries.filter fun e ↦ !e.1.isText "children")
  | .foreign f => .error (.unsupported (.foreign f.kind) .content)
  | _ => .ok []

/-- The element of a key and a content. Its children are asked for last, and not at all if the
element is void. -/
def elementParts (key : Text) (content : Value)
    (inner : Text → Except ConversionError (List Part)) : Except ConversionError (List Part) :=
  if isDoctype key then .ok [.doctype]
  else
    let k := ElementKey.parse key
    if k.tag = [] then .error (.malformed key .noTag)
    else do
      let given ← k.given content
      let children ← (if Markup.isVoid k.tag then .ok [] else inner k.tag)
      return [.element k.tag k.written given children]

theorem elementParts_eq_ok {key : Text} {content : Value}
    {inner : Text → Except ConversionError (List Part)} {ps : List Part}
    (h : elementParts key content inner = .ok ps) :
    ps = [.doctype] ∨
      ∃ given children, (ElementKey.parse key).tag ≠ [] ∧
        (ElementKey.parse key).given content = .ok given ∧
        (if Markup.isVoid (ElementKey.parse key).tag then .ok []
          else inner (ElementKey.parse key).tag) = .ok children ∧
        ps = [.element (ElementKey.parse key).tag (ElementKey.parse key).written given children] := by
  unfold elementParts at h
  by_cases hd : isDoctype key = true
  · rw [if_pos hd] at h
    cases h
    exact .inl rfl
  rw [if_neg hd] at h
  by_cases ht : (ElementKey.parse key).tag = []
  · rw [if_pos ht] at h
    cases h
  rw [if_neg ht] at h
  obtain ⟨given, hg, h⟩ := bind_eq_ok_iff.1 h
  obtain ⟨children, hc, h⟩ := bind_eq_ok_iff.1 h
  cases h
  exact .inr ⟨given, children, ht, hg, hc, rfl⟩

namespace Value

mutual

def parts (options : Options) : Value → Except ConversionError (List Part)
  | .null => .ok []
  | .text t =>
    match Declaration.ofText? t with
    | some ⟨key, none⟩ => elementParts key .null fun _ ↦ .ok []
    | some ⟨key, some c⟩ => elementParts key (.text c) fun tag ↦ .ok [.scalar tag c]
    | none => .ok [.text t]
  | .list items => itemParts options items
  | .tuple items => itemParts options items
  | .map entries => mappingParts options entries
  | v => do return [.text (← v.scalarAt .node).format]

def itemParts (options : Options) : List Value → Except ConversionError (List Part)
  | [] => .ok []
  | v :: vs => do return (← parts options v) ++ (← itemParts options vs)

def mappingParts (options : Options) :
    List (Value × Value) → Except ConversionError (List Part)
  | [] => .error (.malformed [] .emptyKey)
  | (key, content) :: rest =>
    if !rest.isEmpty && !options.allowMultiKey then
      .error (.malformed key.display (.severalKeys (key.display :: rest.map fun e ↦ e.1.display)))
    else do elementParts (← key.elementKey) content fun tag ↦ contentParts options tag content

def contentParts (options : Options) (tag : Text) : Value → Except ConversionError (List Part)
  | .null => .ok []
  | .list items => itemParts options items
  | .tuple items => itemParts options items
  | .map entries => childrenParts options tag entries
  | v => do return [.scalar tag (← v.scalarAt .content).format]

def childrenParts (options : Options) (tag : Text) :
    List (Value × Value) → Except ConversionError (List Part)
  | [] => .ok []
  | (name, value) :: entries =>
    if name.isText "children" then bodyParts options tag value
    else childrenParts options tag entries

def bodyParts (options : Options) (tag : Text) : Value → Except ConversionError (List Part)
  | .null => .ok []
  | .text [] => .ok []
  | .list items => itemParts options items
  | .tuple items => itemParts options items
  | .map entries => mappingParts options entries
  | v => do return [.scalar tag (← v.scalarAt .content).format]

end

end Value

end TreeMarkup
