import TreeMarkup.Key.Scan

namespace TreeMarkup

structure ElementKey where
  tag : Text := []
  id : Option Text := none
  classes : List Text := []
  attributes : List Attribute := []
  deriving DecidableEq, Repr

namespace ElementKey

def isTagChar (c : Char) : Bool := c.isAlphanum || c = '-'

theorem toNat_of_isTagChar {c : Char} (h : isTagChar c = true) :
    c.toNat = 45 ∨ (48 ≤ c.toNat ∧ c.toNat ≤ 57) ∨ (65 ≤ c.toNat ∧ c.toNat ≤ 90) ∨
      (97 ≤ c.toNat ∧ c.toNat ≤ 122) := by
  simp only [isTagChar, Char.isAlphanum, Bool.or_eq_true, decide_eq_true_eq] at h
  rcases h with (h | h) | rfl
  · have hn : Attribute.isNameChar c = true := by simp [Attribute.isNameChar, h]
    have := Attribute.toNat_of_isNameChar hn
    omega
  · change (decide (c.val ≥ '0'.val) && decide (c.val ≤ '9'.val)) = true at h
    simp only [Bool.and_eq_true, decide_eq_true_eq, UInt32.le_iff_toNat_le, ge_iff_le] at h
    exact .inr (.inl h)
  · exact .inl rfl

theorem isBlank_of_isTagChar {c : Char} (h : isTagChar c = true) : isBlank c = false := by
  have := toNat_of_isTagChar h
  exact isBlank_of_printable (by omega) (by omega)

/-- For each `mark` that a tag character follows, the run of tag characters after it. -/
def runsAfter (mark : Char) : Text → List Text
  | [] => []
  | c :: cs =>
    let run := cs.takeWhile isTagChar
    if c = mark && !run.isEmpty then run :: runsAfter mark cs else runsAfter mark cs

/-- A head such as `href=x` is an attribute without an element. One with a tag and a shorthand mark
in front of the equals sign is not. -/
def isAttributeHead (head : Text) : Bool :=
  head.contains '=' &&
    !(head.takeWhile isTagChar != [] &&
      match head.dropWhile isTagChar with
      | c :: _ => c = '#' || c = '.'
      | [] => false)

def ofHead (head : Text) (attributes : List Attribute) : ElementKey :=
  if isAttributeHead head then { attributes }
  else
    let shorthands := head.dropWhile isTagChar
    { tag := head.takeWhile isTagChar
      id := (runsAfter '#' shorthands).head?
      classes := runsAfter '.' shorthands
      attributes }

def dropColon (key : Text) : Text :=
  if key.getLast? = some ':' then key.dropLast else key

/-- A key that does not start with a head has no parts at all. -/
def parse (key : Text) : ElementKey :=
  let text := dropColon key
  match Text.word text with
  | [] => {}
  | c :: cs => ofHead (c :: cs) (Attribute.scan (Text.strip (Text.afterWord text)))

/-- The id to write: the last attribute of that name, or else the shorthand. -/
def resolvedId (k : ElementKey) : Option Text :=
  k.attributes.foldl
    (fun found a ↦ if a.name = "id".toList then some (a.value.getD "true") else found)
    k.id

/-- The shorthand classes, then the words of the first attribute of that name. -/
def classList (k : ElementKey) : List Text :=
  k.classes ++
    match k.attributes.find? fun a ↦ a.name = "class".toList with
    | some a => (a.value.map Text.words).getD []
    | none => []

def extraAttributes (k : ElementKey) : List Attribute :=
  k.attributes.filter fun a ↦ a.name ≠ "id".toList ∧ a.name ≠ "class".toList

def written (k : ElementKey) : List Attribute :=
  (k.resolvedId.map fun id ↦ (⟨"id", some id⟩ : Attribute)).toList ++
    (if k.classList.isEmpty then []
      else [⟨"class", some (List.intercalate " ".toList k.classList)⟩]) ++
    k.extraAttributes

end ElementKey

end TreeMarkup
