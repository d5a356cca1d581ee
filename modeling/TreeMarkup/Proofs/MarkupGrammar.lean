import TreeMarkup.Key.Basic
import TreeMarkup.Markup.Pretty
import TreeMarkup.Render.Progress

namespace TreeMarkup.Markup

def entities : List (Text × Char) :=
  [("&amp;", '&'), ("&lt;", '<'), ("&gt;", '>'), ("&quot;", '"'), ("&#39;", '\'')]

def isTextChar (c : Char) : Bool := !(['<', '>', '&', '"', '\''].contains c)

/-- An apostrophe does not end a value, which always stands in double quotes. -/
def isValueChar (c : Char) : Bool := c = '\'' || isTextChar c

def isAttributeChar (c : Char) : Bool := !isBlank c && !(['"', '\'', '<', '>', '/', '='].contains c)

def IsTag (t : Text) : Prop := t ≠ [] ∧ ∀ c ∈ t, ElementKey.isTagChar c = true

def IsAttributeName (t : Text) : Prop := t ≠ [] ∧ ∀ c ∈ t, isAttributeChar c = true

instance (t : Text) : Decidable (IsAttributeName t) :=
  decidable_of_iff (t ≠ [] ∧ t.all isAttributeChar = true) (by rw [List.all_eq_true]; rfl)

def addText (t : Text) : List Item → List Item
  | .text u :: items => .text (t ++ u) :: items
  | items => if t = [] then items else .text t :: items

/-- `Encodes plain s t`: decoding the entities of `s`, in which only plain characters stand for
themselves, gives `t`. -/
inductive Encodes (plain : Char → Bool) : Text → Text → Prop
  | nil : Encodes plain [] []
  | char {c : Char} {s t : Text} (hc : plain c = true) (h : Encodes plain s t) :
      Encodes plain (c :: s) (c :: t)
  | entity {e : Text × Char} {s t : Text} (he : e ∈ entities) (h : Encodes plain s t) :
      Encodes plain (e.1 ++ s) (e.2 :: t)

/-- `WritesAttributes s as`: the text `s` in an opening tag writes the attributes `as`. -/
inductive WritesAttributes : Text → List Attribute → Prop
  | nil : WritesAttributes [] []
  | bare {name s : Text} {as : List Attribute} (hn : IsAttributeName name)
      (h : WritesAttributes s as) : WritesAttributes (' ' :: name ++ s) (⟨name, none⟩ :: as)
  | valued {name v t s : Text} {as : List Attribute} (hn : IsAttributeName name)
      (hv : Encodes isValueChar v t) (h : WritesAttributes s as) :
      WritesAttributes (' ' :: name ++ '=' :: '"' :: v ++ '"' :: s) (⟨name, some t⟩ :: as)

/-- `WritesForest s items`: the text `s` is the markup of the items. -/
inductive WritesForest : Text → List Item → Prop
  | nil : WritesForest [] []
  | char {c : Char} {s : Text} {items : List Item} (hc : isTextChar c = true)
      (h : WritesForest s items) : WritesForest (c :: s) (addText [c] items)
  | entity {e : Text × Char} {s : Text} {items : List Item} (he : e ∈ entities)
      (h : WritesForest s items) : WritesForest (e.1 ++ s) (addText [e.2] items)
  | doctype {s : Text} {items : List Item} (h : WritesForest s items) :
      WritesForest (doctypeDeclaration ++ s) (.aside .doctype "html" :: items)
  | void {tag a s : Text} {as : List Attribute} {items : List Item} (ht : IsTag tag)
      (hv : isVoid tag = true) (ha : WritesAttributes a as) (h : WritesForest s items) :
      WritesForest ('<' :: tag ++ a ++ '>' :: s) (.element tag as [] :: items)
  | element {tag a b s : Text} {as : List Attribute} {children items : List Item} (ht : IsTag tag)
      (hv : isVoid tag = false) (ha : WritesAttributes a as) (hb : WritesForest b children)
      (h : WritesForest s items) :
      WritesForest ('<' :: tag ++ a ++ '>' :: b ++ '<' :: '/' :: tag ++ '>' :: s)
        (.element tag as children :: items)

theorem exists_tail_of_mem_entities {e : Text × Char} (he : e ∈ entities) :
    ∃ t, e.1 = '&' :: t ∧ ∀ c ∈ t, isTextChar c = true := by
  simp only [entities, List.mem_cons, List.not_mem_nil, or_false] at he
  rcases he with rfl | rfl | rfl | rfl | rfl <;>
    exact ⟨_, rfl, List.all_eq_true.1 (by decide)⟩

theorem head_of_mem_entities {e : Text × Char} (he : e ∈ entities) : ∃ t, e.1 = '&' :: t :=
  (exists_tail_of_mem_entities he).imp fun _ h ↦ h.1

theorem mem_cases_of_encodes {plain : Char → Bool} {s t : Text} (h : Encodes plain s t) {c : Char}
    (hc : c ∈ s) : plain c = true ∨ c = '&' ∨ isTextChar c = true := by
  induction h with
  | nil => cases hc
  | char hd h ih =>
    rcases List.mem_cons.1 hc with rfl | hc
    · exact .inl hd
    · exact ih hc
  | entity he h ih =>
    obtain ⟨u, hu, ht⟩ := exists_tail_of_mem_entities he
    rw [hu, List.cons_append, List.mem_cons, List.mem_append] at hc
    rcases hc with rfl | hc | hc
    · exact .inr (.inl rfl)
    · exact .inr (.inr (ht c hc))
    · exact ih hc

theorem addText_nil (items : List Item) : addText [] items = items := by
  cases items with
  | nil => rfl
  | cons item items => cases item <;> rfl

theorem addText_append (s t : Text) (items : List Item) :
    addText (s ++ t) items = addText s (addText t items) := by
  cases items with
  | nil => by_cases ht : t = [] <;> by_cases hs : s = [] <;> simp [addText, hs, ht]
  | cons item items =>
    cases item with
    | text u => simp [addText]
    | _ => by_cases ht : t = [] <;> by_cases hs : s = [] <;> simp [addText, hs, ht]

end TreeMarkup.Markup
