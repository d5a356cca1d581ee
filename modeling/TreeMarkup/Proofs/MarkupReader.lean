import Mathlib.Data.List.Basic
import TreeMarkup.Proofs.DocumentParts
import TreeMarkup.Proofs.MarkupGrammar

namespace TreeMarkup.Markup

def entity? (s : Text) : Option (Char × Text) :=
  entities.findSome? fun e ↦ (s.dropPrefix? e.1).map fun r ↦ (e.2, r)

def decodeChar? (plain : Char → Bool) : Text → Option (Char × Text)
  | [] => none
  | c :: s => if plain c then some (c, s) else entity? (c :: s)

theorem eq_append_of_dropPrefix? {s p r : Text} (h : s.dropPrefix? p = some r) : s = p ++ r := by
  obtain ⟨p', hs, hp⟩ := List.dropPrefix?_eq_some_iff.1 h
  rw [hs, eq_of_beq hp]

theorem dropPrefix?_append (p r : Text) : (p ++ r).dropPrefix? p = some r :=
  List.dropPrefix?_append_of_beq r (beq_self_eq_true p)

theorem exists_entity_of_entity? {s r : Text} {c : Char} (h : entity? s = some (c, r)) :
    ∃ e ∈ entities, e.2 = c ∧ s = e.1 ++ r := by
  obtain ⟨e, he, h⟩ := List.exists_of_findSome?_eq_some h
  obtain ⟨r', hr, h⟩ := Option.map_eq_some_iff.1 h
  cases h
  exact ⟨e, he, rfl, eq_append_of_dropPrefix? hr⟩

theorem entity?_append {e : Text × Char} (he : e ∈ entities) (s : Text) :
    entity? (e.1 ++ s) = some (e.2, s) := by
  simp only [entities, List.mem_cons, List.not_mem_nil, or_false] at he
  rcases he with rfl | rfl | rfl | rfl | rfl <;> simp [entity?, entities, List.dropPrefix?]

theorem length_lt_of_entity? {s r : Text} {c : Char} (h : entity? s = some (c, r)) :
    r.length < s.length := by
  obtain ⟨e, he, -, hs⟩ := exists_entity_of_entity? h
  obtain ⟨t, ht⟩ := head_of_mem_entities he
  rw [hs, ht]
  simp only [List.length_append, List.length_cons]
  omega

theorem length_lt_of_decodeChar? {plain : Char → Bool} {s r : Text} {c : Char}
    (h : decodeChar? plain s = some (c, r)) : r.length < s.length := by
  cases s with
  | nil => cases h
  | cons d s =>
    rw [decodeChar?] at h
    split at h
    · cases h; simp
    · exact length_lt_of_entity? h

def decode? (plain : Char → Bool) (s : Text) : Option Text :=
  match _h : decodeChar? plain s with
  | some (c, r) => (decode? plain r).map (c :: ·)
  | none => if s = [] then some [] else none
termination_by s.length
decreasing_by exact length_lt_of_decodeChar? _h

def assignment? : Text → Option (Option Text × Text)
  | '=' :: '"' :: s =>
    match s.dropWhile (· != '"') with
    | [] => none
    | _ :: r => (decode? isValueChar (s.takeWhile (· != '"'))).map fun t ↦ (some t, r)
  | s => some (none, s)

def attribute? : Text → Option (Attribute × Text)
  | ' ' :: s =>
    if s.takeWhile isAttributeChar = [] then none
    else (assignment? (s.dropWhile isAttributeChar)).map fun (v, r) ↦
      (⟨s.takeWhile isAttributeChar, v⟩, r)
  | _ => none

theorem length_le_of_assignment? {s r : Text} {v : Option Text}
    (h : assignment? s = some (v, r)) : r.length ≤ s.length := by
  unfold assignment? at h
  split at h
  · rename_i s
    have hd := Text.length_dropWhile_le (· != '"') s
    split at h
    · cases h
    · rename_i hr
      obtain ⟨t, -, ht⟩ := Option.map_eq_some_iff.1 h
      cases ht
      rw [hr] at hd
      simp only [List.length_cons] at hd ⊢
      omega
  · cases h; exact Nat.le_refl _

theorem length_lt_of_attribute? {s r : Text} {a : Attribute} (h : attribute? s = some (a, r)) :
    r.length < s.length := by
  unfold attribute? at h
  split at h
  · rename_i s
    split at h
    · cases h
    · obtain ⟨⟨v, r'⟩, hr, ha⟩ := Option.map_eq_some_iff.1 h
      cases ha
      have h₁ := length_le_of_assignment? hr
      have h₂ := Text.length_dropWhile_le isAttributeChar s
      simp only [List.length_cons]
      omega
  · cases h

def attributes? (s : Text) : Option (List Attribute × Text) :=
  match _h : attribute? s with
  | some (a, r) => (attributes? r).map fun (as, r) ↦ (a :: as, r)
  | none => (s.dropPrefix? ['>']).map fun r ↦ ([], r)
termination_by s.length
decreasing_by exact length_lt_of_attribute? _h

inductive Sign
  | char (c : Char)
  | doctype
  | opening (tag : Text) (attributes : List Attribute)

def opening? (s : Text) : Option (Sign × Text) :=
  if s.takeWhile ElementKey.isTagChar = [] then none
  else (attributes? (s.dropWhile ElementKey.isTagChar)).map fun (as, r) ↦
    (.opening (s.takeWhile ElementKey.isTagChar) as, r)

def sign? (s : Text) : Option (Sign × Text) :=
  match s.dropPrefix? doctypeDeclaration with
  | some r => some (.doctype, r)
  | none =>
    match s with
    | '<' :: r => opening? r
    | s => (decodeChar? isTextChar s).map fun (c, r) ↦ (.char c, r)

def isEnd : Text → Bool
  | [] => true
  | '<' :: '/' :: _ => true
  | _ => false

/-- The forest at the start of a text, and what follows it. Every step takes one off the bound. -/
def readWithin : Nat → Text → Option (List Item × Text)
  | 0, _ => none
  | n + 1, s =>
    if isEnd s then some ([], s)
    else
      match sign? s with
      | none => none
      | some (.char c, r) => (readWithin n r).map fun (items, r) ↦ (addText [c] items, r)
      | some (.doctype, r) =>
        (readWithin n r).map fun (items, r) ↦ (.aside .doctype "html" :: items, r)
      | some (.opening tag as, r) =>
        if isVoid tag then
          (readWithin n r).map fun (items, r) ↦ (.element tag as [] :: items, r)
        else do
          let (children, r) ← readWithin n r
          let r ← r.dropPrefix? (Part.closing tag)
          let (items, r) ← readWithin n r
          return (.element tag as children :: items, r)

def read? (s : Text) : Option (List Item) :=
  match readWithin (s.length + 1) s with
  | some (items, []) => some items
  | _ => none

end TreeMarkup.Markup
