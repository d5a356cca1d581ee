import Mathlib.Data.List.Basic
import TreeMarkup.Proofs.StackRendering

namespace TreeMarkup

namespace Value

mutual

/-- A value in node position, where every mapping is cut to its first entry. -/
def prune : Value → Value
  | list items => list (pruneItems items)
  | tuple items => tuple (pruneItems items)
  | map entries => map (pruneMapping entries)
  | v => v

def pruneItems : List Value → List Value
  | [] => []
  | v :: vs => prune v :: pruneItems vs

def pruneMapping : List (Value × Value) → List (Value × Value)
  | [] => []
  | (key, content) :: _ => [(key, pruneContent content)]

/-- The content of an element. A mapping there holds attributes and stays whole. -/
def pruneContent : Value → Value
  | list items => list (pruneItems items)
  | tuple items => tuple (pruneItems items)
  | map entries => map (pruneChildren entries)
  | v => v

def pruneChildren : List (Value × Value) → List (Value × Value)
  | [] => []
  | (name, value) :: entries =>
    (name, if name.isText "children" then prune value else value) :: pruneChildren entries

end

theorem filter_pruneChildren (entries : List (Value × Value)) :
    ((pruneChildren entries).filter fun e ↦ !e.1.isText "children") =
      entries.filter fun e ↦ !e.1.isText "children" := by
  induction entries with
  | nil => rfl
  | cons e entries ih =>
    obtain ⟨name, value⟩ := e
    rw [pruneChildren, List.filter_cons, List.filter_cons, ih]
    cases hn : name.isText "children" with
    | true => rfl
    | false => rw [if_neg Bool.false_ne_true]

end Value

theorem ElementKey.given_pruneContent (k : ElementKey) (v : Value) :
    k.given v.pruneContent = k.given v := by
  cases v with
  | map entries =>
    rw [Value.pruneContent, ElementKey.given, ElementKey.given, Value.filter_pruneChildren]
  | _ => rfl

theorem elementParts_pruneContent (key : Text) (v : Value)
    (inner : Text → Except ConversionError (List Part)) :
    elementParts key v.pruneContent inner = elementParts key v inner := by
  simp only [elementParts, ElementKey.given_pruneContent]

namespace Value

mutual

theorem parts_prune (v : Value) : v.prune.parts ⟨false⟩ = v.parts ⟨true⟩ := by
  cases v with
  | list items => exact itemParts_pruneItems items
  | tuple items => exact itemParts_pruneItems items
  | map entries => exact mappingParts_pruneMapping entries
  | _ => rfl

theorem itemParts_pruneItems (vs : List Value) :
    itemParts ⟨false⟩ (pruneItems vs) = itemParts ⟨true⟩ vs := by
  cases vs with
  | nil => rfl
  | cons v vs => rw [pruneItems, itemParts, itemParts, parts_prune v, itemParts_pruneItems vs]

theorem mappingParts_pruneMapping (entries : List (Value × Value)) :
    mappingParts ⟨false⟩ (pruneMapping entries) = mappingParts ⟨true⟩ entries := by
  cases entries with
  | nil => rfl
  | cons e rest =>
    obtain ⟨key, content⟩ := e
    have hc : (fun tag ↦ contentParts ⟨false⟩ tag content.pruneContent) =
        fun tag ↦ contentParts ⟨true⟩ tag content :=
      funext fun tag ↦ contentParts_pruneContent tag content
    -- with the further entries gone, the strict reading has none left to object to
    rw [pruneMapping, mappingParts, mappingParts]
    simp only [List.isEmpty_nil, Bool.not_true, Bool.false_and, Bool.and_false,
      Bool.false_eq_true, if_false, hc, elementParts_pruneContent]

theorem contentParts_pruneContent (tag : Text) (v : Value) :
    v.pruneContent.contentParts ⟨false⟩ tag = v.contentParts ⟨true⟩ tag := by
  cases v with
  | list items => exact itemParts_pruneItems items
  | tuple items => exact itemParts_pruneItems items
  | map entries => exact childrenParts_pruneChildren tag entries
  | _ => rfl

theorem childrenParts_pruneChildren (tag : Text) (entries : List (Value × Value)) :
    childrenParts ⟨false⟩ tag (pruneChildren entries) = childrenParts ⟨true⟩ tag entries := by
  cases entries with
  | nil => rfl
  | cons e entries =>
    obtain ⟨name, value⟩ := e
    rw [pruneChildren, childrenParts, childrenParts]
    by_cases hn : name.isText "children" = true
    · rw [if_pos hn, if_pos hn, if_pos hn, bodyParts_prune tag value]
    · rw [if_neg hn, if_neg hn, childrenParts_pruneChildren tag entries]

theorem bodyParts_prune (tag : Text) (v : Value) :
    v.prune.bodyParts ⟨false⟩ tag = v.bodyParts ⟨true⟩ tag := by
  cases v with
  | text t => cases t <;> rfl
  | list items => exact itemParts_pruneItems items
  | tuple items => exact itemParts_pruneItems items
  | map entries => exact mappingParts_pruneMapping entries
  | _ => rfl

end

end Value

section

variable {key : Text} {content : Value} {inner inner' : Text → Except ConversionError (List Part)}

theorem elementParts_mono (h : ∀ tag ps, inner tag = .ok ps → inner' tag = .ok ps) {ps : List Part}
    (hp : elementParts key content inner = .ok ps) : elementParts key content inner' = .ok ps := by
  unfold elementParts at hp ⊢
  split at hp
  · rename_i hd
    rw [if_pos hd, hp]
  rename_i hd
  rw [if_neg hd]
  dsimp only at hp ⊢
  split at hp
  · cases hp
  rename_i ht
  rw [if_neg ht]
  obtain ⟨given, hg, hp⟩ := bind_eq_ok_iff.1 hp
  obtain ⟨children, hc, hp⟩ := bind_eq_ok_iff.1 hp
  refine bind_eq_ok_iff.2 ⟨given, hg, bind_eq_ok_iff.2 ⟨children, ?_, hp⟩⟩
  split at hc
  · rename_i hv
    rw [if_pos hv, hc]
  · rename_i hv
    rw [if_neg hv]
    exact h _ _ hc

end

namespace Value

mutual

theorem parts_of_single (v : Value) {ps : List Part} (h : v.parts ⟨false⟩ = .ok ps) :
    v.parts ⟨true⟩ = .ok ps := by
  cases v with
  | list items => exact itemParts_of_single items h
  | tuple items => exact itemParts_of_single items h
  | map entries => exact mappingParts_of_single entries h
  | _ => exact h

theorem itemParts_of_single (vs : List Value) {ps : List Part}
    (h : itemParts ⟨false⟩ vs = .ok ps) : itemParts ⟨true⟩ vs = .ok ps := by
  cases vs with
  | nil => exact h
  | cons v vs =>
    obtain ⟨first, hv, h⟩ := bind_eq_ok_iff.1 h
    obtain ⟨rest, hvs, h⟩ := bind_eq_ok_iff.1 h
    exact bind_eq_ok_iff.2
      ⟨first, parts_of_single v hv, bind_eq_ok_iff.2 ⟨rest, itemParts_of_single vs hvs, h⟩⟩

theorem mappingParts_of_single (entries : List (Value × Value)) {ps : List Part}
    (h : mappingParts ⟨false⟩ entries = .ok ps) : mappingParts ⟨true⟩ entries = .ok ps := by
  cases entries with
  | nil => exact h
  | cons e rest =>
    obtain ⟨key, content⟩ := e
    rw [mappingParts] at h ⊢
    split at h
    · cases h
    obtain ⟨k, hk, h⟩ := bind_eq_ok_iff.1 h
    -- the flag matters inside the element only, once a single entry is there
    have he := elementParts_mono (fun tag _ hc ↦ contentParts_of_single tag content hc) h
    rw [if_neg (by simp)]
    exact bind_eq_ok_iff.2 ⟨k, hk, he⟩

theorem contentParts_of_single (tag : Text) (v : Value) {ps : List Part}
    (h : v.contentParts ⟨false⟩ tag = .ok ps) : v.contentParts ⟨true⟩ tag = .ok ps := by
  cases v with
  | list items => exact itemParts_of_single items h
  | tuple items => exact itemParts_of_single items h
  | map entries => exact childrenParts_of_single tag entries h
  | _ => exact h

theorem childrenParts_of_single (tag : Text) (entries : List (Value × Value)) {ps : List Part}
    (h : childrenParts ⟨false⟩ tag entries = .ok ps) :
    childrenParts ⟨true⟩ tag entries = .ok ps := by
  cases entries with
  | nil => exact h
  | cons e entries =>
    obtain ⟨name, value⟩ := e
    rw [childrenParts] at h ⊢
    split at h
    · rename_i hn
      rw [if_pos hn]
      exact bodyParts_of_single tag value h
    · rename_i hn
      rw [if_neg hn]
      exact childrenParts_of_single tag entries h

theorem bodyParts_of_single (tag : Text) (v : Value) {ps : List Part}
    (h : v.bodyParts ⟨false⟩ tag = .ok ps) : v.bodyParts ⟨true⟩ tag = .ok ps := by
  cases v with
  | text t => cases t <;> exact h
  | list items => exact itemParts_of_single items h
  | tuple items => exact itemParts_of_single items h
  | map entries => exact mappingParts_of_single entries h
  | _ => exact h

end

end Value

/-- Rendering with several keys allowed is rendering the first entries with one key, and it agrees
with one key wherever that gives markup. -/
theorem render_multiKey (v : Value) :
    render ⟨true⟩ v = render ⟨false⟩ v.prune ∧
      ∀ out, render ⟨false⟩ v = .ok out → render ⟨true⟩ v = .ok out := by
  constructor
  · rw [render_eq_writeAll_pieces, render_eq_writeAll_pieces, Value.parts_prune]
  · intro out h
    rw [render_eq_writeAll_pieces] at h ⊢
    cases hp : v.parts ⟨false⟩ with
    | error e =>
      rw [hp] at h
      cases h
    | ok ps =>
      rw [hp] at h
      rw [Value.parts_of_single v hp]
      exact h

open Value in
theorem render_multiKey_nested :
    render ⟨true⟩ (map [(text "div", map [(text "title", text "t"), (text "id", text "i"),
        (text "children", map [(text "p", text "x"), (text "q", text "y")])]),
      (text "em", text "z")]) = .ok "<div title=\"t\" id=\"i\"><p>x</p></div>" ∧
      render ⟨true⟩ (list [map [(text "br", map [(text "children",
        map [(text "p", null), (text "q", null)])])], text "end"]) = .ok "<br>end" := by
  have first := (render_multiKey (map [(text "div", map [(text "title", text "t"),
    (text "id", text "i"), (text "children", map [(text "p", text "x"), (text "q", text "y")])]),
      (text "em", text "z")])).1
  refine ⟨first.trans ?_, (render_multiKey _).2 _ ?_⟩
  · rw [render_eq_writeAll_pieces]
    decide +kernel
  · rw [render_eq_writeAll_pieces]
    decide +kernel

end TreeMarkup
