import Mathlib.Data.List.Basic
import Mathlib.Logic.Relation
import TreeMarkup.Proofs.StackRendering

namespace TreeMarkup

namespace Value

mutual

/-- What a value contributes to a flat sequence; a null contributes nothing. -/
def leaves : Value → List Value
  | null => []
  | list items => leavesAll items
  | tuple items => leavesAll items
  | v => [v]

def leavesAll : List Value → List Value
  | [] => []
  | v :: vs => leaves v ++ leavesAll vs

end

/-- Where a value stands: as a node or as children, or as the content of an element. -/
inductive Role
  | node
  | content

/-- `Flattens role v w`: in a value `v` that stands in the role, one sequence, at any depth, is
replaced by its leaves, which gives `w`. -/
inductive Flattens : Role → Value → Value → Prop
  | list (role : Role) (items : List Value) : Flattens role (list items) (list (leavesAll items))
  | tuple (role : Role) (items : List Value) : Flattens role (tuple items) (list (leavesAll items))
  | listMember (role : Role) (before after : List Value) {v w : Value} (h : Flattens .node v w) :
      Flattens role (list (before ++ v :: after)) (list (before ++ w :: after))
  | tupleMember (role : Role) (before after : List Value) {v w : Value} (h : Flattens .node v w) :
      Flattens role (tuple (before ++ v :: after)) (tuple (before ++ w :: after))
  | element (before after : List (Value × Value)) (key : Value) {v w : Value}
      (h : Flattens .content v w) :
      Flattens .node (map (before ++ (key, v) :: after)) (map (before ++ (key, w) :: after))
  | children (before after : List (Value × Value)) {v w : Value} (h : Flattens .node v w) :
      Flattens .content (map (before ++ (text "children", v) :: after))
        (map (before ++ (text "children", w) :: after))

end Value

variable (options : Options)

namespace Value

theorem itemParts_append (xs ys : List Value) :
    itemParts options (xs ++ ys) = do
      return (← itemParts options xs) ++ (← itemParts options ys) := by
  induction xs with
  | nil => exact (nil_append_of_except _).symm
  | cons x xs ih => rw [List.cons_append, itemParts, ih, itemParts, append_assoc_of_except]

theorem itemParts_singleton (v : Value) : itemParts options [v] = v.parts options := by
  simp only [itemParts]
  cases v.parts options <;> simp [bind, Except.bind, pure, Except.pure]

mutual

theorem itemParts_leaves (v : Value) : itemParts options v.leaves = v.parts options := by
  cases v with
  | null => rfl
  | list items => exact itemParts_leavesAll items
  | tuple items => exact itemParts_leavesAll items
  | _ => exact itemParts_singleton options _

theorem itemParts_leavesAll (vs : List Value) :
    itemParts options (leavesAll vs) = itemParts options vs := by
  cases vs with
  | nil => rfl
  | cons v vs =>
    rw [leavesAll, itemParts_append, itemParts_leaves v, itemParts_leavesAll vs, itemParts]

end

theorem itemParts_congr (before after : List Value) {v w : Value}
    (h : v.parts options = w.parts options) :
    itemParts options (before ++ v :: after) = itemParts options (before ++ w :: after) := by
  rw [itemParts_append, itemParts_append, itemParts, itemParts, h]

def Agrees : Role → Value → Value → Prop
  | .node, v, w => v.parts options = w.parts options ∧
      ∀ tag, v.bodyParts options tag = w.bodyParts options tag
  | .content, v, w => (∀ k : ElementKey, k.given v = k.given w) ∧
      ∀ tag, v.contentParts options tag = w.contentParts options tag

variable {options}

theorem agrees_of_itemParts (role : Role) {v w : Value} {xs ys : List Value}
    (hv : v = list xs ∨ v = tuple xs) (hw : w = list ys ∨ w = tuple ys)
    (h : itemParts options xs = itemParts options ys) : Agrees options role v w := by
  cases role with
  | node => rcases hv with rfl | rfl <;> rcases hw with rfl | rfl <;> exact ⟨h, fun _ ↦ h⟩
  | content =>
    rcases hv with rfl | rfl <;> rcases hw with rfl | rfl <;> exact ⟨fun _ ↦ rfl, fun _ ↦ h⟩

theorem elementParts_congr (key : Text) {v w : Value} (h : Agrees options .content v w) :
    (elementParts key v fun tag ↦ v.contentParts options tag) =
      elementParts key w fun tag ↦ w.contentParts options tag := by
  simp only [elementParts, h.1, h.2]

/-- The first entry is the element; of the others, if there are any, only the keys are looked at. -/
theorem mappingParts_congr (before after : List (Value × Value)) (key : Value) {v w : Value}
    (h : ∀ k, key.elementKey = .ok k →
      (elementParts k v fun tag ↦ v.contentParts options tag) =
        elementParts k w fun tag ↦ w.contentParts options tag) :
    mappingParts options (before ++ (key, v) :: after) =
      mappingParts options (before ++ (key, w) :: after) := by
  cases before with
  | nil =>
    rw [List.nil_append, List.nil_append, mappingParts, mappingParts]
    cases hk : key.elementKey with
    | error e => rfl
    | ok k =>
      have hp := h k hk
      simp only [bind, Except.bind, hp]
  | cons e before =>
    obtain ⟨k, content⟩ := e
    have hne : ∀ u, (before ++ (key, u) :: after).isEmpty = false := by
      intro u
      cases before <;> rfl
    simp only [List.cons_append, mappingParts, List.map_append, List.map_cons, hne]

theorem childrenParts_congr (tag : Text) (before after : List (Value × Value)) {v w : Value}
    (h : v.bodyParts options tag = w.bodyParts options tag) :
    childrenParts options tag (before ++ (text "children", v) :: after) =
      childrenParts options tag (before ++ (text "children", w) :: after) := by
  induction before with
  | nil => exact h
  | cons e before ih =>
    obtain ⟨name, value⟩ := e
    rw [List.cons_append, List.cons_append, childrenParts, childrenParts, ih]

theorem agrees_of_flattens {role : Role} {v w : Value} (h : Flattens role v w) :
    Agrees options role v w := by
  induction h with
  | list role items =>
    exact agrees_of_itemParts role (.inl rfl) (.inl rfl) (itemParts_leavesAll options items).symm
  | tuple role items =>
    exact agrees_of_itemParts role (.inr rfl) (.inl rfl) (itemParts_leavesAll options items).symm
  | listMember role before after h ih =>
    exact agrees_of_itemParts role (.inl rfl) (.inl rfl)
      (itemParts_congr options before after ih.1)
  | tupleMember role before after h ih =>
    exact agrees_of_itemParts role (.inr rfl) (.inr rfl)
      (itemParts_congr options before after ih.1)
  | element before after key h ih =>
    have hm := mappingParts_congr before after key fun k _ ↦ elementParts_congr k ih
    exact ⟨hm, fun _ ↦ hm⟩
  | children before after h ih =>
    refine ⟨fun k ↦ ?_, fun tag ↦ childrenParts_congr tag before after (ih.2 tag)⟩
    rw [ElementKey.given, ElementKey.given, List.filter_append, List.filter_append]
    rfl

end Value

theorem renderAll_eq_writeAll_pieces (vs : List Value) :
    renderAll options vs =
      ((Value.itemParts options vs).map Part.piecesAll).map Piece.writeAll := by
  induction vs with
  | nil => rfl
  | cons v vs ih =>
    rw [renderAll, ih, render_eq_writeAll_pieces, Value.itemParts,
      map_append_of_except Part.piecesAll_append, map_append_of_except Piece.writeAll_append]

theorem convert_list (items : List Value) :
    convert options (.list items) = render options (.list items) := by
  rw [convert, renderAll_eq_writeAll_pieces, render_eq_writeAll_pieces, Value.parts]

theorem convert_tuple (items : List Value) :
    convert options (.tuple items) = render options (.tuple items) := by
  rw [convert, renderAll_eq_writeAll_pieces, render_eq_writeAll_pieces, Value.parts]

theorem renderAll_append (xs ys : List Value) :
    renderAll options (xs ++ ys) = do
      return (← renderAll options xs) ++ (← renderAll options ys) := by
  simp only [renderAll_eq_writeAll_pieces]
  rw [Value.itemParts_append, map_append_of_except Part.piecesAll_append,
    map_append_of_except Piece.writeAll_append]

section

variable {v w : Value}

theorem render_of_flattens (h : Value.Flattens .node v w) : render options v = render options w := by
  rw [render_eq_writeAll_pieces, render_eq_writeAll_pieces, (Value.agrees_of_flattens h).1]

theorem convert_of_flattens (h : Value.Flattens .node v w) :
    convert options v = convert options w := by
  have hr := render_of_flattens options h
  cases h with
  | list => rw [convert_list, convert_list, hr]
  | tuple => rw [convert_tuple, convert_list, hr]
  | listMember => rw [convert_list, convert_list, hr]
  | tupleMember => rw [convert_tuple, convert_tuple, hr]
  | element => rfl

end

/-- A sequence is rendered as its members one after the other, up to the first fault, and flattening
sequences, one or many at any depth, changes neither the markup nor the fault. -/
theorem sequences_concatenate :
    (∀ items, convert options (.list items) = render options (.list items) ∧
      convert options (.tuple items) = render options (.tuple items)) ∧
    (∀ xs ys, convert options (.list (xs ++ ys)) = do
      return (← convert options (.list xs)) ++ (← convert options (.list ys))) ∧
    ∀ v w, Relation.ReflTransGen (Value.Flattens .node) v w →
      render options v = render options w ∧ convert options v = convert options w := by
  refine ⟨fun items ↦ ⟨convert_list options items, convert_tuple options items⟩,
    fun xs ys ↦ renderAll_append options xs ys, ?_⟩
  intro v w h
  induction h with
  | refl => exact ⟨rfl, rfl⟩
  | tail _ h ih =>
    exact ⟨ih.1.trans (render_of_flattens options h), ih.2.trans (convert_of_flattens options h)⟩

open Value in
theorem sequences_concatenate_nested :
    convert {} (list [text "a", list [map [(text "p", map [(text "children",
        tuple [list [text "b"], null, tuple [list [], text "i: c"]])])]]]) =
      convert {} (list [text "a", map [(text "p", map [(text "children",
        list [text "b", text "i: c"])])]]) ∧
    convert {} (list [text "a", map [(text "p", map [(text "children",
        list [text "b", text "i: c"])])]]) = .ok "a<p>b<i>c</i></p>" := by
  have inner : Flattens .node
      (list [text "a", list [map [(text "p", map [(text "children",
        tuple [list [text "b"], null, tuple [list [], text "i: c"]])])]]])
      (list [text "a", list [map [(text "p", map [(text "children",
        list [text "b", text "i: c"])])]]]) :=
    .listMember .node [text "a"] [] (.listMember .node [] [] (.element [] [] (text "p")
      (.children [] [] (.tuple .node _))))
  have outer : Flattens .node
      (list [text "a", list [map [(text "p", map [(text "children",
        list [text "b", text "i: c"])])]]])
      (list [text "a", map [(text "p", map [(text "children",
        list [text "b", text "i: c"])])]]) :=
    .list .node _
  refine ⟨((sequences_concatenate {}).2.2 _ _ (.tail (.single inner) outer)).2, ?_⟩
  rw [convert_list, render_eq_writeAll_pieces]
  decide +kernel

end TreeMarkup
