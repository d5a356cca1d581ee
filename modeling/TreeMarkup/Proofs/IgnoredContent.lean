import Mathlib.Logic.Relation
import TreeMarkup.Proofs.FlattenedSequences

namespace TreeMarkup

def Declaration.value (d : Declaration) : Value := (d.content.map .text).getD .null

namespace Value

def isPlain : Value → Bool
  | map _ => false
  | foreign _ => false
  | _ => true

/-- `Unseen key v w`: an element with the key shows no difference between the contents `v` and
`w`. -/
inductive Unseen (key : Text) : Value → Value → Prop
  | doctype (v w : Value) (h : isDoctype key = true) : Unseen key v w
  | plain {v w : Value} (hv : v.isPlain = true) (hw : w.isPlain = true)
      (h : Markup.isVoid (ElementKey.parse key).tag = true) : Unseen key v w
  | children (before after : List (Value × Value)) (v w : Value)
      (h : Markup.isVoid (ElementKey.parse key).tag = true) :
      Unseen key (map (before ++ (text "children", v) :: after))
        (map (before ++ (text "children", w) :: after))

/-- `Differs role v w`: in a value `v` that stands in the role, the content of one element, at any
depth, is replaced by one that shows no difference, which gives `w`. An element on one line may
become a mapping by it. A text that stands for children is no element. -/
inductive Differs : Role → Value → Value → Prop
  | entry (before after : List (Value × Value)) (key : Value) {k : Text} {v w : Value}
      (hk : key.elementKey = .ok k) (h : Unseen k v w) :
      Differs .node (map (before ++ (key, v) :: after)) (map (before ++ (key, w) :: after))
  | line {t : Text} {d : Declaration} {w : Value} (ht : Declaration.ofText? t = some d)
      (h : Unseen d.key d.value w) : Differs .node (text t) (map [(text d.key, w)])
  | listMember (role : Role) (before after : List Value) {v w : Value} (h : Differs .node v w) :
      Differs role (list (before ++ v :: after)) (list (before ++ w :: after))
  | tupleMember (role : Role) (before after : List Value) {v w : Value} (h : Differs .node v w) :
      Differs role (tuple (before ++ v :: after)) (tuple (before ++ w :: after))
  | element (before after : List (Value × Value)) (key : Value) {v w : Value}
      (h : Differs .content v w) :
      Differs .node (map (before ++ (key, v) :: after)) (map (before ++ (key, w) :: after))
  | children (before after : List (Value × Value)) {v w : Value} (hv : ∀ t, v ≠ text t)
      (h : Differs .node v w) :
      Differs .content (map (before ++ (text "children", v) :: after))
        (map (before ++ (text "children", w) :: after))

end Value

theorem ElementKey.given_of_isPlain (k : ElementKey) {v : Value} (h : v.isPlain = true) :
    k.given v = .ok [] := by
  cases v with
  | map entries => cases h
  | foreign f => cases h
  | _ => rfl

theorem ElementKey.given_children (k : ElementKey) (before after : List (Value × Value))
    (v w : Value) :
    k.given (.map (before ++ (.text "children", v) :: after)) =
      k.given (.map (before ++ (.text "children", w) :: after)) := by
  rw [given, given, List.filter_append, List.filter_append]
  rfl

theorem elementParts_of_isVoid {key : Text} {v w : Value}
    (hk : Markup.isVoid (ElementKey.parse key).tag = true)
    (hg : (ElementKey.parse key).given v = (ElementKey.parse key).given w)
    (inner inner' : Text → Except ConversionError (List Part)) :
    elementParts key v inner = elementParts key w inner' := by
  simp only [elementParts, hk, if_true, hg]

theorem elementParts_of_unseen {key : Text} {v w : Value} (h : Value.Unseen key v w)
    (inner inner' : Text → Except ConversionError (List Part)) :
    elementParts key v inner = elementParts key w inner' := by
  cases h with
  | doctype _ _ hd => rw [elementParts, elementParts, if_pos hd, if_pos hd]
  | plain hv hw hk =>
    refine elementParts_of_isVoid hk ?_ inner inner'
    rw [ElementKey.given_of_isPlain _ hv, ElementKey.given_of_isPlain _ hw]
  | children before after v w hk =>
    exact elementParts_of_isVoid hk (ElementKey.given_children _ before after v w) inner inner'

variable (options : Options)

namespace Value

theorem parts_of_ofText? {t : Text} {d : Declaration} (h : Declaration.ofText? t = some d) :
    (text t).parts options =
      elementParts d.key d.value fun tag ↦ d.value.contentParts options tag := by
  obtain ⟨key, content⟩ := d
  rw [parts, h]
  cases content <;> rfl

/-- Two values mean the same in a role, a text in node position apart: as children it would be
plain. -/
def Matches : Role → Value → Value → Prop
  | .node, v, w => v.parts options = w.parts options ∧
      ((∀ t, v ≠ text t) → ∀ tag, v.bodyParts options tag = w.bodyParts options tag)
  | .content, v, w => Agrees options .content v w

variable {options}

theorem Agrees.matches {role : Role} {v w : Value} (h : Agrees options role v w) :
    Matches options role v w := by
  cases role with
  | node => exact ⟨h.1, fun _ ↦ h.2⟩
  | content => exact h

theorem matches_of_differs {role : Role} {v w : Value} (h : Differs role v w) :
    Matches options role v w := by
  induction h with
  | @entry before after key k v w hk h =>
    have hm : mappingParts options (before ++ (key, v) :: after) =
        mappingParts options (before ++ (key, w) :: after) := by
      refine mappingParts_congr before after key fun k' hk' ↦ ?_
      rw [hk, Except.ok.injEq] at hk'
      exact elementParts_of_unseen (hk' ▸ h) _ _
    exact ⟨hm, fun _ _ ↦ hm⟩
  | @line t d w ht h =>
    have hp : (map [(text d.key, w)]).parts options =
        elementParts d.key w fun tag ↦ w.contentParts options tag := rfl
    refine ⟨?_, fun hn ↦ absurd rfl (hn t)⟩
    rw [parts_of_ofText? options ht, hp]
    exact elementParts_of_unseen h _ _
  | listMember role before after h ih =>
    exact (agrees_of_itemParts role (.inl rfl) (.inl rfl)
      (itemParts_congr options before after ih.1)).matches
  | tupleMember role before after h ih =>
    exact (agrees_of_itemParts role (.inr rfl) (.inr rfl)
      (itemParts_congr options before after ih.1)).matches
  | element before after key h ih =>
    have hm := mappingParts_congr before after key fun k _ ↦ elementParts_congr k ih
    exact ⟨hm, fun _ _ ↦ hm⟩
  | @children before after v w hv h ih =>
    exact ⟨fun k ↦ k.given_children before after v w,
      fun tag ↦ childrenParts_congr tag before after (ih.2 hv tag)⟩

end Value

/-- Replacing contents that show no difference, in one element or many at any depth, changes neither
the markup of a document nor its fault. -/
theorem render_of_differs {v w : Value} (h : Relation.EqvGen (Value.Differs .node) v w) :
    render options v = render options w := by
  induction h with
  | rel v w h =>
    rw [render_eq_writeAll_pieces, render_eq_writeAll_pieces, (Value.matches_of_differs h).1]
  | refl v => rfl
  | symm v w h ih => exact ih.symm
  | trans u v w h h' ih ih' => exact ih.trans ih'

open Value in
theorem render_of_differs_malformed :
    render {} (list [map [(text "!DOCTYPE html", text "x")], map [(text "p", list [text "br: y",
        map [(text "img", map [(text "alt", text "a"), (text "children", null)])]])]]) =
      render {} (list [map [(text "!DOCTYPE html", foreign (.date ⟨2024, 1, 1⟩))], map [(text "p", list
        [map [(text "br", list [map [], foreign (.set [integer 1])])],
          map [(text "img", map [(text "alt", text "a"), (text "children", map [])])]])]]) ∧
    render {} (list [map [(text "!DOCTYPE html", text "x")], map [(text "p", list [text "br: y",
        map [(text "img", map [(text "alt", text "a"), (text "children", null)])]])]]) =
      .ok "<!DOCTYPE html><p><br><img alt=\"a\"></p>" := by
  have doctype : Unseen "!DOCTYPE html" (text "x") (foreign (.date ⟨2024, 1, 1⟩)) :=
    .doctype _ _ (by decide)
  have br : Unseen "br" (text "y") (list [map [], foreign (.set [integer 1])]) :=
    .plain rfl rfl (by decide)
  have img : Unseen "img" (map [(text "alt", text "a"), (text "children", null)])
      (map [(text "alt", text "a"), (text "children", map [])]) :=
    .children [(text "alt", text "a")] [] _ _ (by decide)
  have line : Declaration.ofText? "br: y" = some ⟨"br", some "y"⟩ := by decide
  refine ⟨render_of_differs {} (.trans _ _ _ (.rel _ _ (.listMember .node [] _
    (.entry [] [] (text "!DOCTYPE html") rfl doctype))) (.trans _ _ _ (.rel _ _
      (.listMember .node [_] [] (.element [] [] (text "p") (.listMember .content [] _
        (.line line br))))) (.rel _ _ (.listMember .node [_] [] (.element [] [] (text "p")
          (.listMember .content [_] [] (.entry [] [] (text "img") rfl img))))))), ?_⟩
  rw [render_eq_writeAll_pieces]
  decide +kernel

end TreeMarkup
