import TreeMarkup.Render.Progress

namespace TreeMarkup

namespace Value

mutual

/-- Bounds the steps that rendering takes, for a task weighs more than all those it leaves. -/
def weight : Value → Nat
  | list items => 2 + weights items
  | tuple items => 2 + weights items
  | map entries => 2 + entryWeights entries
  | _ => 2

def weights : List Value → Nat
  | [] => 0
  | item :: items => item.weight + weights items

def entryWeights : List (Value × Value) → Nat
  | [] => 0
  | (_, value) :: entries => value.weight + entryWeights entries

end

theorem two_le_weight (v : Value) : 2 ≤ v.weight := by
  cases v <;> simp [weight]

theorem weight_le_entryWeights {entries : List (Value × Value)} {e : Value × Value}
    (h : e ∈ entries) : e.2.weight ≤ entryWeights entries := by
  induction entries with
  | nil => simp at h
  | cons d ds ih =>
    simp only [entryWeights]
    rcases List.mem_cons.1 h with rfl | h
    · omega
    · have := ih h
      omega

theorem weight_le_of_lookup? {entries : List (Value × Value)} {key : Text} {v : Value}
    (h : lookup? key entries = some v) : v.weight ≤ entryWeights entries := by
  obtain ⟨e, he, rfl⟩ := Option.map_eq_some_iff.1 h
  exact weight_le_entryWeights (List.mem_of_find?_eq_some he)

end Value

def Task.weight : Task → Nat
  | visit v => v.weight
  | close _ => 1

def Task.weights : List Task → Nat
  | [] => 0
  | task :: tasks => task.weight + weights tasks

def Body.weight : Body → Nat
  | sequence items => Value.weights items
  | _ => 0

theorem Task.weights_append (s t : List Task) : weights (s ++ t) = weights s + weights t := by
  induction s with
  | nil => simp [weights]
  | cons a as ih => simp [weights, ih, Nat.add_assoc]

theorem Task.weights_map_visit (items : List Value) :
    weights (items.map visit) = Value.weights items := by
  induction items with
  | nil => rfl
  | cons v vs ih => simpa [weights, Value.weights, weight] using ih

theorem Task.weights_cons (t : Task) (ts : List Task) : weights (t :: ts) = t.weight + weights ts :=
  rfl

theorem Body.weights_progress (tag : Text) (b : Body) :
    Task.weights (b.progress tag).tasks = b.weight + 1 := by
  cases b with
  | sequence items =>
    simp only [progress, Task.weights_append, Task.weights_map_visit]
    simp [Task.weights, Task.weight, weight]
  | _ => rfl

variable {key : Text} {content v : Value} {p : Progress} {b : Body}

theorem Value.weight_of_toBody (h : v.toBody = .ok b) : b.weight ≤ v.weight := by
  cases b with
  | sequence items =>
    cases v with
    | list xs => cases h; simp [weight, Body.weight]
    | tuple xs => cases h; simp [weight, Body.weight]
    | map es => cases h; simp [weight, weights, Body.weight]
    | text t => cases t <;> simp [toBody, scalarAt, Scalar.ofValue?, Except.map] at h
    | _ => simp [toBody, scalarAt, Scalar.ofValue?, Except.map] at h
  | _ => simp [Body.weight]

theorem Value.weight_body_of_toContent {c : Content} (hc : content.toContent = .ok c)
    (hb : c.body = .ok b) : b.weight + 2 ≤ content.weight := by
  cases content with
  | list xs => cases hc; cases hb; simp [weight, Body.weight, Nat.add_comm]
  | tuple xs => cases hc; cases hb; simp [weight, Body.weight, Nat.add_comm]
  | map es =>
    cases hc
    simp only [weight]
    cases hl : lookup? "children" es with
    | none =>
      simp only [Content.body, hl, Option.getD_none] at hb
      cases hb
      simp [Body.weight]
    | some v =>
      simp only [Content.body, hl, Option.getD_some] at hb
      have h₁ := weight_of_toBody hb
      have h₂ := weight_le_of_lookup? hl
      omega
  | foreign f => simp [toContent, scalarAt, Scalar.ofValue?, Except.map] at hc
  | _ => cases hc; cases hb; simp [weight, Body.weight]

theorem weights_elementProgress (h : elementProgress key content = .ok p) :
    Task.weights p.tasks < content.weight := by
  have hw := content.two_le_weight
  simp only [elementProgress] at h
  split at h
  · cases h; simp only [Task.weights]; omega
  split at h
  · cases h
  cases hc : content.toContent with
  | error e => simp [hc, bind, Except.bind] at h
  | ok c =>
    cases ha : OpeningTag.attributes (ElementKey.parse key) c with
    | error e => simp [hc, ha, bind, Except.bind] at h
    | ok as =>
      simp only [hc, ha, bind, Except.bind, pure, Except.pure] at h
      split at h
      · cases h; simp only [Task.weights]; omega
      cases hb : c.body with
      | error e => simp [hb] at h
      | ok b =>
        simp only [hb, Except.ok.injEq] at h
        subst h
        have := Value.weight_body_of_toContent hc hb
        simp only [Body.weights_progress]
        omega

theorem Value.weights_of_elementOf {allowMultiKey : Bool} {entries : List (Value × Value)}
    {n : Node} (hn : elementOf allowMultiKey entries = .ok n) (h : n.progress = .ok p) :
    Task.weights p.tasks < (map entries).weight := by
  cases entries with
  | nil => simp [elementOf] at hn
  | cons e rest =>
    simp only [elementOf] at hn
    split at hn
    · cases hn
    · cases hk : e.1.elementKey with
      | error e' => simp [hk, Except.map] at hn
      | ok k =>
        simp only [hk, Except.map, Except.ok.injEq] at hn
        subst hn
        have := weights_elementProgress h
        simp only [weight, entryWeights]
        omega

theorem Value.weights_of_nodeOfText {t : Text} (h : (nodeOfText t).progress = .ok p) :
    Task.weights p.tasks < (text t).weight := by
  simp only [nodeOfText] at h
  split at h
  · refine Nat.lt_of_lt_of_le (weights_elementProgress h) ?_
    rename_i d _
    cases d.content <;> simp [weight]
  · cases h; simp [Task.weights, weight]

theorem Value.weights_progress {options : Options} (h : v.progress options = .ok p) :
    Task.weights p.tasks < v.weight := by
  cases hn : v.toNode options.allowMultiKey with
  | error e => simp [progress, hn, bind, Except.bind] at h
  | ok n =>
    simp only [progress, hn, bind, Except.bind] at h
    cases v with
    | text t => cases hn; exact weights_of_nodeOfText h
    | map es => exact weights_of_elementOf hn h
    | list xs => cases hn; cases h; simp only [Task.weights_map_visit, weight]; omega
    | tuple xs => cases hn; cases h; simp only [Task.weights_map_visit, weight]; omega
    | foreign f => simp [toNode, scalarAt, Scalar.ofValue?, Except.map] at hn
    | _ => cases hn; cases h; simp [Task.weights, weight]

theorem Task.weights_progress {options : Options} {t : Task} (h : t.progress options = .ok p) :
    weights p.tasks < t.weight := by
  cases t with
  | visit v => exact Value.weights_progress h
  | close tag => cases h; simp [weights, weight]

/-- The pieces written so far, the last one first, and the tasks still to be done, the next one first.
These take the place of a call stack, so that the depth of a document is bounded by memory alone. -/
structure Worklist where
  written : List Piece
  pending : List Task

namespace Worklist

def start (v : Value) : Worklist := ⟨[], [.visit v]⟩

def text (w : Worklist) : Text := Piece.writeAll w.written.reverse

def advance (options : Options) (w : Worklist) (task : Task) (rest : List Task) :
    Except ConversionError Worklist :=
  (task.progress options).map fun p ↦ ⟨p.written.reverse ++ w.written, p.tasks ++ rest⟩

theorem weights_advance {options : Options} {w w' : Worklist} {task : Task} {rest : List Task}
    (h : w.advance options task rest = .ok w') :
    Task.weights w'.pending < Task.weights (task :: rest) := by
  cases hp : task.progress options with
  | error e => simp [advance, hp, Except.map] at h
  | ok p =>
    simp only [advance, hp, Except.map, Except.ok.injEq] at h
    subst h
    have := Task.weights_progress hp
    simp only [Task.weights_append, Task.weights_cons]
    omega

def run (options : Options) (w : Worklist) : Except ConversionError Text :=
  match _hw : w.pending with
  | [] => .ok w.text
  | task :: rest =>
    match _h : w.advance options task rest with
    | .error e => .error e
    | .ok w' => run options w'
termination_by Task.weights w.pending
decreasing_by
  rw [_hw]
  exact weights_advance _h

end Worklist

def render (options : Options) (v : Value) : Except ConversionError Text :=
  (Worklist.start v).run options

def renderAll (options : Options) : List Value → Except ConversionError Text
  | [] => .ok []
  | v :: vs => do
    let first ← render options v
    let rest ← renderAll options vs
    return first ++ rest

def convert (options : Options) : Value → Except ConversionError Text
  | .list items => renderAll options items
  | .tuple items => renderAll options items
  | v => .error (.notSequence v.kind)

end TreeMarkup
