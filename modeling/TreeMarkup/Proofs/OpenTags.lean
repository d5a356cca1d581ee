import Mathlib.Logic.Relation
import TreeMarkup.Proofs.Computations
import TreeMarkup.Render.Basic

namespace TreeMarkup

namespace Piece

def isLeaf : Piece → Bool
  | opening tag _ => Markup.isVoid tag
  | closing _ => false
  | _ => true

/-- Every element that is opened is closed by its own tag, and nothing else is closed. -/
inductive Balanced : List Piece → Prop
  | nil : Balanced []
  | leaf {p : Piece} {ps : List Piece} : p.isLeaf = true → Balanced ps → Balanced (p :: ps)
  | element {tag : Text} {attributes : List Attribute} {ps qs : List Piece} :
      Markup.isVoid tag = false → Balanced ps → Balanced qs →
      Balanced (opening tag attributes :: ps ++ closing tag :: qs)

/-- The tags of the elements that are opened and not closed, the innermost first. -/
inductive Unclosed : List Piece → List Text → Prop
  | balanced {ps : List Piece} : Balanced ps → Unclosed ps []
  | element {tag : Text} {attributes : List Attribute} {tags : List Text} {ps qs : List Piece} :
      Unclosed ps tags → Markup.isVoid tag = false → Balanced qs →
      Unclosed (ps ++ opening tag attributes :: qs) (tag :: tags)

theorem Balanced.append {ps qs : List Piece} (hp : Balanced ps) (hq : Balanced qs) :
    Balanced (ps ++ qs) := by
  induction hp with
  | nil => exact hq
  | leaf hl _ ih => exact .leaf hl ih
  | element hv hp _ _ ih => simpa using Balanced.element hv hp ih

theorem Balanced.of_leaves {ps : List Piece} (h : ∀ p ∈ ps, p.isLeaf = true) : Balanced ps := by
  induction ps with
  | nil => exact .nil
  | cons p ps ih =>
    rw [List.forall_mem_cons] at h
    exact .leaf h.1 (ih h.2)

namespace Unclosed

variable {ps qs : List Piece} {tags : List Text} {tag : Text}

theorem append (h : Unclosed ps tags) (hq : Balanced qs) : Unclosed (ps ++ qs) tags := by
  cases h with
  | balanced hp => exact .balanced (hp.append hq)
  | element h hv hp =>
    rw [List.append_assoc]
    exact .element h hv (hp.append hq)

theorem close (h : Unclosed ps (tag :: tags)) : Unclosed (ps ++ [closing tag]) tags := by
  cases h with
  | @element _ attributes _ _ _ h hv hp =>
    have he : Balanced (opening tag attributes :: _ ++ [closing tag]) := .element hv hp .nil
    simpa using h.append he

theorem balanced_append_closing (h : Unclosed ps tags) : Balanced (ps ++ tags.map closing) := by
  induction tags generalizing ps with
  | nil =>
    cases h with
    | balanced h => simpa using h
  | cons tag tags ih => simpa using ih h.close

end Unclosed

/-- The open tags behind some pieces, if `tags` are open before them; none if an element is closed
that is not the innermost one. -/
def openTags? (tags : List Text) : List Piece → Option (List Text)
  | [] => some tags
  | opening tag _ :: ps => openTags? (if Markup.isVoid tag then tags else tag :: tags) ps
  | closing tag :: ps => if tags.head? = some tag then openTags? tags.tail ps else none
  | _ :: ps => openTags? tags ps

theorem openTags?_leaf {p : Piece} (h : p.isLeaf = true) (tags : List Text) (ps : List Piece) :
    openTags? tags (p :: ps) = openTags? tags ps := by
  cases p <;> simp_all [isLeaf, openTags?]

theorem openTags?_append (tags : List Text) (ps qs : List Piece) :
    openTags? tags (ps ++ qs) = (openTags? tags ps).bind fun tags ↦ openTags? tags qs := by
  fun_induction openTags? tags ps with
  | case1 => rfl
  | case4 tags tag ps h => simp [openTags?, h]
  | _ => simp_all [openTags?]

theorem Balanced.openTags? {ps : List Piece} (h : Balanced ps) (tags : List Text) :
    openTags? tags ps = some tags := by
  induction h generalizing tags with
  | nil => rfl
  | leaf hl _ ih => rw [openTags?_leaf hl, ih]
  | element hv _ _ ihp ihq => simp [Piece.openTags?, hv, openTags?_append, ihp, ihq]

theorem Unclosed.openTags? {ps : List Piece} {tags : List Text} (h : Unclosed ps tags) :
    openTags? [] ps = some tags := by
  induction h with
  | balanced h => exact h.openTags? []
  | element _ hv hq ih => simp [Piece.openTags?, hv, openTags?_append, ih, hq.openTags?]

theorem openTags?_map_closing {tags tags' : List Text}
    (h : openTags? tags (tags'.map closing) = some []) : tags' = tags := by
  induction tags' generalizing tags with
  | nil => simpa [openTags?] using h.symm
  | cons tag tags' ih =>
    cases tags with
    | nil => simp [openTags?] at h
    | cons t tags =>
      by_cases ht : t = tag
      · simp only [List.map_cons, openTags?, ht, List.head?_cons, if_true, List.tail_cons] at h
        rw [ht, ih h]
      · simp [openTags?, ht] at h

/-- No other closing tags than those of the open elements complete the pieces. -/
theorem Unclosed.balanced_append_iff {ps : List Piece} {tags : List Text} (h : Unclosed ps tags)
    (tags' : List Text) : Balanced (ps ++ tags'.map closing) ↔ tags' = tags := by
  constructor
  · intro hb
    have hs := hb.openTags? []
    rw [openTags?_append, h.openTags?, Option.bind_some] at hs
    exact openTags?_map_closing hs
  · rintro rfl
    exact h.balanced_append_closing

end Piece

def Task.closers : List Task → List Text
  | [] => []
  | visit _ :: tasks => closers tasks
  | close tag :: tasks => tag :: closers tasks

theorem Task.closers_append (s t : List Task) : closers (s ++ t) = closers s ++ closers t := by
  fun_induction closers s <;> simp_all [closers]

theorem Task.closers_map_visit (items : List Value) : closers (items.map visit) = [] := by
  induction items with
  | nil => rfl
  | cons v vs ih => exact ih

/-- What is written opens the elements whose closing tags are left to be done. -/
def Progress.IsNested (p : Progress) : Prop :=
  ((∀ q ∈ p.written, q.isLeaf = true) ∧ Task.closers p.tasks = []) ∨
    ∃ tag attributes body, Markup.isVoid tag = false ∧ (∀ q ∈ body, q.isLeaf = true) ∧
      p.written = .opening tag attributes :: body ∧ Task.closers p.tasks = [tag]

variable {options : Options} {p : Progress} {ps : List Piece} {tags : List Text}

theorem Progress.IsNested.unclosed (hp : p.IsNested) (h : Piece.Unclosed ps tags) :
    Piece.Unclosed (ps ++ p.written) (Task.closers p.tasks ++ tags) := by
  rcases hp with ⟨hl, ht⟩ | ⟨tag, as, body, hv, hl, hw, ht⟩
  · rw [ht]
    exact h.append (.of_leaves hl)
  · rw [hw, ht]
    exact .element h hv (.of_leaves hl)

theorem Body.closers_progress (tag : Text) (b : Body) :
    (∀ q ∈ (b.progress tag).written, q.isLeaf = true) ∧
      Task.closers (b.progress tag).tasks = [tag] := by
  cases b with
  | empty => simp [progress, Task.closers]
  | scalar s =>
    have hl : (Piece.body tag s.format).isLeaf = true := by
      rw [Piece.body]
      split <;> rfl
    simp [progress, Task.closers, hl]
  | sequence items =>
    simp [progress, Task.closers_append, Task.closers_map_visit, Task.closers]

theorem isNested_elementProgress {key : Text} {content : Value}
    (h : elementProgress key content = .ok p) : p.IsNested := by
  unfold elementProgress at h
  by_cases hd : isDoctype key = true
  · rw [if_pos hd] at h
    cases h
    exact .inl (by simp [Piece.isLeaf, Task.closers])
  rw [if_neg hd] at h
  by_cases ht : (ElementKey.parse key).tag = []
  · rw [if_pos ht] at h
    cases h
  rw [if_neg ht] at h
  obtain ⟨c, -, h⟩ := bind_eq_ok_iff.1 h
  obtain ⟨attributes, -, h⟩ := bind_eq_ok_iff.1 h
  cases hv : Markup.isVoid (ElementKey.parse key).tag with
  | true =>
    rw [if_pos hv] at h
    cases h
    exact .inl (by simp [Piece.isLeaf, Task.closers, hv])
  | false =>
    rw [if_neg (by simp [hv])] at h
    obtain ⟨b, -, h⟩ := bind_eq_ok_iff.1 h
    cases h
    have hb := Body.closers_progress (ElementKey.parse key).tag b
    exact .inr ⟨_, attributes, _, hv, hb.1, rfl, hb.2⟩

theorem Node.isNested_progress {n : Node} (h : n.progress = .ok p) : p.IsNested := by
  cases n with
  | element key content => exact isNested_elementProgress h
  | sequence items =>
    cases h
    exact .inl (by simp [Task.closers_map_visit])
  | _ =>
    cases h
    exact .inl (by simp [Piece.isLeaf, Task.closers])

theorem Value.isNested_progress {v : Value} (h : v.progress options = .ok p) : p.IsNested := by
  obtain ⟨n, -, h⟩ := bind_eq_ok_iff.1 h
  exact Node.isNested_progress h

namespace Worklist

/-- One round of the loop: the next task is done. -/
def Step (options : Options) (w w' : Worklist) : Prop :=
  ∃ task rest, w.pending = task :: rest ∧ w.advance options task rest = .ok w'

/-- The states that rendering a value comes through. -/
def Reaches (options : Options) (v : Value) : Worklist → Prop :=
  Relation.ReflTransGen (Step options) (start v)

def IsNested (w : Worklist) : Prop := Piece.Unclosed w.written.reverse (Task.closers w.pending)

variable {w w' : Worklist} {v : Value}

theorem IsNested.step (hw : w.IsNested) (h : Step options w w') : w'.IsNested := by
  obtain ⟨task, rest, hr, ha⟩ := h
  rw [IsNested, hr] at hw
  cases hp : task.progress options with
  | error e => simp [advance, hp, Except.map] at ha
  | ok p =>
    simp only [advance, hp, Except.map, Except.ok.injEq] at ha
    subst ha
    simp only [IsNested, List.reverse_append, List.reverse_reverse, Task.closers_append]
    cases task with
    | visit v => exact (Value.isNested_progress hp).unclosed hw
    | close tag =>
      cases hp
      exact Piece.Unclosed.close hw

theorem isNested_of_reaches (h : Reaches options v w) : w.IsNested := by
  induction h with
  | refl => exact .balanced .nil
  | tail _ hs ih => exact ih.step hs

theorem weights_step (h : Step options w w') :
    Task.weights w'.pending < Task.weights w.pending := by
  obtain ⟨task, rest, hr, ha⟩ := h
  rw [hr]
  exact weights_advance ha

theorem run_ends (options : Options) (w : Worklist) :
    (∃ w', Relation.ReflTransGen (Step options) w w' ∧ w'.pending = [] ∧
      w.run options = .ok w'.text) ∨
    ∃ w' task rest e, Relation.ReflTransGen (Step options) w w' ∧ w'.pending = task :: rest ∧
      w'.advance options task rest = .error e ∧ w.run options = .error e := by
  fun_induction run options w with
  | case1 w hw => exact .inl ⟨w, .refl, hw, rfl⟩
  | case2 w task rest hw e he => exact .inr ⟨w, task, rest, e, .refl, hw, he, rfl⟩
  | case3 w task rest hw w₁ he ih =>
    have hs : Step options w w₁ := ⟨task, rest, hw, he⟩
    rcases ih with ⟨w', hr, h⟩ | ⟨w', task', rest', e, hr, h⟩
    · exact .inl ⟨w', .head hs hr, h⟩
    · exact .inr ⟨w', task', rest', e, .head hs hr, h⟩

end Worklist

open Worklist in
/-- In every state that rendering comes through, the pending closing tags are those of the open
elements, innermost first, and they alone complete what is written; every step lowers the weight of
what is pending; and the run ends with everything closed, or at the first fault. -/
theorem open_tags_are_pending (options : Options) (v : Value) :
    (∀ w, Reaches options v w →
      Piece.Unclosed w.written.reverse (Task.closers w.pending) ∧
      (∀ tags, Piece.Balanced (w.written.reverse ++ tags.map .closing) ↔
        tags = Task.closers w.pending) ∧
      ∀ w', Worklist.Step options w w' → Task.weights w'.pending < Task.weights w.pending) ∧
    ((∃ w, Reaches options v w ∧ w.pending = [] ∧ Piece.Balanced w.written.reverse ∧
        render options v = .ok w.text) ∨
      ∃ w task rest e, Reaches options v w ∧ w.pending = task :: rest ∧
        w.advance options task rest = .error e ∧ render options v = .error e) := by
  constructor
  · intro w hw
    have hn := isNested_of_reaches hw
    exact ⟨hn, hn.balanced_append_iff, fun w' hs ↦ weights_step hs⟩
  · rcases run_ends options (start v) with ⟨w, hw, hp, hr⟩ | h
    · have hn := isNested_of_reaches hw
      rw [IsNested, hp] at hn
      exact .inl ⟨w, hw, hp, by simpa [Task.closers] using hn.balanced_append_closing, hr⟩
    · exact .inr h

open Worklist in
theorem open_tags_are_pending_nested :
    let v : Value := .map [(.text "div", .list [.map [(.text "p", .text "x")], .text "br:"])]
    let w : Worklist := ⟨[.text "x", .opening "p" [], .opening "div" []],
      [.close "p", .visit (.text "br:"), .close "div"]⟩
    Reaches {} v w ∧ Piece.Unclosed w.written.reverse ["p", "div"] ∧
      Piece.Balanced [.opening "div" [], .opening "p" [], .text "x", .closing "p", .closing "div"] := by
  intro v w
  have hd : ∀ items, elementProgress "div" (.list items) =
      .ok ⟨[.opening "div" []], items.map .visit ++ [.close "div"]⟩ := by
    intro items
    have hk : ElementKey.parse "div" = ⟨"div", none, [], []⟩ := by decide +kernel
    rw [elementProgress, hk]
    rfl
  have hp : elementProgress "p" (.text "x") = .ok ⟨[.opening "p" [], .text "x"], [.close "p"]⟩ := by
    have hk : ElementKey.parse "p" = ⟨"p", none, [], []⟩ := by decide +kernel
    rw [elementProgress, hk]
    rfl
  let w₁ : Worklist := ⟨[.opening "div" []],
    [.visit (.map [(.text "p", .text "x")]), .visit (.text "br:"), .close "div"]⟩
  have h₁ : Worklist.Step {} (start v) w₁ :=
    ⟨_, _, rfl, congrArg (Except.map _) (hd _)⟩
  have h₂ : Worklist.Step {} w₁ w := ⟨_, _, rfl, congrArg (Except.map _) hp⟩
  have h : Reaches {} v w := .tail (.single h₁) h₂
  have hw := (open_tags_are_pending {} v).1 w h
  exact ⟨h, hw.1, (hw.2.1 ["p", "div"]).2 rfl⟩

end TreeMarkup
