import TreeMarkup.Proofs.DocumentParts

namespace TreeMarkup

theorem Piece.writeAll_nil : writeAll [] = [] := rfl

theorem Piece.writeAll_cons (p : Piece) (ps : List Piece) :
    writeAll (p :: ps) = p.write ++ writeAll ps := rfl

namespace Part

mutual

def pieces : Part → List Piece
  | doctype => [.doctype]
  | text t => [.text t]
  | raw t => [.raw t]
  | element tag own given children =>
    if Markup.isVoid tag then [.opening tag (own ++ given)]
    else .opening tag (own ++ given) :: piecesAll children ++ [.closing tag]

def piecesAll : List Part → List Piece
  | [] => []
  | part :: parts => pieces part ++ piecesAll parts

end

theorem piecesAll_append (ps qs : List Part) : piecesAll (ps ++ qs) = piecesAll ps ++ piecesAll qs := by
  induction ps with
  | nil => rfl
  | cons p ps ih => simp only [List.cons_append, piecesAll, ih, List.append_assoc]

theorem write_opening (tag : Text) (own given : List Attribute) :
    (Piece.opening tag (own ++ given)).write = opening tag own given := by
  simp [Piece.write, opening, Attribute.writeAll]

theorem write_closing (tag : Text) : (Piece.closing tag).write = closing tag := rfl

mutual

theorem writeAll_pieces (p : Part) : Piece.writeAll p.pieces = p.write := by
  cases p with
  | element tag own given children =>
    have hc := writeAll_piecesAll children
    by_cases hv : Markup.isVoid tag = true
    · simp only [pieces, write, hv, if_true, Piece.writeAll_cons, write_opening, Piece.writeAll_nil,
        List.append_nil]
    · simp only [pieces, write, hv, Bool.false_eq_true, if_false, List.cons_append,
        Piece.writeAll_cons, Piece.writeAll_append, write_opening, hc, write_closing,
        Piece.writeAll_nil, List.append_nil, List.append_assoc]
  | _ => simp [pieces, write, Piece.writeAll, Piece.write]

theorem writeAll_piecesAll (ps : List Part) : Piece.writeAll (piecesAll ps) = writeAll ps := by
  cases ps with
  | nil => rfl
  | cons p ps =>
    rw [piecesAll, writeAll, Piece.writeAll_append, writeAll_pieces p, writeAll_piecesAll ps]

end

end Part

def Body.parts (options : Options) (tag : Text) : Body → Except ConversionError (List Part)
  | empty => .ok []
  | scalar s => .ok [.scalar tag s.format]
  | sequence items => Value.itemParts options items

namespace Task

variable (options : Options)

/-- The pieces that a task stands for, whatever the number of steps that write them. -/
def pieces : Task → Except ConversionError (List Piece)
  | visit v => (v.parts options).map Part.piecesAll
  | close tag => .ok [.closing tag]

def piecesAll : List Task → Except ConversionError (List Piece)
  | [] => .ok []
  | task :: tasks => do return (← task.pieces options) ++ (← piecesAll tasks)

theorem piecesAll_append (s t : List Task) :
    piecesAll options (s ++ t) = do return (← piecesAll options s) ++ (← piecesAll options t) := by
  induction s with
  | nil => exact (nil_append_of_except _).symm
  | cons a s ih => rw [List.cons_append, piecesAll, ih, piecesAll, append_assoc_of_except]

theorem piecesAll_visit (items : List Value) :
    piecesAll options (items.map visit) = (Value.itemParts options items).map Part.piecesAll := by
  induction items with
  | nil => rfl
  | cons v vs ih =>
    rw [List.map_cons, piecesAll, pieces, ih, Value.itemParts,
      map_append_of_except Part.piecesAll_append]

end Task

def Progress.pieces (options : Options) (p : Progress) : Except ConversionError (List Piece) :=
  (Task.piecesAll options p.tasks).map (p.written ++ ·)

variable (options : Options)

theorem Progress.pieces_cons (piece : Piece) (p : Progress) :
    pieces options ⟨piece :: p.written, p.tasks⟩ = (p.pieces options).map (piece :: ·) := by
  simp only [pieces]
  cases Task.piecesAll options p.tasks <;> rfl

theorem Progress.pieces_visit (items : List Value) :
    (Value.itemParts options items).map Part.piecesAll = pieces options ⟨[], items.map .visit⟩ := by
  simp only [pieces, Task.piecesAll_visit]
  cases Value.itemParts options items <;> rfl

namespace Value

theorem bodyParts_eq (tag : Text) (v : Value) :
    v.bodyParts options tag = v.toBody.bind (Body.parts options tag) := by
  cases v with
  | text t => cases t <;> rfl
  | map entries =>
    simp only [bodyParts, toBody, Except.bind, Body.parts, itemParts, parts]
    cases mappingParts options entries with
    | error e => rfl
    | ok ps => simp [bind, Except.bind, pure, Except.pure]
  | _ => rfl

theorem childrenParts_eq (tag : Text) (entries : List (Value × Value)) :
    childrenParts options tag entries =
      bodyParts options tag ((lookup? "children" entries).getD null) := by
  induction entries with
  | nil => rfl
  | cons e entries ih =>
    obtain ⟨name, value⟩ := e
    rw [childrenParts, lookup?, List.find?_cons]
    by_cases hn : name.isText "children" = true
    · simp only [hn, if_true, Option.map_some, Option.getD_some]
    · simp only [hn, Bool.false_eq_true, if_false]
      exact ih

theorem contentParts_eq (tag : Text) (v : Value) :
    v.contentParts options tag =
      (v.toContent.bind Content.body).bind (Body.parts options tag) := by
  cases v with
  | map entries => rw [contentParts, childrenParts_eq, bodyParts_eq]; rfl
  | _ => rfl

end Value

theorem ElementKey.given_eq (k : ElementKey) (v : Value) :
    k.given v = v.toContent.bind (OpeningTag.contentAttributes k) := by
  cases v <;> rfl

theorem Body.pieces_progress (tag : Text) (b : Body) :
    (b.progress tag).pieces options =
      (b.parts options tag).map fun ps ↦ Part.piecesAll ps ++ [.closing tag] := by
  cases b with
  | empty => rfl
  | scalar s =>
    have hs : (Part.scalar tag s.format).pieces = [Piece.body tag s.format] := by
      by_cases h : Markup.isRaw tag = true
      · simp only [Part.scalar, Piece.body, h, if_true, Part.pieces]
      · simp only [Part.scalar, Piece.body, h, Bool.false_eq_true, if_false, Part.pieces]
    simp only [parts, Except.map, Part.piecesAll, hs]
    rfl
  | sequence items =>
    simp only [progress, parts, Progress.pieces, Task.piecesAll_append, Task.piecesAll_visit]
    cases Value.itemParts options items with
    | error e => rfl
    | ok ps => rfl

theorem pieces_elementProgress (key : Text) (content : Value)
    (inner : Text → Except ConversionError (List Part))
    (h : ∀ tag, inner tag = content.contentParts options tag) :
    (elementParts key content inner).map Part.piecesAll =
      (elementProgress key content).bind (Progress.pieces options) := by
  unfold elementParts elementProgress
  by_cases hd : isDoctype key = true
  · simp only [hd, if_true]; rfl
  simp only [hd, Bool.false_eq_true, if_false, h, ElementKey.given_eq, Value.contentParts_eq]
  by_cases ht : (ElementKey.parse key).tag = []
  · simp only [ht, if_true]; rfl
  simp only [ht, if_false]
  cases content.toContent with
  | error e => rfl
  | ok c =>
    simp only [bind, Except.bind, OpeningTag.attributes]
    cases OpeningTag.contentAttributes (ElementKey.parse key) c with
    | error e => rfl
    | ok given =>
      by_cases hv : Markup.isVoid (ElementKey.parse key).tag = true
      · simp [hv, Except.map, pure, Except.pure, Progress.pieces, Part.piecesAll, Part.pieces,
          Task.piecesAll]
      simp only [hv, Bool.false_eq_true, if_false, Except.map, pure, Except.pure]
      cases c.body with
      | error e => rfl
      | ok b =>
        dsimp only
        rw [Progress.pieces_cons, Body.pieces_progress]
        cases b.parts options (ElementKey.parse key).tag with
        | error e => rfl
        | ok ps => simp [Except.map, Part.piecesAll, Part.pieces, hv]

theorem Value.pieces_elementOf (entries : List (Value × Value)) :
    (mappingParts options entries).map Part.piecesAll =
      (elementOf options.allowMultiKey entries).bind fun n ↦
        n.progress.bind (Progress.pieces options) := by
  cases entries with
  | nil => rfl
  | cons e rest =>
    obtain ⟨key, content⟩ := e
    rw [mappingParts, elementOf]
    by_cases hm : (!rest.isEmpty && !options.allowMultiKey) = true
    · simp only [hm, if_true]; rfl
    simp only [hm, Bool.false_eq_true, if_false]
    cases key.elementKey with
    | error e => rfl
    | ok k => exact pieces_elementProgress options k content _ (fun _ ↦ rfl)

theorem Value.pieces_nodeOfText (t : Text) :
    ((text t).parts options).map Part.piecesAll =
      (nodeOfText t).progress.bind (Progress.pieces options) := by
  rw [parts, nodeOfText]
  cases Declaration.ofText? t with
  | none => rfl
  | some d =>
    obtain ⟨key, c⟩ := d
    cases c with
    | none => exact pieces_elementProgress options key null _ (fun _ ↦ rfl)
    | some c => exact pieces_elementProgress options key (text c) _ (fun _ ↦ rfl)

theorem Value.pieces_progress (v : Value) :
    (v.parts options).map Part.piecesAll =
      (v.progress options).bind (Progress.pieces options) := by
  cases v with
  | text t => exact pieces_nodeOfText options t
  | map entries =>
    rw [parts, pieces_elementOf, progress, toNode]
    cases elementOf options.allowMultiKey entries with
    | error e => rfl
    | ok n => rfl
  | list items => exact Progress.pieces_visit options items
  | tuple items => exact Progress.pieces_visit options items
  | _ => rfl

/-- One step keeps the pieces of a task: they are what it writes, then what it leaves. -/
theorem Task.pieces_progress (task : Task) :
    task.pieces options = (task.progress options).bind (Progress.pieces options) := by
  cases task with
  | visit v => exact Value.pieces_progress options v
  | close tag => rfl

namespace Worklist

def pieces (w : Worklist) : Except ConversionError (List Piece) :=
  (Task.piecesAll options w.pending).map (w.written.reverse ++ ·)

theorem pieces_advance {w : Worklist} {task : Task} {rest : List Task}
    (hw : w.pending = task :: rest) :
    w.pieces options = (w.advance options task rest).bind (pieces options) := by
  rw [pieces, hw, Task.piecesAll, advance, Task.pieces_progress]
  cases task.progress options with
  | error e => rfl
  | ok p =>
    simp only [Except.bind, Except.map, pieces, Progress.pieces, Task.piecesAll_append]
    cases Task.piecesAll options p.tasks with
    | error e => rfl
    | ok ps =>
      cases Task.piecesAll options rest with
      | error e => rfl
      | ok qs => simp [bind, Except.bind, pure, Except.pure]

theorem run_eq (w : Worklist) : w.run options = (w.pieces options).map Piece.writeAll := by
  fun_induction w.run options with
  | case1 w hw => simp [pieces, hw, Task.piecesAll, Except.map, text]
  | case2 w task rest hw e he => rw [pieces_advance options hw, he]; rfl
  | case3 w task rest hw w' he ih => rw [ih, pieces_advance options hw, he]; rfl

end Worklist

theorem render_eq_writeAll_pieces (v : Value) :
    render options v = ((v.parts options).map Part.piecesAll).map Piece.writeAll := by
  rw [render, Worklist.run_eq]
  simp only [Worklist.pieces, Worklist.start, Task.piecesAll, Task.pieces]
  cases v.parts options with
  | error e => rfl
  | ok ps => simp [Except.map, bind, Except.bind, pure, Except.pure]

theorem Part.map_writeAll_piecesAll (ps : Except ConversionError (List Part)) :
    (ps.map Part.piecesAll).map Piece.writeAll = ps.map Part.writeAll := by
  cases ps with
  | error e => rfl
  | ok ps => exact congrArg Except.ok (Part.writeAll_piecesAll ps)

theorem render_congr {v w : Value}
    (h : (v.parts options).map Part.writeAll = (w.parts options).map Part.writeAll) :
    render options v = render options w := by
  simp only [render_eq_writeAll_pieces, Part.map_writeAll_piecesAll, h]

/-- Rendering with a list of pending tasks ends with the markup of the parts of the document, or
with the fault that these have. -/
theorem render_eq_write_parts (v : Value) :
    render options v = (v.parts options).map Part.writeAll := by
  rw [render_eq_writeAll_pieces]
  cases v.parts options with
  | error e => rfl
  | ok ps => exact congrArg Except.ok (Part.writeAll_piecesAll ps)

end TreeMarkup
