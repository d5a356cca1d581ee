import Mathlib.Algebra.Ring.GeomSum
import Mathlib.Data.List.Infix
import TreeMarkup.Benchmark.Document
import TreeMarkup.Proofs.FlattenedSequences
import TreeMarkup.Proofs.QuotedLines
import TreeMarkup.Proofs.RelaxedNumerals

namespace TreeMarkup

namespace Text

def occurrences (pattern t : Text) : Nat := t.tails.countP pattern.isPrefixOf

/-- No proper end of the pattern stands at the beginning of the text. -/
def isApart (pattern t : Text) : Bool :=
  pattern.tails.tail.all fun v ↦ v.isEmpty || !v.isPrefixOf t

variable {pattern s t : Text}

theorem isPrefixOf_append (h : isApart pattern t = true) (c : Char) :
    pattern.isPrefixOf (c :: s ++ t) = pattern.isPrefixOf (c :: s) := by
  rw [Bool.eq_iff_iff, List.isPrefixOf_iff_prefix, List.isPrefixOf_iff_prefix]
  refine ⟨?_, fun hp ↦ hp.trans (List.prefix_append _ t)⟩
  rintro ⟨r, hr⟩
  rcases List.append_eq_append_iff.1 hr with ⟨u, hu, -⟩ | ⟨v, rfl, hv⟩
  · exact ⟨u, hu.symm⟩
  · have hm : v ∈ (c :: s ++ v).tails.tail := by simp
    have hn := List.all_eq_true.1 h v hm
    have hp : v.isPrefixOf t = true := List.isPrefixOf_iff_prefix.2 ⟨r, hv.symm⟩
    have hv : v = [] := by simpa [hp] using hn
    simp [hv]

theorem occurrences_append (h : isApart pattern t = true) (hp : pattern ≠ []) (s : Text) :
    occurrences pattern (s ++ t) = occurrences pattern s + occurrences pattern t := by
  induction s with
  | nil => simp [occurrences, List.isPrefixOf_iff_prefix, hp]
  | cons c s ih =>
    simp only [occurrences, List.cons_append, List.tails_cons, List.countP_cons] at ih ⊢
    rw [ih, ← List.cons_append, isPrefixOf_append h c]
    omega

end Text

namespace Benchmark

/-- A tag that as a key is nothing but itself, and whose element has an escaped body. -/
def IsPlainTag (tag : Text) : Prop :=
  ElementKey.parse tag = { tag } ∧ tag ≠ [] ∧ ':' ∉ tag ∧ isDoctype tag = false ∧
    Markup.isVoid tag = false ∧ Markup.isRaw tag = false

instance : DecidablePred IsPlainTag := fun _ ↦ inferInstanceAs (Decidable (_ ∧ _))

theorem isPlainTag_of_mem : ∀ tag ∈ ["div", "span", "table", "thead", "tbody", "tr", "th", "td"],
    IsPlainTag tag.toList := by
  decide +kernel

def tagged (tag inner : Text) : Text := '<' :: tag ++ '>' :: inner ++ "</" ++ tag ++ ">"

variable {options : Options} {tag content : Text}

theorem write_element (h : IsPlainTag tag) (parts : List Part) :
    (Part.element tag [] [] parts).write = tagged tag (Part.writeAll parts) := by
  obtain ⟨-, -, -, -, hv, -⟩ := h
  simp [Part.write, hv, Part.opening, Part.closing, tagged, Attribute.writeAll]

theorem elementParts_of_isPlainTag (h : IsPlainTag tag) {v : Value}
    (hv : (ElementKey.parse tag).given v = .ok [])
    (inner : Text → Except ConversionError (List Part)) :
    elementParts tag v inner = (inner tag).map fun parts ↦ [.element tag [] [] parts] := by
  obtain ⟨hk, ht, -, hd, hb, -⟩ := h
  rw [hk] at hv
  simp only [elementParts, hd, hk, hv, ht, hb]
  cases inner tag <;> rfl

theorem render_element (h : IsPlainTag tag) {items : List Value} {inner : Text}
    (hi : renderAll options items = .ok inner) :
    render options (element tag items) = .ok (tagged tag inner) := by
  have hp : (element tag items).parts options =
      (Value.itemParts options items).map fun parts ↦ [.element tag [] [] parts] :=
    elementParts_of_isPlainTag (v := .list items) h rfl fun tag ↦
      (Value.list items).contentParts options tag
  rw [renderAll_eq_writeAll_pieces, Part.map_writeAll_piecesAll] at hi
  rw [render_eq_writeAll_pieces, Part.map_writeAll_piecesAll, hp]
  cases hv : Value.itemParts options items with
  | error e =>
    rw [hv] at hi
    cases hi
  | ok parts =>
    rw [hv] at hi
    cases hi
    simp [Except.map, Part.writeAll, write_element h]

def IsPlain (content : Text) : Prop := ∀ c ∈ content, Markup.escapeTextChar c = [c]

instance : DecidablePred IsPlain := fun content ↦ List.decidableBAll _ content

theorem IsPlain.escapeText (hc : IsPlain content) : Markup.escapeText content = content := by
  rw [Markup.escapeText, List.flatMap_congr hc]
  exact List.flatMap_singleton' content

theorem IsPlain.isQuote (hc : IsPlain content) {c : Char} (h : c ∈ content) :
    Attribute.isQuote c = false := by
  have he := hc c h
  cases hq : Attribute.isQuote c with
  | false => rfl
  | true => rcases Declaration.eq_or_eq_of_isQuote hq with rfl | rfl <;> exact absurd he (by decide)

theorem IsPlain.append {s t : Text} (hs : IsPlain s) (ht : IsPlain t) : IsPlain (s ++ t) := by
  intro c hc
  rcases List.mem_append.1 hc with h | h
  · exact hs c h
  · exact ht c h

theorem isPlain_ofNat (n : Nat) : IsPlain (Text.ofNat n) := by
  intro c hc
  have hd := Text.isDigit_of_mem_ofNat hc
  unfold Markup.escapeTextChar
  split <;> first | rfl | cases hd

theorem ofText?_line (h : IsPlainTag tag) (hc : IsPlain content) :
    Declaration.ofText? (tag ++ ": \"" ++ content ++ "\"") = some ⟨tag, some content⟩ := by
  have he : Declaration.escapeQuotes content = content := by
    have hq : ∀ c ∈ content, (if Attribute.isQuote c then ['\\', c] else [c]) = [c] := by
      intro c hm
      simp [hc.isQuote hm]
    rw [Declaration.escapeQuotes, List.flatMap_congr hq]
    exact List.flatMap_singleton' content
  have hl : tag ++ ": \"" ++ content ++ "\"" = Declaration.quotedLine '"' tag content := by
    simp [Declaration.quotedLine, he]
  rw [hl]
  refine Declaration.ofText?_quotedLine rfl (fun q _ hi ↦ h.2.2.1 (hi.subset (by simp))) ⟨?_, ?_⟩
  · rintro rfl
    exact absurd (hc.isQuote (c := '"') (by decide)) (by decide)
  · rintro rfl
    exact absurd (hc.isQuote (c := '\'') (by decide)) (by decide)

theorem render_line (h : IsPlainTag tag) (hc : IsPlain content) :
    render options (line tag content) = .ok (tagged tag content) := by
  have hp : (line tag content).parts options = .ok [.element tag [] [] [.text content]] := by
    rw [line, Value.parts, ofText?_line h hc]
    dsimp only
    rw [elementParts_of_isPlainTag h rfl, Part.scalar, h.2.2.2.2.2]
    rfl
  have hw : Part.writeAll [.text content] = content := by
    simp [Part.writeAll, Part.write, hc.escapeText]
  rw [render_eq_writeAll_pieces, Part.map_writeAll_piecesAll, hp, Except.map, Part.writeAll,
    write_element h, hw, Part.writeAll, List.append_nil]

theorem renderAll_cons {v : Value} {vs : List Value} {s t : Text} (h : render options v = .ok s)
    (hs : renderAll options vs = .ok t) : renderAll options (v :: vs) = .ok (s ++ t) := by
  rw [renderAll, h, hs]
  rfl

theorem renderAll_singleton {v : Value} {t : Text} (h : render options v = .ok t) :
    renderAll options [v] = .ok t := by
  have hn : renderAll options [] = .ok [] := rfl
  simpa using renderAll_cons h hn

theorem renderAll_map {α : Type} {f : α → Value} {g : α → Text}
    (h : ∀ a, render options (f a) = .ok (g a)) (as : List α) :
    renderAll options (as.map f) = .ok (as.flatMap g) := by
  induction as with
  | nil => rfl
  | cons a as ih => exact renderAll_cons (h a) ih

theorem renderAll_replicate {v : Value} {t : Text} (h : render options v = .ok t) (n : Nat) :
    renderAll options (List.replicate n v) = .ok (List.replicate n t).flatten := by
  induction n with
  | zero => rfl
  | succ n ih => exact renderAll_cons h ih

def leafMarkup : Text := tagged "span" "Leaf content"

/-- The markup of a leaf inside as many levels of elements, each with the same number of children. -/
def nestedMarkup (breadth : Nat) : Nat → Text
  | 0 => leafMarkup
  | depth + 1 => tagged "div" (List.replicate breadth (nestedMarkup breadth depth)).flatten

theorem nestedMarkup_succ (breadth depth : Nat) :
    nestedMarkup breadth (depth + 1) =
      tagged "div" (List.replicate breadth (nestedMarkup breadth depth)).flatten :=
  rfl

def tableMarkup (rows columns : Nat) : Text :=
  let columnCells (cell : Nat → Text) := (List.range columns).flatMap cell
  tagged "table" <|
    tagged "thead"
      (tagged "tr" (columnCells fun j ↦ tagged "th" ("Column ".toList ++ Text.ofNat j))) ++
    tagged "tbody" ((List.range rows).flatMap fun i ↦
      tagged "tr" (columnCells fun j ↦
        tagged "td" ("Cell ".toList ++ Text.ofNat i ++ "-".toList ++ Text.ofNat j)))

theorem render_nestedStructure (depth breadth : Nat) :
    render options (nestedStructure depth breadth) = .ok (nestedMarkup breadth depth) := by
  induction depth with
  | zero => exact render_line (isPlainTag_of_mem "span" (by simp)) (by decide)
  | succ depth ih =>
    exact render_element (isPlainTag_of_mem "div" (by simp)) (renderAll_replicate ih breadth)

theorem chain_eq_nestedStructure (depth : Nat) : chain depth = nestedStructure depth 1 := by
  induction depth with
  | zero => rfl
  | succ depth ih => rw [chain, ih]; rfl

theorem nestedMarkup_one (depth : Nat) :
    nestedMarkup 1 depth = (List.replicate depth "<div>".toList).flatten ++
      leafMarkup ++ (List.replicate depth "</div>".toList).flatten := by
  induction depth with
  | zero => simp [nestedMarkup]
  | succ depth ih =>
    rw [nestedMarkup_succ, ih, List.replicate_succ (a := "<div>".toList),
      List.replicate_succ' (a := "</div>".toList)]
    simp [tagged]

theorem render_bodyCell (i j : Nat) :
    render options (line "td" ("Cell " ++ Text.ofNat i ++ "-" ++ Text.ofNat j)) =
      .ok (tagged "td" ("Cell ".toList ++ Text.ofNat i ++ "-".toList ++ Text.ofNat j)) :=
  render_line (isPlainTag_of_mem "td" (by simp))
    (.append (.append (.append (by decide) (isPlain_ofNat i)) (by decide)) (isPlain_ofNat j))

theorem render_headCell (j : Nat) :
    render options (line "th" ("Column " ++ Text.ofNat j)) =
      .ok (tagged "th" ("Column ".toList ++ Text.ofNat j)) :=
  render_line (isPlainTag_of_mem "th" (by simp)) (.append (by decide) (isPlain_ofNat j))

theorem renderAll_largeTable (rows columns : Nat) :
    renderAll options (largeTable rows columns) = .ok (tableMarkup rows columns) := by
  have hr : IsPlainTag "tr" := isPlainTag_of_mem "tr" (by simp)
  have head : render options (element "thead" [element "tr" (headCells columns)]) = .ok _ :=
    render_element (isPlainTag_of_mem "thead" (by simp))
      (renderAll_singleton (render_element hr (renderAll_map render_headCell _)))
  have body : render options (element "tbody"
      ((List.range rows).map fun i ↦ element "tr" (bodyCells i columns))) = .ok _ :=
    render_element (isPlainTag_of_mem "tbody" (by simp))
      (renderAll_map (fun i ↦ render_element hr (renderAll_map (render_bodyCell i) _)) _)
  exact renderAll_singleton (render_element (isPlainTag_of_mem "table" (by simp))
    (renderAll_cons head (renderAll_singleton body)))

/-- What makes the places of a pattern in nested markup those in its tags and leaves. -/
structure IsCountable (pattern : Text) : Prop where
  leaf : ∀ t, Text.isApart pattern (leafMarkup ++ t) = true
  element : ∀ inner t, Text.isApart pattern (tagged "div" inner ++ t) = true
  closing : Text.isApart pattern "</div>" = true
  not_closing : Text.occurrences pattern "</div>" = 0
  ne_nil : pattern ≠ []

theorem isCountable_leafMarkup : IsCountable leafMarkup :=
  ⟨fun _ ↦ rfl, fun _ _ ↦ rfl, by decide, by decide, by decide⟩

theorem isCountable_div : IsCountable "<div>" :=
  ⟨fun _ ↦ rfl, fun _ _ ↦ rfl, by decide, by decide, by decide⟩

namespace IsCountable

variable {pattern : Text} (h : IsCountable pattern)
include h

theorem nestedMarkup (breadth depth : Nat) (t : Text) :
    Text.isApart pattern (nestedMarkup breadth depth ++ t) = true := by
  cases depth with
  | zero => exact h.leaf t
  | succ depth => exact h.element _ t

theorem siblings (breadth depth n : Nat) :
    Text.isApart pattern
      ((List.replicate n (Benchmark.nestedMarkup breadth depth)).flatten ++ "</div>") = true := by
  cases n with
  | zero => exact h.closing
  | succ n =>
    rw [List.replicate_succ, List.flatten_cons, List.append_assoc]
    exact h.nestedMarkup breadth depth _

theorem occurrences_siblings (breadth depth n : Nat) :
    Text.occurrences pattern
        ((List.replicate n (Benchmark.nestedMarkup breadth depth)).flatten ++ "</div>") =
      n * Text.occurrences pattern (Benchmark.nestedMarkup breadth depth) := by
  induction n with
  | zero => simpa using h.not_closing
  | succ n ih =>
    have ha := h.siblings breadth depth n
    rw [List.replicate_succ, List.flatten_cons, List.append_assoc,
      Text.occurrences_append ha h.ne_nil, ih, Nat.succ_mul, Nat.add_comm]

/-- One level adds a tag, and has as many copies of the next level as it has children. -/
theorem occurrences_nestedMarkup (breadth depth : Nat) :
    Text.occurrences pattern (Benchmark.nestedMarkup breadth depth) =
      Text.occurrences pattern "<div>" * ∑ i ∈ Finset.range depth, breadth ^ i +
        Text.occurrences pattern leafMarkup * breadth ^ depth := by
  induction depth with
  | zero => simp [Benchmark.nestedMarkup]
  | succ depth ih =>
    have ht : Benchmark.nestedMarkup breadth (depth + 1) = "<div>".toList ++
        ((List.replicate breadth (Benchmark.nestedMarkup breadth depth)).flatten ++ "</div>") := by
      simp [nestedMarkup_succ, tagged]
    have ha := h.siblings breadth depth breadth
    rw [ht, Text.occurrences_append ha h.ne_nil, h.occurrences_siblings, ih, geom_sum_succ]
    ring

end IsCountable

/-- For every size, the nested structure, the deep chain and the large table are rendered as their
closed forms. -/
theorem generated_documents_render (options : Options) :
    (∀ depth breadth, render options (nestedStructure depth breadth) =
        .ok (nestedMarkup breadth depth) ∧
      Text.occurrences "<span>Leaf content</span>" (nestedMarkup breadth depth) = breadth ^ depth ∧
      Text.occurrences "<div>" (nestedMarkup breadth depth) =
        ∑ i ∈ Finset.range depth, breadth ^ i) ∧
    (∀ depth, convert options (.list (deepChain depth)) =
      .ok ((List.replicate depth "<div>".toList).flatten ++ "<span>Leaf content</span>" ++
        (List.replicate depth "</div>".toList).flatten)) ∧
    ∀ rows columns, convert options (.list (largeTable rows columns)) =
      .ok (tableMarkup rows columns) := by
  have hl : leafMarkup = "<span>Leaf content</span>" := by decide
  refine ⟨fun depth breadth ↦ ⟨render_nestedStructure depth breadth, ?_, ?_⟩, fun depth ↦ ?_,
    renderAll_largeTable⟩
  · have hd : Text.occurrences leafMarkup "<div>" = 0 := by decide
    have ho : Text.occurrences leafMarkup leafMarkup = 1 := by decide
    rw [← hl, isCountable_leafMarkup.occurrences_nestedMarkup, hd, ho]
    simp
  · have hd : Text.occurrences "<div>" "<div>" = 1 := by decide
    have ho : Text.occurrences "<div>" leafMarkup = 0 := by decide
    rw [isCountable_div.occurrences_nestedMarkup, hd, ho]
    simp
  · rw [convert, deepChain, chain_eq_nestedStructure, ← hl, ← nestedMarkup_one]
    exact renderAll_singleton (render_nestedStructure depth 1)

end Benchmark

end TreeMarkup
