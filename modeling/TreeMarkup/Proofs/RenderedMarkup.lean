import TreeMarkup.Proofs.EscapedMarkup
import TreeMarkup.Proofs.KeyNames
import TreeMarkup.Proofs.MarkupReading
import TreeMarkup.Proofs.StackRendering

namespace TreeMarkup

namespace Part

mutual

def before : Part → List Markup.Item → List Markup.Item
  | doctype, items => .aside .doctype "html" :: items
  | text t, items => Markup.addText t items
  | raw t, items => Markup.addText t items
  | element tag own given children, items =>
    .element tag (own ++ given) (if Markup.isVoid tag then [] else forest children) :: items

/-- The forest that parts denote, in which texts that meet are one. -/
def forest : List Part → List Markup.Item
  | [] => []
  | part :: parts => before part (forest parts)

end

mutual

def nodes : Part → List Part
  | element tag own given children => element tag own given children :: nodesAll children
  | doctype => [doctype]
  | text t => [text t]
  | raw t => [raw t]

def nodesAll : List Part → List Part
  | [] => []
  | part :: parts => nodes part ++ nodesAll parts

end

theorem nodesAll_append (ps qs : List Part) : nodesAll (ps ++ qs) = nodesAll ps ++ nodesAll qs := by
  induction ps with
  | nil => rfl
  | cons p ps ih => simp only [List.cons_append, nodesAll, ih, List.append_assoc]

def IsKeyed : Part → Prop
  | element tag own _ _ => Markup.IsTag tag ∧ ∀ a ∈ own, Markup.IsAttributeName a.name
  | _ => True

/-- What a document may get past the escaping: raw bodies, and the attribute names of contents. -/
def IsSafe : Part → Prop
  | raw _ => False
  | element _ _ given _ => ∀ a ∈ given, Markup.IsAttributeName a.name
  | _ => True

instance (p : Part) : Decidable p.IsSafe :=
  match p with
  | doctype => isTrue trivial
  | text _ => isTrue trivial
  | raw _ => isFalse id
  | element _ _ given _ => inferInstanceAs (Decidable (∀ a ∈ given, Markup.IsAttributeName a.name))

theorem writesAttributes_opening {tag : Text} {own given children}
    (hk : IsKeyed (element tag own given children))
    (hs : IsSafe (element tag own given children)) :
    Markup.WritesAttributes (Attribute.writeAll own ++ Attribute.writeAll given) (own ++ given) := by
  have ha : ∀ a ∈ own ++ given, Markup.IsAttributeName a.name := fun a ha ↦
    (List.mem_append.1 ha).elim (hk.2 a) (hs a)
  have h := Markup.writesAttributes_writeAll ha
  rwa [Attribute.writeAll, List.flatMap_append] at h

mutual

theorem writesForest_before (p : Part) {u : Text} {items : List Markup.Item}
    (hk : ∀ q ∈ p.nodes, q.IsKeyed) (hs : ∀ q ∈ p.nodes, q.IsSafe)
    (hu : Markup.WritesForest u items) :
    Markup.WritesForest (p.write ++ u) (p.before items) := by
  cases p with
  | doctype => exact .doctype hu
  | text t => exact Markup.writesForest_append_of_encodes (Markup.encodes_escapeText t) hu
  | raw t => exact (hs (raw t) (List.mem_singleton.2 rfl)).elim
  | element tag own given children =>
    rw [nodes, List.forall_mem_cons] at hk hs
    have ha := writesAttributes_opening hk.1 hs.1
    have hc := writesForest_writeAll children hk.2 hs.2
    rw [write, before]
    by_cases hv : Markup.isVoid tag = true
    · rw [if_pos hv, if_pos hv]
      simpa [opening] using Markup.WritesForest.void hk.1.1 hv ha hu
    · rw [if_neg hv, if_neg hv]
      have h := Markup.WritesForest.element hk.1.1 (Bool.eq_false_iff.2 hv) ha hc hu
      simpa [opening, closing] using h

theorem writesForest_writeAll (ps : List Part) (hk : ∀ q ∈ nodesAll ps, q.IsKeyed)
    (hs : ∀ q ∈ nodesAll ps, q.IsSafe) : Markup.WritesForest (writeAll ps) (forest ps) := by
  cases ps with
  | nil => exact .nil
  | cons p ps =>
    rw [nodesAll, List.forall_mem_append] at hk hs
    exact writesForest_before p hk.1 hs.1 (writesForest_writeAll ps hk.2 hs.2)

end

end Part

theorem isKeyed_scalar (tag t : Text) : ∀ p ∈ Part.nodesAll [.scalar tag t], p.IsKeyed := by
  unfold Part.scalar
  split <;> simp [Part.nodesAll, Part.nodes, Part.IsKeyed]

theorem isKeyed_elementParts {key : Text} {content : Value}
    {inner : Text → Except ConversionError (List Part)} {ps : List Part}
    (hi : ∀ tag qs, inner tag = .ok qs → ∀ p ∈ Part.nodesAll qs, p.IsKeyed)
    (h : elementParts key content inner = .ok ps) : ∀ p ∈ Part.nodesAll ps, p.IsKeyed := by
  rcases elementParts_eq_ok h with rfl | ⟨given, children, ht, -, hc, rfl⟩
  · simp [Part.nodesAll, Part.nodes, Part.IsKeyed]
  · rw [Part.nodesAll, Part.nodes, Part.nodesAll, List.append_nil, List.forall_mem_cons]
    refine ⟨⟨ElementKey.isTag_parse ht, ElementKey.isAttributeName_of_mem_written key⟩, ?_⟩
    split at hc
    · cases hc
      simp [Part.nodesAll]
    · exact hi _ _ hc

namespace Value

variable (options : Options)

mutual

theorem isKeyed_parts (v : Value) {ps : List Part} (h : v.parts options = .ok ps) :
    ∀ p ∈ Part.nodesAll ps, p.IsKeyed := by
  cases v with
  | null => cases h; simp [Part.nodesAll]
  | text t =>
    rw [parts] at h
    split at h
    · exact isKeyed_elementParts (by rintro tag qs ⟨⟩; simp [Part.nodesAll]) h
    · exact isKeyed_elementParts (by rintro tag qs ⟨⟩; exact isKeyed_scalar _ _) h
    · cases h
      simp [Part.nodesAll, Part.nodes, Part.IsKeyed]
  | list items => exact isKeyed_itemParts items h
  | tuple items => exact isKeyed_itemParts items h
  | map entries => exact isKeyed_mappingParts entries h
  | _ =>
    obtain ⟨s, -, h⟩ := bind_eq_ok_iff.1 h
    cases h
    simp [Part.nodesAll, Part.nodes, Part.IsKeyed]

theorem isKeyed_itemParts (vs : List Value) {ps : List Part} (h : itemParts options vs = .ok ps) :
    ∀ p ∈ Part.nodesAll ps, p.IsKeyed := by
  cases vs with
  | nil => cases h; simp [Part.nodesAll]
  | cons v vs =>
    obtain ⟨qs, hq, h⟩ := bind_eq_ok_iff.1 h
    obtain ⟨rs, hr, h⟩ := bind_eq_ok_iff.1 h
    cases h
    rw [Part.nodesAll_append, List.forall_mem_append]
    exact ⟨isKeyed_parts v hq, isKeyed_itemParts vs hr⟩

theorem isKeyed_mappingParts (entries : List (Value × Value)) {ps : List Part}
    (h : mappingParts options entries = .ok ps) : ∀ p ∈ Part.nodesAll ps, p.IsKeyed := by
  cases entries with
  | nil => cases h
  | cons e rest =>
    obtain ⟨key, content⟩ := e
    rw [mappingParts] at h
    split at h
    · cases h
    · obtain ⟨k, -, h⟩ := bind_eq_ok_iff.1 h
      exact isKeyed_elementParts (fun tag qs hq ↦ isKeyed_contentParts tag content hq) h

theorem isKeyed_contentParts (tag : Text) (v : Value) {ps : List Part}
    (h : v.contentParts options tag = .ok ps) : ∀ p ∈ Part.nodesAll ps, p.IsKeyed := by
  cases v with
  | null => cases h; simp [Part.nodesAll]
  | list items => exact isKeyed_itemParts items h
  | tuple items => exact isKeyed_itemParts items h
  | map entries => exact isKeyed_childrenParts tag entries h
  | _ =>
    obtain ⟨s, -, h⟩ := bind_eq_ok_iff.1 h
    cases h
    exact isKeyed_scalar _ _

theorem isKeyed_childrenParts (tag : Text) (entries : List (Value × Value)) {ps : List Part}
    (h : childrenParts options tag entries = .ok ps) : ∀ p ∈ Part.nodesAll ps, p.IsKeyed := by
  cases entries with
  | nil => cases h; simp [Part.nodesAll]
  | cons e entries =>
    obtain ⟨name, value⟩ := e
    rw [childrenParts] at h
    split at h
    · exact isKeyed_bodyParts tag value h
    · exact isKeyed_childrenParts tag entries h

theorem isKeyed_bodyParts (tag : Text) (v : Value) {ps : List Part}
    (h : v.bodyParts options tag = .ok ps) : ∀ p ∈ Part.nodesAll ps, p.IsKeyed := by
  cases v with
  | null => cases h; simp [Part.nodesAll]
  | text t =>
    cases t with
    | nil => cases h; simp [Part.nodesAll]
    | cons c t => cases h; exact isKeyed_scalar _ _
  | list items => exact isKeyed_itemParts items h
  | tuple items => exact isKeyed_itemParts items h
  | map entries => exact isKeyed_mappingParts entries h
  | _ =>
    obtain ⟨s, -, h⟩ := bind_eq_ok_iff.1 h
    cases h
    exact isKeyed_scalar _ _

end

variable (v : Value)

def forest : Except ConversionError (List Markup.Item) := (v.parts options).map Part.forest

/-- A document without raw bodies, in which the attribute names that its contents give are names. -/
def IsSafe : Prop := ∀ ps, v.parts options = .ok ps → ∀ p ∈ Part.nodesAll ps, p.IsSafe

instance : Decidable (v.IsSafe options) :=
  match h : v.parts options with
  | .error _ => isTrue fun _ hp ↦ by rw [h] at hp; cases hp
  | .ok ps =>
    decidable_of_iff (∀ p ∈ Part.nodesAll ps, p.IsSafe)
      ⟨fun hs _ hp ↦ by rw [h] at hp; cases hp; exact hs, fun hs ↦ hs ps h⟩

end Value

/-- The markup of a safe document is read as the forest that the document denotes. -/
theorem read_render (options : Options) {v : Value} {out : Text} (hs : v.IsSafe options)
    (h : render options v = .ok out) :
    ∃ items, v.forest options = .ok items ∧ Markup.read? out = some items := by
  rw [render_eq_writeAll_pieces] at h
  cases hp : v.parts options with
  | error e => rw [hp] at h; cases h
  | ok ps =>
    rw [hp] at h
    cases h
    have hk := Value.isKeyed_parts options v hp
    refine ⟨Part.forest ps, by rw [Value.forest, hp]; rfl, ?_⟩
    rw [Part.writeAll_piecesAll]
    exact Markup.read?_eq_some_iff.2 (Part.writesForest_writeAll ps hk (hs ps hp))

open Value in
theorem read_render_nested :
    ∃ items,
      (map [(text "p#a", map [(text "title", text "\"<"), (text "children",
        list [text "1 < 2", map [(text "br", null)], text "'", text "</p>"])])]).forest {} =
          .ok items ∧
        Markup.read? "<p id=\"a\" title=\"&quot;&lt;\">1 &lt; 2<br>&#39;&lt;/p&gt;</p>" =
          some items :=
  read_render {} (by decide +kernel) (by rw [render_eq_writeAll_pieces]; decide +kernel)

end TreeMarkup
