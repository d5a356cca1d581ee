import TreeMarkup.Proofs.KeyNames
import TreeMarkup.Proofs.StackRendering
import TreeMarkup.Proofs.WrittenKeys

namespace TreeMarkup

namespace Attribute

def entry (a : Attribute) : Value × Value := (.text a.name, a.value.elim (.boolean true) .text)

/-- An attribute that neither the head of a key nor the children of an element can stand for. -/
structure IsOrdinary (a : Attribute) : Prop where
  ne_id : a.name ≠ "id".toList
  ne_class : a.name ≠ "class".toList
  ne_children : a.name ≠ "children".toList

end Attribute

/-- A mapping of attributes with the children among them. -/
def attributeMapping (before : List Attribute) (children : Value) (after : List Attribute) :
    List (Value × Value) :=
  before.map Attribute.entry ++ (.text "children", children) :: after.map Attribute.entry

theorem isText_entry {a : Attribute} {t : Text} (h : a.name ≠ t) : a.entry.1.isText t = false :=
  decide_eq_false h

theorem attributeValue_entry (a : Attribute) : a.entry.2.attributeValue = .ok a.value := by
  obtain ⟨name, value⟩ := a
  cases value <;> rfl

theorem OpeningTag.entryAttributes_entries {names : List Text} {as : List Attribute}
    (hd : (as.map Attribute.name).Nodup) (hn : ∀ a ∈ as, a.name ∉ names) :
    entryAttributes names (as.map Attribute.entry) = .ok as := by
  induction as generalizing names with
  | nil => rfl
  | cons a as ih =>
    rw [List.map_cons, List.nodup_cons] at hd
    rw [List.forall_mem_cons] at hn
    have hw : isWritten names a.entry.1 = false := by
      simpa [isWritten, Attribute.entry] using hn.1
    have hr : entryAttributes (addName names a.entry.1) (as.map Attribute.entry) = .ok as := by
      apply ih hd.2
      intro b hb hm
      rcases List.mem_cons.1 hm with hm | hm
      · exact hd.1 (hm ▸ List.mem_map_of_mem hb)
      · exact hn.2 b hb hm
    rw [List.map_cons, entryAttributes, hw, attributeValue_entry, hr]
    rfl

section

variable {before after : List Attribute}

theorem filter_entries {as : List Attribute} (h : ∀ a ∈ as, a.IsOrdinary) :
    ((as.map Attribute.entry).filter fun e ↦ !e.1.isText "children") = as.map Attribute.entry := by
  apply List.filter_eq_self.2
  intro e he
  obtain ⟨a, ha, rfl⟩ := List.mem_map.1 he
  rw [isText_entry (h a ha).ne_children]
  rfl

theorem filter_attributeMapping (children : Value) (h : ∀ a ∈ before ++ after, a.IsOrdinary) :
    ((attributeMapping before children after).filter fun e ↦ !e.1.isText "children") =
      (before ++ after).map Attribute.entry := by
  rw [List.forall_mem_append] at h
  rw [attributeMapping, List.filter_append, List.filter_cons, filter_entries h.1, filter_entries h.2,
    List.map_append]
  rfl

theorem lookup?_attributeMapping (children : Value) (h : ∀ a ∈ before, a.IsOrdinary) :
    Value.lookup? "children" (attributeMapping before children after) = some children := by
  induction before with
  | nil => rfl
  | cons a before ih =>
    rw [List.forall_mem_cons] at h
    have hr := ih h.2
    rw [Value.lookup?] at hr ⊢
    rw [attributeMapping, List.map_cons, List.cons_append, List.find?_cons,
      isText_entry h.1.ne_children]
    exact hr

end

namespace ElementKey

def bare (k : ElementKey) : ElementKey := { k with attributes := [] }

variable {k : ElementKey} {t : Text}

theorem HasNames.isWritten_head (h : k.HasNames) : k.bare.IsWritten k.head :=
  ⟨⟨h.tag, h.id, h.classes⟩, [], (List.append_nil _).symm, .nil⟩

theorem IsWritten.isDoctype (h : k.IsWritten t) : isDoctype t = false := by
  obtain ⟨hn, s, rfl, hs⟩ := h
  obtain ⟨c, tag, ht⟩ := List.exists_cons_of_ne_nil hn.tag.1
  have hc : isTagChar c = true := hn.tag.2 c (ht ▸ List.mem_cons_self)
  have h₁ := ne_of_isTagChar (d := '!') rfl hc
  have h₂ := ne_of_isTagChar (d := '"') rfl hc
  have hd : "!DOCTYPE".toList = '!' :: "DOCTYPE".toList := by decide
  have hq : "\"!DOCTYPE".toList = '"' :: "!DOCTYPE".toList := by decide
  rw [TreeMarkup.isDoctype, hq, hd, head, ht, List.cons_append, List.cons_append, List.isPrefixOf,
    List.isPrefixOf, beq_false_of_ne h₁, beq_false_of_ne h₂]
  rfl

theorem written_of_isOrdinary (h : ∀ a ∈ k.attributes, a.IsOrdinary) :
    k.written = k.bare.written ++ k.attributes := by
  have hid : k.resolvedId = k.id := by
    obtain ⟨tag, id, classes, attributes⟩ := k
    induction attributes with
    | nil => rfl
    | cons a attributes ih =>
      rw [List.forall_mem_cons] at h
      rw [resolvedId, List.foldl_cons, if_neg h.1.ne_id]
      exact ih h.2
  have hfind : (k.attributes.find? fun a ↦ a.name = "class".toList) = none :=
    List.find?_eq_none.2 fun a ha hname ↦ (h a ha).ne_class (of_decide_eq_true hname)
  have hclass : k.classList = k.classes := by
    rw [classList, hfind, List.append_nil]
  have hextra : k.extraAttributes = k.attributes :=
    List.filter_eq_self.2 fun a ha ↦ decide_eq_true ⟨(h a ha).ne_id, (h a ha).ne_class⟩
  have hbare : k.bare.classList = k.classes := List.append_nil k.classes
  have hnone : k.bare.extraAttributes = [] := rfl
  rw [written, hid, hclass, hextra, written, hbare, hnone, List.append_nil]
  rfl

theorem IsWritten.elementParts_eq (h : k.IsWritten t) (content : Value)
    (inner : Text → Except ConversionError (List Part)) :
    elementParts t content inner = (k.given content).bind fun given ↦
      (if Markup.isVoid k.tag then .ok [] else inner k.tag).map fun children ↦
        [.element k.tag k.written given children] := by
  rw [elementParts, h.isDoctype, if_neg Bool.false_ne_true, h.parse_eq]
  simp only [if_neg h.names.tag.1]
  cases k.given content with
  | error e => rfl
  | ok given =>
    cases (if Markup.isVoid k.tag then .ok [] else inner k.tag) with
    | error e => rfl
    | ok children => rfl

theorem given_eq_nil {v : Value} (hm : ∀ entries, v ≠ .map entries) (hf : ∀ f, v ≠ .foreign f) :
    k.given v = .ok [] := by
  cases v with
  | map entries => exact absurd rfl (hm entries)
  | foreign f => exact absurd rfl (hf f)
  | _ => rfl

theorem given_attributeMapping {before after : List Attribute}
    (hd : ((before ++ after).map Attribute.name).Nodup)
    (hn : ∀ a ∈ before ++ after, a.IsOrdinary) (v : Value) :
    k.bare.given (.map (attributeMapping before v after)) = .ok (before ++ after) := by
  rw [given, filter_attributeMapping v hn]
  apply OpeningTag.entryAttributes_entries hd
  intro a ha hm
  obtain ⟨b, hb, hname⟩ := List.mem_map.1 hm
  rcases name_or_mem_of_mem_written hb with h | h | h
  · exact (hn a ha).ne_id (hname ▸ h)
  · exact (hn a ha).ne_class (hname ▸ h)
  · cases h

end ElementKey

section

variable (options : Options)

theorem Part.opening_congr (tag : Text) {own given own' given' : List Attribute}
    (h : own ++ given = own' ++ given') : opening tag own given = opening tag own' given' := by
  rw [← write_opening, h, write_opening]

theorem map_writeAll_element (tag : Text) {own given own' given' : List Attribute}
    (h : own ++ given = own' ++ given') {x y : Except ConversionError (List Part)}
    (hxy : x.map Part.writeAll = y.map Part.writeAll) :
    (x.map fun children ↦ [Part.element tag own given children]).map Part.writeAll =
      (y.map fun children ↦ [Part.element tag own' given' children]).map Part.writeAll := by
  have hw : ∀ ps qs, Part.writeAll ps = Part.writeAll qs →
      Part.writeAll [.element tag own given ps] = Part.writeAll [.element tag own' given' qs] := by
    intro ps qs hp
    simp only [Part.writeAll, Part.write, Part.opening_congr tag h, hp]
  cases x with
  | error e => cases y with
    | error e' => exact hxy
    | ok qs => cases hxy
  | ok ps => cases y with
    | error e => cases hxy
    | ok qs => exact congrArg Except.ok (hw ps qs (Except.ok.inj hxy))

theorem Value.map_writeAll_bodyParts (tag : Text) {v : Value} (hm : ∀ entries, v ≠ .map entries) :
    (v.bodyParts options tag).map Part.writeAll = (v.contentParts options tag).map Part.writeAll := by
  cases v with
  | map entries => exact absurd rfl (hm entries)
  | text t =>
    cases t with
    | nil =>
      have hs : Part.writeAll [.scalar tag []] = [] := by
        cases hr : Markup.isRaw tag <;> simp [Part.scalar, hr, Part.writeAll, Part.write,
          Markup.escapeText]
      exact congrArg Except.ok hs.symm
    | cons c t => rfl
  | _ => rfl

/-- An element whose attributes stand in its key is rendered as the one of the same head whose
attributes stand in a mapping around the children. -/
theorem render_attributeMapping {k : ElementKey} {t : Text} (h : k.IsWritten t)
    (hd : (k.attributes.map Attribute.name).Nodup)
    (hn : ∀ a ∈ k.attributes, a.IsOrdinary)
    {before after : List Attribute} (hs : k.attributes = before ++ after) {v : Value}
    (hm : ∀ entries, v ≠ .map entries) (hf : ∀ f, v ≠ .foreign f) :
    render options (.map [(.text t, v)]) =
      render options (.map [(.text k.head, .map (attributeMapping before v after))]) := by
  apply render_congr
  have hkey : (Value.map [(.text t, v)]).parts options =
      elementParts t v fun tag ↦ v.contentParts options tag := rfl
  have hmap : (Value.map [(.text k.head, .map (attributeMapping before v after))]).parts options =
      elementParts k.head (.map (attributeMapping before v after)) fun tag ↦
        (Value.map (attributeMapping before v after)).contentParts options tag := rfl
  have hown : k.written ++ [] = k.bare.written ++ (before ++ after) := by
    rw [List.append_nil, ← hs]
    exact ElementKey.written_of_isOrdinary hn
  have hchildren : (Value.map (attributeMapping before v after)).contentParts options k.tag =
      v.bodyParts options k.tag := by
    have hb : ∀ a ∈ before, a.IsOrdinary := fun a ha ↦
      hn a (hs ▸ List.mem_append_left after ha)
    rw [Value.contentParts, Value.childrenParts_eq, lookup?_attributeMapping v hb]
    rfl
  rw [hkey, hmap, h.elementParts_eq, h.names.isWritten_head.elementParts_eq,
    ElementKey.given_eq_nil hm hf, ElementKey.given_attributeMapping (hs ▸ hd) (hs ▸ hn)]
  apply map_writeAll_element k.tag hown
  have htag : k.bare.tag = k.tag := rfl
  rw [htag]
  by_cases hv : Markup.isVoid k.tag = true
  · rw [if_pos hv, if_pos hv]
  · rw [if_neg hv, if_neg hv, hchildren, Value.map_writeAll_bodyParts options k.tag hm]

end

open Value in
theorem render_attributeMapping_between :
    render {} (map [(text "a#x.b title='say \"hi\": ' hidden", list [text "p: y", null])]) =
        render {} (map [(text "a#x.b", map [(text "title", text "say \"hi\": "),
          (text "children", list [text "p: y", null]), (text "hidden", boolean true)])]) ∧
      render {} (map [(text "a#x.b", map [(text "title", text "say \"hi\": "),
          (text "children", list [text "p: y", null]), (text "hidden", boolean true)])]) =
        .ok "<a id=\"x\" class=\"b\" title=\"say &quot;hi&quot;: \" hidden><p>y</p></a>" := by
  let title : Attribute := ⟨"title", some "say \"hi\": "⟩
  let hidden : Attribute := ⟨"hidden", none⟩
  let k : ElementKey := ⟨"a", some "x", ["b"], [title, hidden]⟩
  have bare : Attribute.SpellsAll " hidden" [hidden] :=
    @Attribute.SpellsAll.cons " " "hidden" _ _ _ _ (by decide) (by decide) .bare .nil
  have quoted := @Attribute.SpellsAll.cons " " "title" _ _ _ _ (by decide) (by decide)
    (@Attribute.Spells.quoted '\'' "say \"hi\": " (by decide) (by decide)) bare
  have h : k.IsWritten "a#x.b title='say \"hi\": ' hidden" := by
    refine ⟨⟨by decide, ?_, ?_⟩, _, ?_, quoted⟩
    · intro name hn
      cases hn
      decide
    · exact List.forall_mem_singleton.2 (by decide)
    · decide
  constructor
  · have ht : title.IsOrdinary := ⟨by decide, by decide, by decide⟩
    have hh : hidden.IsOrdinary := ⟨by decide, by decide, by decide⟩
    refine render_attributeMapping {} h (by decide)
      (List.forall_mem_cons.2 ⟨ht, List.forall_mem_singleton.2 hh⟩)
      (show k.attributes = [title] ++ [hidden] from rfl) ?_ ?_
    · intro entries he
      cases he
    · intro kind he
      cases he
  · rw [render_eq_writeAll_pieces]
    decide +kernel

end TreeMarkup
