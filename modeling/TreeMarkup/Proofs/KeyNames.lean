import TreeMarkup.Proofs.KeyParts

namespace TreeMarkup

namespace Attribute

theorem isAttributeChar_of_isNameChar {c : Char} (h : isNameChar c = true) :
    Markup.isAttributeChar c = true := by
  have hc := toNat_of_isNameChar h
  have hb := isBlank_of_isNameChar h
  have hm : ¬c ∈ ['"', '\'', '<', '>', '/', '='] := by
    simp only [List.mem_cons, List.not_mem_nil, or_false]
    rintro (rfl | rfl | rfl | rfl | rfl | rfl) <;> revert hc <;> decide
  rw [Markup.isAttributeChar, hb]
  simpa using hm

theorem isAttributeName_of_isRun {name : Text} (h : name.IsRun isNameChar) :
    Markup.IsAttributeName name :=
  ⟨h.1, fun c hc ↦ isAttributeChar_of_isNameChar (h.2 c hc)⟩

end Attribute

namespace ElementKey

theorem isTag_parse {key : Text} (h : (parse key).tag ≠ []) : Markup.IsTag (parse key).tag :=
  ⟨h, (isNamed_parse key).tag⟩

theorem isAttributeName_of_mem_attributes (key : Text) :
    ∀ a ∈ (parse key).attributes, Markup.IsAttributeName a.name :=
  fun a ha ↦ Attribute.isAttributeName_of_isRun (isRun_of_mem_attributes key a ha)

theorem name_or_mem_of_mem_written {k : ElementKey} {a : Attribute} (h : a ∈ k.written) :
    a.name = "id".toList ∨ a.name = "class".toList ∨ a ∈ k.attributes := by
  simp only [written, List.mem_append] at h
  rcases h with (h | h) | h
  · obtain ⟨id, -, rfl⟩ := Option.map_eq_some_iff.1 (Option.mem_toList.1 h)
    exact .inl rfl
  · split at h
    · cases h
    · rw [List.mem_singleton.1 h]
      exact .inr (.inl rfl)
  · exact .inr (.inr (List.mem_filter.1 h).1)

theorem isAttributeName_of_mem_written (key : Text) :
    ∀ a ∈ (parse key).written, Markup.IsAttributeName a.name := by
  intro a ha
  rcases name_or_mem_of_mem_written ha with h | h | h
  · rw [h]
    decide
  · rw [h]
    decide
  · exact isAttributeName_of_mem_attributes key a h

end ElementKey

end TreeMarkup
