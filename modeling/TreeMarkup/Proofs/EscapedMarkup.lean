import TreeMarkup.Proofs.MarkupGrammar

namespace TreeMarkup.Markup

/-- Plain characters are written as themselves, and all others as their entities. -/
def Escapes (plain : Char → Bool) (f : Char → Text) : Prop :=
  ∀ c, (plain c = true ∧ f c = [c]) ∨ (f c, c) ∈ entities

theorem escapes_escapeTextChar : Escapes isTextChar escapeTextChar := by
  intro c
  unfold escapeTextChar
  split
  · exact .inr (by decide)
  · exact .inr (by decide)
  · exact .inr (by decide)
  · exact .inr (by decide)
  · exact .inr (by decide)
  · rename_i h₁ h₂ h₃ h₄ h₅
    refine .inl ⟨?_, rfl⟩
    simp only [isTextChar, List.contains_cons, List.contains_nil, Bool.or_false, Bool.not_eq_true',
      Bool.or_eq_false_iff, beq_eq_false_iff_ne]
    exact ⟨h₂, h₃, h₁, h₄, h₅⟩

theorem escapes_escapeAttributeChar : Escapes isValueChar escapeAttributeChar := by
  intro c
  unfold escapeAttributeChar
  split
  · exact .inl ⟨by decide, rfl⟩
  · exact (escapes_escapeTextChar c).imp_left fun h ↦ ⟨by simp [isValueChar, h.1], h.2⟩

theorem encodes_flatMap {plain : Char → Bool} {f : Char → Text} (hf : Escapes plain f) (t : Text) :
    Encodes plain (t.flatMap f) t := by
  induction t with
  | nil => exact .nil
  | cons c t ih =>
    rw [List.flatMap_cons]
    rcases hf c with ⟨hc, he⟩ | he
    · rw [he]
      exact .char hc ih
    · exact .entity he ih

theorem encodes_escapeText (t : Text) : Encodes isTextChar (escapeText t) t :=
  encodes_flatMap escapes_escapeTextChar t

theorem encodes_escapeAttribute (t : Text) : Encodes isValueChar (escapeAttribute t) t :=
  encodes_flatMap escapes_escapeAttributeChar t

theorem writesForest_append_of_encodes {s t u : Text} {items : List Item}
    (h : Encodes isTextChar s t) (hu : WritesForest u items) :
    WritesForest (s ++ u) (addText t items) := by
  induction h with
  | nil => rwa [addText_nil]
  | @char c s t hc h ih =>
    rw [show c :: t = [c] ++ t from rfl, addText_append]
    exact .char hc ih
  | @entity e s t he h ih =>
    rw [show e.2 :: t = [e.2] ++ t from rfl, addText_append, List.append_assoc]
    exact .entity he ih

theorem writesAttributes_writeAll {as : List Attribute} (h : ∀ a ∈ as, IsAttributeName a.name) :
    WritesAttributes (Attribute.writeAll as) as := by
  induction as with
  | nil => exact .nil
  | cons a as ih =>
    rw [List.forall_mem_cons] at h
    obtain ⟨name, value⟩ := a
    rw [Attribute.writeAll, List.flatMap_cons]
    cases value with
    | none => exact .bare h.1 (ih h.2)
    | some value =>
      have hv := WritesAttributes.valued h.1 (encodes_escapeAttribute value) (ih h.2)
      simpa [Attribute.write, Attribute.writeAll] using hv

end TreeMarkup.Markup
