import TreeMarkup.Proofs.AttributeReading

namespace TreeMarkup.Markup

theorem doctypeDeclaration_eq :
    doctypeDeclaration = '<' :: '!' :: doctypeDeclaration.drop 2 := by
  decide

theorem dropPrefix?_doctype_of_ne {c : Char} {s : Text} (hc : c ≠ '<') :
    (c :: s).dropPrefix? doctypeDeclaration = none := by
  rw [doctypeDeclaration_eq, List.dropPrefix?, beq_false_of_ne hc]
  rfl

theorem dropPrefix?_doctype_of_tag {c : Char} {s : Text} (hc : c ≠ '!') :
    ('<' :: c :: s).dropPrefix? doctypeDeclaration = none := by
  rw [doctypeDeclaration_eq, List.dropPrefix?, List.dropPrefix?, beq_false_of_ne hc]
  rfl

theorem sign?_of_ne {c : Char} {s : Text} (hc : c ≠ '<') :
    sign? (c :: s) = (decodeChar? isTextChar (c :: s)).map fun (c, r) ↦ (.char c, r) := by
  unfold sign?
  rw [dropPrefix?_doctype_of_ne hc]
  dsimp only
  split
  · rename_i he
    cases he
    exact absurd rfl hc
  · rfl

theorem sign?_char {c : Char} (hc : isTextChar c = true) (s : Text) :
    sign? (c :: s) = some (.char c, s) := by
  have hne : c ≠ '<' := by
    rintro rfl
    exact absurd hc (by decide)
  rw [sign?_of_ne hne, decodeChar?_of_plain hc]
  rfl

theorem sign?_entity {e : Text × Char} (he : e ∈ entities) (s : Text) :
    sign? (e.1 ++ s) = some (.char e.2, s) := by
  have hp : isTextChar '&' = false := by decide
  have hd := decodeChar?_of_entity hp he s
  obtain ⟨t, ht⟩ := head_of_mem_entities he
  rw [ht, List.cons_append] at hd ⊢
  rw [sign?_of_ne (by decide), hd]
  rfl

theorem sign?_doctype (s : Text) : sign? (doctypeDeclaration ++ s) = some (.doctype, s) := by
  unfold sign?
  rw [dropPrefix?_append]

theorem sign?_opening {tag a : Text} {as : List Attribute} (ht : IsTag tag)
    (ha : WritesAttributes a as) (s : Text) :
    sign? ('<' :: tag ++ a ++ '>' :: s) = some (.opening tag as, s) := by
  have hr : ∀ c ∈ (a ++ '>' :: s).head?, ElementKey.isTagChar c = false := by
    cases ha <;> rintro c ⟨⟩ <;> decide
  have ho : opening? (tag ++ (a ++ '>' :: s)) = some (.opening tag as, s) := by
    rw [opening?, Text.takeWhile_append ht.2 hr, Text.dropWhile_append ht.2 hr, if_neg ht.1,
      attributes?_of_writes ha]
    rfl
  obtain ⟨c, t, rfl⟩ := List.exists_cons_of_ne_nil ht.1
  have hc : c ≠ '!' := by
    rintro rfl
    exact absurd (ht.2 '!' List.mem_cons_self) (by decide)
  simp only [List.cons_append, List.append_assoc] at ho ⊢
  unfold sign?
  rw [dropPrefix?_doctype_of_tag hc]
  exact ho

theorem isEnd_of_sign? {s r : Text} {σ : Sign} (h : sign? s = some (σ, r)) : isEnd s = false := by
  unfold isEnd
  split
  · cases h
  · unfold sign? at h
    rw [dropPrefix?_doctype_of_tag (by decide)] at h
    cases h
  · rfl

theorem writes_of_sign? {s r : Text} {σ : Sign} (h : sign? s = some (σ, r)) :
    (∃ c, σ = .char c ∧
        ((isTextChar c = true ∧ s = c :: r) ∨ ∃ e ∈ entities, e.2 = c ∧ s = e.1 ++ r)) ∨
      (σ = .doctype ∧ s = doctypeDeclaration ++ r) ∨
      ∃ tag a as, σ = .opening tag as ∧ IsTag tag ∧ WritesAttributes a as ∧
        s = '<' :: tag ++ a ++ '>' :: r := by
  unfold sign? at h
  split at h
  · rename_i hd
    cases h
    exact .inr (.inl ⟨rfl, eq_append_of_dropPrefix? hd⟩)
  · split at h
    · rename_i q _
      unfold opening? at h
      split at h
      · cases h
      · rename_i hne
        obtain ⟨⟨as, r'⟩, ha, he⟩ := Option.map_eq_some_iff.1 h
        cases he
        obtain ⟨a, hd, hw⟩ := writes_of_attributes? ha
        have hq := List.takeWhile_append_dropWhile (p := ElementKey.isTagChar) (l := q)
        refine .inr (.inr ⟨_, a, as, rfl, ⟨hne, fun c hc ↦ List.mem_takeWhile_imp hc⟩, hw, ?_⟩)
        rw [List.cons_append, List.cons_append, List.append_assoc, ← hd, hq]
    · obtain ⟨⟨c, r'⟩, hc, he⟩ := Option.map_eq_some_iff.1 h
      cases he
      exact .inl ⟨c, rfl, mem_cases_of_decodeChar? hc⟩

section
variable {s r : Text} (n : Nat)

theorem readWithin_char {c : Char} (h : sign? s = some (.char c, r)) :
    readWithin (n + 1) s = (readWithin n r).map fun (items, r) ↦ (addText [c] items, r) := by
  simp only [readWithin, isEnd_of_sign? h, h, Bool.false_eq_true, if_false]

theorem readWithin_doctype (h : sign? s = some (.doctype, r)) :
    readWithin (n + 1) s =
      (readWithin n r).map fun (items, r) ↦ (.aside .doctype "html" :: items, r) := by
  simp only [readWithin, isEnd_of_sign? h, h, Bool.false_eq_true, if_false]

theorem readWithin_void {tag : Text} {as : List Attribute} (hv : isVoid tag = true)
    (h : sign? s = some (.opening tag as, r)) :
    readWithin (n + 1) s =
      (readWithin n r).map fun (items, r) ↦ (.element tag as [] :: items, r) := by
  simp only [readWithin, isEnd_of_sign? h, h, Bool.false_eq_true, if_false, hv, if_true]

theorem readWithin_element {tag : Text} {as : List Attribute} (hv : isVoid tag = false)
    (h : sign? s = some (.opening tag as, r)) :
    readWithin (n + 1) s = do
      let (children, r) ← readWithin n r
      let r ← r.dropPrefix? (Part.closing tag)
      let (items, r) ← readWithin n r
      return (.element tag as children :: items, r) := by
  simp only [readWithin, isEnd_of_sign? h, h, Bool.false_eq_true, if_false, hv]

end

/-- The reader reads what the grammar writes, up to the end of the forest. -/
theorem readWithin_of_writesForest {s : Text} {items : List Item} (h : WritesForest s items) :
    ∀ {r : Text} {n : Nat}, isEnd r = true → s.length < n →
      readWithin n (s ++ r) = some (items, r) := by
  induction h with
  | nil =>
    rintro r (_ | n) hr hn
    · cases hn
    · rw [List.nil_append, readWithin, if_pos hr]
  | char hc h ih =>
    rintro r (_ | n) hr hn
    · cases hn
    · rw [List.cons_append, readWithin_char n (sign?_char hc _),
        ih hr (by simpa using hn)]
      rfl
  | @entity e s items he h ih =>
    rintro r (_ | n) hr hn
    · cases hn
    · obtain ⟨t, ht⟩ := head_of_mem_entities he
      rw [ht] at hn
      simp only [List.length_append, List.length_cons] at hn
      rw [List.append_assoc, readWithin_char n (sign?_entity he _), ih hr (by omega)]
      rfl
  | @doctype s items h ih =>
    rintro r (_ | n) hr hn
    · cases hn
    · rw [doctypeDeclaration_eq] at hn
      simp only [List.length_append, List.length_cons] at hn
      rw [List.append_assoc, readWithin_doctype n (sign?_doctype _), ih hr (by omega)]
      rfl
  | @void tag a s as items ht hv ha h ih =>
    rintro r (_ | n) hr hn
    · cases hn
    · have hs := sign?_opening ht ha (s ++ r)
      simp only [List.length_append, List.length_cons] at hn
      simp only [List.cons_append, List.append_assoc] at hs ⊢
      rw [readWithin_void n hv hs, ih hr (by omega)]
      rfl
  | @element tag a b s as children items ht hv ha hb h ihb ih =>
    rintro r (_ | n) hr hn
    · cases hn
    · have hs := sign?_opening ht ha (b ++ (Part.closing tag ++ (s ++ r)))
      have hc : isEnd (Part.closing tag ++ (s ++ r)) = true := rfl
      simp only [List.length_append, List.length_cons] at hn
      have hb := ihb hc (n := n) (by omega)
      have hd := dropPrefix?_append (Part.closing tag) (s ++ r)
      simp only [Part.closing, List.cons_append, List.append_assoc, List.nil_append] at hs hb hd ⊢
      rw [readWithin_element n hv hs, hb]
      simp only [Part.closing, List.cons_append, Option.bind_eq_bind, Option.bind_some, hd,
        ih hr (show s.length < n by omega)]
      rfl

theorem exists_of_map_readWithin {n : Nat} {s r : Text} {items : List Item}
    {f : List Item → List Item}
    (h : ((readWithin n s).map fun (items, r) ↦ (f items, r)) = some (items, r)) :
    ∃ rest, readWithin n s = some (rest, r) ∧ f rest = items := by
  obtain ⟨⟨rest, r'⟩, hr, hi⟩ := Option.map_eq_some_iff.1 h
  cases hi
  exact ⟨rest, hr, rfl⟩

/-- The reader reads nothing that the grammar does not write. -/
theorem writesForest_of_readWithin {n : Nat} :
    ∀ {s r : Text} {items : List Item}, readWithin n s = some (items, r) →
      ∃ u, s = u ++ r ∧ WritesForest u items := by
  induction n with
  | zero => intro s r items h; cases h
  | succ n ih =>
    intro s r items h
    by_cases he : isEnd s = true
    · rw [readWithin, if_pos he] at h
      cases h
      exact ⟨[], rfl, .nil⟩
    · cases hs : sign? s with
      | none => simp [readWithin, he, hs] at h
      | some σ =>
        obtain ⟨σ, q⟩ := σ
        rcases writes_of_sign? hs with ⟨c, rfl, hc⟩ | ⟨rfl, rfl⟩ | ⟨tag, a, as, rfl, ht, ha, rfl⟩
        · rw [readWithin_char n hs] at h
          obtain ⟨rest, hr, rfl⟩ := exists_of_map_readWithin h
          obtain ⟨u, rfl, hu⟩ := ih hr
          rcases hc with ⟨hc, rfl⟩ | ⟨e, hm, rfl, rfl⟩
          · exact ⟨c :: u, rfl, .char hc hu⟩
          · exact ⟨e.1 ++ u, (List.append_assoc ..).symm, .entity hm hu⟩
        · rw [readWithin_doctype n hs] at h
          obtain ⟨rest, hr, rfl⟩ := exists_of_map_readWithin h
          obtain ⟨u, rfl, hu⟩ := ih hr
          exact ⟨doctypeDeclaration ++ u, (List.append_assoc ..).symm, .doctype hu⟩
        · by_cases hv : isVoid tag = true
          · rw [readWithin_void n hv hs] at h
            obtain ⟨rest, hr, rfl⟩ := exists_of_map_readWithin h
            obtain ⟨u, rfl, hu⟩ := ih hr
            exact ⟨'<' :: tag ++ a ++ '>' :: u, by simp, .void ht hv ha hu⟩
          · have hv := Bool.eq_false_iff.2 hv
            rw [readWithin_element n hv hs] at h
            obtain ⟨⟨children, q₁⟩, hc, h⟩ := Option.bind_eq_some_iff.1 h
            obtain ⟨q₂, hd, h⟩ := Option.bind_eq_some_iff.1 h
            obtain ⟨⟨rest, r'⟩, hr, hi⟩ := Option.bind_eq_some_iff.1 h
            cases hi
            obtain ⟨b, rfl, hb⟩ := ih hc
            obtain ⟨u, rfl, hu⟩ := ih hr
            refine ⟨_, ?_, .element ht hv ha hb hu⟩
            rw [eq_append_of_dropPrefix? hd]
            simp [Part.closing]

/-- A text is read as a forest exactly if it is the markup of that forest. -/
theorem read?_eq_some_iff {s : Text} {items : List Item} :
    read? s = some items ↔ WritesForest s items := by
  unfold read?
  constructor
  · intro h
    split at h
    · rename_i hr
      cases h
      obtain ⟨u, rfl, hu⟩ := writesForest_of_readWithin hr
      rwa [List.append_nil]
    · cases h
  · intro h
    have hr := readWithin_of_writesForest h (r := []) rfl (Nat.lt_succ_self _)
    rw [List.append_nil] at hr
    rw [hr]

end TreeMarkup.Markup
