import Mathlib.Data.List.TakeWhile
import TreeMarkup.Proofs.MarkupReader

namespace TreeMarkup.Markup

theorem mem_cases_of_decodeChar? {plain : Char → Bool} {s r : Text} {c : Char}
    (h : decodeChar? plain s = some (c, r)) :
    (plain c = true ∧ s = c :: r) ∨ ∃ e ∈ entities, e.2 = c ∧ s = e.1 ++ r := by
  cases s with
  | nil => cases h
  | cons d s =>
    rw [decodeChar?] at h
    split at h
    · rename_i hd
      cases h
      exact .inl ⟨hd, rfl⟩
    · exact .inr (exists_entity_of_entity? h)

theorem decodeChar?_of_plain {plain : Char → Bool} {c : Char} (hc : plain c = true) (s : Text) :
    decodeChar? plain (c :: s) = some (c, s) := by
  rw [decodeChar?, if_pos hc]

theorem decodeChar?_of_entity {plain : Char → Bool} (hp : plain '&' = false) {e : Text × Char}
    (he : e ∈ entities) (s : Text) : decodeChar? plain (e.1 ++ s) = some (e.2, s) := by
  have h := entity?_append he s
  obtain ⟨t, ht⟩ := head_of_mem_entities he
  rw [ht] at h ⊢
  rw [List.cons_append, decodeChar?, hp]
  exact h

theorem decode?_of_decodeChar? {plain : Char → Bool} {s r : Text} {c : Char}
    (h : decodeChar? plain s = some (c, r)) : decode? plain s = (decode? plain r).map (c :: ·) := by
  rw [decode?]
  split
  · rename_i hd
    rw [h] at hd
    cases hd
    rfl
  · rename_i hd
    rw [h] at hd
    cases hd

theorem decode?_of_encodes {plain : Char → Bool} (hp : plain '&' = false) {s t : Text}
    (h : Encodes plain s t) : decode? plain s = some t := by
  induction h with
  | nil => rw [decode?]; rfl
  | char hc h ih => rw [decode?_of_decodeChar? (decodeChar?_of_plain hc _), ih]; rfl
  | entity he h ih => rw [decode?_of_decodeChar? (decodeChar?_of_entity hp he _), ih]; rfl

theorem encodes_of_decode? {plain : Char → Bool} {s t : Text} (h : decode? plain s = some t) :
    Encodes plain s t := by
  fun_induction decode? plain s generalizing t with
  | case1 s c r hd ih =>
    obtain ⟨u, hu, ht⟩ := Option.map_eq_some_iff.1 h
    cases ht
    rcases mem_cases_of_decodeChar? hd with ⟨hc, rfl⟩ | ⟨e, he, rfl, rfl⟩
    · exact .char hc (ih hu)
    · exact .entity he (ih hu)
  | case2 hd => cases h; exact .nil
  | case3 s hd hs => cases h

theorem quote_not_mem_of_encodes {s t : Text} (h : Encodes isValueChar s t) :
    ∀ c ∈ s, (c != '"') = true := by
  intro c hc
  rw [bne_iff_ne]
  rintro rfl
  rcases mem_cases_of_encodes h hc with hc | hc | hc <;> exact absurd hc (by decide)

theorem attribute?_bare {name s : Text} (hn : IsAttributeName name)
    (hs : ∀ c ∈ s.head?, c = ' ' ∨ c = '>') :
    attribute? (' ' :: name ++ s) = some (⟨name, none⟩, s) := by
  have hr : ∀ c ∈ s.head?, isAttributeChar c = false := by
    intro c hc
    rcases hs c hc with rfl | rfl <;> decide
  have ha : assignment? s = some (none, s) := by
    unfold assignment?
    split
    · rcases hs '=' rfl with h | h <;> cases h
    · rfl
  rw [List.cons_append, attribute?, Text.takeWhile_append hn.2 hr, Text.dropWhile_append hn.2 hr,
    if_neg hn.1, ha]
  rfl

theorem attribute?_valued {name v t s : Text} (hn : IsAttributeName name)
    (hv : Encodes isValueChar v t) :
    attribute? (' ' :: name ++ '=' :: '"' :: v ++ '"' :: s) = some (⟨name, some t⟩, s) := by
  have hr : ∀ c ∈ ('=' :: '"' :: (v ++ '"' :: s)).head?, isAttributeChar c = false := by
    rintro c ⟨⟩
    decide
  have hq : ∀ c ∈ ('"' :: s).head?, (c != '"') = false := by
    rintro c ⟨⟩
    decide
  have hm := quote_not_mem_of_encodes hv
  have ha : assignment? ('=' :: '"' :: (v ++ '"' :: s)) = some (some t, s) := by
    rw [assignment?, Text.dropWhile_append hm hq, Text.takeWhile_append hm hq,
      decode?_of_encodes (by decide) hv]
    rfl
  simp only [List.cons_append, List.append_assoc]
  rw [attribute?, Text.takeWhile_append hn.2 hr, Text.dropWhile_append hn.2 hr, if_neg hn.1, ha]
  rfl

theorem attributes?_of_attribute? {s r : Text} {a : Attribute} (h : attribute? s = some (a, r)) :
    attributes? s = (attributes? r).map fun (as, r) ↦ (a :: as, r) := by
  rw [attributes?]
  split
  · rename_i hd
    rw [h] at hd
    cases hd
    rfl
  · rename_i hd
    rw [h] at hd
    cases hd

theorem attributes?_end (r : Text) : attributes? ('>' :: r) = some ([], r) := by
  rw [attributes?]
  split
  · rename_i h
    cases h
  · rw [show '>' :: r = ['>'] ++ r from rfl, dropPrefix?_append]
    rfl

theorem attributes?_of_writes {s : Text} {as : List Attribute} (h : WritesAttributes s as)
    (r : Text) : attributes? (s ++ '>' :: r) = some (as, r) := by
  induction h with
  | nil => exact attributes?_end r
  | @bare name s as hn h ih =>
    have hs : ∀ c ∈ (s ++ '>' :: r).head?, c = ' ' ∨ c = '>' := by
      cases h <;> rintro c ⟨⟩ <;> simp
    have ha := attribute?_bare hn hs
    rw [← List.append_assoc] at ha
    rw [attributes?_of_attribute? ha, ih]
    rfl
  | @valued name v t s as hn hv h ih =>
    have ha := attribute?_valued (s := s ++ '>' :: r) hn hv
    simp only [List.cons_append, List.append_assoc] at ha ⊢
    rw [attributes?_of_attribute? ha, ih]
    rfl

theorem exists_value_of_assignment? {s r : Text} {v : Option Text}
    (h : assignment? s = some (v, r)) :
    (v = none ∧ s = r) ∨
      ∃ q t, v = some t ∧ s = '=' :: '"' :: q ++ '"' :: r ∧ Encodes isValueChar q t := by
  unfold assignment? at h
  split at h
  · rename_i s
    have hs := List.takeWhile_append_dropWhile (p := (· != '"')) (l := s)
    split at h
    · cases h
    · rename_i c q hq
      have hc : c = '"' := by
        have := List.head?_dropWhile_not (· != '"') s
        rw [hq] at this
        simpa using this
      obtain ⟨t, ht, h⟩ := Option.map_eq_some_iff.1 h
      cases h
      rw [hq, hc] at hs
      exact .inr ⟨_, t, rfl, by rw [List.cons_append, List.cons_append, hs],
        encodes_of_decode? ht⟩
  · cases h
    exact .inl ⟨rfl, rfl⟩

theorem writes_of_attribute? {s r u : Text} {a : Attribute} {as : List Attribute}
    (h : attribute? s = some (a, r)) (hu : WritesAttributes u as) :
    ∃ v, s = v ++ r ∧ WritesAttributes (v ++ u) (a :: as) := by
  unfold attribute? at h
  split at h
  · rename_i s
    split at h
    · cases h
    · rename_i hne
      have hn : IsAttributeName (s.takeWhile isAttributeChar) :=
        ⟨hne, fun c hc ↦ List.mem_takeWhile_imp hc⟩
      have hs := List.takeWhile_append_dropWhile (p := isAttributeChar) (l := s)
      obtain ⟨⟨v, r'⟩, hr, ha⟩ := Option.map_eq_some_iff.1 h
      cases ha
      rcases exists_value_of_assignment? hr with ⟨rfl, hd⟩ | ⟨q, t, rfl, hd, hq⟩
      · refine ⟨' ' :: s.takeWhile isAttributeChar, ?_, .bare hn hu⟩
        rw [List.cons_append, ← hd, hs]
      · refine ⟨' ' :: s.takeWhile isAttributeChar ++ '=' :: '"' :: q ++ ['"'], ?_, ?_⟩
        · simp only [List.cons_append, List.append_assoc, List.nil_append] at hd ⊢
          rw [← hd, hs]
        · simpa using WritesAttributes.valued hn hq hu
  · cases h

theorem writes_of_attributes? {s r : Text} {as : List Attribute} (h : attributes? s = some (as, r)) :
    ∃ u, s = u ++ '>' :: r ∧ WritesAttributes u as := by
  fun_induction attributes? s generalizing as with
  | case1 s a q ha ih =>
    obtain ⟨⟨bs, r'⟩, hb, he⟩ := Option.map_eq_some_iff.1 h
    cases he
    obtain ⟨u, hu, hw⟩ := ih hb
    obtain ⟨v, hv, hvu⟩ := writes_of_attribute? ha hw
    exact ⟨v ++ u, by rw [hv, hu, List.append_assoc], hvu⟩
  | case2 s ha =>
    obtain ⟨q, hq, he⟩ := Option.map_eq_some_iff.1 h
    cases he
    exact ⟨[], (eq_append_of_dropPrefix? hq).trans rfl, .nil⟩

end TreeMarkup.Markup
