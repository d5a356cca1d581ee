import TreeMarkup.Proofs.AttributeReading
import TreeMarkup.Proofs.EscapedMarkup

namespace TreeMarkup.Markup

/-- The text with its entities replaced by their characters, from left to right. A character that
comes out of an entity is not read again, and an ampersand that begins no entity stays. -/
def unescape : Text → Text
  | [] => []
  | c :: s =>
    match _h : entity? (c :: s) with
    | some (d, r) => d :: unescape r
    | none => c :: unescape s
termination_by s => s.length
decreasing_by
  · exact length_lt_of_entity? _h
  · exact Nat.lt_succ_self _

/-- Escaped texts hold none of the characters `holes`, and no ampersand but at the entity of a
character, with escaped texts on both sides of it; reading their entities gives the texts back. -/
structure IsReversible (holes : List Char) (escape : Text → Text) : Prop where
  closed : ∀ s, ∀ c ∈ holes, c ∉ escape s
  ampersand : ∀ s u v, escape s = u ++ '&' :: v →
    ∃ s₁ c s₂, s = s₁ ++ c :: s₂ ∧ (escape [c], c) ∈ entities ∧
      u = escape s₁ ∧ '&' :: v = escape [c] ++ escape s₂
  unescape_escape : ∀ s, unescape (escape s) = s
  injective : Function.Injective escape

section Unescaping

variable {s : Text} {c : Char}

theorem entity?_of_ne (hc : c ≠ '&') : entity? (c :: s) = none := by
  rw [Option.eq_none_iff_forall_ne_some]
  rintro ⟨d, r⟩ h
  obtain ⟨e, he, -, hs⟩ := exists_entity_of_entity? h
  obtain ⟨t, ht⟩ := head_of_mem_entities he
  rw [ht] at hs
  exact hc (List.cons.inj hs).1

theorem unescape_of_entity? {r : Text} {d : Char} (h : entity? s = some (d, r)) :
    unescape s = d :: unescape r := by
  cases s with
  | nil => cases h
  | cons c s =>
    rw [unescape]
    split
    · rename_i h'
      rw [h] at h'
      cases h'
      rfl
    · rename_i h'
      rw [h] at h'
      cases h'

theorem unescape_cons_of_ne (hc : c ≠ '&') : unescape (c :: s) = c :: unescape s := by
  rw [unescape]
  split
  · rename_i h
    rw [entity?_of_ne hc] at h
    cases h
  · rfl

theorem unescape_of_encodes {plain : Char → Bool} (hp : plain '&' = false) {t : Text}
    (h : Encodes plain s t) : unescape s = t := by
  induction h with
  | nil => rw [unescape]
  | @char c s t hc h ih =>
    have hne : c ≠ '&' := by
      rintro rfl
      rw [hp] at hc
      cases hc
    rw [unescape_cons_of_ne hne, ih]
  | entity he h ih => rw [unescape_of_entity? (entity?_append he _), ih]

example : unescape "&amp;lt; &#39;" = "&lt; '" := by decide +kernel

end Unescaping

section Escaping

variable {plain : Char → Bool} {f : Char → Text}

theorem eq_nil_of_ampersand (hf : Escapes plain f) (hp : plain '&' = false) {c : Char} {u v : Text}
    (h : f c = u ++ '&' :: v) : u = [] ∧ (f c, c) ∈ entities := by
  rcases hf c with ⟨hc, he⟩ | he
  · have hm : '&' ∈ [c] := by
      rw [← he, h]
      exact List.mem_append_right u List.mem_cons_self
    rw [List.mem_singleton.1 hm] at hp
    rw [hp] at hc
    cases hc
  · refine ⟨?_, he⟩
    obtain ⟨t, ht, htext⟩ := exists_tail_of_mem_entities he
    dsimp only at ht
    cases u with
    | nil => rfl
    | cons d u =>
      rw [ht, List.cons_append] at h
      have hm : '&' ∈ t := by
        rw [(List.cons.inj h).2]
        exact List.mem_append_right u List.mem_cons_self
      exact absurd (htext _ hm) (by decide)

theorem exists_of_ampersand (hf : Escapes plain f) (hp : plain '&' = false) {s : Text} :
    ∀ {u v : Text}, s.flatMap f = u ++ '&' :: v →
      ∃ s₁ c s₂, s = s₁ ++ c :: s₂ ∧ (f c, c) ∈ entities ∧
        u = s₁.flatMap f ∧ '&' :: v = f c ++ s₂.flatMap f := by
  induction s with
  | nil =>
    intro u v h
    cases u <;> cases h
  | cons c s ih =>
    have skip : ∀ {u v : Text}, s.flatMap f = u ++ '&' :: v →
        ∃ s₁ d s₂, c :: s = s₁ ++ d :: s₂ ∧ (f d, d) ∈ entities ∧
          f c ++ u = s₁.flatMap f ∧ '&' :: v = f d ++ s₂.flatMap f := by
      intro u v h
      obtain ⟨s₁, d, s₂, rfl, hd, rfl, hv⟩ := ih h
      exact ⟨c :: s₁, d, s₂, rfl, hd, rfl, hv⟩
    intro u v h
    rw [List.flatMap_cons, List.append_eq_append_iff] at h
    -- The ampersand stands behind what is written for `c`, or in it.
    rcases h with ⟨a, rfl, hs⟩ | ⟨a, hc, hv⟩
    · exact skip hs
    · cases a with
      | nil =>
        rw [List.append_nil] at hc
        have := skip (u := []) hv.symm
        rwa [hc, List.append_nil] at this
      | cons d a =>
        obtain ⟨rfl, ha⟩ := List.cons.inj hv
        obtain ⟨rfl, he⟩ := eq_nil_of_ampersand hf hp hc
        exact ⟨[], c, s, rfl, he, rfl, by rw [hc, ha]; rfl⟩

theorem isReversible_flatMap (hf : Escapes plain f) (hp : plain '&' = false) {holes : List Char}
    (hh : ∀ c ∈ holes, plain c = false ∧ c ≠ '&' ∧ isTextChar c = false) :
    IsReversible holes (List.flatMap f) where
  closed s c hc hm := by
    obtain ⟨h₁, h₂, h₃⟩ := hh c hc
    rcases mem_cases_of_encodes (encodes_flatMap hf s) hm with h | h | h
    · rw [h₁] at h
      cases h
    · exact h₂ h
    · rw [h₃] at h
      cases h
  ampersand s u v h := by
    simpa only [List.flatMap_singleton] using exists_of_ampersand hf hp h
  unescape_escape s := unescape_of_encodes hp (encodes_flatMap hf s)
  injective := Function.LeftInverse.injective fun s ↦
    unescape_of_encodes hp (encodes_flatMap hf s)

end Escaping

/-- Both escapings close their holes and are undone by the same reader. -/
theorem escapings_are_reversible :
    IsReversible ['<', '>', '"', '\''] escapeText ∧ IsReversible ['<', '>', '"'] escapeAttribute :=
  ⟨isReversible_flatMap escapes_escapeTextChar (by decide) (by simp [isTextChar]),
    isReversible_flatMap escapes_escapeAttributeChar (by decide) (by simp [isValueChar, isTextChar])⟩

end TreeMarkup.Markup
