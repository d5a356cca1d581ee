import TreeMarkup.Proofs.DeclarationForms

namespace TreeMarkup.Declaration

open Attribute (isQuote)

/-- `Unescapes s t`: reading `s` from left to right, a backslash before a quote is left out of `t`. -/
inductive Unescapes : Text → Text → Prop
  | nil : Unescapes [] []
  | escaped {quote : Char} {s t : Text} (hq : isQuote quote = true) (h : Unescapes s t) :
      Unescapes ('\\' :: quote :: s) (quote :: t)
  | other {c : Char} {s t : Text} (hc : c = '\\' → ∀ d ∈ s.head?, isQuote d = false)
      (h : Unescapes s t) : Unescapes (c :: s) (c :: t)

def IsPaired (t : Text) : Prop :=
  ∃ quote inner, isQuote quote = true ∧ t = quote :: inner ++ [quote]

def collapse (t : Text) : Text := if t = "\"\"".toList ∨ t = "''".toList then [] else t

/-- `IsContentOf r content`: what stands behind a separator means this content. -/
inductive IsContentOf : Text → Text → Prop
  | paired {quote : Char} {inner t : Text} (hq : isQuote quote = true) (h : Unescapes inner t) :
      IsContentOf (quote :: inner ++ [quote]) (collapse t)
  | unpaired {r : Text} (h : ¬IsPaired r) : IsContentOf r r

section

variable {s t : Text} {c quote : Char}

theorem unescapeQuotes_other (hc : c = '\\' → ∀ d ∈ t.head?, isQuote d = false) :
    unescapeQuotes (c :: t) = c :: unescapeQuotes t := by
  by_cases h : c = '\\'
  · exact unescapeQuotes_cons (hc h)
  · rw [unescapeQuotes]
    · intro r hr
      exact absurd hr h
    · intro r hr
      exact absurd hr h

theorem unescapes_unescapeQuotes (t : Text) : Unescapes t (unescapeQuotes t) := by
  fun_induction unescapeQuotes t with
  | case1 r ih => exact .escaped rfl ih
  | case2 r ih => exact .escaped rfl ih
  | case3 c r hd hs ih => exact .other (isQuote_of_not_escaped hd hs) ih
  | case4 => exact .nil

theorem unescapes_iff : Unescapes s t ↔ t = unescapeQuotes s := by
  constructor
  · intro h
    induction h with
    | nil => rfl
    | escaped hq h ih => rw [unescapeQuotes_escaped hq, ih]
    | other hc h ih => rw [unescapeQuotes_other hc, ih]
  · intro h
    rw [h]
    exact unescapes_unescapeQuotes s

theorem length_of_isPaired (h : IsPaired t) : 2 ≤ t.length := by
  obtain ⟨quote, inner, -, rfl⟩ := h
  simp

theorem isEnclosed_iff :
    isEnclosed quote t = true ↔ t = [quote] ∨ ∃ inner, t = quote :: inner ++ [quote] := by
  constructor
  · intro h
    simp only [isEnclosed, Bool.and_eq_true, decide_eq_true_eq] at h
    obtain ⟨u, rfl⟩ := List.head?_eq_some_iff.1 h.1
    rcases List.eq_nil_or_concat u with rfl | ⟨inner, d, rfl⟩
    · exact .inl rfl
    · rw [List.concat_eq_append, ← List.cons_append, List.getLast?_concat] at h
      exact .inr ⟨inner, by rw [Option.some.inj h.2]; simp⟩
  · intro h
    rcases h with rfl | ⟨inner, rfl⟩
    · simp [isEnclosed]
    · exact isEnclosed_concat quote inner

theorem quotedContent_eq (t : Text) : quotedContent t = collapse (unquote t) := by
  simp [quotedContent, collapse]

theorem quotedContent_paired (hq : isQuote quote = true) (inner : Text) :
    quotedContent (quote :: inner ++ [quote]) = collapse (unescapeQuotes inner) := by
  rw [quotedContent_eq, unquote_enclosed hq]

theorem quotedContent_lone (hq : isQuote quote = true) : quotedContent [quote] = [] := by
  rcases eq_or_eq_of_isQuote hq with rfl | rfl <;> rfl

theorem quotedContent_unpaired (h : ¬IsPaired t) (hl : 2 ≤ t.length) : quotedContent t = t := by
  have hne (quote : Char) (hq : isQuote quote = true) : isEnclosed quote t = false := by
    rw [Bool.eq_false_iff, ne_eq, isEnclosed_iff]
    intro he
    rcases he with rfl | ⟨inner, he⟩
    · simp at hl
    · exact h ⟨quote, inner, hq, he⟩
  have hd : t ≠ "\"\"".toList := fun he ↦ h ⟨'"', [], rfl, he⟩
  have hs : t ≠ "''".toList := fun he ↦ h ⟨'\'', [], rfl, he⟩
  rw [quotedContent_eq, unquote, hne '"' rfl, hne '\'' rfl]
  exact if_neg (not_or.2 ⟨hd, hs⟩)

theorem isContentOf_iff_of_paired (hp : IsPaired t) {content : Text} :
    IsContentOf t content ↔ content = quotedContent t := by
  constructor
  · intro h
    cases h with
    | paired hq h => rw [quotedContent_paired hq, unescapes_iff.1 h]
    | unpaired hn => exact absurd hp hn
  · intro h
    obtain ⟨quote, inner, hq, rfl⟩ := hp
    rw [h, quotedContent_paired hq]
    exact .paired hq (unescapes_unescapeQuotes inner)

theorem isContentOf_iff_of_not_paired (hp : ¬IsPaired t) {content : Text} :
    IsContentOf t content ↔ content = t := by
  constructor
  · intro h
    cases h with
    | paired hq h => exact absurd ⟨_, _, hq, rfl⟩ hp
    | unpaired hn => rfl
  · intro h
    rw [h]
    exact .unpaired hp

theorem quotedContent_eq_iff (hq : ∃ quote u, isQuote quote = true ∧ t = quote :: u) :
    ∃ claimed, (∀ content, IsContentOf t content ↔ content = claimed) ∧
      (quotedContent t = claimed ↔ 2 ≤ t.length) := by
  by_cases hp : IsPaired t
  · refine ⟨quotedContent t, fun content ↦ isContentOf_iff_of_paired hp, ?_⟩
    exact iff_of_true rfl (length_of_isPaired hp)
  · refine ⟨t, fun content ↦ isContentOf_iff_of_not_paired hp, ?_, quotedContent_unpaired hp⟩
    intro h
    obtain ⟨quote, u, hq, rfl⟩ := hq
    cases u with
    | nil =>
      rw [quotedContent_lone hq] at h
      cases h
    | cons c u => simp

end

theorem exists_quote_of_isFirstSeparator {t : Text} {i : ℕ} (h : IsFirstSeparator t i) :
    ∃ quote u, isQuote quote = true ∧ t.drop (i + 2) = quote :: u := by
  obtain ⟨quote, hq, u, hu⟩ := h.here
  refine ⟨quote, u, hq, ?_⟩
  rw [← List.drop_drop, ← hu]
  rfl

/-- A text that is cut at a quoted separator gets the content that stands behind it, but for a single
quote, which is taken for a pair. -/
theorem ofText?_content_iff {t : Text} (hl : t.getLast? ≠ some ':') (hs : HasSeparator t) :
    ∃ i content claimed, IsFirstSeparator t i ∧ ofText? t = some ⟨t.take i, some content⟩ ∧
      (∀ c, IsContentOf (t.drop (i + 2)) c ↔ c = claimed) ∧
      (content = claimed ↔ 2 ≤ (t.drop (i + 2)).length) := by
  obtain ⟨i, hi, ht⟩ := ofText?_of_separator hl hs
  obtain ⟨claimed, hc, he⟩ := quotedContent_eq_iff (exists_quote_of_isFirstSeparator hi)
  exact ⟨i, _, claimed, hi, ht, hc, he⟩

theorem ofText?_content_backslashes :
    let t : Text := "p: '\\\"\\'\\\\\"'"
    t.getLast? ≠ some ':' ∧ HasSeparator t ∧ ofText? t = some ⟨"p", some "\"'\\\""⟩ ∧
      ∃ i content claimed, IsFirstSeparator t i ∧ ofText? t = some ⟨t.take i, some content⟩ ∧
        (∀ c, IsContentOf (t.drop (i + 2)) c ↔ c = claimed) ∧
        (content = claimed ↔ 2 ≤ (t.drop (i + 2)).length) := by
  intro t
  have hl : t.getLast? ≠ some ':' := by decide
  have hs : HasSeparator t := by decide
  exact ⟨hl, hs, by decide, ofText?_content_iff hl hs⟩

theorem lone_quote_is_dropped :
    IsFirstSeparator "p: \"" 1 ∧ ¬IsPaired ("p: \"".toList.drop 3) ∧
      IsContentOf ("p: \"".toList.drop 3) "\"" ∧ ofText? "p: \"" = some ⟨"p", some []⟩ := by
  have hp : ¬IsPaired ['"'] := by
    intro h
    have := length_of_isPaired h
    simp at this
  refine ⟨⟨⟨'"', rfl, [], rfl⟩, ?_⟩, hp, .unpaired hp, by decide⟩
  intro j hj ⟨quote, hq, h⟩
  obtain rfl : j = 0 := by omega
  simp at h

end TreeMarkup.Declaration
