import Mathlib.Data.List.Infix
import TreeMarkup.Proofs.StackRendering

namespace TreeMarkup

namespace Declaration

open Attribute (isQuote)

def escapeQuotes (t : Text) : Text := t.flatMap fun c ↦ if isQuote c then ['\\', c] else [c]

def quotedLine (quote : Char) (key content : Text) : Text :=
  key ++ ": ".toList ++ quote :: escapeQuotes content ++ [quote]

theorem eq_or_eq_of_isQuote {c : Char} (h : isQuote c = true) : c = '"' ∨ c = '\'' := by
  simpa [isQuote] using h

theorem escapeQuotes_cons_of_quote {c : Char} (hc : isQuote c = true) (t : Text) :
    escapeQuotes (c :: t) = '\\' :: c :: escapeQuotes t := by
  simp [escapeQuotes, hc]

theorem escapeQuotes_cons_of_not_quote {c : Char} (hc : isQuote c = false) (t : Text) :
    escapeQuotes (c :: t) = c :: escapeQuotes t := by
  simp [escapeQuotes, hc]

/-- A backslash of the content never comes to stand before a quote. -/
theorem isQuote_head?_escapeQuotes (t : Text) : ∀ d ∈ (escapeQuotes t).head?, isQuote d = false := by
  intro d hd
  cases t with
  | nil => cases hd
  | cons c t =>
    cases hc : isQuote c with
    | true =>
      rw [escapeQuotes_cons_of_quote hc] at hd
      cases hd
      rfl
    | false =>
      rw [escapeQuotes_cons_of_not_quote hc] at hd
      cases hd
      exact hc

def unescapeQuotes : Text → Text
  | '\\' :: '"' :: r => '"' :: unescapeQuotes r
  | '\\' :: '\'' :: r => '\'' :: unescapeQuotes r
  | c :: r => c :: unescapeQuotes r
  | [] => []

theorem unescapeQuotes_escaped {c : Char} (hc : isQuote c = true) (t : Text) :
    unescapeQuotes ('\\' :: c :: t) = c :: unescapeQuotes t := by
  rcases eq_or_eq_of_isQuote hc with rfl | rfl <;> rfl

theorem unescapeQuotes_cons {c : Char} {t : Text} (ht : ∀ d ∈ t.head?, isQuote d = false) :
    unescapeQuotes (c :: t) = c :: unescapeQuotes t := by
  rw [unescapeQuotes]
  · rintro r - rfl
    exact absurd (ht '"' rfl) (by decide)
  · rintro r - rfl
    exact absurd (ht '\'' rfl) (by decide)

section

variable {t : Text} {c quote : Char}

theorem isQuote_of_not_escaped (hd : ∀ u, c = '\\' → t = '"' :: u → False)
    (hs : ∀ u, c = '\\' → t = '\'' :: u → False) (hc : c = '\\') :
    ∀ d ∈ t.head?, isQuote d = false := by
  intro d hm
  obtain ⟨u, rfl⟩ := List.head?_eq_some_iff.1 hm
  by_contra hq
  rcases eq_or_eq_of_isQuote (Bool.of_not_eq_false hq) with rfl | rfl
  · exact hd u hc rfl
  · exact hs u hc rfl

theorem unescapeQuote_escaped (hq : quote ≠ '\\') (t : Text) :
    unescapeQuote quote ('\\' :: quote :: t) = quote :: unescapeQuote quote t := by
  rw [unescapeQuote, if_pos ⟨rfl, rfl⟩, unescapeQuote, if_neg (by simp [hq])]

theorem unescapeQuote_cons (h : ¬(c = '\\' ∧ t.head? = some quote)) :
    unescapeQuote quote (c :: t) = c :: unescapeQuote quote t := by
  rw [unescapeQuote, if_neg h]

theorem head?_unescapeQuote (hq : quote ≠ '\\') :
    ∀ d ∈ (unescapeQuote quote t).head?, d = quote ∨ t.head? = some d := by
  intro d hd
  cases t with
  | nil => cases hd
  | cons c t =>
    by_cases h : c = '\\' ∧ t.head? = some quote
    · obtain ⟨rfl, ht⟩ := h
      obtain ⟨u, rfl⟩ := List.head?_eq_some_iff.1 ht
      rw [unescapeQuote_escaped hq] at hd
      cases hd
      exact .inl rfl
    · rw [unescapeQuote_cons h] at hd
      exact .inr hd

/-- The two kinds of quotes may be unescaped one after the other: taking the backslash from a quote of
one kind puts no backslash before a quote of the other. -/
theorem unescapeQuote_unescapeQuote (t : Text) :
    unescapeQuote '\'' (unescapeQuote '"' t) = unescapeQuotes t := by
  fun_induction unescapeQuotes t with
  | case1 r ih =>
    rw [unescapeQuote_escaped (by decide), unescapeQuote_cons (by simp), ih]
  | case2 r ih =>
    have h : unescapeQuote '"' ('\\' :: '\'' :: r) = '\\' :: '\'' :: unescapeQuote '"' r := by
      rw [unescapeQuote_cons (by simp), unescapeQuote_cons (by simp)]
    rw [h, unescapeQuote_escaped (by decide), ih]
  | case3 c r hd hs ih =>
    have hr := isQuote_of_not_escaped hd hs
    have h₁ : ¬(c = '\\' ∧ r.head? = some '"') := by
      intro ⟨hc, h⟩
      exact absurd (hr hc _ h) (by decide)
    have h₂ : ¬(c = '\\' ∧ (unescapeQuote '"' r).head? = some '\'') := by
      intro ⟨hc, h⟩
      rcases head?_unescapeQuote (by decide) _ h with h | h
      · exact absurd h (by decide)
      · exact absurd (hr hc _ h) (by decide)
    rw [unescapeQuote_cons h₁, unescapeQuote_cons h₂, ih]
  | case4 => rfl

end

theorem unescapeQuotes_escapeQuotes (t : Text) : unescapeQuotes (escapeQuotes t) = t := by
  induction t with
  | nil => rfl
  | cons c t ih =>
    cases hc : isQuote c with
    | true => rw [escapeQuotes_cons_of_quote hc, unescapeQuotes_escaped hc, ih]
    | false =>
      rw [escapeQuotes_cons_of_not_quote hc, unescapeQuotes_cons (isQuote_head?_escapeQuotes t), ih]

theorem cutQuoted?_separator {quote : Char} (hq : isQuote quote = true) (t : Text) :
    cutQuoted? (':' :: ' ' :: quote :: t) = some ([], quote :: t) := by
  rcases eq_or_eq_of_isQuote hq with rfl | rfl <;> rfl

theorem cutQuoted?_cons {c : Char} {t : Text}
    (h : ∀ q, isQuote q = true → ¬[':', ' ', q] <+: c :: t) :
    cutQuoted? (c :: t) = (cutQuoted? t).map fun (key, content) ↦ (c :: key, content) := by
  rw [cutQuoted?]
  · intro r hc ht
    exact h '"' rfl ⟨r, by rw [hc, ht]; rfl⟩
  · intro r hc ht
    exact h '\'' rfl ⟨r, by rw [hc, ht]; rfl⟩

/-- Behind a key without separators nothing is cut before the separator that follows it, not even
where the two meet. -/
theorem cutQuoted?_append {key : Text} (hk : ∀ q, isQuote q = true → ¬[':', ' ', q] <:+: key)
    {quote : Char} (hq : isQuote quote = true) (t : Text) :
    cutQuoted? (key ++ ':' :: ' ' :: quote :: t) = some (key, quote :: t) := by
  induction key with
  | nil => exact cutQuoted?_separator hq t
  | cons c key ih =>
    have ht := ih fun q h hi ↦ hk q h (hi.trans (List.suffix_cons c key).isInfix)
    have hc : ∀ q, isQuote q = true → ¬[':', ' ', q] <+: c :: (key ++ ':' :: ' ' :: quote :: t) := by
      intro q h hp
      match key with
      | [] => simp at hp
      | [d] =>
        obtain ⟨-, -, rfl⟩ : ':' = c ∧ ' ' = d ∧ q = ':' := by simpa using hp
        exact absurd h (by decide)
      | d :: e :: key =>
        have hp : [':', ' ', q] <+: [c, d, e] := by simpa using hp
        exact hk q h (hp.trans (List.prefix_append [c, d, e] key)).isInfix
    rw [List.cons_append, cutQuoted?_cons hc, ht]
    rfl

theorem isEnclosed_concat (quote : Char) (t : Text) :
    isEnclosed quote (quote :: t ++ [quote]) = true := by
  rw [isEnclosed, List.getLast?_concat]
  simp

theorem unquote_enclosed {quote : Char} (hq : isQuote quote = true) (t : Text) :
    unquote (quote :: t ++ [quote]) = unescapeQuotes t := by
  have he : (isEnclosed '"' (quote :: t ++ [quote]) || isEnclosed '\'' (quote :: t ++ [quote])) =
      true := by
    rw [Bool.or_eq_true]
    rcases eq_or_eq_of_isQuote hq with rfl | rfl
    · exact .inl (isEnclosed_concat _ t)
    · exact .inr (isEnclosed_concat _ t)
  rw [unquote, if_pos he, List.cons_append, List.drop_succ_cons, List.drop_zero,
    List.dropLast_concat, unescapeQuote_unescapeQuote]

theorem ofText?_quotedLine {quote : Char} (hq : isQuote quote = true) {key content : Text}
    (hk : ∀ q, isQuote q = true → ¬[':', ' ', q] <:+: key)
    (hc : content ≠ "\"\"".toList ∧ content ≠ "''".toList) :
    ofText? (quotedLine quote key content) = some ⟨key, some content⟩ := by
  have hl : (quotedLine quote key content).getLast? ≠ some ':' := by
    rw [quotedLine, List.getLast?_concat]
    rintro ⟨⟩
    exact absurd hq (by decide)
  have hcut : cutQuoted? (quotedLine quote key content) =
      some (key, quote :: escapeQuotes content ++ [quote]) := by
    have h := cutQuoted?_append hk hq (escapeQuotes content ++ [quote])
    simpa [quotedLine] using h
  have hcontent : quotedContent (quote :: escapeQuotes content ++ [quote]) = content := by
    rw [quotedContent, unquote_enclosed hq, unescapeQuotes_escapeQuotes]
    exact if_neg (by simpa using hc)
  rw [ofText?, if_neg hl, hcut]
  simp only [hcontent]

end Declaration

theorem render_declared (options : Options) {t : Text} {d : Declaration}
    (h : Declaration.ofText? t = some d) :
    render options (.text t) =
      render options (.map [(.text d.key, (d.content.map Value.text).getD .null)]) := by
  obtain ⟨key, content⟩ := d
  rw [render_eq_writeAll_pieces, render_eq_writeAll_pieces, Value.parts, h]
  cases content <;> rfl

/-- An element on one line, with its content in quotes of either kind and the quotes in the content
escaped, declares that key and content, and it is rendered as the mapping of the one to the other. -/
theorem render_quotedLine {quote : Char} (hq : quote = '"' ∨ quote = '\'') {key content : Text}
    (hd : ¬": \"".toList <:+: key) (hs : ¬": '".toList <:+: key)
    (hc : content ≠ "\"\"".toList ∧ content ≠ "''".toList) :
    Declaration.ofText? (Declaration.quotedLine quote key content) = some ⟨key, some content⟩ ∧
      ∀ options, render options (.text (Declaration.quotedLine quote key content)) =
        render options (.map [(.text key, .text content)]) := by
  have hq : Attribute.isQuote quote = true := by
    rcases hq with rfl | rfl <;> rfl
  have hk : ∀ q, Attribute.isQuote q = true → ¬[':', ' ', q] <:+: key := by
    intro q h
    rcases Declaration.eq_or_eq_of_isQuote h with rfl | rfl
    · exact hd
    · exact hs
  have h := Declaration.ofText?_quotedLine hq hk hc
  exact ⟨h, fun options ↦ render_declared options h⟩

theorem render_quotedLine_backslashes :
    Declaration.quotedLine '\'' "p title=\"a: b\"" "\\'x: \"\\" =
        "p title=\"a: b\": '\\\\'x: \\\"\\'".toList ∧
      render {} (.text "p title=\"a: b\": '\\\\'x: \\\"\\'") =
        render {} (.map [(.text "p title=\"a: b\"", .text "\\'x: \"\\")]) ∧
      render {} (.map [(.text "p title=\"a: b\"", .text "\\'x: \"\\")]) =
        .ok "<p title=\"a: b\">\\&#39;x: &quot;\\</p>" := by
  have hl : Declaration.quotedLine '\'' "p title=\"a: b\"" "\\'x: \"\\" =
      "p title=\"a: b\": '\\\\'x: \\\"\\'".toList := by decide
  refine ⟨hl, ?_, ?_⟩
  · rw [← hl]
    exact (render_quotedLine (.inr rfl) (by decide) (by decide) (by decide)).2 {}
  · rw [render_eq_writeAll_pieces]
    decide +kernel

end TreeMarkup
