import Mathlib.Data.Nat.Find
import TreeMarkup.Proofs.QuotedLines
import TreeMarkup.Proofs.ScannedAttributes

namespace TreeMarkup

theorem Text.cut?_eq_none_iff {pattern t : Text} (hp : pattern ≠ []) :
    Text.cut? pattern t = none ↔ ¬pattern <:+: t := by
  induction t with
  | nil => simp [Text.cut?, hp]
  | cons c t ih =>
    rw [Text.cut?, List.infix_cons_iff]
    by_cases h : pattern <+: c :: t
    · simp [List.isPrefixOf_iff_prefix.2 h, h]
    · simp [mt List.isPrefixOf_iff_prefix.1 h, h, ih]

namespace Declaration

open Attribute (isQuote)

def IsSeparatorAt (t : Text) (i : ℕ) : Prop :=
  ∃ quote, isQuote quote = true ∧ [':', ' ', quote] <+: t.drop i

def HasSeparator (t : Text) : Prop := ∃ i, IsSeparatorAt t i

structure IsFirstSeparator (t : Text) (i : ℕ) : Prop where
  here : IsSeparatorAt t i
  not_before : ∀ j < i, ¬IsSeparatorAt t j

/-- A key, a colon, blanks and a content make up the text. The key is not the beginning of an address
and the content is one line. -/
structure IsPlainLine (t key blanks content : Text) : Prop where
  append : t = key ++ ':' :: (blanks ++ content)
  key_ne_nil : key ≠ []
  no_colon : ':' ∉ key
  no_address : ¬"//".toList <:+: key
  blanks : blanks.IsRun isBlank
  one_line : '\n' ∉ content

section

variable {t : Text} {c : Char} {i : ℕ}

theorem hasSeparator_cons_iff :
    HasSeparator (c :: t) ↔ IsSeparatorAt (c :: t) 0 ∨ HasSeparator t := by
  constructor
  · intro ⟨i, hi⟩
    cases i with
    | zero => exact .inl hi
    | succ i => exact .inr ⟨i, hi⟩
  · intro h
    rcases h with h | ⟨i, hi⟩
    · exact ⟨0, h⟩
    · exact ⟨i + 1, hi⟩

theorem HasSeparator.exists_first (h : HasSeparator t) : ∃ i, IsFirstSeparator t i := by
  classical
  exact ⟨Nat.find h, Nat.find_spec h, fun _ hj ↦ Nat.find_min h hj⟩

theorem cutQuoted?_cons_of_not (h : ¬IsSeparatorAt (c :: t) 0) :
    cutQuoted? (c :: t) = (cutQuoted? t).map fun (key, content) ↦ (c :: key, content) :=
  cutQuoted?_cons fun quote hq hp ↦ h ⟨quote, hq, hp⟩

theorem cutQuoted?_of_isFirstSeparator (h : IsFirstSeparator t i) :
    cutQuoted? t = some (t.take i, t.drop (i + 2)) := by
  induction i generalizing t with
  | zero =>
    obtain ⟨quote, hq, u, hu⟩ := h.here
    rw [List.drop_zero] at hu
    rw [← hu]
    exact cutQuoted?_separator hq u
  | succ i ih =>
    cases t with
    | nil =>
      obtain ⟨quote, hq, hp⟩ := h.here
      cases List.prefix_nil.1 hp
    | cons c t =>
      have ht : IsFirstSeparator t i := ⟨h.here, fun j hj ↦ h.not_before (j + 1) (by omega)⟩
      rw [cutQuoted?_cons_of_not (h.not_before 0 (by omega)), ih ht]
      rfl

theorem cutQuoted?_eq_none_iff : cutQuoted? t = none ↔ ¬HasSeparator t := by
  constructor
  · intro h hs
    obtain ⟨i, hi⟩ := hs.exists_first
    rw [cutQuoted?_of_isFirstSeparator hi] at h
    cases h
  · intro h
    induction t with
    | nil => rfl
    | cons c t ih =>
      rw [hasSeparator_cons_iff, not_or] at h
      rw [cutQuoted?_cons_of_not h.1, ih h.2]
      rfl

instance (t : Text) : Decidable (HasSeparator t) :=
  decidable_of_iff ((cutQuoted? t).isSome = true) <| by
    rw [Option.isSome_iff_ne_none, ne_eq, cutQuoted?_eq_none_iff, not_not]

end

section

variable {t key blanks content : Text}

theorem IsPlainLine.isCut (h : IsPlainLine t key blanks content) :
    Text.IsCut (· != ':') t key (':' :: (blanks ++ content)) where
  append := h.append
  run := by
    intro c hc
    simpa using ne_of_mem_of_not_mem hc h.no_colon
  rest := by simp

theorem ofPlain?_eq {c : Char} {rest : Text} (hk : key ≠ [])
    (h : Text.IsCut (· != ':') t key (c :: rest)) :
    ofPlain? t =
      if (Text.stripStart rest).length < rest.length ∧ '\n' ∉ Text.stripStart rest ∧
          ¬"//".toList <:+: key then
        some ⟨key, some (Text.stripStart rest)⟩
      else none := by
  obtain ⟨d, ds, rfl⟩ := List.exists_cons_of_ne_nil hk
  rw [ofPlain?, h.takeWhile_eq, h.dropWhile_eq]
  simp [← Text.cut?_eq_none_iff, and_assoc]

/-- Blanks may be counted to the content or not: those in front of it are dropped in any case. -/
theorem ofPlain?_of_isPlainLine (h : IsPlainLine t key blanks content) :
    ofPlain? t = some ⟨key, some (Text.stripStart content)⟩ := by
  have hstrip : Text.stripStart (blanks ++ content) = Text.stripStart content :=
    List.dropWhile_append_of_pos h.blanks.2
  have hlen : (Text.stripStart content).length < (blanks ++ content).length := by
    have := Text.length_dropWhile_le isBlank content
    have := List.length_pos_iff.2 h.blanks.1
    rw [List.length_append, Text.stripStart]
    omega
  have hline : '\n' ∉ Text.stripStart content := by
    intro hm
    exact h.one_line ((List.dropWhile_suffix isBlank).subset hm)
  rw [ofPlain?_eq h.key_ne_nil h.isCut, hstrip]
  exact if_pos ⟨hlen, hline, h.no_address⟩

theorem exists_isPlainLine {d : Declaration} (h : ofPlain? t = some d) :
    ∃ blanks content, d.content = some content ∧ IsPlainLine t d.key blanks content ∧
      Text.IsCut isBlank (blanks ++ content) blanks content := by
  obtain ⟨key, rest, hcut⟩ := Text.exists_isCut (· != ':') t
  by_cases hk : key = []
  · rw [ofPlain?, hcut.takeWhile_eq, hk] at h
    cases h
  cases rest with
  | nil =>
    rw [ofPlain?, hcut.takeWhile_eq, hcut.dropWhile_eq] at h
    simp at h
  | cons c rest =>
    rw [ofPlain?_eq hk hcut, ite_eq_iff] at h
    obtain ⟨⟨hlen, hline, haddress⟩, hd⟩ | ⟨-, hd⟩ := h
    · cases hd
      obtain ⟨blanks, content, hblanks⟩ := Text.exists_isCut isBlank rest
      have hcolon : c = ':' := by simpa using hcut.rest c rfl
      have hcontent : Text.stripStart rest = content := hblanks.dropWhile_eq
      have happend : rest = blanks ++ content := hblanks.append
      rw [hcontent] at hlen hline
      subst hcolon happend
      have hne : blanks ≠ [] := by
        intro hb
        simp [hb] at hlen
      have hmem : ':' ∉ key := fun hm ↦ absurd (hcut.run ':' hm) (by decide)
      refine ⟨blanks, content, congrArg some hcontent, ?_, hblanks⟩
      exact ⟨hcut.append, hk, hmem, haddress, ⟨hne, hblanks.run⟩, hline⟩
    · cases hd

end

section

variable {t : Text}

theorem ofText?_of_colon (h : t.getLast? = some ':') :
    ofText? t = some ⟨Text.strip t.dropLast, none⟩ := if_pos h

theorem ofText?_of_separator (h : t.getLast? ≠ some ':') (hs : HasSeparator t) :
    ∃ i, IsFirstSeparator t i ∧
      ofText? t = some ⟨t.take i, some (quotedContent (t.drop (i + 2)))⟩ := by
  obtain ⟨i, hi⟩ := hs.exists_first
  refine ⟨i, hi, ?_⟩
  rw [ofText?, if_neg h, cutQuoted?_of_isFirstSeparator hi]

theorem ofText?_of_no_separator (h : t.getLast? ≠ some ':') (hs : ¬HasSeparator t) :
    ofText? t = ofPlain? t := by
  rw [ofText?, if_neg h, cutQuoted?_eq_none_iff.2 hs]

theorem exists_ofPlain?_iff :
    (∃ d, ofPlain? t = some d) ↔ ∃ key blanks content, IsPlainLine t key blanks content := by
  constructor
  · intro ⟨d, hd⟩
    obtain ⟨blanks, content, -, h, -⟩ := exists_isPlainLine hd
    exact ⟨d.key, blanks, content, h⟩
  · intro ⟨key, blanks, content, h⟩
    exact ⟨_, ofPlain?_of_isPlainLine h⟩

end

/-- The forms of an element on one line, in the order in which they are looked for, and what each
declares. A text of none of them is plain. -/
theorem ofText?_forms (t : Text) :
    (t.getLast? = some ':' → ofText? t = some ⟨Text.strip t.dropLast, none⟩) ∧
    (t.getLast? ≠ some ':' → HasSeparator t → ∃ i, IsFirstSeparator t i ∧
      ofText? t = some ⟨t.take i, some (quotedContent (t.drop (i + 2)))⟩) ∧
    (t.getLast? ≠ some ':' → ¬HasSeparator t →
      ((∃ d, ofText? t = some d) ↔ ∃ key blanks content, IsPlainLine t key blanks content) ∧
      ∀ d, ofText? t = some d → ∃ blanks content, d.content = some content ∧
        IsPlainLine t d.key blanks content ∧ Text.IsCut isBlank (blanks ++ content) blanks content) ∧
    (ofText? t = none ↔ t.getLast? ≠ some ':' ∧ ¬HasSeparator t ∧
      ¬∃ key blanks content, IsPlainLine t key blanks content) := by
  refine ⟨ofText?_of_colon, ofText?_of_separator, ?_, ?_⟩
  · intro h hs
    rw [ofText?_of_no_separator h hs]
    exact ⟨exists_ofPlain?_iff, fun d ↦ exists_isPlainLine⟩
  · by_cases h : t.getLast? = some ':'
    · simp [ofText?_of_colon h, h]
    · by_cases hs : HasSeparator t
      · obtain ⟨i, -, hi⟩ := ofText?_of_separator h hs
        simp [hi, hs]
      · rw [ofText?_of_no_separator h hs, ← exists_ofPlain?_iff, Option.eq_none_iff_forall_ne_some]
        simp [h, hs]

theorem ofText?_forms_secondColon :
    let t : Text := "p:\t\n a: b"
    t.getLast? ≠ some ':' ∧ ¬HasSeparator t ∧ IsPlainLine t "p" "\t\n " "a: b" ∧
      (∃ d, ofText? t = some d) ∧ ∀ d, ofText? t = some d →
        ∃ blanks content, d.content = some content ∧ IsPlainLine t d.key blanks content ∧
          Text.IsCut isBlank (blanks ++ content) blanks content := by
  intro t
  have hl : t.getLast? ≠ some ':' := by decide
  have hs : ¬HasSeparator t := by decide
  have hp : IsPlainLine t "p" "\t\n " "a: b" :=
    ⟨rfl, by decide, by decide, by decide, by decide, by decide⟩
  have h := (ofText?_forms t).2.2.1 hl hs
  exact ⟨hl, hs, hp, h.1.2 ⟨_, _, _, hp⟩, h.2⟩

end Declaration

end TreeMarkup
