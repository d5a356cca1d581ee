import Mathlib.Data.List.Forall2
import TreeMarkup.Proofs.MarkupGrammar
import TreeMarkup.Proofs.ScannedAttributes

namespace TreeMarkup

namespace Attribute

theorem isRun_of_mem_spans {t : Text} {parts : Splitting} (h : Splits t parts) :
    ∀ span ∈ parts.spans, span.reading.name.IsRun isNameChar := by
  induction h with
  | stop => simp
  | span hb hn hs h ih =>
    rw [List.forall_mem_cons]
    exact ⟨hn, ih⟩

theorem isRun_of_mem_scan (t : Text) : ∀ a ∈ scan t, a.name.IsRun isNameChar := by
  obtain ⟨parts, h⟩ := exists_splits t
  rw [scan_of_splits h, List.forall_mem_map]
  exact isRun_of_mem_spans h

end Attribute

namespace ElementKey

structure IsRunAt (mark : Char) (t : Text) (i : ℕ) (run : Text) : Prop where
  mark : t[i]? = some mark
  cut : ∃ rest, Text.IsCut isTagChar (t.drop (i + 1)) run rest
  ne_nil : run ≠ []

inductive IsFirstRun (mark : Char) (t : Text) : Option Text → Prop
  | none (h : ∀ i run, ¬IsRunAt mark t i run) : IsFirstRun mark t none
  | some {i : ℕ} {run : Text} (h : IsRunAt mark t i run) (first : ∀ j < i, ∀ r, ¬IsRunAt mark t j r) :
      IsFirstRun mark t (some run)

def ListsRuns (mark : Char) (t : Text) (runs : List Text) : Prop :=
  ∃ places : List ℕ, places.Pairwise (· < ·) ∧ (∀ i, i ∈ places ↔ ∃ run, IsRunAt mark t i run) ∧
    List.Forall₂ (IsRunAt mark t) places runs

section

variable {mark c : Char} {t run : Text} {runs : List Text} {i : ℕ}

theorem isRunAt_zero :
    IsRunAt mark (c :: t) 0 run ↔ c = mark ∧ run ≠ [] ∧ run = t.takeWhile isTagChar := by
  constructor
  · intro ⟨hm, ⟨rest, hcut⟩, hne⟩
    exact ⟨Option.some.inj hm, hne, hcut.takeWhile_eq.symm⟩
  · intro ⟨hm, hne, hr⟩
    exact ⟨congrArg some hm, ⟨_, hr ▸ Text.isCut isTagChar t⟩, hne⟩

theorem isRunAt_succ : IsRunAt mark (c :: t) (i + 1) run ↔ IsRunAt mark t i run :=
  ⟨fun ⟨hm, hcut, hne⟩ ↦ ⟨hm, hcut, hne⟩, fun ⟨hm, hcut, hne⟩ ↦ ⟨hm, hcut, hne⟩⟩

theorem IsRunAt.isTag (h : IsRunAt mark t i run) : Markup.IsTag run := by
  obtain ⟨rest, hcut⟩ := h.cut
  exact ⟨h.ne_nil, hcut.run⟩

theorem ListsRuns.isTag (h : ListsRuns mark t runs) : ∀ run ∈ runs, Markup.IsTag run := by
  obtain ⟨places, -, -, h⟩ := h
  induction h with
  | nil => simp
  | cons hr h ih =>
    rw [List.forall_mem_cons]
    exact ⟨hr.isTag, ih⟩

theorem ListsRuns.isFirstRun (h : ListsRuns mark t runs) : IsFirstRun mark t runs.head? := by
  obtain ⟨places, hsorted, hmem, h⟩ := h
  cases h with
  | nil =>
    refine .none fun i run hr ↦ ?_
    have := (hmem i).2 ⟨run, hr⟩
    cases this
  | @cons i run places runs hr h =>
    refine .some hr fun j hj r hjr ↦ ?_
    rcases List.mem_cons.1 ((hmem j).2 ⟨r, hjr⟩) with he | hm
    · omega
    · have := List.rel_of_pairwise_cons hsorted hm
      omega

theorem listsRuns_runsAfter (mark : Char) (t : Text) : ListsRuns mark t (runsAfter mark t) := by
  induction t with
  | nil =>
    refine ⟨[], .nil, fun i ↦ iff_of_false (by simp) ?_, .nil⟩
    intro ⟨run, hr⟩
    cases hr.mark
  | cons c t ih =>
    obtain ⟨places, hsorted, hmem, hruns⟩ := ih
    have hsorted : (places.map (· + 1)).Pairwise (· < ·) := by
      rw [List.pairwise_map]
      exact hsorted.imp Nat.succ_lt_succ
    have hsucc (i : ℕ) : i + 1 ∈ places.map (· + 1) ↔ ∃ run, IsRunAt mark (c :: t) (i + 1) run := by
      simp [hmem, isRunAt_succ]
    have hruns : List.Forall₂ (IsRunAt mark (c :: t)) (places.map (· + 1)) (runsAfter mark t) :=
      List.forall₂_map_left_iff.2 (hruns.imp fun _ _ ↦ isRunAt_succ.2)
    rw [runsAfter]
    by_cases h : c = mark ∧ t.takeWhile isTagChar ≠ []
    · -- the mark in front has a run, so its place comes before all others
      have hz : IsRunAt mark (c :: t) 0 (t.takeWhile isTagChar) := isRunAt_zero.2 ⟨h.1, h.2, rfl⟩
      rw [if_pos (by simpa using h)]
      refine ⟨0 :: places.map (· + 1), List.pairwise_cons.2 ⟨by simp, hsorted⟩, ?_, .cons hz hruns⟩
      intro i
      cases i with
      | zero => exact iff_of_true List.mem_cons_self ⟨_, hz⟩
      | succ i => simpa using hsucc i
    · rw [if_neg (by simpa using h)]
      refine ⟨places.map (· + 1), hsorted, ?_, hruns⟩
      intro i
      cases i with
      | zero =>
        refine iff_of_false (by simp) ?_
        intro ⟨run, hr⟩
        obtain ⟨hm, hne, rfl⟩ := isRunAt_zero.1 hr
        exact h ⟨hm, hne⟩
      | succ i => exact hsucc i

end

section

variable {head tag shorthands : Text}

theorem isAttributeHead_iff (h : Text.IsCut isTagChar head tag shorthands) :
    isAttributeHead head = true ↔
      '=' ∈ head ∧ (tag = [] ∨ shorthands.head? ≠ some '#' ∧ shorthands.head? ≠ some '.') := by
  rw [isAttributeHead, h.takeWhile_eq, h.dropWhile_eq]
  cases shorthands <;> simp

theorem tag_eq_nil_iff (h : Text.IsCut isTagChar head tag shorthands) :
    tag = [] ↔ head = [] ∨ ∃ c ∈ head.head?, isTagChar c = false := by
  rw [← h.takeWhile_eq]
  cases head with
  | nil => simp
  | cons c head => cases hc : isTagChar c <;> simp [hc]

variable (attributes : List Attribute)

theorem ofHead_tag_eq_nil_iff (h : Text.IsCut isTagChar head tag shorthands) :
    (ofHead head attributes).tag = [] ↔ head = [] ∨ (∃ c ∈ head.head?, isTagChar c = false) ∨
      '=' ∈ head ∧ shorthands.head? ≠ some '#' ∧ shorthands.head? ≠ some '.' := by
  rw [← or_assoc, ← tag_eq_nil_iff h, ofHead]
  split
  · rename_i ha
    have ha := (isAttributeHead_iff h).1 ha
    refine iff_of_true rfl ?_
    tauto
  · rename_i ha
    rw [isAttributeHead_iff h] at ha
    rw [h.takeWhile_eq]
    tauto

theorem ofHead_of_tag_ne_nil (h : Text.IsCut isTagChar head tag shorthands)
    (ht : (ofHead head attributes).tag ≠ []) :
    ofHead head attributes =
      ⟨tag, (runsAfter '#' shorthands).head?, runsAfter '.' shorthands, attributes⟩ := by
  rw [ofHead] at ht ⊢
  split
  · rename_i ha
    rw [if_pos ha] at ht
    exact absurd rfl ht
  · rw [h.takeWhile_eq, h.dropWhile_eq]

theorem ofHead_attributes (head : Text) : (ofHead head attributes).attributes = attributes := by
  rw [ofHead]
  split <;> rfl

/-- Whatever text a key is, its tag, its id and its classes are words over tag characters. -/
structure IsNamed (k : ElementKey) : Prop where
  tag : ∀ c ∈ k.tag, isTagChar c = true
  id : ∀ name ∈ k.id, Markup.IsTag name
  classes : ∀ name ∈ k.classes, Markup.IsTag name

theorem isNamed_ofHead (head : Text) : (ofHead head attributes).IsNamed := by
  rw [ofHead]
  split
  · exact ⟨by simp, by simp, by simp⟩
  · refine ⟨fun c hc ↦ List.mem_takeWhile_imp hc, ?_, (listsRuns_runsAfter _ _).isTag⟩
    intro name hn
    exact (listsRuns_runsAfter _ _).isTag name (List.mem_of_head? hn)

theorem parse_eq {key tail : Text}
    (h : Text.IsCut (fun c ↦ !isBlank c) (dropColon key) head tail) :
    parse key = if head = [] then {} else ofHead head (Attribute.scan (Text.strip tail)) := by
  rw [parse, Text.word, Text.afterWord, h.takeWhile_eq, h.dropWhile_eq]
  cases head <;> rfl

theorem parse_attributes {key tail : Text}
    (h : Text.IsCut (fun c ↦ !isBlank c) (dropColon key) head tail) :
    (parse key).attributes = if head = [] then [] else Attribute.scan (Text.strip tail) := by
  rw [parse_eq h]
  split
  · rfl
  · exact ofHead_attributes _ head

end

theorem isNamed_parse (key : Text) : (parse key).IsNamed := by
  obtain ⟨head, tail, h⟩ := Text.exists_isCut (fun c ↦ !isBlank c) (dropColon key)
  rw [parse_eq h]
  split
  · exact ⟨by simp, by simp, by simp⟩
  · exact isNamed_ofHead _ head

theorem isRun_of_mem_attributes (key : Text) :
    ∀ a ∈ (parse key).attributes, a.name.IsRun Attribute.isNameChar := by
  obtain ⟨head, tail, h⟩ := Text.exists_isCut (fun c ↦ !isBlank c) (dropColon key)
  rw [parse_attributes h]
  split
  · simp
  · exact Attribute.isRun_of_mem_scan _

/-- Every key has these parts: no tag where there is no head, where the head does not begin with a tag
character, or where it is an attribute; otherwise the tag and the names behind the marks that follow
it. The attributes are those of the text behind the head; a key without a head has none. -/
theorem parse_parts (key : Text) :
    ∃ head tail tag shorthands,
      Text.IsCut (fun c ↦ !isBlank c) (dropColon key) head tail ∧
      Text.IsCut isTagChar head tag shorthands ∧
      ((parse key).tag = [] ↔ head = [] ∨ (∃ c ∈ head.head?, isTagChar c = false) ∨
        '=' ∈ head ∧ shorthands.head? ≠ some '#' ∧ shorthands.head? ≠ some '.') ∧
      ((parse key).tag ≠ [] → (parse key).tag = tag ∧
        IsFirstRun '#' shorthands (parse key).id ∧ ListsRuns '.' shorthands (parse key).classes) ∧
      (parse key).IsNamed ∧ (∀ a ∈ (parse key).attributes, a.name.IsRun Attribute.isNameChar) ∧
      (parse key).attributes = if head = [] then [] else Attribute.scan (Text.strip tail) := by
  obtain ⟨head, tail, hcut⟩ := Text.exists_isCut (fun c ↦ !isBlank c) (dropColon key)
  obtain ⟨tag, shorthands, htag⟩ := Text.exists_isCut isTagChar head
  refine ⟨head, tail, tag, shorthands, hcut, htag, ?_, ?_, isNamed_parse key,
    isRun_of_mem_attributes key, parse_attributes hcut⟩
  · rw [parse_eq hcut]
    split
    · rename_i hh
      exact iff_of_true rfl (.inl hh)
    · exact ofHead_tag_eq_nil_iff _ htag
  · rw [parse_eq hcut]
    split
    · exact fun h ↦ absurd rfl h
    · intro ht
      rw [ofHead_of_tag_ne_nil _ htag ht]
      exact ⟨rfl, (listsRuns_runsAfter _ _).isFirstRun, listsRuns_runsAfter _ _⟩

example : (parse "p#.b#c!#d..e x").id = some "c".toList ∧
    (parse "p#.b#c!#d..e x").classes = ["b".toList, "e".toList] := by decide

/-- A key that begins with a blank has no head, and what looks like its attributes is not read. -/
theorem attributes_behind_blank :
    ¬∃ head tail, Text.IsCut (fun c ↦ !isBlank c) (dropColon " a=b") head tail ∧
      (parse " a=b").attributes = Attribute.scan (Text.strip tail) := by
  intro ⟨head, tail, hcut, h⟩
  have hhead : head = [] := hcut.takeWhile_eq.symm.trans (by decide)
  have htail : tail = " a=b".toList := hcut.dropWhile_eq.symm.trans (by decide)
  have hstrip : Text.strip tail = "a=b".toList := htail ▸ by decide
  have hnext : Attribute.next? "a=b" = some (⟨"a", some "b"⟩, []) := by decide
  rw [parse_attributes hcut, if_pos hhead, hstrip, Attribute.scan_of_next? hnext] at h
  cases h

end ElementKey

end TreeMarkup
