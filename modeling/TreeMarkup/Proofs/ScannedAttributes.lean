import Mathlib.Data.List.TakeWhile
import TreeMarkup.Key.Scan

namespace TreeMarkup

namespace Text

def IsRun (p : Char → Bool) (t : Text) : Prop := t ≠ [] ∧ ∀ c ∈ t, p c = true

instance (p : Char → Bool) (t : Text) : Decidable (t.IsRun p) :=
  decidable_of_iff (t ≠ [] ∧ t.all p = true) (by rw [List.all_eq_true]; rfl)

/-- The text `t` is cut in two behind the longest beginning over a class of characters. -/
structure IsCut (p : Char → Bool) (t run rest : Text) : Prop where
  append : t = run ++ rest
  run : ∀ c ∈ run, p c = true
  rest : ∀ c ∈ rest.head?, p c = false

theorem isCut (p : Char → Bool) (t : Text) : IsCut p t (t.takeWhile p) (t.dropWhile p) where
  append := List.takeWhile_append_dropWhile.symm
  run := fun _ hc ↦ List.mem_takeWhile_imp hc
  rest := by
    intro c hc
    have h := List.head?_dropWhile_not p t
    rw [Option.mem_def.1 hc] at h
    simpa using h

variable {p : Char → Bool} {t run rest : Text}

theorem IsCut.takeWhile_eq (h : IsCut p t run rest) : t.takeWhile p = run := by
  rw [h.append, takeWhile_append h.run h.rest]

theorem IsCut.dropWhile_eq (h : IsCut p t run rest) : t.dropWhile p = rest := by
  rw [h.append, dropWhile_append h.run h.rest]

theorem exists_isCut (p : Char → Bool) (t : Text) : ∃ run rest, IsCut p t run rest :=
  ⟨_, _, isCut p t⟩

end Text

namespace Attribute

/-- `SpellsBefore s value r`: behind the name of an attribute and in front of `r`, the text `s` gives
the attribute its value. -/
inductive SpellsBefore : Text → Option Text → Text → Prop
  | bare {r : Text} (hr : ∀ c ∈ r.head?, isNameChar c = false ∧ c ≠ '=') : SpellsBefore [] none r
  | closed {quote : Char} {t r : Text} (hq : isQuote quote = true) (ht : quote ∉ t) :
      SpellsBefore ('=' :: quote :: (t ++ [quote])) (some t) r
  | unclosed {quote : Char} {t : Text} (hq : isQuote quote = true) (ht : quote ∉ t) :
      SpellsBefore ('=' :: quote :: t) (some t) []
  | unquoted {t r : Text} (ht : ∀ c ∈ t, isBlank c = false) (hq : ∀ c ∈ t.head?, isQuote c = false)
      (hr : ∀ c ∈ r.head?, isBlank c = true) (hc : r = [] → t.getLast? ≠ some ':') :
      SpellsBefore ('=' :: t) (some t) r
  | beforeColon {t : Text} (ht : ∀ c ∈ t, isBlank c = false)
      (hq : ∀ c ∈ t.head?, isQuote c = false) : SpellsBefore ('=' :: t) (some t) [':']

/-- One attribute in a text: the blanks in front of it, its spelling, and what it is read as. -/
structure Span where
  blanks : Text
  spelling : Text
  reading : Attribute

structure Splitting where
  spans : List Span
  blanks : Text
  rest : Text

/-- `Splits t s`: the parts `s` make up the text `t`. All blanks in a row are in one part, since
neither a name nor the rest begins with one. -/
inductive Splits : Text → Splitting → Prop
  | stop {blanks r : Text} (hb : ∀ c ∈ blanks, isBlank c = true)
      (hr : ∀ c ∈ r.head?, isBlank c = false ∧ isNameChar c = false) :
      Splits (blanks ++ r) ⟨[], blanks, r⟩
  | span {blanks name s r : Text} {value : Option Text} {next : Splitting}
      (hb : ∀ c ∈ blanks, isBlank c = true) (hn : name.IsRun isNameChar)
      (hs : SpellsBefore s value r) (h : Splits r next) :
      Splits (blanks ++ (name ++ (s ++ r)))
        { next with spans := ⟨blanks, name ++ s, ⟨name, value⟩⟩ :: next.spans }

def Span.length (s : Span) : ℕ := s.blanks.length + s.spelling.length

def Splitting.position (s : Splitting) (k : ℕ) : ℕ :=
  (s.spans.take k).foldr (fun span n ↦ span.length + n) 0

theorem readQuoted_append {quote : Char} {t : Text} (ht : quote ∉ t) (r : Text) :
    readQuoted quote (t ++ quote :: r) = (t, r) := by
  induction t with
  | nil => simp [readQuoted]
  | cons c t ih =>
    rw [List.mem_cons, not_or] at ht
    rw [List.cons_append, readQuoted, if_neg (Ne.symm ht.1), ih ht.2]

theorem readQuoted_of_not_mem {quote : Char} {t : Text} (ht : quote ∉ t) :
    readQuoted quote t = (t, []) := by
  induction t with
  | nil => rfl
  | cons c t ih =>
    rw [List.mem_cons, not_or] at ht
    rw [readQuoted, if_neg (Ne.symm ht.1), ih ht.2]

theorem readUnquoted_of_blank {r : Text} (hr : ∀ c ∈ r.head?, isBlank c = true) :
    readUnquoted r = ([], r) := by
  match r with
  | [] => rfl
  | [c] => simp [readUnquoted, hr c rfl]
  | c :: d :: r => simp [readUnquoted, hr c rfl]

theorem readUnquoted_cons {c : Char} {s : Text} (hb : isBlank c = false)
    (hc : s = [] → c ≠ ':') :
    readUnquoted (c :: s) = (c :: (readUnquoted s).1, (readUnquoted s).2) := by
  cases s with
  | nil => simp [readUnquoted, hb, hc rfl]
  | cons d s => simp [readUnquoted, hb]

theorem readUnquoted_append {t r : Text} (hb : ∀ c ∈ t, isBlank c = false)
    (hc : r = [] → t.getLast? ≠ some ':') (hr : readUnquoted r = ([], r)) :
    readUnquoted (t ++ r) = (t, r) := by
  induction t with
  | nil => exact hr
  | cons c t ih =>
    rw [List.forall_mem_cons] at hb
    have ht : r = [] → t.getLast? ≠ some ':' := by
      intro h hl
      apply hc h
      rw [List.getLast?_cons, hl]
      rfl
    have hl : t ++ r = [] → c ≠ ':' := by
      intro h hcolon
      obtain ⟨rfl, h⟩ := List.append_eq_nil_iff.1 h
      exact hc h (congrArg some hcolon)
    rw [List.cons_append, readUnquoted_cons hb.1 hl, ih hb.2 ht]

section

variable {s r t : Text} {value : Option Text}

theorem readValue_quoted {quote : Char} (hq : isQuote quote = true) (t : Text) :
    readValue (quote :: t) = readQuoted quote t := by
  simp [readValue, hq]

theorem readValue_of_not_quote (h : ∀ c ∈ t.head?, isQuote c = false) :
    readValue t = readUnquoted t := by
  cases t with
  | nil => rfl
  | cons c t => simp [readValue, h c rfl]

theorem readAssignment_of_spellsBefore (h : SpellsBefore s value r) :
    readAssignment (s ++ r) = (value, r) := by
  cases h with
  | bare hr =>
    cases r with
    | nil => rfl
    | cons c r => simp [readAssignment, (hr c rfl).2]
  | @closed quote t _ hq ht =>
    have h := readQuoted_append ht r
    simp [readAssignment, readValue_quoted hq, h]
  | unclosed hq ht => simp [readAssignment, readValue_quoted hq, readQuoted_of_not_mem ht]
  | @unquoted t _ ht hq hr hc =>
    have hh : ∀ c ∈ (t ++ r).head?, isQuote c = false := by
      intro c hm
      cases t with
      | nil => exact isQuote_of_isBlank (hr c hm)
      | cons d t => exact hq c hm
    have h := readUnquoted_append ht hc (readUnquoted_of_blank hr)
    simp [readAssignment, readValue_of_not_quote hh, h]
  | @beforeColon t ht hq =>
    have hh : ∀ c ∈ (t ++ [':']).head?, isQuote c = false := by
      intro c hm
      cases t with
      | nil => cases hm; rfl
      | cons d t => exact hq c hm
    have h := readUnquoted_append ht (fun h ↦ nomatch h) (r := [':']) rfl
    simp [readAssignment, readValue_of_not_quote hh, h]

theorem isNameChar_head?_of_spellsBefore (h : SpellsBefore s value r) :
    ∀ c ∈ (s ++ r).head?, isNameChar c = false := by
  intro c hc
  cases h with
  | bare hr => exact (hr c hc).1
  | _ => cases hc; rfl

theorem isCut_blanks {blanks name : Text} (hb : ∀ c ∈ blanks, isBlank c = true)
    (hn : name.IsRun isNameChar) (u : Text) :
    Text.IsCut isBlank (blanks ++ (name ++ u)) blanks (name ++ u) where
  append := rfl
  run := hb
  rest := by
    intro c hc
    obtain ⟨d, name, rfl⟩ := List.exists_cons_of_ne_nil hn.1
    cases hc
    exact isBlank_of_isNameChar (hn.2 c List.mem_cons_self)

theorem next?_of_spellsBefore {blanks name : Text} (hb : ∀ c ∈ blanks, isBlank c = true)
    (hn : name.IsRun isNameChar) (hs : SpellsBefore s value r) :
    next? (blanks ++ (name ++ (s ++ r))) = some (⟨name, value⟩, r) := by
  have hstart : Text.stripStart (blanks ++ (name ++ (s ++ r))) = name ++ (s ++ r) :=
    (isCut_blanks hb hn _).dropWhile_eq
  have hcut : Text.IsCut isNameChar (name ++ (s ++ r)) name (s ++ r) :=
    ⟨rfl, hn.2, isNameChar_head?_of_spellsBefore hs⟩
  obtain ⟨c, cs, hname⟩ := List.exists_cons_of_ne_nil hn.1
  rw [next?, hstart, hcut.takeWhile_eq, hcut.dropWhile_eq, readAssignment_of_spellsBefore hs, hname]

theorem next?_eq_none {blanks : Text} (hb : ∀ c ∈ blanks, isBlank c = true)
    (hr : ∀ c ∈ r.head?, isBlank c = false ∧ isNameChar c = false) : next? (blanks ++ r) = none := by
  have hstart : Text.IsCut isBlank (blanks ++ r) blanks r := ⟨rfl, hb, fun c hc ↦ (hr c hc).1⟩
  have hname : Text.IsCut isNameChar r [] r := ⟨rfl, by simp, fun c hc ↦ (hr c hc).2⟩
  rw [next?, Text.stripStart, hstart.dropWhile_eq, hname.takeWhile_eq]

theorem scan_of_next? {a : Attribute} (h : next? t = some (a, r)) : scan t = a :: scan r := by
  rw [scan]
  split
  · rename_i hn
    rw [h] at hn
    cases hn
  · rename_i hn
    rw [h] at hn
    cases hn
    rfl

theorem scan_of_next?_eq_none (h : next? t = none) : scan t = [] := by
  rw [scan]
  split
  · rfl
  · rename_i hn
    rw [h] at hn
    cases hn

theorem exists_spellsBefore_quoted {quote : Char} (hq : isQuote quote = true) (t : Text) :
    ∃ s value r, '=' :: quote :: t = s ++ r ∧ SpellsBefore s value r := by
  by_cases hm : quote ∈ t
  · obtain ⟨v, r, rfl, hv⟩ := List.eq_append_cons_of_mem hm
    exact ⟨_, _, r, by simp, .closed hq hv⟩
  · exact ⟨_, _, [], (List.append_nil _).symm, .unclosed hq hm⟩

theorem exists_spellsBefore_unquoted (hq : ∀ c ∈ t.head?, isQuote c = false) :
    ∃ s value r, '=' :: t = s ++ r ∧ SpellsBefore s value r := by
  obtain ⟨v, r, rfl, hv, hr⟩ := Text.exists_isCut (fun c ↦ !isBlank c) t
  simp only [Bool.not_eq_true', Bool.not_eq_false'] at hv hr
  by_cases hc : r = [] ∧ v.getLast? = some ':'
  · obtain ⟨rfl, hl⟩ := hc
    obtain ⟨w, rfl⟩ := List.getLast?_eq_some_iff.1 hl
    refine ⟨_, _, [':'], by simp, .beforeColon (t := w) ?_ ?_⟩
    · intro c hm
      exact hv c (List.mem_append_left _ hm)
    · intro c hm
      apply hq c
      simp [List.head?_append, Option.mem_def.1 hm]
  · refine ⟨_, _, r, rfl, .unquoted hv ?_ hr fun h hl ↦ hc ⟨h, hl⟩⟩
    intro c hm
    apply hq c
    simp [List.head?_append, Option.mem_def.1 hm]

theorem exists_spellsBefore (h : ∀ c ∈ t.head?, isNameChar c = false) :
    ∃ s value r, t = s ++ r ∧ SpellsBefore s value r := by
  cases t with
  | nil => exact ⟨[], none, [], rfl, .bare (by simp)⟩
  | cons c t =>
    by_cases hc : c = '='
    · subst hc
      cases t with
      | nil => exact exists_spellsBefore_unquoted (by simp)
      | cons d t =>
        cases hd : isQuote d with
        | true => exact exists_spellsBefore_quoted hd t
        | false => exact exists_spellsBefore_unquoted (by simpa using hd)
    · refine ⟨[], none, c :: t, rfl, .bare fun d hd ↦ ⟨h d hd, ?_⟩⟩
      cases hd
      exact hc

theorem exists_splits (t : Text) : ∃ parts, Splits t parts := by
  induction hn : t.length using Nat.strong_induction_on generalizing t with
  | _ n ih =>
    obtain ⟨blanks, start, rfl, hb, hs⟩ := Text.exists_isCut isBlank t
    obtain ⟨name, u, rfl, hc, hu⟩ := Text.exists_isCut isNameChar start
    by_cases hname : name = []
    · subst hname
      exact ⟨_, .stop hb fun c hc ↦ ⟨hs c hc, hu c hc⟩⟩
    · obtain ⟨s, value, r, rfl, h⟩ := exists_spellsBefore hu
      have hl : r.length < n := by
        have := List.length_pos_iff.2 hname
        simp only [List.length_append] at hn
        omega
      obtain ⟨next, hnext⟩ := ih _ hl r rfl
      exact ⟨_, .span hb ⟨hname, hc⟩ h hnext⟩

end

section

variable {t : Text} {parts parts' : Splitting}

theorem scan_of_splits (h : Splits t parts) : scan t = parts.spans.map Span.reading := by
  induction h with
  | stop hb hr => exact scan_of_next?_eq_none (next?_eq_none hb hr)
  | span hb hn hs h ih => rw [scan_of_next? (next?_of_spellsBefore hb hn hs), ih, List.map_cons]

theorem splits_unique (h : Splits t parts) (h' : Splits t parts') : parts = parts' := by
  induction h generalizing parts' with
  | @stop blanks r hb hr =>
    have hnone := next?_eq_none hb hr
    have hcut : Text.IsCut isBlank (blanks ++ r) blanks r := ⟨rfl, hb, fun c hc ↦ (hr c hc).1⟩
    generalize blanks ++ r = t at h' hnone hcut
    cases h' with
    | stop hb' hr' =>
      have hcut' := Text.IsCut.mk rfl hb' fun c hc ↦ (hr' c hc).1
      rw [hcut.takeWhile_eq.symm.trans hcut'.takeWhile_eq,
        hcut.dropWhile_eq.symm.trans hcut'.dropWhile_eq]
    | span hb' hn' hs' h' =>
      rw [next?_of_spellsBefore hb' hn' hs'] at hnone
      cases hnone
  | @span blanks name s r value next hb hn hs h ih =>
    have hsome := next?_of_spellsBefore hb hn hs
    have hcut := isCut_blanks hb hn (s ++ r)
    generalize blanks ++ (name ++ (s ++ r)) = t at h' hsome hcut
    cases h' with
    | stop hb' hr' =>
      rw [next?_eq_none hb' hr'] at hsome
      cases hsome
    | @span blanks' name' s' r' value' next' hb' hn' hs' h' =>
      have hcut' := isCut_blanks hb' hn' (s' ++ r')
      have hrest := hcut.dropWhile_eq.symm.trans hcut'.dropWhile_eq
      have hblanks := hcut.takeWhile_eq.symm.trans hcut'.takeWhile_eq
      rw [next?_of_spellsBefore hb' hn' hs'] at hsome
      cases hsome
      have hs := List.append_cancel_right (List.append_cancel_left hrest)
      rw [ih h', hblanks, hs]

namespace Splitting

variable (parts : Splitting) (span : Span) (k : ℕ)

theorem position_zero : parts.position 0 = 0 := rfl

theorem position_cons :
    position { parts with spans := span :: parts.spans } (k + 1) = span.length + parts.position k := rfl

end Splitting

theorem drop_span (blanks name s r : Text) (a : Attribute) (n : ℕ) :
    (blanks ++ (name ++ (s ++ r))).drop ((Span.mk blanks (name ++ s) a).length + n) = r.drop n := by
  have ht : blanks ++ (name ++ (s ++ r)) = (blanks ++ (name ++ s)) ++ r := by simp
  have hl : (Span.mk blanks (name ++ s) a).length = (blanks ++ (name ++ s)).length := by
    simp [Span.length]
  rw [ht, hl, List.drop_length_add_append]

/-- From the end of one attribute the next one is read, up to its own end. -/
theorem next?_of_splits (h : Splits t parts) {k : ℕ} (hk : k < parts.spans.length) :
    next? (t.drop (parts.position k)) =
      some (parts.spans[k].reading, t.drop (parts.position (k + 1))) := by
  induction h generalizing k with
  | stop => cases hk
  | @span blanks name s r value next hb hn hs h ih =>
    cases k with
    | zero =>
      have hd := drop_span blanks name s r ⟨name, value⟩ 0
      rw [Splitting.position_cons, Splitting.position_zero, Splitting.position_zero, hd]
      exact next?_of_spellsBefore hb hn hs
    | succ k =>
      rw [Splitting.position_cons, Splitting.position_cons, drop_span, drop_span]
      exact ih (Nat.lt_of_succ_lt_succ hk)

theorem position_lt_of_splits (h : Splits t parts) {k : ℕ} (hk : k < parts.spans.length) :
    parts.position k < parts.position (k + 1) ∧ parts.position (k + 1) ≤ t.length := by
  induction h generalizing k with
  | stop => cases hk
  | @span blanks name s r value next hb hn hs h ih =>
    have hname := List.length_pos_iff.2 hn.1
    cases k with
    | zero =>
      rw [Splitting.position_cons, Splitting.position_zero, Splitting.position_zero]
      simp only [Span.length, List.length_append]
      omega
    | succ k =>
      have := ih (Nat.lt_of_succ_lt_succ hk)
      rw [Splitting.position_cons, Splitting.position_cons]
      simp only [Span.length, List.length_append]
      omega

theorem next?_end_of_splits (h : Splits t parts) :
    next? (t.drop (parts.position parts.spans.length)) = none := by
  induction h with
  | stop hb hr => exact next?_eq_none hb hr
  | span hb hn hs h ih =>
    rw [List.length_cons, Splitting.position_cons, drop_span]
    exact ih

end

/-- Every text has just one splitting. Its attributes are read one after the other, each from the end of
the one before it to its own end, and behind the last of them nothing more is read. -/
theorem scan_follows_unique_splitting (t : Text) :
    ∃ parts : Splitting, (∀ parts', Splits t parts' ↔ parts' = parts) ∧
      scan t = parts.spans.map Span.reading ∧
      (∀ k (hk : k < parts.spans.length),
        next? (t.drop (parts.position k)) =
            some (parts.spans[k].reading, t.drop (parts.position (k + 1))) ∧
          parts.position k < parts.position (k + 1) ∧ parts.position (k + 1) ≤ t.length) ∧
      next? (t.drop (parts.position parts.spans.length)) = none := by
  obtain ⟨parts, h⟩ := exists_splits t
  refine ⟨parts, fun parts' ↦ ⟨fun h' ↦ splits_unique h' h, ?_⟩, scan_of_splits h, ?_,
    next?_end_of_splits h⟩
  · intro he
    rw [he]
    exact h
  · intro k hk
    exact ⟨next?_of_splits h hk, position_lt_of_splits h hk⟩

end Attribute

end TreeMarkup
