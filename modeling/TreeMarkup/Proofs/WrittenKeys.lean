import Mathlib.Data.List.DropRight
import TreeMarkup.Proofs.KeyParts

namespace TreeMarkup

instance (t : Text) : Decidable (Markup.IsTag t) :=
  inferInstanceAs (Decidable (t.IsRun ElementKey.isTagChar))

namespace Attribute

structure IsPlain (t : Text) : Prop where
  ne_nil : t ≠ []
  not_blank : ∀ c ∈ t, isBlank c = false
  not_quote : ∀ c ∈ t.head?, isQuote c = false
  not_colon : t.getLast? ≠ some ':'

instance (t : Text) : Decidable (IsPlain t) :=
  decidable_of_iff
    (t ≠ [] ∧ t.all (fun c ↦ !isBlank c) = true ∧ t.head?.all (fun c ↦ !isQuote c) = true ∧
      t.getLast? ≠ some ':') <| by
    simp only [List.all_eq_true, Option.all_eq_true, Bool.not_eq_true']
    exact ⟨fun ⟨h₁, h₂, h₃, h₄⟩ ↦ ⟨h₁, h₂, h₃, h₄⟩, fun ⟨h₁, h₂, h₃, h₄⟩ ↦ ⟨h₁, h₂, h₃, h₄⟩⟩

/-- `Spells s value`: behind the name of an attribute, the text `s` gives it the value. -/
inductive Spells : Text → Option Text → Prop
  | bare : Spells [] none
  | quoted {quote : Char} {t : Text} (hq : isQuote quote = true) (ht : quote ∉ t) :
      Spells ('=' :: quote :: t ++ [quote]) (some t)
  | plain {t : Text} (ht : IsPlain t) : Spells ('=' :: t) (some t)

/-- `SpellsAll s as`: behind the head of a key, the text `s` lists the attributes `as`. -/
inductive SpellsAll : Text → List Attribute → Prop
  | nil : SpellsAll [] []
  | cons {blanks name s r : Text} {value : Option Text} {as : List Attribute}
      (hb : blanks.IsRun isBlank) (hn : name.IsRun isNameChar) (hs : Spells s value)
      (h : SpellsAll r as) : SpellsAll (blanks ++ (name ++ (s ++ r))) (⟨name, value⟩ :: as)

section

variable {s r : Text} {value : Option Text}

theorem Spells.spellsBefore (hs : Spells s value) (hr : ∀ c ∈ r.head?, isBlank c = true) :
    SpellsBefore s value r := by
  cases hs with
  | bare =>
    refine .bare fun c hc ↦ ⟨?_, ?_⟩
    · by_contra hn
      have hb := isBlank_of_isNameChar (Bool.of_not_eq_false hn)
      rw [hr c hc] at hb
      cases hb
    · rintro rfl
      exact absurd (hr '=' hc) (by decide)
  | quoted hq ht => exact .closed hq ht
  | plain ht => exact .unquoted ht.not_blank ht.not_quote hr fun _ ↦ ht.not_colon

end

theorem scan_congr {t u : Text} (h : next? t = next? u) : scan t = scan u := by
  rw [scan, scan, h]

theorem scan_stripStart (t : Text) : scan (Text.stripStart t) = scan t := by
  apply scan_congr
  have hi : Text.stripStart (Text.stripStart t) = Text.stripStart t :=
    List.dropWhile_idempotent isBlank t
  rw [next?, next?, hi]

section

variable {s : Text} {as : List Attribute}

theorem SpellsAll.isBlank_head? (h : SpellsAll s as) : ∀ c ∈ s.head?, isBlank c = true := by
  intro c hc
  cases h with
  | nil => cases hc
  | @cons blanks name s r value as hb hn hs h =>
    obtain ⟨d, blanks, rfl⟩ := List.exists_cons_of_ne_nil hb.1
    cases hc
    exact hb.2 c List.mem_cons_self

theorem scan_of_spellsAll (h : SpellsAll s as) : scan s = as := by
  induction h with
  | nil => rw [scan]; rfl
  | cons hb hn hs h ih =>
    rw [scan_of_next? (next?_of_spellsBefore hb.2 hn (hs.spellsBefore h.isBlank_head?)), ih]

/-- What ends an attribute is neither a blank, which would be stripped, nor a colon. -/
def IsEnd (c : Char) : Prop := isBlank c = false ∧ c ≠ ':'

theorem Spells.isEnd_getLast? {name : Text} {value : Option Text} (hn : name.IsRun isNameChar)
    (hs : Spells s value) : ∀ c ∈ (name ++ s).getLast?, IsEnd c := by
  intro c hc
  have hm := List.mem_of_getLast? hc
  cases hs with
  | bare =>
    rw [List.append_nil] at hm
    refine ⟨isBlank_of_isNameChar (hn.2 c hm), ?_⟩
    rintro rfl
    exact absurd (hn.2 ':' hm) (by decide)
  | @quoted quote t hq ht =>
    rw [← List.append_assoc, List.getLast?_concat] at hc
    cases hc
    simp only [isQuote, Bool.or_eq_true, decide_eq_true_eq] at hq
    rcases hq with rfl | rfl <;> exact ⟨by decide, by decide⟩
  | @plain t ht =>
    have hl : t.getLast? = some c := by
      obtain ⟨d, t, rfl⟩ := List.exists_cons_of_ne_nil ht.ne_nil
      simpa [List.getLast?_append] using hc
    refine ⟨ht.not_blank c (List.mem_of_getLast? hl), ?_⟩
    rintro rfl
    exact ht.not_colon hl

theorem SpellsAll.isEnd_getLast? (h : SpellsAll s as) : ∀ c ∈ s.getLast?, IsEnd c := by
  induction h with
  | nil => simp
  | @cons blanks name s r value as hb hn hs h ih =>
    intro c hc
    rw [← List.append_assoc, ← List.append_assoc, List.getLast?_append] at hc
    cases hr : r.getLast? with
    | some d =>
      rw [hr] at hc
      cases hc
      exact ih c hr
    | none =>
      have hname : name ++ s ≠ [] := by simp [hn.1]
      rw [hr, Option.none_or, List.append_assoc, List.getLast?_append_of_ne_nil _ hname] at hc
      exact hs.isEnd_getLast? hn c hc

end

end Attribute

namespace Text

theorem strip_eq_stripStart {t : Text} (h : ∀ c ∈ t.getLast?, isBlank c = false) :
    strip t = stripStart t := by
  apply List.rdropWhile_eq_self_iff.2
  intro hne
  obtain ⟨blanks, ht⟩ : stripStart t <:+ t := List.dropWhile_suffix isBlank
  have hl := List.getLast?_append_of_ne_nil blanks hne
  rw [ht, List.getLast?_eq_some_getLast hne] at hl
  rw [h _ hl]
  exact Bool.false_ne_true

end Text

namespace ElementKey

def shorthands (k : ElementKey) : Text :=
  (k.id.map ('#' :: ·)).getD [] ++ k.classes.flatMap ('.' :: ·)

def head (k : ElementKey) : Text := k.tag ++ k.shorthands

structure HasNames (k : ElementKey) : Prop where
  tag : Markup.IsTag k.tag
  id : ∀ name ∈ k.id, Markup.IsTag name
  classes : ∀ name ∈ k.classes, Markup.IsTag name

/-- A text that writes a key, without a colon at the end. -/
structure IsWritten (k : ElementKey) (t : Text) : Prop where
  names : k.HasNames
  attributes : ∃ s, t = k.head ++ s ∧ Attribute.SpellsAll s k.attributes

theorem ne_of_isTagChar {c d : Char} (hd : isTagChar d = false) (h : isTagChar c = true) : d ≠ c := by
  rintro rfl
  rw [hd] at h
  cases h

section

variable {mark : Char} {t r : Text} {names : List Text}

theorem runsAfter_append_of_not_mem (ht : mark ∉ t) : runsAfter mark (t ++ r) = runsAfter mark r := by
  induction t with
  | nil => rfl
  | cons c t ih =>
    rw [List.mem_cons, not_or] at ht
    simp [runsAfter, Ne.symm ht.1, ih ht.2]

theorem runsAfter_of_not_mem (ht : mark ∉ t) : runsAfter mark t = [] := by
  rw [← List.append_nil t, runsAfter_append_of_not_mem ht]
  rfl

theorem not_mem_of_isTag (hm : isTagChar mark = false) (ht : Markup.IsTag t) : mark ∉ t :=
  fun h ↦ ne_of_isTagChar hm (ht.2 mark h) rfl

theorem runsAfter_shorthand (hm : isTagChar mark = false) (ht : Markup.IsTag t)
    (hr : ∀ c ∈ r.head?, isTagChar c = false) :
    runsAfter mark (mark :: (t ++ r)) = t :: runsAfter mark r := by
  rw [runsAfter]
  simp [Text.takeWhile_append ht.2 hr, ht.1,
    runsAfter_append_of_not_mem (not_mem_of_isTag hm ht)]

theorem isTagChar_head?_classes (names : List Text) :
    ∀ c ∈ (names.flatMap ('.' :: ·)).head?, isTagChar c = false := by
  intro c hc
  cases names with
  | nil => cases hc
  | cons name names => cases hc; rfl

theorem runsAfter_classes (h : ∀ name ∈ names, Markup.IsTag name) :
    runsAfter '.' (names.flatMap ('.' :: ·)) = names := by
  induction names with
  | nil => rfl
  | cons name names ih =>
    rw [List.forall_mem_cons] at h
    rw [List.flatMap_cons, List.cons_append,
      runsAfter_shorthand rfl h.1 (isTagChar_head?_classes names), ih h.2]

theorem mem_classes (h : ∀ name ∈ names, Markup.IsTag name) {c : Char}
    (hc : c ∈ names.flatMap ('.' :: ·)) : isTagChar c = true ∨ c = '.' := by
  obtain ⟨name, hn, hc⟩ := List.mem_flatMap.1 hc
  rcases List.mem_cons.1 hc with hc | hc
  · exact .inr hc
  · exact .inl ((h name hn).2 c hc)

end

section

variable {k : ElementKey}

theorem isTagChar_head?_shorthands (k : ElementKey) :
    ∀ c ∈ k.shorthands.head?, isTagChar c = false := by
  intro c hc
  obtain ⟨tag, id, classes, attributes⟩ := k
  cases id with
  | none => exact isTagChar_head?_classes classes c hc
  | some name => cases hc; rfl

theorem HasNames.mem_head (h : k.HasNames) {c : Char} (hc : c ∈ k.head) :
    isTagChar c = true ∨ c = '#' ∨ c = '.' := by
  obtain ⟨tag, id, classes, attributes⟩ := k
  rcases List.mem_append.1 hc with hc | hc
  · exact .inl (h.tag.2 c hc)
  rcases List.mem_append.1 hc with hc | hc
  · cases id with
    | none => cases hc
    | some name =>
      rcases List.mem_cons.1 hc with hc | hc
      · exact .inr (.inl hc)
      · exact .inl ((h.id name rfl).2 c hc)
  · exact (mem_classes h.classes hc).imp_right .inr

theorem HasNames.runsAfter_id (h : k.HasNames) : (runsAfter '#' k.shorthands).head? = k.id := by
  obtain ⟨tag, id, classes, attributes⟩ := k
  have hn : '#' ∉ classes.flatMap ('.' :: ·) := by
    intro hc
    rcases mem_classes h.classes hc with hc | hc <;> exact absurd hc (by decide)
  cases id with
  | none => exact congrArg List.head? (runsAfter_of_not_mem hn)
  | some name =>
    exact congrArg List.head?
      (runsAfter_shorthand rfl (h.id name rfl) (isTagChar_head?_classes classes))

theorem HasNames.runsAfter_classes (h : k.HasNames) : runsAfter '.' k.shorthands = k.classes := by
  obtain ⟨tag, id, classes, attributes⟩ := k
  cases id with
  | none => exact ElementKey.runsAfter_classes h.classes
  | some name =>
    have hd : '.' ∉ '#' :: name := by
      rw [List.mem_cons, not_or]
      exact ⟨by decide, not_mem_of_isTag rfl (h.id name rfl)⟩
    exact (runsAfter_append_of_not_mem hd).trans (ElementKey.runsAfter_classes h.classes)

theorem HasNames.ofHead_head (h : k.HasNames) (attributes : List Attribute) :
    ofHead k.head attributes = { k with attributes } := by
  have heq : '=' ∉ k.head := by
    intro hc
    rcases h.mem_head hc with hc | hc | hc <;> exact absurd hc (by decide)
  have ha : isAttributeHead k.head = false := by
    simp [isAttributeHead, heq]
  have hs := isTagChar_head?_shorthands k
  have htag : k.head.takeWhile isTagChar = k.tag := Text.takeWhile_append h.tag.2 hs
  have hrest : k.head.dropWhile isTagChar = k.shorthands := Text.dropWhile_append h.tag.2 hs
  simp [ofHead, ha, htag, hrest, h.runsAfter_id, h.runsAfter_classes]

variable {t : Text}

theorem IsWritten.getLast?_ne (h : k.IsWritten t) : t.getLast? ≠ some ':' := by
  obtain ⟨hn, s, rfl, hs⟩ := h
  intro hc
  rw [List.getLast?_append] at hc
  cases hl : s.getLast? with
  | some c =>
    rw [hl] at hc
    cases hc
    exact (hs.isEnd_getLast? ':' hl).2 rfl
  | none =>
    rw [hl, Option.none_or] at hc
    rcases hn.mem_head (List.mem_of_getLast? hc) with hc | hc | hc <;> exact absurd hc (by decide)

theorem dropColon_of_ne (h : t.getLast? ≠ some ':') : dropColon t = t := if_neg h

theorem dropColon_concat (t : Text) : dropColon (t ++ [':']) = t := by
  rw [dropColon, if_pos List.getLast?_concat, List.dropLast_concat]

theorem IsWritten.parse_eq (h : k.IsWritten t) : parse t = k := by
  have hd := dropColon_of_ne h.getLast?_ne
  obtain ⟨hn, s, rfl, hs⟩ := h
  have hb : ∀ c ∈ k.head, (!isBlank c) = true := by
    intro c hc
    rcases hn.mem_head hc with hc | rfl | rfl
    · rw [isBlank_of_isTagChar hc]; rfl
    · rfl
    · rfl
  have hr : ∀ c ∈ s.head?, (!isBlank c) = false := by
    intro c hc
    rw [hs.isBlank_head? c hc]; rfl
  have hcut : Text.IsCut (fun c ↦ !isBlank c) (dropColon (k.head ++ s)) k.head s := ⟨hd, hb, hr⟩
  have hscan : Attribute.scan (Text.strip s) = k.attributes := by
    rw [Text.strip_eq_stripStart fun c hc ↦ (hs.isEnd_getLast? c hc).1, Attribute.scan_stripStart,
      Attribute.scan_of_spellsAll hs]
  have hne : k.head ≠ [] := List.append_ne_nil_of_left_ne_nil hn.tag.1 _
  rw [ElementKey.parse_eq hcut, if_neg hne, hscan, hn.ofHead_head]

/-- A key is read back from every text that writes it, and a colon at the end makes no difference. -/
theorem parse_written (h : k.IsWritten t) : parse t = k ∧ parse (t ++ [':']) = k := by
  refine ⟨h.parse_eq, ?_⟩
  have hp := h.parse_eq
  rw [parse, dropColon_of_ne h.getLast?_ne] at hp
  rw [parse, dropColon_concat]
  exact hp

theorem parse_written_mixed :
    let k : ElementKey := ⟨"a", some "x", ["b", "b"],
      [⟨"title", some "c: \"d\".e "⟩, ⟨"href", some "f:g='"⟩, ⟨"hidden", none⟩]⟩
    let t : Text := "a#x.b.b \ttitle='c: \"d\".e ' href=f:g=' hidden"
    k.IsWritten t ∧ parse t = k ∧ parse (t ++ [':']) = k := by
  intro k t
  have hidden : Attribute.SpellsAll " hidden" [⟨"hidden", none⟩] :=
    @Attribute.SpellsAll.cons " " "hidden" _ _ _ _ (by decide) (by decide) .bare .nil
  have href : Attribute.SpellsAll " href=f:g=' hidden" [⟨"href", some "f:g='"⟩, ⟨"hidden", none⟩] :=
    @Attribute.SpellsAll.cons " " "href" _ _ _ _ (by decide) (by decide)
      (@Attribute.Spells.plain "f:g='" (by decide)) hidden
  have title := @Attribute.SpellsAll.cons " \t" "title" _ _ _ _ (by decide) (by decide)
    (@Attribute.Spells.quoted '\'' "c: \"d\".e " (by decide) (by decide)) href
  have h : k.IsWritten t := by
    refine ⟨⟨by decide, ?_, ?_⟩, _, ?_, title⟩
    · intro name hn
      cases hn
      decide
    · have b : Markup.IsTag "b" := by decide
      exact List.forall_mem_cons.2 ⟨b, List.forall_mem_singleton.2 b⟩
    · decide
  exact ⟨h, parse_written h⟩

end

end ElementKey

end TreeMarkup
