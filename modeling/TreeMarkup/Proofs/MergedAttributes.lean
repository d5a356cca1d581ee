import Mathlib.Data.List.Induction
import TreeMarkup.Proofs.KeyParts
import TreeMarkup.Proofs.StackRendering

namespace TreeMarkup

theorem foldl_eq_getLast?_filter {α β : Type} (p : α → Bool) (f : α → β) (start : Option β)
    (l : List α) :
    l.foldl (fun found a ↦ if p a = true then some (f a) else found) start =
      ((l.filter p).getLast?.map f).or start := by
  induction l using List.reverseRecOn with
  | nil => rfl
  | append_singleton l a ih =>
    rw [List.foldl_append, ih, List.filter_append]
    cases hp : p a with
    | true => simp [hp]
    | false => simp [hp]

namespace Text

def IsWord (w : Text) : Prop := w ≠ [] ∧ ∀ c ∈ w, isBlank c = false

theorem isWord_of_mem_words {t w : Text} (h : w ∈ words t) : w.IsWord := by
  fun_induction words t with
  | case1 => cases h
  | case2 t c rest hs ih =>
    rcases List.mem_cons.1 h with rfl | h
    · have hc : isBlank c = false := by
        have hh := List.head?_dropWhile_not isBlank t
        rw [show t.dropWhile isBlank = c :: rest from hs] at hh
        simpa using hh
      refine ⟨by simp [word, hc], fun d hd ↦ ?_⟩
      simpa using List.mem_takeWhile_imp hd
    · exact ih h

/-- Words with blanks between them are read as they were written. -/
theorem words_intercalate {ws : List Text} (h : ∀ w ∈ ws, w.IsWord) :
    words (List.intercalate " ".toList ws) = ws := by
  induction ws with
  | nil => exact words_nil
  | cons w ws ih =>
    obtain ⟨⟨hn, hw⟩, h⟩ := List.forall_mem_cons.1 h
    cases ws with
    | nil =>
      have hr := words_append (t := []) hn hw fun c hc ↦ by cases hc
      rw [List.append_nil, words_nil] at hr
      rw [List.intercalate_singleton, hr]
    | cons v ws =>
      have hr := words_append (t := ' ' :: List.intercalate " ".toList (v :: ws)) hn hw
        fun c hc ↦ by cases hc; decide
      rw [words_cons_of_isBlank (by decide), ih h] at hr
      rw [List.intercalate_cons_cons, List.append_assoc]
      exact hr

end Text

namespace ElementKey

/-- The last id among the attributes, a bare one standing for a word, or else the shorthand. -/
def idAttribute (k : ElementKey) : Option Attribute :=
  let last := (k.attributes.filter fun a ↦ a.name = "id".toList).getLast?
  ((last.map fun a ↦ a.value.getD "true").or k.id).map fun id ↦ ⟨"id", some id⟩

/-- The classes of the shorthands, and after them the words of the first attribute for classes. -/
def classWords (k : ElementKey) : List Text :=
  let first := (k.attributes.filter fun a ↦ a.name = "class".toList).head?
  k.classes ++ (first.bind Attribute.value).elim [] Text.words

def classAttribute (k : ElementKey) : Option Attribute :=
  if k.classWords = [] then none
  else some ⟨"class", some (List.intercalate " ".toList k.classWords)⟩

/-- The attributes of the key: its id, its classes, and the others in their order. -/
def ownAttributes (k : ElementKey) : List Attribute :=
  k.idAttribute.toList ++ k.classAttribute.toList ++
    k.attributes.filter fun a ↦ a.name ≠ "id".toList ∧ a.name ≠ "class".toList

variable {k : ElementKey} {a : Attribute}

theorem resolvedId_eq (k : ElementKey) :
    k.resolvedId = (((k.attributes.filter fun a ↦ a.name = "id".toList).getLast?).map
      fun a ↦ a.value.getD "true").or k.id := by
  rw [← foldl_eq_getLast?_filter, resolvedId]
  simp only [decide_eq_true_eq]

theorem classList_eq (k : ElementKey) : k.classList = k.classWords := by
  rw [classList, classWords, List.head?_filter]
  cases k.attributes.find? fun a ↦ a.name = "class".toList with
  | none => rfl
  | some a =>
    obtain ⟨name, value⟩ := a
    cases value <;> rfl

/-- The attribute that is put together for the classes is read as those classes. -/
theorem words_of_classAttribute {key : Text} (h : a ∈ (parse key).classAttribute) :
    a.value.map Text.words = some (parse key).classWords := by
  have hw : ∀ w ∈ (parse key).classWords, w.IsWord := by
    intro w hw
    rcases List.mem_append.1 hw with hw | hw
    · obtain ⟨hn, hw⟩ := (isNamed_parse key).classes w hw
      exact ⟨hn, fun c hc ↦ isBlank_of_isTagChar (hw c hc)⟩
    · cases hf : ((parse key).attributes.filter fun a ↦ a.name = "class".toList).head?.bind
          Attribute.value with
      | none =>
        rw [hf] at hw
        cases hw
      | some v =>
        rw [hf] at hw
        exact Text.isWord_of_mem_words hw
  unfold classAttribute at h
  split at h
  · cases h
  · cases h
    exact congrArg some (Text.words_intercalate hw)

theorem written_eq (k : ElementKey) : k.written = k.ownAttributes := by
  rw [written, ownAttributes, classAttribute, idAttribute, classList_eq, resolvedId_eq]
  congr 2
  cases k.classWords <;> rfl

theorem name_of_mem_idAttribute (h : a ∈ k.idAttribute) : a.name = "id".toList := by
  obtain ⟨id, -, rfl⟩ := Option.map_eq_some_iff.1 h
  rfl

theorem name_of_mem_classAttribute (h : a ∈ k.classAttribute) : a.name = "class".toList := by
  unfold classAttribute at h
  split at h
  · cases h
  · cases h
    rfl

theorem countP_toList_le {o : Option Attribute} {n : Text} (h : ∀ a ∈ o, a.name = n) (name : Text) :
    o.toList.countP (·.name = name) ≤ if name = n then 1 else 0 := by
  cases o with
  | none => exact Nat.zero_le _
  | some a =>
    have ha := h a rfl
    by_cases hn : name = n
    · rw [if_pos hn]
      exact List.countP_le_length
    · rw [Option.toList_some, List.countP_singleton, ha, decide_eq_false (Ne.symm hn)]
      exact Nat.zero_le _

theorem countP_ownAttributes (k : ElementKey) (name : Text) :
    k.ownAttributes.countP (·.name = name) ≤
      if name = "id".toList ∨ name = "class".toList then 1
      else k.attributes.countP (·.name = name) := by
  have hid := countP_toList_le (fun _ ↦ name_of_mem_idAttribute (k := k)) name
  have hclass := countP_toList_le (fun _ ↦ name_of_mem_classAttribute (k := k)) name
  rw [ownAttributes, List.countP_append, List.countP_append]
  by_cases h : name = "id".toList ∨ name = "class".toList
  · have hother : (k.attributes.filter fun a ↦
        a.name ≠ "id".toList ∧ a.name ≠ "class".toList).countP (·.name = name) = 0 := by
      refine List.countP_eq_zero.2 fun a ha hn ↦ ?_
      obtain ⟨-, ha⟩ := List.mem_filter.1 ha
      rw [of_decide_eq_true hn] at ha
      exact (not_or.2 (of_decide_eq_true ha)) h
    rw [hother, if_pos h]
    rcases h with rfl | rfl
    · rw [if_pos rfl] at hid
      rw [if_neg (by decide)] at hclass
      omega
    · rw [if_neg (by decide)] at hid
      rw [if_pos rfl] at hclass
      omega
  · have hother : (k.attributes.filter fun a ↦
        a.name ≠ "id".toList ∧ a.name ≠ "class".toList).countP (·.name = name) ≤
          k.attributes.countP (·.name = name) :=
      List.filter_sublist.countP_le
    rw [not_or] at h
    rw [if_neg h.1] at hid
    rw [if_neg h.2] at hclass
    rw [if_neg (not_or.2 h)]
    omega

theorem name_mem_ownAttributes (ha : a ∈ k.attributes)
    (hc : a.name = "class".toList → k.classWords ≠ []) :
    a.name ∈ k.ownAttributes.map Attribute.name := by
  rw [ownAttributes, List.map_append, List.map_append, List.mem_append, List.mem_append]
  by_cases hi : a.name = "id".toList
  · have hm : a ∈ k.attributes.filter fun a ↦ a.name = "id".toList :=
      List.mem_filter.2 ⟨ha, decide_eq_true hi⟩
    have hl := List.getLast?_eq_some_getLast (List.ne_nil_of_mem hm)
    rw [idAttribute, hl, hi]
    exact .inl (.inl List.mem_cons_self)
  by_cases hn : a.name = "class".toList
  · rw [classAttribute, if_neg (hc hn), hn]
    exact .inl (.inr List.mem_cons_self)
  · refine .inr (List.mem_map_of_mem (List.mem_filter.2 ⟨ha, ?_⟩))
    exact decide_eq_true ⟨hi, hn⟩

end ElementKey

theorem Value.isText_iff {t : Text} {v : Value} : v.isText t = true ↔ v = text t := by
  cases v <;> simp [isText]

namespace OpeningTag

/-- Whether the key of an entry stands for an attribute that is not there yet, after attributes of
the given names and the entries before. Only texts are names. -/
def isFresh (names : List Text) (before : List (Value × Value)) : Value → Bool
  | .text name => name ≠ "children".toList && !names.contains name && !before.any (·.1.isText name)
  | _ => true

def freshEntries (names : List Text) (entries : List (Value × Value)) : List (Value × Value) :=
  (entries.zipIdx.filter fun x ↦ isFresh names (entries.take x.2) x.1.1).map Prod.fst

def entryAttribute (e : Value × Value) : Except ConversionError Attribute :=
  e.2.attributeValue.map fun value ↦ ⟨e.1.display, value⟩

theorem freshEntries_append_singleton (names : List Text) (entries : List (Value × Value))
    (e : Value × Value) :
    freshEntries names (entries ++ [e]) =
      freshEntries names entries ++ if isFresh names entries e.1 then [e] else [] := by
  have ht : (entries.zipIdx.filter fun x ↦ isFresh names ((entries ++ [e]).take x.2) x.1.1) =
      entries.zipIdx.filter fun x ↦ isFresh names (entries.take x.2) x.1.1 := by
    refine List.filter_congr fun x hx ↦ ?_
    have hi : x.2 < entries.length := by
      simpa using (List.mem_zipIdx hx).2.1
    rw [List.take_append_of_le_length (Nat.le_of_lt hi)]
  rw [freshEntries, freshEntries, List.zipIdx_append, List.filter_append, List.map_append, ht]
  cases h : isFresh names entries e.1 with
  | true => simp [h]
  | false => simp [h]

theorem isFresh_text_iff {names : List Text} {before : List (Value × Value)} {name : Text} :
    isFresh names before (.text name) = true ↔
      name ≠ "children".toList ∧ name ∉ names ∧ ∀ e ∈ before, e.1.isText name = false := by
  simp only [isFresh, Bool.and_eq_true, decide_eq_true_eq, Bool.not_eq_true', List.contains_eq_mem,
    decide_eq_false_iff_not, List.any_eq_false, Bool.not_eq_true, and_assoc, ne_eq]

def AreSeen (names : List Text) (before : List (Value × Value)) (seen : List Text) : Prop :=
  ∀ name, name ∈ seen ↔
    name ∈ names ∨ name ≠ "children".toList ∧ ∃ e ∈ before, e.1.isText name = true

section

variable {names seen : List Text} {before : List (Value × Value)}

theorem AreSeen.isFresh_iff (h : AreSeen names before seen) (key : Value) :
    isFresh names before key = true ↔
      key.isText "children" = false ∧ isWritten seen key = false := by
  cases key with
  | text name =>
    have hc : Value.isText "children" (.text name) = false ↔ name ≠ "children".toList := by
      simp only [Value.isText, decide_eq_false_iff_not, ne_eq]
    have hw : isWritten seen (.text name) = false ↔ name ∉ seen := by
      simp only [isWritten, List.contains_eq_mem, decide_eq_false_iff_not]
    rw [isFresh_text_iff, hc, hw, h name]
    constructor
    · rintro ⟨hn, hm, hb⟩
      refine ⟨hn, ?_⟩
      rintro (hm' | ⟨-, e, he, ht⟩)
      · exact hm hm'
      · rw [hb e he] at ht
        cases ht
    · rintro ⟨hn, hs⟩
      refine ⟨hn, fun hm ↦ hs (.inl hm), fun e he ↦ ?_⟩
      exact Bool.eq_false_iff.2 fun ht ↦ hs (.inr ⟨hn, e, he, ht⟩)
  | _ => exact iff_of_true rfl ⟨rfl, rfl⟩

theorem AreSeen.append_of_isWritten (h : AreSeen names before seen) {key : Value}
    (hk : key.isText "children" = true ∨ isWritten seen key = true) (value : Value) :
    AreSeen names (before ++ [(key, value)]) seen := by
  intro name
  constructor
  · intro hm
    rcases (h name).1 hm with hm | ⟨hn, e, he, ht⟩
    · exact .inl hm
    · exact .inr ⟨hn, e, List.mem_append_left _ he, ht⟩
  · rintro (hm | ⟨hn, e, he, ht⟩)
    · exact (h name).2 (.inl hm)
    · rcases List.mem_append.1 he with he | he
      · exact (h name).2 (.inr ⟨hn, e, he, ht⟩)
      · rw [List.mem_singleton.1 he] at ht
        cases Value.isText_iff.1 ht
        rcases hk with hk | hk
        · exact absurd (of_decide_eq_true hk) hn
        · exact List.contains_iff_mem.1 hk

theorem AreSeen.append (h : AreSeen names before seen) {key : Value}
    (hk : key.isText "children" = false) (value : Value) :
    AreSeen names (before ++ [(key, value)]) (addName seen key) := by
  intro name
  have hadd : name ∈ addName seen key ↔ name ∈ seen ∨ key.isText name = true := by
    cases key with
    | text t =>
      rw [addName, List.mem_cons, or_comm, Value.isText_iff, Value.text.injEq, eq_comm]
    | _ => simp [addName, Value.isText]
  have hn : key.isText name = true → name ≠ "children".toList := by
    rintro ht rfl
    exact Bool.noConfusion (ht.symm.trans hk)
  rw [hadd, h name]
  constructor
  · rintro ((hm | ⟨hc, e, he, ht⟩) | ht)
    · exact .inl hm
    · exact .inr ⟨hc, e, List.mem_append_left _ he, ht⟩
    · exact .inr ⟨hn ht, _, List.mem_append_right _ (List.mem_singleton_self _), ht⟩
  · rintro (hm | ⟨hc, e, he, ht⟩)
    · exact .inl (.inl hm)
    · rcases List.mem_append.1 he with he | he
      · exact .inl (.inr ⟨hc, e, he, ht⟩)
      · rw [List.mem_singleton.1 he] at ht
        exact .inr ht

theorem entryAttributes_cons_of_isWritten {key : Value}
    (hk : key.isText "children" = true ∨ isWritten seen key = true) (value : Value)
    (entries : List (Value × Value)) :
    entryAttributes seen (((key, value) :: entries).filter fun e ↦ !e.1.isText "children") =
      entryAttributes seen (entries.filter fun e ↦ !e.1.isText "children") := by
  rw [List.filter_cons]
  cases hc : key.isText "children" with
  | true => rfl
  | false =>
    have hw : isWritten seen key = true := hk.resolve_left (by rw [hc]; exact Bool.false_ne_true)
    rw [Bool.not_false, if_pos rfl, entryAttributes, if_pos hw]

/-- The attributes that entries add are those of the fresh ones among them. -/
theorem entryAttributes_eq_mapM (h : AreSeen names before seen) (entries : List (Value × Value)) :
    ∃ fresh, freshEntries names (before ++ entries) = freshEntries names before ++ fresh ∧
      entryAttributes seen (entries.filter fun e ↦ !e.1.isText "children") =
        fresh.mapM entryAttribute := by
  induction entries generalizing seen before with
  | nil => exact ⟨[], by simp, rfl⟩
  | cons e entries ih =>
    obtain ⟨key, value⟩ := e
    have hsplit : before ++ (key, value) :: entries = (before ++ [(key, value)]) ++ entries := by
      rw [List.append_assoc, List.singleton_append]
    rw [hsplit]
    -- The entry joins those before, and `seen` grows by its name only if it is fresh.
    by_cases hk : key.isText "children" = true ∨ isWritten seen key = true
    · obtain ⟨fresh, hf, ha⟩ := ih (h.append_of_isWritten hk value)
      have hn : ¬isFresh names before key = true := by
        rw [h.isFresh_iff]
        rintro ⟨hc, hw⟩
        rw [hc, hw] at hk
        rcases hk with hk | hk <;> cases hk
      refine ⟨fresh, ?_, (entryAttributes_cons_of_isWritten hk value entries).trans ha⟩
      rw [hf, freshEntries_append_singleton, if_neg hn, List.append_nil]
    · rw [not_or, Bool.not_eq_true, Bool.not_eq_true] at hk
      obtain ⟨fresh, hf, ha⟩ := ih (h.append hk.1 value)
      refine ⟨(key, value) :: fresh, ?_, ?_⟩
      · rw [hf, freshEntries_append_singleton, if_pos ((h.isFresh_iff key).2 hk), List.append_assoc]
        rfl
      · rw [List.filter_cons, hk.1, Bool.not_false, if_pos rfl, entryAttributes, hk.2,
          if_neg Bool.false_ne_true, ha, List.mapM_cons, entryAttribute]
        cases value.attributeValue with
        | error e => rfl
        | ok v => rfl

end

theorem mem_freshEntries {names : List Text} {entries : List (Value × Value)} {e : Value × Value}
    (he : e ∈ freshEntries names entries) :
    e ∈ entries ∧ ∀ name, e.1 = .text name → name ≠ "children".toList ∧ name ∉ names := by
  obtain ⟨x, hx, rfl⟩ := List.mem_map.1 he
  obtain ⟨hx, hf⟩ := List.mem_filter.1 hx
  refine ⟨(List.fst_mem_of_mem_zipIdx hx), fun name hn ↦ ?_⟩
  rw [hn] at hf
  obtain ⟨hc, hm, -⟩ := isFresh_text_iff.1 hf
  exact ⟨hc, hm⟩

theorem countP_freshEntries (names : List Text) (entries : List (Value × Value)) (name : Text) :
    (freshEntries names entries).countP (·.1.isText name) ≤ 1 := by
  induction entries using List.reverseRecOn with
  | nil => exact Nat.zero_le _
  | append_singleton entries e ih =>
    rw [freshEntries_append_singleton, List.countP_append]
    by_cases h : isFresh names entries e.1 = true ∧ e.1.isText name = true
    · obtain ⟨hf, ht⟩ := h
      have he := Value.isText_iff.1 ht
      have hb := (isFresh_text_iff.1 (he ▸ hf)).2.2
      have hz : (freshEntries names entries).countP (·.1.isText name) = 0 :=
        List.countP_eq_zero.2 fun d hd ↦ Bool.eq_false_iff.1 (hb d (mem_freshEntries hd).1)
      rw [hz, Nat.zero_add]
      exact Nat.le_trans List.countP_le_length (by split <;> simp)
    · have hz : (if isFresh names entries e.1 then [e] else []).countP (·.1.isText name) = 0 := by
        split
        · rename_i hf
          rw [List.countP_singleton, if_neg fun ht ↦ h ⟨hf, ht⟩]
        · rfl
      rw [hz]
      exact ih

theorem countP_names (own : List Attribute) (entries : List (Value × Value)) (name : Text) :
    (own.map (fun a ↦ Value.text a.name) ++
        (freshEntries (own.map Attribute.name) entries).map Prod.fst).countP (Value.isText name) ≤
      max 1 (own.countP (·.name = name)) := by
  have hown : (own.map fun a ↦ Value.text a.name).countP (Value.isText name) =
      own.countP (·.name = name) := by
    rw [List.countP_map]
    refine List.countP_congr fun a _ ↦ ?_
    rw [Function.comp_apply, Value.isText_iff, Value.text.injEq, decide_eq_true_eq]
  have hfresh := countP_freshEntries (own.map Attribute.name) entries name
  rw [List.countP_append, hown, List.countP_map, Function.comp_def]
  by_cases hm : name ∈ own.map Attribute.name
  · have hz : (freshEntries (own.map Attribute.name) entries).countP (·.1.isText name) = 0 :=
      List.countP_eq_zero.2 fun e he ht ↦
        ((mem_freshEntries he).2 name (Value.isText_iff.1 ht)).2 hm
    omega
  · have hz : own.countP (·.name = name) = 0 :=
      List.countP_eq_zero.2 fun a ha hn ↦
        hm (List.mem_map.2 ⟨a, ha, of_decide_eq_true hn⟩)
    omega

end OpeningTag

theorem ElementKey.given_map (k : ElementKey) (entries : List (Value × Value)) :
    k.given (.map entries) =
      (OpeningTag.freshEntries (k.ownAttributes.map Attribute.name) entries).mapM
        OpeningTag.entryAttribute := by
  have hs : OpeningTag.AreSeen (k.ownAttributes.map Attribute.name) []
      (k.ownAttributes.map Attribute.name) := by
    intro name
    simp
  obtain ⟨fresh, hf, ha⟩ := OpeningTag.entryAttributes_eq_mapM hs entries
  rw [List.nil_append] at hf
  rw [given, written_eq, ha, hf]
  rfl

section

open OpeningTag

variable {key : Text}

theorem render_element (hd : isDoctype key = false) (ht : (ElementKey.parse key).tag ≠ [])
    (options : Options) (content : Value) :
    render options (.map [(.text key, content)]) = do
      let k := ElementKey.parse key
      let given ← k.given content
      let children ← (if Markup.isVoid k.tag then .ok [] else content.contentParts options k.tag)
      return (Part.element k.tag k.written given children).write := by
  have hp : (Value.map [(.text key, content)]).parts options =
      elementParts key content fun tag ↦ content.contentParts options tag := rfl
  rw [render_eq_writeAll_pieces, Part.map_writeAll_piecesAll, hp, elementParts, hd,
    if_neg Bool.false_ne_true]
  simp only [ht, if_false]
  cases (ElementKey.parse key).given content with
  | error e => rfl
  | ok given =>
    cases (if Markup.isVoid (ElementKey.parse key).tag then Except.ok []
      else content.contentParts options (ElementKey.parse key).tag) with
    | error e => rfl
    | ok children => exact congrArg Except.ok (List.append_nil _)

/-- What stands in the opening tag of an element with an attribute mapping: the attributes of its
key, and then those entries whose names are not there yet. Id and class are there once at most, no
entry stands for an attribute of the key or for an earlier entry, and only a key that repeats an
attribute has it twice. -/
theorem render_attributes_merged (hd : isDoctype key = false)
    (ht : (ElementKey.parse key).tag ≠ []) (entries : List (Value × Value)) :
    let k := ElementKey.parse key
    let fresh := freshEntries (k.ownAttributes.map Attribute.name) entries
    let names := k.ownAttributes.map (fun a ↦ Value.text a.name) ++ fresh.map Prod.fst
    (∀ options, render options (.map [(.text key, .map entries)]) = do
      let given ← fresh.mapM entryAttribute
      let children ← (if Markup.isVoid k.tag then .ok []
        else (Value.map entries).contentParts options k.tag)
      return (Part.element k.tag k.ownAttributes given children).write) ∧
    (∀ name, name = "id".toList ∨ name = "class".toList → names.countP (Value.isText name) ≤ 1) ∧
    (∀ a ∈ k.ownAttributes, ∀ e ∈ fresh, e.1 ≠ .text a.name) ∧
    (∀ a ∈ k.attributes, (a.name = "class".toList → k.classWords ≠ []) →
      ∀ e ∈ fresh, e.1 ≠ .text a.name) ∧
    (∀ name, fresh.countP (·.1.isText name) ≤ 1) ∧
    ∀ name, 1 < names.countP (Value.isText name) →
      name ≠ "id".toList ∧ name ≠ "class".toList ∧ 1 < k.attributes.countP (·.name = name) := by
  intro k fresh names
  have hrender : ∀ options, render options (.map [(.text key, .map entries)]) = do
      let given ← fresh.mapM entryAttribute
      let children ← (if Markup.isVoid k.tag then .ok []
        else (Value.map entries).contentParts options k.tag)
      return (Part.element k.tag k.ownAttributes given children).write := by
    intro options
    rw [render_element hd ht]
    simp only [ElementKey.given_map, ElementKey.written_eq]
    rfl
  have hown : ∀ name ∈ k.ownAttributes.map Attribute.name, ∀ e ∈ fresh, e.1 ≠ .text name :=
    fun name hn e he hk ↦ ((mem_freshEntries he).2 name hk).2 hn
  have hcount : ∀ name, names.countP (Value.isText name) ≤
      max 1 (k.ownAttributes.countP (·.name = name)) := countP_names k.ownAttributes entries
  refine ⟨hrender, ?_, fun a ha ↦ hown a.name (List.mem_map_of_mem ha),
    fun a ha hc ↦ hown a.name (ElementKey.name_mem_ownAttributes ha hc),
    countP_freshEntries _ entries, ?_⟩
  · intro name hn
    have h := k.countP_ownAttributes name
    rw [if_pos hn] at h
    exact Nat.le_trans (hcount name) (Nat.max_le.2 ⟨Nat.le_refl _, h⟩)
  · intro name hn
    have h := k.countP_ownAttributes name
    have hc := hcount name
    by_cases hi : name = "id".toList ∨ name = "class".toList
    · rw [if_pos hi] at h
      omega
    · rw [if_neg hi] at h
      rw [not_or] at hi
      exact ⟨hi.1, hi.2, by omega⟩

open Value in
theorem render_attributes_merged_bareClass :
    render {} (map [(text "a#x class id=z t t=1 class=d", map [(text "id", text "q"),
        (text "class", text "r"), (text "t", integer 5), (integer 1, text "v"),
        (text "children", list [text "b"]), (text "u", boolean true)])]) =
      .ok "<a id=\"z\" t t=\"1\" class=\"r\" 1=\"v\" u>b</a>" ∧
    render {} (map [(text "p.m title=t class=' k  l ' class=d.n", map [(text "class", text "r"),
        (text "title", null), (text "children", list [text "b"])])]) =
      .ok "<p class=\"m k l\" title=\"t\">b</p>" := by
  rw [(render_attributes_merged (by decide) (by decide +kernel) _).1,
    (render_attributes_merged (by decide) (by decide +kernel) _).1]
  decide +kernel

end
end TreeMarkup
