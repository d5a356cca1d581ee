import TreeMarkup.Proofs.NamedValues
import TreeMarkup.Proofs.PageSetIssues

namespace TreeMarkup

open Value

/-- A setting is what is given for it, as it is read, or else the default. -/
inductive Settles {α : Type} (read : Value → Check α) (default : α) : Option Value → α → Prop
  | given {v : Value} {a : α} (h : read v = .valid a) : Settles read default (some v) a
  | default : Settles read default none default

namespace Settles

variable {α : Type} {read : Value → Check α} {default x : α} {entries : List (Value × Value)}
  {name : Text}

theorem of_fieldOr (h : fieldOr name default read entries = .valid x) :
    Settles read default (lookup? name entries) x := by
  rw [fieldOr_eq_valid_iff] at h
  cases hl : lookup? name entries with
  | none =>
    rw [hl] at h
    exact h ▸ .default
  | some v =>
    rw [hl] at h
    exact .given h

theorem of_optional {own : Option α}
    (h : fieldOr name none (readOptional read) entries = .valid own) :
    Settles read default (given? name entries) (own.getD default) := by
  rw [optional_eq_valid_iff] at h
  cases hg : given? name entries with
  | none =>
    rw [hg] at h
    exact h ▸ .default
  | some v =>
    rw [hg] at h
    obtain ⟨a, ha, rfl⟩ := h
    exact .given ha

end Settles

def givenMultiKey? (fields : List (Value × Value)) : Option Value :=
  ((lookup? "allowMultiKey" fields).or (lookup? "allow_multi_key" fields)).filter
    fun v ↦ v.kind ≠ .null

theorem given?_multiKeyField (fields : List (Value × Value)) :
    given? (multiKeyField fields) fields = givenMultiKey? fields := by
  unfold given? givenMultiKey? multiKeyField
  cases h : lookup? "allowMultiKey" fields with
  | none => rfl
  | some v =>
    rw [Option.isSome_some, if_pos rfl, h, Option.some_or]

def readTemplate (v : Value) : Check (Option Text) := v.readText.map some

namespace PageSet

structure Settled (set : PageSet) (fields : List (Value × Value)) (page : Page) : Prop where
  pretty : Settles readBoolean set.defaults.pretty (given? "pretty" fields) (set.prettyFor page)
  allowMultiKey : Settles readBoolean set.defaults.allowMultiKey (givenMultiKey? fields)
    (set.optionsFor page).allowMultiKey
  template_iff :
    Settles readTemplate set.defaults.template (given? "template" fields) (set.templateFor page) ↔
      ((given? "template" fields).map readText = some (.valid []) →
        set.defaults.template = some [])
  template_of_empty (h : (given? "template" fields).map readText = some (.valid [])) :
    set.templateFor page = set.defaults.template
  context : Settles readMapping [] (lookup? "context" fields) page.context
  names_context (name : Text) : name ∈ (set.contextFor page).map Prod.fst ↔
    name ∈ page.context.map Prod.fst ∨ name ∈ set.defaults.context.map Prod.fst
  nodup_context : ((set.contextFor page).map Prod.fst).Nodup
  get?_context (name : Text) : (set.contextFor page).get? name =
    (page.context.get? name).or (set.defaults.context.get? name)

variable {set : PageSet} {fields : List (Value × Value)} {page : Page}

theorem template_of_given (h : page.IsReadFrom fields) {v : Value}
    (hg : given? "template" fields = some v) :
    ∃ t, v.readText = .valid t ∧ page.template = some t := by
  have ht := h.template
  rwa [optional_eq_valid_iff, hg] at ht

theorem templateFor_of_empty (h : page.IsReadFrom fields)
    (he : (given? "template" fields).map readText = some (.valid [])) :
    set.templateFor page = set.defaults.template := by
  obtain ⟨v, hg, hv⟩ := Option.map_eq_some_iff.1 he
  obtain ⟨t, ht, hp⟩ := template_of_given h hg
  obtain rfl : [] = t := Check.valid.inj (hv.symm.trans ht)
  rw [templateFor, hp]

theorem settles_template (h : page.IsReadFrom fields)
    (hn : (given? "template" fields).map readText ≠ some (.valid [])) :
    Settles readTemplate set.defaults.template (given? "template" fields)
      (set.templateFor page) := by
  cases hg : given? "template" fields with
  | none =>
    have ht := h.template
    rw [optional_eq_valid_iff, hg] at ht
    rw [templateFor, ht]
    exact .default
  | some v =>
    obtain ⟨t, hv, hp⟩ := template_of_given h hg
    have hr : readTemplate v = .valid (some t) := by rw [readTemplate, hv]; rfl
    cases t with
    | nil => exact absurd (by rw [hg, Option.map_some, hv]) hn
    | cons c t =>
      rw [templateFor, hp]
      exact .given hr

theorem settles_template_iff (h : page.IsReadFrom fields) :
    Settles readTemplate set.defaults.template (given? "template" fields) (set.templateFor page) ↔
      ((given? "template" fields).map readText = some (.valid []) →
        set.defaults.template = some []) := by
  by_cases he : (given? "template" fields).map readText = some (.valid [])
  · obtain ⟨v, hg, hv⟩ := Option.map_eq_some_iff.1 he
    have hr : readTemplate v = .valid (some []) := by rw [readTemplate, hv]; rfl
    rw [templateFor_of_empty h he, hg]
    constructor
    · rintro ⟨hs⟩ -
      exact Check.valid.inj (hs.symm.trans hr)
    · intro hd
      rw [hd (by rw [Option.map_some, hv])]
      exact .given hr
  · exact iff_of_true (settles_template h he) fun hr ↦ absurd hr he

theorem settled_of_isReadFrom (h : page.IsReadFrom fields)
    (hd : (set.defaults.context.map Prod.fst).Nodup) : set.Settled fields page where
  pretty := .of_optional h.pretty
  allowMultiKey := given?_multiKeyField fields ▸ .of_optional h.allowMultiKey
  template_iff := settles_template_iff h
  template_of_empty := templateFor_of_empty h
  context := .of_fieldOr h.context
  names_context := mem_names_contextFor_iff set page
  nodup_context := nodup_names_contextFor set page (nodup_names_of_context h.context) hd
  get?_context := get?_contextFor set page

/-- Every page of a page set that is read has the settings that it gives and those of the defaults
for the rest, but that a template that reads as the empty text counts as none given. -/
theorem settled_of_read {data : Value} {set : PageSet} (h : read data = .valid set) :
    ∃ entries, data = .map entries ∧
      Settles PageDefaults.read {} (lookup? "defaults" entries) set.defaults ∧
      List.Forall₂ (fun v page ↦ ∃ fields, v = .map fields ∧ set.Settled fields page)
        (pageItems entries) set.pages := by
  obtain ⟨entries, rfl⟩ := exists_map_of_readRecord h
  obtain ⟨hd, hp⟩ := read_map_eq_valid_iff.1 h
  refine ⟨entries, rfl, .of_fieldOr hd, (readsPages_pageItems hp).1.imp fun v page hv ↦ ?_⟩
  obtain ⟨fields, rfl⟩ := exists_map_of_readRecord hv
  exact ⟨fields, rfl,
    settled_of_isReadFrom (Page.read_map_eq_valid_iff.1 hv) (nodup_names_defaults hd)⟩

def bareFields : List (Value × Value) :=
  [(.text "key", .text "a"), (.text "source", .text "a.yaml"), (.text "template", .text []),
    (.text "pretty", .integer 0)]

def layoutEntries : List (Value × Value) :=
  [(.text "defaults",
      .map [(.text "template", .text "layout.html"), (.text "pretty", .text "on")]),
    (.text "pages", .list [.map bareFields])]

def layoutSet : PageSet :=
  ⟨{ template := some "layout.html", pretty := true },
    [{ key := "a", source := "a.yaml", template := some [], pretty := some false }]⟩

theorem settled_of_read_layoutSet :
    read (.map layoutEntries) = .valid layoutSet ∧
      ∃ entries, Value.map layoutEntries = .map entries ∧
        Settles PageDefaults.read {} (lookup? "defaults" entries) layoutSet.defaults ∧
        List.Forall₂ (fun v page ↦ ∃ fields, v = .map fields ∧ layoutSet.Settled fields page)
          (pageItems entries) layoutSet.pages := by
  have h : read (.map layoutEntries) = .valid layoutSet := rfl
  exact ⟨h, settled_of_read h⟩

/-- The page is not pretty, as it asks, but it has the template of the defaults. -/
theorem emptyTemplate_takes_default :
    read (.map layoutEntries) = .valid layoutSet ∧
      given? "template" bareFields = some (.text []) ∧
      ∀ page ∈ layoutSet.pages, layoutSet.prettyFor page = false ∧
        layoutSet.templateFor page = some "layout.html".toList ∧
        ¬Settles readTemplate layoutSet.defaults.template (given? "template" bareFields)
          (layoutSet.templateFor page) := by
  refine ⟨rfl, rfl, ?_⟩
  rintro page (_ | ⟨_, ⟨⟩⟩)
  refine ⟨rfl, rfl, ?_⟩
  rintro ⟨hr⟩
  have he := Option.some.inj (Check.valid.inj hr)
  exact absurd he (by decide)

end PageSet

end TreeMarkup
