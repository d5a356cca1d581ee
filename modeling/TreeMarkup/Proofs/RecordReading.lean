import TreeMarkup.Settings.Basic

namespace TreeMarkup

namespace Check

variable {α β : Type}

theorem apply_eq_valid_iff {f : Check (α → β)} {a : Check α} {b : β} :
    f.apply a = valid b ↔ ∃ g x, f = valid g ∧ a = valid x ∧ g x = b := by
  cases f with
  | invalid issues => cases a <;> simp [apply]
  | valid g => cases a <;> simp [apply]

theorem under_eq_valid_iff {step : Step} {a : Check α} {x : α} :
    a.under step = valid x ↔ a = valid x := by
  cases a <;> simp [under]

theorem map_eq_valid {f : α → β} {a : Check α} {b : β} (h : a.map f = valid b) :
    ∃ x, a = valid x ∧ f x = b := by
  cases a with
  | invalid issues => cases h
  | valid x =>
    cases h
    exact ⟨x, rfl, rfl⟩

theorem bind_eq_valid {a : Check α} {f : α → Check β} {b : β} (h : a.bind f = valid b) :
    ∃ x, a = valid x ∧ f x = valid b := by
  cases a with
  | invalid issues => cases h
  | valid x => exact ⟨x, rfl, h⟩

theorem issues_apply (f : Check (α → β)) (a : Check α) :
    (f.apply a).issues = f.issues ++ a.issues := by
  cases f with
  | valid g => cases a <;> rfl
  | invalid found =>
    cases a with
    | valid x => exact (List.append_nil found).symm
    | invalid more => rfl

theorem issues_map (f : α → β) (a : Check α) : (a.map f).issues = a.issues := by
  cases a <;> rfl

theorem issues_under (step : Step) (a : Check α) :
    (a.under step).issues = a.issues.map (Issue.under step) := by
  cases a <;> rfl

end Check

namespace Value

variable {α : Type} {read : Value → Check α} {entries : List (Value × Value)} {name : Text}

/-- What a mapping gives for a field. To give null is to give nothing. -/
def given? (name : Text) (entries : List (Value × Value)) : Option Value :=
  (lookup? name entries).filter fun v ↦ v.kind ≠ .null

theorem required_eq_valid_iff {x : α} :
    required name read entries = .valid x ↔
      ∃ v, lookup? name entries = some v ∧ read v = .valid x := by
  unfold required
  cases lookup? name entries with
  | none =>
    constructor
    · exact fun h ↦ nomatch h
    · rintro ⟨v, hv, -⟩
      cases hv
  | some v => simp [Check.under_eq_valid_iff]

theorem fieldOr_eq_valid_iff {other x : α} :
    fieldOr name other read entries = .valid x ↔
      match lookup? name entries with
      | none => x = other
      | some v => read v = .valid x := by
  unfold fieldOr
  cases lookup? name entries with
  | none => simp [eq_comm]
  | some v => exact Check.under_eq_valid_iff

theorem eq_null_of_kind {v : Value} (hv : v.kind = .null) : v = .null := by
  cases v with
  | null => rfl
  | _ => cases hv

theorem readOptional_of_ne {v : Value} (hv : v.kind ≠ .null) :
    v.readOptional read = (read v).map some := by
  cases v with
  | null => exact absurd rfl hv
  | _ => rfl

theorem optional_eq_valid_iff {x : Option α} :
    fieldOr name none (readOptional read) entries = .valid x ↔
      match given? name entries with
      | none => x = none
      | some v => ∃ a, read v = .valid a ∧ x = some a := by
  rw [fieldOr_eq_valid_iff, given?]
  cases lookup? name entries with
  | none => rfl
  | some v =>
    by_cases hv : v.kind = .null
    · obtain rfl := eq_null_of_kind hv
      change Check.valid none = .valid x ↔ x = none
      rw [Check.valid.injEq, eq_comm]
    · rw [Option.filter_some, if_pos (decide_eq_true hv)]
      dsimp only
      rw [readOptional_of_ne hv]
      constructor
      · intro h
        obtain ⟨a, ha, hx⟩ := Check.map_eq_valid h
        exact ⟨a, ha, hx.symm⟩
      · rintro ⟨a, ha, rfl⟩
        rw [ha]
        rfl

theorem exists_map_of_readRecord {readFields : List (Value × Value) → Check α} {v : Value} {x : α}
    (h : v.readRecord name readFields = .valid x) : ∃ entries, v = .map entries := by
  cases v with
  | map entries => exact ⟨entries, rfl⟩
  | _ => cases h

end Value

open Value

structure PageDefaults.IsReadFrom (entries : List (Value × Value)) (defaults : PageDefaults) :
    Prop where
  template : fieldOr "template" none (readOptional readText) entries = .valid defaults.template
  pretty : fieldOr "pretty" false readBoolean entries = .valid defaults.pretty
  allowMultiKey :
    fieldOr (multiKeyField entries) false readBoolean entries = .valid defaults.allowMultiKey
  context : fieldOr "context" [] readMapping entries = .valid defaults.context

structure Page.IsReadFrom (entries : List (Value × Value)) (page : Page) : Prop where
  key : required "key" readSlug entries = .valid page.key
  source : required "source" readText entries = .valid page.source
  output : fieldOr "output" none (readOptional readOutput) entries = .valid page.output
  title : fieldOr "title" none (readOptional readText) entries = .valid page.title
  template : fieldOr "template" none (readOptional readText) entries = .valid page.template
  pretty : fieldOr "pretty" none (readOptional readBoolean) entries = .valid page.pretty
  allowMultiKey : fieldOr (multiKeyField entries) none (readOptional readBoolean) entries =
    .valid page.allowMultiKey
  context : fieldOr "context" [] readMapping entries = .valid page.context

theorem Options.read_map_eq_valid_iff {entries : List (Value × Value)} {options : Options} :
    read (.map entries) = .valid options ↔
      fieldOr (multiKeyField entries) false readBoolean entries = .valid options.allowMultiKey := by
  constructor
  · intro h
    obtain ⟨multiKey, hm, rfl⟩ := Check.map_eq_valid h
    exact hm
  · intro hm
    unfold read readRecord
    dsimp only
    rw [hm]
    rfl

theorem PageDefaults.read_map_eq_valid_iff {entries : List (Value × Value)}
    {defaults : PageDefaults} :
    read (.map entries) = .valid defaults ↔ IsReadFrom entries defaults := by
  constructor
  · intro h
    obtain ⟨f₁, context, h₁, hc, rfl⟩ := Check.apply_eq_valid_iff.1 h
    obtain ⟨f₂, multiKey, h₂, hm, rfl⟩ := Check.apply_eq_valid_iff.1 h₁
    obtain ⟨f₃, pretty, h₃, hp, rfl⟩ := Check.apply_eq_valid_iff.1 h₂
    obtain ⟨f₄, template, h₄, ht, rfl⟩ := Check.apply_eq_valid_iff.1 h₃
    cases h₄
    exact ⟨ht, hp, hm, hc⟩
  · rintro ⟨ht, hp, hm, hc⟩
    unfold read readRecord
    dsimp only
    rw [ht, hp, hm, hc]
    rfl

theorem Page.read_map_eq_valid_iff {entries : List (Value × Value)} {page : Page} :
    read (.map entries) = .valid page ↔ IsReadFrom entries page := by
  constructor
  · intro h
    obtain ⟨f₁, context, h₁, hc, rfl⟩ := Check.apply_eq_valid_iff.1 h
    obtain ⟨f₂, multiKey, h₂, hm, rfl⟩ := Check.apply_eq_valid_iff.1 h₁
    obtain ⟨f₃, pretty, h₃, hp, rfl⟩ := Check.apply_eq_valid_iff.1 h₂
    obtain ⟨f₄, template, h₄, ht, rfl⟩ := Check.apply_eq_valid_iff.1 h₃
    obtain ⟨f₅, title, h₅, hi, rfl⟩ := Check.apply_eq_valid_iff.1 h₄
    obtain ⟨f₆, output, h₆, ho, rfl⟩ := Check.apply_eq_valid_iff.1 h₅
    obtain ⟨f₇, source, h₇, hs, rfl⟩ := Check.apply_eq_valid_iff.1 h₆
    obtain ⟨f₈, key, h₈, hk, rfl⟩ := Check.apply_eq_valid_iff.1 h₇
    cases h₈
    exact ⟨hk, hs, ho, hi, ht, hp, hm, hc⟩
  · rintro ⟨hk, hs, ho, hi, ht, hp, hm, hc⟩
    unfold read readRecord
    dsimp only
    rw [hk, hs, ho, hi, ht, hp, hm, hc]
    rfl

theorem PageSet.read_map_eq_valid_iff {entries : List (Value × Value)} {set : PageSet} :
    read (.map entries) = .valid set ↔
      fieldOr "defaults" {} PageDefaults.read entries = .valid set.defaults ∧
        fieldOr "pages" [] readPages entries = .valid set.pages := by
  constructor
  · intro h
    obtain ⟨f₁, pages, h₁, hp, rfl⟩ := Check.apply_eq_valid_iff.1 h
    obtain ⟨f₂, defaults, h₂, hd, rfl⟩ := Check.apply_eq_valid_iff.1 h₁
    cases h₂
    exact ⟨hd, hp⟩
  · rintro ⟨hd, hp⟩
    unfold read readRecord
    dsimp only
    rw [hd, hp]
    rfl

end TreeMarkup
