import Mathlib.Data.List.Nodup
import TreeMarkup.Proofs.RecordReading

namespace TreeMarkup

namespace Context

variable {context : Context} {name other : Text}

theorem get?_cons_self (name : Text) (value : Value) (context : Context) :
    get? ((name, value) :: context) name = some value := by
  simp [get?]

theorem get?_cons_of_ne (h : other ≠ name) (value : Value) (context : Context) :
    get? ((other, value) :: context) name = context.get? name := by
  simp [get?, h]

theorem get?_append (first second : Context) (name : Text) :
    get? (first ++ second) name = (first.get? name).or (second.get? name) := by
  rw [get?, List.find?_append, Option.map_or]
  rfl

theorem isSome_get?_iff : (context.get? name).isSome = true ↔ name ∈ context.map Prod.fst := by
  rw [get?, Option.isSome_map, List.find?_isSome, List.mem_map]
  simp

theorem isNone_get?_iff : (context.get? name).isNone = true ↔ name ∉ context.map Prod.fst := by
  rw [← isSome_get?_iff]
  cases context.get? name <;> simp

theorem get?_map (f : Text → Value → Value) (context : Context) (name : Text) :
    get? (context.map fun (n, v) ↦ (n, f n v)) name = (context.get? name).map (f name) := by
  induction context with
  | nil => rfl
  | cons x context ih =>
    obtain ⟨other, value⟩ := x
    rw [List.map_cons]
    by_cases h : other = name
    · subst h
      rw [get?_cons_self, get?_cons_self]
      rfl
    · rw [get?_cons_of_ne h, get?_cons_of_ne h, ih]

theorem get?_filter {p : Text → Bool} (h : p name = true) (context : Context) :
    get? (context.filter fun (n, _) ↦ p n) name = context.get? name := by
  induction context with
  | nil => rfl
  | cons x context ih =>
    obtain ⟨other, value⟩ := x
    rw [List.filter_cons]
    dsimp only
    by_cases hx : other = name
    · subst hx
      rw [if_pos h, get?_cons_self, get?_cons_self]
    · rw [get?_cons_of_ne hx, ← ih]
      split
      · exact get?_cons_of_ne hx _ _
      · rfl

end Context

namespace Value

variable {entries : List (Text × Value)} {name : Text} {value : Value}

theorem names_putNamed (name : Text) (value : Value) (entries : List (Text × Value)) :
    (putNamed name value entries).map Prod.fst =
      if name ∈ entries.map Prod.fst then entries.map Prod.fst
      else entries.map Prod.fst ++ [name] := by
  induction entries with
  | nil => rfl
  | cons x entries ih =>
    obtain ⟨other, old⟩ := x
    rw [putNamed, List.map_cons]
    by_cases h : name = other
    · rw [if_pos h, if_pos (h ▸ List.mem_cons_self)]
      rfl
    · have hm : name ∈ other :: entries.map Prod.fst ↔ name ∈ entries.map Prod.fst := by
        rw [List.mem_cons, or_iff_right h]
      rw [if_neg h, List.map_cons, ih, if_congr hm rfl rfl]
      split <;> rfl

theorem nodup_names_putNamed (name : Text) (value : Value) (h : (entries.map Prod.fst).Nodup) :
    ((putNamed name value entries).map Prod.fst).Nodup := by
  rw [names_putNamed]
  split
  · exact h
  · rename_i hn
    rw [← List.concat_eq_append, List.nodup_concat]
    exact ⟨hn, h⟩

theorem putNamed_of_not_mem (value : Value) (h : name ∉ entries.map Prod.fst) :
    putNamed name value entries = entries ++ [(name, value)] := by
  induction entries with
  | nil => rfl
  | cons x entries ih =>
    rw [List.map_cons, List.mem_cons, not_or] at h
    rw [putNamed, if_neg h.1, ih h.2, List.cons_append]

theorem nodup_names_foldl_putNamed (found : List (Text × Value))
    (h : (entries.map Prod.fst).Nodup) :
    ((found.foldl (fun put (n, v) ↦ putNamed n v put) entries).map Prod.fst).Nodup := by
  induction found generalizing entries with
  | nil => exact h
  | cons x found ih => exact ih (nodup_names_putNamed x.1 x.2 h)

theorem nodup_names_of_readMapping {v : Value} {context : Context}
    (h : v.readMapping = .valid context) : (context.map Prod.fst).Nodup := by
  unfold readMapping at h
  split at h
  · obtain ⟨found, -, rfl⟩ := Check.map_eq_valid h
    exact nodup_names_foldl_putNamed found List.nodup_nil
  · cases h

theorem nodup_names_of_context {fields : List (Value × Value)} {context : Context}
    (h : fieldOr "context" [] readMapping fields = .valid context) :
    (context.map Prod.fst).Nodup := by
  rw [fieldOr_eq_valid_iff] at h
  split at h
  · rw [h]
    exact List.nodup_nil
  · exact nodup_names_of_readMapping h

end Value

namespace PageSet

open Value

theorem nodup_names_defaults {entries : List (Value × Value)} {defaults : PageDefaults}
    (h : fieldOr "defaults" {} PageDefaults.read entries = .valid defaults) :
    (defaults.context.map Prod.fst).Nodup := by
  rw [fieldOr_eq_valid_iff] at h
  split at h
  · rw [h]
    exact List.nodup_nil
  · obtain ⟨fields, rfl⟩ := exists_map_of_readRecord h
    exact nodup_names_of_context (PageDefaults.read_map_eq_valid_iff.1 h).context

variable (set : PageSet) (page : Page)

/-- Under a name stands the value of the page, or else that of the defaults. -/
theorem get?_contextFor (name : Text) : (set.contextFor page).get? name =
    (page.context.get? name).or (set.defaults.context.get? name) := by
  have hm := Context.get?_map (fun n v ↦ (page.context.get? n).getD v) set.defaults.context name
  rw [contextFor, Context.get?_append, hm]
  cases hd : set.defaults.context.get? name with
  | some v =>
    cases page.context.get? name <;> rfl
  | none =>
    have hp : (set.defaults.context.get? name).isNone = true := by rw [hd]; rfl
    rw [Context.get?_filter (p := fun n ↦ (set.defaults.context.get? n).isNone) hp]
    cases page.context.get? name <;> rfl

theorem mem_names_contextFor_iff (name : Text) : name ∈ (set.contextFor page).map Prod.fst ↔
    name ∈ page.context.map Prod.fst ∨ name ∈ set.defaults.context.map Prod.fst := by
  rw [← Context.isSome_get?_iff, ← Context.isSome_get?_iff, ← Context.isSome_get?_iff,
    get?_contextFor, Option.isSome_or, Bool.or_eq_true]

theorem nodup_names_contextFor (hp : (page.context.map Prod.fst).Nodup)
    (hd : (set.defaults.context.map Prod.fst).Nodup) :
    ((set.contextFor page).map Prod.fst).Nodup := by
  have hn : (set.contextFor page).map Prod.fst = set.defaults.context.map Prod.fst ++
      (page.context.filter fun (n, _) ↦ (set.defaults.context.get? n).isNone).map Prod.fst := by
    rw [contextFor, List.map_append, List.map_map]
    rfl
  rw [hn, List.nodup_append]
  refine ⟨hd, hp.sublist (List.filter_sublist.map _), ?_⟩
  rintro name hm _ ho rfl
  obtain ⟨x, hx, rfl⟩ := List.mem_map.1 ho
  exact Context.isNone_get?_iff.1 (List.mem_filter.1 hx).2 hm

end PageSet

end TreeMarkup
