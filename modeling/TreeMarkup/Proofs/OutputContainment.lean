import TreeMarkup.Proofs.PageOutputs

namespace TreeMarkup

namespace Page

def isSeparator (c : Char) : Bool := c = '/' || c = '\\'

def components (path : Text) : List Text := path.splitOnP isSeparator

/-- A relative path that neither climbs nor names a drive. -/
structure IsContained (path : Text) : Prop where
  relative : ∀ c ∈ path.head?, isSeparator c = false
  up_not_mem : Path.up ∉ components path
  no_drive : path[1]? ≠ some ':'

theorem components_cons_of_separator {c : Char} (hc : isSeparator c = true) (t : Text) :
    components (c :: t) = [] :: components t := by
  rw [components, List.splitOnP_cons_eq_if_modifyHead, if_pos hc]
  rfl

theorem components_cons_of_not_separator {c : Char} (hc : isSeparator c = false) {t p : Text}
    {ps : List Text} (h : components t = p :: ps) : components (c :: t) = (c :: p) :: ps := by
  rw [components] at h ⊢
  rw [List.splitOnP_cons_eq_if_modifyHead, hc, h]
  rfl

theorem exists_components (t : Text) : ∃ p ps, components t = p :: ps :=
  List.exists_cons_of_ne_nil (List.splitOnP_ne_nil isSeparator t)

theorem splitOn_slashed (t : Text) : Text.splitOn '/' (slashed t) = components t := by
  induction t with
  | nil => rfl
  | cons c t ih =>
    rw [slashed, List.map_cons, ← slashed]
    by_cases hc : isSeparator c = true
    · have hs : (if c = '\\' then '/' else c) = '/' := by
        simp only [isSeparator, Bool.or_eq_true, decide_eq_true_eq] at hc
        rcases hc with rfl | rfl <;> rfl
      rw [hs, Text.splitOn_cons_self, ih, components_cons_of_separator hc]
    · simp only [isSeparator, Bool.or_eq_true, decide_eq_true_eq, not_or] at hc
      obtain ⟨p, ps, hp⟩ := exists_components t
      have hn : isSeparator c = false := by simp [isSeparator, hc]
      rw [if_neg hc.2, components_cons_of_not_separator hn hp]
      exact Text.splitOn_cons_of_ne hc.1 (ih.trans hp)

theorem head?_slashed_iff (t : Text) :
    (slashed t).head? = some '/' ↔ ∃ c ∈ t.head?, isSeparator c = true := by
  cases t with
  | nil => simp [slashed]
  | cons c t =>
    by_cases hc : c = '\\' <;> simp [slashed, isSeparator, hc]

theorem staysInside_iff (path : Text) : staysInside path = true ↔ IsContained path := by
  have hh : (slashed path).head? ≠ some '/' ↔ ∀ c ∈ path.head?, isSeparator c = false := by
    rw [ne_eq, head?_slashed_iff]
    simp
  simp only [staysInside, Bool.and_eq_true, bne_iff_ne, Bool.not_eq_true', splitOn_slashed]
  rw [hh]
  constructor
  · rintro ⟨⟨hr, hc⟩, hd⟩
    refine ⟨hr, ?_, hd⟩
    intro hm
    rw [List.contains_eq_mem, decide_eq_false_iff_not] at hc
    exact hc hm
  · rintro ⟨hr, hc, hd⟩
    refine ⟨⟨hr, ?_⟩, hd⟩
    rw [List.contains_eq_mem, decide_eq_false_iff_not]
    exact hc

theorem components_append (t : Text) {s : Text} (hs : ∀ c ∈ s, isSeparator c = false) :
    ∃ p, components (t ++ s) = (components t).dropLast ++ [p ++ s] := by
  induction t with
  | nil => exact ⟨[], List.splitOnP_eq_singleton hs⟩
  | cons c t ih =>
    obtain ⟨p, hp⟩ := ih
    obtain ⟨q, qs, hq⟩ := exists_components t
    -- a character before the last separator goes to an earlier part, any other to the last one
    by_cases hc : isSeparator c = true
    · refine ⟨p, ?_⟩
      rw [List.cons_append, components_cons_of_separator hc, components_cons_of_separator hc, hp, hq]
      rfl
    · have hn : isSeparator c = false := Bool.eq_false_iff.2 hc
      rw [hq] at hp
      rw [List.cons_append, components_cons_of_not_separator hn hq]
      cases qs with
      | nil =>
        have hw : components (t ++ s) = (p ++ s) :: [] := hp
        exact ⟨c :: p, components_cons_of_not_separator hn hw⟩
      | cons r rs =>
        have hw : components (t ++ s) = q :: ((r :: rs).dropLast ++ [p ++ s]) := hp
        exact ⟨p, components_cons_of_not_separator hn hw⟩

theorem isContained_append_iff {key : Text} (hk : isSlug key = true) :
    IsContained (key ++ ".html".toList) ↔
      key.head? ≠ some '\\' ∧ Path.up ∉ (components key).dropLast ∧ key[1]? ≠ some ':' := by
  have hd : (".html".toList.all fun c ↦ !isSeparator c) = true := rfl
  have hn : ∀ c ∈ ".html".toList, isSeparator c = false := by simpa using hd
  obtain ⟨p, hp⟩ := components_append key hn
  have hup : Path.up ∈ components (key ++ ".html".toList) ↔ Path.up ∈ (components key).dropLast := by
    rw [hp, List.mem_append, List.mem_singleton, or_iff_left]
    -- the last part has the suffix and so is longer than two dots
    intro he
    have hl := congrArg List.length he
    simp [Path.up] at hl
  have hs : key ≠ [] ∧ '/' ∉ key := by
    simp only [isSlug, Bool.and_eq_true, Bool.not_eq_true', List.contains_eq_mem,
      decide_eq_false_iff_not, List.isEmpty_eq_false_iff] at hk
    exact hk.1
  obtain ⟨c, key, rfl⟩ := List.exists_cons_of_ne_nil hs.1
  have hc : c ≠ '/' := fun hc ↦ hs.2 (hc ▸ List.mem_cons_self)
  have hd : ((c :: key) ++ ".html".toList)[1]? = some ':' ↔ (c :: key)[1]? = some ':' := by
    cases key <;> simp
  constructor
  · rintro ⟨hr, hu, hn⟩
    refine ⟨?_, fun hm ↦ hu (hup.2 hm), fun hm ↦ hn (hd.2 hm)⟩
    rintro ⟨⟩
    have := hr _ rfl
    exact absurd this (by decide)
  · rintro ⟨hr, hu, hn⟩
    refine ⟨?_, fun hm ↦ hu (hup.1 hm), fun hm ↦ hn (hd.1 hm)⟩
    rintro _ ⟨⟩
    have hb : c ≠ '\\' := fun hb ↦ hr (congrArg some hb)
    simp [isSeparator, hc, hb]

/-- The output of a page that was read stays in the output directory if it is given, or if its key
neither starts with a backslash nor climbs by one nor names a drive. -/
theorem isContained_outputPath_iff {v : Value} {page : Page} (h : read v = .valid page) :
    IsContained page.outputPath ↔
      (∃ path, page.output = some path ∧ path ≠ []) ∨
        page.key.head? ≠ some '\\' ∧ Path.up ∉ (components page.key).dropLast ∧
          page.key[1]? ≠ some ':' := by
  obtain ⟨hk, ho⟩ := settings_of_read h
  unfold outputPath
  split
  · rename_i c cs hp
    have hc := (staysInside_iff _).1 (ho _ hp)
    exact iff_of_true hc (.inl ⟨_, hp, List.cons_ne_nil _ _⟩)
  · rename_i hn
    rw [or_iff_right]
    · exact isContained_append_iff hk
    · rintro ⟨path, hp, hne⟩
      obtain ⟨c, cs, rfl⟩ := List.exists_cons_of_ne_nil hne
      exact hn c cs hp

theorem isContained_given_output :
    read (.map [(.text "key", .text "..\\x"), (.text "source", .text "a.yaml"),
        (.text "output", .text "a\\..b/c")]) =
      .valid { key := "..\\x", source := "a.yaml", output := some "a\\..b/c" } ∧
      IsContained "a\\..b/c" := by
  have h : read (.map [(.text "key", .text "..\\x"), (.text "source", .text "a.yaml"),
      (.text "output", .text "a\\..b/c")]) =
        .valid { key := "..\\x", source := "a.yaml", output := some "a\\..b/c" } := by
    rfl
  exact ⟨h, (isContained_outputPath_iff h).2 (.inl ⟨_, rfl, List.cons_ne_nil _ _⟩)⟩

/-- A key may climb by a backslash, and so does the file that is named after it. -/
theorem key_leaves_directory :
    read (.map [(.text "key", .text "..\\x"), (.text "source", .text "a.yaml")]) =
        .valid { key := "..\\x", source := "a.yaml" } ∧
      outputPath { key := "..\\x", source := "a.yaml" } = "..\\x.html".toList ∧
      ¬IsContained "..\\x.html" := by
  refine ⟨rfl, rfl, fun h ↦ h.up_not_mem ?_⟩
  decide

end Page

end TreeMarkup
