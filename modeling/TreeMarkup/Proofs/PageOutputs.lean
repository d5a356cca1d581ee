import TreeMarkup.Files.Tree
import TreeMarkup.Proofs.RecordReading

namespace TreeMarkup

namespace Check

variable {α : Type}

theorem exists_of_mem_members {read : Value → Check α} {vs : List Value} {n : Nat} {xs : List α}
    (h : members read n vs = valid xs) : ∀ x ∈ xs, ∃ v, read v = valid x := by
  induction vs generalizing n xs with
  | nil =>
    cases h
    simp
  | cons v vs ih =>
    obtain ⟨g, ys, hg, hys, rfl⟩ := apply_eq_valid_iff.1 h
    obtain ⟨y, hy, rfl⟩ := map_eq_valid hg
    rw [List.forall_mem_cons]
    exact ⟨⟨v, under_eq_valid_iff.1 hy⟩, ih hys⟩

end Check

namespace Value

variable {α : Type} {entries : List (Value × Value)} {name : Text} {x : α}

theorem exists_of_readList {read : Value → Check α} {v : Value} {xs : List α}
    (h : v.readList read = .valid xs) : ∀ x ∈ xs, ∃ v, read v = .valid x := by
  unfold readList at h
  split at h
  · exact Check.exists_of_mem_members h
  · cases h

theorem exists_of_required {read : Value → Check α} (h : required name read entries = .valid x) :
    ∃ v, read v = .valid x := by
  unfold required at h
  split at h
  · exact ⟨_, Check.under_eq_valid_iff.1 h⟩
  · cases h

theorem eq_or_exists_of_fieldOr {other : α} {read : Value → Check α}
    (h : fieldOr name other read entries = .valid x) : x = other ∨ ∃ v, read v = .valid x := by
  unfold fieldOr at h
  split at h
  · exact .inr ⟨_, Check.under_eq_valid_iff.1 h⟩
  · cases h
    exact .inl rfl

theorem eq_none_or_exists_of_readOptional {read : Value → Check α} {v : Value} {x : Option α}
    (h : v.readOptional read = .valid x) : x = none ∨ ∃ y, x = some y ∧ read v = .valid y := by
  unfold readOptional at h
  split at h
  · cases h
    exact .inl rfl
  · obtain ⟨y, hy, rfl⟩ := Check.map_eq_valid h
    exact .inr ⟨y, rfl, hy⟩

end Value

namespace Page

theorem isSlug_of_readSlug {v : Value} {key : Text} (h : readSlug v = .valid key) :
    isSlug key = true := by
  obtain ⟨t, -, h⟩ := Check.bind_eq_valid h
  split at h
  · rename_i hs
    cases h
    exact hs
  · cases h

theorem staysInside_of_readOutput {v : Value} {path : Text} (h : readOutput v = .valid path) :
    staysInside path = true := by
  obtain ⟨t, -, h⟩ := Check.bind_eq_valid h
  split at h
  · rename_i hs
    cases h
    exact hs
  · cases h

theorem settings_of_read {v : Value} {page : Page} (h : read v = .valid page) :
    isSlug page.key = true ∧ ∀ path ∈ page.output, staysInside path = true := by
  obtain ⟨fields, rfl⟩ := Value.exists_map_of_readRecord h
  have hf := read_map_eq_valid_iff.1 h
  obtain ⟨k, hk⟩ := Value.exists_of_required hf.key
  refine ⟨isSlug_of_readSlug hk, fun path hp ↦ ?_⟩
  rcases Value.eq_or_exists_of_fieldOr hf.output with hn | ⟨o, ho⟩
  · rw [hn] at hp
    cases hp
  · rcases Value.eq_none_or_exists_of_readOptional ho with hn | ⟨p, hs, hr⟩
    · rw [hn] at hp
      cases hp
    · rw [hs] at hp
      cases hp
      exact staysInside_of_readOutput hr

end Page

theorem PageSet.settings_of_read {v : Value} {set : PageSet} (h : read v = .valid set) :
    ∀ page ∈ set.pages,
      Page.isSlug page.key = true ∧ ∀ path ∈ page.output, Page.staysInside path = true := by
  obtain ⟨entries, rfl⟩ := Value.exists_map_of_readRecord h
  obtain ⟨-, hp⟩ := read_map_eq_valid_iff.1 h
  rcases Value.eq_or_exists_of_fieldOr hp with hn | ⟨v, hv⟩
  · simp [hn]
  · obtain ⟨found, hf, hv⟩ := Check.bind_eq_valid hv
    split at hv
    · cases hv
    · cases hv
      intro page hm
      obtain ⟨v, hv⟩ := Value.exists_of_readList hf page hm
      exact Page.settings_of_read hv

namespace Text

theorem splitOn_cons_of_ne {separator c : Char} (hc : c ≠ separator) {t p : Text} {ps : List Text}
    (h : splitOn separator t = p :: ps) : splitOn separator (c :: t) = (c :: p) :: ps := by
  rw [splitOn, if_neg hc, h]

theorem splitOn_cons_self (separator : Char) (t : Text) :
    splitOn separator (separator :: t) = [] :: splitOn separator t := by
  rw [splitOn, if_pos rfl]

theorem splitOn_of_not_mem {separator : Char} {t : Text} (h : separator ∉ t) :
    splitOn separator t = [t] := by
  induction t with
  | nil => rfl
  | cons c t ih =>
    rw [List.mem_cons, not_or] at h
    exact splitOn_cons_of_ne (Ne.symm h.1) (ih h.2)

/-- Once backslashes have become slashes, the pieces between slashes are those without any, and
others. -/
theorem mem_splitOn_slashed {t p : Text} {ps : List Text} (h : splitOn '/' t = p :: ps) :
    ∃ q qs, splitOn '/' (Page.slashed t) = q :: qs ∧ ('\\' ∉ p → q = p) ∧
      ∀ r ∈ ps, '\\' ∉ r → r ∈ qs := by
  induction t generalizing p ps with
  | nil =>
    cases h
    exact ⟨[], [], rfl, fun _ ↦ rfl, by simp⟩
  | cons c t ih =>
    obtain ⟨p₀, ps₀, hs⟩ := List.exists_cons_of_ne_nil (splitOn_ne_nil '/' t)
    obtain ⟨q₀, qs₀, hq, hp, hps⟩ := ih hs
    have hm : ∀ r ∈ ps₀, '\\' ∉ r → r ∈ q₀ :: qs₀ := fun r hr hb ↦
      List.mem_cons_of_mem _ (hps r hr hb)
    rw [Page.slashed, List.map_cons, ← Page.slashed]
    by_cases hc : c = '/'
    · subst hc
      rw [splitOn_cons_self, hs] at h
      cases h
      refine ⟨[], q₀ :: qs₀, by rw [if_neg (by decide), splitOn_cons_self, hq], fun _ ↦ rfl, ?_⟩
      rw [List.forall_mem_cons]
      exact ⟨fun hb ↦ hp hb ▸ List.mem_cons_self, hm⟩
    · rw [splitOn_cons_of_ne hc hs] at h
      cases h
      by_cases hb : c = '\\'
      · subst hb
        refine ⟨[], q₀ :: qs₀, by rw [if_pos rfl, splitOn_cons_self, hq], ?_, hm⟩
        intro hn
        exact absurd List.mem_cons_self hn
      · refine ⟨c :: q₀, qs₀, by rw [if_neg hb, splitOn_cons_of_ne hc hq], ?_, hps⟩
        intro hn
        rw [hp fun hm ↦ hn (List.mem_cons_of_mem _ hm)]

end Text

namespace Path

theorem up_not_mem_parts {t : Text} (h : up ∉ Text.splitOn '/' t) : up ∉ (ofText t).parts :=
  fun hm ↦ h (List.mem_filter.1 hm).1

theorem slashes_ofText {t : Text} (h : t.head? ≠ some '/') : (ofText t).slashes = 0 := by
  change leadingSlashes t = 0
  unfold leadingSlashes
  split
  · exact absurd rfl h
  · exact absurd rfl h
  · exact absurd rfl h
  · rfl

end Path

namespace Page

def outputParts (page : Page) : List Text := (Path.ofText page.outputPath).parts

theorem up_not_mem_of_staysInside {path : Text} (h : staysInside path = true) :
    Path.up ∉ Text.splitOn '/' path := by
  intro hm
  have hs : Path.up ∉ Text.splitOn '/' (slashed path) := by
    simp only [staysInside, Bool.and_eq_true, Bool.not_eq_true', List.contains_eq_mem,
      decide_eq_false_iff_not] at h
    exact h.1.2
  obtain ⟨p, ps, hp⟩ := List.exists_cons_of_ne_nil (Text.splitOn_ne_nil '/' path)
  obtain ⟨q, qs, hq, hqp, hqs⟩ := Text.mem_splitOn_slashed hp
  have hb : '\\' ∉ Path.up := by decide
  rw [hq, List.mem_cons, not_or] at hs
  rw [hp] at hm
  rcases List.mem_cons.1 hm with rfl | hm
  · exact hs.1 (hqp hb).symm
  · exact hs.2 (hqs _ hm hb)

theorem head?_of_staysInside {path : Text} (h : staysInside path = true) :
    path.head? ≠ some '/' := by
  cases path with
  | nil => simp
  | cons c path =>
    rintro ⟨⟩
    simp [staysInside, slashed] at h

variable {page : Page}

/-- As a path, the output of a page is relative and does not go up. -/
theorem outputPath_of_settings (hk : isSlug page.key = true)
    (ho : ∀ path ∈ page.output, staysInside path = true) :
    (Path.ofText page.outputPath).slashes = 0 ∧ Path.up ∉ page.outputParts := by
  unfold outputParts outputPath
  split
  · rename_i c cs hp
    have hs := ho _ hp
    exact ⟨Path.slashes_ofText (head?_of_staysInside hs),
      Path.up_not_mem_parts (up_not_mem_of_staysInside hs)⟩
  · have hn : '/' ∉ page.key ++ ".html".toList := by
      simp only [isSlug, Bool.and_eq_true, Bool.not_eq_true', List.contains_eq_mem,
        decide_eq_false_iff_not] at hk
      rw [List.mem_append, not_or]
      exact ⟨hk.1.2, by decide⟩
    refine ⟨Path.slashes_ofText fun hh ↦ hn (List.mem_of_mem_head? hh),
      Path.up_not_mem_parts ?_⟩
    rw [Text.splitOn_of_not_mem hn, List.mem_singleton]
    intro he
    have hl := congrArg List.length he
    rw [List.length_append] at hl
    simp [Path.up] at hl

end Page

end TreeMarkup
