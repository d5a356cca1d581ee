import TreeMarkup.Proofs.DirectoryMaking

namespace TreeMarkup

namespace Workspace

variable {w : Workspace} {p : Path} {q : Place}

def without (w : Workspace) (p : Path) : Workspace :=
  { w with tree := (w.tree.eraseBelow (w.place p)).erase (w.place p) }

theorem get?_without (hp : w.place p ≠ []) (q : Place) :
    (w.without p).tree.get? q = if w.place p <+: q then none else w.tree.get? q := by
  by_cases hq : q = []
  · subst hq
    rw [if_neg fun h ↦ hp (List.prefix_nil.1 h)]
    rfl
  rw [without, Tree.get?_erase _ _ _ hq, Tree.get?_eraseBelow]
  by_cases he : q = w.place p
  · rw [if_pos he, he, if_pos (List.prefix_refl _)]
  · rw [if_neg he]
    refine if_congr ?_ rfl rfl
    rw [Tree.isBelow, Bool.and_eq_true, List.isPrefixOf_iff_prefix, decide_eq_true_eq]
    exact and_iff_left (Ne.symm he)

theorem IsSound.without (h : w.IsSound) (hp : ¬w.place p <+: w.current) :
    (w.without p).IsSound := by
  have hn : w.place p ≠ [] := fun hn ↦ hp (hn ▸ List.nil_prefix)
  refine ⟨fun x hx ↦ ?_, ?_⟩
  · have hx : x ∈ (w.tree.entries.filter fun e ↦ !Tree.isBelow (w.place p) e.1).filter
        fun e ↦ e.1 ≠ w.place p := hx
    obtain ⟨hx, he⟩ := List.mem_filter.1 hx
    obtain ⟨hx, hb⟩ := List.mem_filter.1 hx
    rw [get?_without hn, if_neg, h.get?_dropLast x hx]
    intro hd
    have hpx := hd.trans (List.dropLast_prefix x.1)
    simp [Tree.isBelow, List.isPrefixOf_iff_prefix.2 hpx] at hb
    simp [hb] at he
  · have hc : (w.without p).current = w.current := rfl
    rw [hc, get?_without hn, if_neg hp]
    exact h.get?_current

end Workspace

namespace FileWork

variable {p : Path} {w w' : Workspace} {es : List (Place × Entry)}

open Workspace

theorem makeNewDirectory_of_nil (hp : p.parts = []) : makeNewDirectory p = makeDirectory p := by
  rw [makeNewDirectory]
  exact dif_neg (not_not_intro hp)

theorem get?_of_makeNewDirectory (ho : w.tree.get? (w.origin p) = some .directory)
    (h : (makeNewDirectory p).run w = (.ok (), w')) : w.tree.get? (w.place p) = none := by
  by_cases hp : p.parts = []
  · rw [makeNewDirectory_of_nil hp] at h
    exact (makeDirectory_eq_ok_iff.1 h).2.1
  · obtain ⟨w₁, hw, hm⟩ := (makeNewDirectory_iff hp ho).1 h
    have ha := (steps_makeDirectories p.parent).of_run hw
    have hg := (makeDirectory_eq_ok_iff.1 hm).2.1
    rw [ha.place] at hg
    rcases ha.get?_eq_or (w.place p) with hq | ⟨hn, -⟩
    · rw [← hq]
      exact hg
    · exact hn

theorem isDirectory_of_makeNewDirectory (h : (makeNewDirectory p).run w = (.ok (), w')) :
    w'.isDirectory p = true := by
  by_cases hp : p.parts = []
  · rw [makeNewDirectory_of_nil hp] at h
    exact isDirectory_of_makeDirectory h
  · rw [makeNewDirectory_eq hp] at h
    obtain ⟨_, w₁, -, hm⟩ := run_bind_eq_ok h
    exact isDirectory_of_makeDirectory hm

theorem isDirectory_of_removeTree (h : (removeTree p).run w = (.ok (), w')) :
    w.isDirectory p = true := by
  rw [removeTree, run_bind, run_resolve] at h
  cases hp : w.resolve p with
  | error e =>
    rw [hp] at h
    cases h
  | ok d =>
    rw [hp] at h
    dsimp only at h
    rw [run_get_bind] at h
    rw [Workspace.isDirectory_of_resolve hp]
    cases hd : w.tree.get? d with
    | none =>
      rw [hd] at h
      cases h
    | some e =>
      rw [hd] at h
      cases e with
      | file c => cases h
      | directory => rfl

/-- A new directory is one of all directories down to it, where its place is free and is not on the
way to itself. -/
theorem makeNewDirectory_iff_makeDirectories (ho : w.tree.get? (w.origin p) = some .directory) :
    (makeNewDirectory p).run w = (.ok (), w') ↔
      w.tree.get? (w.place p) = none ∧ w.place p ∉ w.waypoints p.parent ∧
        (makeDirectories p).run w = (.ok (), w') := by
  by_cases hp : p.parts = []
  · have hl : w.place p = w.origin p := by
      rw [place, hp]
      rfl
    constructor
    · intro h
      have hg := get?_of_makeNewDirectory ho h
      rw [hl, ho] at hg
      cases hg
    · rintro ⟨hg, -⟩
      rw [hl, ho] at hg
      cases hg
  rw [makeNewDirectory_iff hp ho, makeDirectories_iff_parent hp]
  have ha : ∀ {w₁}, (makeDirectories p.parent).run w = (.ok (), w₁) → AddsDirectories w w₁ :=
    (steps_makeDirectories p.parent).of_run
  constructor
  -- the way to the parent is all directories then, and the place of the new one is still free
  · rintro ⟨w₁, hw, hm⟩
    have hg := get?_of_makeNewDirectory ho ((makeNewDirectory_iff hp ho).2 ⟨w₁, hw, hm⟩)
    refine ⟨hg, fun hq ↦ ?_, w₁, hw, ensureDirectory_eq_ok_iff.2 (.inr hm)⟩
    rw [← waypoints_congr (ha hw).standpoint] at hq
    have hd := get?_of_mem_waypoints (isDirectory_of_makeDirectories hw) hq
    rw [← (ha hw).place, (makeDirectory_eq_ok_iff.1 hm).2.1] at hd
    cases hd
  · rintro ⟨hg, hq, w₁, hw, he⟩
    refine ⟨w₁, hw, (ensureDirectory_eq_ok_iff.1 he).resolve_left fun hd ↦ ?_⟩
    have hf := (isDirectory_iff.1 hd.1).2
    rw [(ha hw).place, get?_of_makeDirectories hw hq, hg] at hf
    cases hf

theorem resolve_of_makeNewDirectory (h : (makeNewDirectory p).run w = (.ok (), w')) :
    w'.resolve p = .ok (w.place p) := by
  rw [(isDirectory_iff.1 (isDirectory_of_makeNewDirectory h)).1]
  exact congrArg _ (((steps_makeNewDirectory p).of_run h).place p)

theorem placeTree_eq_ok_iff : (placeTree p es).run w = (.ok (), w') ↔
    ∃ w₁, (makeNewDirectory p).run w = (.ok (), w₁) ∧ (∀ e ∈ es, (p.join ⟨0, e.1⟩).Fits) ∧
      w' = es.foldl (fun w' e ↦ w'.put (w.place p ++ e.1) e.2) w₁ := by
  rw [placeTree, run_seq_eq_ok_iff]
  refine exists_congr fun w₁ ↦ and_congr_right fun hm ↦ ?_
  rw [run_fillDirectory (resolve_of_makeNewDirectory hm)]
  constructor
  · intro h
    split at h
    · rename_i hf
      cases h
      exact ⟨hf, congrArg _ (placeable_eq_self hf)⟩
    · cases h
  · rintro ⟨hf, rfl⟩
    rw [if_pos hf, placeable_eq_self hf]

theorem lookup_of_get?_eq_none (hg : w.tree.get? (w.place p) = none) :
    ∃ e, w.lookup p = .error e := by
  rw [lookup]
  cases hr : w.resolve p with
  | error e => exact ⟨e, rfl⟩
  | ok q =>
    rw [← resolve_eq_place hr] at hg
    simp only [bind, Except.bind, hg]
    exact ⟨.notFound, rfl⟩

theorem isAbsence_of_makeNewDirectory {e : FileError} (hl : w.lookup p = .error e)
    (h : (makeNewDirectory p).run w = (.ok (), w')) : e.isAbsence = true := by
  obtain ⟨-, hf, hw⟩ := resolve_eq_ok_iff.1 (resolve_of_makeNewDirectory h)
  rw [lookup] at hl
  cases hr : w.resolve p with
  | error e' =>
    rw [hr] at hl
    cases hl
    exact isAbsence_of_resolve hf (Tree.utf8Length_le_of_walk hw) hr
  | ok q =>
    rw [hr] at hl
    simp only [bind, Except.bind] at hl
    split at hl
    · cases hl
    · cases hl
      rfl

/-- Where nothing is, entries are put without anything being removed. -/
theorem replaceTree_eq_ok_iff_of_none (hg : w.tree.get? (w.place p) = none) :
    (replaceTree p es).run w = (.ok (), w') ↔ (placeTree p es).run w = (.ok (), w') := by
  obtain ⟨e, hl⟩ := lookup_of_get?_eq_none hg
  rw [replaceTree, run_bind, removeExisting, run_get_bind, hl]
  dsimp only
  by_cases he : e.isAbsence = true
  · rw [if_pos he]
    rfl
  · rw [if_neg he]
    refine iff_of_false (fun h ↦ ?_) fun h ↦ ?_
    · cases h
    · obtain ⟨w₁, hm, -⟩ := placeTree_eq_ok_iff.1 h
      exact he (isAbsence_of_makeNewDirectory hl hm)

theorem replaceTree_of_isDirectory (hd : w.isDirectory p = true)
    (h : (replaceTree p es).run w = (.ok (), w')) :
    (placeTree p es).run (w.without p) = (.ok (), w') := by
  obtain ⟨hp', hg⟩ := isDirectory_iff.1 hd
  have hl : w.lookup p = .ok .directory := by
    rw [lookup, hp']
    simp only [bind, Except.bind, hg]
  rw [replaceTree] at h
  obtain ⟨_, w₁, hr, hp⟩ := run_bind_eq_ok h
  rw [removeExisting, run_get_bind, hl] at hr
  dsimp only at hr
  rw [removeTree, run_bind, run_resolve, hp'] at hr
  dsimp only at hr
  rw [run_get_bind, hg] at hr
  change (removeDirectory p).run { w with tree := w.tree.eraseBelow (w.place p) } = _ at hr
  rcases run_removeDirectory p { w with tree := w.tree.eraseBelow (w.place p) } with ⟨e, he⟩ | he
  · rw [he] at hr
    cases hr
  · rw [he] at hr
    cases hr
    exact hp

theorem isDirectory_or_of_renewDirectory (ho : w.tree.get? (w.origin p) = some .directory)
    (h : (renewDirectory p).run w = (.ok (), w')) :
    w.isDirectory p = true ∨ w.tree.get? (w.place p) = none := by
  rw [renewDirectory] at h
  obtain ⟨_, w₁, hr, hm⟩ := run_bind_eq_ok h
  rcases removeExisting_eq_ok hr with hr | rfl
  · exact .inl (isDirectory_of_removeTree hr)
  · exact .inr (get?_of_makeNewDirectory ho hm)

theorem resolve_of_renewDirectory (h : (renewDirectory p).run w = (.ok (), w')) :
    w'.resolve p = .ok (w.place p) := by
  have hs := ((clears_renewDirectory p).of_run h).standpoint
  rw [renewDirectory] at h
  obtain ⟨_, w₁, -, hm⟩ := run_bind_eq_ok h
  rw [(isDirectory_iff.1 (isDirectory_of_makeNewDirectory hm)).1]
  exact congrArg _ (place_congr hs p)

/-- Entries replace what is at a path: the directory is made anew, and then all entries are put there
that can be; what cannot be put makes the whole fail. -/
theorem run_replaceTree (p : Path) (es : List (Place × Entry)) (w : Workspace) :
    ∃ w₁, Clears p w w₁ ∧
      ((renewDirectory p).run w = (.ok (), w₁) ∧
          (replaceTree p es).run w =
            (if ∀ e ∈ es, (p.join ⟨0, e.1⟩).Fits then .ok () else .error .incomplete,
              (placeable p es).foldl (fun w' e ↦ w'.put (w.place p ++ e.1) e.2) w₁) ∨
        ∃ e, (renewDirectory p).run w = (.error e, w₁) ∧
          (replaceTree p es).run w = (.error e, w₁)) := by
  have hc := clears_renewDirectory p w
  rw [run_replaceTree_eq, run_bind]
  rcases hr : (renewDirectory p).run w with ⟨e | _, w₁⟩
  · rw [hr] at hc
    exact ⟨w₁, hc, .inr ⟨e, rfl, rfl⟩⟩
  · rw [hr] at hc
    exact ⟨w₁, hc, .inl ⟨rfl, run_fillDirectory (resolve_of_renewDirectory hr) es⟩⟩

theorem replaceTree_eq_ok (h : (replaceTree p es).run w = (.ok (), w')) :
    ∃ w₁, Clears p w w₁ ∧ (renewDirectory p).run w = (.ok (), w₁) ∧
      w' = es.foldl (fun w' e ↦ w'.put (w.place p ++ e.1) e.2) w₁ := by
  obtain ⟨w₁, hc, ⟨hn, hr⟩ | ⟨e, -, hr⟩⟩ := run_replaceTree p es w
  · rw [h] at hr
    split at hr
    · rename_i hf
      cases hr
      exact ⟨w₁, hc, hn, congrArg _ (placeable_eq_self hf)⟩
    · cases hr
  · rw [h] at hr
    cases hr

theorem fileAt_of_replaceTree (hs : w.IsSound) (hd : (es.map Prod.fst).Nodup)
    (hn : ∀ x ∈ es, x.1 ≠ []) (h : (replaceTree p es).run w = (.ok (), w')) {q : Place}
    (hq : ∀ r c, (r, .file c) ∈ es → w.place p ++ r ≠ q) :
    w'.fileAt q = if w.isInside p q then none else w.fileAt q := by
  obtain ⟨w₁, hc, hr, rfl⟩ := replaceTree_eq_ok h
  have hg := isDirectory_or_of_renewDirectory (hs.get?_origin p) hr
  by_cases hx : ∃ x ∈ es, q = w.place p ++ x.1
  · obtain ⟨⟨r, e⟩, hx, rfl⟩ := hx
    have hr := hn _ hx
    have hne : w.place p ++ r ≠ [] := fun h ↦ hr (List.append_eq_nil_iff.1 h).2
    cases e with
    | file c => exact absurd rfl (hq r c hx)
    | directory =>
      -- a directory that is put where a file was can only be inside the directory that was there
      rw [fileAt, tree_foldl_put, Tree.get?_foldl_put _ hd _ hx hne]
      rcases hg with hg | hg
      · rw [isInside, hg, (Tree.isBelow_iff _ _).2 ⟨r, hr, rfl⟩]
        rfl
      · rw [fileAt, hs.get?_append_of_none hg]
        exact (ite_self none).symm
  · have hn : ∀ x ∈ es, q ≠ w.place p ++ x.1 := fun x hm he ↦ hx ⟨x, hm, he⟩
    rw [← hc.fileAt]
    refine fileAt_congr ?_
    rw [tree_foldl_put, Tree.get?_foldl_put_of_not_mem _ hn]

end FileWork

end TreeMarkup
