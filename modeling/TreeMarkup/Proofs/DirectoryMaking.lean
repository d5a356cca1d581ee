import TreeMarkup.Proofs.PathResolution

namespace TreeMarkup

namespace FileWork

variable {w w' : Workspace} {p : Path}

open Workspace

theorem run_makeDirectory_of_error {e : FileError} (h : w.resolve p = .error e) :
    (makeDirectory p).run w = (.error e, w) := by
  rw [makeDirectory, run_bind, run_resolve, h]

theorem run_unlessDirectory (p : Path) (e : FileError) (w : Workspace) :
    (unlessDirectory p e).run w = if w.isDirectory p then (.ok (), w) else (.error e, w) := by
  rw [unlessDirectory, run_get_bind]
  split <;> rfl

theorem isDirectory_of_unlessDirectory {e : FileError}
    (h : (unlessDirectory p e).run w = (.ok (), w')) : w'.isDirectory p = true := by
  rw [run_unlessDirectory] at h
  split at h
  · cases h
    assumption
  · cases h

theorem makeDirectory_eq_ok_iff : (makeDirectory p).run w = (.ok (), w') ↔
    w.resolve p = .ok (w.place p) ∧ w.tree.get? (w.place p) = none ∧
      w' = w.put (w.place p) .directory := by
  constructor
  · intro h
    cases hr : w.resolve p with
    | error e =>
      rw [run_makeDirectory_of_error hr] at h
      cases h
    | ok q =>
      obtain rfl := resolve_eq_place hr
      rw [run_makeDirectory hr] at h
      cases hg : w.tree.get? (w.place p) with
      | some e =>
        rw [hg] at h
        cases h
      | none =>
        rw [hg] at h
        cases h
        exact ⟨rfl, rfl, rfl⟩
  · rintro ⟨hr, hg, rfl⟩
    rw [run_makeDirectory hr, hg]

theorem makeDirectory_eq_error {e : FileError} (h : (makeDirectory p).run w = (.error e, w')) :
    w' = w ∧ (e = .alreadyExists ∨ w.resolve p = .error e) := by
  cases hr : w.resolve p with
  | error e' =>
    rw [run_makeDirectory_of_error hr] at h
    cases h
    exact ⟨rfl, .inr rfl⟩
  | ok q =>
    rw [run_makeDirectory hr] at h
    cases hg : w.tree.get? q with
    | none =>
      rw [hg] at h
      cases h
    | some e' =>
      rw [hg] at h
      cases h
      exact ⟨rfl, .inl rfl⟩

theorem isDirectory_of_makeDirectory (h : (makeDirectory p).run w = (.ok (), w')) :
    w'.isDirectory p = true := by
  have hd := (steps_makeDirectory p).of_run h
  obtain ⟨hr, hg, rfl⟩ := makeDirectory_eq_ok_iff.1 h
  have hn : w.place p ≠ [] := by
    intro hn
    rw [hn] at hg
    cases hg
  refine isDirectory_iff.2 ⟨?_, ?_⟩
  · rw [resolve_of_addsDirectories hd (by simp [hr]), hr]
    rfl
  · exact Tree.get?_put_self _ _ _ hn

theorem isDirectory_of_tryCatch {g : FileError → FileWork Unit}
    (hg : ∀ e u u', (g e).run u = (.ok (), u') → u'.isDirectory p = true)
    (h : (tryCatch (makeDirectory p) g).run w = (.ok (), w')) : w'.isDirectory p = true := by
  rw [run_tryCatch] at h
  rcases hm : (makeDirectory p).run w with ⟨e | _, w₁⟩
  · rw [hm] at h
    exact hg e w₁ w' h
  · rw [hm] at h
    cases h
    exact isDirectory_of_makeDirectory hm

def ensureDirectory (p : Path) : FileWork Unit := tryCatch (makeDirectory p) (unlessDirectory p)

theorem ensureDirectory_eq_ok_iff : (ensureDirectory p).run w = (.ok (), w') ↔
    w.isDirectory p = true ∧ w' = w ∨ (makeDirectory p).run w = (.ok (), w') := by
  rw [ensureDirectory, run_tryCatch]
  rcases hm : (makeDirectory p).run w with ⟨e | _, w₁⟩
  · obtain ⟨rfl, -⟩ := makeDirectory_eq_error hm
    dsimp only
    rw [run_unlessDirectory]
    constructor
    · intro h
      split at h
      · rename_i hd
        cases h
        exact .inl ⟨hd, rfl⟩
      · cases h
    · rintro (⟨hd, rfl⟩ | h)
      · rw [if_pos hd]
      · cases h
  · constructor
    · exact .inr
    · rintro (⟨hd, -⟩ | h)
      · obtain ⟨-, hg, -⟩ := makeDirectory_eq_ok_iff.1 hm
        rw [(isDirectory_iff.1 hd).2] at hg
        cases hg
      · exact h

theorem ne_notFound_of_makeDirectory {e : FileError} (hr : w.resolve p ≠ .error .notFound)
    (h : (makeDirectory p).run w = (.error e, w')) : e ≠ .notFound := by
  rintro rfl
  rcases (makeDirectory_eq_error h).2 with he | hn
  · cases he
  · exact hr hn

theorem resolve_of_ensureDirectory (h : (ensureDirectory p).run w = (.ok (), w')) :
    w.resolve p = .ok (w.place p) := by
  rcases ensureDirectory_eq_ok_iff.1 h with ⟨hd, -⟩ | hm
  · exact (isDirectory_iff.1 hd).1
  · exact (makeDirectory_eq_ok_iff.1 hm).1

theorem run_makeDirectories_of_found (h : w.resolve p ≠ .error .notFound) :
    (makeDirectories p).run w = (ensureDirectory p).run w := by
  rw [makeDirectories, ensureDirectory, run_tryCatch, run_tryCatch]
  rcases hm : (makeDirectory p).run w with ⟨e | _, w₁⟩
  · have he : ¬(e = .notFound ∧ p.parts ≠ []) := fun he ↦ ne_notFound_of_makeDirectory h hm he.1
    dsimp only
    rw [dif_neg he]
  · rfl

theorem makeDirectories_of_isDirectory (h : w.isDirectory p = true) :
    (makeDirectories p).run w = (.ok (), w) := by
  have hr : w.resolve p ≠ .error .notFound := by simp [(isDirectory_iff.1 h).1]
  rw [run_makeDirectories_of_found hr]
  exact ensureDirectory_eq_ok_iff.2 (.inl ⟨h, rfl⟩)

theorem isDirectory_of_makeDirectories (h : (makeDirectories p).run w = (.ok (), w')) :
    w'.isDirectory p = true := by
  rw [makeDirectories] at h
  refine isDirectory_of_tryCatch (fun e u u' h ↦ ?_) h
  split at h
  · obtain ⟨_, w₁, -, h⟩ := run_bind_eq_ok h
    refine isDirectory_of_tryCatch (fun e v v' h ↦ ?_) h
    split at h
    · cases h
    · exact isDirectory_of_unlessDirectory h
  · exact isDirectory_of_unlessDirectory h

theorem makeDirectories_of_notFound (hr : w.resolve p = .error .notFound) (hp : p.parts ≠ []) :
    (makeDirectories p).run w = (.ok (), w') ↔
      ∃ w₁, (makeDirectories p.parent).run w = (.ok (), w₁) ∧
        (makeDirectories p).run w₁ = (.ok (), w') := by
  have hs : ∀ w₁, (makeDirectories p.parent).run w = (.ok (), w₁) →
      (tryCatch (makeDirectory p) fun e ↦
        if e = .notFound then throw e else unlessDirectory p e).run w₁ =
          (makeDirectories p).run w₁ := by
    intro w₁ hw
    have hn := resolve_ne_notFound hp (isDirectory_of_makeDirectories hw)
    rw [run_makeDirectories_of_found hn, ensureDirectory, run_tryCatch, run_tryCatch]
    rcases hm : (makeDirectory p).run w₁ with ⟨e | _, w₂⟩
    · dsimp only
      rw [if_neg (ne_notFound_of_makeDirectory hn hm)]
    · rfl
  -- once the parent is there, nothing is missing on the way, and no further round is made
  have he : FileError.notFound = .notFound ∧ p.parts ≠ [] := ⟨rfl, hp⟩
  nth_rewrite 1 [makeDirectories]
  rw [run_tryCatch, run_makeDirectory_of_error hr]
  dsimp only
  rw [dif_pos he, run_seq_eq_ok_iff]
  exact exists_congr fun w₁ ↦ and_congr_right fun hw ↦ by rw [hs w₁ hw]

/-- All directories down to a path are those down to its parent, and then the last one. -/
theorem makeDirectories_iff_parent (hp : p.parts ≠ []) :
    (makeDirectories p).run w = (.ok (), w') ↔
      ∃ w₁, (makeDirectories p.parent).run w = (.ok (), w₁) ∧
        (ensureDirectory p).run w₁ = (.ok (), w') := by
  have hf : ∀ w₁, (makeDirectories p.parent).run w = (.ok (), w₁) →
      (makeDirectories p).run w₁ = (ensureDirectory p).run w₁ := fun w₁ hw ↦
    run_makeDirectories_of_found (resolve_ne_notFound hp (isDirectory_of_makeDirectories hw))
  rw [← exists_congr fun w₁ ↦ and_congr_right fun hw ↦ by rw [← hf w₁ hw]]
  by_cases hd : w.isDirectory p.parent = true
  · rw [makeDirectories_of_isDirectory hd]
    constructor
    · exact fun h ↦ ⟨w, rfl, h⟩
    · rintro ⟨_, hw, h⟩
      cases hw
      exact h
  cases hr : w.resolve p with
  | ok q => exact absurd (isDirectory_parent_of_resolve hp hr) hd
  | error e =>
    by_cases he : e = .notFound
    · exact makeDirectories_of_notFound (he ▸ hr) hp
    -- nothing that is made on the way to the parent mends any other error
    have hn : ∀ w₁, w₁.resolve p = .error e → (makeDirectories p).run w₁ ≠ (.ok (), w') := by
      intro w₁ hr₁ h
      have hf : w₁.resolve p ≠ .error .notFound := by simp [hr₁, he]
      rw [run_makeDirectories_of_found hf] at h
      rw [resolve_of_ensureDirectory h] at hr₁
      cases hr₁
    constructor
    · exact fun h ↦ absurd h (hn w hr)
    · rintro ⟨w₁, hw, h⟩
      have ha := (steps_makeDirectories p.parent).of_run hw
      have hf : w.resolve p ≠ .error .notFound := by simp [hr, he]
      exact absurd h (hn w₁ ((resolve_of_addsDirectories ha hf).trans hr))

theorem run_makeDirectories_of_nil (hp : p.parts = []) (w : Workspace) :
    (makeDirectories p).run w = (ensureDirectory p).run w := by
  refine run_makeDirectories_of_found fun hr ↦ ?_
  have hw := walk_of_resolve_notFound hr
  rw [hp] at hw
  cases hw

theorem get?_of_makeDirectories {p : Path} {w w' : Workspace}
    (h : (makeDirectories p).run w = (.ok (), w')) {q : Place} (hq : q ∉ w.waypoints p) :
    w'.tree.get? q = w.tree.get? q := by
  have hl : ∀ {w₁}, w₁.toStandpoint = w.toStandpoint → (ensureDirectory p).run w₁ = (.ok (), w') →
      w'.tree.get? q = w₁.tree.get? q := by
    intro w₁ hc he
    rcases ensureDirectory_eq_ok_iff.1 he with ⟨-, rfl⟩ | hm
    · rfl
    · obtain ⟨-, -, rfl⟩ := makeDirectory_eq_ok_iff.1 hm
      refine Tree.get?_put_of_ne _ _ _ fun hp ↦ hq ?_
      rw [hp, place_congr hc]
      exact place_mem_waypoints w p
  by_cases hp : p.parts = []
  · rw [run_makeDirectories_of_nil hp] at h
    exact hl rfl h
  · obtain ⟨w₁, hw, he⟩ := (makeDirectories_iff_parent hp).1 h
    have hlt := Path.length_parent_lt hp
    have ha := (steps_makeDirectories p.parent).of_run hw
    rw [hl ha.standpoint he]
    refine get?_of_makeDirectories hw fun hm ↦ hq ?_
    rw [waypoints_eq_append hp]
    exact List.mem_append_left _ hm
termination_by p.parts.length

theorem makeDirectories_join_iff (p : Path) (names : List Text) (w w' : Workspace) :
    (makeDirectories (p.join ⟨0, names⟩)).run w = (.ok (), w') ↔
      ∃ w₁, (makeDirectories p).run w = (.ok (), w₁) ∧
        (makeDirectories (p.join ⟨0, names⟩)).run w₁ = (.ok (), w') := by
  induction names using List.reverseRecOn generalizing w' with
  | nil =>
    rw [Path.join_nil]
    constructor
    · exact fun h ↦ ⟨w', h, makeDirectories_of_isDirectory (isDirectory_of_makeDirectories h)⟩
    · rintro ⟨w₁, hw, h⟩
      rw [makeDirectories_of_isDirectory (isDirectory_of_makeDirectories hw)] at h
      cases h
      exact hw
  | append_singleton names name ih =>
    have hp : (p.join ⟨0, names ++ [name]⟩).parts ≠ [] := by simp [Path.join]
    constructor
    · intro h
      obtain ⟨w₂, hw, he⟩ := (makeDirectories_iff_parent hp).1 h
      rw [Path.parent_join_append_singleton] at hw
      obtain ⟨w₁, hp₁, hw⟩ := (ih w₂).1 hw
      refine ⟨w₁, hp₁, (makeDirectories_iff_parent hp).2 ⟨w₂, ?_, he⟩⟩
      rwa [Path.parent_join_append_singleton]
    · rintro ⟨w₁, hp₁, h⟩
      obtain ⟨w₂, hw, he⟩ := (makeDirectories_iff_parent hp).1 h
      rw [Path.parent_join_append_singleton] at hw
      refine (makeDirectories_iff_parent hp).2 ⟨w₂, ?_, he⟩
      rw [Path.parent_join_append_singleton]
      exact (ih w₂).2 ⟨w₁, hp₁, hw⟩

def orExists (x : FileWork Unit) : FileWork Unit :=
  tryCatch x fun e ↦ if e = .alreadyExists then pure () else throw e

theorem orExists_makeDirectory_iff :
    (orExists (makeDirectory p)).run w = (.ok (), w') ∧ w'.isDirectory p = true ↔
      (ensureDirectory p).run w = (.ok (), w') := by
  rw [ensureDirectory_eq_ok_iff, orExists, run_tryCatch]
  rcases hm : (makeDirectory p).run w with ⟨e | _, w₁⟩
  · obtain ⟨rfl, he⟩ := makeDirectory_eq_error hm
    dsimp only
    constructor
    · rintro ⟨h, hd⟩
      split at h
      · cases h
        exact .inl ⟨hd, rfl⟩
      · cases h
    · rintro (⟨hd, rfl⟩ | h)
      · have hx : e = .alreadyExists := by
          refine he.resolve_right fun hr ↦ ?_
          rw [(isDirectory_iff.1 hd).1] at hr
          cases hr
        rw [if_pos hx]
        exact ⟨rfl, hd⟩
      · cases h
  · constructor
    · exact fun h ↦ .inr h.1
    · rintro (⟨hd, -⟩ | h)
      · have hg := (makeDirectory_eq_ok_iff.1 hm).2.1
        rw [(isDirectory_iff.1 hd).2] at hg
        cases hg
      · cases h
        exact ⟨rfl, isDirectory_of_makeDirectory hm⟩

def prepareParent (p : Path) : FileWork Unit := do
  if p.parent.parts ≠ [] && !(← get).pathExists p.parent then
    orExists (makeNewDirectory p.parent)

theorem makeNewDirectory_eq (hp : p.parts ≠ []) :
    makeNewDirectory p = prepareParent p >>= fun _ ↦ makeDirectory p := by
  rw [makeNewDirectory, prepareParent]
  simp only [dif_pos hp, bind_assoc]
  refine bind_congr fun w ↦ ?_
  split <;> rfl

theorem run_prepareParent (p : Path) (w : Workspace) : (prepareParent p).run w =
    if p.parent.parts = [] ∨ w.pathExists p.parent = true then (.ok (), w)
    else (orExists (makeNewDirectory p.parent)).run w := by
  rw [prepareParent, run_get_bind]
  have hb : (decide (p.parent.parts ≠ []) && !w.pathExists p.parent) = true ↔
      ¬(p.parent.parts = [] ∨ w.pathExists p.parent = true) := by simp
  by_cases hc : p.parent.parts = [] ∨ w.pathExists p.parent = true
  · rw [if_pos hc, if_neg fun h ↦ hb.1 h hc]
    rfl
  · rw [if_neg hc, if_pos (hb.2 hc)]

theorem ne_alreadyExists_of_prepareParent {e : FileError}
    (h : (prepareParent p).run w = (.error e, w')) : e ≠ .alreadyExists := by
  rw [run_prepareParent] at h
  split at h
  · cases h
  · rw [orExists, run_tryCatch] at h
    rcases hm : (makeNewDirectory p.parent).run w with ⟨e' | _, w₁⟩
    · rw [hm] at h
      dsimp only at h
      split at h
      · cases h
      · cases h
        assumption
    · rw [hm] at h
      cases h

theorem orExists_makeNewDirectory_iff (hp : p.parts ≠ []) :
    (orExists (makeNewDirectory p)).run w = (.ok (), w') ∧ w'.isDirectory p = true ↔
      ∃ w₁, (prepareParent p).run w = (.ok (), w₁) ∧
        (ensureDirectory p).run w₁ = (.ok (), w') := by
  -- what is done about the parent never fails because something exists
  have hb : (orExists (makeNewDirectory p)).run w =
      (prepareParent p >>= fun _ ↦ orExists (makeDirectory p)).run w := by
    rw [makeNewDirectory_eq hp, orExists, run_tryCatch, run_bind, run_bind]
    rcases ht : (prepareParent p).run w with ⟨e | _, w₁⟩
    · dsimp only
      rw [if_neg (ne_alreadyExists_of_prepareParent ht)]
      rfl
    · dsimp only
      rw [orExists, run_tryCatch]
  rw [hb, run_seq_eq_ok_iff, ← exists_and_right]
  refine exists_congr fun w₁ ↦ ?_
  rw [and_assoc, orExists_makeDirectory_iff]

theorem prepareParent_iff (p : Path) {w w' : Workspace}
    (ho : w.tree.get? (w.origin p) = some .directory) :
    (prepareParent p).run w = (.ok (), w') ∧ w'.isDirectory p.parent = true ↔
      (makeDirectories p.parent).run w = (.ok (), w') := by
  rw [run_prepareParent]
  by_cases hc : p.parent.parts = [] ∨ w.pathExists p.parent = true
  · rw [if_pos hc]
    constructor
    · rintro ⟨h, hd⟩
      cases h
      exact makeDirectories_of_isDirectory hd
    · intro h
      have hs : (makeDirectories p.parent).run w = (ensureDirectory p.parent).run w := by
        rcases hc with hn | hx
        · exact run_makeDirectories_of_nil hn w
        · refine run_makeDirectories_of_found ?_
          simp [(pathExists_iff.1 hx).1]
      have hg : w.tree.get? (w.place p.parent) ≠ none := by
        rcases hc with hn | hx
        · have hl : w.place p.parent = w.origin p := by
            rw [place, hn]
            rfl
          simp [hl, ho]
        · exact (pathExists_iff.1 hx).2
      rw [hs] at h
      rcases ensureDirectory_eq_ok_iff.1 h with ⟨hd, rfl⟩ | hm
      · exact ⟨rfl, hd⟩
      · exact absurd (makeDirectory_eq_ok_iff.1 hm).2.1 hg
  · rw [if_neg hc]
    obtain ⟨hn, -⟩ := not_or.1 hc
    have hlt : p.parent.parts.length < p.parts.length := by
      refine Path.length_parent_lt fun h ↦ hn ?_
      rw [Path.parent, h]
      rfl
    -- both make the parent of the parent first, where the recursion applies, and then the parent
    rw [orExists_makeNewDirectory_iff hn, makeDirectories_iff_parent hn]
    refine exists_congr fun w₁ ↦ and_congr_left fun hs ↦ ?_
    have hd := isDirectory_parent_of_resolve hn (resolve_of_ensureDirectory hs)
    rw [← prepareParent_iff p.parent ho]
    exact ⟨fun h ↦ ⟨h, hd⟩, And.left⟩
termination_by p.parts.length

/-- To make a new directory is to make all those down to its parent, and then the directory. -/
theorem makeNewDirectory_iff (hp : p.parts ≠ []) (ho : w.tree.get? (w.origin p) = some .directory) :
    (makeNewDirectory p).run w = (.ok (), w') ↔
      ∃ w₁, (makeDirectories p.parent).run w = (.ok (), w₁) ∧
        (makeDirectory p).run w₁ = (.ok (), w') := by
  rw [makeNewDirectory_eq hp, run_seq_eq_ok_iff]
  refine exists_congr fun w₁ ↦ and_congr_left fun hm ↦ ?_
  have hd := isDirectory_parent_of_resolve hp (makeDirectory_eq_ok_iff.1 hm).1
  rw [← prepareParent_iff p ho]
  exact ⟨fun h ↦ ⟨h, hd⟩, And.left⟩

end FileWork

end TreeMarkup
