import TreeMarkup.Proofs.FileEffects
import TreeMarkup.Site.Build

namespace TreeMarkup

theorem SiteWork.run_onFiles {α : Type} (work : FileWork α) (s : Session) :
    (SiteWork.onFiles work).run s =
      ((work.run s.files).1.mapError Failure.files, ⟨(work.run s.files).2, s.warnings⟩) := by
  rw [SiteWork.onFiles, run_get_bind]
  rcases work.run s.files with ⟨r, w⟩
  cases r <;> rfl

namespace Build

variable (b : Build) (set : PageSet)

/-- `b.Writes set w writes w'`: from the files `w`, each page of `writes` is rendered to its text with
the files of that moment and then written, which leads to the files `w'`. -/
inductive Writes : Workspace → List (Page × Text) → Workspace → Prop
  | nil (w : Workspace) : Writes w [] w
  | cons {w w₁ w' : Workspace} {page : Page} {t : Text} {writes : List (Page × Text)}
      (hr : b.renderPage set w page = .ok t)
      (hw : (FileWork.writeText (b.target page) t).run w = (.ok (), w₁))
      (h : Writes w₁ writes w') : Writes w ((page, t) :: writes) w'

/-- `b.Fails set w page f w'`: at the files `w` the page does not render, or its text cannot be
written, which leaves the files `w'`. -/
inductive Fails (w : Workspace) (page : Page) : Failure → Workspace → Prop
  | rendering {f : Failure} (hr : b.renderPage set w page = .error f) : Fails w page f w
  | writing {t : Text} {e : FileError} {w' : Workspace} (hr : b.renderPage set w page = .ok t)
      (hw : (FileWork.writeText (b.target page) t).run w = (.error e, w')) :
      Fails w page (.files e) w'

def entries (writes : List (Page × Text)) : List Json :=
  writes.map fun x ↦ manifestEntry x.1 x.2

theorem run_writePage (page : Page) (s : Session) :
    (∃ t w', b.renderPage set s.files page = .ok t ∧
        (FileWork.writeText (b.target page) t).run s.files = (.ok (), w') ∧
        (b.writePage set page).run s = (.ok (manifestEntry page t), ⟨w', s.warnings⟩)) ∨
      ∃ f w', b.Fails set s.files page f w' ∧
        (b.writePage set page).run s = (.error f, ⟨w', s.warnings⟩) := by
  rw [writePage, run_get_bind, run_bind, run_ofExcept]
  cases hr : b.renderPage set s.files page with
  | error f => exact .inr ⟨f, s.files, .rendering hr, rfl⟩
  | ok t =>
    dsimp only
    rw [run_bind, SiteWork.run_onFiles]
    rcases hw : (FileWork.writeText (b.target page) t).run s.files with ⟨e | _, w'⟩
    · exact .inr ⟨.files e, w', .writing hr hw, rfl⟩
    · exact .inl ⟨t, w', rfl, hw, rfl⟩

/-- A run over pages writes all of them, or those before the first that fails. -/
theorem run_writePages (pages : List Page) (s : Session) :
    ∃ writes w', b.Writes set s.files writes w' ∧
      ((writes.map Prod.fst = pages ∧
          (b.writePages set pages).run s = (.ok (entries writes), ⟨w', s.warnings⟩)) ∨
        ∃ page rest f w'', writes.map Prod.fst ++ page :: rest = pages ∧
          b.Fails set w' page f w'' ∧
          (b.writePages set pages).run s = (.error f, ⟨w'', s.warnings⟩)) := by
  induction pages generalizing s with
  | nil => exact ⟨[], s.files, .nil _, .inl ⟨rfl, rfl⟩⟩
  | cons page pages ih =>
    rw [writePages, run_bind]
    rcases b.run_writePage set page s with ⟨t, w₁, hr, hw, hp⟩ | ⟨f, w₁, hd, hp⟩
    · rw [hp]
      dsimp only
      obtain ⟨writes, w', hws, h⟩ := ih ⟨w₁, s.warnings⟩
      refine ⟨(page, t) :: writes, w', .cons hr hw hws, ?_⟩
      rw [run_bind]
      rcases h with ⟨hm, hrun⟩ | ⟨page', rest, f, w'', hm, hd, hrun⟩
      · rw [hrun]
        exact .inl ⟨by rw [List.map_cons, hm], rfl⟩
      · rw [hrun]
        exact .inr ⟨page', rest, f, w'', by rw [List.map_cons, List.cons_append, hm], hd, rfl⟩
    · rw [hp]
      exact ⟨[], s.files, .nil _, .inr ⟨page, pages, f, w₁, rfl, hd, rfl⟩⟩

namespace Writes

variable {b set} {w w' : Workspace} {writes : List (Page × Text)}

theorem standpoint (h : b.Writes set w writes w') : w'.toStandpoint = w.toStandpoint := by
  induction h with
  | nil => rfl
  | cons _ hw _ ih => exact ih.trans (FileWork.writesText_of_ok hw).standpoint

theorem place (h : b.Writes set w writes w') (p : Path) : w'.place p = w.place p :=
  Workspace.place_congr h.standpoint p

theorem isDistinct (h : b.Writes set w writes w') (hd : w.tree.IsDistinct) :
    w'.tree.IsDistinct := by
  induction h with
  | nil => exact hd
  | cons _ hw _ ih => exact ih ((FileWork.writesText_of_ok hw).isDistinct hd)

theorem fileAt_of_not_mem (h : b.Writes set w writes w') {q : Place}
    (hq : ∀ x ∈ writes, w.place (b.target x.1) ≠ q) : w'.fileAt q = w.fileAt q := by
  induction h with
  | nil => rfl
  | @cons w w₁ w' page t writes _ hw _ ih =>
    rw [List.forall_mem_cons] at hq
    have ht := FileWork.writesText_of_ok hw
    rw [← ht.fileAt_of_ne q fun he ↦ hq.1 he.symm]
    refine ih fun x hx ↦ ?_
    rw [ht.place]
    exact hq.2 x hx

theorem exists_fileAt (h : b.Writes set w writes w') {x : Page × Text} (hx : x ∈ writes) :
    ∃ y ∈ writes, w.place (b.target y.1) = w.place (b.target x.1) ∧
      w'.fileAt (w.place (b.target x.1)) = some (.text y.2) := by
  induction h generalizing x with
  | nil => cases hx
  | @cons w w₁ w' page t writes _ hw h ih =>
    have ht := FileWork.writesText_of_ok hw
    have hp := ht.place
    by_cases hm : ∃ y ∈ writes, w.place (b.target y.1) = w.place (b.target x.1)
    · obtain ⟨y, hy, hyx⟩ := hm
      obtain ⟨z, hz, hzy, hf⟩ := ih hy
      simp only [hp] at hzy hf
      rw [hyx] at hzy hf
      exact ⟨z, List.mem_cons_of_mem _ hz, hzy, hf⟩
    · have hne : ∀ y ∈ writes, w.place (b.target y.1) ≠ w.place (b.target x.1) :=
        fun y hy he ↦ hm ⟨y, hy, he⟩
      rcases List.mem_cons.1 hx with rfl | hx
      · refine ⟨(page, t), List.mem_cons_self, rfl, ?_⟩
        rw [fileAt_of_not_mem h fun y hy ↦ by rw [hp]; exact hne y hy]
        exact ht.fileAt_place
      · exact absurd rfl (hne x hx)

end Writes

section

variable {set} {w w₁ w' : Workspace} {writes : List (Page × Text)} {t : Text}
  (h : b.Writes set w writes w₁)
  (hm : (FileWork.writeText b.manifestPath t).run w₁ = (.ok (), w'))
include h hm

theorem fileAt_manifest : w'.fileAt (w.place b.manifestPath) = some (.text t) := by
  have hp := (FileWork.writesText_of_ok hm).fileAt_place
  rwa [h.place] at hp

/-- In the end every page that was written is in its file if and only if no two pages that were
written to one file differ, nor does any page that was written to the file of the manifest. -/
theorem forall_fileAt_iff :
    (∀ x ∈ writes, w'.fileAt (w.place (b.target x.1)) = some (.text x.2)) ↔
      (∀ x ∈ writes, ∀ y ∈ writes,
          w.place (b.target x.1) = w.place (b.target y.1) → x.2 = y.2) ∧
        ∀ x ∈ writes, w.place (b.target x.1) = w.place b.manifestPath → x.2 = t := by
  have hf := b.fileAt_manifest h hm
  constructor
  · intro hw
    refine ⟨fun x hx y hy hp ↦ ?_, fun x hx hp ↦ ?_⟩
    · have hxy := hw x hx
      rw [hp, hw y hy] at hxy
      exact (FileContent.text.inj (Option.some.inj hxy)).symm
    · have hx := hw x hx
      rw [hp, hf] at hx
      exact (FileContent.text.inj (Option.some.inj hx)).symm
  · rintro ⟨hw, ht⟩ x hx
    by_cases hp : w.place (b.target x.1) = w.place b.manifestPath
    · rw [hp, hf, ht x hx hp]
    · obtain ⟨y, hy, hyx, hfy⟩ := h.exists_fileAt hx
      rw [← h.place b.manifestPath] at hp
      rw [(FileWork.writesText_of_ok hm).fileAt_of_ne _ hp, hfy, hw y hy x hx hyx]

theorem exists_fileAt_target {x : Page × Text} (hx : x ∈ writes) :
    ∃ c, w'.fileAt (w.place (b.target x.1)) = some c := by
  by_cases hp : w.place (b.target x.1) = w.place b.manifestPath
  · rw [hp]
    exact ⟨_, b.fileAt_manifest h hm⟩
  · obtain ⟨y, -, -, hy⟩ := h.exists_fileAt hx
    rw [← h.place b.manifestPath] at hp
    rw [(FileWork.writesText_of_ok hm).fileAt_of_ne _ hp]
    exact ⟨_, hy⟩

end

def finish (set : PageSet) : SiteWork Nat := do
  let entries ← b.writePages set set.pages
  SiteWork.onFiles (.writeText b.manifestPath (manifest entries).write)
  return entries.length

def noted (set : PageSet) (s : Session) : Session :=
  if set.pages.isEmpty then
    { s with warnings := s.warnings ++ ["No pages defined in " ++ b.pagesFile.display] }
  else s

theorem files_noted (s : Session) : (b.noted set s).files = s.files := by
  unfold noted
  split <;> rfl

theorem run_run (s : Session) :
    b.run.run s =
      match b.loadPageSet s.files with
      | .error f => (.error f, s)
      | .ok set => (b.finish set).run (b.noted set s) := by
  rw [run, run_get_bind, run_bind, run_ofExcept]
  cases b.loadPageSet s.files with
  | error f => rfl
  | ok set =>
    dsimp only
    unfold noted
    split <;> rfl

/-- A build that succeeds has written all pages of its page set and then the manifest. -/
theorem run_eq_ok {s s' : Session} {n : Nat} (h : b.run.run s = (.ok n, s')) :
    ∃ set writes w, b.loadPageSet s.files = .ok set ∧
      b.Writes set s.files writes w ∧ writes.map Prod.fst = set.pages ∧
      (FileWork.writeText b.manifestPath (manifest (entries writes)).write).run w =
        (.ok (), s'.files) := by
  rw [run_run] at h
  cases hl : b.loadPageSet s.files with
  | error f =>
    rw [hl] at h
    cases h
  | ok set =>
    rw [hl] at h
    dsimp only at h
    obtain ⟨js, s₁, hp, h⟩ := run_bind_eq_ok h
    obtain ⟨writes, w, hws, hr⟩ := b.run_writePages set set.pages (b.noted set s)
    rw [files_noted] at hws
    rcases hr with ⟨hm, hr⟩ | ⟨page, rest, f, w', -, -, hr⟩
    · rw [hp] at hr
      cases hr
      obtain ⟨_, s₂, hf, h⟩ := run_bind_eq_ok h
      cases h
      rw [SiteWork.run_onFiles] at hf
      rcases hw : (FileWork.writeText b.manifestPath (manifest (entries writes)).write).run w with
        ⟨e | _, w'⟩
      · rw [hw] at hf
        cases hf
      · rw [hw] at hf
        cases hf
        exact ⟨set, writes, w, rfl, hws, hm, hw⟩
    · rw [hp] at hr
      cases hr

end Build

end TreeMarkup
