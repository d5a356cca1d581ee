import Mathlib.Data.List.Induction
import Mathlib.Logic.Function.Basic
import TreeMarkup.Proofs.ManifestIntegrity

namespace TreeMarkup

namespace Build

variable {b : Build} {set : PageSet} {w w' : Workspace} {writes : List (Page × Text)}

def filesAfter (b : Build) (w : Workspace) (writes : List (Page × Text)) :
    Place → Option FileContent :=
  writes.foldl
    (fun files x ↦ Function.update files (w.place (b.target x.1)) (some (.text x.2))) w.fileAt

end Build

theorem WritesText.fileAt_eq {p : Path} {t : Text} {w w' : Workspace} (h : WritesText p t w w') :
    w'.fileAt = Function.update w.fileAt (w.place p) (some (.text t)) := by
  funext q
  by_cases hq : q = w.place p
  · rw [hq, Function.update_self, h.fileAt_place]
  · rw [Function.update_of_ne hq, h.fileAt_of_ne q hq]

theorem AddsDirectories.fileAt_eq {w w' : Workspace} (h : AddsDirectories w w') :
    w'.fileAt = w.fileAt :=
  funext h.fileAt

namespace Build

variable {b : Build} {set : PageSet} {w w' : Workspace} {writes : List (Page × Text)}

theorem Writes.fileAt_eq (h : b.Writes set w writes w') : w'.fileAt = b.filesAfter w writes := by
  induction h with
  | nil => rfl
  | @cons w w₁ w' page t writes _ hw _ ih =>
    have ht := FileWork.writesText_of_ok hw
    have hp : w₁.place = w.place := funext (Workspace.place_congr ht.standpoint)
    rw [ih, filesAfter, filesAfter, hp, ht.fileAt_eq, List.foldl_cons]

def filesWith (w : Workspace) (files : Place → Option FileContent) (p : Path) (t : Text) :
    Place → Option FileContent :=
  Function.update files (w.place p) (some (.text t))

/-- How a build ends whose first pages are written, which led from the files `w₀` to `w`: what it
gives, and the files that are then there. -/
inductive Ends (b : Build) (set : PageSet) (w₀ : Workspace) (writes : List (Page × Text))
    (w : Workspace) {α : Type} : Except Failure α → (Place → Option FileContent) → Prop
  | unrendered {page : Page} {rest : List Page} {f : Failure}
      (hp : set.pages = writes.map Prod.fst ++ page :: rest)
      (hr : b.renderPage set w page = .error f) :
      Ends b set w₀ writes w (.error f) (b.filesAfter w₀ writes)
  | unopened {page : Page} {rest : List Page} {t : Text} {e : FileError}
      (hp : set.pages = writes.map Prod.fst ++ page :: rest)
      (hr : b.renderPage set w page = .ok t) (ho : w.isWritable (b.target page) = false) :
      Ends b set w₀ writes w (.error (.files e)) (b.filesAfter w₀ writes)
  | emptied {page : Page} {rest : List Page} {t : Text}
      (hp : set.pages = writes.map Prod.fst ++ page :: rest)
      (hr : b.renderPage set w page = .ok t) (ho : w.isWritable (b.target page) = true)
      (hb : w₀.IsBroken t) :
      Ends b set w₀ writes w (.error (.files .unencodable))
        (filesWith w₀ (b.filesAfter w₀ writes) (b.target page) [])
  | manifestUnopened {e : FileError} (hp : set.pages = writes.map Prod.fst)
      (ho : w.isWritable b.manifestPath = false) :
      Ends b set w₀ writes w (.error (.files e)) (b.filesAfter w₀ writes)
  | manifestEmptied (hp : set.pages = writes.map Prod.fst)
      (ho : w.isWritable b.manifestPath = true) (hb : w₀.IsBroken (manifestText writes)) :
      Ends b set w₀ writes w (.error (.files .unencodable))
        (filesWith w₀ (b.filesAfter w₀ writes) b.manifestPath [])
  | done {out : α} (hp : set.pages = writes.map Prod.fst)
      (ho : w.isWritable b.manifestPath = true) (hb : ¬w₀.IsBroken (manifestText writes)) :
      Ends b set w₀ writes w (.ok out)
        (filesWith w₀ (b.filesAfter w₀ writes) b.manifestPath (manifestText writes))

theorem Ends.map {w₀ : Workspace} {α β : Type} {r : Except Failure α}
    {files : Place → Option FileContent} (h : b.Ends set w₀ writes w r files) (f : α → β) :
    b.Ends set w₀ writes w (r.map f) files := by
  cases h with
  | unrendered hp hr => exact .unrendered hp hr
  | unopened hp hr ho => exact .unopened hp hr ho
  | emptied hp hr ho hb => exact .emptied hp hr ho hb
  | manifestUnopened hp ho => exact .manifestUnopened hp ho
  | manifestEmptied hp ho hb => exact .manifestEmptied hp ho hb
  | done hp ho hb => exact .done hp ho hb

theorem fileAt_eq_filesWith {p : Path} {t : Text} {w₀ w w' : Workspace}
    (hs : w.toStandpoint = w₀.toStandpoint) (h : WritesText p t w w') :
    w'.fileAt = filesWith w₀ w.fileAt p t := by
  rw [h.fileAt_eq, filesWith, Workspace.place_congr hs]

/-- A page that fails is not rendered, or its file is not opened, or it is left empty. -/
theorem ends_of_fails {w₀ : Workspace} {page : Page} {rest : List Page} {f : Failure} {α : Type}
    (hw : b.Writes set w₀ writes w) (hp : set.pages = writes.map Prod.fst ++ page :: rest)
    (hf : b.Fails set w page f w') :
    b.Ends set w₀ writes w (.error f : Except Failure α) w'.fileAt := by
  have hs := hw.standpoint
  cases hf with
  | rendering hr =>
    rw [hw.fileAt_eq]
    exact .unrendered hp hr
  | writing hr hm =>
    cases FileWork.writeEnds_of_run hm with
    | unopened ho hd =>
      rw [hd.fileAt_eq, hw.fileAt_eq]
      exact .unopened hp hr ho
    | emptied ho hb ht =>
      rw [fileAt_eq_filesWith hs ht, hw.fileAt_eq]
      exact .emptied hp hr ho ((Workspace.isBroken_congr hs _).1 hb)

theorem ends_of_manifest {w₀ : Workspace} {α : Type} {a : α} (hw : b.Writes set w₀ writes w)
    (hp : set.pages = writes.map Prod.fst) :
    let written := (FileWork.writeText b.manifestPath (manifestText writes)).run w
    b.Ends set w₀ writes w ((written.1.mapError Failure.files).map fun _ ↦ a)
      written.2.fileAt := by
  have hs := hw.standpoint
  have hb := Workspace.isBroken_congr hs (manifestText writes)
  intro written
  rcases hm : written with ⟨r, w'⟩
  cases FileWork.writeEnds_of_run hm with
  | unopened ho hd =>
    rw [hd.fileAt_eq, hw.fileAt_eq]
    exact .manifestUnopened hp ho
  | emptied ho hn ht =>
    rw [fileAt_eq_filesWith hs ht, hw.fileAt_eq]
    exact .manifestEmptied hp ho (hb.1 hn)
  | written ho hn ht =>
    rw [fileAt_eq_filesWith hs ht, hw.fileAt_eq]
    exact .done hp ho fun h ↦ hn (hb.2 h)

theorem run_finish (b : Build) (set : PageSet) (s : Session) :
    ∃ writes w r after, b.Writes set s.files writes w ∧
      (b.finish set).run s = (r, ⟨after, s.warnings⟩) ∧
      b.Ends set s.files writes w r after.fileAt := by
  obtain ⟨writes, w, hw, ⟨hp, hr⟩ | ⟨page, rest, f, w', hp, hf, hr⟩⟩ :=
    b.run_writePages set set.pages s
  · have hrun : (b.finish set).run s =
        ((((FileWork.writeText b.manifestPath (manifestText writes)).run w).1.mapError
            Failure.files).map fun _ ↦ (entries writes).length,
          ⟨((FileWork.writeText b.manifestPath (manifestText writes)).run w).2, s.warnings⟩) := by
      rw [finish, run_bind, hr]
      dsimp only
      rw [run_bind, SiteWork.run_onFiles, ← manifestText]
      rcases (FileWork.writeText b.manifestPath (manifestText writes)).run w with ⟨e | _, w'⟩ <;> rfl
    exact ⟨writes, w, _, _, hw, hrun, ends_of_manifest hw hp.symm⟩
  · refine ⟨writes, w, .error f, w', hw, ?_, ends_of_fails hw hp.symm hf⟩
    rw [finish, run_bind, hr]

theorem prefix_of_filesAfter {q : Place}
    (ho : ∀ x ∈ writes, (Path.ofText x.1.outputPath).slashes = 0 ∧ Path.up ∉ x.1.outputParts)
    (hq : b.filesAfter w writes q ≠ w.fileAt q) : w.place b.output <+: q := by
  induction writes using List.reverseRecOn with
  | nil => exact absurd rfl hq
  | append_singleton writes x ih =>
    rw [List.forall_mem_append, List.forall_mem_singleton] at ho
    by_cases hx : q = w.place (b.target x.1)
    · rw [hx, place_target x.1 w ho.2]
      exact List.prefix_append _ _
    · refine ih ho.1 fun he ↦ hq ?_
      rw [filesAfter, List.foldl_append, List.foldl_cons, List.foldl_nil,
        Function.update_of_ne hx]
      exact he

theorem prefix_of_filesWith {files : Place → Option FileContent} {p : Path} {t : Text}
    {w₀ : Workspace} {q : Place} (ho : w₀.place b.output <+: w₀.place p)
    (hf : files q ≠ w₀.fileAt q → w₀.place b.output <+: q)
    (hq : filesWith w₀ files p t q ≠ w₀.fileAt q) : w₀.place b.output <+: q := by
  by_cases hp : q = w₀.place p
  · exact hp ▸ ho
  · rw [filesWith, Function.update_of_ne hp] at hq
    exact hf hq

/-- Whatever a build of accepted pages changes is below its output directory. -/
theorem Ends.below_output {w₀ v : Workspace} {k : Toolkit} {p : Path} {α : Type}
    {r : Except Failure α} {files : Place → Option FileContent}
    (h : b.Ends set w₀ writes w r files) (hl : v.loadPageSet k p = .ok set) {q : Place}
    (hq : files q ≠ w₀.fileAt q) : w₀.place b.output <+: q := by
  have hs := outputPath_of_loadPageSet hl
  have hw : ∀ {rest}, set.pages = writes.map Prod.fst ++ rest →
      b.filesAfter w₀ writes q ≠ w₀.fileAt q → w₀.place b.output <+: q := by
    intro rest hp
    refine prefix_of_filesAfter fun x hx ↦ hs x.1 ?_
    rw [hp]
    exact List.mem_append_left _ (List.mem_map_of_mem hx)
  have hm : w₀.place b.output <+: w₀.place b.manifestPath := by
    rw [place_manifestPath]
    exact List.prefix_append _ _
  have hn : ∀ {l : List Page}, set.pages = l → set.pages = l ++ [] := fun h ↦ by
    rw [h, List.append_nil]
  cases h with
  | unrendered hp => exact hw hp hq
  | unopened hp => exact hw hp hq
  | @emptied page rest t hp =>
    refine prefix_of_filesWith ?_ (hw hp) hq
    have hpage : page ∈ set.pages := by
      rw [hp]
      exact List.mem_append_right _ List.mem_cons_self
    rw [place_target page w₀ (hs page hpage)]
    exact List.prefix_append _ _
  | manifestUnopened hp => exact hw (hn hp) hq
  | manifestEmptied hp => exact prefix_of_filesWith hm (hw (hn hp)) hq
  | done hp => exact prefix_of_filesWith hm (hw (hn hp)) hq

end Build

namespace Command

theorem run_runBuild (k : Toolkit) (pages output : Text) (s : Session) :
    ∃ line : Nat → Text, (runBuild k ⟨pages, output, false⟩).run s =
      (((Build.run ⟨k, 0, .ofText pages, .ofText output, id⟩).run s).1.map line,
        ((Build.run ⟨k, 0, .ofText pages, .ofText output, id⟩).run s).2) := by
  refine ⟨fun count ↦ "Built " ++ Text.ofNat count ++ " page(s) into " ++
    (Path.ofText output).display ++ "\n", ?_⟩
  change (Build.run ⟨k, 0, .ofText pages, .ofText output, id⟩ >>= _).run s = _
  rw [run_bind]
  rcases (Build.run ⟨k, 0, .ofText pages, .ofText output, id⟩).run s with ⟨f | count, s'⟩ <;> rfl

/-- A build stops at the first page that cannot be rendered or written, with the pages before it in
their files, or goes on to the manifest. All else that there is stays as it is, but for the file of a
text that cannot be encoded, which is left empty. -/
theorem build_writes_prefix (k : Toolkit) (pages output : Text) (s : Session) :
    let b : Build := ⟨k, 0, .ofText pages, .ofText output, id⟩
    let result := ((runBuild k ⟨pages, output, false⟩).run s).1
    let after := ((runBuild k ⟨pages, output, false⟩).run s).2.files
    (∀ f, s.files.loadPageSet k b.pagesFile = .error f →
      result = .error f ∧ after.fileAt = s.files.fileAt) ∧
    (∀ set, s.files.loadPageSet k b.pagesFile = .ok set →
      ∃ writes w, b.Writes set s.files writes w ∧
        b.Ends set s.files writes w result after.fileAt) ∧
    ∀ q, after.fileAt q ≠ s.files.fileAt q → s.files.place b.output <+: q := by
  intro b result after
  obtain ⟨line, hrun⟩ := run_runBuild k pages output s
  have hresult : result = (b.run.run s).1.map line := congrArg Prod.fst hrun
  have hafter : after = (b.run.run s).2.files := congrArg (·.2.files) hrun
  have hview : b.loadPageSet s.files = s.files.loadPageSet k b.pagesFile := rfl
  rw [b.run_run, hview] at hresult hafter
  cases hl : s.files.loadPageSet k b.pagesFile with
  | error f =>
    rw [hl] at hresult hafter
    rw [hresult, hafter]
    refine ⟨fun _ hf ↦ ⟨?_, rfl⟩, fun _ hs ↦ ?_, fun q hq ↦ absurd rfl hq⟩
    · cases hf
      rfl
    · cases hs
  | ok set =>
    obtain ⟨writes, w, r, files, hw, hf, h⟩ := b.run_finish set (b.noted set s)
    rw [b.files_noted] at hw h
    rw [hl] at hresult hafter
    dsimp only at hresult hafter
    rw [hf] at hresult hafter
    rw [hresult, hafter]
    refine ⟨fun _ hs ↦ ?_, fun _ hs ↦ ?_, fun q hq ↦ h.below_output hl hq⟩
    · cases hs
    · cases hs
      exact ⟨writes, w, hw, h.map line⟩

def brokenPage : Session :=
  let page (key : Text) : Value :=
    .map [(.text "key", .text key), (.text "source", .text (key ++ ".yaml"))]
  ⟨{ tree :=
      ⟨[(["pages.yaml"], .file (.document (.list [page "a", page "b"]))),
        (["a.yaml"], .file (.text "[\"hi\"]")),
        (["b.yaml"], .file (.text "[\"\\uD800\"]"))]⟩ }, []⟩

/-- The build fails at the second page, and leaves an empty file in its place. -/
theorem build_leaves_emptied_page :
    ((runBuild .plain ⟨"pages.yaml", "build", false⟩).run brokenPage).1 =
        .error (.files .unencodable) ∧
      brokenPage.files.fileAt ["build", "b.html"] = none ∧
      ((runBuild .plain ⟨"pages.yaml", "build", false⟩).run brokenPage).2.files.fileAt
        ["build", "a.html"] = some (.text "hi") ∧
      ((runBuild .plain ⟨"pages.yaml", "build", false⟩).run brokenPage).2.files.fileAt
        ["build", "b.html"] = some (.text []) := by
  have h : ((runBuild .plain ⟨"pages.yaml", "build", false⟩).run brokenPage).1 =
        .error (.files .unencodable) ∧
      holds ((runBuild .plain ⟨"pages.yaml", "build", false⟩).run brokenPage).2.files
        ["build", "a.html"] "hi" = true ∧
      holds ((runBuild .plain ⟨"pages.yaml", "build", false⟩).run brokenPage).2.files
        ["build", "b.html"] [] = true := by
    decide +kernel
  exact ⟨h.1, rfl, fileAt_of_holds h.2.1, fileAt_of_holds h.2.2⟩

end Command

end TreeMarkup
