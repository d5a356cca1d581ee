import TreeMarkup.Command.Run
import TreeMarkup.Proofs.SiteWrites
import TreeMarkup.Proofs.TreePlacement
import TreeMarkup.Site.Plain

namespace TreeMarkup

namespace SiteWork

/-- Work that neither gives warnings nor depends on those that were given. -/
def IsSilent {α : Type} (x : SiteWork α) : Prop :=
  ∀ w warnings,
    x.run ⟨w, warnings⟩ = ((x.run ⟨w, []⟩).1, ⟨(x.run ⟨w, []⟩).2.files, warnings⟩)

variable {α β : Type}

theorem isSilent_bind {x : SiteWork α} {f : α → SiteWork β} (hx : IsSilent x)
    (hf : ∀ a, IsSilent (f a)) : IsSilent (x >>= f) := by
  intro w warnings
  rw [run_bind, hx w warnings, run_bind]
  rcases x.run ⟨w, []⟩ with ⟨e | a, w₁, given⟩
  · rfl
  · dsimp only
    rw [hf a w₁ warnings, hf a w₁ given]

theorem isSilent_pure (a : α) : IsSilent (pure a : SiteWork α) := fun _ _ ↦ rfl

theorem isSilent_onFiles (work : FileWork α) : IsSilent (onFiles work) := by
  intro w warnings
  rw [run_onFiles, run_onFiles]

theorem isSilent_ofExcept (r : Except Failure α) : IsSilent (ofExcept r) := by
  intro w warnings
  rw [run_ofExcept, run_ofExcept]

theorem isSilent_get_bind {f : Session → SiteWork α} (hf : ∀ s, IsSilent (f s))
    (hs : ∀ w given given', f ⟨w, given⟩ = f ⟨w, given'⟩) : IsSilent (get >>= f) := by
  intro w warnings
  rw [run_get_bind, run_get_bind, hs w [] warnings]
  exact hf ⟨w, warnings⟩ w warnings

end SiteWork

namespace Build

open SiteWork

variable (b : Build) (set : PageSet)

theorem isSilent_writePage (page : Page) : IsSilent (b.writePage set page) := by
  refine isSilent_get_bind (fun s ↦ ?_) fun _ _ _ ↦ rfl
  refine isSilent_bind (isSilent_ofExcept _) fun t ↦ ?_
  exact isSilent_bind (isSilent_onFiles _) fun _ ↦ isSilent_pure _

theorem isSilent_writePages (pages : List Page) : IsSilent (b.writePages set pages) := by
  induction pages with
  | nil => exact isSilent_pure _
  | cons page pages ih =>
    exact isSilent_bind (b.isSilent_writePage set page) fun _ ↦
      isSilent_bind ih fun _ ↦ isSilent_pure _

theorem isSilent_finish : IsSilent (b.finish set) :=
  isSilent_bind (b.isSilent_writePages set set.pages) fun _ ↦
    isSilent_bind (isSilent_onFiles _) fun _ ↦ isSilent_pure _

theorem run_congr {s s' : Session} (h : s.files = s'.files) :
    (b.run.run s).1 = (b.run.run s').1 ∧ (b.run.run s).2.files = (b.run.run s').2.files := by
  rw [run_run, run_run, h]
  cases b.loadPageSet s'.files with
  | error f => exact ⟨rfl, h⟩
  | ok set =>
    dsimp only
    have hn : (b.noted set s).files = (b.noted set s').files := by
      rw [files_noted, files_noted, h]
    have h₁ : (b.finish set).run (b.noted set s) = _ :=
      b.isSilent_finish set (b.noted set s).files (b.noted set s).warnings
    have h₂ : (b.finish set).run (b.noted set s') = _ :=
      b.isSilent_finish set (b.noted set s').files (b.noted set s').warnings
    rw [h₁, h₂, hn]
    exact ⟨rfl, rfl⟩

theorem writePages_congr {b c : Build} (ht : b.target = c.target) {pages : List Page}
    (hr : ∀ page ∈ pages, ∀ w, b.renderPage set w page = c.renderPage set w page) :
    b.writePages set pages = c.writePages set pages := by
  induction pages with
  | nil => rfl
  | cons page pages ih =>
    rw [List.forall_mem_cons] at hr
    have hp : b.writePage set page = c.writePage set page := by simp only [writePage, hr.1, ht]
    rw [writePages, writePages, hp, ih hr.2]

theorem run_run_of_turn {b : Build} {n : Nat} {s : Session}
    (h : ∀ set, b.loadPageSet s.files = .ok set → ∀ page ∈ set.pages, ∀ w,
      b.renderPage set w page = { b with turn := n }.renderPage set w page) :
    b.run.run s = { b with turn := n }.run.run s := by
  rw [run_run, run_run]
  have hl : { b with turn := n }.loadPageSet s.files = b.loadPageSet s.files := rfl
  rw [hl]
  cases hs : b.loadPageSet s.files with
  | error f => rfl
  | ok set =>
    have hw : b.writePages set set.pages = { b with turn := n }.writePages set set.pages :=
      writePages_congr (b := b) (c := { b with turn := n }) set rfl (h set hs)
    dsimp only
    rw [finish, hw]
    rfl

end Build

section

variable {k : Toolkit} {n : Nat} {p output : Path}

theorem run_trial (k : Toolkit) (n : Nat) (p : Path) (s : Session) :
    ∃ warnings, (trial k n p).run s =
      (((trialBuild k n p s.files).run.run ⟨s.files.blank, s.warnings⟩).1.map fun _ ↦
          ((trialBuild k n p s.files).run.run
            ⟨s.files.blank, s.warnings⟩).2.files.tree.below trialOutput.parts,
        ⟨s.files, warnings⟩) := by
  rw [trial, run_get_bind]
  rcases (trialBuild k n p s.files).run.run ⟨s.files.blank, s.warnings⟩ with ⟨f | n, after⟩
  · exact ⟨after.warnings, rfl⟩
  · exact ⟨after.warnings, rfl⟩

theorem files_trial (k : Toolkit) (n : Nat) (p : Path) (s : Session) :
    ((trial k n p).run s).2.files = s.files := by
  obtain ⟨_, hs⟩ := run_trial k n p s
  rw [hs]

theorem trial_congr {s s' : Session} (h : s.files = s'.files) :
    ((trial k n p).run s).1 = ((trial k n p).run s').1 := by
  obtain ⟨_, hs⟩ := run_trial k n p s
  obtain ⟨_, hs'⟩ := run_trial k n p s'
  have hf : (⟨s.files.blank, s.warnings⟩ : Session).files =
      (⟨s.files.blank, s'.warnings⟩ : Session).files := rfl
  have hr := (trialBuild k n p s.files).run_congr hf
  rw [hs, hs', ← h, hr.1, hr.2]

theorem trial_eq_ok_iff {s : Session} {es : List (Place × Entry)} :
    ((trial k n p).run s).1 = .ok es ↔
      ∃ m warnings u,
        (trialBuild k n p s.files).run.run ⟨s.files.blank, s.warnings⟩ = (.ok m, ⟨u, warnings⟩) ∧
          u.tree.below trialOutput.parts = es := by
  obtain ⟨_, hr⟩ := run_trial k n p s
  rw [hr]
  rcases (trialBuild k n p s.files).run.run ⟨s.files.blank, s.warnings⟩ with ⟨f | m, ⟨u, warnings⟩⟩
  · constructor
    · intro h
      cases h
    · rintro ⟨_, _, _, h, -⟩
      cases h
  · constructor
    · intro h
      cases h
      exact ⟨m, warnings, u, rfl, rfl⟩
    · rintro ⟨_, _, _, h, rfl⟩
      cases h
      rfl

/-- The outcome of two trials: that of the first, if the second agrees with it. -/
def agreed (first second : Except Failure (List (Place × Entry))) :
    Except Failure (List (Place × Entry)) := do
  let es ← first
  let es' ← second
  if digests es ≠ digests es' then .error .indeterminate else .ok es

theorem agreed_self (r : Except Failure (List (Place × Entry))) : agreed r r = r := by
  cases r with
  | error f => rfl
  | ok es => exact if_neg (not_not_intro rfl)

theorem agreed_eq_ok_iff {first second : Except Failure (List (Place × Entry))}
    {es : List (Place × Entry)} : agreed first second = .ok es ↔
      first = .ok es ∧ ∃ es', second = .ok es' ∧ digests es = digests es' := by
  constructor
  · intro h
    obtain ⟨es₁, h₁, h⟩ := bind_eq_ok_iff.1 h
    obtain ⟨es', h₂, h⟩ := bind_eq_ok_iff.1 h
    split at h
    · cases h
    · rename_i hd
      cases h
      exact ⟨h₁, es', h₂, not_not.1 hd⟩
  · rintro ⟨rfl, es', rfl, hd⟩
    exact if_neg (not_not_intro hd)

theorem run_trials (k : Toolkit) (p : Path) (s : Session) :
    ∃ warnings, (trials k p).run s =
      (agreed ((trial k 1 p).run s).1 ((trial k 2 p).run s).1, ⟨s.files, warnings⟩) := by
  have hf := files_trial k 1 p s
  rw [trials, run_bind]
  rcases hr : (trial k 1 p).run s with ⟨f | es, w₁, given⟩
  · rw [hr] at hf
    cases hf
    exact ⟨given, rfl⟩
  · rw [hr] at hf
    cases hf
    -- the warnings of the first trial make no difference to the second
    have hs : (⟨s.files, given⟩ : Session).files = s.files := rfl
    have hc := trial_congr (k := k) (n := 2) (p := p) hs
    have hf' := files_trial k 2 p ⟨s.files, given⟩
    dsimp only
    rw [run_bind, ← hc]
    rcases hr' : (trial k 2 p).run ⟨s.files, given⟩ with ⟨f | es', w₂, given'⟩
    · rw [hr'] at hf'
      cases hf'
      exact ⟨given', rfl⟩
    · rw [hr'] at hf'
      cases hf'
      refine ⟨given', ?_⟩
      have ha : agreed (.ok es) (.ok es') =
          if digests es ≠ digests es' then .error .indeterminate else .ok es := rfl
      rw [ha]
      dsimp only
      split <;> rfl

theorem fst_trials (k : Toolkit) (p : Path) (s : Session) :
    ((trials k p).run s).1 = agreed ((trial k 1 p).run s).1 ((trial k 2 p).run s).1 := by
  obtain ⟨_, hr⟩ := run_trials k p s
  rw [hr]

/-- A check fails with its trials and leaves the files alone, or it replaces the output. -/
theorem run_checkedBuild (k : Toolkit) (p output : Path) (s : Session) :
    ∃ warnings,
      (∃ f, ((trials k p).run s).1 = .error f ∧
          (checkedBuild k p output).run s = (.error f, ⟨s.files, warnings⟩)) ∨
        ∃ es, ((trials k p).run s).1 = .ok es ∧
          (checkedBuild k p output).run s =
            (((FileWork.replaceTree output es).run s.files).1.mapError .files,
              ⟨((FileWork.replaceTree output es).run s.files).2, warnings⟩) := by
  obtain ⟨warnings, hr⟩ := run_trials k p s
  rw [checkedBuild, run_bind, hr]
  cases agreed ((trial k 1 p).run s).1 ((trial k 2 p).run s).1 with
  | error f => exact ⟨warnings, .inl ⟨f, rfl, rfl⟩⟩
  | ok es => exact ⟨warnings, .inr ⟨es, rfl, SiteWork.run_onFiles _ _⟩⟩

theorem checkedBuild_eq_ok_iff {s : Session} {w' : Workspace} :
    (∃ warnings, (checkedBuild k p output).run s = (.ok (), ⟨w', warnings⟩)) ↔
      ∃ es, ((trials k p).run s).1 = .ok es ∧
        (FileWork.replaceTree output es).run s.files = (.ok (), w') := by
  obtain ⟨warnings, ⟨f, ht, hr⟩ | ⟨es, ht, hr⟩⟩ := run_checkedBuild k p output s
  · rw [hr, ht]
    constructor
    · rintro ⟨_, h⟩
      cases h
    · rintro ⟨_, h, -⟩
      cases h
  · rw [hr, ht]
    rcases hf : (FileWork.replaceTree output es).run s.files with ⟨e | _, w₁⟩
    · constructor
      · rintro ⟨_, h⟩
        cases h
      · rintro ⟨_, h, hw⟩
        cases h
        rw [hf] at hw
        cases hw
    · constructor
      · rintro ⟨_, h⟩
        cases h
        exact ⟨es, rfl, hf⟩
      · rintro ⟨_, h, hw⟩
        cases h
        rw [hf] at hw
        cases hw
        exact ⟨warnings, rfl⟩

end

/-- Whether the layouts of all pages come out alike in every build that reads these files. -/
def PageSet.IsSteady (set : PageSet) (k : Toolkit) (base : Path) (w : Workspace) : Prop :=
  ∀ page ∈ set.pages, ∀ template, set.templateFor page = some template → ∀ markup,
    w.convertFile k (set.optionsFor page) (base.join (.ofText page.source)) = .ok markup →
      ∀ turn, w.layOut k turn base set page template markup =
        w.layOut k 0 base set page template markup

theorem PageSet.isSteady_plain (set : PageSet) (base : Path) (w : Workspace) :
    set.IsSteady .plain base w :=
  fun _ _ _ _ _ _ _ ↦ rfl

theorem Workspace.renderPage_of_isSteady {k : Toolkit} {base : Path} {set : PageSet} {w : Workspace}
    (h : set.IsSteady k base w) {page : Page} (hp : page ∈ set.pages) (turn : Nat) :
    w.renderPage k turn base set page = w.renderPage k 0 base set page := by
  unfold renderPage
  cases hm : w.convertFile k (set.optionsFor page) (base.join (.ofText page.source)) with
  | error f => rfl
  | ok markup =>
    cases ht : set.templateFor page with
    | none => rfl
    | some t =>
      cases t with
      | nil => rfl
      | cons c cs => simp only [bind, Except.bind, h page hp _ ht markup hm turn]

theorem fst_trial_of_isSteady {k : Toolkit} {p : Path} {s : Session}
    (h : ∀ set, s.files.loadPageSet k p = .ok set → set.IsSteady k p.parent s.files) (turn : Nat) :
    ((trial k turn p).run s).1 = ((trial k 0 p).run s).1 := by
  have hb : ∀ s', (trialBuild k turn p s.files).run.run s' =
      (trialBuild k 0 p s.files).run.run s' := fun s' ↦
    Build.run_run_of_turn fun set hl page hp w ↦
      Workspace.renderPage_of_isSteady (h set hl) hp turn
  obtain ⟨_, h₀⟩ := run_trial k 0 p s
  obtain ⟨_, h₁⟩ := run_trial k turn p s
  rw [h₀, h₁, hb]

theorem fst_trials_of_isSteady {k : Toolkit} {p : Path} {s : Session}
    (h : ∀ set, s.files.loadPageSet k p = .ok set → set.IsSteady k p.parent s.files) :
    ((trials k p).run s).1 = ((trial k 0 p).run s).1 := by
  rw [fst_trials, fst_trial_of_isSteady h 1, fst_trial_of_isSteady h 2, agreed_self]

theorem fst_trials_plain (p : Path) (s : Session) :
    ((trials .plain p).run s).1 = ((trial .plain 0 p).run s).1 :=
  fst_trials_of_isSteady fun set _ ↦ set.isSteady_plain _ _

namespace Command

variable {k : Toolkit} {a : BuildArguments} {s : Session}

theorem run_checked (ha : a.check = true) (s : Session) :
    (runBuild k a).run s =
      (checkedBuild k (.ofText a.pages) (.ofText a.output) >>= fun _ ↦
        pure ("Determinism check passed. Output copied to ".toList ++
          (Path.ofText a.output).display ++ "\n".toList)).run s := by
  simp only [runBuild, ha, if_true]

def afterTrials (a : BuildArguments) (files : Workspace) :
    Except Failure (List (Place × Entry)) → Except Failure Text × Workspace
  | .error f => (.error f, files)
  | .ok es =>
    let (r, w) := (FileWork.replaceTree (.ofText a.output) es).run files
    ((r.mapError .files).map fun _ ↦
      "Determinism check passed. Output copied to ".toList ++ (Path.ofText a.output).display ++
        "\n".toList, w)

theorem runBuild_eq_afterTrials (ha : a.check = true) (s : Session) :
    ∃ warnings, (runBuild k a).run s =
      ((afterTrials a s.files ((trials k (.ofText a.pages)).run s).1).1,
        ⟨(afterTrials a s.files ((trials k (.ofText a.pages)).run s).1).2, warnings⟩) := by
  rw [run_checked ha, run_bind, afterTrials.eq_def]
  obtain ⟨warnings, ⟨f, ht, hr⟩ | ⟨es, ht, hr⟩⟩ :=
    run_checkedBuild k (.ofText a.pages) (.ofText a.output) s
  · rw [hr, ht]
    exact ⟨warnings, rfl⟩
  · rw [hr, ht]
    dsimp only
    rcases (FileWork.replaceTree (.ofText a.output) es).run s.files with ⟨e | _, w⟩
    · exact ⟨warnings, rfl⟩
    · exact ⟨warnings, rfl⟩

theorem fst_runBuild_plain (ha : a.check = true) :
    ((runBuild .plain a).run s).1 =
      (afterTrials a s.files ((trial .plain 0 (.ofText a.pages)).run s).1).1 := by
  obtain ⟨_, h⟩ := runBuild_eq_afterTrials ha s
  rw [h, fst_trials_plain]

theorem files_runBuild_plain (ha : a.check = true) :
    ((runBuild .plain a).run s).2.files =
      (afterTrials a s.files ((trial .plain 0 (.ofText a.pages)).run s).1).2 := by
  obtain ⟨_, h⟩ := runBuild_eq_afterTrials ha s
  rw [h, fst_trials_plain]

end Command

end TreeMarkup
