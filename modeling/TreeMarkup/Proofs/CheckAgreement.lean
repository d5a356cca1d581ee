import TreeMarkup.Proofs.FailedChecks
import TreeMarkup.Proofs.SeparateReading

namespace TreeMarkup

open Workspace

theorem Workspace.not_isBroken_of_ascii (w : Workspace) {t : Text} (h : ∀ c ∈ t, c.toNat < 128) :
    ¬w.IsBroken t := by
  rintro ⟨c, hc, hb⟩
  rw [w.isBroken_ascii c (h c hc)] at hb
  cases hb

theorem FileWork.makeDirectories_append_singleton (name : Text) {d : Path} {v v₁ : Workspace}
    (h : (makeDirectories d).run v = (.ok (), v₁))
    (hs : (name.all fun c ↦ decide (c.toNat < 128 ∧ c ≠ '\x00')) = true)
    (hl : name.utf8Length ≤ nameLimit) (hu : name ≠ Path.up) (hf : (d.join ⟨0, [name]⟩).Fits)
    (hn : v₁.tree.get? (v₁.place d ++ [name]) = none) :
    (makeDirectories (d.join ⟨0, [name]⟩)).run v =
      (.ok (), v₁.put (v₁.place d ++ [name]) .directory) := by
  have ha : ∀ c ∈ name, c.toNat < 128 ∧ c ≠ '\x00' := fun c hc ↦
    of_decide_eq_true (List.all_eq_true.1 hs c hc)
  have hd := isDirectory_of_makeDirectories h
  have hp : (d.join ⟨0, [name]⟩).parts ≠ [] := by simp [Path.join]
  have hj : v₁.place (d.join ⟨0, [name]⟩) = v₁.place d ++ [name] :=
    place_join rfl fun hm ↦ hu (List.mem_singleton.1 hm).symm
  have hus : v₁.IsUsable ⟨0, [name]⟩ := by
    intro n hm
    rw [List.mem_singleton.1 hm]
    exact ⟨v₁.not_isBroken_of_ascii fun c hc ↦ (ha c hc).1, fun hz ↦ (ha _ hz).2 rfl⟩
  have hw : v₁.tree.walk (v₁.place d) [name] = .ok (v₁.place d ++ [name]) := by
    rw [Tree.walk, (isDirectory_iff.1 hd).2]
    dsimp only
    rw [if_neg (Nat.not_lt.2 hl), Tree.step, if_neg hu]
    rfl
  refine (makeDirectories_iff_parent hp).2 ⟨v₁, ?_, ?_⟩
  · have hd : (d.join ⟨0, [] ++ [name]⟩).parent = d.join ⟨0, []⟩ :=
      Path.parent_join_append_singleton d [] name
    rw [List.nil_append] at hd
    rw [hd, Path.join_nil]
    exact h
  · refine ensureDirectory_eq_ok_iff.2 (.inr (makeDirectory_eq_ok_iff.2 ?_))
    rw [hj]
    exact ⟨(resolve_join_iff hd).2 ⟨hus, hf, hw⟩, hn, rfl⟩

variable {k : Toolkit} {p output : Path} {set : PageSet} {s : Session} {w w' : Workspace}

theorem isFree_trialOutput (w : Workspace) : w.blank.IsFree trialOutput :=
  of_decide_eq_true rfl

theorem exists_makeDirectories_trialOutput (w : Workspace) :
    ∃ u, (FileWork.makeDirectories trialOutput).run w.blank = (.ok (), u) := by
  have h₀ : (FileWork.makeDirectories ⟨1, []⟩).run w.blank = (.ok (), w.blank) :=
    FileWork.makeDirectories_of_isDirectory (isDirectory_iff.2
      ⟨resolve_eq_ok_iff.2 ⟨fun name hm ↦ (List.not_mem_nil hm).elim, by decide, rfl⟩, rfl⟩)
  have h₁ := FileWork.makeDirectories_append_singleton "tmp" h₀ (by decide) (by decide)
    (by decide) (by decide) rfl
  have h₂ := FileWork.makeDirectories_append_singleton "tmpxxxxxxxx" h₁ (by decide)
    (by decide) (by decide) (by decide) rfl
  have h₃ := FileWork.makeDirectories_append_singleton "run1" h₂ (by decide) (by decide)
    (by decide) (by decide) rfl
  exact ⟨_, h₃⟩

section

variable {writes : List (Page × Text)} {v u : Workspace}

theorem trial_eq_ok_iff_texts (hl : s.files.loadPageSet k p = .ok set)
    {es : List (Place × Entry)} :
    ((trial k 0 p).run s).1 = .ok es ↔
      ∃ writes u, Build.IsRendering k p.parent set s.files writes ∧
        (∀ x ∈ Build.texts writes, x.1 ≠ [] ∧ Path.up ∉ x.1) ∧
        (FileWork.writeTexts trialOutput (Build.texts writes)).run s.files.blank = (.ok (), u) ∧
        u.tree.below trialOutput.parts = es := by
  have h : ∀ u, (∃ n warnings, (trialBuild k 0 p s.files).run.run ⟨s.files.blank, s.warnings⟩ =
      (.ok n, ⟨u, warnings⟩)) ↔ _ := fun u ↦
    Build.run_eq_ok_iff_of_readsAs hl (Build.outputPath_of_loadPageSet hl)
      (Build.readsAs_trialBuild k p s.files s.files.blank)
  rw [trial_eq_ok_iff]
  constructor
  · rintro ⟨n, warnings, u, hb, hu⟩
    obtain ⟨writes, hr, hn, ht⟩ := (h u).1 ⟨n, warnings, hb⟩
    exact ⟨writes, u, hr, hn, ht, hu⟩
  · rintro ⟨writes, u, hr, hn, ht, hu⟩
    obtain ⟨n, warnings, hb⟩ := (h u).2 ⟨writes, hr, hn, ht⟩
    exact ⟨n, warnings, u, hb, hu⟩

theorem exists_output_of_mem_texts (hl : v.loadPageSet k p = .ok set)
    (hp : writes.map Prod.fst = set.pages) :
    ∀ x ∈ Build.texts writes, ∃ r ∈ set.outputs, ∀ d : Path, d.join ⟨0, x.1⟩ = d.join r := by
  intro x hx
  rcases List.mem_append.1 hx with hx | hx
  · obtain ⟨y, hy, rfl⟩ := List.mem_map.1 hx
    have hm : y.1 ∈ set.pages := hp ▸ List.mem_map_of_mem hy
    refine ⟨.ofText y.1.outputPath, List.mem_cons_of_mem _ (List.mem_map_of_mem hm), fun d ↦ ?_⟩
    exact (Path.join_eq (Build.outputPath_of_loadPageSet hl _ hm).1).symm
  · rw [List.mem_singleton.1 hx, ← Build.parts_manifest]
    exact ⟨_, List.mem_cons_self, fun d ↦ (Path.join_eq Build.slashes_manifest).symm⟩

/-- Nothing that is looked for is inside the output directory or reached through one that is still
missing on the way to it, and no path is too long that a trial writes to. -/
structure PageSet.IsSeparate (set : PageSet) (k : Toolkit) (pagesFile output : Path) (w : Workspace) :
    Prop where
  isOutside : ∀ i ∈ w.inputs k set pagesFile, ∀ q ∈ w.waypoints i, w.IsOutside output q
  fits : ∀ r ∈ set.outputs, (trialOutput.join r).Fits

instance (set : PageSet) (k : Toolkit) (pagesFile output : Path) (w : Workspace) :
    Decidable (set.IsSeparate k pagesFile output w) :=
  decidable_of_iff ((∀ i ∈ w.inputs k set pagesFile, ∀ q ∈ w.waypoints i, w.IsOutside output q) ∧
      ∀ r ∈ set.outputs, (trialOutput.join r).Fits)
    ⟨fun h ↦ ⟨h.1, h.2⟩, fun h ↦ ⟨h.isOutside, h.fits⟩⟩

theorem PageSet.IsSeparate.fits_of_mem_texts (h : set.IsSeparate k p output w)
    (hl : v.loadPageSet k p = .ok set) (hp : writes.map Prod.fst = set.pages) :
    ∀ x ∈ Build.texts writes, (trialOutput.join ⟨0, x.1⟩).Fits := by
  intro x hx
  obtain ⟨r, hr, hj⟩ := exists_output_of_mem_texts hl hp x hx
  rw [hj]
  exact h.fits r hr

theorem build_eq_ok_iff_texts (hk : k.IsLocal) (hs : w.IsSound) (hl : w.loadPageSet k p = .ok set)
    (hsep : set.IsSeparate k p output w) (given : List Text) :
    (∃ n warnings, (Build.run ⟨k, 0, p, output, id⟩).run ⟨w, given⟩ = (.ok n, ⟨w', warnings⟩)) ↔
      ∃ writes, Build.IsRendering k p.parent set w writes ∧
        (∀ x ∈ Build.texts writes, x.1 ≠ [] ∧ Path.up ∉ x.1) ∧
        (FileWork.writeTexts output (Build.texts writes)).run w = (.ok (), w') := by
  have ho := Build.outputPath_of_loadPageSet hl
  have hr := Build.readsAs_of_isOutside hk (isDirectory_here hs.get?_current) ho hsep.isOutside
  exact Build.run_eq_ok_iff_of_readsAs (b := ⟨k, 0, p, output, id⟩) (s := ⟨w, given⟩) hl ho hr

theorem place_trialOutput_of_writeTexts {xs : List (Place × Text)}
    (h : (FileWork.writeTexts trialOutput xs).run w.blank = (.ok (), u)) :
    u.place trialOutput = trialOutput.parts := by
  rw [← place_trialOutput w]
  exact place_congr (FileWork.standpoint_writeTexts h) _

/-- What a trial writes can as well be written to the output by a plain build, if it can be put there
at all. -/
theorem exists_build_of_placed (hk : k.IsLocal) (hs : w.IsSound) (hl : w.loadPageSet k p = .ok set)
    (hsep : set.IsSeparate k p output w) (hr : Build.IsRendering k p.parent set w writes)
    (hn : ∀ x ∈ Build.texts writes, x.1 ≠ [] ∧ Path.up ∉ x.1) (hb : w.isBroken = v.isBroken)
    (ht : (FileWork.writeTexts trialOutput (Build.texts writes)).run v.blank = (.ok (), u))
    (hp : (FileWork.placeTree output (u.tree.below trialOutput.parts)).run w = (.ok (), w'))
    (given : List Text) :
    ∃ n warnings w₁, (Build.run ⟨k, 0, p, output, id⟩).run ⟨w, given⟩ = (.ok n, ⟨w₁, warnings⟩) ∧
      ∀ q, w'.fileAt q = w₁.fileAt q := by
  have hne : Build.texts writes ≠ [] := by simp [Build.texts]
  have hu : u.tree.IsDistinct := FileWork.isDistinct_writeTexts ht List.nodup_nil
  rw [← place_trialOutput_of_writeTexts ht] at hp
  obtain ⟨w₁, hw, hq⟩ :=
    exists_written_of_placed (v := v.blank) hb hs (isFree_trialOutput v) hne hn ht hu hp
  obtain ⟨n, warnings, hb⟩ := (build_eq_ok_iff_texts hk hs hl hsep given).2 ⟨writes, hr, hn, hw⟩
  exact ⟨n, warnings, w₁, hb, hq⟩

end

theorem fst_trials_of_loadPageSet (hl : s.files.loadPageSet k p = .ok set)
    (hst : set.IsSteady k p.parent s.files) :
    ((trials k p).run s).1 = ((trial k 0 p).run s).1 := by
  refine fst_trials_of_isSteady fun set' hl' ↦ ?_
  rw [hl] at hl'
  cases hl'
  exact hst

/-- A build that writes to the output for the first time can be checked, with the same outcome. -/
theorem exists_check_of_build (hk : k.IsLocal) (hl : s.files.loadPageSet k p = .ok set)
    (hst : set.IsSteady k p.parent s.files) (hsep : set.IsSeparate k p output s.files)
    (hf : s.files.IsFree output)
    (hb : ∃ n warnings, (Build.run ⟨k, 0, p, output, id⟩).run s = (.ok n, ⟨w, warnings⟩)) :
    ∃ w' warnings, (checkedBuild k p output).run s = (.ok (), ⟨w', warnings⟩) ∧
      ∀ q, w'.fileAt q = w.fileAt q := by
  obtain ⟨writes, hr, hn, ht⟩ := (build_eq_ok_iff_texts hk hf.isSound hl hsep s.warnings).1 hb
  have hfits := hsep.fits_of_mem_texts hl hr.pages
  have hx : ∀ x ∈ Build.texts writes,
      x.1 ≠ [] ∧ Path.up ∉ x.1 ∧ (trialOutput.join ⟨0, x.1⟩).Fits :=
    fun x hm ↦ ⟨(hn x hm).1, (hn x hm).2, hfits x hm⟩
  have hne : Build.texts writes ≠ [] := by simp [Build.texts]
  obtain ⟨u₀, hm⟩ := exists_makeDirectories_trialOutput s.files
  have hb : s.files.isBroken = s.files.blank.isBroken := rfl
  obtain ⟨u, w', hu, hp, hw⟩ := exists_placed_of_written hb hf (isFree_trialOutput s.files)
    List.nodup_nil hm hne hx ht
  rw [place_trialOutput_of_writeTexts hu,
    ← FileWork.replaceTree_eq_ok_iff_of_none hf.get?_place] at hp
  have hes : ((trials k p).run s).1 = .ok (u.tree.below trialOutput.parts) := by
    rw [fst_trials_of_loadPageSet hl hst]
    exact (trial_eq_ok_iff_texts hl).2 ⟨writes, u, hr, hn, hu, rfl⟩
  obtain ⟨warnings, hc⟩ := checkedBuild_eq_ok_iff.2 ⟨_, hes, hp⟩
  exact ⟨w', warnings, hc, hw⟩

theorem exists_texts_of_check (hl : s.files.loadPageSet k p = .ok set)
    (hst : set.IsSteady k p.parent s.files)
    (hc : ∃ warnings, (checkedBuild k p output).run s = (.ok (), ⟨w', warnings⟩)) :
    ∃ writes u, Build.IsRendering k p.parent set s.files writes ∧
      (∀ x ∈ Build.texts writes, x.1 ≠ [] ∧ Path.up ∉ x.1) ∧
      (FileWork.writeTexts trialOutput (Build.texts writes)).run s.files.blank = (.ok (), u) ∧
      (FileWork.replaceTree output (u.tree.below trialOutput.parts)).run s.files = (.ok (), w') := by
  obtain ⟨es, ht, hp⟩ := checkedBuild_eq_ok_iff.1 hc
  rw [fst_trials_of_loadPageSet hl hst] at ht
  obtain ⟨writes, u, hr, hn, hu, rfl⟩ := (trial_eq_ok_iff_texts hl).1 ht
  exact ⟨writes, u, hr, hn, hu, hp⟩

theorem exists_build_of_check (hk : k.IsLocal) (hs : s.files.IsSound)
    (hl : s.files.loadPageSet k p = .ok set) (hst : set.IsSteady k p.parent s.files)
    (hsep : set.IsSeparate k p output s.files)
    (hg : s.files.tree.get? (s.files.place output) = none)
    (hc : ∃ warnings, (checkedBuild k p output).run s = (.ok (), ⟨w', warnings⟩)) :
    ∃ n warnings w, (Build.run ⟨k, 0, p, output, id⟩).run s = (.ok n, ⟨w, warnings⟩) ∧
      ∀ q, w'.fileAt q = w.fileAt q := by
  obtain ⟨writes, u, hr, hn, hu, hp⟩ := exists_texts_of_check hl hst hc
  rw [FileWork.replaceTree_eq_ok_iff_of_none hg] at hp
  exact exists_build_of_placed hk hs hl hsep hr hn rfl hu hp s.warnings

namespace PageSet.IsSeparate

variable (h : set.IsSeparate k p output w)
include h

theorem read_without (hn : w.place output ≠ []) {i : Path} (hi : i ∈ w.inputs k set p) :
    (w.without output).read i = w.read i := by
  have hc : (w.without output).toStandpoint = w.toStandpoint := rfl
  refine read_congr hc fun q hq ↦ ?_
  rw [get?_without hn, if_neg (h.isOutside i hi q hq).1]

theorem inputs_without (hk : k.IsLocal) (hn : w.place output ≠ []) :
    (w.without output).inputs k set p = w.inputs k set p := by
  refine congrArg (p :: ·) (List.flatMap_congr fun page hm ↦ ?_)
  refine pageInputs_congr hk fun i hi ↦ h.read_without hn (List.mem_cons_of_mem _ ?_)
  exact List.mem_flatMap.2 ⟨page, hm, hi⟩

theorem without (hk : k.IsLocal) (hn : w.place output ≠ []) :
    set.IsSeparate k p output (w.without output) := by
  refine ⟨fun i hi q hq ↦ ?_, h.fits⟩
  rw [h.inputs_without hk hn] at hi
  obtain ⟨hp, hg⟩ := h.isOutside i hi q hq
  refine ⟨hp, fun hm ↦ ?_⟩
  rw [get?_without hn, if_neg hp]
  exact hg hm

end PageSet.IsSeparate

theorem exists_build_without_of_check (hk : k.IsLocal) (hs : s.files.IsSound)
    (hl : s.files.loadPageSet k p = .ok set) (hst : set.IsSteady k p.parent s.files)
    (hsep : set.IsSeparate k p output s.files)
    (hd : s.files.isDirectory output = true) (hcur : ¬s.files.place output <+: s.files.current)
    (hc : ∃ warnings, (checkedBuild k p output).run s = (.ok (), ⟨w', warnings⟩)) :
    ∃ n warnings w, (Build.run ⟨k, 0, p, output, id⟩).run ⟨s.files.without output, s.warnings⟩ =
        (.ok n, ⟨w, warnings⟩) ∧
      ∀ q, w'.fileAt q = w.fileAt q := by
  have hne : s.files.place output ≠ [] := fun h ↦ hcur (h ▸ List.nil_prefix)
  obtain ⟨writes, u, hr, hn, hu, hp⟩ := exists_texts_of_check hl hst hc
  -- nothing that is read was in the directory that is gone
  have hl' : (s.files.without output).loadPageSet k p = .ok set := by
    rw [loadPageSet_congr (hsep.read_without hne List.mem_cons_self), hl]
  have hr' : Build.IsRendering k p.parent set (s.files.without output) writes := by
    refine ⟨hr.pages, fun x hx ↦ ?_⟩
    rw [← hr.renderPage x hx]
    refine renderPage_congr hk fun i hi ↦ hsep.read_without hne (List.mem_cons_of_mem _ ?_)
    exact List.mem_flatMap.2 ⟨x.1, hr.pages ▸ List.mem_map_of_mem hx, hi⟩
  exact exists_build_of_placed hk (hs.without hcur) hl' (hsep.without hk hne) hr' hn rfl hu
    (FileWork.replaceTree_of_isDirectory hd hp) s.warnings

namespace Command

/-- What a build leaves at every place, if it succeeds. -/
def outcome (k : Toolkit) (a : BuildArguments) (s : Session) :
    Option (Place → Option FileContent) :=
  match (runBuild k a).run s with
  | (.ok _, s') => some s'.files.fileAt
  | (.error _, _) => none

variable {pages output : Text} {k : Toolkit} {s : Session}

theorem outcome_plain_eq_some {files : Place → Option FileContent} :
    outcome k ⟨pages, output, false⟩ s = some files ↔
      ∃ n warnings w,
        (Build.run ⟨k, 0, .ofText pages, .ofText output, id⟩).run s = (.ok n, ⟨w, warnings⟩) ∧
          w.fileAt = files := by
  have h : (runBuild k ⟨pages, output, false⟩).run s =
      (Build.run ⟨k, 0, .ofText pages, .ofText output, id⟩ >>= fun count ↦
        pure ("Built ".toList ++ Text.ofNat count ++ " page(s) into ".toList ++
          (Path.ofText output).display ++ "\n".toList)).run s := rfl
  rw [outcome, h, run_bind]
  rcases (Build.run ⟨k, 0, .ofText pages, .ofText output, id⟩).run s with ⟨f | n, w, warnings⟩
  · constructor
    · intro h
      cases h
    · rintro ⟨_, _, _, h, -⟩
      cases h
  · constructor
    · intro h
      cases h
      exact ⟨n, warnings, w, rfl, rfl⟩
    · rintro ⟨_, _, _, h, rfl⟩
      cases h
      rfl

theorem outcome_check_eq_some {files : Place → Option FileContent} :
    outcome k ⟨pages, output, true⟩ s = some files ↔
      ∃ warnings w,
        (checkedBuild k (.ofText pages) (.ofText output)).run s = (.ok (), ⟨w, warnings⟩) ∧
          w.fileAt = files := by
  rw [outcome, run_checked rfl, run_bind]
  rcases (checkedBuild k (.ofText pages) (.ofText output)).run s with ⟨f | _, w, warnings⟩
  · constructor
    · intro h
      cases h
    · rintro ⟨_, _, h, -⟩
      cases h
  · constructor
    · intro h
      cases h
      exact ⟨warnings, w, rfl, rfl⟩
    · rintro ⟨_, _, h, rfl⟩
      cases h
      rfl

theorem outcome_eq_afterTrials {a : BuildArguments} (ha : a.check = true) :
    outcome k a s =
      match afterTrials a s.files ((trials k (.ofText a.pages)).run s).1 with
      | (.ok _, w) => some w.fileAt
      | (.error _, _) => none := by
  obtain ⟨_, h⟩ := runBuild_eq_afterTrials (k := k) ha s
  rw [outcome, h]
  rcases afterTrials a s.files ((trials k (.ofText a.pages)).run s).1 with ⟨_ | _, w⟩
  · rfl
  · rfl

theorem outcome_eq_none {a : BuildArguments} (ha : a.check = true)
    (h : (afterTrials a s.files ((trial k 0 (.ofText a.pages)).run s).1).1.isOk = false)
    (ht : ((trials k (.ofText a.pages)).run s).1 = ((trial k 0 (.ofText a.pages)).run s).1) :
    outcome k a s = none := by
  rw [outcome_eq_afterTrials ha, ht]
  rcases hr : afterTrials a s.files ((trial k 0 (.ofText a.pages)).run s).1 with ⟨_ | _, w⟩
  · rfl
  · rw [hr] at h
    cases h

theorem exists_pageSet_of_outcome {check : Bool} {files : Place → Option FileContent}
    (h : outcome k ⟨pages, output, check⟩ s = some files) :
    ∃ set, s.files.loadPageSet k (.ofText pages) = .ok set := by
  cases check with
  | false =>
    obtain ⟨n, warnings, w, hb, -⟩ := outcome_plain_eq_some.1 h
    obtain ⟨set, -, -, hl, -⟩ := Build.run_eq_ok _ hb
    exact ⟨set, hl⟩
  | true =>
    obtain ⟨warnings, w, hc, -⟩ := outcome_check_eq_some.1 h
    obtain ⟨set, -, -, -, hl, -⟩ := exists_trial_of_checkedBuild hc
    exact ⟨set, hl⟩

/-- If the layouts come out alike every time: where there is no output yet, a check and a plain build
succeed together and leave the same files, and where there is one, a check that succeeds leaves what
a plain build leaves without it. -/
theorem check_agrees_with_build (hk : k.IsLocal) (hs : s.files.IsSound)
    (hst : ∀ set, s.files.loadPageSet k (.ofText pages) = .ok set →
      set.IsSteady k (Path.ofText pages).parent s.files)
    (hsep : ∀ set, s.files.loadPageSet k (.ofText pages) = .ok set →
      set.IsSeparate k (.ofText pages) (.ofText output) s.files) :
    (s.files.IsFree (.ofText output) →
      outcome k ⟨pages, output, true⟩ s = outcome k ⟨pages, output, false⟩ s) ∧
    (s.files.isDirectory (.ofText output) = true →
      ¬s.files.place (.ofText output) <+: s.files.current →
      ∀ files, outcome k ⟨pages, output, true⟩ s = some files →
        outcome k ⟨pages, output, false⟩ ⟨s.files.without (.ofText output), s.warnings⟩ =
          some files) := by
  constructor
  · intro hf
    refine Option.ext fun files ↦ ⟨fun h ↦ ?_, fun h ↦ ?_⟩
    · obtain ⟨set, hl⟩ := exists_pageSet_of_outcome h
      obtain ⟨warnings, w', hc, rfl⟩ := outcome_check_eq_some.1 h
      obtain ⟨n, given, w, hb, hw⟩ :=
        exists_build_of_check hk hs hl (hst set hl) (hsep set hl) hf.get?_place ⟨warnings, hc⟩
      exact outcome_plain_eq_some.2 ⟨n, given, w, hb, (funext hw).symm⟩
    · obtain ⟨set, hl⟩ := exists_pageSet_of_outcome h
      obtain ⟨n, warnings, w, hb, rfl⟩ := outcome_plain_eq_some.1 h
      obtain ⟨w', given, hc, hw⟩ :=
        exists_check_of_build hk hl (hst set hl) (hsep set hl) hf ⟨n, warnings, hb⟩
      exact outcome_check_eq_some.2 ⟨given, w', hc, funext hw⟩
  · intro hd hcur files h
    obtain ⟨set, hl⟩ := exists_pageSet_of_outcome h
    obtain ⟨warnings, w', hc, rfl⟩ := outcome_check_eq_some.1 h
    obtain ⟨n, given, w, hb, hw⟩ :=
      exists_build_without_of_check hk hs hl (hst set hl) (hsep set hl) hd hcur ⟨warnings, hc⟩
    exact outcome_plain_eq_some.2 ⟨n, given, w, hb, (funext hw).symm⟩

def staleOutput : Session :=
  let stale : List (Place × Entry) :=
    [(["build"], .directory), (["build", "stale.html"], .file (.text "old"))]
  ⟨{ tree := ⟨onePage.files.tree.entries ++ stale⟩ }, []⟩

theorem isSeparate_of_satisfies {w : Workspace} {p output : Path}
    (h : pageSetSatisfies w .plain p (fun set ↦ decide (set.IsSeparate .plain p output w)) = true) :
    ∀ set, w.loadPageSet .plain p = .ok set → set.IsSeparate .plain p output w := by
  obtain ⟨set, hl, hd⟩ := exists_of_pageSetSatisfies h
  intro set' hl'
  rw [hl] at hl'
  cases hl'
  exact of_decide_eq_true hd

theorem run_staleOutput :
    (outcome .plain ⟨"pages.yaml", "build", true⟩ onePage).isSome = true ∧
      (outcome .plain ⟨"pages.yaml", "build", true⟩ staleOutput).any
        (fun files ↦ (files ["build", "stale.html"]).isNone) = true := by
  rw [outcome_eq_afterTrials rfl, outcome_eq_afterTrials rfl, fst_trials_plain, fst_trials_plain]
  decide +kernel

theorem check_agrees_with_build_staleOutput :
    (∃ files, outcome .plain ⟨"pages.yaml", "build", true⟩ onePage = some files ∧
      outcome .plain ⟨"pages.yaml", "build", false⟩ onePage = some files) ∧
    ∃ files, outcome .plain ⟨"pages.yaml", "build", true⟩ staleOutput = some files ∧
      outcome .plain ⟨"pages.yaml", "build", false⟩
        ⟨staleOutput.files.without (.ofText "build"), []⟩ = some files ∧
      files ["build", "stale.html"] = none := by
  have hs₁ : onePage.files.IsSound := by decide +kernel
  have hs₂ : staleOutput.files.IsSound := by decide +kernel
  have h₁ := @check_agrees_with_build "pages.yaml" "build" .plain onePage Toolkit.isLocal_plain hs₁
    (fun set _ ↦ set.isSteady_plain _ _) (isSeparate_of_satisfies (by decide +kernel))
  have h₂ := @check_agrees_with_build "pages.yaml" "build" .plain staleOutput Toolkit.isLocal_plain
    hs₂ (fun set _ ↦ set.isSteady_plain _ _) (isSeparate_of_satisfies (by decide +kernel))
  obtain ⟨hr₁, hr₂⟩ := run_staleOutput
  constructor
  · obtain ⟨files, hf⟩ := Option.isSome_iff_exists.1 hr₁
    have hs := h₁.1 (by decide +kernel)
    exact ⟨files, hf, hs.symm.trans hf⟩
  · obtain ⟨files, hf, hn⟩ := (Option.any_eq_true _ _).1 hr₂
    refine ⟨files, hf, ?_, Option.isNone_iff_eq_none.1 hn⟩
    exact h₂.2 (by decide +kernel) (by decide +kernel) files hf

def StartsApart (k : Toolkit) (a : BuildArguments) (s : Session) : Prop :=
  s.files.tree.get? (s.files.place (.ofText a.output)) = none ∧
    ∃ set, s.files.loadPageSet k (.ofText a.pages) = .ok set ∧
      ∀ i ∈ s.files.inputs k set (.ofText a.pages),
        s.files.place (.ofText a.output) ∉ s.files.waypoints i

theorem startsApart_of_satisfies {a : BuildArguments}
    (h : (s.files.tree.get? (s.files.place (.ofText a.output))).isNone = true ∧
      pageSetSatisfies s.files k (.ofText a.pages) (fun set ↦
        decide (∀ i ∈ s.files.inputs k set (.ofText a.pages),
          s.files.place (.ofText a.output) ∉ s.files.waypoints i)) = true) :
    StartsApart k a s := by
  obtain ⟨set, hl, hd⟩ := exists_of_pageSetSatisfies h.2
  exact ⟨Option.isNone_iff_eq_none.1 h.1, set, hl, of_decide_eq_true hd⟩

def throughMissing : Session :=
  let page (key source : Text) : Value :=
    .map [(.text "key", .text key), (.text "source", .text source)]
  ⟨{ tree :=
      ⟨[(["pages.yaml"], .file (.document (.list [page "a" "a.yaml", page "b" "x/../b.yaml"]))),
        (["a.yaml"], .file (.document (.list [.text "one"]))),
        (["b.yaml"], .file (.document (.list [.text "two"])))]⟩ }, []⟩

def longOutput : Session :=
  let name : Text := List.replicate 62 '𝄞' ++ "/"
  let output : Text := (List.replicate 16 name).flatten ++ List.replicate 23 '𝄞'
  let page : Value :=
    .map [(.text "key", .text "a"), (.text "source", .text "a.yaml"), (.text "output", .text output)]
  ⟨{ tree :=
      ⟨[(["pages.yaml"], .file (.document (.list [page]))),
        (["a.yaml"], .file (.document (.list [.text "hi"])))]⟩ }, []⟩

def withLayout : Session :=
  let page : Value :=
    .map [(.text "key", .text "a"), (.text "source", .text "a.yaml"),
      (.text "template", .text "l.html")]
  ⟨{ tree :=
      ⟨[(["pages.yaml"], .file (.document (.list [page]))),
        (["a.yaml"], .file (.document (.list [.text "hi"]))),
        (["l.html"], .file (.text "turn"))]⟩ }, []⟩

def turningToolkit : Toolkit where
  parse := FileContent.parse
  fill turn _ base name _ := ⟨.ok (Text.ofNat turn), [base.join (.ofText name)]⟩
  indent t := some (Markup.pretty t)

/-- A plain build succeeds where a check fails: where it makes a directory that a source is read
through, where it makes the output on the way to it, where a path is just short enough, and where a
layout comes out differently each time. -/
theorem check_fails_without_build :
    (StartsApart .plain ⟨"pages.yaml", "x/z", true⟩ throughMissing ∧
      outcome .plain ⟨"pages.yaml", "x/z", true⟩ throughMissing = none ∧
      outcome .plain ⟨"pages.yaml", "x/z", false⟩ throughMissing ≠ none) ∧
    (StartsApart .plain ⟨"pages.yaml", "x/y/..", true⟩ onePage ∧
      outcome .plain ⟨"pages.yaml", "x/y/..", true⟩ onePage = none ∧
      outcome .plain ⟨"pages.yaml", "x/y/..", false⟩ onePage ≠ none) ∧
    (StartsApart .plain ⟨"pages.yaml", "b", true⟩ longOutput ∧
      outcome .plain ⟨"pages.yaml", "b", true⟩ longOutput = none ∧
      outcome .plain ⟨"pages.yaml", "b", false⟩ longOutput ≠ none) ∧
    turningToolkit.IsLocal ∧ StartsApart turningToolkit ⟨"pages.yaml", "b", true⟩ withLayout ∧
      outcome turningToolkit ⟨"pages.yaml", "b", true⟩ withLayout = none ∧
      outcome turningToolkit ⟨"pages.yaml", "b", false⟩ withLayout ≠ none := by
  have h : ∀ {output s},
      (afterTrials ⟨"pages.yaml", output, true⟩ s.files
          ((trial .plain 0 (.ofText "pages.yaml")).run s).1).1.isOk = false ∧
        (outcome .plain ⟨"pages.yaml", output, false⟩ s).isSome = true →
      outcome .plain ⟨"pages.yaml", output, true⟩ s = none ∧
        outcome .plain ⟨"pages.yaml", output, false⟩ s ≠ none :=
    fun h ↦ ⟨outcome_eq_none rfl h.1 (fst_trials_plain _ _), Option.isSome_iff_ne_none.1 h.2⟩
  refine ⟨⟨startsApart_of_satisfies ?_, h ?_⟩, ⟨startsApart_of_satisfies ?_, h ?_⟩,
    ⟨startsApart_of_satisfies ?_, h ?_⟩, fun _ _ _ _ _ _ _ ↦ rfl,
    startsApart_of_satisfies ?_, ?_⟩
  rotate_right
  · have hn : (outcome turningToolkit ⟨"pages.yaml", "b", true⟩ withLayout).isNone = true ∧
        (outcome turningToolkit ⟨"pages.yaml", "b", false⟩ withLayout).isSome = true := by
      decide +kernel
    exact ⟨Option.isNone_iff_eq_none.1 hn.1, Option.isSome_iff_ne_none.1 hn.2⟩
  all_goals decide +kernel

end Command

end TreeMarkup
