import TreeMarkup.Proofs.BuildInputs
import TreeMarkup.Proofs.ManifestIntegrity
import TreeMarkup.Proofs.TreePlacement

namespace TreeMarkup

def PageSet.outputs (set : PageSet) : List Path :=
  .ofText "manifest.json" :: set.pages.map fun page ↦ .ofText page.outputPath

theorem PageSet.stays_of_mem_outputs {set : PageSet} {w : Workspace} {k : Toolkit} {p : Path}
    (hl : w.loadPageSet k p = .ok set) : ∀ r ∈ set.outputs, r.slashes = 0 ∧ Path.up ∉ r.parts := by
  rw [outputs, List.forall_mem_cons]
  refine ⟨⟨Build.slashes_manifest, by decide⟩, ?_⟩
  rw [List.forall_mem_map]
  exact Build.outputPath_of_loadPageSet hl

namespace Build

variable {b : Build} {set : PageSet} {w w₁ w' : Workspace} {writes : List (Page × Text)} {q : Place}

/-- A build changes the files that it writes to and no others. -/
theorem fileAt_of_not_output (h : b.Writes set w writes w₁) (hp : writes.map Prod.fst = set.pages)
    {t : Text} (hm : (FileWork.writeText b.manifestPath t).run w₁ = (.ok (), w'))
    (hq : ∀ r ∈ set.outputs, w.place (b.output.join r) ≠ q) : w'.fileAt q = w.fileAt q := by
  rw [PageSet.outputs, List.forall_mem_cons, List.forall_mem_map, ← hp] at hq
  have hw : w₁.fileAt q = w.fileAt q :=
    h.fileAt_of_not_mem fun x hx ↦ hq.2 x.1 (List.mem_map_of_mem hx)
  rw [← hw]
  refine (FileWork.writesText_of_ok hm).fileAt_of_ne q fun he ↦ hq.1 ?_
  rw [he, h.place]
  rfl

end Build

def PageSet.documents (set : PageSet) (pagesFile : Path) : List Path :=
  pagesFile :: set.pages.map fun page ↦ pagesFile.parent.join (.ofText page.source)

/-- A build reads its page set, and for a page, after those before it are written, whatever it looks
for and finds. -/
def Build.Reads (b : Build) (w : Workspace) (p : Path) (c : FileContent) : Prop :=
  p = b.pagesFile ∧ (b.view w).read p = .ok c ∨
    ∃ set before page rest w₁, b.loadPageSet w = .ok set ∧
      before.map Prod.fst ++ page :: rest = set.pages ∧ b.Writes set w before w₁ ∧
      p ∈ (b.view w₁).pageInputs b.kit b.turn b.base set page ∧ (b.view w₁).read p = .ok c

/-- A check builds for trial twice. -/
def Command.BuildArguments.Reads (a : Command.BuildArguments) (k : Toolkit) (w : Workspace)
    (p : Path) (c : FileContent) : Prop :=
  if a.check then ∃ n ∈ [1, 2], (trialBuild k n (.ofText a.pages) w).Reads w.blank p c
  else (⟨k, 0, .ofText a.pages, .ofText a.output, id⟩ : Build).Reads w p c

namespace Build

variable {b : Build} {set : PageSet} {w w' : Workspace} {writes : List (Page × Text)}

theorem exists_reads (hl : b.loadPageSet w = .ok set) (h : b.Writes set w writes w')
    (hp : writes.map Prod.fst = set.pages) :
    ∀ p ∈ set.documents b.pagesFile, ∃ c, b.Reads w p c := by
  rw [PageSet.documents, List.forall_mem_cons, List.forall_mem_map, ← hp, List.forall_mem_map]
  constructor
  · obtain ⟨c, hc⟩ := Workspace.exists_read_of_loadPageSet hl
    exact ⟨c, .inl ⟨rfl, hc⟩⟩
  · intro x hx
    obtain ⟨before, rest, w₁, rfl, hw, hr⟩ := h.exists_renderPage hx
    obtain ⟨c, hc⟩ := Workspace.exists_read_of_renderPage hr
    refine ⟨c, .inr ⟨set, before, x.1, rest.map Prod.fst, w₁, hl, ?_, hw, List.mem_cons_self, hc⟩⟩
    rw [← hp, List.map_append, List.map_cons]

end Build

section

variable {k : Toolkit} {n : Nat} {p output : Path} {s s' : Session} {set : PageSet}
  {writes : List (Page × Text)} {w w' : Workspace} {i : Path} {c : FileContent}

theorem fileAt_of_reads (hl : w.loadPageSet k p = .ok set)
    (hr : (⟨k, n, p, output, id⟩ : Build).Reads w i c)
    (hq : ∀ r ∈ set.outputs, w.place (output.join r) ≠ w.place i) :
    w.fileAt (w.place i) = some c := by
  rcases hr with ⟨-, hc⟩ | ⟨set', before, page, rest, w₁, hl', hp, hw, -, hc⟩
  · exact (Workspace.read_eq_ok hc).2
  · have hs : set' = set := Except.ok.inj (hl'.symm.trans hl)
    subst hs
    have hr : w₁.read i = .ok c := hc
    rw [← (Workspace.read_eq_ok hr).2, hw.place]
    refine (hw.fileAt_of_not_mem fun x hx ↦ ?_).symm
    refine hq _ (List.mem_cons_of_mem _ (List.mem_map.2 ⟨x.1, ?_, rfl⟩))
    rw [← hp]
    exact List.mem_append_left _ (List.mem_map_of_mem hx)

theorem fileAt_of_trial_reads (hr : (trialBuild k n p w).Reads w.blank i c) :
    w.fileAt (w.place i) = some c := by
  rcases hr with ⟨-, hc⟩ | ⟨_, _, _, _, _, -, -, -, -, hc⟩
  · exact (Workspace.read_eq_ok hc).2
  · exact (Workspace.read_eq_ok hc).2

theorem exists_output_of_get? (hl : s.files.loadPageSet k p = .ok set)
    (hw : (trialBuild k n p s.files).Writes set s.files.blank writes w)
    (hp : writes.map Prod.fst = set.pages) {t : Text}
    (hm : (FileWork.writeText (trialBuild k n p s.files).manifestPath t).run w = (.ok (), w'))
    {r : Place} (hc : w'.tree.get? (trialOutput.parts ++ r) = some (.file c)) :
    ∃ path ∈ set.outputs, path.parts = r := by
  by_contra hn
  have hq : ∀ path ∈ set.outputs,
      s.files.blank.place (trialOutput.join path) ≠ trialOutput.parts ++ r := by
    intro path hpath heq
    obtain ⟨hs, hu⟩ := PageSet.stays_of_mem_outputs hl path hpath
    rw [Workspace.place_join hs hu, place_trialOutput, List.append_cancel_left_eq] at heq
    exact hn ⟨path, hpath, heq⟩
  have hf := Build.fileAt_of_not_output hw hp hm hq
  rw [Workspace.fileAt_eq_some.2 hc, Workspace.fileAt, Tree.get?_of_ne_nil] at hf
  · cases hf
  · exact List.cons_ne_nil _ _

/-- After a check that succeeds, the files are as they were but for those that were written and
those inside the directory that the outcome replaces. -/
theorem fileAt_of_checkedBuild (hs : s.files.IsSound)
    (h : (checkedBuild k p output).run s = (.ok (), s')) :
    ∃ set writes w', s.files.loadPageSet k p = .ok set ∧
      (trialBuild k 1 p s.files).Writes set s.files.blank writes w' ∧
      writes.map Prod.fst = set.pages ∧
      ∀ q, (∀ r ∈ set.outputs, s.files.place (output.join r) ≠ q) →
        s'.files.fileAt q = if s.files.isInside output q then none else s.files.fileAt q := by
  obtain ⟨es, ht, hf⟩ := checkedBuild_eq_ok_iff.1 ⟨s'.warnings, h⟩
  rw [fst_trials] at ht
  obtain ⟨set, writes, w, w', hl, hw, hp, hm, rfl⟩ := exists_of_trial (agreed_eq_ok_iff.1 ht).1
  have hd := isDistinct_of_trial hw hm
  refine ⟨set, writes, w, hl, hw, hp, fun q hq ↦ ?_⟩
  refine FileWork.fileAt_of_replaceTree hs (Tree.nodup_below _ _ hd)
    (fun x hx ↦ (Tree.get?_of_mem_below hd hx).1) hf ?_
  rintro r c hx rfl
  obtain ⟨path, hpath, hr⟩ :=
    exists_output_of_get? hl hw hp hm (Tree.get?_of_mem_below hd hx).2
  refine hq path hpath ?_
  obtain ⟨hz, hu⟩ := PageSet.stays_of_mem_outputs hl path hpath
  rw [Workspace.place_join hz hu, hr]

end

namespace Command

variable {k : Toolkit} {a : BuildArguments} {s : Session} {out : Text}

/-- After a build the files that it has read and not written to are as they were, but for those
that a check finds in the directory which it puts its outcome in place of. -/
theorem kept_inputs_iff (hs : s.files.IsSound) (h : ((runBuild k a).run s).1 = .ok out) :
    ∃ set, s.files.loadPageSet k (.ofText a.pages) = .ok set ∧
      (∀ p ∈ set.documents (.ofText a.pages), ∃ c, a.Reads k s.files p c) ∧
      ∀ p c, a.Reads k s.files p c →
        (∀ r ∈ set.outputs,
          s.files.place ((Path.ofText a.output).join r) ≠ s.files.place p) →
        s.files.fileAt (s.files.place p) = some c ∧
          (((runBuild k a).run s).2.files.fileAt (s.files.place p) = some c ↔
            ¬(a.check = true ∧ s.files.isInside (.ofText a.output) (s.files.place p) = true)) := by
  obtain ⟨pages, output, check⟩ := a
  cases check with
  | false =>
    rcases hr : (runBuild k ⟨pages, output, false⟩).run s with ⟨r, s'⟩
    rw [hr] at h
    cases h
    obtain ⟨n, s₁, hb, he⟩ := run_bind_eq_ok hr
    cases he
    obtain ⟨set, writes, w, hl, hw, hp, hm⟩ := Build.run_eq_ok _ hb
    refine ⟨set, hl, Build.exists_reads hl hw hp, fun p c hi hq ↦ ?_⟩
    have hf := fileAt_of_reads hl hi hq
    refine ⟨hf, iff_of_true ?_ (by simp)⟩
    rw [Build.fileAt_of_not_output hw hp hm hq]
    exact hf
  | true =>
    rcases hr : (runBuild k ⟨pages, output, true⟩).run s with ⟨r, s'⟩
    rw [hr] at h
    cases h
    obtain ⟨_, s₁, hb, he⟩ := run_bind_eq_ok hr
    cases he
    obtain ⟨set, writes, w, hl, hw, hp, hk⟩ := fileAt_of_checkedBuild hs hb
    refine ⟨set, hl, fun p hi ↦ ?_, fun p c hi hq ↦ ?_⟩
    · obtain ⟨c, hc⟩ := Build.exists_reads (b := trialBuild k 1 _ s.files) hl hw hp p hi
      exact ⟨c, 1, by decide, hc⟩
    · obtain ⟨n, -, hi⟩ := hi
      have hf := fileAt_of_trial_reads hi
      refine ⟨hf, ?_⟩
      rw [hk _ hq, hf]
      simp

def documentInSite : Session :=
  let page : Value := .map [(.text "key", .text "a"), (.text "source", .text "site/a.yaml")]
  ⟨{ tree :=
      ⟨[(["pages.yaml"], .file (.document (.list [page]))),
        (["site"], .directory),
        (["site", "a.yaml"], .file (.document (.list [.text "hi"])))]⟩ }, []⟩

def checkIntoSite : BuildArguments := ⟨"pages.yaml", "site", true⟩

theorem run_documentInSite :
    ((runBuild .plain checkIntoSite).run documentInSite).1 =
        .ok "Determinism check passed. Output copied to site\n" ∧
      (((runBuild .plain checkIntoSite).run documentInSite).2.files.fileAt
        ["site", "a.yaml"]).isNone = true := by
  rw [fst_runBuild_plain rfl, files_runBuild_plain rfl]
  decide +kernel

theorem kept_inputs_pagesFile :
    ∃ c, checkIntoSite.Reads .plain documentInSite.files (.ofText "pages.yaml") c ∧
      documentInSite.files.fileAt ["pages.yaml"] = some c ∧
      ((runBuild .plain checkIntoSite).run documentInSite).2.files.fileAt ["pages.yaml"] =
        some c := by
  have hs : documentInSite.files.IsSound := by decide +kernel
  have hp : documentInSite.files.place (.ofText "pages.yaml") = ["pages.yaml".toList] := by
    decide +kernel
  have ho : documentInSite.files.place (.ofText "site") = ["site".toList] := by decide +kernel
  obtain ⟨set, hl, hr, hk⟩ := kept_inputs_iff hs run_documentInSite.1
  obtain ⟨c, hc⟩ := hr (.ofText "pages.yaml") List.mem_cons_self
  obtain ⟨hf, hi⟩ := hk _ c hc <| by
    intro r hr he
    obtain ⟨hz, hu⟩ := PageSet.stays_of_mem_outputs hl r hr
    have ho' : documentInSite.files.place (.ofText checkIntoSite.output) = ["site".toList] := ho
    rw [Workspace.place_join hz hu, hp, ho'] at he
    cases he
  rw [hp] at hf hi
  refine ⟨c, hc, hf, hi.2 ?_⟩
  rintro ⟨-, h⟩
  revert h
  decide +kernel

def pageSetSatisfies (w : Workspace) (k : Toolkit) (p : Path) (f : PageSet → Bool) : Bool :=
  match w.loadPageSet k p with
  | .ok set => f set
  | .error _ => false

theorem exists_of_pageSetSatisfies {w : Workspace} {k : Toolkit} {p : Path} {f : PageSet → Bool}
    (h : pageSetSatisfies w k p f = true) : ∃ set, w.loadPageSet k p = .ok set ∧ f set = true := by
  unfold pageSetSatisfies at h
  split at h
  · exact ⟨_, by assumption, h⟩
  · cases h

/-- Checking into the directory of the documents succeeds, and the document is gone. -/
theorem check_removes_document :
    ((runBuild .plain checkIntoSite).run documentInSite).1 =
        .ok "Determinism check passed. Output copied to site\n" ∧
      (∃ set, documentInSite.files.loadPageSet .plain (.ofText "pages.yaml") = .ok set ∧
        (∃ page ∈ set.pages, page.source = "site/a.yaml".toList) ∧
        ∀ r ∈ set.outputs,
          documentInSite.files.place ((Path.ofText "site").join r) ≠ ["site", "a.yaml"]) ∧
      (∃ c, checkIntoSite.Reads .plain documentInSite.files (.ofText "site/a.yaml") c ∧
        documentInSite.files.fileAt ["site", "a.yaml"] = some c) ∧
      ((runBuild .plain checkIntoSite).run documentInSite).2.files.fileAt
        ["site", "a.yaml"] = none := by
  have h : pageSetSatisfies documentInSite.files .plain (.ofText "pages.yaml") (fun set ↦
        decide ((∃ page ∈ set.pages, page.source = "site/a.yaml".toList) ∧
          .ofText "site/a.yaml" ∈ set.documents (.ofText "pages.yaml") ∧
          ∀ r ∈ set.outputs,
            documentInSite.files.place ((Path.ofText "site").join r) ≠ ["site", "a.yaml"])) =
      true := by
    decide +kernel
  have hs : documentInSite.files.IsSound := by decide +kernel
  have hp : documentInSite.files.place (.ofText "site/a.yaml") =
      ["site".toList, "a.yaml".toList] := by
    decide +kernel
  obtain ⟨set, hl, hd⟩ := exists_of_pageSetSatisfies h
  obtain ⟨hpage, hdoc, ho⟩ := of_decide_eq_true hd
  obtain ⟨hr, hn⟩ := run_documentInSite
  refine ⟨hr, ⟨set, hl, hpage, ho⟩, ?_, Option.isNone_iff_eq_none.1 hn⟩
  obtain ⟨_, hb⟩ : ∃ w, (checkedBuild .plain (.ofText "pages.yaml") (.ofText "site")).run
      documentInSite = (.ok (), w) := by
    rcases hc : (runBuild .plain checkIntoSite).run documentInSite with ⟨r, s'⟩
    rw [hc] at hr
    cases hr
    obtain ⟨_, s₁, hb, -⟩ := run_bind_eq_ok hc
    exact ⟨s₁, hb⟩
  obtain ⟨set', writes, w, hl', hw, hps, -⟩ := fileAt_of_checkedBuild hs hb
  rw [hl] at hl'
  cases hl'
  obtain ⟨c, hc⟩ :=
    Build.exists_reads (b := trialBuild .plain 1 _ documentInSite.files) hl hw hps _ hdoc
  refine ⟨c, ⟨1, by decide, hc⟩, ?_⟩
  have hf := fileAt_of_trial_reads hc
  rwa [hp] at hf

end Command

end TreeMarkup
