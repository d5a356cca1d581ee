import TreeMarkup.Command.Run
import TreeMarkup.Proofs.PageOutputs
import TreeMarkup.Proofs.TrialBuilds
import TreeMarkup.Proofs.WrittenTrees

namespace TreeMarkup

/-- The build that the arguments ask for. A check builds for trial. -/
def Command.BuildArguments.build (a : Command.BuildArguments) (k : Toolkit) (w : Workspace) :
    Build :=
  if a.check then trialBuild k 1 (.ofText a.pages) w
  else ⟨k, 0, .ofText a.pages, .ofText a.output, id⟩

def Command.BuildArguments.start (a : Command.BuildArguments) (w : Workspace) : Workspace :=
  if a.check then w.blank else w

namespace Build

def manifestText (writes : List (Page × Text)) : Text := (manifest (entries writes)).write

/-- Pages with the same output have the same text, as has the manifest if it is in its place. -/
def IsApart (writes : List (Page × Text)) : Prop :=
  (∀ x ∈ writes, ∀ y ∈ writes, x.1.outputParts = y.1.outputParts → x.2 = y.2) ∧
    ∀ x ∈ writes, x.1.outputParts = ["manifest.json".toList] → x.2 = manifestText writes

/-- What the manifest lists of a page and its text. -/
def listed (x : Page × Text) : Value :=
  .map [(.text "key", .text x.1.key), (.text "output", .text x.1.outputPath),
    (.text "sha256", .text x.2.sha256), (.text "source", .text x.1.source)]

theorem isDistinct_manifestEntry (page : Page) (t : Text) : (manifestEntry page t).IsDistinct := by
  have hn : ["key".toList, "output".toList, "sha256".toList, "source".toList].Nodup := by decide
  refine .object hn fun m hm ↦ ?_
  simp only [List.mem_cons, List.not_mem_nil, or_false] at hm
  rcases hm with rfl | rfl | rfl | rfl <;> exact .text _

theorem isDistinct_manifest (writes : List (Page × Text)) :
    (manifest (entries writes)).IsDistinct := by
  refine .object (List.nodup_singleton _) fun m hm ↦ ?_
  rw [List.mem_singleton.1 hm]
  refine .array fun j hj ↦ ?_
  obtain ⟨x, -, rfl⟩ := List.mem_map.1 hj
  exact isDistinct_manifestEntry x.1 x.2

/-- The manifest is read back as the keys, outputs, digests and sources of the pages in order. -/
theorem read?_manifestText (writes : List (Page × Text)) :
    Json.read? (manifestText writes) = some (.map [(.text "pages", .list (writes.map listed))]) := by
  have hl : (entries writes).map Json.toValue = writes.map listed := by
    rw [entries, List.map_map]
    rfl
  have hv : (manifest (entries writes)).toValue =
      .map [(.text "pages", .list (Json.toValues (entries writes)))] := rfl
  rw [manifestText, Json.read?_write (isDistinct_manifest writes), hv, Json.toValues_eq_map, hl]

theorem parts_manifest : (Path.ofText "manifest.json").parts = ["manifest.json".toList] :=
  rfl

theorem slashes_manifest : (Path.ofText "manifest.json").slashes = 0 := rfl

theorem place_join_manifest (w : Workspace) (p : Path) :
    w.place (p.join (.ofText "manifest.json")) = w.place p ++ ["manifest.json".toList] := by
  have hu : Path.up ∉ (Path.ofText "manifest.json").parts := by decide
  rw [Workspace.place_join slashes_manifest hu, parts_manifest]

theorem place_manifestPath (b : Build) (w : Workspace) :
    w.place b.manifestPath = w.place b.output ++ ["manifest.json".toList] :=
  place_join_manifest w b.output

theorem outputPath_of_loadPageSet {w : Workspace} {k : Toolkit} {p : Path} {set : PageSet}
    (h : w.loadPageSet k p = .ok set) :
    ∀ page ∈ set.pages, (Path.ofText page.outputPath).slashes = 0 ∧ Path.up ∉ page.outputParts := by
  obtain ⟨v, -, hv⟩ := bind_eq_ok_iff.1 h
  split at hv
  · cases hv
  · split at hv
    · rename_i hr
      cases hv
      intro page hm
      obtain ⟨hk, ho⟩ := PageSet.settings_of_read hr page hm
      exact Page.outputPath_of_settings hk ho
    · cases hv

variable {b : Build} {set : PageSet} {w w₁ w' : Workspace} {writes : List (Page × Text)}

theorem outputPath_of_writes {k : Toolkit} {p : Path} (hl : w.loadPageSet k p = .ok set)
    (hp : writes.map Prod.fst = set.pages) :
    ∀ x ∈ writes, (Path.ofText x.1.outputPath).slashes = 0 ∧ Path.up ∉ x.1.outputParts :=
  fun _ hx ↦ outputPath_of_loadPageSet hl _ (hp ▸ List.mem_map_of_mem hx)

theorem place_target (page : Page) (w : Workspace)
    (h : (Path.ofText page.outputPath).slashes = 0 ∧ Path.up ∉ page.outputParts) :
    w.place (b.target page) = w.place b.output ++ page.outputParts :=
  Workspace.place_join h.1 h.2

/-- A page that a build has written is not in the place of the output directory itself, for the
manifest was written into that directory. -/
theorem place_target_ne (h : b.Writes set w writes w₁) {t : Text}
    (hm : (FileWork.writeText b.manifestPath t).run w₁ = (.ok (), w')) :
    ∀ x ∈ writes, w.place (b.target x.1) ≠ w.place b.output := by
  intro x hx hp
  obtain ⟨y, -, -, hf⟩ := h.exists_fileAt hx
  obtain ⟨w₂, hd, hr⟩ := (FileWork.writesText_of_ok hm).exists_resolve
  have hn : (Path.ofText "manifest.json").parts ≠ [] := by
    rw [parts_manifest]
    exact List.cons_ne_nil _ _
  have hg := Workspace.get?_of_resolve_join slashes_manifest hn hr
  rw [hd.place, h.place, ← hp, hd.get?_of_some (Workspace.fileAt_eq_some.1 hf)] at hg
  cases hg

theorem forall_fileAt_iff_isApart (h : b.Writes set w writes w₁)
    (hm : (FileWork.writeText b.manifestPath (manifestText writes)).run w₁ = (.ok (), w'))
    (ho : ∀ x ∈ writes,
      (Path.ofText x.1.outputPath).slashes = 0 ∧ Path.up ∉ x.1.outputParts) :
    (∀ x ∈ writes, w'.fileAt (w.place (b.target x.1)) = some (.text x.2)) ↔ IsApart writes := by
  rw [b.forall_fileAt_iff h hm]
  refine and_congr (forall₂_congr fun x hx ↦ forall₂_congr fun y hy ↦ ?_)
    (forall₂_congr fun x hx ↦ ?_)
  · rw [place_target x.1 w (ho x hx), place_target y.1 w (ho y hy), List.append_cancel_left_eq]
  · rw [place_target x.1 w (ho x hx), place_manifestPath, List.append_cancel_left_eq]

end Build

variable {k : Toolkit} {n : Nat} {p output : Path} {s : Session}

theorem exists_of_trial {es : List (Place × Entry)} (h : ((trial k n p).run s).1 = .ok es) :
    ∃ set writes w w', s.files.loadPageSet k p = .ok set ∧
      (trialBuild k n p s.files).Writes set s.files.blank writes w ∧
      writes.map Prod.fst = set.pages ∧
      (FileWork.writeText (trialBuild k n p s.files).manifestPath
        (Build.manifestText writes)).run w = (.ok (), w') ∧
      es = w'.tree.below trialOutput.parts := by
  obtain ⟨m, warnings, u, hr, rfl⟩ := trial_eq_ok_iff.1 h
  obtain ⟨set, writes, w, hl, hw, hp, hm⟩ := (trialBuild k n p s.files).run_eq_ok hr
  exact ⟨set, writes, w, u, hl, hw, hp, hm, rfl⟩

theorem place_trialOutput (w : Workspace) : w.blank.place trialOutput = trialOutput.parts :=
  rfl

theorem isDistinct_of_trial {set : PageSet} {writes : List (Page × Text)} {w w' : Workspace}
    {t : Text} (hw : (trialBuild k n p s.files).Writes set s.files.blank writes w)
    (hm : (FileWork.writeText (trialBuild k n p s.files).manifestPath t).run w = (.ok (), w')) :
    w'.tree.IsDistinct :=
  (FileWork.writesText_of_ok hm).isDistinct (hw.isDistinct List.nodup_nil)

/-- A check that succeeds has what its first trial wrote in the output directory. -/
theorem exists_trial_of_checkedBuild {s' : Session}
    (h : (checkedBuild k p output).run s = (.ok (), s')) :
    ∃ set writes w w', s.files.loadPageSet k p = .ok set ∧
      (trialBuild k 1 p s.files).Writes set s.files.blank writes w ∧
      writes.map Prod.fst = set.pages ∧
      (FileWork.writeText (trialBuild k 1 p s.files).manifestPath
        (Build.manifestText writes)).run w = (.ok (), w') ∧
      ∀ r c, r ≠ [] → w'.fileAt (trialOutput.parts ++ r) = some c →
        s'.files.fileAt (s.files.place output ++ r) = some c := by
  obtain ⟨es, ht, hf⟩ := checkedBuild_eq_ok_iff.1 ⟨s'.warnings, h⟩
  rw [fst_trials] at ht
  obtain ⟨set, writes, w, w', hl, hw, hp, hm, rfl⟩ := exists_of_trial (agreed_eq_ok_iff.1 ht).1
  refine ⟨set, writes, w, w', hl, hw, hp, hm, fun r c hn hc ↦ ?_⟩
  have hb := Tree.mem_below hn (Workspace.fileAt_eq_some.1 hc)
  obtain ⟨w₁, -, -, hr⟩ := FileWork.replaceTree_eq_ok hf
  rw [hr]
  exact Workspace.fileAt_foldl_put (Tree.nodup_below _ _ (isDistinct_of_trial hw hm)) _ hn hb

namespace Command

variable {k : Toolkit} {a : BuildArguments} {s : Session} {out : Text}

/-- After a build the manifest lists all pages in their order, and every page is in its file if and
only if no other text was written there. -/
theorem manifest_integrity_iff (h : ((runBuild k a).run s).1 = .ok out) :
    ∃ set writes w, s.files.loadPageSet k (.ofText a.pages) = .ok set ∧
      (a.build k s.files).Writes set (a.start s.files) writes w ∧ writes.map Prod.fst = set.pages ∧
      ((runBuild k a).run s).2.files.fileAt
          (s.files.place ((Path.ofText a.output).join (.ofText "manifest.json"))) =
        some (.text (Build.manifestText writes)) ∧
      ((∀ x ∈ writes,
          ((runBuild k a).run s).2.files.fileAt
              (s.files.place ((Path.ofText a.output).join (.ofText x.1.outputPath))) =
            some (.text x.2)) ↔
        Build.IsApart writes) := by
  obtain ⟨pages, output, check⟩ := a
  cases check with
  | false =>
    rcases hr : (runBuild k ⟨pages, output, false⟩).run s with ⟨r, s'⟩
    rw [hr] at h
    cases h
    obtain ⟨n, s₁, hb, hs⟩ := run_bind_eq_ok hr
    cases hs
    obtain ⟨set, writes, w, hl, hw, hp, hm⟩ := Build.run_eq_ok _ hb
    have ho := Build.outputPath_of_writes hl hp
    exact ⟨set, writes, w, hl, hw, hp, Build.fileAt_manifest _ hw hm,
      Build.forall_fileAt_iff_isApart hw hm ho⟩
  | true =>
    rcases hr : (runBuild k ⟨pages, output, true⟩).run s with ⟨r, s'⟩
    rw [hr] at h
    cases h
    obtain ⟨_, s₁, hb, hs⟩ := run_bind_eq_ok hr
    cases hs
    obtain ⟨set, writes, w, w', hl, hw, hp, hm, hf⟩ := exists_trial_of_checkedBuild hb
    have ho := Build.outputPath_of_writes hl hp
    have hman : s'.files.fileAt
        (s.files.place ((Path.ofText output).join (.ofText "manifest.json"))) =
          some (.text (Build.manifestText writes)) := by
      have hg := Build.fileAt_manifest _ hw hm
      rw [Build.place_manifestPath] at hg
      rw [Build.place_join_manifest]
      exact hf _ _ (List.cons_ne_nil _ _) (place_trialOutput s.files ▸ hg)
    refine ⟨set, writes, w, hl, hw, hp, hman, ?_⟩
    rw [← Build.forall_fileAt_iff_isApart hw hm ho]
    refine forall₂_congr fun x hx ↦ ?_
    obtain ⟨c, hc⟩ := Build.exists_fileAt_target _ hw hm hx
    have hn := Build.place_target_ne hw hm x hx
    rw [Build.place_target x.1 _ (ho x hx)] at hn hc ⊢
    rw [Workspace.place_join (ho x hx).1 (ho x hx).2, hc]
    have hr : x.1.outputParts ≠ [] := fun he ↦ hn (by rw [he, List.append_nil])
    rw [show (Path.ofText x.1.outputPath).parts = x.1.outputParts from rfl,
      hf _ _ hr (place_trialOutput s.files ▸ hc)]

def holds (w : Workspace) (q : Place) (t : Text) : Bool :=
  match w.fileAt q with
  | some (.text u) => u = t
  | _ => false

theorem fileAt_of_holds {w : Workspace} {q : Place} {t : Text} (h : holds w q t = true) :
    w.fileAt q = some (.text t) := by
  unfold holds at h
  split at h
  · rename_i u hu
    rw [hu, of_decide_eq_true h]
  · cases h

def sharedOutput : Session :=
  let page (key : Text) : Value :=
    .map [(.text "key", .text key), (.text "source", .text (key ++ ".yaml")),
      (.text "output", .text "x.html")]
  ⟨{ tree :=
      ⟨[(["pages.yaml"], .file (.document (.list [page "a", page "b"]))),
        (["a.yaml"], .file (.document (.list [.text "one"]))),
        (["b.yaml"], .file (.document (.list [.text "two"])))]⟩ }, []⟩

def sharingPage (key : Text) : Page :=
  { key, source := key ++ ".yaml", output := some "x.html" }

theorem run_sharedOutput :
    ((runBuild .plain ⟨"pages.yaml", "build", false⟩).run sharedOutput).1 =
        .ok "Built 2 page(s) into build\n" ∧
      holds ((runBuild .plain ⟨"pages.yaml", "build", false⟩).run sharedOutput).2.files
        ["build", "manifest.json"]
        (Build.manifestText [(sharingPage "a", "one"), (sharingPage "b", "two")]) = true ∧
      holds ((runBuild .plain ⟨"pages.yaml", "build", false⟩).run sharedOutput).2.files
        ["build", "x.html"] "two" = true := by
  decide +kernel

theorem manifest_integrity_sharedOutput :
    ∃ writes : List (Page × Text),
      ((runBuild .plain ⟨"pages.yaml", "build", false⟩).run sharedOutput).2.files.fileAt
          (sharedOutput.files.place ((Path.ofText "build").join (.ofText "manifest.json"))) =
        some (.text (Build.manifestText writes)) ∧
      ((∀ x ∈ writes,
          ((runBuild .plain ⟨"pages.yaml", "build", false⟩).run sharedOutput).2.files.fileAt
              (sharedOutput.files.place ((Path.ofText "build").join (.ofText x.1.outputPath))) =
            some (.text x.2)) ↔
        Build.IsApart writes) := by
  obtain ⟨set, writes, w, -, -, -, h⟩ := manifest_integrity_iff run_sharedOutput.1
  exact ⟨writes, h⟩

/-- The manifest lists both pages with their digests, but only the second page is in the file. -/
theorem sharedOutput_loses_page :
    ((runBuild .plain ⟨"pages.yaml", "build", false⟩).run sharedOutput).1 =
        .ok "Built 2 page(s) into build\n" ∧
      ((runBuild .plain ⟨"pages.yaml", "build", false⟩).run sharedOutput).2.files.fileAt
          ["build", "manifest.json"] =
        some (.text (Build.manifestText [(sharingPage "a", "one"), (sharingPage "b", "two")])) ∧
      ((runBuild .plain ⟨"pages.yaml", "build", false⟩).run sharedOutput).2.files.fileAt
          ["build", "x.html"] = some (.text "two") :=
  ⟨run_sharedOutput.1, fileAt_of_holds run_sharedOutput.2.1, fileAt_of_holds run_sharedOutput.2.2⟩

end Command

end TreeMarkup
