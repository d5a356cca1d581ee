import TreeMarkup.Proofs.KeptInputs
import TreeMarkup.Proofs.PlacedTexts

namespace TreeMarkup

theorem Path.join_eq {p r : Path} (h : r.slashes = 0) : p.join r = p.join ⟨0, r.parts⟩ := by
  rw [join, join, if_pos h, if_pos rfl]

namespace FileWork

variable (p : Path) (x : Place × Text) (xs ys : List (Place × Text))

theorem writeTexts_append : writeTexts p (xs ++ ys) = writeTexts p xs >>= fun _ ↦ writeTexts p ys := by
  induction xs with
  | nil => rfl
  | cons x xs ih => rw [List.cons_append, writeTexts, ih, writeTexts, bind_assoc]

theorem writeTexts_singleton : writeTexts p [x] = writeText (p.join ⟨0, x.1⟩) x.2 := by
  rw [writeTexts]
  exact bind_pure _

end FileWork

namespace Build

variable {b : Build} {set : PageSet} {v w w' : Workspace} {writes : List (Page × Text)}

structure IsRendering (k : Toolkit) (base : Path) (set : PageSet) (v : Workspace)
    (writes : List (Page × Text)) : Prop where
  pages : writes.map Prod.fst = set.pages
  renderPage : ∀ x ∈ writes, v.renderPage k 0 base set x.1 = .ok x.2

/-- Pages are rendered as a plain build renders them in view of `v`, whatever has been written since
`w`. -/
def ReadsAs (b : Build) (set : PageSet) (v w : Workspace) : Prop :=
  ∀ writes w₁, b.Writes set w writes w₁ → (∀ x ∈ writes, x.1 ∈ set.pages) →
    ∀ page ∈ set.pages, b.renderPage set w₁ page = v.renderPage b.kit 0 b.base set page

def pageTexts (writes : List (Page × Text)) : List (Place × Text) :=
  writes.map fun x ↦ (x.1.outputParts, x.2)

theorem writes_iff (ho : ∀ page ∈ set.pages, (Path.ofText page.outputPath).slashes = 0)
    (hr : b.ReadsAs set v w) (hp : ∀ x ∈ writes, x.1 ∈ set.pages) :
    b.Writes set w writes w' ↔
      (∀ x ∈ writes, v.renderPage b.kit 0 b.base set x.1 = .ok x.2) ∧
        (FileWork.writeTexts b.output (pageTexts writes)).run w = (.ok (), w') := by
  induction writes generalizing w with
  | nil =>
    constructor
    · intro h
      cases h
      exact ⟨fun x hx ↦ (List.not_mem_nil hx).elim, rfl⟩
    · rintro ⟨-, h⟩
      cases h
      exact .nil _
  | cons x writes ih =>
    rw [List.forall_mem_cons] at hp
    have hv := hr [] w (.nil w) (fun x hx ↦ (List.not_mem_nil hx).elim) x.1 hp.1
    have ht : b.target x.1 = b.output.join ⟨0, x.1.outputParts⟩ := Path.join_eq (ho _ hp.1)
    -- what is still read as `v` after further pages is so after this one and those
    have hr₁ : ∀ {w₁}, b.renderPage set w x.1 = .ok x.2 →
        (FileWork.writeText (b.target x.1) x.2).run w = (.ok (), w₁) → b.ReadsAs set v w₁ :=
      fun hx hw writes w₂ h hm ↦
        hr (x :: writes) w₂ (.cons hx hw h) (List.forall_mem_cons.2 ⟨hp.1, hm⟩)
    rw [List.forall_mem_cons, ← hv, pageTexts, List.map_cons, FileWork.writeTexts_cons_iff]
    constructor
    · intro h
      obtain _ | ⟨hx, hw, h⟩ := h
      obtain ⟨hrs, hws⟩ := (ih (hr₁ hx hw) hp.2).1 h
      rw [ht] at hw
      exact ⟨⟨hx, hrs⟩, _, hw, hws⟩
    · rintro ⟨⟨hx, hrs⟩, w₁, hw, h⟩
      rw [← ht] at hw
      exact .cons hx hw ((ih (hr₁ hx hw) hp.2).2 ⟨hrs, h⟩)

theorem run_writePages_of_writes (h : b.Writes set w writes w') (warnings : List Text) :
    (b.writePages set (writes.map Prod.fst)).run ⟨w, warnings⟩ =
      (.ok (entries writes), ⟨w', warnings⟩) := by
  induction h with
  | nil => rfl
  | @cons w w₁ w' page t writes hr hw h ih =>
    have hp : (b.writePage set page).run ⟨w, warnings⟩ =
        (.ok (manifestEntry page t), ⟨w₁, warnings⟩) := by
      rw [writePage, run_get_bind, run_bind, run_ofExcept, hr]
      dsimp only
      rw [run_bind, SiteWork.run_onFiles, hw]
      rfl
    rw [List.map_cons, writePages, run_bind, hp]
    dsimp only
    rw [run_bind, ih]
    rfl

theorem run_eq_ok_iff {s : Session} : (∃ n warnings, b.run.run s = (.ok n, ⟨w', warnings⟩)) ↔
    ∃ set writes w, b.loadPageSet s.files = .ok set ∧
      b.Writes set s.files writes w ∧ writes.map Prod.fst = set.pages ∧
      (FileWork.writeText b.manifestPath (manifestText writes)).run w = (.ok (), w') := by
  constructor
  · rintro ⟨n, warnings, h⟩
    exact b.run_eq_ok h
  · rintro ⟨set, writes, w, hl, hw, hp, hm⟩
    have hf : (b.noted set s) = ⟨s.files, (b.noted set s).warnings⟩ := by
      rw [← b.files_noted set s]
    have hps : (b.finish set).run (b.noted set s) =
        (.ok (entries writes).length, ⟨w', (b.noted set s).warnings⟩) := by
      rw [manifestText] at hm
      rw [finish, hf, ← hp, run_bind, run_writePages_of_writes hw]
      dsimp only
      rw [run_bind, SiteWork.run_onFiles, hm]
      rfl
    exact ⟨_, _, by rw [run_run, hl]; exact hps⟩

def texts (writes : List (Page × Text)) : List (Place × Text) :=
  pageTexts writes ++ [(["manifest.json".toList], manifestText writes)]

theorem names_of_mem_texts
    (ho : ∀ x ∈ writes, x.1.outputParts ≠ [] ∧ Path.up ∉ x.1.outputParts) :
    ∀ x ∈ texts writes, x.1 ≠ [] ∧ Path.up ∉ x.1 := by
  have hu : Path.up ∉ ["manifest.json".toList] := by decide
  intro x hx
  rcases List.mem_append.1 hx with hx | hx
  · obtain ⟨y, hy, rfl⟩ := List.mem_map.1 hx
    exact ho y hy
  · rw [List.mem_singleton.1 hx]
    exact ⟨List.cons_ne_nil _ _, hu⟩

/-- A build that reads the same throughout renders all pages, and then writes them and the manifest,
none of them in the place of the output directory itself. -/
theorem run_eq_ok_iff_of_readsAs {s : Session}
    (hl : b.loadPageSet s.files = .ok set)
    (ho : ∀ page ∈ set.pages, (Path.ofText page.outputPath).slashes = 0 ∧ Path.up ∉ page.outputParts)
    (hr : b.ReadsAs set v s.files) :
    (∃ n warnings, b.run.run s = (.ok n, ⟨w', warnings⟩)) ↔
      ∃ writes, IsRendering b.kit b.base set v writes ∧
        (∀ x ∈ texts writes, x.1 ≠ [] ∧ Path.up ∉ x.1) ∧
        (FileWork.writeTexts b.output (texts writes)).run s.files = (.ok (), w') := by
  have hm : b.manifestPath = b.output.join ⟨0, ["manifest.json".toList]⟩ := by
    rw [← parts_manifest]
    exact Path.join_eq slashes_manifest
  have hs : ∀ page ∈ set.pages, (Path.ofText page.outputPath).slashes = 0 :=
    fun page hp ↦ (ho page hp).1
  have hp : ∀ {writes : List (Page × Text)}, writes.map Prod.fst = set.pages →
      ∀ x ∈ writes, x.1 ∈ set.pages := fun h x hx ↦ h ▸ List.mem_map_of_mem hx
  rw [run_eq_ok_iff]
  constructor
  · rintro ⟨set', writes, w, hl', hw, hps, hman⟩
    rw [hl] at hl'
    cases hl'
    obtain ⟨hrs, hts⟩ := (writes_iff hs hr (hp hps)).1 hw
    refine ⟨writes, ⟨hps, hrs⟩, names_of_mem_texts fun x hx ↦ ?_, ?_⟩
    · obtain ⟨hx₁, hx₂⟩ := ho x.1 (hp hps x hx)
      refine ⟨fun hn ↦ place_target_ne hw hman x hx ?_, hx₂⟩
      rw [place_target x.1 _ ⟨hx₁, hx₂⟩, hn, List.append_nil]
    · rw [texts, FileWork.writeTexts_append, run_seq_eq_ok_iff]
      refine ⟨w, hts, ?_⟩
      rw [FileWork.writeTexts_singleton, ← hm]
      exact hman
  · rintro ⟨writes, ⟨hps, hrs⟩, -, hts⟩
    rw [texts, FileWork.writeTexts_append, run_seq_eq_ok_iff] at hts
    obtain ⟨w, hw, hman⟩ := hts
    rw [FileWork.writeTexts_singleton, ← hm] at hman
    exact ⟨set, writes, w, hl, (writes_iff hs hr (hp hps)).2 ⟨hrs, hw⟩, hps, hman⟩

theorem staysInside_of_writes (h : b.Writes set w writes w')
    (ho : ∀ x ∈ writes, (Path.ofText x.1.outputPath).slashes = 0 ∧ Path.up ∉ x.1.outputParts)
    (hh : w.isDirectory Path.here = true) : w.StaysInside b.output w' := by
  induction h with
  | nil => exact .refl _ _
  | @cons w w₁ w' page t writes _ hw _ ih =>
    rw [List.forall_mem_cons] at ho
    have ht : b.target page = b.output.join ⟨0, page.outputParts⟩ := Path.join_eq ho.1.1
    have hh₁ := FileWork.isDirectory_of_writeText hw hh
    rw [ht] at hw
    exact (FileWork.staysInside_writeText ho.1.2 hh hw).trans (ih ho.2 hh₁)

/-- A build reads the same throughout if what it looks for is outside its output. -/
theorem readsAs_of_isOutside {k : Toolkit} {p output : Path} (hk : k.IsLocal)
    (hh : w.isDirectory Path.here = true)
    (ho : ∀ page ∈ set.pages, (Path.ofText page.outputPath).slashes = 0 ∧ Path.up ∉ page.outputParts)
    (hi : ∀ i ∈ w.inputs k set p, ∀ q ∈ w.waypoints i, w.IsOutside output q) :
    (⟨k, 0, p, output, id⟩ : Build).ReadsAs set w w := by
  intro writes w₁ h hp page hpage
  have hs := staysInside_of_writes h (fun x hx ↦ ho x.1 (hp x hx)) hh
  refine Workspace.renderPage_congr hk fun i hm ↦ Workspace.read_congr hs.standpoint fun q hq ↦ ?_
  refine hs.get? q (hi i (List.mem_cons_of_mem _ ?_) q hq)
  exact List.mem_flatMap.2 ⟨page, hpage, hm⟩

theorem readsAs_trialBuild (k : Toolkit) (p : Path) (v w : Workspace) :
    (trialBuild k 0 p v).ReadsAs set v w :=
  fun _ _ _ _ _ _ ↦ rfl

end Build

end TreeMarkup
