import TreeMarkup.Proofs.SiteWrites
import TreeMarkup.Site.Plain

namespace TreeMarkup

/-- Whether layouts are filled in from the files that are looked for, and nothing else is read. -/
def Toolkit.IsLocal (k : Toolkit) : Prop :=
  ∀ turn w w' base name b,
    (∀ p ∈ (k.fill turn w base name b).lookups, w'.read p = w.read p) →
      k.fill turn w' base name b = k.fill turn w base name b

theorem Toolkit.isLocal_plain : Toolkit.plain.IsLocal := by
  intro turn w w' base name b h
  change Layout.fillFrom w' base name b = Layout.fillFrom w base name b
  replace h : ∀ p ∈ (Layout.fillFrom w base name b).lookups, w'.read p = w.read p := h
  unfold Layout.fillFrom at h ⊢
  cases hn : Layout.location name with
  | error e => rfl
  | ok names =>
    rw [hn] at h
    have hr : w'.read { base with parts := base.parts ++ names } =
        w.read { base with parts := base.parts ++ names } := by
      refine h _ ?_
      dsimp only
      split <;> exact List.mem_singleton_self _
    simp only [hr]

namespace Workspace

variable {w w' : Workspace} {k : Toolkit} {p : Path}

/-- What is looked for to render a page. Its layout is looked for once its document is converted. -/
def pageInputs (w : Workspace) (k : Toolkit) (turn : Nat) (base : Path) (set : PageSet)
    (page : Page) : List Path :=
  let source := base.join (.ofText page.source)
  source :: match set.templateFor page, w.convertFile k (set.optionsFor page) source with
    | some (c :: cs), .ok markup =>
      (w.fillLayout k turn base set page (c :: cs) markup).lookups
    | _, _ => []

/-- What is looked for to build a page set, all of it in the same files. -/
def inputs (w : Workspace) (k : Toolkit) (set : PageSet) (pagesFile : Path) : List Path :=
  pagesFile :: set.pages.flatMap (w.pageInputs k 0 pagesFile.parent set)

theorem read_eq_ok {c : FileContent} (h : w.read p = .ok c) :
    w.resolve p = .ok (w.place p) ∧ w.fileAt (w.place p) = some c := by
  obtain ⟨entry, hl, h⟩ := bind_eq_ok_iff.1 h
  obtain ⟨q, hq, hl⟩ := bind_eq_ok_iff.1 hl
  have hp := resolve_eq_place hq
  subst hp
  cases hg : w.tree.get? (w.place p) with
  | none =>
    rw [hg] at hl
    cases hl
  | some e =>
    rw [hg] at hl
    cases hl
    cases entry with
    | directory => cases h
    | file c' =>
      cases h
      exact ⟨hq, fileAt_eq_some.2 hg⟩

theorem load_congr (h : w'.read p = w.read p) : w'.load k p = w.load k p := by
  rw [load, load, h]

theorem exists_read_of_load {v : Value} (h : w.load k p = .ok v) : ∃ c, w.read p = .ok c := by
  obtain ⟨c, hc, -⟩ := bind_eq_ok_iff.1 h
  cases hr : w.read p with
  | error e =>
    rw [hr] at hc
    cases hc
  | ok c => exact ⟨c, rfl⟩

theorem loadPageSet_congr (h : w'.read p = w.read p) :
    w'.loadPageSet k p = w.loadPageSet k p := by
  rw [loadPageSet, loadPageSet, load_congr h]

theorem exists_read_of_loadPageSet {set : PageSet} (h : w.loadPageSet k p = .ok set) :
    ∃ c, w.read p = .ok c := by
  obtain ⟨v, hv, -⟩ := bind_eq_ok_iff.1 h
  exact exists_read_of_load hv

theorem convertFile_congr (h : w'.read p = w.read p) (options : Options) :
    w'.convertFile k options p = w.convertFile k options p := by
  rw [convertFile, convertFile, load_congr h]

theorem exists_read_of_convertFile {options : Options} {t : Text}
    (h : w.convertFile k options p = .ok t) : ∃ c, w.read p = .ok c := by
  cases hl : w.load k p with
  | error e =>
    rw [convertFile, hl] at h
    cases h
  | ok v => exact exists_read_of_load hl

variable {turn : Nat} {base : Path} {set : PageSet} {page : Page}

theorem renderPage_congr (hk : k.IsLocal)
    (h : ∀ p ∈ w.pageInputs k turn base set page, w'.read p = w.read p) :
    w'.renderPage k turn base set page = w.renderPage k turn base set page := by
  rw [pageInputs, List.forall_mem_cons] at h
  have hc := convertFile_congr (k := k) h.1 (set.optionsFor page)
  rw [renderPage, renderPage, hc]
  cases hm : w.convertFile k (set.optionsFor page) (base.join (.ofText page.source)) with
  | error f => rfl
  | ok markup =>
    cases ht : set.templateFor page with
    | none => rfl
    | some t =>
      cases t with
      | nil => rfl
      | cons c cs =>
        rw [ht, hm] at h
        have hl : w'.layOut k turn base set page (c :: cs) markup =
            w.layOut k turn base set page (c :: cs) markup := by
          rw [layOut, layOut, fillLayout, fillLayout, hk _ _ _ _ _ _ h.2]
        simp only [bind, Except.bind, hl]

theorem pageInputs_congr (hk : k.IsLocal)
    (h : ∀ p ∈ w.pageInputs k turn base set page, w'.read p = w.read p) :
    w'.pageInputs k turn base set page = w.pageInputs k turn base set page := by
  rw [pageInputs, List.forall_mem_cons] at h
  have hc := convertFile_congr (k := k) h.1 (set.optionsFor page)
  rw [pageInputs, pageInputs, hc]
  refine congrArg _ ?_
  cases ht : set.templateFor page with
  | none => rfl
  | some t =>
    cases t with
    | nil => rfl
    | cons c cs =>
      cases hm : w.convertFile k (set.optionsFor page) (base.join (.ofText page.source)) with
      | error f => rfl
      | ok markup =>
        rw [ht, hm] at h
        exact congrArg Filling.lookups (hk _ _ _ _ _ _ h.2)

theorem exists_read_of_renderPage {t : Text} (h : w.renderPage k turn base set page = .ok t) :
    ∃ c, w.read (base.join (.ofText page.source)) = .ok c := by
  obtain ⟨markup, hm, -⟩ := bind_eq_ok_iff.1 h
  exact exists_read_of_convertFile hm

end Workspace

namespace Build.Writes

variable {b : Build} {set : PageSet} {w w' : Workspace} {writes : List (Page × Text)}

theorem exists_renderPage (h : b.Writes set w writes w') {x : Page × Text} (hx : x ∈ writes) :
    ∃ before rest w₁, before ++ x :: rest = writes ∧ b.Writes set w before w₁ ∧
      b.renderPage set w₁ x.1 = .ok x.2 := by
  induction h with
  | nil => cases hx
  | @cons w w₁ w' page t writes hr hw h ih =>
    rcases List.mem_cons.1 hx with rfl | hx
    · exact ⟨[], writes, w, rfl, .nil w, hr⟩
    · obtain ⟨before, rest, w₂, rfl, hws, ht⟩ := ih hx
      exact ⟨(page, t) :: before, rest, w₂, rfl, .cons hr hw hws, ht⟩

end Build.Writes
end TreeMarkup
