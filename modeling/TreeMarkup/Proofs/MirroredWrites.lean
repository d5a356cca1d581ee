import TreeMarkup.Proofs.SiteWrites
import TreeMarkup.Proofs.TreePlacement

namespace TreeMarkup

namespace Tree

variable {t t' : Tree} {d d' : Place} {names : List Text}

theorem walk_of_mirrored (h : ∀ r, t.get? (d ++ r) = t'.get? (d' ++ r)) (hu : Path.up ∉ names)
    (hw : t.walk d names = .ok (d ++ names)) : t'.walk d' names = .ok (d' ++ names) := by
  induction names generalizing d d' with
  | nil =>
    rw [List.append_nil]
    rfl
  | cons name names ih =>
    rw [List.mem_cons, not_or] at hu
    have hs : ∀ q, step q name = q ++ [name] := fun q ↦ if_neg (Ne.symm hu.1)
    have hd : t.get? d = t'.get? d' := by simpa using h []
    rw [walk, hs] at hw
    rw [walk, hs, ← hd]
    split at hw
    · cases hw
    · cases hw
    · split at hw
      · cases hw
      · rename_i hl
        have hr : ∀ r, t.get? ((d ++ [name]) ++ r) = t'.get? ((d' ++ [name]) ++ r) := by
          intro r
          simpa using h (name :: r)
        have hn : ∀ q : Place, q ++ name :: names = (q ++ [name]) ++ names := by simp
        rw [hn] at hw ⊢
        rw [if_neg hl]
        exact ih hr hu.2 hw

end Tree

namespace Workspace

variable {w w' : Workspace} {p p' : Path} {q : Place} {names : List Text}

theorem resolve_join_iff (hd : w.isDirectory p = true) :
    w.resolve (p.join ⟨0, names⟩) = .ok (w.place p ++ names) ↔
      w.IsUsable ⟨0, names⟩ ∧ (p.join ⟨0, names⟩).Fits ∧
        w.tree.walk (w.place p) names = .ok (w.place p ++ names) := by
  obtain ⟨hus, -, hw⟩ := resolve_eq_ok_iff.1 (isDirectory_iff.1 hd).1
  have hwa : w.tree.walk (w.origin (p.join ⟨0, names⟩)) (p.join ⟨0, names⟩).parts =
      w.tree.walk (w.place p) names := by
    have ho : w.tree.walk (w.origin p) (p.parts ++ names) = w.tree.walk (w.place p) names := by
      rw [Tree.walk_append, hw]
      rfl
    exact ho
  have hn : w.IsUsable (p.join ⟨0, names⟩) ↔ w.IsUsable ⟨0, names⟩ := by
    constructor
    · exact fun h name hm ↦ h name (List.mem_append_right _ hm)
    · intro h name hm
      rcases List.mem_append.1 hm with hm | hm
      · exact hus name hm
      · exact h name hm
  rw [resolve_eq_ok_iff, hwa, hn]

theorem isDirectory_put (hd : w.isDirectory p = true) (hq : w.tree.get? q ≠ some .directory)
    (e : Entry) : (w.put q e).isDirectory p = true := by
  have hg : ∀ r ∈ w.waypoints p, (w.put q e).tree.get? r = w.tree.get? r := by
    intro r hr
    refine Tree.get?_put_of_ne _ _ _ ?_
    rintro rfl
    exact hq (get?_of_mem_waypoints hd hr)
  have hc : (w.put q e).toStandpoint = w.toStandpoint := rfl
  obtain ⟨hr, hp⟩ := isDirectory_iff.1 hd
  refine isDirectory_iff.2 ⟨?_, ?_⟩
  · exact (resolve_congr hc hg).trans hr
  · exact (hg _ (place_mem_waypoints w p)).trans hp

end Workspace

namespace FileWork

variable {w w' : Workspace} {p : Path} {c : FileContent} {names : List Text}

open Workspace

theorem writeFile_eq_ok_iff : (writeFile p c).run w = (.ok (), w') ↔
    w.resolve p = .ok (w.place p) ∧ w.tree.get? (w.place p) ≠ some .directory ∧
      w' = w.put (w.place p) (.file c) := by
  constructor
  · intro h
    cases hr : w.resolve p with
    | error e =>
      rw [writeFile, run_bind, run_resolve, hr] at h
      cases h
    | ok q =>
      obtain rfl := resolve_eq_place hr
      rw [run_writeFile c hr] at h
      split at h
      · cases h
      · rename_i hn
        cases h
        exact ⟨rfl, hn, rfl⟩
  · rintro ⟨hr, hg, rfl⟩
    rw [run_writeFile c hr]
    split
    · rename_i hd
      exact absurd hd hg
    · rfl

theorem writeText_eq_ok_iff {t : Text} (h : p.parent = Path.here → w.isDirectory Path.here = true) :
    (writeText p t).run w = (.ok (), w') ↔
      ¬w.IsBroken t ∧ ∃ w₁, (makeDirectories p.parent).run w = (.ok (), w₁) ∧
        (writeFile p (.text t)).run w₁ = (.ok (), w') := by
  have hm : (prepare p).run w = (makeDirectories p.parent).run w := by
    rw [prepare_eq]
    by_cases hp : p.parent = Path.here
    · rw [if_neg (not_not_intro hp), hp, makeDirectories_of_isDirectory (h hp)]
      rfl
    · rw [if_pos hp]
  rw [writeText, run_seq_eq_ok_iff, hm, ← exists_and_left]
  refine exists_congr fun w₁ ↦ ?_
  rw [and_left_comm]
  refine and_congr_right fun hw ↦ ?_
  -- the text is encoded only when the file is open, but where it fails does not matter here
  have hb := isBroken_congr ((steps_makeDirectories p.parent).of_run hw).standpoint t
  rw [run_storeText]
  by_cases ht : w₁.IsBroken t
  · rw [if_pos ht, run_bind]
    refine iff_of_false (fun h ↦ ?_) fun h ↦ h.1 (hb.1 ht)
    rcases hr : (writeFile p (.text [])).run w₁ with ⟨e | _, w₂⟩
    · rw [hr] at h
      cases h
    · rw [hr] at h
      cases h
  · rw [if_neg ht, and_iff_right fun h ↦ ht (hb.2 h)]

def writeTexts (p : Path) : List (Place × Text) → FileWork Unit
  | [] => pure ()
  | x :: xs => do
    writeText (p.join ⟨0, x.1⟩) x.2
    writeTexts p xs

theorem writeTexts_cons_iff {x : Place × Text} {xs : List (Place × Text)} :
    (writeTexts p (x :: xs)).run w = (.ok (), w') ↔
      ∃ w₁, (writeText (p.join ⟨0, x.1⟩) x.2).run w = (.ok (), w₁) ∧
        (writeTexts p xs).run w₁ = (.ok (), w') :=
  run_seq_eq_ok_iff

end FileWork

namespace Workspace

variable {w w' w'' : Workspace} {p : Path} {q : Place} {names : List Text}

theorem mem_waypoints_join (hu : Path.up ∉ names) (hq : q ∈ w.waypoints (p.join ⟨0, names⟩)) :
    q ∈ w.waypoints p ∨ w.place p <+: q := by
  induction names using List.reverseRecOn with
  | nil =>
    rw [Path.join_nil] at hq
    exact .inl hq
  | append_singleton names name ih =>
    have hn : (p.join ⟨0, names ++ [name]⟩).parts ≠ [] := by simp [Path.join]
    rw [waypoints_eq_append hn, Path.parent_join_append_singleton, place_join rfl hu] at hq
    rcases List.mem_append.1 hq with hq | hq
    · exact ih (fun hm ↦ hu (List.mem_append_left _ hm)) hq
    · rw [List.mem_singleton.1 hq]
      exact .inr (List.prefix_append _ _)

theorem mem_waypoints_of_parent (hq : q ∈ w.waypoints p.parent) : q ∈ w.waypoints p := by
  by_cases hp : p.parts = []
  · rwa [Path.parent_of_nil hp] at hq
  · rw [waypoints_eq_append hp]
    exact List.mem_append_left _ hq

/-- Whether a place is neither inside a directory nor missing on the way to it. -/
def IsOutside (w : Workspace) (p : Path) (q : Place) : Prop :=
  ¬w.place p <+: q ∧ (q ∈ w.waypoints p → w.tree.get? q ≠ none)

instance (w : Workspace) (p : Path) (q : Place) : Decidable (w.IsOutside p q) :=
  inferInstanceAs (Decidable (_ ∧ _))

structure StaysInside (p : Path) (w w' : Workspace) : Prop where
  standpoint : w'.toStandpoint = w.toStandpoint
  get? : ∀ q, w.IsOutside p q → w'.tree.get? q = w.tree.get? q

namespace StaysInside

theorem refl (p : Path) (w : Workspace) : StaysInside p w w := ⟨rfl, fun _ _ ↦ rfl⟩

theorem isOutside (h : StaysInside p w w') (hq : w.IsOutside p q) : w'.IsOutside p q := by
  rw [IsOutside, place_congr h.standpoint, waypoints_congr h.standpoint, h.get? q hq]
  exact hq

theorem trans (h : StaysInside p w w') (h' : StaysInside p w' w'') : StaysInside p w w'' :=
  ⟨h'.standpoint.trans h.standpoint, fun q hq ↦ (h'.get? q (h.isOutside hq)).trans (h.get? q hq)⟩

end StaysInside

end Workspace

namespace FileWork

variable {w w' : Workspace} {p : Path} {names : List Text} {t : Text}

open Workspace

theorem get?_of_writeText (hh : w.isDirectory Path.here = true)
    (h : (writeText p t).run w = (.ok (), w')) {q : Place} (hne : q ≠ w.place p)
    (hq : q ∈ w.waypoints p → w.tree.get? q ≠ none) : w'.tree.get? q = w.tree.get? q := by
  obtain ⟨-, w₁, hm, hw⟩ := (writeText_eq_ok_iff fun _ ↦ hh).1 h
  obtain ⟨-, -, rfl⟩ := writeFile_eq_ok_iff.1 hw
  have ha := (steps_makeDirectories p.parent).of_run hm
  have hg : w₁.tree.get? q = w.tree.get? q := by
    by_cases hp : q ∈ w.waypoints p.parent
    · obtain ⟨e, he⟩ := Option.ne_none_iff_exists'.1 (hq (mem_waypoints_of_parent hp))
      rw [he, ha.get?_of_some he]
    · exact get?_of_makeDirectories hm hp
  rw [← hg]
  refine Tree.get?_put_of_ne _ _ _ ?_
  rw [ha.place]
  exact hne

theorem staysInside_writeText (hu : Path.up ∉ names) (hh : w.isDirectory Path.here = true)
    (h : (writeText (p.join ⟨0, names⟩) t).run w = (.ok (), w')) : StaysInside p w w' := by
  refine ⟨(writesText_of_ok h).standpoint, fun q hq ↦ get?_of_writeText hh h ?_ fun hm ↦ ?_⟩
  · rintro rfl
    rw [place_join rfl hu] at hq
    exact hq.1 (List.prefix_append _ _)
  · exact hq.2 ((mem_waypoints_join hu hm).resolve_right hq.1)

/-- Before anything is written below a directory, the directory is made. -/
theorem writeText_iff_makeDirectories (hn : names ≠ []) (hh : w.isDirectory Path.here = true) :
    (writeText (p.join ⟨0, names⟩) t).run w = (.ok (), w') ↔
      ∃ w₁, (makeDirectories p).run w = (.ok (), w₁) ∧
        (writeText (p.join ⟨0, names⟩) t).run w₁ = (.ok (), w') := by
  obtain ⟨names, name, rfl⟩ : ∃ first last, names = first ++ [last] :=
    ⟨_, _, (List.dropLast_append_getLast hn).symm⟩
  have ha : ∀ {w₁}, (makeDirectories p).run w = (.ok (), w₁) → AddsDirectories w w₁ :=
    (steps_makeDirectories p).of_run
  have hw : ∀ {w₁}, (makeDirectories p).run w = (.ok (), w₁) → w₁.isDirectory Path.here = true :=
    fun hm ↦ isDirectory_of_addsDirectories (ha hm) hh
  constructor
  · intro h
    obtain ⟨hb, w₂, hm, hf⟩ := (writeText_eq_ok_iff fun _ ↦ hh).1 h
    rw [Path.parent_join_append_singleton] at hm
    obtain ⟨w₁, hp, hm⟩ := (makeDirectories_join_iff p names w w₂).1 hm
    refine ⟨w₁, hp, (writeText_eq_ok_iff fun _ ↦ hw hp).2 ⟨?_, w₂, ?_, hf⟩⟩
    · rwa [isBroken_congr (ha hp).standpoint]
    · rw [Path.parent_join_append_singleton]
      exact hm
  · rintro ⟨w₁, hp, h⟩
    obtain ⟨hb, w₂, hm, hf⟩ := (writeText_eq_ok_iff fun _ ↦ hw hp).1 h
    rw [Path.parent_join_append_singleton] at hm
    refine (writeText_eq_ok_iff fun _ ↦ hh).2 ⟨?_, w₂, ?_, hf⟩
    · rwa [isBroken_congr (ha hp).standpoint] at hb
    · rw [Path.parent_join_append_singleton]
      exact (makeDirectories_join_iff p names w w₂).2 ⟨w₁, hp, hm⟩

end FileWork

theorem Path.eq_here_of_join {p : Path} {names : List Text} (h : p.join ⟨0, names⟩ = here) :
    p = here := by
  obtain ⟨slashes, parts⟩ := p
  simp only [join, here, if_true, mk.injEq, List.append_eq_nil_iff] at h
  rw [here, h.1, h.2.1]

/-- Two directories that hold the same, all of it at paths that are short enough. -/
structure Mirrors (p : Path) (w : Workspace) (p' : Path) (w' : Workspace) : Prop where
  isBroken : w.isBroken = w'.isBroken
  isDirectory : w.isDirectory p = true
  isDirectory' : w'.isDirectory p' = true
  get? : ∀ r, w.tree.get? (w.place p ++ r) = w'.tree.get? (w'.place p' ++ r)
  fits : ∀ r, w.tree.get? (w.place p ++ r) ≠ none →
    (p.join ⟨0, r⟩).Fits ∧ (p'.join ⟨0, r⟩).Fits

open Workspace

namespace Mirrors

variable {p p' : Path} {w w' w₁ : Workspace} {r : Place} {names : List Text}

theorem symm (h : Mirrors p w p' w') : Mirrors p' w' p w := by
  refine ⟨h.isBroken.symm, h.isDirectory', h.isDirectory, fun r ↦ (h.get? r).symm, fun r hr ↦ ?_⟩
  rw [← h.get?] at hr
  exact (h.fits r hr).symm

theorem isBroken_iff (h : Mirrors p w p' w') (t : Text) : w.IsBroken t ↔ w'.IsBroken t := by
  rw [IsBroken, IsBroken, h.isBroken]

theorem put (h : Mirrors p w p' w') (hr : w.tree.get? (w.place p ++ r) ≠ some .directory)
    (hf : (p.join ⟨0, r⟩).Fits) (hf' : (p'.join ⟨0, r⟩).Fits) (e : Entry) :
    Mirrors p (w.put (w.place p ++ r) e) p' (w'.put (w'.place p' ++ r) e) := by
  have hr' : w'.tree.get? (w'.place p' ++ r) ≠ some .directory := by
    rw [← h.get?]
    exact hr
  have hn : r ≠ [] := by
    rintro rfl
    rw [List.append_nil] at hr
    exact hr (isDirectory_iff.1 h.isDirectory).2
  have hg : ∀ (t : Tree) (d s : Place),
      (t.put (d ++ r) e).get? (d ++ s) = if s = r then some e else t.get? (d ++ s) := by
    intro t d s
    by_cases hs : s = r
    · rw [if_pos hs, hs, Tree.get?_put_self _ _ _ fun hq ↦ hn (List.append_eq_nil_iff.1 hq).2]
    · rw [if_neg hs, Tree.get?_put_of_ne _ _ _ fun hq ↦ hs (List.append_cancel_left hq)]
  -- no directory is overwritten, so the ways to both stay open
  refine ⟨h.isBroken, isDirectory_put h.isDirectory hr e, isDirectory_put h.isDirectory' hr' e,
    fun s ↦ ?_, fun s hs ↦ ?_⟩
  · change (w.tree.put (w.place p ++ r) e).get? (w.place p ++ s) =
      (w'.tree.put (w'.place p' ++ r) e).get? (w'.place p' ++ s)
    rw [hg, hg, h.get?]
  · change (w.tree.put (w.place p ++ r) e).get? (w.place p ++ s) ≠ none at hs
    rw [hg] at hs
    split at hs
    · rename_i he
      rw [he]
      exact ⟨hf, hf'⟩
    · exact h.fits s hs

theorem resolve (h : Mirrors p w p' w') (hu : Path.up ∉ names) (hf : (p'.join ⟨0, names⟩).Fits)
    (hr : w.resolve (p.join ⟨0, names⟩) = .ok (w.place p ++ names)) :
    w'.resolve (p'.join ⟨0, names⟩) = .ok (w'.place p' ++ names) := by
  obtain ⟨hus, -, hw⟩ := (resolve_join_iff h.isDirectory).1 hr
  refine (resolve_join_iff h.isDirectory').2 ⟨?_, hf, Tree.walk_of_mirrored h.get? hu hw⟩
  simpa only [IsUsable, h.isBroken_iff] using hus

theorem fits_of_resolve (hr : w.resolve (p.join ⟨0, names⟩) = .ok r) : (p.join ⟨0, names⟩).Fits :=
  (resolve_eq_ok_iff.1 hr).2.1

theorem makeDirectory (h : Mirrors p w p' w') (hu : Path.up ∉ names)
    (hf : (p'.join ⟨0, names⟩).Fits)
    (hm : (FileWork.makeDirectory (p.join ⟨0, names⟩)).run w = (.ok (), w₁)) :
    ∃ w₁', (FileWork.makeDirectory (p'.join ⟨0, names⟩)).run w' = (.ok (), w₁') ∧
      Mirrors p w₁ p' w₁' := by
  obtain ⟨hr, hg, rfl⟩ := FileWork.makeDirectory_eq_ok_iff.1 hm
  have hp : ∀ (u : Workspace) (d : Path), u.place (d.join ⟨0, names⟩) = u.place d ++ names :=
    fun u d ↦ place_join rfl hu
  rw [hp] at hr hg
  have hg' : w'.tree.get? (w'.place p' ++ names) = none := by
    rw [← h.get?]
    exact hg
  refine ⟨w'.put (w'.place p' ++ names) .directory, ?_, ?_⟩
  · rw [FileWork.makeDirectory_eq_ok_iff, hp]
    exact ⟨h.resolve hu hf hr, hg', rfl⟩
  · rw [hp]
    exact h.put (by simp [hg]) (fits_of_resolve hr) hf _

theorem ensureDirectory (h : Mirrors p w p' w') (hu : Path.up ∉ names)
    (hf : (p'.join ⟨0, names⟩).Fits)
    (hm : (FileWork.ensureDirectory (p.join ⟨0, names⟩)).run w = (.ok (), w₁)) :
    ∃ w₁', (FileWork.ensureDirectory (p'.join ⟨0, names⟩)).run w' = (.ok (), w₁') ∧
      Mirrors p w₁ p' w₁' := by
  rcases FileWork.ensureDirectory_eq_ok_iff.1 hm with ⟨hd, rfl⟩ | hm
  · refine ⟨w', FileWork.ensureDirectory_eq_ok_iff.2 (.inl ⟨?_, rfl⟩), h⟩
    obtain ⟨hr, hg⟩ := isDirectory_iff.1 hd
    rw [place_join rfl hu] at hr hg
    rw [isDirectory_iff, place_join rfl hu]
    refine ⟨h.resolve hu hf hr, ?_⟩
    exact (h.get? names).symm.trans hg
  · obtain ⟨w₁', hm', hw⟩ := h.makeDirectory hu hf hm
    exact ⟨w₁', FileWork.ensureDirectory_eq_ok_iff.2 (.inr hm'), hw⟩

theorem makeDirectories (h : Mirrors p w p' w') (hu : Path.up ∉ names)
    (hf : (p'.join ⟨0, names⟩).Fits)
    (hm : (FileWork.makeDirectories (p.join ⟨0, names⟩)).run w = (.ok (), w₁)) :
    ∃ w₁', (FileWork.makeDirectories (p'.join ⟨0, names⟩)).run w' = (.ok (), w₁') ∧
      Mirrors p w₁ p' w₁' := by
  induction names using List.reverseRecOn generalizing w₁ with
  | nil =>
    rw [Path.join_nil] at hm ⊢
    rw [FileWork.makeDirectories_of_isDirectory h.isDirectory] at hm
    cases hm
    exact ⟨w', FileWork.makeDirectories_of_isDirectory h.isDirectory', h⟩
  | append_singleton names name ih =>
    -- each directory is made in the one before it, and that one mirrors the other by induction
    have hn : ∀ d : Path, (d.join ⟨0, names ++ [name]⟩).parts ≠ [] := by simp [Path.join]
    obtain ⟨w₂, hp, he⟩ := (FileWork.makeDirectories_iff_parent (hn p)).1 hm
    have hu' : Path.up ∉ names := fun hm ↦ hu (List.mem_append_left _ hm)
    have hf' : (p'.join ⟨0, names⟩).Fits := by
      rw [← Path.parent_join_append_singleton]
      exact hf.parent
    rw [Path.parent_join_append_singleton] at hp
    obtain ⟨w₂', hp', h₂⟩ := ih hu' hf' hp
    obtain ⟨w₁', he', h₁⟩ := h₂.ensureDirectory hu hf he
    refine ⟨w₁', (FileWork.makeDirectories_iff_parent (hn p')).2 ⟨w₂', ?_, he'⟩, h₁⟩
    rw [Path.parent_join_append_singleton]
    exact hp'

theorem writeFile {c : FileContent} (h : Mirrors p w p' w') (hu : Path.up ∉ names)
    (hf : (p'.join ⟨0, names⟩).Fits)
    (hm : (FileWork.writeFile (p.join ⟨0, names⟩) c).run w = (.ok (), w₁)) :
    ∃ w₁', (FileWork.writeFile (p'.join ⟨0, names⟩) c).run w' = (.ok (), w₁') ∧
      Mirrors p w₁ p' w₁' := by
  obtain ⟨hr, hg, rfl⟩ := FileWork.writeFile_eq_ok_iff.1 hm
  have hp : ∀ (u : Workspace) (d : Path), u.place (d.join ⟨0, names⟩) = u.place d ++ names :=
    fun u d ↦ place_join rfl hu
  rw [hp] at hr hg
  have hg' : w'.tree.get? (w'.place p' ++ names) ≠ some .directory := by
    rw [← h.get?]
    exact hg
  refine ⟨w'.put (w'.place p' ++ names) (.file c), ?_, ?_⟩
  · rw [FileWork.writeFile_eq_ok_iff, hp]
    exact ⟨h.resolve hu hf hr, hg', rfl⟩
  · rw [hp]
    exact h.put hg (fits_of_resolve hr) hf _

theorem writeText {t : Text} (h : Mirrors p w p' w') (hn : names ≠ []) (hu : Path.up ∉ names)
    (hf : (p'.join ⟨0, names⟩).Fits)
    (hm : (FileWork.writeText (p.join ⟨0, names⟩) t).run w = (.ok (), w₁)) :
    ∃ w₁', (FileWork.writeText (p'.join ⟨0, names⟩) t).run w' = (.ok (), w₁') ∧
      Mirrors p w₁ p' w₁' := by
  obtain ⟨names, name, rfl⟩ : ∃ first last, names = first ++ [last] :=
    ⟨_, _, (List.dropLast_append_getLast hn).symm⟩
  have hu' : Path.up ∉ names := fun hm ↦ hu (List.mem_append_left _ hm)
  have hf' : (p'.join ⟨0, names⟩).Fits := by
    rw [← Path.parent_join_append_singleton]
    exact hf.parent
  have hh : ∀ {d : Path} {u : Workspace}, u.isDirectory d = true →
      (d.join ⟨0, names ++ [name]⟩).parent = Path.here → u.isDirectory Path.here = true := by
    intro d u hd he
    rw [Path.parent_join_append_singleton] at he
    rw [← Path.eq_here_of_join he]
    exact hd
  obtain ⟨hb, w₂, hm, hw⟩ := (FileWork.writeText_eq_ok_iff (hh h.isDirectory)).1 hm
  rw [Path.parent_join_append_singleton] at hm
  obtain ⟨w₂', hm', h₂⟩ := h.makeDirectories hu' hf' hm
  obtain ⟨w₁', hw', h₁⟩ := h₂.writeFile hu hf hw
  refine ⟨w₁', (FileWork.writeText_eq_ok_iff (hh h.isDirectory')).2 ⟨?_, w₂', ?_, hw'⟩, h₁⟩
  · rwa [← h.isBroken_iff]
  · rw [Path.parent_join_append_singleton]
    exact hm'

theorem writeTexts {xs : List (Place × Text)} (h : Mirrors p w p' w')
    (hx : ∀ x ∈ xs, x.1 ≠ [] ∧ Path.up ∉ x.1 ∧ (p'.join ⟨0, x.1⟩).Fits)
    (hm : (FileWork.writeTexts p xs).run w = (.ok (), w₁)) :
    ∃ w₁', (FileWork.writeTexts p' xs).run w' = (.ok (), w₁') ∧ Mirrors p w₁ p' w₁' := by
  induction xs generalizing w w' with
  | nil =>
    cases hm
    exact ⟨w', rfl, h⟩
  | cons x xs ih =>
    rw [List.forall_mem_cons] at hx
    obtain ⟨⟨hn, hu, hf⟩, hx⟩ := hx
    obtain ⟨w₂, hw, hm⟩ := FileWork.writeTexts_cons_iff.1 hm
    obtain ⟨w₂', hw', h₂⟩ := h.writeText hn hu hf hw
    obtain ⟨w₁', hm', h₁⟩ := ih h₂ hx hm
    exact ⟨w₁', FileWork.writeTexts_cons_iff.2 ⟨w₂', hw', hm'⟩, h₁⟩

end Mirrors

end TreeMarkup
