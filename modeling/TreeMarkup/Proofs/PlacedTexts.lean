import TreeMarkup.Proofs.MirroredWrites

namespace TreeMarkup

namespace Workspace

variable {w : Workspace} {p : Path}

/-- Nothing is where a path leads, and the path does not come through there before its end. -/
structure IsFree (w : Workspace) (p : Path) : Prop where
  isSound : w.IsSound
  get?_place : w.tree.get? (w.place p) = none
  not_mem : w.place p ∉ w.waypoints p.parent

instance (w : Workspace) (p : Path) : Decidable (w.IsFree p) :=
  decidable_of_iff (w.IsSound ∧ w.tree.get? (w.place p) = none ∧ w.place p ∉ w.waypoints p.parent)
    ⟨fun h ↦ ⟨h.1, h.2.1, h.2.2⟩, fun h ↦ ⟨h.isSound, h.get?_place, h.not_mem⟩⟩

theorem isDirectory_here (h : w.tree.get? w.current = some .directory) :
    w.isDirectory Path.here = true := by
  have hf : Path.here.Fits := by
    show _ ≤ _
    decide
  refine isDirectory_iff.2 ⟨resolve_eq_ok_iff.2 ⟨?_, hf, rfl⟩, h⟩
  exact fun name hm ↦ (List.not_mem_nil hm).elim

end Workspace

namespace FileWork

variable {w w' w₁ : Workspace} {p : Path} {xs : List (Place × Text)}

open Workspace

theorem isDirectory_of_writeText {q : Path} {t : Text} (h : (writeText q t).run w = (.ok (), w'))
    (hd : w.isDirectory p = true) : w'.isDirectory p = true := by
  obtain ⟨ha, -, hg⟩ := writesText_of_ok h
  exact isDirectory_put (isDirectory_of_addsDirectories ha hd) hg _

theorem isDistinct_writeTexts (h : (writeTexts p xs).run w = (.ok (), w'))
    (hd : w.tree.IsDistinct) : w'.tree.IsDistinct := by
  induction xs generalizing w with
  | nil =>
    cases h
    exact hd
  | cons x xs ih =>
    obtain ⟨w₁, hw, h⟩ := writeTexts_cons_iff.1 h
    exact ih h ((writesText_of_ok hw).isDistinct hd)

theorem standpoint_writeTexts (h : (writeTexts p xs).run w = (.ok (), w')) :
    w'.toStandpoint = w.toStandpoint := by
  induction xs generalizing w with
  | nil =>
    cases h
    rfl
  | cons x xs ih =>
    obtain ⟨w₁, hw, h⟩ := writeTexts_cons_iff.1 h
    exact (ih h).trans (writesText_of_ok hw).standpoint

theorem isSome_fileAt_of_writeTexts {q : Place} (hq : (w.fileAt q).isSome)
    (h : (writeTexts p xs).run w = (.ok (), w')) : (w'.fileAt q).isSome := by
  induction xs generalizing w with
  | nil =>
    cases h
    exact hq
  | cons x xs ih =>
    obtain ⟨w₁, hw, h⟩ := writeTexts_cons_iff.1 h
    refine ih ?_ h
    have ht := writesText_of_ok hw
    by_cases he : q = w.place (p.join ⟨0, x.1⟩)
    · rw [he, ht.fileAt_place]
      rfl
    · rwa [ht.fileAt_of_ne q he]

theorem exists_fileAt_of_writeTexts (hx : ∀ x ∈ xs, Path.up ∉ x.1)
    (h : (writeTexts p xs).run w = (.ok (), w')) :
    ∀ x ∈ xs, ∃ c, w'.fileAt (w.place p ++ x.1) = some c := by
  induction xs generalizing w with
  | nil => exact fun x hm ↦ (List.not_mem_nil hm).elim
  | cons x xs ih =>
    rw [List.forall_mem_cons] at hx
    obtain ⟨w₁, hw, h⟩ := writeTexts_cons_iff.1 h
    have ht := writesText_of_ok hw
    rw [List.forall_mem_cons]
    constructor
    · refine Option.isSome_iff_exists.1 (isSome_fileAt_of_writeTexts ?_ h)
      rw [← place_join (r := ⟨0, x.1⟩) rfl hx.1, ht.fileAt_place]
      rfl
    · rw [← ht.place p]
      exact ih hx.2 h

theorem staysInside_writeTexts (hx : ∀ x ∈ xs, Path.up ∉ x.1)
    (hh : w.isDirectory Path.here = true) (h : (writeTexts p xs).run w = (.ok (), w')) :
    StaysInside p w w' := by
  induction xs generalizing w with
  | nil =>
    cases h
    exact .refl p _
  | cons x xs ih =>
    rw [List.forall_mem_cons] at hx
    obtain ⟨w₁, hw, h⟩ := writeTexts_cons_iff.1 h
    exact (staysInside_writeText hx.1 hh hw).trans
      (ih hx.2 (isDirectory_of_writeText hw hh) h)

theorem writeTexts_iff_makeDirectories (hn : xs ≠ []) (hx : ∀ x ∈ xs, x.1 ≠ [])
    (hh : w.isDirectory Path.here = true) :
    (writeTexts p xs).run w = (.ok (), w') ↔
      ∃ w₁, (makeDirectories p).run w = (.ok (), w₁) ∧
        (writeTexts p xs).run w₁ = (.ok (), w') := by
  obtain ⟨x, xs, rfl⟩ := List.exists_cons_of_ne_nil hn
  have hx' := hx x List.mem_cons_self
  constructor
  · intro h
    obtain ⟨w₂, hw, h⟩ := writeTexts_cons_iff.1 h
    obtain ⟨w₁, hm, hw⟩ := (writeText_iff_makeDirectories hx' hh).1 hw
    exact ⟨w₁, hm, writeTexts_cons_iff.2 ⟨w₂, hw, h⟩⟩
  · rintro ⟨w₁, hm, h⟩
    obtain ⟨w₂, hw, h⟩ := writeTexts_cons_iff.1 h
    have hw := (writeText_iff_makeDirectories hx' hh).2 ⟨w₁, hm, hw⟩
    exact writeTexts_cons_iff.2 ⟨w₂, hw, h⟩

theorem get?_append_of_makeDirectories (hf : w.IsFree p)
    (h : (makeDirectories p).run w = (.ok (), w₁)) {r : Place} (hr : r ≠ []) :
    w₁.tree.get? (w₁.place p ++ r) = none := by
  obtain ⟨hs, hg, hq⟩ := hf
  have ha := (steps_makeDirectories p).of_run h
  rw [ha.place]
  have hp : p.parts ≠ [] := by
    intro hp
    have ho := hs.get?_origin p
    rw [place, hp] at hg
    rw [show w.tree.get? (w.origin p) = none from hg] at ho
    cases ho
  -- the way to the directory never enters it, so all that it makes is outside
  have hm : w.place p ++ r ∉ w.waypoints p := by
    rw [waypoints_eq_append hp, List.mem_append, List.mem_singleton, not_or]
    refine ⟨fun hm ↦ ?_, fun he ↦ hr (List.append_right_eq_self.1 he)⟩
    refine Tree.not_prefix_of_mem_waypoints ?_ hq _ hm (List.prefix_append _ _)
    exact hs.not_prefix_origin hg p.parent
  rw [get?_of_makeDirectories h hm]
  exact hs.get?_append_of_none hg r

end FileWork

open Workspace FileWork

theorem Mirrors.fileAt_eq {p p' : Path} {w w₀ u : Workspace} (h : Mirrors p w p' u)
    (hs : StaysInside p w₀ w) (hd : w₀.isDirectory p = true)
    (he : ∀ r, r ≠ [] → w₀.tree.get? (w₀.place p ++ r) = none) (hu : u.tree.IsDistinct) (q : Place) :
    ((u.tree.below (u.place p')).foldl (fun w e ↦ w.put (w₀.place p ++ e.1) e.2) w₀).fileAt q =
      w.fileAt q := by
  have hp : w.place p = w₀.place p := place_congr hs.standpoint p
  refine fileAt_congr ?_
  rw [tree_foldl_put]
  -- below the directory the entries decide, and elsewhere nothing has changed since it was made
  by_cases hq : w₀.place p <+: q
  · obtain ⟨r, rfl⟩ := hq
    have hm : w.tree.get? (w₀.place p ++ r) = u.tree.get? (u.place p' ++ r) := by
      rw [← hp]
      exact h.get? r
    by_cases hr : ∃ e, (r, e) ∈ u.tree.below (u.place p')
    · obtain ⟨e, hr⟩ := hr
      obtain ⟨hn, hg⟩ := Tree.get?_of_mem_below hu hr
      have hne : w₀.place p ++ r ≠ [] := fun h ↦ hn (List.append_eq_nil_iff.1 h).2
      rw [Tree.get?_foldl_put _ (Tree.nodup_below _ _ hu) _ hr hne, hm, hg]
    · rw [Tree.get?_foldl_put_of_not_mem, hm]
      · by_cases hn : r = []
        · rw [hn, List.append_nil, List.append_nil, (isDirectory_iff.1 hd).2,
            (isDirectory_iff.1 h.isDirectory').2]
        · rw [he r hn]
          cases hg : u.tree.get? (u.place p' ++ r) with
          | none => rfl
          | some e => exact absurd ⟨e, Tree.mem_below hn hg⟩ hr
      · intro x hx hxr
        rw [List.append_cancel_left hxr] at hr
        exact hr ⟨x.2, hx⟩
  · rw [Tree.get?_foldl_put_of_not_mem]
    · refine (hs.get? q ⟨hq, fun hm ↦ ?_⟩).symm
      rw [get?_of_mem_waypoints hd hm]
      exact Option.some_ne_none _
    · rintro x - rfl
      exact hq (List.prefix_append _ _)

section

variable {w w' w₀ v u u₀ : Workspace} {p p' : Path} {xs : List (Place × Text)}

theorem mirrors_of_makeDirectories (hb : w.isBroken = v.isBroken) (h : w.IsFree p) (h' : v.IsFree p')
    (hm : (makeDirectories p).run w = (.ok (), w₀))
    (hm' : (makeDirectories p').run v = (.ok (), u₀)) : Mirrors p w₀ p' u₀ := by
  have hd := isDirectory_of_makeDirectories hm
  have hd' := isDirectory_of_makeDirectories hm'
  have hs := ((steps_makeDirectories p).of_run hm).standpoint
  have hs' := ((steps_makeDirectories p').of_run hm').standpoint
  refine ⟨by rw [hs, hs', hb], hd, hd', fun r ↦ ?_, fun r hr ↦ ?_⟩
  · by_cases hr : r = []
    · rw [hr, List.append_nil, List.append_nil, (isDirectory_iff.1 hd).2, (isDirectory_iff.1 hd').2]
    · rw [get?_append_of_makeDirectories h hm hr, get?_append_of_makeDirectories h' hm' hr]
  · have hn : r = [] := by
      by_contra hn
      exact hr (get?_append_of_makeDirectories h hm hn)
    rw [hn, Path.join_nil, Path.join_nil]
    exact ⟨(resolve_eq_ok_iff.1 (isDirectory_iff.1 hd).1).2.1,
      (resolve_eq_ok_iff.1 (isDirectory_iff.1 hd').1).2.1⟩

theorem exists_writeTexts (hb : w.isBroken = v.isBroken) (h : w.IsFree p) (h' : v.IsFree p')
    (hm : (makeDirectories p).run w = (.ok (), w₀))
    (hm' : (makeDirectories p').run v = (.ok (), u₀)) (hn : xs ≠ [])
    (hx : ∀ x ∈ xs, x.1 ≠ [] ∧ Path.up ∉ x.1 ∧ (p'.join ⟨0, x.1⟩).Fits)
    (ht : (writeTexts p xs).run w = (.ok (), w')) :
    ∃ u, (writeTexts p' xs).run v = (.ok (), u) ∧ Mirrors p w' p' u := by
  have hne : ∀ x ∈ xs, x.1 ≠ [] := fun x hm ↦ (hx x hm).1
  have hh := isDirectory_here h.isSound.get?_current
  have hh' := isDirectory_here h'.isSound.get?_current
  obtain ⟨w₁, hw₁, ht⟩ := (writeTexts_iff_makeDirectories hn hne hh).1 ht
  rw [hm] at hw₁
  cases hw₁
  obtain ⟨u, hu, hmirror⟩ := (mirrors_of_makeDirectories hb h h' hm hm').writeTexts hx ht
  exact ⟨u, (writeTexts_iff_makeDirectories hn hne hh').2 ⟨u₀, hm', hu⟩, hmirror⟩

theorem fileAt_of_placed (h : w.IsFree p) (hm : (makeDirectories p).run w = (.ok (), w₀))
    (hn : xs ≠ []) (hx : ∀ x ∈ xs, x.1 ≠ [] ∧ Path.up ∉ x.1)
    (ht : (writeTexts p xs).run w = (.ok (), w')) (hmirror : Mirrors p w' p' u)
    (hu : u.tree.IsDistinct) (q : Place) :
    ((u.tree.below (u.place p')).foldl (fun w e ↦ w.put (w₀.place p ++ e.1) e.2) w₀).fileAt q =
      w'.fileAt q := by
  have hh := isDirectory_here h.isSound.get?_current
  obtain ⟨w₁, hw₁, ht⟩ := (writeTexts_iff_makeDirectories hn (fun x hm ↦ (hx x hm).1) hh).1 ht
  rw [hm] at hw₁
  cases hw₁
  have ha := (steps_makeDirectories p).of_run hm
  have hs := staysInside_writeTexts (fun x hm ↦ (hx x hm).2) (isDirectory_of_addsDirectories ha hh) ht
  exact hmirror.fileAt_eq hs (isDirectory_of_makeDirectories hm)
    (fun r hr ↦ get?_append_of_makeDirectories h hm hr) hu q

/-- If what was written below one new directory can be put below another, it can be written there,
with the same outcome. -/
theorem exists_written_of_placed (hb : w.isBroken = v.isBroken) (hs : w.IsSound) (h' : v.IsFree p')
    (hn : xs ≠ []) (hx : ∀ x ∈ xs, x.1 ≠ [] ∧ Path.up ∉ x.1)
    (ht : (writeTexts p' xs).run v = (.ok (), u)) (hu : u.tree.IsDistinct)
    (hp : (placeTree p (u.tree.below (u.place p'))).run w = (.ok (), w')) :
    ∃ w₁, (writeTexts p xs).run w = (.ok (), w₁) ∧ ∀ q, w'.fileAt q = w₁.fileAt q := by
  obtain ⟨w₀, hm, hf, rfl⟩ := placeTree_eq_ok_iff.1 hp
  obtain ⟨hg, hq, hm⟩ := (makeNewDirectory_iff_makeDirectories (hs.get?_origin p)).1 hm
  have h : w.IsFree p := ⟨hs, hg, hq⟩
  have hh' := isDirectory_here h'.isSound.get?_current
  obtain ⟨u₀, hm', -⟩ :=
    (writeTexts_iff_makeDirectories hn (fun x hm ↦ (hx x hm).1) hh').1 ht
  have hx' : ∀ x ∈ xs, x.1 ≠ [] ∧ Path.up ∉ x.1 ∧ (p.join ⟨0, x.1⟩).Fits := by
    intro x hm
    obtain ⟨c, hc⟩ := exists_fileAt_of_writeTexts (fun x hm ↦ (hx x hm).2) ht x hm
    rw [← place_congr (standpoint_writeTexts ht)] at hc
    exact ⟨(hx x hm).1, (hx x hm).2, hf _ (Tree.mem_below (hx x hm).1 (fileAt_eq_some.1 hc))⟩
  obtain ⟨w₁, hw₁, hmirror⟩ := exists_writeTexts hb.symm h' h hm' hm hn hx' ht
  refine ⟨w₁, hw₁, fun q ↦ ?_⟩
  rw [← ((steps_makeDirectories p).of_run hm).place p]
  exact fileAt_of_placed h hm hn hx hw₁ hmirror.symm hu q

/-- What can be written below one new directory can be written below another and put below the first
from there, with the same outcome. -/
theorem exists_placed_of_written (hb : w.isBroken = v.isBroken) (h : w.IsFree p) (h' : v.IsFree p')
    (hd : v.tree.IsDistinct) (hm' : (makeDirectories p').run v = (.ok (), u₀)) (hn : xs ≠ [])
    (hx : ∀ x ∈ xs, x.1 ≠ [] ∧ Path.up ∉ x.1 ∧ (p'.join ⟨0, x.1⟩).Fits)
    (ht : (writeTexts p xs).run w = (.ok (), w')) :
    ∃ u w₁, (writeTexts p' xs).run v = (.ok (), u) ∧
      (placeTree p (u.tree.below (u.place p'))).run w = (.ok (), w₁) ∧
      ∀ q, w₁.fileAt q = w'.fileAt q := by
  have hh := isDirectory_here h.isSound.get?_current
  obtain ⟨w₀, hm, -⟩ := (writeTexts_iff_makeDirectories hn (fun x hm ↦ (hx x hm).1) hh).1 ht
  obtain ⟨u, hu, hmirror⟩ := exists_writeTexts hb h h' hm hm' hn hx ht
  have hdu : u.tree.IsDistinct := isDistinct_writeTexts hu hd
  refine ⟨u, _, hu, placeTree_eq_ok_iff.2 ⟨w₀, ?_, fun e he ↦ ?_, rfl⟩, fun q ↦ ?_⟩
  · refine (makeNewDirectory_iff_makeDirectories (h.isSound.get?_origin p)).2 ?_
    exact ⟨h.get?_place, h.not_mem, hm⟩
  · refine (hmirror.symm.fits e.1 ?_).2
    rw [(Tree.get?_of_mem_below hdu he).2]
    exact Option.some_ne_none _
  · rw [← ((steps_makeDirectories p).of_run hm).place p]
    exact fileAt_of_placed h hm hn (fun x hm ↦ ⟨(hx x hm).1, (hx x hm).2.1⟩) ht hmirror hdu q

end

end TreeMarkup
