import Mathlib.Data.List.Induction
import TreeMarkup.Proofs.FileTrees

namespace TreeMarkup

namespace Tree

variable {t t' : Tree} {start q : Place} {names : List Text}

def waypoints (start : Place) : List Text → List Place
  | [] => [start]
  | name :: names => start :: waypoints (step start name) names

theorem start_mem_waypoints (start : Place) (names : List Text) : start ∈ waypoints start names := by
  cases names <;> simp [waypoints]

theorem waypoints_append_singleton (start : Place) (names : List Text) (name : Text) :
    waypoints start (names ++ [name]) =
      waypoints start names ++ [step (names.foldl step start) name] := by
  induction names generalizing start with
  | nil => rfl
  | cons n names ih => simp only [List.cons_append, waypoints, ih, List.foldl_cons]

theorem end_mem_waypoints (start : Place) (names : List Text) :
    names.foldl step start ∈ waypoints start names := by
  induction names generalizing start with
  | nil => simp [waypoints]
  | cons n names ih => exact List.mem_cons_of_mem _ (ih _)

theorem walk_append (t : Tree) (start : Place) (first rest : List Text) :
    t.walk start (first ++ rest) = (t.walk start first).bind fun q ↦ t.walk q rest := by
  induction first generalizing start with
  | nil => rfl
  | cons name first ih =>
    rw [List.cons_append, walk, walk]
    split
    · rfl
    · rfl
    · split
      · rfl
      · exact ih _

theorem walk_congr (h : ∀ q ∈ waypoints start names, t.get? q = t'.get? q) :
    t.walk start names = t'.walk start names := by
  induction names generalizing start with
  | nil => rfl
  | cons name names ih =>
    rw [waypoints, List.forall_mem_cons] at h
    rw [walk, walk, h.1, ih h.2]

theorem get?_of_mem_waypoints (h : t.walk start names = .ok q) {r : Place}
    (hr : r ∈ waypoints start names) : t.get? r = some .directory ∨ r = q := by
  induction names generalizing start with
  | nil =>
    cases h
    exact .inr (List.mem_singleton.1 hr)
  | cons name names ih =>
    rw [walk] at h
    split at h
    · cases h
    · cases h
    · rename_i hd
      split at h
      · cases h
      · rcases List.mem_cons.1 hr with rfl | hr
        · exact .inl hd
        · exact ih h hr

/-- A way leads into a directory from outside only by way of the directory itself. -/
theorem not_prefix_of_mem_waypoints {d : Place} (hs : ¬d <+: start)
    (hd : d ∉ waypoints start names) : ∀ r ∈ waypoints start names, ¬d <+: r := by
  induction names generalizing start with
  | nil => simpa [waypoints] using hs
  | cons name names ih =>
    rw [waypoints, List.mem_cons, not_or] at hd
    rw [waypoints, List.forall_mem_cons]
    refine ⟨hs, ih ?_ hd.2⟩
    intro hp
    rw [step] at hp
    split at hp
    · exact hs (hp.trans (List.dropLast_prefix start))
    · rename_i hn
      rcases List.prefix_concat_iff.1 hp with he | hp
      · obtain rfl : d = step start name := by rw [he, step, if_neg hn]
        exact hd.2 (start_mem_waypoints _ _)
      · exact hs hp

theorem get?_of_mem_entries (hd : t.IsDistinct) {e : Entry} (hq : q ≠ []) (h : (q, e) ∈ t.entries) :
    t.get? q = some e := by
  rw [get?_of_ne_nil _ hq]
  unfold IsDistinct at hd
  generalize t.entries = es at hd h
  induction es with
  | nil => cases h
  | cons x es ih =>
    rw [List.map_cons, List.nodup_cons] at hd
    rw [List.find?_cons]
    rcases List.mem_cons.1 h with rfl | h
    · simp
    · have hx : ¬x.1 = q := by
        rintro rfl
        exact hd.1 (List.mem_map.2 ⟨_, h, rfl⟩)
      simpa only [hx, decide_false] using ih hd.2 h

theorem get?_of_mem_below (hd : t.IsDistinct) {p r : Place} {e : Entry} (h : (r, e) ∈ t.below p) :
    r ≠ [] ∧ t.get? (p ++ r) = some e := by
  obtain ⟨⟨q, e'⟩, hm, he⟩ := List.mem_map.1 h
  obtain ⟨hm, hb⟩ := List.mem_filter.1 hm
  obtain ⟨r', hr, rfl⟩ := (isBelow_iff _ _).1 hb
  simp only [Prod.mk.injEq, List.drop_left] at he
  obtain ⟨rfl, rfl⟩ := he
  exact ⟨hr, get?_of_mem_entries hd (fun hn ↦ hr (List.append_eq_nil_iff.1 hn).2) hm⟩

end Tree

namespace Workspace

/-- The places that a path comes through, from where it starts to where it leads. -/
def waypoints (w : Workspace) (p : Path) : List Place := Tree.waypoints (w.origin p) p.parts

/-- Every entry stands in a directory, and the current directory is one. -/
structure IsSound (w : Workspace) : Prop where
  get?_dropLast : ∀ x ∈ w.tree.entries, w.tree.get? x.1.dropLast = some .directory
  get?_current : w.tree.get? w.current = some .directory

variable {w w' : Workspace} {p : Path} {q : Place}

theorem any_isDirectory_iff {o : Option Entry} :
    o.any Entry.isDirectory = true ↔ o = some .directory := by
  cases o with
  | none => simp
  | some e => cases e <;> simp [Entry.isDirectory]

instance (w : Workspace) : Decidable w.IsSound :=
  decidable_of_iff ((∀ x ∈ w.tree.entries, (w.tree.get? x.1.dropLast).any Entry.isDirectory = true) ∧
    (w.tree.get? w.current).any Entry.isDirectory = true) <| by
      simp only [any_isDirectory_iff]
      exact ⟨fun h ↦ ⟨h.1, h.2⟩, fun h ↦ ⟨h.1, h.2⟩⟩

namespace IsSound

theorem get?_origin (h : w.IsSound) (p : Path) : w.tree.get? (w.origin p) = some .directory := by
  unfold origin
  split
  · exact h.get?_current
  · rfl

theorem get?_of_append (h : w.IsSound) {r : Place} (hr : r ≠ []) {e : Entry}
    (he : w.tree.get? (q ++ r) = some e) : w.tree.get? q = some .directory := by
  induction r using List.reverseRecOn generalizing e with
  | nil => exact absurd rfl hr
  | append_singleton r name ih =>
    have hn : q ++ (r ++ [name]) ≠ [] := by simp
    have hd := h.get?_dropLast _ (Tree.mem_entries_of_get? hn he)
    rw [← List.append_assoc, List.dropLast_concat] at hd
    by_cases hr : r = []
    · rwa [hr, List.append_nil] at hd
    · exact ih hr hd

theorem get?_append_of_none (h : w.IsSound) (hq : w.tree.get? q = none) (r : Place) :
    w.tree.get? (q ++ r) = none := by
  by_cases hr : r = []
  · rwa [hr, List.append_nil]
  · cases he : w.tree.get? (q ++ r) with
    | none => rfl
    | some e =>
      rw [h.get?_of_append hr he] at hq
      cases hq

theorem not_prefix_origin (h : w.IsSound) (hq : w.tree.get? q = none) (p : Path) :
    ¬q <+: w.origin p := by
  rintro ⟨r, hr⟩
  have hn := h.get?_append_of_none hq r
  rw [hr, h.get?_origin] at hn
  cases hn

end IsSound

theorem waypoints_congr (h : w'.toStandpoint = w.toStandpoint) (p : Path) :
    w'.waypoints p = w.waypoints p := by
  rw [waypoints, waypoints, origin_congr h]

theorem place_mem_waypoints (w : Workspace) (p : Path) : w.place p ∈ w.waypoints p :=
  Tree.end_mem_waypoints _ _

theorem resolve_congr (hs : w'.toStandpoint = w.toStandpoint)
    (h : ∀ q ∈ w.waypoints p, w'.tree.get? q = w.tree.get? q) : w'.resolve p = w.resolve p := by
  have hw : w'.tree.walk (w.origin p) p.parts = w.tree.walk (w.origin p) p.parts :=
    (Tree.walk_congr fun q hq ↦ (h q hq).symm).symm
  simp only [resolve, isBroken_congr hs, origin_congr hs, hw]

theorem read_congr (hs : w'.toStandpoint = w.toStandpoint)
    (h : ∀ q ∈ w.waypoints p, w'.tree.get? q = w.tree.get? q) : w'.read p = w.read p := by
  have hl : w'.lookup p = w.lookup p := by
    rw [lookup, lookup, resolve_congr hs h]
    cases hr : w.resolve p with
    | error e => rfl
    | ok q =>
      have hq : w'.tree.get? q = w.tree.get? q := by
        rw [resolve_eq_place hr]
        exact h _ (place_mem_waypoints w p)
      simp only [bind, Except.bind, hq]
  rw [read, read, hl]

theorem isDirectory_iff : w.isDirectory p = true ↔
    w.resolve p = .ok (w.place p) ∧ w.tree.get? (w.place p) = some .directory := by
  unfold isDirectory lookup
  cases hr : w.resolve p with
  | error e => simp [bind, Except.bind]
  | ok q =>
    rw [resolve_eq_place hr]
    simp only [bind, Except.bind, true_and]
    cases w.tree.get? (w.place p) with
    | none => simp
    | some e => cases e <;> simp [Entry.isDirectory]

theorem pathExists_iff : w.pathExists p = true ↔
    w.resolve p = .ok (w.place p) ∧ w.tree.get? (w.place p) ≠ none := by
  unfold pathExists lookup
  cases hr : w.resolve p with
  | error e => simp [bind, Except.bind]
  | ok q =>
    rw [resolve_eq_place hr]
    simp only [bind, Except.bind, true_and]
    cases w.tree.get? (w.place p) <;> simp

theorem get?_of_mem_waypoints (h : w.isDirectory p = true) (hq : q ∈ w.waypoints p) :
    w.tree.get? q = some .directory := by
  obtain ⟨hr, hd⟩ := isDirectory_iff.1 h
  rcases Tree.get?_of_mem_waypoints (resolve_eq_ok_iff.1 hr).2.2 hq with hg | rfl
  · exact hg
  · exact hd

end Workspace

end TreeMarkup
