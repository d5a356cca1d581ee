import Mathlib.Data.List.Nodup
import TreeMarkup.Files.Workspace

namespace TreeMarkup

namespace Tree

variable (t : Tree) (p q : Place) (e : Entry)

theorem get?_of_ne_nil {q : Place} (hq : q ≠ []) :
    t.get? q = (t.entries.find? fun e ↦ e.1 = q).map Prod.snd := if_neg hq

theorem find?_replace_of_ne (hq : q ≠ p) (es : List (Place × Entry)) :
    ((es.map fun x ↦ if x.1 = p then (p, e) else x).find? fun x ↦ x.1 = q).map Prod.snd =
      (es.find? fun x ↦ x.1 = q).map Prod.snd := by
  induction es with
  | nil => rfl
  | cons x es ih =>
    rw [List.map_cons, List.find?_cons, List.find?_cons]
    by_cases hx : x.1 = p
    · have hp : ¬p = q := fun h ↦ hq h.symm
      rw [if_pos hx, hx]
      simpa only [hp, decide_false] using ih
    · rw [if_neg hx]
      by_cases hxq : x.1 = q
      · simp only [hxq, decide_true]
      · simpa only [hxq, decide_false] using ih

theorem find?_replace_self {es : List (Place × Entry)} (h : ∃ x ∈ es, x.1 = p) :
    ((es.map fun x ↦ if x.1 = p then (p, e) else x).find? fun x ↦ x.1 = p).map Prod.snd =
      some e := by
  induction es with
  | nil => simp at h
  | cons x es ih =>
    rw [List.map_cons, List.find?_cons]
    by_cases hx : x.1 = p
    · simp only [if_pos hx, decide_true, Option.map_some]
    · have hs : ∃ x ∈ es, x.1 = p := by simpa [hx] using h
      rw [if_neg hx]
      simpa only [hx, decide_false] using ih hs

theorem get?_put_self (hp : p ≠ []) : (t.put p e).get? p = some e := by
  rw [get?_of_ne_nil _ hp, put]
  by_cases ha : (t.entries.any fun x ↦ x.1 = p) = true
  · rw [if_pos ha]
    refine find?_replace_self p e ?_
    simpa only [List.any_eq_true, decide_eq_true_eq] using ha
  · rw [if_neg ha, List.find?_append]
    have hn : t.entries.find? (fun x ↦ x.1 = p) = none := by
      rw [List.find?_eq_none]
      intro x hx hp
      exact ha (List.any_eq_true.2 ⟨x, hx, hp⟩)
    rw [hn]
    simp

theorem get?_put_of_ne {q : Place} (hq : q ≠ p) : (t.put p e).get? q = t.get? q := by
  by_cases hn : q = []
  · subst hn
    rfl
  rw [get?_of_ne_nil _ hn, get?_of_ne_nil _ hn, put]
  split
  · exact find?_replace_of_ne p q e hq t.entries
  · have hp : ¬p = q := fun h ↦ hq h.symm
    simp [List.find?_append, hp]

theorem get?_filter (f : Place → Bool) (hq : q ≠ []) :
    (Tree.mk (t.entries.filter fun x ↦ f x.1)).get? q = if f q then t.get? q else none := by
  rw [get?_of_ne_nil _ hq, get?_of_ne_nil _ hq]
  induction t.entries with
  | nil => simp
  | cons x es ih =>
    rw [List.filter_cons, List.find?_cons]
    by_cases hx : x.1 = q
    · by_cases hf : f q = true
      · simp [hx, hf]
      · simpa [hx, hf] using ih
    · by_cases hf : f x.1 = true
      · simpa [hx, hf] using ih
      · simpa [hx, hf] using ih

theorem get?_erase (hq : q ≠ []) :
    (t.erase p).get? q = if q = p then none else t.get? q := by
  have h := get?_filter t q (fun x ↦ decide (x ≠ p)) hq
  rw [erase, h]
  by_cases hp : q = p <;> simp [hp]

theorem isBelow_nil : isBelow p [] = false := by
  cases p <;> rfl

theorem get?_eraseBelow :
    (t.eraseBelow p).get? q = if isBelow p q then none else t.get? q := by
  by_cases hq : q = []
  · subst hq
    rw [isBelow_nil]
    rfl
  · rw [eraseBelow, get?_filter t q (fun x ↦ !isBelow p x) hq]
    by_cases hb : isBelow p q = true <;> simp [hb]

theorem isBelow_iff : isBelow p q = true ↔ ∃ r, r ≠ [] ∧ q = p ++ r := by
  rw [isBelow, Bool.and_eq_true, List.isPrefixOf_iff_prefix, decide_eq_true_eq]
  constructor
  · rintro ⟨⟨r, rfl⟩, hne⟩
    refine ⟨r, ?_, rfl⟩
    rintro rfl
    exact hne (List.append_nil p).symm
  · rintro ⟨r, hr, rfl⟩
    refine ⟨List.prefix_append p r, fun h ↦ hr ?_⟩
    exact List.self_eq_append_right.1 h

/-- A tree that is an entry for each of its places. -/
def IsDistinct : Prop := (t.entries.map Prod.fst).Nodup

theorem isDistinct_put (h : t.IsDistinct) : (t.put p e).IsDistinct := by
  unfold put
  split
  · have hm : (t.entries.map fun x ↦ if x.1 = p then (p, e) else x).map Prod.fst =
        t.entries.map Prod.fst := by
      rw [List.map_map]
      refine List.map_congr_left fun x _ ↦ ?_
      by_cases hx : x.1 = p <;> simp [hx]
    rw [IsDistinct, hm]
    exact h
  · rename_i ha
    have hp : p ∉ t.entries.map Prod.fst := by
      intro hm
      obtain ⟨x, hx, hp⟩ := List.mem_map.1 hm
      exact ha (List.any_eq_true.2 ⟨x, hx, decide_eq_true hp⟩)
    rw [IsDistinct, List.map_append]
    refine List.nodup_append.2 ⟨h, List.nodup_singleton p, ?_⟩
    intro a ha b hb hab
    rw [hab, List.mem_singleton.1 hb] at ha
    exact hp ha

theorem mem_entries_of_get? {t : Tree} {q : Place} {e : Entry} (hq : q ≠ [])
    (h : t.get? q = some e) : (q, e) ∈ t.entries := by
  rw [get?_of_ne_nil _ hq] at h
  obtain ⟨x, hx, rfl⟩ := Option.map_eq_some_iff.1 h
  have hp := List.find?_some hx
  rw [← of_decide_eq_true hp]
  exact List.mem_of_find?_eq_some hx

theorem get?_foldl_put_of_not_mem {es : List (Place × Entry)} {d q : Place}
    (h : ∀ x ∈ es, q ≠ d ++ x.1) :
    (es.foldl (fun t y ↦ t.put (d ++ y.1) y.2) t).get? q = t.get? q := by
  induction es generalizing t with
  | nil => rfl
  | cons x es ih =>
    rw [List.forall_mem_cons] at h
    rw [List.foldl_cons, ih _ h.2, get?_put_of_ne _ _ _ h.1]

theorem get?_foldl_put {es : List (Place × Entry)} (h : (es.map Prod.fst).Nodup) (d : Place)
    {x : Place × Entry} (hx : x ∈ es) (hn : d ++ x.1 ≠ []) :
    (es.foldl (fun t y ↦ t.put (d ++ y.1) y.2) t).get? (d ++ x.1) = some x.2 := by
  induction es generalizing t with
  | nil => cases hx
  | cons y es ih =>
    rw [List.map_cons, List.nodup_cons] at h
    rw [List.foldl_cons]
    rcases List.mem_cons.1 hx with rfl | hx
    · rw [get?_foldl_put_of_not_mem, get?_put_self _ _ _ hn]
      intro y hy he
      rw [List.append_cancel_left he] at h
      exact h.1 (List.mem_map_of_mem hy)
    · exact ih _ h.2 hx

theorem mem_below {t : Tree} {p r : Place} {e : Entry} (hr : r ≠ [])
    (h : t.get? (p ++ r) = some e) : (r, e) ∈ t.below p := by
  have hn : p ++ r ≠ [] := fun he ↦ hr (List.append_eq_nil_iff.1 he).2
  refine List.mem_map.2 ⟨(p ++ r, e), List.mem_filter.2 ⟨mem_entries_of_get? hn h, ?_⟩, ?_⟩
  · exact (isBelow_iff _ _).2 ⟨r, hr, rfl⟩
  · simp only [List.drop_left]

theorem nodup_below (h : t.IsDistinct) : ((t.below p).map Prod.fst).Nodup := by
  have hm : (t.below p).map Prod.fst =
      ((t.entries.map Prod.fst).filter fun q ↦ isBelow p q).map (List.drop p.length) := by
    rw [below, List.map_map, List.filter_map, List.map_map]
    rfl
  rw [hm]
  refine List.Nodup.map_on ?_ (h.filter _)
  intro q hq r hr hd
  obtain ⟨q', -, rfl⟩ := (isBelow_iff _ _).1 (List.mem_filter.1 hq).2
  obtain ⟨r', -, rfl⟩ := (isBelow_iff _ _).1 (List.mem_filter.1 hr).2
  rw [List.drop_left, List.drop_left] at hd
  rw [hd]

theorem walk_eq_foldl {t : Tree} {p q : Place} {names : List Text} (h : t.walk p names = .ok q) :
    q = names.foldl step p := by
  induction names generalizing p with
  | nil => cases h; rfl
  | cons name names ih =>
    rw [walk] at h
    split at h
    · cases h
    · cases h
    · split at h
      · cases h
      · exact ih h

theorem get?_of_walk {t : Tree} {p q : Place} {names rest : List Text} (hr : rest ≠ [])
    (h : t.walk p (names ++ rest) = .ok q) :
    t.get? (names.foldl step p) = some .directory := by
  induction names generalizing p with
  | nil =>
    obtain ⟨name, rest, rfl⟩ := List.exists_cons_of_ne_nil hr
    rw [List.nil_append, walk] at h
    split at h
    · cases h
    · cases h
    · assumption
  | cons name names ih =>
    rw [List.cons_append, walk] at h
    split at h
    · cases h
    · cases h
    · split at h
      · cases h
      · exact ih h

theorem utf8Length_le_of_walk {t : Tree} {p q : Place} {names : List Text}
    (h : t.walk p names = .ok q) : ∀ name ∈ names, name.utf8Length ≤ nameLimit := by
  induction names generalizing p with
  | nil => exact fun name hm ↦ (List.not_mem_nil hm).elim
  | cons name names ih =>
    rw [walk] at h
    split at h
    · cases h
    · cases h
    · split at h
      · cases h
      · rename_i hn
        exact List.forall_mem_cons.2 ⟨Nat.not_lt.1 hn, ih h⟩

theorem isAbsence_of_walk {t : Tree} {p : Place} {names : List Text} {e : FileError}
    (hn : ∀ name ∈ names, name.utf8Length ≤ nameLimit) (h : t.walk p names = .error e) :
    e.isAbsence = true := by
  induction names generalizing p with
  | nil => cases h
  | cons name names ih =>
    rw [List.forall_mem_cons] at hn
    rw [walk] at h
    split at h
    · cases h
      rfl
    · cases h
      rfl
    · rw [if_neg (Nat.not_lt.2 hn.1)] at h
      exact ih hn.2 h

theorem foldl_step (d : Place) {names : List Text} (h : Path.up ∉ names) :
    names.foldl step d = d ++ names := by
  induction names generalizing d with
  | nil => exact (List.append_nil d).symm
  | cons name names ih =>
    rw [List.mem_cons, not_or] at h
    rw [List.foldl_cons, ih _ h.2, step, if_neg (Ne.symm h.1), List.append_assoc,
      List.singleton_append]

end Tree

namespace Workspace

/-- The place that a path names, whether or not there are directories on the way. -/
def place (w : Workspace) (p : Path) : Place := p.parts.foldl Tree.step (w.origin p)

def IsUsable (w : Workspace) (p : Path) : Prop :=
  ∀ name ∈ p.parts, ¬w.IsBroken name ∧ '\x00' ∉ name

end Workspace

namespace Workspace

def fileAt (w : Workspace) (q : Place) : Option FileContent :=
  match w.tree.get? q with
  | some (.file c) => some c
  | _ => none

variable {w : Workspace} {p : Path} {q : Place}

theorem fileAt_eq_some {c : FileContent} : w.fileAt q = some c ↔ w.tree.get? q = some (.file c) := by
  unfold fileAt
  split
  · rename_i h
    rw [h]
    simp
  · rename_i h
    simp only [reduceCtorEq, false_iff]
    exact h c

theorem fileAt_congr {w' : Workspace} (h : w'.tree.get? q = w.tree.get? q) :
    w'.fileAt q = w.fileAt q := by
  rw [fileAt, fileAt, h]

section

variable {w' : Workspace} (h : w'.toStandpoint = w.toStandpoint)
include h

theorem origin_congr (p : Path) : w'.origin p = w.origin p := by
  rw [origin, origin, h]

theorem place_congr (p : Path) : w'.place p = w.place p := by
  rw [place, place, origin_congr h]

theorem isBroken_congr (t : Text) : w'.IsBroken t ↔ w.IsBroken t := by
  rw [IsBroken, IsBroken, h]

end

theorem resolve_eq_ok_iff : w.resolve p = .ok q ↔
    w.IsUsable p ∧ p.Fits ∧ w.tree.walk (w.origin p) p.parts = .ok q := by
  have hb : w.IsUsable p ↔ ¬(∃ name ∈ p.parts, w.IsBroken name) ∧
      ¬∃ name ∈ p.parts, '\x00' ∈ name := by
    simp only [IsUsable, not_exists, not_and]
    exact forall₂_and
  rw [hb, resolve]
  split
  · rename_i h
    simp [h]
  · rename_i hn
    split
    · rename_i h
      simp [h]
    · rename_i hz
      split
      · rename_i hf
        simp [hf]
      · rename_i hf
        simp [hn, hz, not_not.1 hf]

theorem isAbsence_of_resolve {e : FileError} (hf : p.Fits)
    (hn : ∀ name ∈ p.parts, name.utf8Length ≤ nameLimit) (h : w.resolve p = .error e) :
    e.isAbsence = true := by
  rw [resolve, if_neg (not_not_intro hf)] at h
  split at h
  · cases h
    rfl
  · split at h
    · cases h
      rfl
    · exact Tree.isAbsence_of_walk hn h

theorem resolve_eq_place (h : w.resolve p = .ok q) : q = w.place p :=
  Tree.walk_eq_foldl (resolve_eq_ok_iff.1 h).2.2

theorem place_join {r : Path} (hs : r.slashes = 0) (hu : Path.up ∉ r.parts) :
    w.place (p.join r) = w.place p ++ r.parts := by
  rw [place, Path.join, if_pos hs, List.foldl_append, Tree.foldl_step _ hu]
  rfl

theorem get?_of_resolve_join {r : Path} (hs : r.slashes = 0) (hr : r.parts ≠ [])
    (h : w.resolve (p.join r) = .ok q) : w.tree.get? (w.place p) = some .directory := by
  obtain ⟨-, -, hw⟩ := resolve_eq_ok_iff.1 h
  rw [Path.join, if_pos hs] at hw
  exact Tree.get?_of_walk hr hw

theorem tree_foldl_put (d : Place) (es : List (Place × Entry)) (w : Workspace) :
    (es.foldl (fun w e ↦ w.put (d ++ e.1) e.2) w).tree =
      es.foldl (fun t e ↦ t.put (d ++ e.1) e.2) w.tree := by
  induction es generalizing w with
  | nil => rfl
  | cons e es ih => exact ih _

theorem fileAt_foldl_put {es : List (Place × Entry)} (h : (es.map Prod.fst).Nodup) (d : Place)
    {r : Place} {c : FileContent} (hr : r ≠ []) (hm : (r, .file c) ∈ es) :
    (es.foldl (fun w e ↦ w.put (d ++ e.1) e.2) w).fileAt (d ++ r) = some c := by
  have hn : d ++ r ≠ [] := fun he ↦ hr (List.append_eq_nil_iff.1 he).2
  rw [fileAt_eq_some, tree_foldl_put]
  exact Tree.get?_foldl_put _ h d hm hn

end Workspace

end TreeMarkup
