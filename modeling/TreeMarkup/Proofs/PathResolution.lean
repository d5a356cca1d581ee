import TreeMarkup.Proofs.TreeReplacement
import TreeMarkup.Proofs.WorkingTrees

namespace TreeMarkup

namespace Text

theorem foldl_utf8Size (n : Nat) (t : Text) :
    t.foldl (fun n c ↦ n + c.utf8Size) n = n + utf8Length t := by
  induction t generalizing n with
  | nil => rfl
  | cons c t ih =>
    have h₁ := ih (n + c.utf8Size)
    have h₂ := ih (0 + c.utf8Size)
    rw [utf8Length, List.foldl_cons, List.foldl_cons]
    omega

theorem utf8Length_append (t u : Text) : utf8Length (t ++ u) = utf8Length t + utf8Length u := by
  rw [utf8Length, List.foldl_append, foldl_utf8Size, ← utf8Length]

theorem exists_intercalate_append_singleton (separator : Text) (ps : List Text) (p : Text) :
    ∃ rest, List.intercalate separator (ps ++ [p]) = List.intercalate separator ps ++ rest := by
  induction ps with
  | nil => exact ⟨p, by simp⟩
  | cons a ps ih =>
    cases ps with
    | nil => exact ⟨separator ++ p, by simp [List.intercalate]⟩
    | cons b ps =>
      obtain ⟨rest, hr⟩ := ih
      refine ⟨rest, ?_⟩
      have hi : ∀ qs : List Text, List.intercalate separator (a :: b :: qs) =
          a ++ separator ++ List.intercalate separator (b :: qs) := by
        intro qs
        simp [List.intercalate]
      rw [List.cons_append, List.cons_append, hi, hi, ← List.cons_append, hr, List.append_assoc,
        List.append_assoc]
      simp

end Text

namespace Path

theorem join_nil (p : Path) : p.join ⟨0, []⟩ = p := by
  simp [join]

theorem parent_join_append_singleton (p : Path) (names : List Text) (name : Text) :
    (p.join ⟨0, names ++ [name]⟩).parent = p.join ⟨0, names⟩ := by
  simp only [join, parent, if_true, ← List.append_assoc, List.dropLast_concat]

theorem exists_parts_eq {p : Path} (h : p.parts ≠ []) :
    ∃ name, p.parts = p.parent.parts ++ [name] :=
  ⟨p.parts.getLast h, (List.dropLast_append_getLast h).symm⟩

theorem parent_of_nil {p : Path} (h : p.parts = []) : p.parent = p := by
  rw [parent, h]
  exact congrArg (Path.mk p.slashes) h.symm

theorem Fits.parent {p : Path} (h : p.Fits) : p.parent.Fits := by
  by_cases hn : p.parts = []
  · rwa [parent_of_nil hn]
  obtain ⟨name, hp⟩ := exists_parts_eq hn
  unfold Fits display at h ⊢
  have hh : p ≠ here := by
    rintro rfl
    exact hn rfl
  rw [if_neg hh] at h
  split
  · decide
  · obtain ⟨rest, hr⟩ := Text.exists_intercalate_append_singleton ['/'] p.parent.parts name
    have hs : p.parent.slashes = p.slashes := rfl
    rw [hp, hr] at h
    simp only [Text.utf8Length_append] at h
    rw [hs, Text.utf8Length_append]
    omega

end Path

namespace Workspace

variable {w w' : Workspace} {p : Path} {q : Place}

theorem waypoints_eq_append (hp : p.parts ≠ []) (w : Workspace) :
    w.waypoints p = w.waypoints p.parent ++ [w.place p] := by
  obtain ⟨name, hn⟩ := Path.exists_parts_eq hp
  rw [waypoints, place, hn, Tree.waypoints_append_singleton, List.foldl_append]
  rfl

theorem isDirectory_parent_of_resolve (hp : p.parts ≠ []) (h : w.resolve p = .ok q) :
    w.isDirectory p.parent = true := by
  obtain ⟨name, hn⟩ := Path.exists_parts_eq hp
  obtain ⟨hu, hf, hw⟩ := resolve_eq_ok_iff.1 h
  rw [hn, Tree.walk_append] at hw
  cases hr : w.tree.walk (w.origin p) p.parent.parts with
  | error e =>
    rw [hr] at hw
    cases hw
  | ok d =>
    have hd : w.resolve p.parent = .ok d := by
      refine resolve_eq_ok_iff.2 ⟨fun m hm ↦ hu m ?_, hf.parent, hr⟩
      exact List.dropLast_subset _ hm
    have hg : w.tree.get? d = some .directory := by
      rw [hr, Except.bind, Tree.walk] at hw
      split at hw
      · cases hw
      · cases hw
      · assumption
    obtain rfl := resolve_eq_place hd
    exact isDirectory_iff.2 ⟨hd, hg⟩

theorem walk_of_resolve_notFound (h : w.resolve p = .error .notFound) :
    w.tree.walk (w.origin p) p.parts = .error .notFound := by
  unfold resolve at h
  split at h
  · cases h
  · split at h
    · cases h
    · split at h
      · cases h
      · exact h

theorem resolve_ne_notFound (hp : p.parts ≠ []) (h : w.isDirectory p.parent = true) :
    w.resolve p ≠ .error .notFound := by
  obtain ⟨name, hn⟩ := Path.exists_parts_eq hp
  obtain ⟨hr, hd⟩ := isDirectory_iff.1 h
  have hw : w.tree.walk (w.origin p) p.parent.parts = .ok (w.place p.parent) :=
    (resolve_eq_ok_iff.1 hr).2.2
  intro hf
  have hl := walk_of_resolve_notFound hf
  rw [hn, Tree.walk_append, hw, Except.bind, Tree.walk, hd] at hl
  dsimp only at hl
  split at hl <;> cases hl

/-- Directories that are added do not turn a path aside that finds all it needs. -/
theorem resolve_of_addsDirectories (h : AddsDirectories w w')
    (hn : w.resolve p ≠ .error .notFound) : w'.resolve p = w.resolve p := by
  have hw : ∀ start names, w.tree.walk start names ≠ .error .notFound →
      w'.tree.walk start names = w.tree.walk start names := by
    -- the walk meets only what is there, and that has not changed
    intro start names
    induction names generalizing start with
    | nil => exact fun _ ↦ rfl
    | cons name names ih =>
      intro hn
      rw [Tree.walk] at hn
      rw [Tree.walk, Tree.walk]
      cases hg : w.tree.get? start with
      | none =>
        rw [hg] at hn
        exact absurd rfl hn
      | some e =>
        rw [hg] at hn
        rw [h.get?_of_some hg]
        cases e with
        | file c => rfl
        | directory =>
          dsimp only at hn ⊢
          split
          · rfl
          · rename_i hl
            rw [if_neg hl] at hn
            exact ih _ hn
  have ho := origin_congr h.standpoint p
  unfold resolve at hn ⊢
  simp only [isBroken_congr h.standpoint, ho]
  split
  · rfl
  · rename_i hb
    rw [if_neg hb] at hn
    split
    · rfl
    · rename_i hz
      rw [if_neg hz] at hn
      split
      · rfl
      · rename_i hf
        rw [if_neg hf] at hn
        exact hw _ _ hn

theorem isDirectory_of_addsDirectories (h : AddsDirectories w w') (hd : w.isDirectory p = true) :
    w'.isDirectory p = true := by
  obtain ⟨hr, hg⟩ := isDirectory_iff.1 hd
  have hn : w.resolve p ≠ .error .notFound := by simp [hr]
  refine isDirectory_iff.2 ⟨?_, ?_⟩
  · rw [resolve_of_addsDirectories h hn, hr, h.place]
  · rw [h.place]
    exact h.get?_of_some hg

end Workspace

end TreeMarkup
