import TreeMarkup.Proofs.FileEffects

namespace TreeMarkup

namespace Workspace

def isInside (w : Workspace) (p : Path) (q : Place) : Bool :=
  w.isDirectory p && Tree.isBelow (w.place p) q

variable {w : Workspace} {p : Path}

theorem isDirectory_of_resolve {d : Place} (h : w.resolve p = .ok d) :
    w.isDirectory p = (w.tree.get? d).any Entry.isDirectory := by
  rw [isDirectory, lookup, h]
  simp only [bind, Except.bind]
  cases w.tree.get? d <;> rfl

theorem isDirectory_of_error {e : FileError} (h : w.resolve p = .error e) :
    w.isDirectory p = false := by
  rw [isDirectory, lookup, h]
  rfl

end Workspace

/-- The files inside the directory at a path are gone, and all others as they were. -/
structure Clears (p : Path) (w w' : Workspace) : Prop where
  standpoint : w'.toStandpoint = w.toStandpoint
  fileAt : ∀ q, w'.fileAt q = if w.isInside p q then none else w.fileAt q

namespace Clears

variable {p : Path} {w w' w'' : Workspace}

theorem of_not_isDirectory (h : w.isDirectory p = false) : Clears p w w :=
  ⟨rfl, fun q ↦ by rw [Workspace.isInside, h]; rfl⟩

theorem addsDirectories (h : Clears p w w') (hd : AddsDirectories w' w'') : Clears p w w'' :=
  ⟨hd.standpoint.trans h.standpoint, fun q ↦ (hd.fileAt q).trans (h.fileAt q)⟩

theorem eraseBelow (hd : w.isDirectory p = true) :
    Clears p w { w with tree := w.tree.eraseBelow (w.place p) } := by
  refine ⟨rfl, fun q ↦ ?_⟩
  rw [Workspace.isInside, hd, Bool.true_and]
  unfold Workspace.fileAt
  dsimp only
  rw [Tree.get?_eraseBelow]
  by_cases hb : Tree.isBelow (w.place p) q = true
  · rw [if_pos hb, if_pos hb]
  · rw [if_neg hb, if_neg hb]

theorem erase (h : Clears p w w') (hd : w'.tree.get? (w.place p) = some .directory) :
    Clears p w { w' with tree := w'.tree.erase (w.place p) } := by
  refine ⟨h.standpoint, fun q ↦ ?_⟩
  rw [← h.fileAt q]
  by_cases hq : q = []
  · subst hq
    rfl
  unfold Workspace.fileAt
  dsimp only
  rw [Tree.get?_erase _ _ _ hq]
  by_cases hp : q = w.place p
  · rw [if_pos hp, hp, hd]
  · rw [if_neg hp]

end Clears

namespace FileWork

theorem run_removeDirectory (p : Path) (w : Workspace) :
    (∃ e, (removeDirectory p).run w = (.error e, w)) ∨
      (removeDirectory p).run w = (.ok (), { w with tree := w.tree.erase (w.place p) }) := by
  rw [removeDirectory, run_bind, run_resolve]
  cases hp : w.resolve p with
  | error e => exact .inl ⟨e, rfl⟩
  | ok d =>
    dsimp only
    split
    · exact .inl ⟨_, rfl⟩
    · rw [← Workspace.resolve_eq_place hp]
      exact .inr rfl

theorem clears_removeTree (p : Path) : Steps (Clears p) (removeTree p) := by
  intro w
  rw [removeTree, run_bind, run_resolve]
  cases hp : w.resolve p with
  | error e => exact .of_not_isDirectory (Workspace.isDirectory_of_error hp)
  | ok d =>
    have hi := Workspace.isDirectory_of_resolve hp
    dsimp only
    rw [run_get_bind]
    cases hd : w.tree.get? d with
    | none =>
      rw [hd] at hi
      exact .of_not_isDirectory hi
    | some entry =>
      rw [hd] at hi
      cases entry with
      | file c => exact .of_not_isDirectory hi
      | directory =>
        change Clears p w ((removeDirectory p).run { w with tree := w.tree.eraseBelow d }).2
        have hw : d = w.place p := Workspace.resolve_eq_place hp
        subst hw
        have hc : Clears p w _ := .eraseBelow hi
        rcases run_removeDirectory p { w with tree := w.tree.eraseBelow (w.place p) } with
          ⟨e, hr⟩ | hr
        · rw [hr]
          exact hc
        · rw [hr]
          refine hc.erase ?_
          have hs : Tree.isBelow (w.place p) (w.place p) = false := by simp [Tree.isBelow]
          rw [Tree.get?_eraseBelow, hs]
          exact hd

theorem steps_removeExisting (p : Path) : Steps (Clears p) (removeExisting p) := by
  intro w
  rw [removeExisting, run_get_bind]
  cases hl : w.lookup p with
  | ok entry => exact clears_removeTree p w
  | error e =>
    have hd : w.isDirectory p = false := by rw [Workspace.isDirectory, hl]
    dsimp only
    split
    · exact .of_not_isDirectory hd
    · exact .of_not_isDirectory hd

theorem removeExisting_eq_ok {w w' : Workspace} {p : Path}
    (h : (removeExisting p).run w = (.ok (), w')) :
    (removeTree p).run w = (.ok (), w') ∨ w' = w := by
  rw [removeExisting, run_get_bind] at h
  split at h
  · exact .inl h
  · split at h
    · cases h
      exact .inr rfl
    · cases h

def renewDirectory (p : Path) : FileWork Unit := do
  removeExisting p
  makeNewDirectory p

theorem run_replaceTree_eq (p : Path) (es : List (Place × Entry)) (w : Workspace) :
    (replaceTree p es).run w = (renewDirectory p >>= fun _ ↦ fillDirectory p es).run w := by
  simp only [replaceTree, renewDirectory, placeTree, bind_assoc]

theorem clears_renewDirectory (p : Path) : Steps (Clears p) (renewDirectory p) := by
  intro w
  have hc := steps_removeExisting p w
  rw [renewDirectory, run_bind]
  rcases hr : (removeExisting p).run w with ⟨e | _, w₁⟩
  · rw [hr] at hc
    exact hc
  · rw [hr] at hc
    exact hc.addsDirectories (steps_makeNewDirectory p w₁)

def placeable (p : Path) (es : List (Place × Entry)) : List (Place × Entry) :=
  es.filter fun e ↦ (p.join ⟨0, e.1⟩).Fits

theorem run_placeEntry (p : Path) (d : Place) (e : Place × Entry) (w : Workspace) :
    (placeEntry p d e).run w =
      if (p.join ⟨0, e.1⟩).Fits then (.ok (), w.put (d ++ e.1) e.2) else (.error .tooLong, w) := by
  rw [placeEntry]
  split <;> rfl

/-- Whatever can be put is put, and no error comes out if that is everything. -/
theorem run_placeEntries (p : Path) (d : Place) (es : List (Place × Entry)) (w : Workspace) :
    ∃ errors, (placeEntries p d es).run w =
        (.ok errors, (placeable p es).foldl (fun w e ↦ w.put (d ++ e.1) e.2) w) ∧
      (errors = [] ↔ ∀ e ∈ es, (p.join ⟨0, e.1⟩).Fits) := by
  induction es generalizing w with
  | nil => exact ⟨[], rfl, by simp⟩
  | cons e es ih =>
    rw [placeEntries, run_bind, run_tryCatch, run_bind, run_placeEntry, placeable, List.filter_cons]
    by_cases hf : (p.join ⟨0, e.1⟩).Fits
    · obtain ⟨errors, hr, he⟩ := ih (w.put (d ++ e.1) e.2)
      refine ⟨errors, ?_, ?_⟩
      · rw [if_pos hf, if_pos (decide_eq_true hf), List.foldl_cons]
        change (placeEntries p d es >>= _).run (w.put (d ++ e.1) e.2) = _
        rw [run_bind, hr]
        rfl
      · rw [List.forall_mem_cons, he]
        exact (and_iff_right hf).symm
    · obtain ⟨errors, hr, -⟩ := ih w
      refine ⟨.tooLong :: errors, ?_, ?_⟩
      · rw [if_neg hf, if_neg fun h ↦ hf (of_decide_eq_true h)]
        change (placeEntries p d es >>= _).run w = _
        rw [run_bind, hr]
        rfl
      · refine iff_of_false (List.cons_ne_nil _ _) fun h ↦ hf ?_
        exact h e List.mem_cons_self

theorem run_fillDirectory {p : Path} {w : Workspace} {d : Place} (h : w.resolve p = .ok d)
    (es : List (Place × Entry)) :
    (fillDirectory p es).run w =
      (if ∀ e ∈ es, (p.join ⟨0, e.1⟩).Fits then .ok () else .error .incomplete,
        (placeable p es).foldl (fun w e ↦ w.put (d ++ e.1) e.2) w) := by
  obtain ⟨errors, hr, he⟩ := run_placeEntries p d es w
  rw [fillDirectory, run_bind, run_resolve, h]
  dsimp only
  rw [run_bind, hr]
  dsimp only
  by_cases hn : errors = []
  · rw [if_pos (he.1 hn), if_neg (not_not_intro hn)]
    rfl
  · rw [if_neg fun h ↦ hn (he.2 h), if_pos hn]
    rfl

theorem placeable_eq_self {p : Path} {es : List (Place × Entry)}
    (h : ∀ e ∈ es, (p.join ⟨0, e.1⟩).Fits) : placeable p es = es :=
  List.filter_eq_self.2 fun e he ↦ decide_eq_true (h e he)

end FileWork

end TreeMarkup
