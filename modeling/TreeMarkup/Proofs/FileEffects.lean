import TreeMarkup.Proofs.Computations
import TreeMarkup.Proofs.FileTrees

namespace TreeMarkup

/-- Directories are made where there is nothing, one after the other. -/
inductive AddsDirectories : Workspace → Workspace → Prop
  | refl (w : Workspace) : AddsDirectories w w
  | put {w w' : Workspace} {q : Place} (hq : w.tree.get? q = none)
      (h : AddsDirectories (w.put q .directory) w') : AddsDirectories w w'

namespace AddsDirectories

variable {w w' w'' : Workspace}

theorem trans (h : AddsDirectories w w') (h' : AddsDirectories w' w'') : AddsDirectories w w'' := by
  induction h with
  | refl => exact h'
  | put hq _ ih => exact .put hq (ih h')

theorem standpoint (h : AddsDirectories w w') : w'.toStandpoint = w.toStandpoint := by
  induction h with
  | refl => rfl
  | put _ _ ih => exact ih

theorem isDistinct (h : AddsDirectories w w') (hw : w.tree.IsDistinct) : w'.tree.IsDistinct := by
  induction h with
  | refl => exact hw
  | put _ _ ih => exact ih (Tree.isDistinct_put _ _ _ hw)

theorem get?_eq_or (h : AddsDirectories w w') (q : Place) :
    w'.tree.get? q = w.tree.get? q ∨
      w.tree.get? q = none ∧ w'.tree.get? q = some .directory := by
  induction h with
  | refl => exact .inl rfl
  | @put w w' r hr h ih =>
    by_cases hq : q = r
    · subst hq
      have hn : q ≠ [] := by
        rintro rfl
        cases hr
      have hp : (w.put q .directory).tree.get? q = some .directory := Tree.get?_put_self _ _ _ hn
      rw [hp] at ih
      exact .inr ⟨hr, ih.elim id fun h ↦ h.2⟩
    · have hp : (w.put r .directory).tree.get? q = w.tree.get? q := Tree.get?_put_of_ne _ _ _ hq
      rwa [hp] at ih

theorem get?_of_some (h : AddsDirectories w w') {q : Place} {e : Entry}
    (he : w.tree.get? q = some e) : w'.tree.get? q = some e := by
  rcases h.get?_eq_or q with hq | ⟨hq, -⟩
  · rw [hq, he]
  · rw [hq] at he
    cases he

theorem fileAt (h : AddsDirectories w w') (q : Place) : w'.fileAt q = w.fileAt q := by
  rcases h.get?_eq_or q with hq | ⟨hq, hd⟩
  · exact Workspace.fileAt_congr hq
  · rw [Workspace.fileAt, Workspace.fileAt, hq, hd]

theorem place (h : AddsDirectories w w') (p : Path) : w'.place p = w.place p :=
  Workspace.place_congr h.standpoint p

end AddsDirectories

namespace FileWork

theorem run_resolve (p : Path) (w : Workspace) : (resolve p).run w = (w.resolve p, w) :=
  run_ofExcept (w.resolve p) w

theorem run_makeDirectory {p : Path} {w : Workspace} {q : Place} (h : w.resolve p = .ok q) :
    (makeDirectory p).run w =
      match w.tree.get? q with
      | some _ => (.error .alreadyExists, w)
      | none => (.ok (), w.put q .directory) := by
  rw [makeDirectory, run_bind, run_resolve, h]
  dsimp only
  rw [run_get_bind]
  cases w.tree.get? q <;> rfl

theorem steps_makeDirectory (p : Path) : Steps AddsDirectories (makeDirectory p) := by
  intro w
  cases hr : w.resolve p with
  | error e =>
    rw [makeDirectory, run_bind, run_resolve, hr]
    exact .refl w
  | ok q =>
    rw [run_makeDirectory hr]
    cases hq : w.tree.get? q with
    | some e => exact .refl w
    | none => exact .put hq (.refl _)

theorem steps_unlessDirectory (p : Path) (e : FileError) :
    Steps AddsDirectories (unlessDirectory p e) := by
  intro w
  rw [unlessDirectory, run_get_bind]
  split <;> exact .refl w

theorem steps_makeDirectories (p : Path) : Steps AddsDirectories (makeDirectories p) := by
  rw [makeDirectories]
  refine steps_tryCatch .trans (steps_makeDirectory p) fun e ↦ ?_
  split
  · rename_i he
    have hlt := Path.length_parent_lt he.2
    refine steps_bind .trans (steps_makeDirectories p.parent) fun _ ↦ ?_
    refine steps_tryCatch .trans (steps_makeDirectory p) fun e ↦ ?_
    split
    · exact fun w ↦ .refl w
    · exact steps_unlessDirectory p e
  · exact steps_unlessDirectory p e
termination_by p.parts.length

theorem steps_makeNewDirectory (p : Path) : Steps AddsDirectories (makeNewDirectory p) := by
  rw [makeNewDirectory]
  dsimp only
  split
  · rename_i hp
    have hlt := Path.length_parent_lt hp
    refine steps_bind .trans (fun w ↦ .refl w) fun _ ↦ ?_
    split
    · refine steps_bind .trans ?_ fun _ ↦ steps_makeDirectory p
      refine steps_tryCatch .trans (steps_makeNewDirectory p.parent) fun e ↦ ?_
      split <;> exact fun w ↦ .refl w
    · exact steps_makeDirectory p
  · exact steps_makeDirectory p
termination_by p.parts.length

theorem run_writeFile {p : Path} {w : Workspace} {q : Place} (c : FileContent)
    (h : w.resolve p = .ok q) :
    (writeFile p c).run w =
      match w.tree.get? q with
      | some .directory => (.error .isDirectory, w)
      | _ => (.ok (), w.put q (.file c)) := by
  rw [writeFile, run_bind, run_resolve, h]
  dsimp only
  rw [run_get_bind]
  cases w.tree.get? q with
  | none => rfl
  | some e => cases e <;> rfl

theorem run_writeFile_of_error {p : Path} {w : Workspace} {e : FileError} (c : FileContent)
    (h : w.resolve p = .error e) : (writeFile p c).run w = (.error e, w) := by
  rw [writeFile, run_bind, run_resolve, h]

theorem run_writeFile_of_ne {p : Path} {w : Workspace} {q : Place} (c : FileContent)
    (h : w.resolve p = .ok q) (hn : w.tree.get? q ≠ some .directory) :
    (writeFile p c).run w = (.ok (), w.put q (.file c)) := by
  rw [run_writeFile c h]
  split
  · rename_i hd
    exact absurd hd hn
  · rfl

theorem prepare_eq (p : Path) :
    prepare p = if p.parent ≠ Path.here then makeDirectories p.parent else pure () :=
  rfl

theorem steps_prepare (p : Path) : Steps AddsDirectories (prepare p) := by
  rw [prepare_eq]
  split
  · exact steps_makeDirectories p.parent
  · exact fun w ↦ .refl w

theorem run_storeText (p : Path) (t : Text) (w : Workspace) :
    (storeText p t).run w =
      if w.IsBroken t then
        (writeFile p (.text []) >>= fun _ ↦ throw .unencodable : FileWork Unit).run w
      else (writeFile p (.text t)).run w := by
  rw [storeText, run_get_bind]
  split <;> rfl

end FileWork

/-- The file at a path is opened, once the directories above it are there, and given a text. -/
inductive WritesText (p : Path) (t : Text) (w : Workspace) : Workspace → Prop
  | put {w₁ : Workspace} (hd : AddsDirectories w w₁) (hr : w₁.resolve p = .ok (w.place p))
      (hn : w₁.tree.get? (w.place p) ≠ some .directory) :
      WritesText p t w (w₁.put (w.place p) (.file (.text t)))

namespace WritesText

variable {p : Path} {t : Text} {w w' : Workspace}

theorem standpoint (h : WritesText p t w w') : w'.toStandpoint = w.toStandpoint := by
  obtain ⟨hd, -, -⟩ := h
  exact hd.standpoint

theorem place (h : WritesText p t w w') (q : Path) : w'.place q = w.place q :=
  Workspace.place_congr h.standpoint q

theorem isDistinct (h : WritesText p t w w') (hw : w.tree.IsDistinct) : w'.tree.IsDistinct := by
  obtain ⟨hd, -, -⟩ := h
  exact Tree.isDistinct_put _ _ _ (hd.isDistinct hw)

theorem fileAt_place (h : WritesText p t w w') : w'.fileAt (w.place p) = some (.text t) := by
  obtain ⟨-, -, hn⟩ := h
  have hp : w.place p ≠ [] := fun hp ↦ hn (by rw [hp]; rfl)
  exact Workspace.fileAt_eq_some.2 (Tree.get?_put_self _ _ _ hp)

theorem fileAt_of_ne (h : WritesText p t w w') (q : Place) (hq : q ≠ w.place p) :
    w'.fileAt q = w.fileAt q := by
  obtain @⟨w₁, hd, -, -⟩ := h
  have hg : (w₁.put (w.place p) (.file (.text t))).tree.get? q = w₁.tree.get? q :=
    Tree.get?_put_of_ne _ _ _ hq
  rw [Workspace.fileAt_congr hg, hd.fileAt]

theorem exists_resolve (h : WritesText p t w w') :
    ∃ w₁, AddsDirectories w w₁ ∧ w₁.resolve p = .ok (w.place p) := by
  obtain ⟨hd, hr, -⟩ := h
  exact ⟨_, hd, hr⟩

end WritesText

def Workspace.isWritable (w : Workspace) (p : Path) : Bool :=
  ((FileWork.writeText p []).run w).1.isOk

/-- What comes of writing a text: the file is not opened, or it is and then holds the text, or
nothing if the text cannot be encoded. -/
inductive WriteEnds (p : Path) (t : Text) (w : Workspace) : Except FileError Unit → Workspace → Prop
  | unopened {e : FileError} {w' : Workspace} (ho : w.isWritable p = false)
      (hd : AddsDirectories w w') : WriteEnds p t w (.error e) w'
  | emptied {w' : Workspace} (ho : w.isWritable p = true) (hb : w.IsBroken t)
      (hw : WritesText p [] w w') : WriteEnds p t w (.error .unencodable) w'
  | written {w' : Workspace} (ho : w.isWritable p = true) (hb : ¬w.IsBroken t)
      (hw : WritesText p t w w') : WriteEnds p t w (.ok ()) w'

namespace FileWork

variable {p : Path} {t : Text} {w w' : Workspace}

theorem run_storeText_nil (p : Path) (w : Workspace) :
    (storeText p []).run w = (writeFile p (.text [])).run w := by
  have hb : ¬w.IsBroken [] := by
    rintro ⟨c, hc, -⟩
    cases hc
  rw [run_storeText, if_neg hb]

theorem isWritable_of_prepare {w₁ : Workspace} (h : (prepare p).run w = (.ok (), w₁)) :
    w.isWritable p = ((writeFile p (.text [])).run w₁).1.isOk := by
  rw [Workspace.isWritable, writeText, run_bind, h]
  dsimp only
  rw [run_storeText_nil]

theorem writeEnds_storeText {w₁ : Workspace} (h : (prepare p).run w = (.ok (), w₁)) :
    WriteEnds p t w ((storeText p t).run w₁).1 ((storeText p t).run w₁).2 := by
  have hd := (steps_prepare p).of_run h
  have ho := isWritable_of_prepare h
  rw [run_storeText]
  cases hq : w₁.resolve p with
  | error e =>
    rw [run_writeFile_of_error _ hq] at ho
    rw [run_bind, run_writeFile_of_error _ hq, run_writeFile_of_error _ hq]
    split <;> exact .unopened ho hd
  | ok q =>
    obtain rfl : q = w.place p := (Workspace.resolve_eq_place hq).trans (hd.place p)
    have hb := Workspace.isBroken_congr hd.standpoint t
    by_cases hn : w₁.tree.get? (w.place p) = some .directory
    · rw [run_writeFile _ hq, hn] at ho
      rw [run_bind, run_writeFile _ hq, run_writeFile _ hq, hn]
      split <;> exact .unopened ho hd
    · rw [run_writeFile_of_ne _ hq hn] at ho
      rw [run_bind, run_writeFile_of_ne _ hq hn, run_writeFile_of_ne _ hq hn]
      split
      · rename_i h
        exact .emptied ho (hb.1 h) (.put hd hq hn)
      · rename_i h
        exact .written ho (fun hw ↦ h (hb.2 hw)) (.put hd hq hn)

theorem writeEnds (p : Path) (t : Text) (w : Workspace) :
    WriteEnds p t w ((writeText p t).run w).1 ((writeText p t).run w).2 := by
  rw [writeText, run_bind]
  rcases hr : (prepare p).run w with ⟨e | _, w₁⟩
  · have ho : w.isWritable p = false := by
      rw [Workspace.isWritable, writeText, run_bind, hr]
      rfl
    exact .unopened ho ((steps_prepare p).of_run hr)
  · exact writeEnds_storeText hr

theorem writeEnds_of_run {r : Except FileError Unit} (h : (writeText p t).run w = (r, w')) :
    WriteEnds p t w r w' := by
  have he := writeEnds p t w
  rwa [h] at he

theorem writesText_of_ok (h : (writeText p t).run w = (.ok (), w')) : WritesText p t w w' := by
  cases writeEnds_of_run h with
  | written _ _ hw => exact hw

end FileWork

end TreeMarkup
