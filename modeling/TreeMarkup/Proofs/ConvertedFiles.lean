import TreeMarkup.Command.Run
import TreeMarkup.Proofs.GivenOptions
import TreeMarkup.Proofs.SiteWrites
import TreeMarkup.Site.Plain

namespace TreeMarkup

namespace Tree

theorem walk_put {t : Tree} {start q : Place} {names : List Text}
    (h : t.walk start names = .ok q) (hq : t.get? q ≠ some .directory) (e : Entry) :
    (t.put q e).walk start names = .ok q := by
  induction names generalizing start with
  | nil => exact h
  | cons name names ih =>
    rw [walk] at h ⊢
    cases hs : t.get? start with
    | none =>
      rw [hs] at h
      cases h
    | some s =>
      -- whatever is looked up in is a directory, and what is put stands in the place of none
      have hne : start ≠ q := by
        rintro rfl
        cases s with
        | directory => exact hq hs
        | file c =>
          rw [hs] at h
          cases h
      rw [hs] at h
      rw [get?_put_of_ne _ _ _ hne, hs]
      cases s with
      | file c => cases h
      | directory =>
        dsimp only at h ⊢
        split at h
        · cases h
        · rename_i hl
          rw [if_neg hl]
          exact ih h

end Tree

namespace Workspace

theorem resolve_put {w : Workspace} {p : Path} {q : Place} (h : w.resolve p = .ok q)
    (hq : w.tree.get? q ≠ some .directory) (e : Entry) : (w.put q e).resolve p = .ok q := by
  obtain ⟨hu, hf, hw⟩ := resolve_eq_ok_iff.1 h
  exact resolve_eq_ok_iff.2 ⟨hu, hf, Tree.walk_put hw hq e⟩

theorem read_put {w : Workspace} {p : Path} {q : Place} (h : w.resolve p = .ok q)
    (hq : w.tree.get? q ≠ some .directory) (c : FileContent) :
    (w.put q (.file c)).read p = .ok c := by
  have hn : q ≠ [] := by
    rintro rfl
    exact hq rfl
  have hg : (w.put q (.file c)).tree.get? q = some (.file c) := Tree.get?_put_self _ _ _ hn
  have hl : (w.put q (.file c)).lookup p = .ok (.file c) := by
    refine bind_eq_ok_iff.2 ⟨q, resolve_put h hq _, ?_⟩
    rw [hg]
  exact bind_eq_ok_iff.2 ⟨_, hl, rfl⟩

end Workspace

theorem WritesText.read {p : Path} {t : Text} {w w' : Workspace} (h : WritesText p t w w') :
    w'.read p = .ok (.text t) := by
  obtain ⟨-, hr, hn⟩ := h
  exact Workspace.read_put hr hn _

namespace Command

def Ending.printed : Ending → Text
  | done output => output
  | _ => []

section

variable (a : ConvertArguments) (k : Toolkit) (files : Workspace)

def ConvertArguments.markup : Except Failure Text := do
  let converted ← files.convertFile k ⟨a.allowMultiKey⟩ (.ofText a.input)
  if a.pretty then k.pretty converted else .ok converted

/-- How a conversion ends: without the markup nothing is done; and the markup is either printed, or
written, which may still fail. -/
def ConvertArguments.outcome : Ending × Session :=
  match a.markup k files, a.output with
  | .error f, _ => (.failed f, ⟨files, []⟩)
  | .ok t, none =>
    if files.IsBroken t then (.failed (.files .unencodable), ⟨files, []⟩)
    else (.done (finishLine t), ⟨files, []⟩)
  | .ok t, some output =>
    match (FileWork.writeText (.ofText output) t).run files with
    | (.ok (), after) => (.done ("Wrote " ++ output ++ "\n"), ⟨after, []⟩)
    | (.error e, after) => (.failed (.files e), ⟨after, []⟩)

end

variable {words : List Text} {a : ConvertArguments} {k : Toolkit} {files : Workspace} {s : Session}

end Command

end TreeMarkup
