import TreeMarkup.Command.Basic
import TreeMarkup.Proofs.Computations

namespace TreeMarkup.Command

variable {options : List Switch} {word : Text} {words : List Text}

/-- `Gives options words given`: the words come in groups that give the options, each with its
value, which a flag has none of. -/
inductive Gives (options : List Switch) : List Text → List (Switch × Text) → Prop
  | nil : Gives options [] []
  | flag {word : Text} {o : Switch} {words : List Text} {given : List (Switch × Text)}
      (hs : word ≠ ['-', '-']) (hw : classify options word = .ok (.option o .nothing))
      (ho : o.parameter = .none) (hh : o ≠ helpSwitch) (h : Gives options words given) :
      Gives options (word :: words) ((o, []) :: given)
  | joined {word : Text} {o : Switch} {attached : Attached} {value : Text} {words : List Text}
      {given : List (Switch × Text)} (hs : word ≠ ['-', '-'])
      (hw : classify options word = .ok (.option o attached))
      (ha : attached = .byEquals value ∨ attached = .directly value) (ho : o.parameter ≠ .none)
      (hv : isReadable value o.parameter = true) (h : Gives options words given) :
      Gives options (word :: words) ((o, value) :: given)
  | separate {word : Text} {o : Switch} {next value : Text} {words : List Text}
      {given : List (Switch × Text)} (hs : word ≠ ['-', '-'])
      (hw : classify options word = .ok (.option o .nothing)) (ho : o.parameter ≠ .none)
      (hn : next ≠ ['-', '-']) (hp : classify options next = .ok (.plain value))
      (hv : isReadable value o.parameter = true) (h : Gives options words given) :
      Gives options (word :: next :: words) ((o, value) :: given)

namespace Arguments

end Arguments

/-- The words without those that give a certain option: the one that names it, and the next one as
well if that is its value. -/
def withoutOption (options : List Switch) (o : Switch) : List Text → List Text
  | [] => []
  | ['-', '-'] :: words => ['-', '-'] :: words
  | word :: words =>
    match classify options word with
    | .ok (.option p attached) =>
      if p = o then
        match attached, words with
        | .nothing, _ :: words => withoutOption options o words
        | _, words => withoutOption options o words
      else word :: withoutOption options o words
    | _ => word :: withoutOption options o words

theorem Gives.withoutOption {o : Switch} (ho : o.parameter ≠ .none)
    {given : List (Switch × Text)} (h : Gives options words given) :
    Gives options (withoutOption options o words) (given.filter fun g ↦ g.1 ≠ o) := by
  induction h with
  | nil => exact .nil
  | @flag word p words given hs hw hp hh _ ih =>
    have hne : p ≠ o := by
      rintro rfl
      exact ho hp
    rw [Command.withoutOption, hw]
    · simpa [hne] using Gives.flag hs hw hp hh ih
    · exact hs
  | @joined word p attached value words given hs hw ha hp hv _ ih =>
    rw [Command.withoutOption, hw]
    · by_cases hpo : p = o
      · rcases ha with rfl | rfl <;> simpa [hpo] using ih
      · simpa [hpo] using Gives.joined hs hw ha hp hv ih
    · exact hs
  | @separate word p next value words given hs hw hp hn hnext hv _ ih =>
    rw [Command.withoutOption, hw]
    · by_cases hpo : p = o
      · simpa [hpo] using ih
      · rw [Command.withoutOption, hnext]
        · simpa [hpo] using Gives.separate hs hw hp hn hnext hv ih
        · exact hn
    · exact hs

end TreeMarkup.Command
