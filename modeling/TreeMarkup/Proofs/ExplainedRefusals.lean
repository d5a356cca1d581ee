import TreeMarkup.Proofs.RecordReading

namespace TreeMarkup

namespace Check

variable {α β : Type}

def IsExplained (a : Check α) : Prop := a.issues = [] → ∃ x, a = valid x

theorem isExplained_valid (x : α) : (valid x).IsExplained := fun _ ↦ ⟨x, rfl⟩

theorem isExplained_refused (fault : Fault) : (refused fault : Check α).IsExplained :=
  fun h ↦ absurd h (List.cons_ne_nil _ _)

namespace IsExplained

theorem apply {f : Check (α → β)} {a : Check α} (hf : f.IsExplained) (ha : a.IsExplained) :
    (f.apply a).IsExplained := by
  intro h
  rw [issues_apply, List.append_eq_nil_iff] at h
  obtain ⟨g, rfl⟩ := hf h.1
  obtain ⟨x, rfl⟩ := ha h.2
  exact ⟨g x, rfl⟩

theorem map {a : Check α} (ha : a.IsExplained) (f : α → β) : (a.map f).IsExplained := by
  intro h
  rw [issues_map] at h
  obtain ⟨x, rfl⟩ := ha h
  exact ⟨f x, rfl⟩

theorem bind {a : Check α} {f : α → Check β} (ha : a.IsExplained) (hf : ∀ x, (f x).IsExplained) :
    (a.bind f).IsExplained := by
  cases a with
  | valid x => exact hf x
  | invalid found =>
    intro h
    obtain ⟨x, hx⟩ := ha h
    cases hx

theorem under {a : Check α} (ha : a.IsExplained) (step : Step) : (a.under step).IsExplained := by
  intro h
  rw [issues_under, List.map_eq_nil_iff] at h
  obtain ⟨x, rfl⟩ := ha h
  exact ⟨x, rfl⟩

theorem issues_eq_nil_iff {a : Check α} (ha : a.IsExplained) :
    a.issues = [] ↔ ∃ x, a = valid x := by
  constructor
  · exact ha
  · rintro ⟨x, rfl⟩
    rfl

end IsExplained

variable {read : Value → Check α}

theorem isExplained_members (h : ∀ v, (read v).IsExplained) (n : Nat) (vs : List Value) :
    (members read n vs).IsExplained := by
  induction vs generalizing n with
  | nil => exact isExplained_valid []
  | cons v vs ih => exact (((h v).under _).map _).apply (ih (n + 1))

end Check

namespace Value

open Check

variable {α : Type} {read : Value → Check α}

theorem isExplained_readBytes (content : List UInt8) : (readBytes content).IsExplained := by
  unfold readBytes
  split
  · exact isExplained_valid _
  · exact isExplained_refused _

theorem isExplained_readText (v : Value) : v.readText.IsExplained := by
  unfold readText
  split
  · exact isExplained_valid _
  · exact isExplained_readBytes _
  · exact isExplained_readBytes _
  · exact isExplained_refused _

theorem isExplained_readAnswer (t : Text) : (readAnswer t).IsExplained := by
  unfold readAnswer
  dsimp only
  split
  · exact isExplained_valid _
  · split
    · exact isExplained_valid _
    · split
      · exact isExplained_refused _
      · exact isExplained_refused _

theorem isExplained_readBitOf (n : Int) : (readBitOf n).IsExplained := by
  unfold readBitOf
  split
  · exact isExplained_valid _
  · split
    · exact isExplained_valid _
    · split
      · exact isExplained_refused _
      · exact isExplained_refused _

theorem isExplained_readWhole (x : Double) : (readWhole x).IsExplained := by
  unfold readWhole
  split
  · exact isExplained_readBitOf _
  · exact isExplained_refused _

theorem isExplained_readBoolean (v : Value) : v.readBoolean.IsExplained := by
  unfold readBoolean
  split
  · exact isExplained_valid _
  · exact isExplained_readBitOf _
  · exact isExplained_readWhole _
  · exact isExplained_readAnswer _
  · split
    · exact isExplained_readAnswer _
    · exact isExplained_refused _
  · split
    · exact isExplained_readWhole _
    · exact isExplained_refused _
  · exact isExplained_refused _

theorem isExplained_readOptional (h : ∀ v, (read v).IsExplained) (v : Value) :
    (v.readOptional read).IsExplained := by
  unfold readOptional
  split
  · exact isExplained_valid _
  · exact (h _).map _

theorem isExplained_readList (h : ∀ v, (read v).IsExplained) (v : Value) :
    (v.readList read).IsExplained := by
  unfold readList
  split
  · exact isExplained_members h 0 _
  · exact isExplained_refused _

theorem isExplained_readEntries (entries : List (Value × Value)) :
    (readEntries entries).IsExplained := by
  induction entries with
  | nil => exact isExplained_valid []
  | cons entry entries ih =>
    exact ((((isExplained_readText entry.1).under _).under _).map _).apply ih

theorem isExplained_readMapping (v : Value) : v.readMapping.IsExplained := by
  unfold readMapping
  split
  · exact (isExplained_readEntries _).map _
  · exact isExplained_refused _

variable {name : Text} {entries : List (Value × Value)}

theorem isExplained_required (h : ∀ v, (read v).IsExplained) :
    (required name read entries).IsExplained := by
  unfold required
  split
  · exact (h _).under _
  · exact (isExplained_refused _).under _

theorem isExplained_fieldOr {other : α} (h : ∀ v, (read v).IsExplained) :
    (fieldOr name other read entries).IsExplained := by
  unfold fieldOr
  split
  · exact (h _).under _
  · exact isExplained_valid _

theorem isExplained_readRecord {readFields : List (Value × Value) → Check α}
    (h : ∀ entries, (readFields entries).IsExplained) (v : Value) :
    (v.readRecord name readFields).IsExplained := by
  cases v with
  | map entries => exact h entries
  | _ => exact isExplained_refused _

end Value

open Check Value

theorem PageDefaults.isExplained_read (v : Value) : (read v).IsExplained := by
  refine isExplained_readRecord (fun entries ↦ ?_) v
  refine .apply (.apply (.apply (.apply (isExplained_valid _) ?_) ?_) ?_) ?_
  · exact isExplained_fieldOr (isExplained_readOptional isExplained_readText)
  · exact isExplained_fieldOr isExplained_readBoolean
  · exact isExplained_fieldOr isExplained_readBoolean
  · exact isExplained_fieldOr isExplained_readMapping

namespace Page

theorem isExplained_readSlug (v : Value) : (readSlug v).IsExplained := by
  refine (isExplained_readText v).bind fun key ↦ ?_
  split
  · exact isExplained_valid _
  · exact isExplained_refused _

theorem isExplained_readOutput (v : Value) : (readOutput v).IsExplained := by
  refine (isExplained_readText v).bind fun path ↦ ?_
  split
  · exact isExplained_valid _
  · exact isExplained_refused _

theorem isExplained_read (v : Value) : (read v).IsExplained := by
  refine isExplained_readRecord (fun entries ↦ ?_) v
  refine .apply (.apply (.apply (.apply (.apply (.apply (.apply (.apply
    (isExplained_valid _) ?_) ?_) ?_) ?_) ?_) ?_) ?_) ?_
  · exact isExplained_required isExplained_readSlug
  · exact isExplained_required isExplained_readText
  · exact isExplained_fieldOr (isExplained_readOptional isExplained_readOutput)
  · exact isExplained_fieldOr (isExplained_readOptional isExplained_readText)
  · exact isExplained_fieldOr (isExplained_readOptional isExplained_readText)
  · exact isExplained_fieldOr (isExplained_readOptional isExplained_readBoolean)
  · exact isExplained_fieldOr (isExplained_readOptional isExplained_readBoolean)
  · exact isExplained_fieldOr isExplained_readMapping

end Page

namespace PageSet

theorem isExplained_readPages (v : Value) : (readPages v).IsExplained := by
  refine (isExplained_readList Page.isExplained_read v).bind fun pages ↦ ?_
  split
  · exact isExplained_refused _
  · exact isExplained_valid _

theorem isExplained_read (v : Value) : (read v).IsExplained := by
  refine isExplained_readRecord (fun entries ↦ ?_) v
  refine .apply (.apply (isExplained_valid _) ?_) ?_
  · exact isExplained_fieldOr PageDefaults.isExplained_read
  · exact isExplained_fieldOr isExplained_readPages

end PageSet

end TreeMarkup
