import Mathlib.Data.List.Nodup
import Mathlib.Data.List.Perm.Basic
import TreeMarkup.Json.Basic

namespace TreeMarkup

namespace Text

variable {s t u : Text}

theorem le_cons_iff {c d : Char} {s t : Text} :
    le (c :: s) (d :: t) = true ↔ c.toNat < d.toNat ∨ c = d ∧ le s t = true := by
  simp [le]

theorem le_total (s t : Text) : le s t = true ∨ le t s = true := by
  induction s generalizing t with
  | nil => exact .inl (by simp [le])
  | cons c s ih =>
    cases t with
    | nil => exact .inr (by simp [le])
    | cons d t =>
      rw [le_cons_iff, le_cons_iff]
      rcases Nat.lt_trichotomy c.toNat d.toNat with h | h | h
      · exact .inl (.inl h)
      · obtain rfl := Char.toNat_inj.1 h
        exact (ih t).imp (fun h ↦ .inr ⟨rfl, h⟩) fun h ↦ .inr ⟨rfl, h⟩
      · exact .inr (.inl h)

theorem le_trans (hs : le s t = true) (ht : le t u = true) : le s u = true := by
  induction s generalizing t u with
  | nil => simp [le]
  | cons c s ih =>
    rcases t with _ | ⟨d, t⟩
    · cases hs
    rcases u with _ | ⟨e, u⟩
    · cases ht
    rw [le_cons_iff] at hs ht ⊢
    rcases hs with hs | ⟨rfl, hs⟩ <;> rcases ht with ht | ⟨rfl, ht⟩
    · exact .inl (Nat.lt_trans hs ht)
    · exact .inl hs
    · exact .inl ht
    · exact .inr ⟨rfl, ih hs ht⟩

theorem le_antisymm (hs : le s t = true) (ht : le t s = true) : s = t := by
  induction s generalizing t with
  | nil =>
    cases t with
    | nil => rfl
    | cons => cases ht
  | cons c s ih =>
    rcases t with _ | ⟨d, t⟩
    · cases hs
    rw [le_cons_iff] at hs ht
    rcases hs with hs | ⟨rfl, hs⟩
    · rcases ht with ht | ⟨rfl, -⟩ <;> omega
    · rw [ih hs (ht.resolve_left (Nat.lt_irrefl _)).2]

end Text

namespace Json

/-- The entries of a mapping and the members of its object, before they are put in order. -/
def AreMembers (es : List (Value × Value)) (xs : List (Text × Json)) : Prop :=
  List.Forall₂ (fun e x ↦ e.1 = .text x.1 ∧ ofValue? e.2 = some x.2) es xs

section Sorting

def memberLe (x y : Text × Json) : Bool := Text.le x.1 y.1

theorem sortMembers?_texts (xs : List (Text × Json)) :
    sortMembers? (xs.map fun x ↦ (.text x.1, x.2)) = some (xs.mergeSort memberLe) := by
  have hs : ((xs.mergeSort memberLe).map fun x ↦ (MemberKey.text x.1, x.2)) =
      (xs.map fun x ↦ (MemberKey.text x.1, x.2)).mergeSort fun a b ↦ a.1.le b.1 :=
    List.map_mergeSort fun _ _ _ _ ↦ rfl
  cases xs with
  | nil => simp [sortMembers?]
  | cons x xs =>
    rw [List.map_cons] at hs ⊢
    rw [sortMembers?, if_pos, ← hs, List.map_map]
    · exact congrArg some (List.map_id _)
    · simp [MemberKey.comparable]

theorem pairwise_mergeSort (xs : List (Text × Json)) :
    (xs.mergeSort memberLe).Pairwise fun x y ↦ memberLe x y = true := by
  have ht (x y z : Text × Json) (hxy : memberLe x y = true) (hyz : memberLe y z = true) :
      memberLe x z = true := Text.le_trans hxy hyz
  have hc (x y : Text × Json) : (memberLe x y || memberLe y x) = true := by
    rw [Bool.or_eq_true]
    exact Text.le_total x.1 y.1
  exact List.pairwise_mergeSort ht hc xs

/-- Members of distinct names have one order only. -/
theorem mergeSort_eq_iff {xs ys : List (Text × Json)} (hn : (xs.map Prod.fst).Nodup) :
    xs.mergeSort memberLe = ys.mergeSort memberLe ↔ xs.Perm ys := by
  have hx := List.mergeSort_perm xs memberLe
  have hy := List.mergeSort_perm ys memberLe
  constructor
  · intro h
    exact (hx.symm.trans (.of_eq h)).trans hy
  · intro h
    have hp := (hx.trans h).trans hy.symm
    refine List.Perm.eq_of_pairwise (fun x y hmx hmy hxy hyx ↦ ?_) (pairwise_mergeSort xs)
      (pairwise_mergeSort ys) hp
    exact List.inj_on_of_nodup_map hn (hx.mem_iff.1 hmx) (h.mem_iff.2 (hy.mem_iff.1 hmy))
      (Text.le_antisymm hxy hyx)

end Sorting

section Members

variable {es fs : List (Value × Value)} {xs ys : List (Text × Json)}

theorem AreMembers.ofEntries? (h : AreMembers es xs) :
    ofEntries? es = some (xs.map fun x ↦ (.text x.1, x.2)) := by
  induction h with
  | nil => rfl
  | @cons e x es xs hx _ ih =>
    obtain ⟨k, v⟩ := e
    obtain ⟨rfl, hv⟩ : k = .text x.1 ∧ ofValue? v = some x.2 := hx
    simp [Json.ofEntries?, MemberKey.ofValue?, hv, ih]

theorem AreMembers.ofValue?_map (h : AreMembers es xs) :
    ofValue? (.map es) = some (object (xs.mergeSort memberLe)) := by
  rw [ofValue?, h.ofEntries?, Option.bind_some, sortMembers?_texts]
  rfl

theorem AreMembers.keys (h : AreMembers es xs) :
    es.map Prod.fst = (xs.map Prod.fst).map .text := by
  induction h with
  | nil => rfl
  | cons hx _ ih => simp [hx.1, ih]

theorem AreMembers.nodup (h : AreMembers es xs) (hn : (es.map Prod.fst).Nodup) :
    (xs.map Prod.fst).Nodup := by
  rw [h.keys] at hn
  exact hn.of_map _

theorem AreMembers.exists_members (h : AreMembers es xs) (hp : es.Perm fs) :
    ∃ ys, AreMembers fs ys ∧ xs.Perm ys := by
  obtain ⟨ys, hy, hp⟩ := List.perm_comp_forall₂ hp.symm h
  exact ⟨ys, hy, hp.symm⟩

theorem AreMembers.exists_entries (h : AreMembers es xs) (hp : xs.Perm ys) :
    ∃ fs, AreMembers fs ys ∧ es.Perm fs := by
  obtain ⟨fs, hf, hp⟩ := List.perm_comp_forall₂ hp.symm h.flip
  exact ⟨fs, hf.flip, hp.symm⟩

theorem AreMembers.congr (h : AreMembers es xs) (hk : es.map Prod.fst = fs.map Prod.fst)
    (hv : List.Forall₂ (fun v w ↦ ofValue? v = ofValue? w) (es.map Prod.snd) (fs.map Prod.snd)) :
    AreMembers fs xs := by
  induction h generalizing fs with
  | nil =>
    cases fs with
    | nil => exact .nil
    | cons => cases hk
  | cons hx _ ih =>
    cases fs with
    | nil => cases hk
    | cons f fs =>
      rw [List.map_cons, List.map_cons, List.cons.injEq] at hk
      rw [List.map_cons, List.map_cons, List.forall₂_cons] at hv
      exact .cons ⟨hk.1 ▸ hx.1, hv.1 ▸ hx.2⟩ (ih hk.2 hv.2)

end Members

end Json

end TreeMarkup
