import TreeMarkup.Proofs.OrderedMembers
import TreeMarkup.Proofs.WrittenTrees

namespace TreeMarkup

namespace Value

def items? : Value → Option (List Value)
  | list items => some items
  | tuple items => some items
  | _ => none

/-- Values with a place in a tree; the keys of their mappings are distinct texts. -/
inductive IsPlain : Value → Prop
  | null : IsPlain null
  | boolean (b : Bool) : IsPlain (boolean b)
  | integer (n : Int) : IsPlain (integer n)
  | float (x : Double) : IsPlain (float x)
  | text (t : Text) : IsPlain (text t)
  | sequence {v : Value} {items : List Value} (hv : v.items? = some items)
      (h : ∀ w ∈ items, IsPlain w) : IsPlain v
  | map {entries : List (Value × Value)} (ht : ∀ e ∈ entries, ∃ t, e.1 = text t)
      (hn : (entries.map Prod.fst).Nodup) (h : ∀ e ∈ entries, IsPlain e.2) : IsPlain (map entries)

/-- Equality up to the order of the entries of mappings, at every depth. A list is not told from a
tuple. -/
inductive Alike : Value → Value → Prop
  | refl (v : Value) : Alike v v
  | sequence {v w : Value} {vs ws : List Value} (hv : v.items? = some vs)
      (hw : w.items? = some ws) (h : List.Forall₂ Alike vs ws) : Alike v w
  | map {es fs gs : List (Value × Value)} (hp : es.Perm fs)
      (hk : fs.map Prod.fst = gs.map Prod.fst)
      (h : List.Forall₂ Alike (fs.map Prod.snd) (gs.map Prod.snd)) : Alike (map es) (map gs)

end Value

namespace Json

open Value (IsPlain Alike)

theorem ofItems?_eq_some_iff {vs : List Value} {js : List Json} :
    ofItems? vs = some js ↔ List.Forall₂ (fun v j ↦ ofValue? v = some j) vs js := by
  induction vs generalizing js with
  | nil => simp [ofItems?, eq_comm]
  | cons v vs ih =>
    cases js with
    | nil => simp [ofItems?, Option.bind_eq_some_iff]
    | cons j js => simp [ofItems?, Option.bind_eq_some_iff, ← ih]

theorem ofValue?_of_items? {v : Value} {vs : List Value} (h : v.items? = some vs) :
    ofValue? v = (ofItems? vs).map array := by
  cases v <;> simp_all [Value.items?, ofValue?]

theorem ofItems?_congr {vs ws : List Value}
    (h : List.Forall₂ (fun v w ↦ ofValue? v = ofValue? w) vs ws) : ofItems? vs = ofItems? ws := by
  induction h with
  | nil => rfl
  | cons h _ ih => rw [ofItems?, ofItems?, h, ih]

section Plain

variable {v w : Value}

theorem exists_forall₂ {α β : Type} {R : α → β → Prop} {p : β → Prop} {l : List α}
    (h : ∀ a ∈ l, ∃ b, R a b ∧ p b) : ∃ u, List.Forall₂ R l u ∧ ∀ b ∈ u, p b := by
  induction l with
  | nil => exact ⟨[], .nil, by simp⟩
  | cons a l ih =>
    rw [List.forall_mem_cons] at h
    obtain ⟨b, hb, hp⟩ := h.1
    obtain ⟨u, hu, hq⟩ := ih h.2
    exact ⟨b :: u, .cons hb hu, List.forall_mem_cons.2 ⟨hp, hq⟩⟩

theorem exists_areMembers {es : List (Value × Value)} (ht : ∀ e ∈ es, ∃ t, e.1 = .text t)
    (h : ∀ e ∈ es, ∃ j, ofValue? e.2 = some j ∧ IsDistinct j) :
    ∃ xs, AreMembers es xs ∧ ∀ x ∈ xs, IsDistinct x.2 := by
  refine exists_forall₂ fun e he ↦ ?_
  obtain ⟨t, ht⟩ := ht e he
  obtain ⟨j, hj, hd⟩ := h e he
  exact ⟨(t, j), ⟨ht, hj⟩, hd⟩

theorem AreMembers.isDistinct {es : List (Value × Value)} {xs : List (Text × Json)}
    (h : AreMembers es xs) (hn : (es.map Prod.fst).Nodup) (hd : ∀ x ∈ xs, IsDistinct x.2) :
    IsDistinct (object (xs.mergeSort memberLe)) := by
  have hp := List.mergeSort_perm xs memberLe
  refine .object ?_ fun x hx ↦ hd x (hp.mem_iff.1 hx)
  exact (hp.map Prod.fst).nodup_iff.2 (h.nodup hn)

theorem exists_ofValue? (h : v.IsPlain) : ∃ j, ofValue? v = some j ∧ IsDistinct j := by
  induction h with
  | null => exact ⟨_, rfl, .null⟩
  | boolean b => exact ⟨_, rfl, .boolean b⟩
  | integer n => exact ⟨_, rfl, .integer n⟩
  | float x => exact ⟨_, rfl, .float x⟩
  | text t => exact ⟨_, rfl, .text t⟩
  | sequence hv _ ih =>
    obtain ⟨js, hj, hd⟩ := exists_forall₂ ih
    refine ⟨array js, ?_, .array hd⟩
    rw [ofValue?_of_items? hv, ofItems?_eq_some_iff.2 hj]
    rfl
  | map ht hn _ ih =>
    obtain ⟨xs, hx, hd⟩ := exists_areMembers ht ih
    exact ⟨_, hx.ofValue?_map, hx.isDistinct hn hd⟩

theorem ofValue?_of_alike (hv : v.IsPlain) (h : Alike v w) : ofValue? v = ofValue? w := by
  induction hv generalizing w with
  | sequence hv _ ih =>
    cases h with
    | refl => rfl
    | sequence hv' hw h =>
      obtain rfl := Option.some.inj (hv.symm.trans hv')
      rw [ofValue?_of_items? hv, ofValue?_of_items? hw, ofItems?_congr]
      exact ((List.forall₂_and_left _ _).2 ⟨ih, h⟩).imp fun _ _ h ↦ h.1 h.2
    | map => cases hv
  | @map es ht hn hp ih =>
    cases h with
    | refl => rfl
    | sequence hv => cases hv
    | @map _ fs gs hp' hk h =>
      obtain ⟨xs, hx, -⟩ := exists_areMembers ht fun e he ↦ exists_ofValue? (hp e he)
      obtain ⟨ys, hy, hxy⟩ := hx.exists_members hp'
      have hv : ∀ v ∈ fs.map Prod.snd, ∀ {w}, Alike v w → ofValue? v = ofValue? w := by
        intro v hm
        obtain ⟨e, he, rfl⟩ := List.mem_map.1 hm
        exact ih e (hp'.mem_iff.2 he)
      have hg := hy.congr hk (((List.forall₂_and_left _ _).2 ⟨hv, h⟩).imp fun _ _ h ↦ h.1 h.2)
      rw [hx.ofValue?_map, hg.ofValue?_map, (mergeSort_eq_iff (hx.nodup hn)).2 hxy]
  | _ =>
    cases h with
    | refl => rfl
    | sequence hv => cases hv

theorem eq_of_ofValue?_eq_atom {j : Json} (ha : ∀ items, j ≠ array items)
    (ho : ∀ members, j ≠ object members) (h : ofValue? w = some j) : w = j.toValue := by
  cases w with
  | list items => simp [ofValue?, Ne.symm (ha _)] at h
  | tuple items => simp [ofValue?, Ne.symm (ha _)] at h
  | map entries => simp [ofValue?, Option.bind_eq_some_iff, Ne.symm (ho _)] at h
  | foreign f => simp [ofValue?] at h
  | _ =>
    simp only [ofValue?, Option.some_inj] at h
    subst h
    rfl

theorem exists_items_of_array {js : List Json} (h : ofValue? w = some (array js)) :
    ∃ ws, w.items? = some ws ∧ ofItems? ws = some js := by
  cases w <;> simp_all [ofValue?, Value.items?, Option.bind_eq_some_iff]

theorem exists_entries_of_object {ms : List (Text × Json)} (h : ofValue? w = some (object ms)) :
    ∃ gs, w = .map gs := by
  cases w <;> simp_all [ofValue?]

theorem forall₂_of_common {α β γ : Type} {R : α → γ → Prop} {R' : β → γ → Prop}
    {S : α → β → Prop} {l : List α} {m : List β} {u : List γ} (hl : List.Forall₂ R l u)
    (hm : List.Forall₂ R' m u) (h : ∀ a ∈ l, ∀ b ∈ m, ∀ c, R a c → R' b c → S a b) :
    List.Forall₂ S l m := by
  induction hl generalizing m with
  | nil =>
    cases hm
    exact .nil
  | cons ha _ ih =>
    cases hm with
    | cons hb hm =>
      refine .cons (h _ List.mem_cons_self _ List.mem_cons_self _ ha hb) (ih hm ?_)
      exact fun a hl b hm ↦ h a (List.mem_cons_of_mem _ hl) b (List.mem_cons_of_mem _ hm)

theorem isPlain_of_items? {ws : List Value} (hw : w.IsPlain) (hi : w.items? = some ws) :
    ∀ x ∈ ws, IsPlain x := by
  cases hw with
  | sequence hv h =>
    obtain rfl := Option.some.inj (hv.symm.trans hi)
    exact h
  | _ => cases hi

theorem alike_of_ofValue?_eq (hv : v.IsPlain) (hw : w.IsPlain) (h : ofValue? v = ofValue? w) :
    Alike v w := by
  have hatom {v w : Value} {j : Json} (hv : ofValue? v = some j) (hj : j.toValue = v)
      (ha : ∀ items, j ≠ array items) (ho : ∀ members, j ≠ object members)
      (h : ofValue? v = ofValue? w) : Alike v w := by
    rw [eq_of_ofValue?_eq_atom ha ho (h.symm.trans hv), hj]
    exact .refl v
  induction hv generalizing w with
  | null => exact hatom rfl rfl (by simp) (by simp) h
  | boolean => exact hatom rfl rfl (by simp) (by simp) h
  | integer => exact hatom rfl rfl (by simp) (by simp) h
  | float => exact hatom rfl rfl (by simp) (by simp) h
  | text => exact hatom rfl rfl (by simp) (by simp) h
  | @sequence v vs hv hp ih =>
    obtain ⟨js, hj, -⟩ := exists_forall₂ fun v hv ↦ exists_ofValue? (hp v hv)
    rw [ofValue?_of_items? hv, ofItems?_eq_some_iff.2 hj] at h
    obtain ⟨ws, hi, hws⟩ := exists_items_of_array h.symm
    refine .sequence hv hi (forall₂_of_common hj (ofItems?_eq_some_iff.1 hws) ?_)
    intro a ha b hb j haj hbj
    exact ih a ha (isPlain_of_items? hw hi b hb) (haj.trans hbj.symm)
  | @map es ht hn hp ih =>
    obtain ⟨xs, hx, -⟩ := exists_areMembers ht fun e he ↦ exists_ofValue? (hp e he)
    rw [hx.ofValue?_map] at h
    obtain ⟨gs, rfl⟩ := exists_entries_of_object h.symm
    cases hw with
    | sequence hi => cases hi
    | map ht' hn' hp' =>
      obtain ⟨ys, hy, -⟩ := exists_areMembers ht' fun e he ↦ exists_ofValue? (hp' e he)
      rw [hy.ofValue?_map, Option.some_inj, object.injEq, mergeSort_eq_iff (hx.nodup hn)] at h
      obtain ⟨fs, hf, hef⟩ := hx.exists_entries h
      refine .map hef (hf.keys.trans hy.keys.symm) ?_
      rw [List.forall₂_map_left_iff, List.forall₂_map_right_iff]
      refine forall₂_of_common hf hy fun e he g hg x hex hgx ↦ ?_
      exact ih e (hef.mem_iff.2 he) (hp' g hg) (hex.2.trans hgx.2.symm)

theorem alike_toValue (hv : v.IsPlain) {j : Json} (h : ofValue? v = some j) :
    Alike v j.toValue := by
  induction hv generalizing j with
  | sequence hv _ ih =>
    rw [ofValue?_of_items? hv, Option.map_eq_some_iff] at h
    obtain ⟨js, hj, rfl⟩ := h
    refine .sequence hv rfl ?_
    rw [toValues_eq_map, List.forall₂_map_right_iff]
    exact ((List.forall₂_and_left _ _).2 ⟨ih, ofItems?_eq_some_iff.1 hj⟩).imp fun _ _ h ↦ h.1 h.2
  | map ht _ hp ih =>
    obtain ⟨xs, hx, -⟩ := exists_areMembers ht fun e he ↦ exists_ofValue? (hp e he)
    obtain ⟨fs, hf, hef⟩ := hx.exists_entries (List.mergeSort_perm xs memberLe).symm
    have hv : ∀ f ∈ fs, ∀ {j}, ofValue? f.2 = some j → Alike f.2 j.toValue :=
      fun f hm ↦ ih f (hef.mem_iff.2 hm)
    rw [hx.ofValue?_map, Option.some_inj] at h
    subst h
    rw [toValue, toEntries_eq_map]
    refine .map hef ?_ ?_
    · simp [hf.keys, Function.comp_def]
    · rw [List.map_map, List.forall₂_map_left_iff, List.forall₂_map_right_iff]
      exact ((List.forall₂_and_left _ _).2 ⟨hv, hf⟩).imp fun _ _ h ↦ h.1 h.2.2
  | _ =>
    obtain rfl := Option.some.inj h
    exact .refl _

theorem ofValue?_eq_iff (hv : v.IsPlain) (hw : w.IsPlain) : ofValue? v = ofValue? w ↔ Alike v w :=
  ⟨alike_of_ofValue?_eq hv hw, ofValue?_of_alike hv⟩

end Plain

mutual

theorem toValue_injective : ∀ {j k : Json}, j.toValue = k.toValue → j = k
  | null, k, h => by cases k <;> simp_all [toValue]
  | boolean b, k, h => by cases k <;> simp_all [toValue]
  | integer n, k, h => by cases k <;> simp_all [toValue]
  | float x, k, h => by cases k <;> simp_all [toValue]
  | text t, k, h => by cases k <;> simp_all [toValue]
  | array js, k, h => by
    cases k with
    | array ks => exact congrArg array (toValues_injective (by simpa [toValue] using h))
    | _ => simp [toValue] at h
  | object ms, k, h => by
    cases k with
    | object ns => exact congrArg object (toEntries_injective (by simpa [toValue] using h))
    | _ => simp [toValue] at h

theorem toValues_injective : ∀ {js ks : List Json}, toValues js = toValues ks → js = ks
  | [], ks, h => by cases ks <;> simp_all [toValues]
  | j :: js, ks, h => by
    cases ks with
    | nil => simp [toValues] at h
    | cons k ks =>
      simp only [toValues, List.cons.injEq] at h
      rw [toValue_injective h.1, toValues_injective h.2]

theorem toEntries_injective : ∀ {ms ns : List (Text × Json)}, toEntries ms = toEntries ns → ms = ns
  | [], ns, h => by cases ns <;> simp_all [toEntries]
  | (name, j) :: ms, ns, h => by
    cases ns with
    | nil => simp [toEntries] at h
    | cons n ns =>
      simp only [toEntries, List.cons.injEq, Prod.mk.injEq, Value.text.injEq] at h
      rw [toEntries_injective h.2, h.1.1, toValue_injective h.1.2]

end

/-- A plain value that is written is read back, up to the order of entries. -/
theorem read?_dump? {v : Value} (hv : IsPlain v) :
    ∃ t w, dump? v = some t ∧ read? t = some w ∧ Alike v w := by
  obtain ⟨j, hj, hd⟩ := exists_ofValue? hv
  refine ⟨j.write, j.toValue, ?_, read?_write hd, alike_toValue hv hj⟩
  rw [dump?, hj]
  rfl

/-- The written form is a canonical one: plain values have a written form, and two of them have the
same if and only if they are equal up to the order of entries. -/
theorem dump?_eq_iff {v w : Value} (hv : IsPlain v) (hw : IsPlain w) :
    ∃ t u, dump? v = some t ∧ dump? w = some u ∧ (t = u ↔ Alike v w) := by
  obtain ⟨j, hj, hdj⟩ := exists_ofValue? hv
  obtain ⟨k, hk, hdk⟩ := exists_ofValue? hw
  refine ⟨j.write, k.write, by rw [dump?, hj]; rfl, by rw [dump?, hk]; rfl, ?_⟩
  rw [← ofValue?_eq_iff hv hw, hj, hk, Option.some_inj]
  refine ⟨fun h ↦ toValue_injective ?_, congrArg write⟩
  rw [← Option.some_inj, ← read?_write hdj, h, read?_write hdk]

def unordered : Value :=
  .map [(.text "b", .list [.integer 1, .map []]), (.text "a", .text "\"\n")]

def reordered : Value :=
  .map [(.text "a", .text "\"\n"), (.text "b", .tuple [.integer 1, .map []])]

theorem dump?_eq_iff_reordered :
    IsPlain unordered ∧ IsPlain reordered ∧ ∃ t u,
      dump? unordered = some t ∧ dump? reordered = some u ∧ (t = u ↔ Alike unordered reordered) := by
  have hi : ∀ v ∈ [.integer 1, .map []], IsPlain v :=
    List.forall_mem_cons.2
      ⟨.integer 1, List.forall_mem_singleton.2 (.map (by simp) (by simp) (by simp))⟩
  have hv : IsPlain unordered := .map (by simp) (by simp)
    (List.forall_mem_cons.2 ⟨.sequence rfl hi, List.forall_mem_singleton.2 (.text _)⟩)
  have hw : IsPlain reordered := .map (by simp) (by simp)
    (List.forall_mem_cons.2 ⟨.text _, List.forall_mem_singleton.2 (.sequence rfl hi)⟩)
  exact ⟨hv, hw, dump?_eq_iff hv hw⟩

end Json

end TreeMarkup
