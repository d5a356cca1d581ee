import TreeMarkup.Proofs.WrittenAtoms

namespace TreeMarkup

namespace Value

theorem putEntry_of_forall {key value : Value} {entries : List (Value × Value)}
    (h : ∀ e ∈ entries, key.sameKey e.1 = false) :
    putEntry key value entries = entries ++ [(key, value)] := by
  induction entries with
  | nil => rfl
  | cons e entries ih =>
    rw [List.forall_mem_cons] at h
    simp [putEntry, h.1, ih h.2]

theorem foldl_putEntry {put entries : List (Value × Value)}
    (h : (put ++ entries).Pairwise fun e f ↦ f.1.sameKey e.1 = false) :
    entries.foldl (fun put e ↦ putEntry e.1 e.2 put) put = put ++ entries := by
  induction entries generalizing put with
  | nil => simp
  | cons e entries ih =>
    have hn : ∀ f ∈ put, e.1.sameKey f.1 = false :=
      fun f hf ↦ (List.pairwise_append.1 h).2.2 f hf e List.mem_cons_self
    rw [List.append_cons] at h
    rw [List.foldl_cons, putEntry_of_forall hn, ih h, ← List.append_cons]

theorem mapping_of_pairwise {entries : List (Value × Value)}
    (h : entries.Pairwise fun e f ↦ f.1.sameKey e.1 = false) : mapping entries = map entries :=
  have hp : ([] ++ entries).Pairwise fun e f : Value × Value ↦ f.1.sameKey e.1 = false := h
  congrArg map (foldl_putEntry hp)

end Value

namespace Json

mutual

def toValue : Json → Value
  | null => .null
  | boolean b => .boolean b
  | integer n => .integer n
  | float x => .float x
  | text t => .text t
  | array items => .list (toValues items)
  | object members => .map (toEntries members)

def toValues : List Json → List Value
  | [] => []
  | j :: js => toValue j :: toValues js

def toEntries : List (Text × Json) → List (Value × Value)
  | [] => []
  | (name, j) :: members => (.text name, toValue j) :: toEntries members

end

/-- No object of the tree has two members of one name. -/
inductive IsDistinct : Json → Prop
  | null : IsDistinct null
  | boolean (b : Bool) : IsDistinct (boolean b)
  | integer (n : Int) : IsDistinct (integer n)
  | float (x : Double) : IsDistinct (float x)
  | text (t : Text) : IsDistinct (text t)
  | array {items : List Json} (h : ∀ j ∈ items, IsDistinct j) : IsDistinct (array items)
  | object {members : List (Text × Json)} (hn : (members.map Prod.fst).Nodup)
      (h : ∀ m ∈ members, IsDistinct m.2) : IsDistinct (object members)

variable {rest : Text} {n : Nat}

section Gaps

def IsGap (t : Text) : Prop := ∀ c ∈ t, isBlank c = true

variable {gap t : Text} (hg : IsGap gap)
include hg

theorem isGap_deeper : IsGap (gap ++ "  ") :=
  List.forall_mem_append.2 ⟨hg, forall_mem_of_all (by decide)⟩

theorem isGap_line : IsGap ('\n' :: gap) := List.forall_mem_cons.2 ⟨by decide, hg⟩

theorem stripStart_gap : Text.stripStart (gap ++ t) = Text.stripStart t :=
  List.dropWhile_append_of_pos hg

theorem readWithin_gap : readWithin n (gap ++ t) = readWithin n t := by
  cases n with
  | zero => rfl
  | succ n => rw [readWithin, readWithin, stripStart_gap hg]

theorem readItems_gap : readItems n (gap ++ t) = readItems n t := by
  cases n with
  | zero => rfl
  | succ n => rw [readItems, readItems, readWithin_gap hg]

theorem readMembers_gap : readMembers n (gap ++ t) = readMembers n t := by
  cases n with
  | zero => rfl
  | succ n => rw [readMembers, readMembers, stripStart_gap hg]

end Gaps

theorem stripStart_cons {c : Char} (h : isBlank c = false) (t : Text) :
    Text.stripStart (c :: t) = c :: t := by
  simp [Text.stripStart, h]

/-- At whatever margin the tree stands, its written form is read as its value. -/
def ReadsBack (j : Json) : Prop :=
  ∀ ⦃margin rest : Text⦄ ⦃n : Nat⦄, IsGap margin → Follows rest →
    2 * (writeAt margin j ++ rest).length < n →
      readWithin n (writeAt margin j ++ rest) = some (j.toValue, rest)

theorem readWithin_atom {u : Text} {v : Value} (h : IsAtom u v) (hr : Follows rest) :
    readWithin (n + 1) (u ++ rest) = some (v, rest) := by
  rw [← h.reads rest hr]
  have hs := h.start
  cases u with
  | nil => cases hs
  | cons c u =>
    obtain ⟨hb, h₁, -, h₂, h₃⟩ : isBlank c = false ∧ _ := isAtomStart_iff.1 hs
    rw [readWithin, List.cons_append, stripStart_cons hb]
    split <;> simp_all

theorem readWithin_text (t : Text) :
    readWithin (n + 1) (writeText t ++ rest) = some (.text t, rest) := by
  have ht : writeText t ++ rest = '"' :: (t.flatMap escapeChar ++ '"' :: rest) := by
    simp [writeText]
  rw [ht, readWithin, stripStart_cons (by decide)]
  simp only [readText?_writeText]
  rfl

theorem readsBack_of_isAtom {j : Json} (h : ∀ margin, IsAtom (writeAt margin j) j.toValue) :
    ReadsBack j := by
  intro margin rest n _ hr hn
  obtain ⟨n, rfl⟩ : ∃ m, n = m + 1 := ⟨n - 1, by omega⟩
  exact readWithin_atom (h margin) hr

theorem readsBack_text (t : Text) : ReadsBack (text t) := by
  intro margin rest n _ hr hn
  obtain ⟨n, rfl⟩ : ∃ m, n = m + 1 := ⟨n - 1, by omega⟩
  exact readWithin_text t

theorem isAtom_writeAt_null (margin : Text) : IsAtom (writeAt margin null) .null :=
  isAtom_word List.mem_cons_self

theorem isAtom_writeAt_boolean (margin : Text) (b : Bool) :
    IsAtom (writeAt margin (boolean b)) (.boolean b) := by
  change IsAtom (writeBoolean b) (.boolean b)
  cases b <;> exact isAtom_word (by simp [words, writeBoolean])

def Begins (closing : Char) (u : Text) : Prop :=
  ∃ c r, u = c :: r ∧ isBlank c = false ∧ c ≠ closing

theorem begins_writeAt (margin : Text) (j : Json) : Begins ']' (writeAt margin j) := by
  have ha {u : Text} {v : Value} (h : IsAtom u v) : Begins ']' u := by
    have hs := h.start
    cases u with
    | nil => cases hs
    | cons c r =>
      have hc := isAtomStart_iff.1 hs
      exact ⟨c, r, rfl, hc.1, hc.2.2.1⟩
  have hb (opening closing : Char) (margin : Text) (pieces : List Text) :
      ∃ r, block opening closing margin pieces = opening :: r := by
    cases pieces <;> exact ⟨_, rfl⟩
  cases j with
  | null => exact ha (isAtom_writeAt_null margin)
  | boolean b => exact ha (isAtom_writeAt_boolean margin b)
  | integer n => exact ha (isAtom_ofInt n)
  | float x => exact ha (isAtom_writeDouble x)
  | text t => exact ⟨'"', _, rfl, by decide⟩
  | array items =>
    obtain ⟨r, hr⟩ := hb '[' ']' margin (writeItems (margin ++ "  ") items)
    exact ⟨'[', r, hr, by decide⟩
  | object members =>
    obtain ⟨r, hr⟩ := hb '\x7b' '\x7d' margin (writeMembers (margin ++ "  ") members)
    exact ⟨'\x7b', r, hr, by decide⟩

def layOut (deeper margin : Text) (closing : Char) (rest : Text) (pieces : List Text) : Text :=
  List.intercalate (',' :: deeper) pieces ++ '\n' :: (margin ++ closing :: rest)

theorem block_append {opening closing : Char} {margin p : Text} {ps : List Text} :
    block opening closing margin (p :: ps) ++ rest =
      opening :: ('\n' :: (margin ++ "  ") ++
        layOut ('\n' :: (margin ++ "  ")) margin closing rest (p :: ps)) := by
  simp [block, layOut]

section Pieces

variable {deeper margin : Text} {closing : Char}

theorem layOut_singleton (p : Text) :
    layOut deeper margin closing rest [p] = p ++ '\n' :: (margin ++ closing :: rest) := by
  simp [layOut]

theorem layOut_cons_cons (p q : Text) (ps : List Text) :
    layOut deeper margin closing rest (p :: q :: ps) =
      p ++ ',' :: (deeper ++ layOut deeper margin closing rest (q :: ps)) := by
  simp [layOut]

theorem begins_layOut {p : Text} (hp : Begins closing p) (ps : List Text) :
    Begins closing (layOut deeper margin closing rest (p :: ps)) := by
  obtain ⟨c, u, rfl, hc⟩ := hp
  cases ps with
  | nil => exact ⟨c, _, layOut_singleton _, hc⟩
  | cons q qs => exact ⟨c, _, layOut_cons_cons _ q qs, hc⟩

theorem stripStart_closing (hm : IsGap margin) (hc : isBlank closing = false) :
    Text.stripStart ('\n' :: (margin ++ closing :: rest)) = closing :: rest :=
  (stripStart_gap (isGap_line hm)).trans (stripStart_cons hc rest)

end Pieces

section Items

variable {t r r' : Text} {v : Value} {vs : List Value}

theorem readWithin_items {gap u : Text} (hg : IsGap gap) (hu : Begins ']' u)
    (hi : readItems n u = some (vs, rest)) :
    readWithin (n + 1) ('[' :: (gap ++ u)) = some (.list vs, rest) := by
  obtain ⟨c, u, rfl, hb, hc⟩ := hu
  rw [readWithin, stripStart_cons (by decide)]
  simp only [stripStart_gap hg, stripStart_cons hb]
  split
  · simp_all
  · rw [hi]
    rfl

theorem readItems_last (hv : readWithin n t = some (v, r)) (hr : Text.stripStart r = ']' :: rest) :
    readItems (n + 1) t = some ([v], rest) := by
  rw [readItems, hv]
  simp only [Option.bind_eq_bind, Option.bind_some, hr]
  rfl

theorem readItems_cons (hv : readWithin n t = some (v, ',' :: r))
    (hvs : readItems n r = some (vs, rest)) : readItems (n + 1) t = some (v :: vs, rest) := by
  rw [readItems, hv]
  simp only [Option.bind_eq_bind, Option.bind_some, stripStart_cons (by decide : isBlank ',' = false), hvs]
  rfl

end Items

section Arrays

variable {deeper margin margin' : Text}

theorem readItems_layOut (hm : IsGap margin) (hd : IsGap deeper) (hm' : IsGap margin')
    {js : List Json} (hne : js ≠ []) (h : ∀ j ∈ js, ReadsBack j)
    (hn : 2 * (layOut deeper margin' ']' rest (writeItems margin js)).length + 1 < n) :
    readItems n (layOut deeper margin' ']' rest (writeItems margin js)) =
      some (toValues js, rest) := by
  induction js generalizing n with
  | nil => exact absurd rfl hne
  | cons j js ih =>
    obtain ⟨n, rfl⟩ : ∃ m, n = m + 1 := ⟨n - 1, by omega⟩
    have hj := h j List.mem_cons_self
    cases js with
    | nil =>
      simp only [writeItems, layOut_singleton] at hn ⊢
      exact readItems_last (hj hm (by simp [Follows]) (by omega))
        (stripStart_closing hm' (by decide))
    | cons j' js =>
      have hjs := ih (n := n) (by simp) (fun k hk ↦ h k (List.mem_cons_of_mem j hk))
      simp only [writeItems, layOut_cons_cons] at hn hjs ⊢
      refine readItems_cons (hj hm (by simp [Follows]) (by omega)) ?_
      rw [readItems_gap hd]
      refine hjs ?_
      simp only [List.length_append, List.length_cons] at hn ⊢
      omega

theorem readsBack_array {items : List Json} (h : ∀ j ∈ items, ReadsBack j) :
    ReadsBack (array items) := by
  intro margin rest n hm hr hn
  obtain ⟨n, rfl⟩ : ∃ m, n = m + 1 := ⟨n - 1, by omega⟩
  have hw : writeAt margin (array items) =
    block '[' ']' margin (writeItems (margin ++ "  ") items) := rfl
  rw [hw] at hn ⊢
  cases items with
  | nil => rfl
  | cons j js =>
    have hd := isGap_line (isGap_deeper hm)
    have hb := begins_writeAt (margin ++ "  ") j
    rw [writeItems, block_append] at hn ⊢
    refine readWithin_items hd (begins_layOut hb _) ?_
    refine readItems_layOut (isGap_deeper hm) hd hm (List.cons_ne_nil j js) h ?_
    rw [List.length_cons, List.length_append, List.length_cons] at hn
    rw [writeItems]
    omega

end Arrays

section Objects

variable {t r r' : Text} {v : Value} {entries : List (Value × Value)} (name : Text)

theorem readWithin_members {gap u : Text} (hg : IsGap gap) (hu : Begins '\x7d' u)
    (hi : readMembers n u = some (entries, rest)) :
    readWithin (n + 1) ('\x7b' :: (gap ++ u)) = some (.mapping entries, rest) := by
  obtain ⟨c, u, rfl, hb, hc⟩ := hu
  rw [readWithin, stripStart_cons (by decide)]
  simp only [stripStart_gap hg, stripStart_cons hb]
  split
  · simp_all
  · rw [hi]
    rfl

theorem writeText_append (name t : Text) :
    writeText name ++ t = '"' :: (name.flatMap escapeChar ++ '"' :: t) := by
  simp [writeText]

theorem readWithin_space (n : Nat) (t : Text) : readWithin n (' ' :: t) = readWithin n t :=
  have hg : IsGap [' '] := List.forall_mem_singleton.2 (by decide)
  readWithin_gap hg

theorem readMembers_last (hv : readWithin n t = some (v, r))
    (hr : Text.stripStart r = '\x7d' :: rest) :
    readMembers (n + 1) (writeText name ++ ':' :: ' ' :: t) = some ([(.text name, v)], rest) := by
  rw [writeText_append, readMembers, stripStart_cons (by decide)]
  simp only [readText?_writeText, Option.bind_eq_bind, Option.bind_some,
    stripStart_cons (by decide : isBlank ':' = false), readWithin_space, hv, hr]
  rfl

theorem readMembers_cons (hv : readWithin n t = some (v, ',' :: r))
    (hm : readMembers n r = some (entries, rest)) :
    readMembers (n + 1) (writeText name ++ ':' :: ' ' :: t) =
      some ((.text name, v) :: entries, rest) := by
  rw [writeText_append, readMembers, stripStart_cons (by decide)]
  simp only [readText?_writeText, Option.bind_eq_bind, Option.bind_some,
    stripStart_cons (by decide : isBlank ':' = false), readWithin_space, hv,
    stripStart_cons (by decide : isBlank ',' = false), hm]
  rfl

theorem writeMembers_nil (margin : Text) : writeMembers margin [] = [] := rfl

theorem writeMembers_cons (margin : Text) (m : Text × Json) (ms : List (Text × Json)) :
    writeMembers margin (m :: ms) =
      (writeText m.1 ++ ':' :: ' ' :: writeAt margin m.2) :: writeMembers margin ms := by
  simp [writeMembers]

variable {deeper margin margin' : Text}

theorem readMembers_layOut (hm : IsGap margin) (hd : IsGap deeper) (hm' : IsGap margin')
    {ms : List (Text × Json)} (hne : ms ≠ []) (h : ∀ m ∈ ms, ReadsBack m.2)
    (hn : 2 * (layOut deeper margin' '\x7d' rest (writeMembers margin ms)).length + 1 < n) :
    readMembers n (layOut deeper margin' '\x7d' rest (writeMembers margin ms)) =
      some (toEntries ms, rest) := by
  induction ms generalizing n with
  | nil => exact absurd rfl hne
  | cons m ms ih =>
    obtain ⟨n, rfl⟩ : ∃ k, n = k + 1 := ⟨n - 1, by omega⟩
    have hj := h m List.mem_cons_self
    cases ms with
    | nil =>
      simp only [writeMembers_cons, writeMembers_nil, layOut_singleton, List.append_assoc,
        List.cons_append] at hn ⊢
      simp only [List.length_append, List.length_cons] at hn
      refine readMembers_last m.1 (hj hm (by simp [Follows]) ?_)
        (stripStart_closing hm' (by decide))
      simp only [List.length_append, List.length_cons]
      omega
    | cons m' ms =>
      have hms := ih (n := n) (by simp) (fun k hk ↦ h k (List.mem_cons_of_mem m hk))
      simp only [writeMembers_cons, layOut_cons_cons, List.append_assoc,
        List.cons_append] at hn hms ⊢
      simp only [List.length_append, List.length_cons] at hn
      refine readMembers_cons m.1 (hj hm (by simp [Follows]) ?_) ?_
      · simp only [List.length_append, List.length_cons]
        omega
      · rw [readMembers_gap hd]
        exact hms (by omega)

theorem begins_writeText (name t : Text) : Begins '\x7d' (writeText name ++ t) :=
  ⟨'"', _, writeText_append name t, by decide⟩

theorem toValues_eq_map (js : List Json) : toValues js = js.map toValue := by
  induction js with
  | nil => rfl
  | cons j js ih => rw [toValues, ih, List.map_cons]

theorem toEntries_eq_map (ms : List (Text × Json)) :
    toEntries ms = ms.map fun m ↦ (.text m.1, m.2.toValue) := by
  induction ms with
  | nil => rfl
  | cons m ms ih => rw [toEntries, ih, List.map_cons]

theorem mapping_toEntries {ms : List (Text × Json)} (h : (ms.map Prod.fst).Nodup) :
    Value.mapping (toEntries ms) = .map (toEntries ms) := by
  refine Value.mapping_of_pairwise ?_
  rw [toEntries_eq_map, List.pairwise_map]
  refine (List.pairwise_map.1 h).imp fun {a b} hne ↦ ?_
  simpa [Value.sameKey] using Ne.symm hne

theorem readsBack_object {ms : List (Text × Json)} (hd : (ms.map Prod.fst).Nodup)
    (h : ∀ m ∈ ms, ReadsBack m.2) : ReadsBack (object ms) := by
  intro margin rest n hm hr hn
  obtain ⟨n, rfl⟩ : ∃ m, n = m + 1 := ⟨n - 1, by omega⟩
  have hw : writeAt margin (object ms) =
    block '\x7b' '\x7d' margin (writeMembers (margin ++ "  ") ms) := rfl
  have hv : toValue (object ms) = .mapping (toEntries ms) := (mapping_toEntries hd).symm
  rw [hw] at hn ⊢
  rw [hv]
  cases ms with
  | nil => rfl
  | cons m ms =>
    have hg := isGap_line (isGap_deeper hm)
    rw [writeMembers_cons, block_append] at hn ⊢
    refine readWithin_members hg (begins_layOut (begins_writeText m.1 _) _) ?_
    rw [← writeMembers_cons] at hn ⊢
    refine readMembers_layOut (isGap_deeper hm) hg hm (List.cons_ne_nil m ms) h ?_
    rw [List.length_cons, List.length_append, List.length_cons] at hn
    omega

end Objects

theorem readsBack {j : Json} (h : j.IsDistinct) : ReadsBack j := by
  induction h with
  | null => exact readsBack_of_isAtom isAtom_writeAt_null
  | boolean b => exact readsBack_of_isAtom fun margin ↦ isAtom_writeAt_boolean margin b
  | integer n => exact readsBack_of_isAtom fun _ ↦ isAtom_ofInt n
  | float x => exact readsBack_of_isAtom fun _ ↦ isAtom_writeDouble x
  | text t => exact readsBack_text t
  | array _ ih => exact readsBack_array ih
  | object hn _ ih => exact readsBack_object hn ih

/-- A tree that is written is read back. -/
theorem read?_write {j : Json} (h : j.IsDistinct) : read? j.write = some j.toValue := by
  have hm : IsGap [] := List.forall_mem_nil _
  have hr := readsBack h hm (by simp [Follows] : Follows ['\n']) (Nat.lt_succ_self _)
  rw [read?, write, hr]
  rfl

end Json

end TreeMarkup
