import Mathlib.Tactic.SplitIfs
import TreeMarkup.Json.Basic
import TreeMarkup.Proofs.ReadNumerals

namespace TreeMarkup.Json

section

variable {c : Char} {r : Text}

theorem readText?_letter {e : Char} (he : escaped? e = some c) :
    readText? ('\\' :: e :: r) = (readText? r).map fun p ↦ (c :: p.1, p.2) := by
  rw [readText?, he]
  · cases readText? r <;> rfl
  · rintro _ _ _ _ _ rfl
    cases he

/-- The numbers of characters leave out those of halves of surrogate pairs. -/
theorem ofCodeUnit_toNat (c : Char) : Text.ofCodeUnit c.toNat = c := by
  have hc : ¬(0xD800 ≤ c.toNat ∧ c.toNat ≤ 0xDFFF) := by
    have hv : c.toNat < 0xD800 ∨ 0xDFFF < c.toNat ∧ c.toNat < 0x110000 := c.valid
    omega
  rw [Text.ofCodeUnit, if_neg (by simpa using hc), Char.ofNat_toNat]

theorem readText?_digits {ds : Text} (hl : ds.length = 4) (hd : Text.hexNat? ds = some c.toNat) :
    readText? ('\\' :: 'u' :: (ds ++ r)) = (readText? r).map fun p ↦ (c :: p.1, p.2) := by
  obtain ⟨h₁, h₂, h₃, h₄, rfl⟩ : ∃ h₁ h₂ h₃ h₄, ds = [h₁, h₂, h₃, h₄] := by
    match ds, hl with
    | [h₁, h₂, h₃, h₄], _ => exact ⟨h₁, h₂, h₃, h₄, rfl⟩
  change readText? ('\\' :: 'u' :: h₁ :: h₂ :: h₃ :: h₄ :: r) = _
  rw [readText?, hd]
  cases readText? r with
  | none => rfl
  | some p => simp [ofCodeUnit_toNat]

theorem readText?_plain (hq : c ≠ '"') (hb : c ≠ '\\') :
    readText? (c :: r) = (readText? r).map fun p ↦ (c :: p.1, p.2) := by
  rw [readText?]
  · cases readText? r <;> rfl
  · exact hq
  · rintro _ _ _ _ _ rfl
    exact absurd rfl hb
  · rintro _ _ rfl
    exact absurd rfl hb

end

theorem hexNat?_padStart : ∀ n < 0x20,
    (Text.padStart 4 '0' (Text.hexDigits n)).length = 4 ∧
      Text.hexNat? (Text.padStart 4 '0' (Text.hexDigits n)) = some n := by
  decide

theorem readText?_escapeChar (c : Char) (r : Text) :
    readText? (escapeChar c ++ r) = (readText? r).map fun p ↦ (c :: p.1, p.2) := by
  have hc {n : Nat} (h : c.toNat = n) : c = Char.ofNat n := h ▸ (Char.ofNat_toNat c).symm
  rw [escapeChar]
  split_ifs with hq hb ht hn hf hr hl
  · exact readText?_letter (by rcases (by simpa using hq) with rfl | rfl <;> rfl)
  · exact readText?_letter (e := 'b') (hc hb ▸ rfl)
  · exact readText?_letter (e := 't') (ht ▸ rfl)
  · exact readText?_letter (e := 'n') (hn ▸ rfl)
  · exact readText?_letter (e := 'f') (hc hf ▸ rfl)
  · exact readText?_letter (e := 'r') (hr ▸ rfl)
  · obtain ⟨h₁, h₂⟩ := hexNat?_padStart _ hl
    exact readText?_digits h₁ h₂
  · simp only [Bool.or_eq_true, decide_eq_true_eq, not_or] at hq
    exact readText?_plain hq.1 hq.2

theorem readText?_writeText (t r : Text) :
    readText? (t.flatMap escapeChar ++ '"' :: r) = some (t, r) := by
  induction t with
  | nil => rfl
  | cons c t ih =>
    rw [List.flatMap_cons, List.append_assoc, readText?_escapeChar, ih]
    rfl

def Follows (r : Text) : Prop := ∀ c ∈ r.head?, c = ',' ∨ c = '\n'

theorem Follows.not_isNumberChar {r : Text} (h : Follows r) :
    ∀ c ∈ r.head?, isNumberChar c = false := by
  intro c hc
  rcases h c hc with rfl | rfl <;> decide

section Atoms

def isAtomStart (c : Char) : Bool := !isBlank c && !(['[', ']', '\x7b', '"'].contains c)

theorem isAtomStart_iff {c : Char} : isAtomStart c = true ↔
    isBlank c = false ∧ c ≠ '[' ∧ c ≠ ']' ∧ c ≠ '\x7b' ∧ c ≠ '"' := by
  simp [isAtomStart]

/-- `IsAtom u v`: the text `u` is read as the value `v` without looking into brackets or quotes. -/
structure IsAtom (u : Text) (v : Value) : Prop where
  start : u.head?.any isAtomStart = true
  reads : ∀ r, Follows r → readAtom? (u ++ r) = some (v, r)

variable {u : Text} {v : Value}

theorem isAtom_word (h : (u, v) ∈ words) : IsAtom u v where
  start := by
    have hs : ∀ w ∈ words.map Prod.fst, w.head?.any isAtomStart = true := by decide
    exact hs u (List.mem_map_of_mem h)
  reads r _ := by
    simp only [words, List.mem_cons, Prod.mk.injEq, List.not_mem_nil, or_false] at h
    rcases h with ⟨rfl, rfl⟩ | ⟨rfl, rfl⟩ | ⟨rfl, rfl⟩ | ⟨rfl, rfl⟩ | ⟨rfl, rfl⟩ | ⟨rfl, rfl⟩ <;> rfl

theorem isAtomStart_of_isNumberChar {c : Char} (h : isNumberChar c = true) :
    isAtomStart c = true := by
  have hs : ∀ c ∈ "0123456789".toList ++ ['+', '-', '.', 'e', 'E'], isAtomStart c = true :=
    forall_mem_of_all (by decide)
  exact hs c (mem_of_isNumberChar h)

/-- No word begins with a numeral, since no word has a character that may follow one. -/
theorem not_prefix_of_word (hu : ∀ c ∈ u, isNumberChar c = true) {r : Text} (hr : Follows r) :
    ∀ w ∈ words, ¬w.1 <+: u ++ r := by
  have hw : ∀ w ∈ words, w.1.all isNumberChar = false ∧ ',' ∉ w.1 ∧ '\n' ∉ w.1 := by decide
  intro w hm hp
  obtain ⟨ha, hcomma, hline⟩ := hw w hm
  obtain ⟨c, hc, hn⟩ : ∃ c ∈ w.1, isNumberChar c = false := by simpa using ha
  rcases List.prefix_or_prefix_of_prefix hp (List.prefix_append u r) with h | ⟨s, hs⟩
  · rw [hu c (h.subset hc)] at hn
    cases hn
  · rw [← hs, List.prefix_append_right_inj] at hp
    have hms : ∀ d ∈ s, d ∈ w.1 := fun d hd ↦ hs ▸ List.mem_append_right u hd
    cases s with
    | nil =>
      rw [List.append_nil] at hs
      rw [hu c (hs ▸ hc)] at hn
      cases hn
    | cons d s =>
      obtain ⟨t, rfl⟩ := hp
      rcases hr d rfl with rfl | rfl
      · exact hcomma (hms _ List.mem_cons_self)
      · exact hline (hms _ List.mem_cons_self)

theorem isAtom_numeral (hn : u ≠ []) (hu : ∀ c ∈ u, isNumberChar c = true)
    (hv : readNumber? u = some v) : IsAtom u v where
  start := by
    cases u with
    | nil => exact absurd rfl hn
    | cons c u => exact isAtomStart_of_isNumberChar (hu c List.mem_cons_self)
  reads r hr := by
    have hf : words.find? (fun w ↦ w.1.isPrefixOf (u ++ r)) = none := by
      rw [List.find?_eq_none]
      intro w hw hp
      exact not_prefix_of_word hu hr w hw (List.isPrefixOf_iff_prefix.1 hp)
    rw [readAtom?, hf]
    dsimp only
    rw [Text.takeWhile_append hu hr.not_isNumberChar, Text.dropWhile_append hu hr.not_isNumberChar, hv]
    rfl

theorem isAtom_ofInt (n : Int) : IsAtom (Text.ofInt n) (.integer n) := by
  have hd : ∀ c ∈ Text.ofNat n.natAbs, c.isDigit = true := fun c ↦ Text.isDigit_of_mem_ofNat
  have hm : ∀ c ∈ Text.ofInt n, c = '-' ∨ c.isDigit = true := by
    intro c hc
    rw [Text.ofInt_eq_signed] at hc
    exact (Double.mem_signed hc).imp_right (hd c)
  refine isAtom_numeral ?_ ?_ ?_
  · rw [Text.ofInt]
    split
    · simp
    · exact Nat.toDigits_ne_nil
  · rintro c hc
    rcases hm c hc with rfl | h
    · decide
    · exact isNumberChar_of_isDigit h
  · rw [readNumber?, if_pos, Text.toInt?_ofInt]
    · rfl
    · simpa [or_comm] using hm

theorem isAtom_writeDouble (x : Double) : IsAtom (writeDouble x) (.float x) := by
  cases x with
  | infinite negative => cases negative <;> exact isAtom_word (by simp [words]; decide)
  | nan => exact isAtom_word (by simp [words]; decide)
  | finite negative exponent fraction =>
    obtain ⟨u, hu, hg, hr⟩ := Double.read?_general negative exponent fraction
    obtain ⟨c, hc, hi⟩ := hu.not_integer
    have hm : c ∈ Double.signed negative u := by
      cases negative <;> simp [Double.signed, hc]
    rw [writeDouble, hg]
    · refine isAtom_numeral (List.ne_nil_of_mem hm) (Text.forall_mem_signed hu.isNumberChar) ?_
      rw [readNumber?, if_neg, hr]
      · rfl
      · intro ha
        have := List.all_eq_true.1 ha c hm
        simp [hi] at this
    · simp
    · simp

end Atoms

end TreeMarkup.Json
