import Mathlib.Tactic.IntervalCases
import Mathlib.Tactic.SplitIfs
import TreeMarkup.Json.Read
import TreeMarkup.Proofs.FloatTexts

namespace TreeMarkup

open Double (signed)
open Json (isNumberChar)

theorem forall_mem_of_all {t : Text} {p : Char → Prop} [DecidablePred p]
    (h : t.all (fun c ↦ decide (p c)) = true) : ∀ c ∈ t, p c := by
  simpa using h

theorem mem_of_isDigit {c : Char} (h : c.isDigit = true) : c ∈ "0123456789".toList := by
  simp only [Char.isDigit, Bool.and_eq_true, decide_eq_true_eq, UInt32.le_iff_toNat_le] at h
  have h₁ : 48 ≤ c.toNat := h.1
  have h₂ : c.toNat ≤ 57 := h.2
  rw [← Char.ofNat_toNat c]
  interval_cases c.toNat <;> decide

theorem isNumberChar_of_isDigit {c : Char} (h : c.isDigit = true) : isNumberChar c = true := by
  rw [isNumberChar, h, Bool.true_or]

theorem mem_of_isNumberChar {c : Char} (h : isNumberChar c = true) :
    c ∈ "0123456789".toList ++ ['+', '-', '.', 'e', 'E'] := by
  rw [isNumberChar, Bool.or_eq_true] at h
  rw [List.mem_append]
  exact h.imp mem_of_isDigit (by simp)

theorem isNumberChar_of_mantissa : ∀ c : Char, c.isDigit = true ∨ c = '.' →
    isNumberChar c = true ∧ (c ≠ '-' ∧ c ≠ '+') ∧ (c != 'e' && c != 'E') = true := by
  have h : ∀ c ∈ "0123456789".toList ++ ['.'],
      isNumberChar c = true ∧ (c ≠ '-' ∧ c ≠ '+') ∧ (c != 'e' && c != 'E') = true :=
    forall_mem_of_all (by decide)
  intro c hc
  exact h c (List.mem_append.2 (hc.imp mem_of_isDigit (by simp)))

namespace Text

theorem bare_of_isNumberChar : ∀ c, isNumberChar c = true →
    isNumberGap c = false ∧ c ≠ '_' ∧ asciiDigits [c] = [c] ∧ c.toLower ≠ 'n' := by
  have h : ∀ c ∈ "0123456789".toList ++ ['+', '-', '.', 'e', 'E'],
      isNumberGap c = false ∧ c ≠ '_' ∧ asciiDigits [c] = [c] ∧ c.toLower ≠ 'n' :=
    forall_mem_of_all (by decide)
  exact fun c hc ↦ h c (mem_of_isNumberChar hc)

variable {t : Text} {b : Bool}

theorem dropUnderscores?_of_not_mem (h : '_' ∉ t) : dropUnderscores? t = some t := by
  fun_induction dropUnderscores? t <;> simp_all

theorem dropWhile_eq_self {p : Char → Bool} (h : ∀ c ∈ t, p c = false) : t.dropWhile p = t := by
  cases t with
  | nil => rfl
  | cons c t => simp [h c]

theorem bareNumber?_of_forall (h : ∀ c ∈ t, isNumberChar c = true) : bareNumber? t = some t := by
  have hg : ∀ c ∈ t, isNumberGap c = false := fun c hc ↦ (bare_of_isNumberChar c (h c hc)).1
  have hd : asciiDigits t = t := by
    refine (List.map_congr_left fun c hc ↦ ?_).trans (List.map_id t)
    exact List.cons.inj (bare_of_isNumberChar c (h c hc)).2.2.1 |>.1
  rw [bareNumber?, dropWhile_eq_self hg, dropWhile_eq_self (by simpa using hg), List.reverse_reverse,
    hd]
  exact dropUnderscores?_of_not_mem fun hc ↦ (bare_of_isNumberChar _ (h _ hc)).2.1 rfl

structure IsNumeral (t : Text) : Prop where
  isNumberChar : ∀ c ∈ t, isNumberChar c = true
  unsigned : ∀ c ∈ t.head?, c ≠ '-' ∧ c ≠ '+'
  not_integer : ∃ c ∈ t, c.isDigit = false ∧ c ≠ '-'

theorem forall_mem_signed (h : ∀ c ∈ t, isNumberChar c = true) :
    ∀ c ∈ signed b t, isNumberChar c = true := by
  intro c hc
  rcases Double.mem_signed hc with rfl | hc
  · decide
  · exact h c hc

theorem readSign_signed (h : ∀ c ∈ t.head?, c ≠ '-' ∧ c ≠ '+') : readSign (signed b t) = (b, t) := by
  cases b with
  | true => rfl
  | false =>
    cases t with
    | nil => rfl
    | cons c t => simp_all [signed, readSign]

theorem ofInt_eq_signed (n : Int) : ofInt n = signed (n < 0) (ofNat n.natAbs) := by
  simp [ofInt, signed]

theorem toInt?_ofInt (n : Int) : toInt? (ofInt n) = some n := by
  have hd : ∀ c ∈ ofNat n.natAbs, c.isDigit = true := fun c ↦ isDigit_of_mem_ofNat
  have hs : ∀ c ∈ (ofNat n.natAbs).head?, c ≠ '-' ∧ c ≠ '+' := fun c hc ↦
    (isNumberChar_of_mantissa c (.inl (hd c (List.mem_of_mem_head? hc)))).2.1
  have hb := bareNumber?_of_forall (forall_mem_signed (b := n < 0) fun c hc ↦
    isNumberChar_of_isDigit (hd c hc))
  rw [toInt?, ofInt_eq_signed, hb]
  simp only [Option.bind_eq_bind, Option.bind_some, readSign_signed hs, toNat?_ofNat, Option.pure_def]
  congr
  simp only [decide_eq_true_eq]
  split <;> omega

theorem toNat?_ofNat_zeros (n k : Nat) : toNat? (ofNat n ++ zeros k) = some (n * 10 ^ k) := by
  rcases Nat.eq_zero_or_pos n with rfl | hn
  · have hz : ofNat 0 ++ zeros k = zeros k ++ ofNat 0 := by
      simp [ofNat, zeros, ← List.replicate_succ, ← List.replicate_succ']
    rw [hz, toNat?_zeros_append, Nat.zero_mul]
  · rw [← ofNat_mul_pow hn, toNat?_ofNat]

section Mantissa

theorem readMantissa?_of_digits (h : ∀ c ∈ t, c.isDigit = true) {n : Nat} (hn : toNat? t = some n) :
    readMantissa? t = some ⟨n, 0⟩ := by
  have hd : t.dropWhile Char.isDigit = [] := List.dropWhile_eq_nil_iff.2 h
  have ht : t.takeWhile Char.isDigit = t := List.takeWhile_eq_self_iff.2 h
  rw [readMantissa?, hd, ht, hn]
  rfl

theorem readMantissa?_of_point {whole fraction : Text} (hw : ∀ c ∈ whole, c.isDigit = true)
    (hf : ∀ c ∈ fraction, c.isDigit = true) {n : Nat} (hn : toNat? (whole ++ fraction) = some n)
    {e : Int} (he : -fraction.length = e) :
    readMantissa? (whole ++ '.' :: fraction) = some ⟨n, e⟩ := by
  have hp : ∀ c ∈ ('.' :: fraction).head?, c.isDigit = false := by simp
  rw [readMantissa?, dropWhile_append hw hp, takeWhile_append hw hp]
  simpa [hn, he] using hf

end Mantissa

section Exponent

variable {m : Text} (hm : ∀ c ∈ m, c.isDigit = true ∨ c = '.')
include hm

theorem readDecimal?_of_mantissa : readDecimal? m = readMantissa? m := by
  have hp : ∀ c ∈ m, (c != 'e' && c != 'E') = true :=
    fun c hc ↦ (isNumberChar_of_mantissa c (hm c hc)).2.2
  rw [readDecimal?, List.span_eq_takeWhile_dropWhile, List.dropWhile_eq_nil_iff.2 hp,
    List.takeWhile_eq_self_iff.2 hp]

theorem readDecimal?_append {d : Decimal} (hd : readMantissa? m = some d) {ds : Text} {n : Nat}
    (hn : toNat? ds = some n) (negative : Bool) :
    readDecimal? (m ++ 'e' :: (if negative then '-' else '+') :: ds) =
      some ⟨d.coefficient, d.exponent + if negative then -(n : Int) else n⟩ := by
  have hp : ∀ c ∈ m, (c != 'e' && c != 'E') = true :=
    fun c hc ↦ (isNumberChar_of_mantissa c (hm c hc)).2.2
  rw [readDecimal?, List.span_eq_takeWhile_dropWhile, takeWhile_append hp (by simp),
    dropWhile_append hp (by simp)]
  cases negative <;> simp [hd, hn, readSign]

end Exponent

end Text

namespace Decimal

open Text

variable (d : Decimal)

theorem pointPlace_eq : d.pointPlace = d.digits.length + d.exponent := rfl

theorem readMantissa?_mantissa :
    readMantissa? d.mantissa = some ⟨d.coefficient, 1 - d.digits.length⟩ := by
  have hn : toNat? d.digits = some d.coefficient := toNat?_ofNat _
  rcases d.mantissa_eq_digits_or with ⟨hm, hl⟩ | ⟨c, cs, hs, hm⟩
  · rw [hm, readMantissa?_of_digits (fun c ↦ mem_digits) hn, hl]
    rfl
  · have hd : ∀ c' ∈ c :: cs, c'.isDigit = true := fun c' h ↦ mem_digits (hs ▸ h)
    rw [hs] at hn
    rw [hm, hs, List.length_cons]
    have hw : ∀ c' ∈ [c], c'.isDigit = true := by simp [hd]
    exact readMantissa?_of_point hw (by simp_all) hn (by simp)

theorem readDecimal?_scientific : readDecimal? d.scientific = some d := by
  have hp := d.pointPlace_eq
  rw [scientific_eq, exponentSign_eq, readDecimal?_append d.forall_mem_mantissa
    d.readMantissa?_mantissa (toNat?_zeros_append _ _)]
  refine congrArg (fun e ↦ some (⟨d.coefficient, e⟩ : Decimal)) ?_
  simp only [decide_eq_true_eq]
  split <;> omega

section Pointed

variable {d}

theorem readMantissa?_of_le (h : d.pointPlace ≤ 0) :
    readMantissa? ("0." ++ zeros (-d.pointPlace).toNat ++ d.digits) = some d := by
  have hw : ∀ c ∈ zeros 1, c.isDigit = true := fun _ ↦ isDigit_of_mem_zeros
  have hf : ∀ c ∈ zeros (-d.pointPlace).toNat ++ d.digits, c.isDigit = true :=
    List.forall_mem_append.2 ⟨fun _ ↦ isDigit_of_mem_zeros, fun _ ↦ mem_digits⟩
  have hn : toNat? (zeros 1 ++ (zeros (-d.pointPlace).toNat ++ d.digits)) = some d.coefficient :=
    toNat?_zeros_append ((-d.pointPlace).toNat + 1) d.coefficient
  refine readMantissa?_of_point hw hf hn ?_
  have hp := d.pointPlace_eq
  simp only [zeros, List.length_append, List.length_replicate]
  omega

theorem readMantissa?_of_lt (h₀ : 0 < d.pointPlace) (h : d.pointPlace < d.digits.length) :
    readMantissa? (d.digits.take d.pointPlace.toNat ++ '.' :: d.digits.drop d.pointPlace.toNat) =
      some d := by
  have hw : ∀ c ∈ d.digits.take d.pointPlace.toNat, c.isDigit = true :=
    fun _ hc ↦ mem_digits (List.mem_of_mem_take hc)
  have hf : ∀ c ∈ d.digits.drop d.pointPlace.toNat, c.isDigit = true :=
    fun _ hc ↦ mem_digits (List.mem_of_mem_drop hc)
  refine readMantissa?_of_point hw hf ?_ ?_
  · rw [List.take_append_drop]
    exact toNat?_ofNat _
  · have hp := d.pointPlace_eq
    rw [List.length_drop]
    omega

theorem readMantissa?_of_ge (d : Decimal) :
    readMantissa? (d.digits ++ zeros d.exponent.toNat ++ ".0") =
      some ⟨d.coefficient * 10 ^ (d.exponent.toNat + 1), -1⟩ := by
  have hw : ∀ c ∈ d.digits ++ zeros d.exponent.toNat, c.isDigit = true :=
    List.forall_mem_append.2 ⟨fun _ ↦ mem_digits, fun _ ↦ isDigit_of_mem_zeros⟩
  have hf : ∀ c ∈ zeros 1, c.isDigit = true := fun _ ↦ isDigit_of_mem_zeros
  refine readMantissa?_of_point hw hf ?_ rfl
  rw [List.append_assoc, zeros, zeros, List.replicate_append_replicate]
  exact toNat?_ofNat_zeros _ _

end Pointed

theorem readMantissa?_pointed : ∃ d', readMantissa? d.pointed = some d' ∧ d'.value = d.value := by
  have hp := d.pointPlace_eq
  rw [pointed]
  split_ifs with h₀ h
  · exact ⟨d, readMantissa?_of_le h₀, rfl⟩
  · exact ⟨d, readMantissa?_of_lt (by omega) h, rfl⟩
  · refine ⟨_, d.readMantissa?_of_ge, ?_⟩
    have he : (10 : ℚ) ^ d.exponent = 10 ^ d.exponent.toNat := by
      rw [← zpow_natCast, Int.toNat_of_nonneg (by omega)]
    rw [value, value, he, pow_succ]
    simp
    ring

theorem readDecimal?_pointed : ∃ d', readDecimal? d.pointed = some d' ∧ d'.value = d.value := by
  rw [readDecimal?_of_mantissa d.forall_mem_pointed]
  exact d.readMantissa?_pointed

theorem readDecimal?_general : ∃ d', readDecimal? d.general = some d' ∧ d'.value = d.value := by
  rw [general]
  split
  · exact d.readDecimal?_pointed
  · exact ⟨d, d.readDecimal?_scientific, rfl⟩

theorem isNumeral_pointed : d.pointed.IsNumeral where
  isNumberChar c hc := (isNumberChar_of_mantissa c (d.forall_mem_pointed c hc)).1
  unsigned c hc :=
    (isNumberChar_of_mantissa c (d.forall_mem_pointed c (List.mem_of_mem_head? hc))).2.1
  not_integer := by
    refine ⟨'.', ?_, by decide⟩
    rw [pointed]
    split_ifs <;> simp

theorem isNumeral_scientific : d.scientific.IsNumeral where
  isNumberChar c hc := by
    rw [scientific_eq, exponentSign] at hc
    simp only [List.mem_append, List.mem_cons, zeros, List.mem_replicate] at hc
    rcases hc with hc | rfl | hc | ⟨-, rfl⟩ | hc
    · exact (isNumberChar_of_mantissa c (d.forall_mem_mantissa c hc)).1
    · decide
    · split at hc <;> subst hc <;> decide
    · decide
    · exact isNumberChar_of_isDigit (isDigit_of_mem_ofNat hc)
  unsigned c hc := by
    have hn : d.mantissa ≠ [] := by
      rcases d.mantissa_eq_digits_or with ⟨h, hl⟩ | ⟨c, cs, -, h⟩ <;> rw [h]
      · exact List.ne_nil_of_length_pos d.length_digits_pos
      · simp
    rw [scientific_eq, List.head?_append_of_ne_nil _ hn] at hc
    exact (isNumberChar_of_mantissa c (d.forall_mem_mantissa c (List.mem_of_mem_head? hc))).2.1
  not_integer := ⟨'e', by simp [scientific_eq], by decide⟩

theorem isNumeral_general : d.general.IsNumeral := by
  rw [general]
  split
  · exact d.isNumeral_pointed
  · exact d.isNumeral_scientific

end Decimal

namespace Double

open Text

variable {b : Bool} {u : Text}

theorem not_mem_lowerAscii (hu : u.IsNumeral) : 'n' ∉ lowerAscii u := by
  intro hn
  obtain ⟨c, hc, he⟩ := List.mem_map.1 hn
  exact (bare_of_isNumberChar c (hu.isNumberChar c hc)).2.2.2 he

theorem read?_signed (hu : u.IsNumeral) {d : Decimal} (hd : readDecimal? u = some d) :
    read? (signed b u) = some (ofDecimal b d) := by
  have hw : ∀ word : Text, 'n' ∈ word → lowerAscii u ≠ word := by
    rintro word hm rfl
    exact not_mem_lowerAscii hu hm
  rw [read?, bareNumber?_of_forall (forall_mem_signed hu.isNumberChar)]
  simp only [Option.bind_eq_bind, Option.bind_some, readSign_signed hu.unsigned, hd]
  rw [if_neg, if_neg]
  · rfl
  · exact hw _ (by decide)
  · rw [Bool.or_eq_true, decide_eq_true_eq, decide_eq_true_eq, not_or]
    exact ⟨hw _ (by decide), hw _ (by decide)⟩

/-- The general numeral of a finite number, a numeral behind its sign, is read as that number. -/
theorem read?_general (b : Bool) (exponent : Fin 2047) (fraction : Fin fractionCount) :
    ∃ u : Text, u.IsNumeral ∧ (finite b exponent fraction).general = signed b u ∧
      read? (signed b u) = some (finite b exponent fraction) := by
  by_cases hz : (finite b exponent fraction).isZero = true
  · have hu : Text.IsNumeral "0.0" :=
      ⟨forall_mem_of_all (by decide), by rintro c ⟨⟩; decide, '.', by decide, by decide⟩
    have hd : readDecimal? "0.0" = some ⟨0, -1⟩ := by decide
    have hr : RoundsTo (Decimal.mk 0 (-1)).value (ordinal exponent fraction) := by
      rw [isZero_iff.1 hz]
      exact roundsTo_zero (by simp [Decimal.value]) (by simp [Decimal.value])
    refine ⟨_, hu, ?_, ?_⟩
    · rw [general, if_pos hz]
    · rw [read?_signed hu hd, ofDecimal_eq_finite_iff.2 hr]
  · have ho : 0 < ordinal exponent fraction :=
      Nat.pos_of_ne_zero fun h ↦ hz (isZero_iff.2 h)
    obtain ⟨d, hd, hv⟩ := (shortest exponent fraction).readDecimal?_general
    have hr := ofDecimal_eq_finite_iff.1 (isShortest_shortest ho).reads
    rw [← hv] at hr
    refine ⟨_, (shortest exponent fraction).isNumeral_general, ?_, ?_⟩
    · rw [general, if_neg hz]
    · rw [read?_signed (shortest exponent fraction).isNumeral_general hd,
        ofDecimal_eq_finite_iff.2 hr]

end Double

end TreeMarkup
