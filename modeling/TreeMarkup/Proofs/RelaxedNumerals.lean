import Mathlib.Data.List.TakeDrop
import Mathlib.Data.List.TakeWhile
import Mathlib.Tactic.Ring
import TreeMarkup.Double.Numeral

namespace TreeMarkup

namespace Text

theorem isDigit_of_mem_ofNat {n : Nat} {c : Char} (h : c ∈ ofNat n) : c.isDigit = true :=
  Nat.isDigit_of_mem_toDigits (by decide) (by decide) h

theorem isDigit_of_mem_zeros {k : Nat} {c : Char} (h : c ∈ zeros k) : c.isDigit = true := by
  rw [List.eq_of_mem_replicate h]
  decide

theorem toNat?_of_digits {t : Text} (hn : t ≠ []) (h : ∀ c ∈ t, c.isDigit = true) :
    toNat? t = some (Nat.ofDigitChars 10 t 0) := by
  rw [toNat?, if_pos]
  · rfl
  · rw [Bool.and_eq_true, Bool.not_eq_true', List.isEmpty_eq_false_iff, List.all_eq_true]
    exact ⟨hn, h⟩

theorem toNat?_zeros_append (k n : Nat) : toNat? (zeros k ++ ofNat n) = some n := by
  rw [toNat?_of_digits]
  · rw [Nat.ofDigitChars_append, zeros, Nat.ofDigitChars_replicate_zero, Nat.mul_zero, ofNat,
      Nat.ofDigitChars_toDigits (by decide) (by decide)]
  · exact List.append_ne_nil_of_right_ne_nil _ Nat.toDigits_ne_nil
  · intro c hc
    rcases List.mem_append.1 hc with hc | hc
    · exact isDigit_of_mem_zeros hc
    · exact isDigit_of_mem_ofNat hc

theorem toNat?_ofNat (n : Nat) : toNat? (ofNat n) = some n := toNat?_zeros_append 0 n

theorem ofNat_injective {m n : Nat} (h : ofNat m = ofNat n) : m = n := by
  have h := congrArg toNat? h
  rw [toNat?_ofNat, toNat?_ofNat] at h
  exact Option.some.inj h

theorem exponentSign_eq (power : Int) :
    exponentSign power = if decide (power < 0) then '-' else '+' := by
  simp [exponentSign]

theorem ofNat_mul_pow {n : Nat} (hn : 0 < n) (k : Nat) :
    ofNat (n * 10 ^ k) = ofNat n ++ zeros k := by
  induction k with
  | zero => rw [Nat.pow_zero, Nat.mul_one, zeros, List.replicate_zero, List.append_nil]
  | succ k ih =>
    have hm : n * 10 ^ (k + 1) = 10 * (n * 10 ^ k) + 0 := by ring
    have ha := Nat.toDigits_append_toDigits (d := 0) (by decide : 1 < 10)
      (Nat.mul_pos hn (Nat.pow_pos (n := k) (by decide : 0 < 10))) (by decide)
    rw [hm, ofNat, ← ha, zeros, List.replicate_succ', ← List.append_assoc]
    exact congrArg (· ++ ['0']) ih

end Text

namespace Decimal

def mantissa (d : Decimal) : Text :=
  match d.digits with
  | first :: c :: cs => first :: '.' :: c :: cs
  | s => s

/-- The digits with as many zeros behind them, a point among them, or zeros and a point before them
as it takes, for a point up to 21 places behind or 6 places before the first digit; and otherwise an
exponent. -/
def relaxed (d : Decimal) : Text :=
  let s := d.digits
  let n := d.pointPlace
  if s.length ≤ n ∧ n ≤ 21 then s ++ Text.zeros (n - s.length).toNat
  else if 0 < n ∧ n ≤ 21 then s.take n.toNat ++ '.' :: s.drop n.toNat
  else if -6 < n ∧ n ≤ 0 then "0." ++ Text.zeros (-n).toNat ++ s
  else d.mantissa ++ 'e' :: Text.exponentSign (n - 1) :: Text.ofNat (n - 1).natAbs

variable {d : Decimal}

theorem length_digits_pos (d : Decimal) : 0 < d.digits.length := Nat.length_toDigits_pos

theorem mem_digits {c : Char} (h : c ∈ d.digits) : c.isDigit = true := Text.isDigit_of_mem_ofNat h

theorem scientific_eq (d : Decimal) :
    d.scientific = d.mantissa ++ 'e' :: Text.exponentSign (d.pointPlace - 1) ::
      (Text.zeros (2 - (Text.ofNat (d.pointPlace - 1).natAbs).length) ++
        Text.ofNat (d.pointPlace - 1).natAbs) :=
  rfl

theorem mantissa_eq_digits_or (d : Decimal) :
    (d.mantissa = d.digits ∧ d.digits.length = 1) ∨
      ∃ c cs, d.digits = c :: cs ∧ d.mantissa = c :: '.' :: cs := by
  have hl := length_digits_pos d
  rw [mantissa]
  rcases hd : d.digits with _ | ⟨c, _ | ⟨c', cs⟩⟩
  · rw [hd] at hl
    cases hl
  · exact .inl ⟨rfl, rfl⟩
  · exact .inr ⟨c, c' :: cs, rfl, rfl⟩

theorem forall_mem_mantissa (d : Decimal) : ∀ c ∈ d.mantissa, c.isDigit = true ∨ c = '.' := by
  have hd : ∀ c ∈ d.digits, c.isDigit = true ∨ c = '.' := fun c hc ↦ .inl (mem_digits hc)
  rcases d.mantissa_eq_digits_or with ⟨hm, -⟩ | ⟨c', cs, hs, hm⟩
  · rwa [hm]
  · rw [hs, List.forall_mem_cons] at hd
    rw [hm, List.forall_mem_cons, List.forall_mem_cons]
    exact ⟨hd.1, .inr rfl, hd.2⟩

theorem forall_mem_pointed (d : Decimal) : ∀ c ∈ d.pointed, c.isDigit = true ∨ c = '.' := by
  have hz : ∀ k, ∀ c ∈ Text.zeros k, c.isDigit = true ∨ c = '.' :=
    fun k c hc ↦ .inl (Text.isDigit_of_mem_zeros hc)
  have hd : ∀ c ∈ d.digits, c.isDigit = true ∨ c = '.' := fun c hc ↦ .inl (mem_digits hc)
  rw [pointed]
  split
  · rw [List.forall_mem_append, List.forall_mem_append]
    exact ⟨⟨by simp, hz _⟩, hd⟩
  · split
    · rw [List.forall_mem_append, List.forall_mem_cons]
      exact ⟨fun c hc ↦ hd c (List.mem_of_mem_take hc), .inr rfl,
        fun c hc ↦ hd c (List.mem_of_mem_drop hc)⟩
    · rw [List.forall_mem_append, List.forall_mem_append]
      exact ⟨⟨hd, hz _⟩, by simp⟩

end Decimal

theorem Double.mem_signed {b : Bool} {t : Text} {c : Char} (h : c ∈ signed b t) : c = '-' ∨ c ∈ t := by
  cases b with
  | false => exact .inr h
  | true => exact List.mem_cons.1 h

theorem Double.signed_append (b : Bool) (t r : Text) : signed b (t ++ r) = signed b t ++ r := by
  cases b <;> rfl

namespace Numeral

variable (b : Bool) (d : Decimal)

theorem relax_of_not_mem {t : Text} (h : 'e' ∉ t) : relax t = t := by
  have hd : t.dropWhile (· != 'e') = [] :=
    List.dropWhile_eq_nil_iff.2 fun c hc ↦ bne_iff_ne.2 fun he ↦ h (he ▸ hc)
  rw [relax, split?, List.span_eq_takeWhile_dropWhile, hd]

theorem not_mem_signed {t : Text} (h : ∀ c ∈ t, c.isDigit = true ∨ c = '.') :
    'e' ∉ Double.signed b t := by
  intro he
  rcases Double.mem_signed he with he | he
  · revert he
    decide
  · rcases h _ he with he | he <;> revert he <;> decide

theorem ne_of_mem_mantissa {c : Char} (h : c ∈ Double.signed b d.mantissa) : (c != 'e') = true := by
  rw [bne_iff_ne]
  rintro rfl
  exact not_mem_signed b d.forall_mem_mantissa h

theorem head?_signed {t : Text} (h : ∀ c ∈ t.head?, c ≠ '-') :
    ((Double.signed b t).head? == some '-') = b := by
  cases b with
  | true => rfl
  | false =>
    cases t with
    | nil => rfl
    | cons c t => exact beq_false_of_ne fun he ↦ h c rfl (Option.some.inj he)

theorem head?_mantissa : ((Double.signed b d.mantissa).head? == some '-') = b := by
  refine head?_signed b fun c hc ↦ ?_
  rintro rfl
  rcases d.forall_mem_mantissa _ (List.mem_of_mem_head? hc) with h | h <;> revert h <;> decide

theorem split?_append {m ds : Text} (hm : ∀ c ∈ m, (c != 'e') = true) {n : Nat}
    (hd : Text.toNat? ds = some n) (negative : Bool) :
    split? (m ++ 'e' :: (if negative then '-' else '+') :: ds) =
      some ⟨m.head? == some '-', m, if negative then -(n : Int) else n⟩ := by
  rw [split?, List.span_eq_takeWhile_dropWhile, List.takeWhile_append_of_pos hm,
    List.dropWhile_append_of_pos hm, List.takeWhile_cons, if_neg (by decide), List.append_nil,
    List.dropWhile_cons, if_neg (by decide)]
  cases negative <;> simp [hd]

theorem split?_scientific :
    split? (Double.signed b d.scientific) =
      some ⟨b, Double.signed b d.mantissa, d.pointPlace - 1⟩ := by
  rw [Decimal.scientific_eq, Double.signed_append, Text.exponentSign_eq,
    split?_append (fun c ↦ ne_of_mem_mantissa b d) (Text.toNat?_zeros_append _ _), head?_mantissa]
  congr
  simp only [decide_eq_true_eq]
  split <;> omega

theorem ne_point_of_isDigit {c : Char} (h : c.isDigit = true) : (c != '.') = true := by
  rw [bne_iff_ne]
  rintro rfl
  exact absurd h (by decide)

theorem decimal_of_digits {whole : Text} (hw : ∀ c ∈ whole, c.isDigit = true) (power : Int) :
    (⟨b, Double.signed b whole, power⟩ : Scientific).decimal =
      ⟨(Text.toNat? whole).getD 0, power⟩ := by
  have hd : whole.dropWhile (· != '.') = [] :=
    List.dropWhile_eq_nil_iff.2 fun c hc ↦ ne_point_of_isDigit (hw c hc)
  cases b <;>
    simp [Scientific.decimal, Double.signed, hd, List.filter_eq_self.2 hw,
      show '-'.isDigit = false by decide]

theorem decimal_of_point {whole fraction : Text} (hw : ∀ c ∈ whole, c.isDigit = true)
    (hf : ∀ c ∈ fraction, c.isDigit = true) (power : Int) :
    (⟨b, Double.signed b (whole ++ '.' :: fraction), power⟩ : Scientific).decimal =
      ⟨(Text.toNat? (whole ++ fraction)).getD 0, power - fraction.length⟩ := by
  have hd : (whole ++ '.' :: fraction).dropWhile (· != '.') = '.' :: fraction := by
    rw [List.dropWhile_append_of_pos fun c hc ↦ ne_point_of_isDigit (hw c hc)]
    rfl
  cases b <;>
    simp [Scientific.decimal, Double.signed, hd, List.filter_eq_self.2 hw,
      List.filter_eq_self.2 hf, show '-'.isDigit = false by decide,
      show '.'.isDigit = false by decide]

theorem decimal_scientific :
    (⟨b, Double.signed b d.mantissa, d.pointPlace - 1⟩ : Scientific).decimal = d := by
  have hd : ∀ c ∈ d.digits, c.isDigit = true := fun c ↦ Decimal.mem_digits
  have hn : Text.toNat? d.digits = some d.coefficient := Text.toNat?_ofNat _
  have hp : d.pointPlace = d.digits.length + d.exponent := rfl
  rcases d.mantissa_eq_digits_or with ⟨hm, hl⟩ | ⟨c, cs, hs, hm⟩
  · rw [hm, decimal_of_digits b hd, hn, hp, hl]
    congr 1
    omega
  · rw [hs, List.forall_mem_cons] at hd
    have hc : ∀ c' ∈ [c], c'.isDigit = true := by simpa using hd.1
    have h := decimal_of_point b hc hd.2 (d.pointPlace - 1)
    rw [List.singleton_append, List.singleton_append, ← hs, hn] at h
    rw [hm, h, hp, hs, List.length_cons]
    congr 1
    omega

end Numeral

namespace Decimal

variable {d : Decimal}

theorem pointed_eq_relaxed (hp : -6 < d.pointPlace ∧ d.pointPlace ≤ 21) (he : d.exponent < 0) :
    d.pointed = d.relaxed := by
  have hl : ¬(d.digits.length ≤ d.pointPlace ∧ d.pointPlace ≤ 21) := by
    rw [pointPlace]
    omega
  rw [pointed, relaxed, if_neg hl]
  by_cases h₀ : d.pointPlace ≤ 0
  · rw [if_pos h₀, if_neg (by omega), if_pos ⟨hp.1, h₀⟩]
  · rw [if_neg h₀, if_pos (by rw [pointPlace]; omega), if_pos (by omega)]

theorem positional_eq_relaxed (hc : 0 < d.coefficient)
    (hp : -6 < d.pointPlace ∧ d.pointPlace ≤ 21) : d.positional = d.relaxed := by
  have hn : d.pointPlace = d.digits.length + d.exponent := rfl
  have hl := d.length_digits_pos
  rw [positional, relaxed]
  by_cases he : 0 ≤ d.exponent
  · have hz : (d.pointPlace - d.digits.length).toNat = d.exponent.toNat := by omega
    rw [if_pos he, if_pos (by omega), hz]
    exact Text.ofNat_mul_pow hc _
  · have hplaces : ((-d.exponent).toNat : ℤ) = -d.exponent := by omega
    rw [if_neg he, if_neg (by omega)]
    generalize (-d.exponent).toNat = places at hplaces
    by_cases h₀ : d.pointPlace ≤ 0
    · -- The first zero of the padding stands before the point.
      have hz : places + 1 - d.digits.length = (-d.pointPlace).toNat + 1 := by omega
      have ht : (Text.zeros ((-d.pointPlace).toNat + 1) ++ d.digits).length - places = 1 := by
        rw [List.length_append, Text.zeros, List.length_replicate]
        omega
      rw [if_neg (by omega), if_pos ⟨hp.1, h₀⟩]
      dsimp only
      rw [hz, ht]
      rfl
    · have hz : places + 1 - d.digits.length = 0 := by omega
      have ht : d.digits.length - places = d.pointPlace.toNat := by omega
      rw [if_pos (by omega)]
      dsimp only
      rw [hz, Text.zeros, List.replicate_zero, List.nil_append, ht]

end Decimal

/-- Relaxing the general numeral gives the relaxed one, but a point and a zero that stand behind an
integer stay. -/
theorem Numeral.relax_general (b : Bool) {d : Decimal} (hc : 0 < d.coefficient)
    (h : d.exponent < 0 ∨ 16 < d.pointPlace) :
    relax (Double.signed b d.general) = Double.signed b d.relaxed := by
  have hn : d.pointPlace = d.digits.length + d.exponent := rfl
  rw [Decimal.general]
  by_cases hp : -4 ≤ d.pointPlace - 1 ∧ d.pointPlace - 1 < 16
  · rw [if_pos (by simpa using hp), relax_of_not_mem (not_mem_signed b d.forall_mem_pointed),
      Decimal.pointed_eq_relaxed (by omega) (by omega)]
  · rw [if_neg (by simpa using hp), relax, split?_scientific]
    dsimp only
    by_cases hr : -7 < d.pointPlace - 1 ∧ d.pointPlace - 1 < 21
    · rw [if_pos (by simpa using hr), decimal_scientific,
        Decimal.positional_eq_relaxed hc (by omega)]
    · rw [if_neg (by simpa using hr), Decimal.relaxed, if_neg (by omega), if_neg (by omega),
        if_neg (by omega), Double.signed_append]

end TreeMarkup
