import TreeMarkup.Node.Basic
import TreeMarkup.Proofs.RelaxedNumerals
import TreeMarkup.Proofs.ShortestDecimals

namespace TreeMarkup

namespace Decimal

variable {d : Decimal}

theorem coefficient_pos (h : d.coefficient % 10 ≠ 0) : 0 < d.coefficient := by
  omega

theorem exponent_nonneg (h : d.coefficient % 10 ≠ 0) {k : ℕ} (hv : d.value = k) :
    0 ≤ d.exponent := by
  by_contra hneg
  obtain ⟨j, hj⟩ : ∃ j : ℕ, d.exponent = -(j + 1 : ℕ) := ⟨(-d.exponent).toNat - 1, by omega⟩
  have hc : d.coefficient = k * 10 ^ j * 10 := by
    have hk : (d.coefficient : ℚ) = k * 10 ^ (j + 1) := by
      rw [← hv, value, hj, zpow_neg, zpow_natCast, inv_mul_cancel_right₀ (by positivity)]
    rw [mul_assoc, ← pow_succ]
    exact_mod_cast hk
  omega

theorem value_eq_natCast (h : 0 ≤ d.exponent) :
    d.value = (d.coefficient * 10 ^ d.exponent.toNat : ℕ) := by
  rw [value, Nat.cast_mul, Nat.cast_pow, Nat.cast_ofNat, ← zpow_natCast, Int.toNat_of_nonneg h]

theorem relaxed_eq_ofNat (hc : 0 < d.coefficient) (he : 0 ≤ d.exponent) (hp : d.pointPlace ≤ 21) :
    d.relaxed = Text.ofNat (d.coefficient * 10 ^ d.exponent.toNat) := by
  have hn : d.pointPlace = d.digits.length + d.exponent := rfl
  rw [← positional_eq_relaxed hc (by omega), positional, if_pos he]
  rfl

theorem not_isDigit_relaxed (h : ¬(0 ≤ d.exponent ∧ d.pointPlace ≤ 21)) :
    ∃ c ∈ d.relaxed, c.isDigit = false := by
  have hn : d.pointPlace = d.digits.length + d.exponent := rfl
  rw [relaxed, if_neg (by omega)]
  split
  · exact ⟨'.', List.mem_append_right _ List.mem_cons_self, by decide⟩
  · split
    · exact ⟨'.', List.mem_append_left _ (List.mem_append_left _ (by decide)), by decide⟩
    · exact ⟨'e', List.mem_append_right _ List.mem_cons_self, by decide⟩

theorem relaxed_eq_ofNat_iff (h : d.coefficient % 10 ≠ 0) {k : ℕ} (hk : k < 10 ^ 21) :
    d.relaxed = Text.ofNat k ↔ d.value = k := by
  have hc : 0 < d.coefficient := coefficient_pos h
  constructor
  · intro ht
    by_cases hi : 0 ≤ d.exponent ∧ d.pointPlace ≤ 21
    · rw [relaxed_eq_ofNat hc hi.1 hi.2] at ht
      rw [value_eq_natCast hi.1, Text.ofNat_injective ht]
    · obtain ⟨c, hm, hd⟩ := not_isDigit_relaxed hi
      rw [ht] at hm
      rw [Text.isDigit_of_mem_ofNat hm] at hd
      cases hd
  · intro hv
    have he := exponent_nonneg h hv
    have hp : d.pointPlace - 1 < 21 := by
      have hlt : d.value < 10 ^ (21 : ℤ) := by
        rw [hv]
        exact_mod_cast hk
      exact (zpow_lt_zpow_iff_right₀ (by norm_num)).1 ((le_value hc).trans_lt hlt)
    rw [value_eq_natCast he, Nat.cast_inj] at hv
    rw [relaxed_eq_ofNat hc he (by omega), hv]

end Decimal

namespace Double

variable {exponent : Fin 2047} {fraction : Fin fractionCount}

theorem value_eq_natCast_of_roundsTo (hu : unitPower exponent ≤ 0) {k : ℕ}
    (h : RoundsTo k (ordinal exponent fraction)) : value exponent fraction = k := by
  obtain ⟨p, ho, hp, hn, hs, -⟩ := ordinal_eq_units exponent fraction
  have hpos : (0 : ℚ) < 2 ^ unitPower exponent := by positivity
  have hk : (k : ℚ) = (k * 2 ^ (-unitPower exponent).toNat : ℕ) * 2 ^ unitPower exponent := by
    rw [Nat.cast_mul, Nat.cast_pow, Nat.cast_ofNat, ← zpow_natCast, mul_assoc,
      ← zpow_add₀ two_ne_zero, Int.toNat_of_nonneg (by omega), neg_add_cancel, zpow_zero, mul_one]
  -- Both are integers in units of the number, and they are less than one apart.
  rw [hk] at h ⊢
  generalize k * 2 ^ (-unitPower exponent).toNat = m at h
  have hl := (sub_half_le_low hn hs.le).trans (ho ▸ h.low_le)
  have hh := h.le_high
  rw [← hp, mul_le_mul_iff_left₀ hpos] at hl
  rw [ho, high_of_units hn hs, ← hp, mul_le_mul_iff_left₀ hpos] at hh
  have hle : significand exponent fraction < m + 1 := by
    have : (significand exponent fraction : ℚ) < m + 1 := by linarith
    exact_mod_cast this
  have hge : m < significand exponent fraction + 1 := by
    have : (m : ℚ) < significand exponent fraction + 1 := by linarith
    exact_mod_cast this
  rw [value, le_antisymm (Nat.le_of_lt_succ hle) (Nat.le_of_lt_succ hge)]

theorem exists_value_eq_natCast {k : ℕ} (h : RoundsTo k (ordinal exponent fraction)) :
    ∃ n : ℕ, value exponent fraction = n := by
  rcases le_or_gt (unitPower exponent) 0 with hu | hu
  · exact ⟨k, value_eq_natCast_of_roundsTo hu h⟩
  · refine ⟨significand exponent fraction * 2 ^ (unitPower exponent).toNat, ?_⟩
    rw [value, Nat.cast_mul, Nat.cast_pow, Nat.cast_ofNat, ← zpow_natCast,
      Int.toNat_of_nonneg hu.le]

theorem magnitude_div :
    ((magnitude exponent fraction).1 / (magnitude exponent fraction).2 : ℚ) =
      value exponent fraction := by
  have hd : ((Nat.pow 2 (-unitPower exponent).toNat : ℕ) : ℚ) ≠ 0 := by
    exact_mod_cast (pow_toNat_pos two_pos _).ne'
  rw [magnitude, powerOfTwo, value]
  dsimp only
  rw [Nat.cast_mul, cast_pow_toNat two_pos, ← mul_assoc, mul_div_cancel_right₀ _ hd]
  rfl

/-- Where the shortest decimal has neither places behind the point nor more than 16 digits before
it, the number is an integer that is written out. -/
theorem exists_value_lt {d : Decimal} (h : RoundsTo d.value (ordinal exponent fraction))
    (he : 0 ≤ d.exponent) (hp : d.pointPlace ≤ 16) :
    ∃ k : ℕ, k < 10 ^ 21 ∧ value exponent fraction = k := by
  have hle := h.le_two_mul
  rw [ordinalValue_ordinal] at hle
  have hlt : d.value < 10 ^ (16 : ℤ) :=
    d.value_lt.trans_le (zpow_le_zpow_right₀ (by norm_num) hp)
  rw [Decimal.value_eq_natCast he] at h
  obtain ⟨k, hk⟩ := exists_value_eq_natCast h
  refine ⟨k, ?_, hk⟩
  have hk' : (k : ℚ) < 10 ^ 21 := by
    rw [← hk]
    norm_num at hlt
    linarith
  exact_mod_cast hk'

theorem le_value_of_unitPower_pos (hu : 0 < unitPower exponent) :
    2 ^ 53 ≤ value exponent fraction := by
  have he : exponent.val ≠ 0 := by
    intro h
    rw [unitPower, if_pos h] at hu
    cases hu
  have hs : (fractionCount : ℚ) ≤ significand exponent fraction := by
    rw [significand, if_neg he]
    exact_mod_cast Nat.le_add_right _ _
  have hp : (2 : ℚ) ≤ 2 ^ unitPower exponent :=
    (zpow_one 2).ge.trans (zpow_le_zpow_right₀ one_le_two hu)
  rw [value, pow_succ, ← cast_fractionCount]
  exact mul_le_mul hs hp two_pos.le (Nat.cast_nonneg _)

theorem value_shortest_of_lt {k : ℕ} (hk : k < 2 ^ 53) (h : 0 < ordinal exponent fraction)
    (hv : value exponent fraction = k) : (shortest exponent fraction).value = k := by
  have hu : unitPower exponent ≤ 0 := by
    by_contra hlt
    have hge : 2 ^ 53 ≤ value exponent fraction := le_value_of_unitPower_pos (not_le.1 hlt)
    rw [hv] at hge
    exact absurd hk (Nat.not_lt.2 (by exact_mod_cast hge))
  have hl : 0 ≤ leading exponent fraction := by
    have hpos : 0 < k := by
      have := value_pos h
      rw [hv] at this
      exact_mod_cast this
    have hlt : (10 : ℚ) ^ (0 : ℤ) < 10 ^ (leading exponent fraction + 1) := by
      refine lt_of_le_of_lt ?_ (leading_spec h).2
      rw [hv, zpow_zero]
      exact_mod_cast hpos
    exact Int.le_of_lt_add_one ((zpow_lt_zpow_iff_right₀ (by norm_num)).1 hlt)
  obtain ⟨s, c, hs, hc, hn⟩ := exists_shortest h
  -- The integer is itself on the grid of steps of one, so the search ends there at the latest.
  have hle : (s : ℤ) ≤ leading exponent fraction := by
    by_contra hlt
    refine hn (leading exponent fraction).toNat (by omega) k ?_
    rw [Int.toNat_of_nonneg hl, sub_self, zpow_zero, mul_one, ← hv, ← ordinalValue_ordinal]
    exact roundsTo_self _
  have hm : (c : ℚ) * 10 ^ (leading exponent fraction - s) =
      (c * 10 ^ (leading exponent fraction - s).toNat : ℕ) :=
    Decimal.value_eq_natCast (d := ⟨c, leading exponent fraction - s⟩) (by simpa using hle)
  have hr := hc.reads
  rw [hm] at hr
  rw [hs, Decimal.value_stripZeros, ← hv, value_eq_natCast_of_roundsTo hu hr, ← hm]
  rfl

theorem signed_inj {b : Bool} {t t' : Text} : signed b t = signed b t' ↔ t = t' := by
  cases b with
  | false => exact Iff.rfl
  | true => exact List.cons_inj_right '-'

theorem magnitude_den_pos (exponent : Fin 2047) (fraction : Fin fractionCount) :
    0 < (magnitude exponent fraction).2 :=
  pow_toNat_pos two_pos _

theorem magnitude_num_eq_iff {k : ℕ} :
    (magnitude exponent fraction).1 = k * (magnitude exponent fraction).2 ↔
      value exponent fraction = k := by
  have hd : ((magnitude exponent fraction).2 : ℚ) ≠ 0 := by
    exact_mod_cast (magnitude_den_pos exponent fraction).ne'
  rw [← magnitude_div, div_eq_iff hd]
  exact_mod_cast Iff.rfl

theorem isZero_iff {b : Bool} :
    (finite b exponent fraction).isZero = true ↔ ordinal exponent fraction = 0 := by
  have hf := fractionCount_pos
  rw [isZero, Bool.and_eq_true, beq_iff_eq, beq_iff_eq, ordinal, Nat.add_eq_zero_iff,
    Nat.mul_eq_zero, or_iff_left hf.ne']

end Double

namespace Scalar

variable {b : Bool} {exponent : Fin 2047} {fraction : Fin fractionCount}

theorem formatFloat_eq (b : Bool) (exponent : Fin 2047) (fraction : Fin fractionCount) :
    formatFloat (.finite b exponent fraction) =
      if (Double.magnitude exponent fraction).1 % (Double.magnitude exponent fraction).2 = 0 ∧
          (Double.magnitude exponent fraction).1 <
            10 ^ 21 * (Double.magnitude exponent fraction).2 then
        Double.signed (b && !(Double.finite b exponent fraction).isZero)
          (Text.ofNat ((Double.magnitude exponent fraction).1 /
            (Double.magnitude exponent fraction).2))
      else Numeral.relax (Double.finite b exponent fraction).general := by
  rw [formatFloat, Double.isIntegral]
  simp only [Bool.and_eq_true, beq_iff_eq, decide_eq_true_eq]
  rfl

theorem formatFloat_of_natCast {k : ℕ} (hk : k < 10 ^ 21)
    (hv : Double.value exponent fraction = k) :
    formatFloat (.finite b exponent fraction) =
      Double.signed (b && !(Double.finite b exponent fraction).isZero) (Text.ofNat k) := by
  have hd := Double.magnitude_den_pos exponent fraction
  have hn := Double.magnitude_num_eq_iff.2 hv
  rw [formatFloat_eq, hn, if_pos, Nat.mul_div_cancel _ hd]
  exact ⟨Nat.mul_mod_left _ _, Nat.mul_lt_mul_of_pos_right hk hd⟩

theorem formatFloat_of_forall_ne
    (h : ∀ k : ℕ, Double.value exponent fraction = k → 10 ^ 21 ≤ k) :
    formatFloat (.finite b exponent fraction) =
      Numeral.relax (Double.finite b exponent fraction).general := by
  have hd := Double.magnitude_den_pos exponent fraction
  rw [formatFloat_eq, if_neg]
  rintro ⟨hm, hlt⟩
  have hn := (Nat.div_mul_cancel (Nat.dvd_of_mod_eq_zero hm)).symm
  have hk := h _ (Double.magnitude_num_eq_iff.1 hn)
  rw [hn] at hlt
  exact absurd (Nat.lt_of_mul_lt_mul_right hlt) (Nat.not_lt.2 hk)

section Nonzero

variable (h : 0 < Double.ordinal exponent fraction)
include h

theorem isZero_of_pos : (Double.finite b exponent fraction).isZero = false := by
  rw [Bool.eq_false_iff, ne_eq, Double.isZero_iff]
  exact h.ne'

theorem formatFloat_of_integer {k : ℕ} (hk : k < 10 ^ 21)
    (hv : Double.value exponent fraction = k) :
    formatFloat (.finite b exponent fraction) = Double.signed b (Text.ofNat k) := by
  rw [formatFloat_of_natCast hk hv, isZero_of_pos h, Bool.not_false, Bool.and_true]

theorem formatFloat_iff :
    formatFloat (.finite b exponent fraction) =
        Double.signed b (Double.shortest exponent fraction).relaxed ↔
      ∀ k : ℕ, k < 10 ^ 21 → Double.value exponent fraction = k →
        (Double.shortest exponent fraction).value = k := by
  have hs := Double.isShortest_shortest h
  by_cases hi : ∃ k : ℕ, k < 10 ^ 21 ∧ Double.value exponent fraction = k
  · obtain ⟨k, hk, hv⟩ := hi
    rw [formatFloat_of_integer h hk hv, Double.signed_inj, eq_comm,
      Decimal.relaxed_eq_ofNat_iff hs.stripped hk]
    refine ⟨fun hd k' _ hv' ↦ ?_, fun hd ↦ hd k hk hv⟩
    rw [hd, ← hv, hv']
  · refine iff_of_true ?_ fun k hk hv ↦ absurd ⟨k, hk, hv⟩ hi
    have hg : (Double.finite b exponent fraction).general =
        Double.signed b (Double.shortest exponent fraction).general := by
      rw [Double.general, isZero_of_pos h]
      rfl
    rw [formatFloat_of_forall_ne fun k hv ↦ not_lt.1 fun hk ↦ hi ⟨k, hk, hv⟩, hg]
    refine Numeral.relax_general b (Decimal.coefficient_pos hs.stripped) ?_
    by_contra hn
    refine hi (Double.exists_value_lt (Double.ofDecimal_eq_finite_iff.1 hs.reads) ?_ ?_)
    · exact not_lt.1 fun h ↦ hn (.inl h)
    · exact not_lt.1 fun h ↦ hn (.inr h)

end Nonzero

theorem formatFloat_of_isZero (h : (Double.finite b exponent fraction).isZero = true) :
    formatFloat (.finite b exponent fraction) = "0" := by
  have hv : Double.value exponent fraction = (0 : ℕ) := by
    rw [← Double.ordinalValue_ordinal, Double.isZero_iff.1 h, Double.ordinalValue_zero,
      Nat.cast_zero]
  rw [formatFloat_of_natCast (by decide) hv, h, Bool.not_true, Bool.and_false]
  rfl

/-- A float is written as the relaxed numeral of its shortest decimal, unless it is an integer of up
to 21 digits and its shortest decimal is not that integer; then the integer is written. -/
theorem format_float_iff (b : Bool) (exponent : Fin 2047) (fraction : Fin fractionCount) :
    let x := Double.finite b exponent fraction
    let d := Double.shortest exponent fraction
    (x.isZero = true → (float x).format = "0") ∧
    (x.isZero = false →
      Double.IsShortest exponent fraction d ∧
      ((float x).format = Double.signed b d.relaxed ↔
        ∀ k : ℕ, k < 10 ^ 21 → Double.value exponent fraction = k → d.value = k) ∧
      (∀ k : ℕ, k < 10 ^ 21 → Double.value exponent fraction = k →
        (float x).format = Double.signed b (Text.ofNat k)) ∧
      (Double.value exponent fraction < 2 ^ 53 →
        (float x).format = Double.signed b d.relaxed)) := by
  intro x d
  refine ⟨formatFloat_of_isZero, fun h₀ ↦ ?_⟩
  have ho : 0 < Double.ordinal exponent fraction := by
    rw [Bool.eq_false_iff, ne_eq, Double.isZero_iff] at h₀
    exact Nat.pos_of_ne_zero h₀
  refine ⟨Double.isShortest_shortest ho, formatFloat_iff ho,
    fun k hk hv ↦ formatFloat_of_integer ho hk hv, fun hlt ↦ (formatFloat_iff ho).2 ?_⟩
  intro k _ hv
  rw [hv] at hlt
  exact Double.value_shortest_of_lt (by exact_mod_cast hlt) ho hv

theorem shortest_twoPow56 : Double.shortest 1079 0 = ⟨7205759403792794, 1⟩ := by
  decide +kernel

/-- The shortest decimal of `2 ^ 56` ends in `40`, but its own digits are written. -/
theorem format_twoPow56 :
    Double.IsShortest 1079 0 ⟨7205759403792794, 1⟩ ∧
      (⟨7205759403792794, 1⟩ : Decimal).relaxed = "72057594037927940" ∧
      (float (.finite false 1079 0)).format = "72057594037927936" :=
  ⟨shortest_twoPow56 ▸ Double.isShortest_shortest (by decide), by decide, by decide +kernel⟩

end Scalar

end TreeMarkup
