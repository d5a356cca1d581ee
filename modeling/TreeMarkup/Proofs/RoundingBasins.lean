import Mathlib.Data.Nat.Cast.Order.Field
import TreeMarkup.Double.Numeral
import TreeMarkup.Proofs.DoubleRounding

namespace TreeMarkup.Double

variable {q r : ℚ} {n : ℕ}

theorem roundsTo_iff :
    RoundsTo q n ↔ if Even n then low n ≤ q ∧ q ≤ high n else low n < q ∧ q < high n := by
  split
  · rename_i h
    exact ⟨fun hr ↦ ⟨hr.low_le, hr.le_high⟩, fun ⟨hl, hh⟩ ↦ ⟨hl, hh, fun _ ↦ h⟩⟩
  · rename_i h
    refine ⟨fun hr ↦ ?_, fun ⟨hl, hh⟩ ↦ ⟨hl.le, hh.le, fun he ↦ ?_⟩⟩
    · exact ⟨hr.low_le.lt_of_ne fun he ↦ h (hr.even_of_midpoint (.inl he.symm)),
        hr.le_high.lt_of_ne fun he ↦ h (hr.even_of_midpoint (.inr he))⟩
    · exact (he.elim hl.ne' hh.ne).elim

theorem ordinalValue_nonneg (n : ℕ) : 0 ≤ ordinalValue n :=
  ordinalValue_zero ▸ ordinalValue_strictMono.monotone n.zero_le

theorem low_lt_ordinalValue (h : 0 < n) : low n < ordinalValue n := by
  have := ordinalValue_strictMono (Nat.sub_lt h one_pos)
  rw [low]
  linarith

theorem even_of_ordinalValue_le_low (h : ordinalValue n ≤ low n) : Even n := by
  rcases Nat.eq_zero_or_pos n with rfl | hn
  · exact Even.zero
  · exact absurd h (not_le.2 (low_lt_ordinalValue hn))

theorem roundsTo_self (n : ℕ) : RoundsTo (ordinalValue n) n := by
  refine ⟨low_le_ordinalValue n, (ordinalValue_lt_high n).le, ?_⟩
  rintro (h | h)
  · exact even_of_ordinalValue_le_low h.le
  · exact absurd h (ordinalValue_lt_high n).ne

namespace RoundsTo

theorem of_le_value (h : RoundsTo q n) (hq : q ≤ r) (hr : r ≤ ordinalValue n) : RoundsTo r n := by
  refine ⟨h.low_le.trans hq, hr.trans (ordinalValue_lt_high n).le, ?_⟩
  rintro (he | he)
  · exact h.even_of_midpoint (.inl (le_antisymm (hq.trans he.le) h.low_le))
  · exact absurd (he ▸ hr) (not_le.2 (ordinalValue_lt_high n))

theorem of_value_le (h : RoundsTo q n) (hr : ordinalValue n ≤ r) (hq : r ≤ q) : RoundsTo r n := by
  refine ⟨(low_le_ordinalValue n).trans hr, hq.trans h.le_high, ?_⟩
  rintro (he | he)
  · exact even_of_ordinalValue_le_low (he ▸ hr)
  · exact h.even_of_midpoint (.inr (le_antisymm h.le_high (he ▸ hq)))

theorem le_two_mul (h : RoundsTo q n) : ordinalValue n ≤ 2 * q := by
  have h₀ := ordinalValue_nonneg (n - 1)
  have hl := h.low_le
  rw [low] at hl
  linarith

theorem pos (h : RoundsTo q n) (hn : 0 < n) : 0 < q := by
  have h₀ : 0 < ordinalValue n := ordinalValue_zero ▸ ordinalValue_strictMono hn
  linarith [h.le_two_mul]

end RoundsTo

section Units

theorem low_of_power {p : ℕ} (hp : 0 < p) :
    low (p * fractionCount + fractionCount) =
      (fractionCount - 1 / 4) * 2 ^ ((p : ℤ) - 1074) := by
  obtain ⟨p, rfl⟩ := Nat.exists_eq_add_one_of_ne_zero hp.ne'
  have hn : (p + 1) * fractionCount + fractionCount = p * fractionCount + 2 * fractionCount := by
    rw [Nat.succ_mul, Nat.two_mul, Nat.add_assoc]
  rw [hn, low_of_units (.inr (by decide)) (by decide) le_rfl, unit_succ, Nat.cast_mul,
    Nat.cast_two]
  ring

theorem sub_half_le_low {p units : ℕ} (hp : p = 0 ∨ fractionCount ≤ units)
    (hu : units ≤ 2 * fractionCount) :
    (units - 1 / 2) * 2 ^ ((p : ℤ) - 1074) ≤ low (p * fractionCount + units) := by
  have hpos : (0 : ℚ) < 2 ^ ((p : ℤ) - 1074) := by positivity
  rcases Nat.eq_zero_or_pos units with rfl | h₀
  · obtain rfl : p = 0 := hp.resolve_right (by decide)
    rw [Nat.zero_mul, Nat.add_zero, low_zero, Nat.cast_zero]
    exact mul_nonpos_of_nonpos_of_nonneg (by norm_num) hpos.le
  · by_cases hpow : 0 < p ∧ units = fractionCount
    · rw [hpow.2, low_of_power hpow.1]
      exact mul_le_mul_of_nonneg_right (by linarith) hpos.le
    · rw [low_of_units (by omega) h₀ hu]

/-- The midpoints are not nearer to a number than a part in `2 ^ 54`. -/
theorem le_midpoint_sub (hn : 0 < n) :
    ordinalValue n ≤ (high n - ordinalValue n) * 2 ^ 54 ∧
      ordinalValue n ≤ (ordinalValue n - low n) * 2 ^ 54 := by
  obtain ⟨p, units, rfl, hp, hu⟩ := exists_units n
  have hpos : (0 : ℚ) < 2 ^ ((p : ℤ) - 1074) := by positivity
  -- The number is at most `2 ^ 53` units, and half a unit reaches the midpoint.
  have hu' : (units : ℚ) ≤ 2 ^ 53 := by
    rw [pow_succ', ← cast_fractionCount]
    exact_mod_cast hu.le
  have hh : ordinalValue (p * fractionCount + units) ≤ 1 / 2 * 2 ^ ((p : ℤ) - 1074) * 2 ^ 54 := by
    rw [ordinalValue_of_units hp hu.le]
    linarith [mul_le_mul_of_nonneg_right hu' hpos.le]
  constructor
  · rw [high_of_units hp hu, ordinalValue_of_units hp hu.le] at *
    linarith
  · by_cases hpow : 0 < p ∧ units = fractionCount
    · -- A power of two is `2 ^ 52` units, so that a quarter of one is enough.
      obtain ⟨h₀, rfl⟩ := hpow
      rw [low_of_power h₀, ordinalValue_of_units hp hu.le, cast_fractionCount]
      linarith
    · have h₀ : 0 < units := by
        rcases hp with rfl | hp
        · omega
        · exact fractionCount_pos.trans_le hp
      rw [low_of_units (by omega) h₀ hu.le, ordinalValue_of_units hp hu.le] at *
      linarith

theorem roundsTo_of_near (hn : 0 < n) (h : |q - ordinalValue n| * 2 ^ 54 < ordinalValue n) :
    RoundsTo q n := by
  obtain ⟨hh, hl⟩ := le_midpoint_sub hn
  have h₂ : (0 : ℚ) < 2 ^ 54 := by positivity
  have hh' : |q - ordinalValue n| < high n - ordinalValue n :=
    lt_of_mul_lt_mul_right (h.trans_le hh) h₂.le
  have hl' : |q - ordinalValue n| < ordinalValue n - low n :=
    lt_of_mul_lt_mul_right (h.trans_le hl) h₂.le
  rw [abs_lt] at hh' hl'
  refine ⟨by linarith, by linarith, ?_⟩
  rintro (he | he) <;> linarith

end Units

section Basins

variable {exponent : Fin 2047} {fraction : Fin fractionCount} {p : ℤ}

theorem ordinal_eq_units (exponent : Fin 2047) (fraction : Fin fractionCount) :
    ∃ p : ℕ, ordinal exponent fraction = p * fractionCount + significand exponent fraction ∧
      unitPower exponent = p - 1074 ∧ (p = 0 ∨ fractionCount ≤ significand exponent fraction) ∧
      significand exponent fraction < 2 * fractionCount ∧
      (fraction.val = 0 ∧ 1 < exponent.val ↔
        0 < p ∧ significand exponent fraction = fractionCount) := by
  have hf := fraction.isLt
  rw [ordinal, significand, unitPower]
  rcases Nat.eq_zero_or_pos exponent.val with h | h
  · rw [if_pos h, if_pos h, h]
    exact ⟨0, rfl, rfl, .inl rfl, by omega, by omega⟩
  · rw [if_neg h.ne', if_neg h.ne']
    refine ⟨exponent - 1, ?_, by omega, .inr (Nat.le_add_right _ _), by omega, by omega⟩
    rw [← Nat.add_assoc, ← Nat.succ_mul, Nat.succ_eq_add_one, Nat.sub_add_cancel h]

theorem basin_unit_pos (exponent : Fin 2047) (fraction : Fin fractionCount) :
    0 < (basin exponent fraction).unit :=
  Nat.mul_pos (by decide) (pow_toNat_pos two_pos _)

theorem quarters (a : ℕ) :
    ((a * (powerOfTwo (unitPower exponent)).1 : ℕ) / (basin exponent fraction).unit : ℚ) =
      a / 4 * 2 ^ unitPower exponent := by
  have hd : ((Nat.pow 2 (-unitPower exponent).toNat : ℕ) : ℚ) ≠ 0 := by
    exact_mod_cast (pow_toNat_pos two_pos _).ne'
  rw [basin, powerOfTwo]
  dsimp only
  rw [Nat.cast_mul, Nat.cast_mul, cast_pow_toNat two_pos, div_eq_iff (by positivity)]
  push_cast
  ring

theorem basin_value :
    ((basin exponent fraction).value / (basin exponent fraction).unit : ℚ) =
      value exponent fraction := by
  have hv : (basin exponent fraction).value =
      4 * significand exponent fraction * (powerOfTwo (unitPower exponent)).1 :=
    (Nat.mul_assoc _ _ _).symm
  rw [hv, quarters, value]
  push_cast
  ring

theorem basin_high :
    ((basin exponent fraction).high / (basin exponent fraction).unit : ℚ) =
      high (ordinal exponent fraction) := by
  obtain ⟨p, ho, hu, hp, hs, -⟩ := ordinal_eq_units exponent fraction
  have hh : (basin exponent fraction).high =
      (4 * significand exponent fraction + 2) * (powerOfTwo (unitPower exponent)).1 := by
    rw [Nat.add_mul, Nat.mul_assoc]
    rfl
  rw [hh, quarters, ho, high_of_units hp hs, ← hu]
  push_cast
  ring

theorem basin_low :
    ((basin exponent fraction).low / (basin exponent fraction).unit : ℚ) =
      low (ordinal exponent fraction) := by
  obtain ⟨p, ho, hu, hp, hs, hf⟩ := ordinal_eq_units exponent fraction
  have hl : (basin exponent fraction).low =
      (4 * significand exponent fraction - if fraction.val = 0 ∧ 1 < exponent.val then 1 else 2) *
        (powerOfTwo (unitPower exponent)).1 := by
    rw [Nat.sub_mul, Nat.mul_assoc, ite_mul, Nat.one_mul, basin]
    simp only [Bool.and_eq_true, decide_eq_true_eq]
  rw [hl, quarters, ho]
  rcases Nat.eq_zero_or_pos (significand exponent fraction) with h₀ | h₀
  · obtain rfl : p = 0 := hp.resolve_right (by rw [h₀]; decide)
    rw [h₀, Nat.mul_zero, Nat.zero_sub, Nat.cast_zero, zero_div, zero_mul, Nat.zero_mul,
      Nat.add_zero, low_zero]
  · by_cases hpow : 0 < p ∧ significand exponent fraction = fractionCount
    · rw [if_pos (hf.2 hpow), hpow.2, low_of_power hpow.1, ← hu, Nat.cast_sub (by decide)]
      push_cast
      ring
    · rw [if_neg (mt hf.1 hpow), low_of_units (by omega) h₀ hs.le, ← hu,
        Nat.cast_sub (by omega)]
      push_cast
      ring

theorem basin_closed :
    (basin exponent fraction).closed = true ↔ Even (ordinal exponent fraction) := by
  obtain ⟨p, ho, -⟩ := ordinal_eq_units exponent fraction
  have hc : (basin exponent fraction).closed = (significand exponent fraction % 2 == 0) := rfl
  rw [hc, beq_iff_eq, ← Nat.even_iff, ho, Nat.even_add]
  exact (iff_true_left ((by decide : Even fractionCount).mul_left p)).symm

/-- Whether a point of a grid belongs to a basin, without its denominators. -/
theorem Basin.holds_iff {b : Basin} (hu : 0 < b.unit) {c : ℕ} :
    b.holds p c = true ↔
      if b.closed = true then (b.low / b.unit : ℚ) ≤ c * 10 ^ p ∧ c * 10 ^ p ≤ (b.high / b.unit : ℚ)
      else (b.low / b.unit : ℚ) < c * 10 ^ p ∧ c * 10 ^ p < (b.high / b.unit : ℚ) := by
  rw [holds, powerOfTen]
  dsimp only
  split
  · rw [Bool.and_eq_true, decide_eq_true_eq, decide_eq_true_eq]
    exact and_congr (div_le_mul_pow_iff (by decide) hu) (mul_pow_le_div_iff (by decide) hu)
  · rw [Bool.and_eq_true, decide_eq_true_eq, decide_eq_true_eq, ← not_le, ← not_le, ← not_le,
      ← not_le]
    exact and_congr (not_congr (mul_pow_le_div_iff (by decide) hu))
      (not_congr (div_le_mul_pow_iff (by decide) hu))

/-- A point of a grid belongs to the basin if and only if it is rounded to the number. -/
theorem holds_iff {c : ℕ} :
    (basin exponent fraction).holds p c = true ↔
      RoundsTo (c * 10 ^ p) (ordinal exponent fraction) := by
  rw [Basin.holds_iff (basin_unit_pos _ _), basin_low, basin_high, roundsTo_iff]
  simp only [basin_closed]

end Basins

end TreeMarkup.Double
