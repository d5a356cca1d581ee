import Mathlib.Order.Monotone.Basic
import Mathlib.Tactic.Ring
import TreeMarkup.Double.Reading
import TreeMarkup.Proofs.ScaledQuotients

namespace TreeMarkup.Double

def value (exponent : Fin 2047) (fraction : Fin fractionCount) : ℚ :=
  significand exponent fraction * 2 ^ unitPower exponent

def ordinal (exponent : Fin 2047) (fraction : Fin fractionCount) : ℕ :=
  exponent * fractionCount + fraction

/-- The magnitudes by their ordinals, for exponents of any size. -/
def ordinalValue (n : ℕ) : ℚ :=
  if n / fractionCount = 0 then (n % fractionCount : ℕ) * 2 ^ (-1074 : ℤ)
  else (fractionCount + n % fractionCount : ℕ) * 2 ^ ((n / fractionCount : ℕ) - 1075 : ℤ)

section Ordinals

variable {exponent : Fin 2047} {fraction : Fin fractionCount}

theorem fractionCount_pos : 0 < fractionCount := by decide

theorem cast_fractionCount : (fractionCount : ℚ) = 2 ^ 52 := by norm_num

theorem ordinal_div : ordinal exponent fraction / fractionCount = exponent := by
  rw [ordinal, Nat.mul_comm, Nat.mul_add_div fractionCount_pos, Nat.div_eq_of_lt fraction.isLt,
    Nat.add_zero]

theorem ordinal_mod : ordinal exponent fraction % fractionCount = fraction := by
  rw [ordinal, Nat.mul_comm, Nat.mul_add_mod, Nat.mod_eq_of_lt fraction.isLt]

theorem ordinalValue_ordinal :
    ordinalValue (ordinal exponent fraction) = value exponent fraction := by
  rw [ordinalValue, ordinal_div, ordinal_mod, value, significand, unitPower]
  split <;> rfl

theorem ordinalValue_zero : ordinalValue 0 = 0 := by
  rw [ordinalValue, Nat.zero_div, if_pos rfl, Nat.zero_mod, Nat.cast_zero, zero_mul]

theorem ofOrdinal_eq_finite_iff {negative : Bool} {n : ℕ} :
    ofOrdinal negative n = finite negative exponent fraction ↔ n = ordinal exponent fraction := by
  constructor
  · intro h
    unfold ofOrdinal at h
    split at h
    · cases h
      exact (Nat.div_add_mod' n fractionCount).symm
    · cases h
  · rintro rfl
    have h : ordinal exponent fraction / fractionCount < 2047 := by
      rw [ordinal_div]
      exact exponent.isLt
    rw [ofOrdinal, dif_pos h]
    congr
    · exact ordinal_div
    · exact ordinal_mod

theorem ordinalValue_normal (p : ℕ) {r : ℕ} (hr : r < fractionCount) :
    ordinalValue ((p + 1) * fractionCount + r) = (fractionCount + r : ℕ) * 2 ^ ((p : ℤ) - 1074) := by
  have hd : ((p + 1) * fractionCount + r) / fractionCount = p + 1 := by
    rw [Nat.mul_comm, Nat.mul_add_div fractionCount_pos, Nat.div_eq_of_lt hr, Nat.add_zero]
  have hm : ((p + 1) * fractionCount + r) % fractionCount = r := by
    rw [Nat.mul_comm, Nat.mul_add_mod, Nat.mod_eq_of_lt hr]
  rw [ordinalValue, hd, hm, if_neg p.succ_ne_zero]
  congr 2
  omega

theorem unit_succ (p : ℕ) : (2 : ℚ) ^ ((p + 1 : ℕ) - 1074 : ℤ) = 2 * 2 ^ ((p : ℤ) - 1074) := by
  rw [← zpow_one_add₀ two_ne_zero]
  congr 1
  push_cast
  ring

theorem ordinalValue_of_units {p units : ℕ} (hp : p = 0 ∨ fractionCount ≤ units)
    (hu : units ≤ 2 * fractionCount) :
    ordinalValue (p * fractionCount + units) = units * 2 ^ ((p : ℤ) - 1074) := by
  rcases Nat.lt_or_ge units fractionCount with h | h
  · have hp : p = 0 := hp.resolve_right (Nat.not_le.2 h)
    rw [hp, Nat.zero_mul, Nat.zero_add, ordinalValue, Nat.div_eq_of_lt h, if_pos rfl,
      Nat.mod_eq_of_lt h]
    rfl
  · obtain ⟨r, rfl⟩ := Nat.exists_eq_add_of_le h
    rw [← Nat.add_assoc, ← Nat.succ_mul]
    rcases Nat.lt_or_ge r fractionCount with hr | hr
    · exact ordinalValue_normal p hr
    · -- The number of units has one bit too many, so this is the next power.
      obtain rfl : r = fractionCount := by omega
      have hn : (p + 1) * fractionCount + fractionCount = (p + 1 + 1) * fractionCount :=
        (Nat.succ_mul (p + 1) fractionCount).symm
      have hv := ordinalValue_normal (p + 1) fractionCount_pos
      simp only [Nat.add_zero] at hv
      rw [Nat.succ_eq_add_one, hn, hv, unit_succ]
      push_cast
      ring

theorem exists_units (n : ℕ) :
    ∃ p units, n = p * fractionCount + units ∧ (p = 0 ∨ fractionCount ≤ units) ∧
      units < 2 * fractionCount := by
  have hm := Nat.mod_lt n fractionCount_pos
  have hn := Nat.div_add_mod' n fractionCount
  rcases Nat.eq_zero_or_pos (n / fractionCount) with h | h
  · rw [h, Nat.zero_mul, Nat.zero_add] at hn
    exact ⟨0, n, by omega, .inl rfl, by omega⟩
  · refine ⟨n / fractionCount - 1, fractionCount + n % fractionCount, ?_, .inr (by omega), by omega⟩
    rw [← Nat.add_assoc, ← Nat.succ_mul, Nat.succ_eq_add_one, Nat.sub_add_cancel h, hn]

theorem ordinalValue_succ {p units : ℕ} (hp : p = 0 ∨ fractionCount ≤ units)
    (hu : units < 2 * fractionCount) :
    ordinalValue (p * fractionCount + units + 1) =
      ordinalValue (p * fractionCount + units) + 2 ^ ((p : ℤ) - 1074) := by
  rw [Nat.add_assoc, ordinalValue_of_units (by omega) hu, ordinalValue_of_units hp hu.le]
  push_cast
  ring

theorem ordinalValue_strictMono : StrictMono ordinalValue := by
  refine strictMono_nat_of_lt_succ fun n ↦ ?_
  obtain ⟨p, units, rfl, hp, hu⟩ := exists_units n
  rw [ordinalValue_succ hp hu]
  exact lt_add_of_pos_right _ (by positivity)

end Ordinals

/-- The midpoint below a magnitude; zero has none and is its own. -/
def low (n : ℕ) : ℚ := (ordinalValue (n - 1) + ordinalValue n) / 2

def high (n : ℕ) : ℚ := (ordinalValue n + ordinalValue (n + 1)) / 2

/-- The magnitude with ordinal `n` is the one that `q` is rounded to. -/
structure RoundsTo (q : ℚ) (n : ℕ) : Prop where
  low_le : low n ≤ q
  le_high : q ≤ high n
  even_of_midpoint : q = low n ∨ q = high n → Even n

theorem low_zero : low 0 = 0 := by
  rw [low, Nat.zero_sub, ordinalValue_zero, add_zero, zero_div]

theorem ordinalValue_lt_high (n : ℕ) : ordinalValue n < high n := by
  have := ordinalValue_strictMono n.lt_succ_self
  rw [high]
  linarith

theorem low_le_ordinalValue (n : ℕ) : low n ≤ ordinalValue n := by
  have := ordinalValue_strictMono.monotone (Nat.sub_le n 1)
  rw [low]
  linarith

theorem high_le_low {m n : ℕ} (h : m < n) : high m ≤ low n := by
  have h₁ := ordinalValue_strictMono.monotone (Nat.le_sub_one_of_lt h)
  have h₂ := ordinalValue_strictMono.monotone (Nat.succ_le_of_lt h)
  rw [high, low]
  linarith

theorem eq_succ_of_high_eq_low {m n : ℕ} (h : m < n) (he : high m = low n) : n = m + 1 := by
  by_contra hn
  have h₁ := ordinalValue_strictMono.monotone (Nat.le_sub_one_of_lt h)
  have h₂ := ordinalValue_strictMono (show m + 1 < n by omega)
  rw [high, low] at he
  linarith

namespace RoundsTo

variable {q r : ℚ} {m n : ℕ}

theorem not_lt (hm : RoundsTo q m) (hn : RoundsTo q n) : ¬m < n := by
  intro h
  have he : q = high m := le_antisymm hm.le_high ((high_le_low h).trans hn.low_le)
  have he' : q = low n := le_antisymm (hm.le_high.trans (high_le_low h)) hn.low_le
  have hs := eq_succ_of_high_eq_low h (he.symm.trans he')
  have hem := hm.even_of_midpoint (.inr he)
  have hen := hn.even_of_midpoint (.inl he')
  rw [hs] at hen
  exact Nat.not_even_iff_odd.2 hem.add_one hen

theorem unique (hm : RoundsTo q m) (hn : RoundsTo q n) : m = n :=
  le_antisymm (Nat.not_lt.1 (hn.not_lt hm)) (Nat.not_lt.1 (hm.not_lt hn))

end RoundsTo

section Units

variable {p units : ℕ}

theorem high_of_units (hp : p = 0 ∨ fractionCount ≤ units) (hu : units < 2 * fractionCount) :
    high (p * fractionCount + units) = (units + 1 / 2) * 2 ^ ((p : ℤ) - 1074) := by
  rw [high, ordinalValue_succ hp hu, ordinalValue_of_units hp hu.le]
  ring

theorem low_of_units (hp : p = 0 ∨ fractionCount < units) (h₀ : 0 < units)
    (hu : units ≤ 2 * fractionCount) :
    low (p * fractionCount + units) = (units - 1 / 2) * 2 ^ ((p : ℤ) - 1074) := by
  have hp' : p = 0 ∨ fractionCount ≤ units - 1 := by omega
  have hc : ((units - 1 : ℕ) : ℚ) = units - 1 := by
    rw [Nat.cast_sub h₀, Nat.cast_one]
  rw [low, Nat.add_sub_assoc h₀, ordinalValue_of_units hp' (by omega),
    ordinalValue_of_units (by omega) hu, hc]
  ring

theorem even_of_units (h : Even units) : Even (p * fractionCount + units) :=
  ((by decide : Even fractionCount).mul_left p).add h

variable {q : ℚ}

theorem low_le_of_isHalfEven (hq₀ : 0 ≤ q) (hq : p = 0 ∨ (fractionCount : ℚ) ≤ q)
    (hu : units ≤ 2 * fractionCount) (h : IsHalfEven q units) :
    low (p * fractionCount + units) ≤ q * 2 ^ ((p : ℤ) - 1074) ∧
      (q * 2 ^ ((p : ℤ) - 1074) = low (p * fractionCount + units) → Even units) := by
  have hpos : (0 : ℚ) < 2 ^ ((p : ℤ) - 1074) := by positivity
  by_cases hi : 0 < units ∧ (p = 0 ∨ fractionCount < units)
  · rw [low_of_units hi.2 hi.1 hu, mul_le_mul_iff_left₀ hpos, mul_left_inj' hpos.ne']
    exact ⟨h.sub_le, fun he ↦ h.even_of_tie (.inr he)⟩
  · -- The number is zero or a power of two, and the quotient is not below it.
    have hp : p = 0 ∨ fractionCount ≤ units := hq.imp_right h.le_of_le
    have hc : units = 0 ∨ units = fractionCount := by omega
    refine ⟨(low_le_ordinalValue _).trans ?_, fun _ ↦ ?_⟩
    · rw [ordinalValue_of_units hp hu, mul_le_mul_iff_left₀ hpos]
      rcases hc with rfl | rfl
      · exact_mod_cast hq₀
      · exact hq.resolve_left fun h₀ ↦ hi ⟨fractionCount_pos, .inl h₀⟩
    · rcases hc with rfl | rfl
      · exact Even.zero
      · decide

theorem le_high_of_isHalfEven (hp : p = 0 ∨ fractionCount ≤ units)
    (hq : q < (2 * fractionCount : ℕ)) (hu : units ≤ 2 * fractionCount) (h : IsHalfEven q units) :
    q * 2 ^ ((p : ℤ) - 1074) ≤ high (p * fractionCount + units) ∧
      (q * 2 ^ ((p : ℤ) - 1074) = high (p * fractionCount + units) → Even units) := by
  have hpos : (0 : ℚ) < 2 ^ ((p : ℤ) - 1074) := by positivity
  rcases hu.lt_or_eq with hu | rfl
  · rw [high_of_units hp hu, mul_le_mul_iff_left₀ hpos, mul_left_inj' hpos.ne']
    exact ⟨h.le_add, fun he ↦ h.even_of_tie (.inl he)⟩
  · refine ⟨le_trans ?_ (ordinalValue_lt_high _).le, fun _ ↦ even_two_mul _⟩
    rw [ordinalValue_of_units hp le_rfl, mul_le_mul_iff_left₀ hpos]
    exact hq.le

theorem roundsTo_of_isHalfEven (hq₀ : 0 ≤ q) (hq : p = 0 ∨ (fractionCount : ℚ) ≤ q)
    (hq' : q < (2 * fractionCount : ℕ)) (h : IsHalfEven q units) :
    RoundsTo (q * 2 ^ ((p : ℤ) - 1074)) (p * fractionCount + units) := by
  have hu : units ≤ 2 * fractionCount := h.ge_of_ge hq'.le
  obtain ⟨hl, hel⟩ := low_le_of_isHalfEven hq₀ hq hu h
  obtain ⟨hh, heh⟩ := le_high_of_isHalfEven (hq.imp_right h.le_of_le) hq' hu h
  exact ⟨hl, hh, fun he ↦ even_of_units (he.elim hel heh)⟩

end Units

theorem exists_roundsTo (negative : Bool) {n d : ℕ} (hn : 0 < n) (hd : 0 < d) :
    ∃ k, ofRatio negative n d = ofOrdinal negative k ∧ RoundsTo (n / d) k := by
  obtain ⟨h₁, h₂⟩ := floorLog2_spec hn hd
  rw [ofRatio, if_neg hn.ne']
  generalize floorLog2 n d = e at h₁ h₂
  dsimp only
  -- The unit leaves 53 bits of the quotient, or is that of the subnormal numbers.
  generalize hpower : (if e - 52 < -1074 then -1074 else e - 52) = power
  refine ⟨_, rfl, ?_⟩
  obtain ⟨p, rfl⟩ : ∃ p : ℕ, power = p - 1074 := ⟨(power + 1074).toNat, by omega⟩
  have hu := isHalfEven_divHalfEven (n * Nat.pow 2 (-((p : ℤ) - 1074)).toNat)
    (Nat.mul_pos hd (pow_toNat_pos two_pos ((p : ℤ) - 1074)))
  rw [cast_div_pow two_pos] at hu
  have hpos : (0 : ℚ) < 2 ^ ((p : ℤ) - 1074) := by positivity
  have hq : (n / d : ℚ) = n / d / (2 : ℕ) ^ ((p : ℤ) - 1074) * 2 ^ ((p : ℤ) - 1074) :=
    (div_mul_cancel₀ _ hpos.ne').symm
  have hp : ((p : ℤ) - 1074 + 1074).toNat = p := by omega
  rw [hq, hp]
  refine roundsTo_of_isHalfEven (by positivity) ?_ ?_ hu
  · rcases Nat.eq_zero_or_pos p with h₀ | h₀
    · exact .inl h₀
    · right
      rw [Nat.cast_two, le_div_iff₀ hpos, cast_fractionCount]
      refine le_trans (le_of_eq ?_) h₁
      rw [← zpow_natCast, ← zpow_add₀ two_ne_zero]
      congr 1
      omega
  · rw [Nat.cast_two, div_lt_iff₀ hpos, Nat.cast_mul, Nat.cast_two, cast_fractionCount]
    refine lt_of_lt_of_le h₂ ?_
    rw [← pow_succ', ← zpow_natCast, ← zpow_add₀ two_ne_zero]
    refine zpow_le_zpow_right₀ one_le_two ?_
    omega

variable {negative : Bool} {exponent : Fin 2047} {fraction : Fin fractionCount}

theorem ofOrdinal_eq_finite_iff_roundsTo {q : ℚ} {k : ℕ} (h : RoundsTo q k) :
    ofOrdinal negative k = finite negative exponent fraction ↔
      RoundsTo q (ordinal exponent fraction) :=
  ofOrdinal_eq_finite_iff.trans ⟨fun hk ↦ hk ▸ h, fun hk ↦ h.unique hk⟩

/-- A quotient becomes a finite number if and only if it is rounded to it. -/
theorem ofRatio_eq_finite_iff {n d : ℕ} (hn : 0 < n) (hd : 0 < d) :
    ofRatio negative n d = finite negative exponent fraction ↔
      RoundsTo (n / d) (ordinal exponent fraction) := by
  obtain ⟨k, hk, hr⟩ := exists_roundsTo negative hn hd
  rw [hk, ofOrdinal_eq_finite_iff_roundsTo hr]

theorem roundsTo_zero {q : ℚ} (h₀ : 0 ≤ q) (h : q ≤ 2 ^ (-1075 : ℤ)) : RoundsTo q 0 := by
  have hh : high 0 = 2 ^ (-1075 : ℤ) := by
    have h₁ := @ordinalValue_succ 0 0 (.inl rfl) (by decide)
    rw [Nat.zero_mul, Nat.add_zero, ordinalValue_zero, zero_add] at h₁
    rw [high, ordinalValue_zero, zero_add, h₁, div_eq_iff two_ne_zero,
      ← zpow_add_one₀ two_ne_zero]
    rfl
  exact ⟨low_zero ▸ h₀, hh ▸ h, fun _ ↦ Even.zero⟩

theorem le_of_roundsTo {q : ℚ} (h : RoundsTo q (ordinal exponent fraction)) : q ≤ 2 ^ 1024 := by
  have ho : ordinal exponent fraction < 2046 * fractionCount + fractionCount := by
    have he := Nat.mul_le_mul_right fractionCount (Nat.le_of_lt_succ exponent.isLt)
    have hf := fraction.isLt
    rw [ordinal]
    omega
  have hv := ordinalValue_of_units (p := 2046) (.inr le_rfl) (by decide)
  refine h.le_high.trans ((high_le_low ho).trans ((low_le_ordinalValue _).trans ?_))
  rw [hv, cast_fractionCount, ← zpow_natCast, ← zpow_add₀ two_ne_zero, ← zpow_natCast]
  exact le_of_eq (congrArg _ (by norm_num))

/-- A decimal is read as a finite number if and only if it is rounded to it. -/
theorem ofDecimal_eq_finite_iff {d : Decimal} :
    ofDecimal negative d = finite negative exponent fraction ↔
      RoundsTo d.value (ordinal exponent fraction) := by
  have hzero : zero negative = ofOrdinal negative 0 := rfl
  rw [ofDecimal]
  split
  · rename_i h
    have hv : d.value = 0 := by rw [Decimal.value, h, Nat.cast_zero, zero_mul]
    rw [hzero]
    exact ofOrdinal_eq_finite_iff_roundsTo (roundsTo_zero hv.ge (hv.trans_le (by positivity)))
  · rename_i h
    have hc : 0 < d.coefficient := Nat.pos_of_ne_zero h
    split
    · rename_i hp
      have hne : infinite negative ≠ finite negative exponent fraction := fun h ↦ by cases h
      refine iff_of_false hne fun hr ↦ absurd (le_of_roundsTo hr) (not_le.2 ?_)
      calc (2 : ℚ) ^ 1024 < 2 ^ (3 * 400) := pow_lt_pow_right₀ one_lt_two (by decide)
        _ = (2 ^ 3) ^ 400 := pow_mul _ _ _
        _ ≤ 10 ^ 400 := pow_le_pow_left₀ (by norm_num) (by norm_num) _
        _ = 10 ^ (400 : ℤ) := (zpow_natCast _ _).symm
        _ ≤ 10 ^ (d.pointPlace - 1) := zpow_le_zpow_right₀ (by norm_num) (by omega)
        _ ≤ d.value := Decimal.le_value hc
    · split
      · rename_i hp
        rw [hzero]
        refine ofOrdinal_eq_finite_iff_roundsTo (roundsTo_zero ?_ ?_)
        · rw [Decimal.value]
          positivity
        · calc d.value ≤ 10 ^ d.pointPlace := (Decimal.value_lt d).le
            _ ≤ 10 ^ (-400 : ℤ) := zpow_le_zpow_right₀ (by norm_num) (by omega)
            _ = (10 ^ (400 : ℤ))⁻¹ := zpow_neg _ _
            _ = (10 ^ 400)⁻¹ := congrArg _ (zpow_natCast _ 400)
            _ ≤ ((2 ^ 3) ^ 400)⁻¹ :=
              inv_anti₀ (by positivity) (pow_le_pow_left₀ (by norm_num) (by norm_num) _)
            _ = (2 ^ (3 * 400))⁻¹ := by rw [pow_mul]
            _ ≤ (2 ^ 1075)⁻¹ :=
              inv_anti₀ (by positivity) (pow_le_pow_right₀ one_le_two (by decide))
            _ = (2 ^ (1075 : ℤ))⁻¹ := congrArg _ (zpow_natCast _ 1075).symm
            _ = 2 ^ (-1075 : ℤ) := (zpow_neg _ _).symm
      · rw [powerOfTen]
        dsimp only
        rw [ofRatio_eq_finite_iff (Nat.mul_pos hc (pow_toNat_pos (by decide) _))
          (pow_toNat_pos (by decide) _)]
        have hd := (pow_toNat_pos (by decide : 0 < 10) (-d.exponent)).ne'
        rw [Nat.cast_mul, cast_pow_toNat (by decide : 0 < 10), ← mul_assoc,
          mul_div_cancel_right₀ _ (by exact_mod_cast hd)]
        rfl

end TreeMarkup.Double
