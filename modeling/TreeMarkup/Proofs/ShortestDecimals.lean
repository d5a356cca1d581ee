import TreeMarkup.Proofs.RoundingBasins

namespace TreeMarkup

namespace Decimal

variable {d : Decimal}

theorem value_stripZeros (d : Decimal) : d.stripZeros.value = d.value := by
  fun_induction stripZeros d with
  | case1 d h ih =>
    have hc : ((d.coefficient / 10 : ℕ) : ℚ) * 10 = d.coefficient := by
      exact_mod_cast Nat.div_mul_cancel (Nat.dvd_of_mod_eq_zero h.2)
    rw [ih, value, value, zpow_add_one₀ (by norm_num), ← hc]
    ring
  | case2 => rfl

theorem coefficient_stripZeros_mod (h : 0 < d.coefficient) : d.stripZeros.coefficient % 10 ≠ 0 := by
  fun_induction stripZeros d with
  | case1 d h' ih => exact ih (Nat.div_pos (by omega) (by decide))
  | case2 d h' => exact fun hm ↦ h' ⟨h, hm⟩

theorem coefficient_stripZeros_le (d : Decimal) : d.stripZeros.coefficient ≤ d.coefficient := by
  fun_induction stripZeros d with
  | case1 d h' ih => exact ih.trans (Nat.div_le_self _ _)
  | case2 => exact le_rfl

theorem length_digits_stripZeros_le {k : ℕ} (hk : 0 < k) (h : d.coefficient ≤ 10 ^ k) :
    d.stripZeros.digits.length ≤ k := by
  rw [digits, Text.length_ofNat_le_iff hk]
  rcases h.lt_or_eq with h | h
  · exact (coefficient_stripZeros_le d).trans_lt h
  · have hm : 0 < d.coefficient ∧ d.coefficient % 10 = 0 := by
      rw [h]
      exact ⟨by positivity, Nat.mod_eq_zero_of_dvd (dvd_pow_self 10 hk.ne')⟩
    rw [stripZeros, dif_pos hm]
    refine (coefficient_stripZeros_le _).trans_lt ?_
    rw [← h]
    exact Nat.div_lt_self hm.1 (by decide)

end Decimal

namespace Double

variable {exponent : Fin 2047} {fraction : Fin fractionCount} {p : ℤ}

/-- A point of a grid that reads back as the number, and no such point is nearer to it. -/
structure IsNearest (exponent : Fin 2047) (fraction : Fin fractionCount) (p : ℤ) (c : ℕ) :
    Prop where
  reads : RoundsTo (c * 10 ^ p) (ordinal exponent fraction)
  nearest : ∀ c' : ℕ, RoundsTo (c' * 10 ^ p) (ordinal exponent fraction) →
    |c * 10 ^ p - value exponent fraction| ≤ |c' * 10 ^ p - value exponent fraction|

theorem IsNearest.le_of_value_le {c c' : ℕ} (hc : IsNearest exponent fraction p c)
    (h : value exponent fraction ≤ c' * 10 ^ p) : c ≤ c' := by
  by_contra hlt
  have hlt : (c' : ℚ) * 10 ^ p < c * 10 ^ p :=
    mul_lt_mul_of_pos_right (by exact_mod_cast not_le.1 hlt) (by positivity)
  have hr := hc.reads.of_value_le (ordinalValue_ordinal ▸ h) hlt.le
  have hn := hc.nearest c' hr
  rw [abs_of_nonneg (by linarith), abs_of_nonneg (by linarith)] at hn
  linarith

section Grids

def below (exponent : Fin 2047) (fraction : Fin fractionCount) (p : ℤ) : ℕ :=
  (basin exponent fraction).value * (powerOfTen p).2 /
    ((basin exponent fraction).unit * (powerOfTen p).1)

theorem basin_scaled :
    (((basin exponent fraction).value * (powerOfTen p).2 : ℕ) /
      ((basin exponent fraction).unit * (powerOfTen p).1 : ℕ) : ℚ) =
      value exponent fraction / 10 ^ p := by
  rw [← basin_value]
  exact cast_div_pow (by decide) _ _ p

variable (exponent fraction p) in
theorem scaled_unit_pos : 0 < (basin exponent fraction).unit * (powerOfTen p).1 :=
  Nat.mul_pos (basin_unit_pos _ _) (pow_toNat_pos (by decide) p)

variable (exponent fraction p) in
theorem below_le : (below exponent fraction p : ℚ) ≤ value exponent fraction / 10 ^ p := by
  rw [← basin_scaled, below]
  exact Nat.cast_div_le

variable (exponent fraction p) in
theorem lt_below_add_one : value exponent fraction / 10 ^ p < below exponent fraction p + 1 := by
  have hd := scaled_unit_pos exponent fraction p
  have hd' : (0 : ℚ) < ((basin exponent fraction).unit * (powerOfTen p).1 : ℕ) := by
    exact_mod_cast hd
  rw [← basin_scaled, div_lt_iff₀ hd', below]
  exact_mod_cast Nat.lt_mul_of_div_lt (Nat.lt_succ_self _) hd

theorem ordinalValue_div_mul :
    value exponent fraction / 10 ^ p * 10 ^ p = ordinalValue (ordinal exponent fraction) := by
  rw [ordinalValue_ordinal, div_mul_cancel₀ _ (by positivity)]

theorem abs_sub_eq (c : ℕ) :
    |c * 10 ^ p - value exponent fraction| =
      |c - value exponent fraction / 10 ^ p| * 10 ^ p := by
  have hp : (0 : ℚ) < 10 ^ p := by positivity
  rw [← abs_of_pos hp, ← abs_mul, abs_of_pos hp, sub_mul, div_mul_cancel₀ _ hp.ne']

theorem abs_sub_le_iff (c c' : ℕ) :
    |c * 10 ^ p - value exponent fraction| ≤ |c' * 10 ^ p - value exponent fraction| ↔
      |c - value exponent fraction / 10 ^ p| ≤ |c' - value exponent fraction / 10 ^ p| := by
  have hp : (0 : ℚ) < 10 ^ p := by positivity
  rw [abs_sub_eq, abs_sub_eq, mul_le_mul_iff_left₀ hp]

variable {c : ℕ}

theorem reads_below (h : RoundsTo (c * 10 ^ p) (ordinal exponent fraction))
    (hc : c ≤ below exponent fraction p) :
    RoundsTo (below exponent fraction p * 10 ^ p) (ordinal exponent fraction) := by
  have hp : (0 : ℚ) < 10 ^ p := by positivity
  refine h.of_le_value ?_ ?_
  · rw [mul_le_mul_iff_left₀ hp]
    exact_mod_cast hc
  · rw [← ordinalValue_div_mul (p := p), mul_le_mul_iff_left₀ hp]
    exact below_le _ _ _

theorem reads_above (h : RoundsTo (c * 10 ^ p) (ordinal exponent fraction))
    (hc : below exponent fraction p < c) :
    RoundsTo ((below exponent fraction p + 1 : ℕ) * 10 ^ p) (ordinal exponent fraction) := by
  have hp : (0 : ℚ) < 10 ^ p := by positivity
  refine h.of_value_le ?_ ?_
  · rw [← ordinalValue_div_mul (p := p), mul_le_mul_iff_left₀ hp, Nat.cast_succ]
    exact (lt_below_add_one _ _ _).le
  · rw [mul_le_mul_iff_left₀ hp]
    exact_mod_cast hc

def around (exponent : Fin 2047) (fraction : Fin fractionCount) (p : ℤ) : ℕ :=
  divHalfEven ((basin exponent fraction).value * (powerOfTen p).2)
    ((basin exponent fraction).unit * (powerOfTen p).1)

variable (exponent fraction p) in
theorem isHalfEven_around :
    IsHalfEven (value exponent fraction / 10 ^ p) (around exponent fraction p) := by
  rw [← basin_scaled]
  exact isHalfEven_divHalfEven _ (scaled_unit_pos _ _ _)

theorem onGrid?_eq :
    (basin exponent fraction).onGrid? p =
      match (basin exponent fraction).holds p (below exponent fraction p),
        (basin exponent fraction).holds p (below exponent fraction p + 1) with
      | true, true => some (around exponent fraction p)
      | true, false => some (below exponent fraction p)
      | false, true => some (below exponent fraction p + 1)
      | false, false => none :=
  rfl

/-- If no point next to the number reads back, no point of the grid does. -/
theorem onGrid?_eq_none (h : (basin exponent fraction).onGrid? p = none) (c : ℕ) :
    ¬RoundsTo (c * 10 ^ p) (ordinal exponent fraction) := by
  rw [onGrid?_eq] at h
  split at h
  · cases h
  · cases h
  · cases h
  · rename_i h₁ h₂
    intro hr
    rcases Nat.lt_or_ge (below exponent fraction p) c with hc | hc
    · rw [holds_iff.2 (reads_above hr hc)] at h₂
      cases h₂
    · rw [holds_iff.2 (reads_below hr hc)] at h₁
      cases h₁

theorem reads_around
    (h₁ : RoundsTo (below exponent fraction p * 10 ^ p) (ordinal exponent fraction))
    (h₂ : RoundsTo ((below exponent fraction p + 1 : ℕ) * 10 ^ p) (ordinal exponent fraction)) :
    RoundsTo (around exponent fraction p * 10 ^ p) (ordinal exponent fraction) := by
  have hr := isHalfEven_around exponent fraction p
  have hl := hr.le_of_le (below_le _ _ _)
  have hg := hr.ge_of_ge (a := below exponent fraction p + 1) (by
    rw [Nat.cast_succ]
    exact (lt_below_add_one _ _ _).le)
  rcases hl.eq_or_lt with he | hl
  · rwa [← he]
  · rwa [le_antisymm hg hl]

theorem onGrid?_eq_some (h : (basin exponent fraction).onGrid? p = some c) :
    IsNearest exponent fraction p c := by
  have hb := below_le exponent fraction p
  have ha := lt_below_add_one exponent fraction p
  rw [onGrid?_eq] at h
  split at h
  · rename_i h₁ h₂
    cases h
    refine ⟨reads_around (holds_iff.1 h₁) (holds_iff.1 h₂), fun c' _ ↦ ?_⟩
    rw [abs_sub_le_iff]
    exact (isHalfEven_around _ _ _).abs_sub_le c'
  · rename_i h₁ h₂
    cases h
    refine ⟨holds_iff.1 h₁, fun c' hc' ↦ ?_⟩
    -- What reads back is not above the number, for the point above it does not read back.
    have hle : c' ≤ below exponent fraction p := by
      by_contra! hlt
      rw [holds_iff.2 (reads_above hc' hlt)] at h₂
      cases h₂
    have hle' : (c' : ℚ) ≤ below exponent fraction p := by exact_mod_cast hle
    rw [abs_sub_le_iff, abs_of_nonpos (by linarith), abs_of_nonpos (by linarith)]
    linarith
  · rename_i h₁ h₂
    cases h
    refine ⟨holds_iff.1 h₂, fun c' hc' ↦ ?_⟩
    have hle : below exponent fraction p + 1 ≤ c' := by
      by_contra! hlt
      rw [holds_iff.2 (reads_below hc' (Nat.le_of_lt_succ hlt))] at h₁
      cases h₁
    have hle' : ((below exponent fraction p + 1 : ℕ) : ℚ) ≤ c' := by exact_mod_cast hle
    rw [Nat.cast_succ] at hle'
    rw [abs_sub_le_iff, Nat.cast_succ, abs_of_nonneg (by linarith), abs_of_nonneg (by linarith)]
    linarith
  · cases h

end Grids

/-- The decimal reads back as the number, and has no zero at its end; every decimal that reads back
has as many digits at least, and is no nearer if it has as many. -/
structure IsShortest (exponent : Fin 2047) (fraction : Fin fractionCount) (d : Decimal) : Prop where
  reads : ofDecimal false d = finite false exponent fraction
  stripped : d.coefficient % 10 ≠ 0
  length_le : ∀ d', ofDecimal false d' = finite false exponent fraction →
    d.digits.length ≤ d'.digits.length
  nearest : ∀ d', ofDecimal false d' = finite false exponent fraction →
    d'.digits.length = d.digits.length →
      |d.value - value exponent fraction| ≤ |d'.value - value exponent fraction|

def leading (exponent : Fin 2047) (fraction : Fin fractionCount) : ℤ :=
  floorLog10 (basin exponent fraction).value (basin exponent fraction).unit

section Search

variable (h : 0 < ordinal exponent fraction)
include h

theorem value_pos : 0 < value exponent fraction := by
  rw [← ordinalValue_ordinal, ← ordinalValue_zero]
  exact ordinalValue_strictMono h

theorem leading_spec :
    (10 : ℚ) ^ leading exponent fraction ≤ value exponent fraction ∧
      value exponent fraction < 10 ^ (leading exponent fraction + 1) := by
  have hv : 0 < (basin exponent fraction).value := by
    refine Nat.pos_of_ne_zero fun h₀ ↦ (value_pos h).ne' ?_
    rw [← basin_value, h₀, Nat.cast_zero, zero_div]
  have hl := floorLog10_spec hv (basin_unit_pos exponent fraction)
  rwa [basin_value] at hl

/-- On the grid of seventeen digits the nearest point reads back. -/
theorem reads_around_seventeen :
    RoundsTo (around exponent fraction (leading exponent fraction - 16) *
      10 ^ (leading exponent fraction - 16)) (ordinal exponent fraction) := by
  have hl := (leading_spec h).1
  have hpow : (10 : ℚ) ^ leading exponent fraction =
      10 ^ 16 * 10 ^ (leading exponent fraction - 16) := by
    rw [← zpow_natCast, ← zpow_add₀ (by norm_num)]
    congr 1
    omega
  have hstep : (0 : ℚ) < 10 ^ (leading exponent fraction - 16) := by positivity
  have hr := isHalfEven_around exponent fraction (leading exponent fraction - 16)
  refine roundsTo_of_near h ?_
  rw [ordinalValue_ordinal, abs_sub_eq]
  have hd := hr.abs_sub_le_half
  rw [hpow] at hl
  generalize (10 : ℚ) ^ (leading exponent fraction - 16) = g at *
  calc _ ≤ 1 / 2 * g * 2 ^ 54 := by gcongr
    _ < 10 ^ 16 * g := by linarith
    _ ≤ value exponent fraction := hl

omit h in
theorem exists_first_of_findSome? {α : Type} {f : ℕ → Option α} {m : ℕ} {a : α}
    (hf : (List.range m).findSome? f = some a) : ∃ s, f s = some a ∧ ∀ s' < s, f s' = none := by
  induction m with
  | zero => cases hf
  | succ m ih =>
    rw [List.range_succ, List.findSome?_append] at hf
    cases hm : (List.range m).findSome? f with
    | some b =>
      rw [hm] at hf
      exact ih (hm.trans hf)
    | none =>
      rw [hm, Option.none_or] at hf
      refine ⟨m, ?_, fun s' hs ↦ List.findSome?_eq_none_iff.1 hm s' (List.mem_range.2 hs)⟩
      simpa using hf

theorem exists_shortest :
    ∃ s c : ℕ, shortest exponent fraction =
        (⟨c, leading exponent fraction - s⟩ : Decimal).stripZeros ∧
      IsNearest exponent fraction (leading exponent fraction - s) c ∧
      ∀ s' < s, ∀ c' : ℕ, ¬RoundsTo (c' * 10 ^ (leading exponent fraction - s'))
        (ordinal exponent fraction) := by
  let f : ℕ → Option Decimal := fun step ↦
    ((basin exponent fraction).onGrid? (leading exponent fraction - step)).map
      fun c ↦ ⟨c, leading exponent fraction - step⟩
  have hs : shortest exponent fraction =
      (((List.range 17).findSome? f).getD ⟨0, 0⟩).stripZeros := rfl
  cases hf : (List.range 17).findSome? f with
  | none =>
    -- The last grid that is tried always has a point that reads back.
    have h₁₆ := List.findSome?_eq_none_iff.1 hf 16 (List.mem_range.2 (by decide))
    rw [Option.map_eq_none_iff] at h₁₆
    exact absurd (reads_around_seventeen h) (onGrid?_eq_none h₁₆ _)
  | some d =>
    obtain ⟨s, hd, hn⟩ := exists_first_of_findSome? hf
    obtain ⟨c, hc, rfl⟩ := Option.map_eq_some_iff.1 hd
    refine ⟨s, c, ?_, onGrid?_eq_some hc, fun s' hs' ↦ ?_⟩
    · rw [hs, hf]
      rfl
    · exact onGrid?_eq_none (Option.map_eq_none_iff.1 (hn s' hs'))

/-- A decimal of so many digits that reads back has a point that reads back, and is no farther off,
on the grid of so many digits. -/
theorem exists_reads_of_decimal {d : Decimal}
    (hd : RoundsTo d.value (ordinal exponent fraction)) :
    ∃ c : ℕ,
      RoundsTo (c * 10 ^ (leading exponent fraction - (d.digits.length - 1 : ℕ)))
        (ordinal exponent fraction) ∧
      |c * 10 ^ (leading exponent fraction - (d.digits.length - 1 : ℕ)) -
        value exponent fraction| ≤ |d.value - value exponent fraction| := by
  have hl : 0 < d.digits.length := Text.length_ofNat_pos d.coefficient
  generalize hp : leading exponent fraction - (d.digits.length - 1 : ℕ) = p
  rcases le_or_gt p d.exponent with he | he
  · -- The decimal is itself on that grid.
    refine ⟨d.coefficient * 10 ^ (d.exponent - p).toNat, ?_⟩
    have hv : ((d.coefficient * 10 ^ (d.exponent - p).toNat : ℕ) : ℚ) * 10 ^ p = d.value := by
      rw [Nat.cast_mul, Nat.cast_pow, Nat.cast_ofNat, mul_assoc, ← zpow_natCast,
        ← zpow_add₀ (by norm_num), Decimal.value]
      congr 2
      omega
    rw [hv]
    exact ⟨hd, le_rfl⟩
  · -- The decimal has too few digits to reach the power of ten below the number.
    have hlow := (leading_spec h).1
    have hv : ((10 ^ (d.digits.length - 1) : ℕ) : ℚ) * 10 ^ p = 10 ^ leading exponent fraction := by
      rw [Nat.cast_pow, Nat.cast_ofNat, ← zpow_natCast, ← zpow_add₀ (by norm_num)]
      congr 1
      omega
    have hlt : d.value ≤ 10 ^ leading exponent fraction := by
      refine (Decimal.value_lt d).le.trans (zpow_le_zpow_right₀ (by norm_num) ?_)
      rw [Decimal.pointPlace]
      omega
    refine ⟨10 ^ (d.digits.length - 1), ?_⟩
    rw [hv]
    refine ⟨hd.of_le_value hlt (ordinalValue_ordinal ▸ hlow), ?_⟩
    rw [abs_of_nonpos (by linarith), abs_of_nonpos (by linarith)]
    linarith

end Search

theorem isShortest_shortest (h : 0 < ordinal exponent fraction) :
    IsShortest exponent fraction (shortest exponent fraction) := by
  obtain ⟨s, c, hs, hc, hn⟩ := exists_shortest h
  have hv : (shortest exponent fraction).value = c * 10 ^ (leading exponent fraction - s) := by
    rw [hs, Decimal.value_stripZeros]
    rfl
  have hpos : 0 < c := by
    refine Nat.pos_of_ne_zero fun h₀ ↦ (hc.reads.pos h).ne' ?_
    rw [h₀, Nat.cast_zero, zero_mul]
  have hle : c ≤ 10 ^ (s + 1) := by
    refine hc.le_of_value_le ((leading_spec h).2.le.trans (le_of_eq ?_))
    rw [Nat.cast_pow, Nat.cast_ofNat, ← zpow_natCast, ← zpow_add₀ (by norm_num)]
    congr 1
    omega
  have hk : (shortest exponent fraction).digits.length ≤ s + 1 := by
    rw [hs]
    exact Decimal.length_digits_stripZeros_le s.succ_pos hle
  -- A decimal of fewer digits would have shown up on an earlier grid.
  have hlen : ∀ d : Decimal, RoundsTo d.value (ordinal exponent fraction) →
      s + 1 ≤ d.digits.length := by
    intro d hd
    have hl : 0 < d.digits.length := Text.length_ofNat_pos d.coefficient
    obtain ⟨c', hc', -⟩ := exists_reads_of_decimal h hd
    by_contra hlt
    exact hn (d.digits.length - 1) (by omega) c' hc'
  refine ⟨?_, ?_, fun d hd ↦ ?_, fun d hd hl ↦ ?_⟩
  · rw [ofDecimal_eq_finite_iff, hv]
    exact hc.reads
  · rw [hs]
    exact Decimal.coefficient_stripZeros_mod hpos
  · exact hk.trans (hlen d (ofDecimal_eq_finite_iff.1 hd))
  · have hd := ofDecimal_eq_finite_iff.1 hd
    obtain ⟨c', hc', hle'⟩ := exists_reads_of_decimal h hd
    have hp : d.digits.length - 1 = s := by
      have := hlen d hd
      omega
    rw [hp] at hc' hle'
    rw [hv]
    exact (hc.nearest c' hc').trans hle'

end Double

end TreeMarkup
