import Mathlib.Algebra.Order.Field.Power
import Mathlib.Algebra.Order.Ring.Rat
import Mathlib.Data.Rat.Cast.Order
import Mathlib.Tactic.FieldSimp
import Mathlib.Tactic.Linarith
import Mathlib.Tactic.NormNum
import Mathlib.Tactic.Positivity
import TreeMarkup.Double.Basic

namespace TreeMarkup

section Powers

variable {b n d : ℕ} {p : ℤ}

theorem cast_pow_toNat (hb : 0 < b) (p : ℤ) :
    ((Nat.pow b p.toNat : ℕ) : ℚ) = (b : ℚ) ^ p * (Nat.pow b (-p).toNat : ℕ) := by
  have hb' : (b : ℚ) ≠ 0 := by positivity
  rw [Nat.pow_eq, Nat.pow_eq, Nat.cast_pow, Nat.cast_pow, ← zpow_natCast, ← zpow_natCast,
    ← zpow_add₀ hb']
  congr 1
  omega

theorem pow_toNat_pos (hb : 0 < b) (p : ℤ) : 0 < Nat.pow b p.toNat := Nat.pow_pos hb

theorem div_le_mul_pow_iff (hb : 0 < b) (hd : 0 < d) {c : ℕ} :
    n * Nat.pow b (-p).toNat ≤ c * Nat.pow b p.toNat * d ↔ (n / d : ℚ) ≤ c * (b : ℚ) ^ p := by
  have hd' : (0 : ℚ) < d := by exact_mod_cast hd
  have hp : (0 : ℚ) < (Nat.pow b (-p).toNat : ℕ) := by exact_mod_cast pow_toNat_pos hb (-p)
  rw [← Nat.cast_le (α := ℚ), Nat.cast_mul, Nat.cast_mul, Nat.cast_mul, cast_pow_toNat hb p,
    div_le_iff₀ hd', ← mul_assoc, mul_right_comm _ _ (d : ℚ), mul_le_mul_iff_left₀ hp]

theorem mul_pow_le_div_iff (hb : 0 < b) (hd : 0 < d) {c : ℕ} :
    c * Nat.pow b p.toNat * d ≤ n * Nat.pow b (-p).toNat ↔ c * (b : ℚ) ^ p ≤ (n / d : ℚ) := by
  have hd' : (0 : ℚ) < d := by exact_mod_cast hd
  have hp : (0 : ℚ) < (Nat.pow b (-p).toNat : ℕ) := by exact_mod_cast pow_toNat_pos hb (-p)
  rw [← Nat.cast_le (α := ℚ), Nat.cast_mul, Nat.cast_mul, Nat.cast_mul, cast_pow_toNat hb p,
    le_div_iff₀ hd', ← mul_assoc, mul_right_comm _ _ (d : ℚ), mul_le_mul_iff_left₀ hp]

theorem cast_div_pow (hb : 0 < b) (n d : ℕ) (p : ℤ) :
    ((n * Nat.pow b (-p).toNat : ℕ) / (d * Nat.pow b p.toNat : ℕ) : ℚ) = n / d / (b : ℚ) ^ p := by
  have hp : ((Nat.pow b (-p).toNat : ℕ) : ℚ) ≠ 0 := by exact_mod_cast (pow_toNat_pos hb (-p)).ne'
  rw [Nat.cast_mul, Nat.cast_mul, cast_pow_toNat hb p, ← mul_assoc, mul_div_mul_right _ _ hp,
    div_div]

/-- The powers of `b` next to `n / d` are known from those next to `n` and to `d`, up to one. -/
theorem div_mem_of_pow_le {k l : ℕ} (hb : 1 < b) (hn : b ^ k ≤ n) (hn' : n < b ^ (k + 1))
    (hd : b ^ l ≤ d) (hd' : d < b ^ (l + 1)) :
    (b : ℚ) ^ ((k : ℤ) - l - 1) ≤ n / d ∧ (n / d : ℚ) < (b : ℚ) ^ ((k : ℤ) - l + 1) := by
  have hb₀ : (b : ℚ) ≠ 0 := by positivity
  have hd₀ : (0 : ℚ) < d := by exact_mod_cast (Nat.pow_pos (Nat.zero_lt_of_lt hb)).trans_le hd
  have hn : (b : ℚ) ^ k ≤ n := by exact_mod_cast hn
  have hn' : (n : ℚ) < (b : ℚ) ^ (k + 1) := by exact_mod_cast hn'
  have hd : (b : ℚ) ^ l ≤ d := by exact_mod_cast hd
  have hd' : (d : ℚ) < (b : ℚ) ^ (l + 1) := by exact_mod_cast hd'
  have hpos : ∀ p : ℤ, (0 : ℚ) < (b : ℚ) ^ p := fun p ↦ zpow_pos (by positivity) p
  constructor
  · rw [le_div_iff₀ hd₀]
    calc (b : ℚ) ^ ((k : ℤ) - l - 1) * d ≤ (b : ℚ) ^ ((k : ℤ) - l - 1) * (b : ℚ) ^ (l + 1) :=
          mul_le_mul_of_nonneg_left hd'.le (hpos _).le
      _ = (b : ℚ) ^ k := by
          rw [← zpow_natCast, ← zpow_natCast, ← zpow_add₀ hb₀]
          congr 1
          omega
      _ ≤ n := hn
  · rw [div_lt_iff₀ hd₀]
    calc (n : ℚ) < (b : ℚ) ^ (k + 1) := hn'
      _ = (b : ℚ) ^ ((k : ℤ) - l + 1) * (b : ℚ) ^ l := by
          rw [← zpow_natCast, ← zpow_natCast, ← zpow_add₀ hb₀]
          congr 1
          omega
      _ ≤ (b : ℚ) ^ ((k : ℤ) - l + 1) * d := mul_le_mul_of_nonneg_left hd (hpos _).le

theorem floorLog_of_guess (hb : 0 < b) (hd : 0 < d) {guess : ℤ}
    (h₁ : (b : ℚ) ^ (guess - 1) ≤ n / d) (h₂ : (n / d : ℚ) < (b : ℚ) ^ (guess + 1)) :
    let e := if d * Nat.pow b guess.toNat ≤ n * Nat.pow b (-guess).toNat then guess else guess - 1
    (b : ℚ) ^ e ≤ n / d ∧ (n / d : ℚ) < (b : ℚ) ^ (e + 1) := by
  have hg : d * Nat.pow b guess.toNat ≤ n * Nat.pow b (-guess).toNat ↔ (b : ℚ) ^ guess ≤ n / d := by
    have h := mul_pow_le_div_iff (n := n) (c := 1) (p := guess) hb hd
    rwa [Nat.one_mul, Nat.mul_comm, Nat.cast_one, one_mul] at h
  simp only [hg]
  split
  · rename_i h
    exact ⟨h, h₂⟩
  · rename_i h
    exact ⟨h₁, by rwa [sub_add_cancel, ← not_le]⟩

end Powers

namespace Text

theorem length_ofNat_le_iff {n k : ℕ} (hk : 0 < k) : (ofNat n).length ≤ k ↔ n < 10 ^ k :=
  Nat.length_toDigits_le_iff (by decide) hk

theorem length_ofNat_pos (n : ℕ) : 0 < (ofNat n).length := Nat.length_toDigits_pos

theorem lt_pow_length_ofNat (n : ℕ) : n < 10 ^ (ofNat n).length :=
  (length_ofNat_le_iff (length_ofNat_pos n)).1 le_rfl

theorem pow_length_ofNat_le {n : ℕ} (hn : 0 < n) : 10 ^ ((ofNat n).length - 1) ≤ n := by
  by_contra! h
  rcases Nat.eq_zero_or_pos ((ofNat n).length - 1) with h₀ | h₀
  · rw [h₀] at h
    omega
  · have := (length_ofNat_le_iff h₀).2 h
    omega

end Text

namespace Decimal

def value (d : Decimal) : ℚ := d.coefficient * 10 ^ d.exponent

variable {d : Decimal}

theorem value_lt (d : Decimal) : d.value < 10 ^ d.pointPlace := by
  have hc : (d.coefficient : ℚ) < 10 ^ d.digits.length := by
    exact_mod_cast Text.lt_pow_length_ofNat d.coefficient
  rw [value, pointPlace, zpow_add₀ (by norm_num), zpow_natCast]
  exact mul_lt_mul_of_pos_right hc (by positivity)

theorem le_value (h : 0 < d.coefficient) : 10 ^ (d.pointPlace - 1) ≤ d.value := by
  have hc : (10 : ℚ) ^ (d.digits.length - 1) ≤ d.coefficient := by
    exact_mod_cast Text.pow_length_ofNat_le h
  have hl : 0 < d.digits.length := Text.length_ofNat_pos d.coefficient
  have hp : d.pointPlace - 1 = ((d.digits.length - 1 : ℕ) : ℤ) + d.exponent := by
    rw [pointPlace]
    omega
  rw [value, hp, zpow_add₀ (by norm_num), zpow_natCast]
  exact mul_le_mul_of_nonneg_right hc (by positivity)

end Decimal

namespace Double

variable {n d : ℕ}

theorem floorLog2_spec (hn : 0 < n) (hd : 0 < d) :
    (2 : ℚ) ^ floorLog2 n d ≤ n / d ∧ (n / d : ℚ) < 2 ^ (floorLog2 n d + 1) := by
  obtain ⟨h₁, h₂⟩ := div_mem_of_pow_le one_lt_two (Nat.log2_self_le hn.ne') Nat.lt_log2_self
    (Nat.log2_self_le hd.ne') Nat.lt_log2_self
  exact floorLog_of_guess two_pos hd h₁ h₂

theorem floorLog10_spec (hn : 0 < n) (hd : 0 < d) :
    (10 : ℚ) ^ floorLog10 n d ≤ n / d ∧ (n / d : ℚ) < 10 ^ (floorLog10 n d + 1) := by
  have hn' := Text.length_ofNat_pos n
  have hd' := Text.length_ofNat_pos d
  obtain ⟨h₁, h₂⟩ := div_mem_of_pow_le (by decide : 1 < 10) (Text.pow_length_ofNat_le hn)
    (by rw [Nat.sub_add_cancel hn']; exact Text.lt_pow_length_ofNat n)
    (Text.pow_length_ofNat_le hd)
    (by rw [Nat.sub_add_cancel hd']; exact Text.lt_pow_length_ofNat d)
  rw [Nat.cast_sub hn', Nat.cast_sub hd', sub_sub_sub_cancel_right] at h₁ h₂
  exact floorLog_of_guess (by decide) hd h₁ h₂

end Double

/-- `r` is an integer nearest to `q`, and even if there are two. -/
structure IsHalfEven (q : ℚ) (r : ℕ) : Prop where
  le_add : q ≤ r + 1 / 2
  sub_le : r - 1 / 2 ≤ q
  even_of_tie : q = r + 1 / 2 ∨ q = r - 1 / 2 → Even r

namespace IsHalfEven

variable {q : ℚ} {r a : ℕ}

theorem le_of_le (h : IsHalfEven q r) (ha : (a : ℚ) ≤ q) : a ≤ r := by
  have hr : (a : ℚ) < (r + 1 : ℕ) := by
    have := h.le_add
    rw [Nat.cast_succ]
    linarith
  exact Nat.le_of_lt_succ (by exact_mod_cast hr)

theorem ge_of_ge (h : IsHalfEven q r) (ha : q ≤ a) : r ≤ a := by
  have hr : (r : ℚ) < (a + 1 : ℕ) := by
    have := h.sub_le
    rw [Nat.cast_succ]
    linarith
  exact Nat.le_of_lt_succ (by exact_mod_cast hr)

theorem abs_sub_le_half (h : IsHalfEven q r) : |(r : ℚ) - q| ≤ 1 / 2 := by
  rw [abs_le]
  exact ⟨by linarith [h.le_add], by linarith [h.sub_le]⟩

theorem abs_sub_le (h : IsHalfEven q r) (c : ℕ) : |(r : ℚ) - q| ≤ |(c : ℚ) - q| := by
  have hr := h.abs_sub_le_half
  rcases lt_trichotomy c r with hc | rfl | hc
  · have hc : ((c + 1 : ℕ) : ℚ) ≤ r := by exact_mod_cast hc
    have hq := h.sub_le
    rw [Nat.cast_succ] at hc
    rw [abs_of_nonpos (by linarith : (c : ℚ) - q ≤ 0)]
    linarith
  · exact le_rfl
  · have hc : ((r + 1 : ℕ) : ℚ) ≤ c := by exact_mod_cast hc
    have hq := h.le_add
    rw [Nat.cast_succ] at hc
    rw [abs_of_nonneg (by linarith : 0 ≤ (c : ℚ) - q)]
    linarith

end IsHalfEven

theorem isHalfEven_divHalfEven (n : ℕ) {d : ℕ} (hd : 0 < d) :
    IsHalfEven (n / d) (divHalfEven n d) := by
  have hd' : (0 : ℚ) < d := by exact_mod_cast hd
  have hq : (n / d : ℚ) = (n / d : ℕ) + (n % d : ℕ) / d := by
    rw [div_eq_iff hd'.ne', add_mul, div_mul_cancel₀ _ hd'.ne']
    exact_mod_cast (Nat.div_add_mod' n d).symm
  have hr : ((n % d : ℕ) / d : ℚ) < 1 := by
    rw [div_lt_one hd']
    exact_mod_cast Nat.mod_lt n hd
  have hr₀ : (0 : ℚ) ≤ (n % d : ℕ) / d := by positivity
  have hlt : 2 * (n % d) < d ↔ ((n % d : ℕ) / d : ℚ) < 1 / 2 := by
    rw [div_lt_iff₀ hd', ← Nat.cast_lt (α := ℚ)]
    push_cast
    constructor <;> intro h <;> linarith
  have hgt : d < 2 * (n % d) ↔ (1 / 2 : ℚ) < (n % d : ℕ) / d := by
    rw [lt_div_iff₀ hd', ← Nat.cast_lt (α := ℚ)]
    push_cast
    constructor <;> intro h <;> linarith
  rw [hq, divHalfEven]
  simp only [hlt, hgt]
  generalize ((n % d : ℕ) / d : ℚ) = r at *
  generalize n / d = q
  have hc : ((q + 1 : ℕ) : ℚ) = q + 1 := Nat.cast_succ q
  split
  · rename_i h
    refine ⟨by linarith, by linarith, ?_⟩
    rintro (h | h) <;> linarith
  · split
    · rename_i h
      refine ⟨by linarith, by linarith, ?_⟩
      rintro (h | h) <;> linarith
    · rename_i h h'
      have hr : r = 1 / 2 := le_antisymm (not_lt.1 h') (not_lt.1 h)
      rw [hr]
      rcases Nat.mod_two_eq_zero_or_one q with hp | hp
      · rw [hp, add_zero]
        exact ⟨le_rfl, by linarith, fun _ ↦ Nat.even_iff.2 hp⟩
      · rw [hp]
        exact ⟨by linarith, by linarith, fun _ ↦ (Nat.odd_iff.2 hp).add_one⟩

end TreeMarkup
