import Mathlib.Tactic.Linarith
import TreeMarkup.Benchmark.Run
import TreeMarkup.Proofs.GeneratedDocuments

namespace TreeMarkup.Benchmark

namespace Stress

variable {greatest step : Int} {s : Stress}

def conversion (depth : Int) : Conversion := ⟨depth, nestedMarkup 1 depth.toNat⟩

theorem convert_deepChain (depth : Nat) :
    convert {} (.list (deepChain depth)) = .ok (nestedMarkup 1 depth) := by
  rw [convert, deepChain, chain_eq_nestedStructure]
  exact renderAll_singleton (render_nestedStructure depth 1)

theorem advance_eq (step : Int) (s : Stress) :
    s.advance step = .ok ⟨s.depth + step, conversion s.depth :: s.made⟩ := by
  rw [advance, convert_deepChain]
  rfl

theorem runWithin_of_le (h : s.depth ≤ greatest) (rounds : Nat) :
    s.runWithin greatest step (rounds + 1) =
      runWithin greatest step rounds ⟨s.depth + step, conversion s.depth :: s.made⟩ := by
  rw [runWithin, if_pos h, advance_eq]

theorem runWithin_of_lt (h : greatest < s.depth) (rounds : Nat) :
    s.runWithin greatest step (rounds + 1) = some (.ok s.made.reverse) := by
  rw [runWithin, if_neg (by omega)]

theorem runWithin_eq_none (hs : step ≤ 0) (h : s.depth ≤ greatest) (rounds : Nat) :
    s.runWithin greatest step rounds = none := by
  induction rounds generalizing s with
  | zero => rfl
  | succ rounds ih =>
    rw [runWithin_of_le h]
    exact ih (by dsimp only; omega)

theorem runWithin_eq_some {n : Nat} (hn : greatest < s.depth + n * step)
    (hle : ∀ i : Nat, i < n → s.depth + i * step ≤ greatest) {rounds : Nat} (hr : n < rounds) :
    s.runWithin greatest step rounds =
      some (.ok (s.made.reverse ++
        (List.range n).map fun i : Nat ↦ conversion (s.depth + i * step))) := by
  induction n generalizing s rounds with
  | zero =>
    obtain ⟨rounds, rfl⟩ := Nat.exists_eq_add_of_lt hr
    rw [Nat.zero_add, runWithin_of_lt (by simpa using hn)]
    simp
  | succ n ih =>
    obtain ⟨rounds, rfl⟩ : ∃ r, rounds = r + 1 := ⟨rounds - 1, by omega⟩
    have hs : ∀ i : Nat, s.depth + step + i * step = s.depth + (i + 1 : Nat) * step := by
      intro i
      push_cast
      ring
    have h₀ : s.depth ≤ greatest := by simpa using hle 0 (by omega)
    rw [runWithin_of_le h₀, ih]
    · simp [List.range_succ_eq_map, Function.comp_def, hs]
    · rw [hs]
      exact hn
    · intro i hi
      rw [hs]
      exact hle (i + 1) (by omega)
    · omega

theorem multiples_bounds (hs : 0 < step) (greatest : Int) :
    greatest < step + (greatest / step).toNat * step ∧
      (∀ i : Nat, i < (greatest / step).toNat → step + i * step ≤ greatest) ∧
      (greatest / step).toNat < rounds greatest step := by
  have hlt := Int.lt_ediv_add_one_mul_self greatest hs
  have hle := Int.ediv_mul_le greatest hs.ne'
  have hd : (greatest - step) / step = greatest / step - 1 := by
    rw [Int.sub_ediv_of_dvd _ (Int.dvd_refl step), Int.ediv_self hs.ne']
  refine ⟨?_, fun i hi ↦ ?_, ?_⟩
  · have hq : greatest / step + 1 ≤ (greatest / step).toNat + 1 := by omega
    have := Int.mul_le_mul_of_nonneg_right hq hs.le
    linarith
  · have hi : (i : Int) + 1 ≤ greatest / step := by omega
    have := Int.mul_le_mul_of_nonneg_right hi hs.le
    linarith
  · rw [rounds, if_pos hs, hd]
    omega

theorem runWithin_start (hs : 0 < step) {rounds : Nat} (hr : (greatest / step).toNat < rounds) :
    (start step).runWithin greatest step rounds =
      some (.ok ((List.range (greatest / step).toNat).map fun i : Nat ↦
        conversion (step + i * step))) := by
  obtain ⟨hlt, hle, -⟩ := multiples_bounds hs greatest
  exact runWithin_eq_some hlt hle hr

/-- The documents of all positive multiples of the step up to the greatest depth are converted,
once each and in increasing order. -/
structure IsComplete (greatest step : Int) (made : List Conversion) : Prop where
  increasing : (made.map Conversion.depth).Pairwise (· < ·)
  mem_iff : ∀ depth, depth ∈ made.map Conversion.depth ↔
    0 < depth ∧ step ∣ depth ∧ depth ≤ greatest
  converted : ∀ c ∈ made, convert {} (.list (deepChain c.depth.toNat)) = .ok c.markup

theorem isComplete_multiples (hs : 0 < step) :
    IsComplete greatest step
      ((List.range (greatest / step).toNat).map fun i : Nat ↦ conversion (step + i * step)) where
  increasing := by
    rw [List.map_map, List.pairwise_map]
    refine List.pairwise_lt_range.imp fun {i j} hij ↦ ?_
    have hij : (i : Int) < j := by exact_mod_cast hij
    have := Int.mul_lt_mul_of_pos_right hij hs
    simpa [conversion] using this
  mem_iff depth := by
    rw [List.map_map, List.mem_map]
    constructor
    · rintro ⟨i, hi, rfl⟩
      have hle := (multiples_bounds hs greatest).2.1 i (List.mem_range.1 hi)
      have := Int.mul_nonneg (Int.natCast_nonneg i) hs.le
      refine ⟨?_, ?_, hle⟩
      · change 0 < step + i * step
        omega
      · exact Int.dvd_add (Int.dvd_refl step) (Int.dvd_mul_left i step)
    · rintro ⟨hpos, ⟨k, rfl⟩, hle⟩
      have hk : 0 < k := pos_of_mul_pos_right hpos hs.le
      have hq : k ≤ greatest / step := Int.le_ediv_of_mul_le hs (by rwa [Int.mul_comm])
      refine ⟨(k - 1).toNat, List.mem_range.2 (by omega), ?_⟩
      have hc : ((k - 1).toNat : Int) = k - 1 := by omega
      change step + (k - 1).toNat * step = step * k
      rw [hc]
      ring
  converted := by
    intro c hc
    obtain ⟨i, -, rfl⟩ := List.mem_map.1 hc
    exact convert_deepChain _

theorem isComplete_nil (hs : step ≤ 0) (h : greatest < step) : IsComplete greatest step [] where
  increasing := .nil
  mem_iff := by
    simp
    omega
  converted := by simp

theorem exists_run (h : 0 < step ∨ greatest < step) :
    ∃ made, run? greatest step = some (.ok made) ∧ IsComplete greatest step made := by
  by_cases hs : 0 < step
  · exact ⟨_, runWithin_start hs (multiples_bounds hs greatest).2.2, isComplete_multiples hs⟩
  · have hlt : greatest < step := by omega
    refine ⟨[], ?_, isComplete_nil (by omega) hlt⟩
    rw [run?, rounds, if_neg hs]
    exact runWithin_of_lt hlt 0

theorem runWithin_start_eq_none (hs : step ≤ 0) (h : step ≤ greatest) (rounds : Nat) :
    (start step).runWithin greatest step rounds = none :=
  runWithin_eq_none hs h rounds

end Stress

theorem stressReport?_of_run {clock : Clock} {setup : Setup} {made : List Conversion}
    (h : Stress.run? setup.maxDepth setup.step = some (.ok made)) (i : Nat) :
    stressReport? clock setup i = some (stressTitle ++
      (made.mapIdx fun j c ↦ depthLine clock (i + j) c.depth).flatten) := by
  rw [stressReport?, h]
  rfl

/-- A stress run ends, with a line for each of its conversions, if and only if its step is positive
or beyond the greatest depth. With any other step no number of rounds is enough. -/
theorem stress_run_ends_iff (clock : Clock) (setup : Setup) (i : Nat) :
    ((∃ rounds made,
        (Stress.start setup.step).runWithin setup.maxDepth setup.step rounds = some (.ok made) ∧
        Stress.IsComplete setup.maxDepth setup.step made ∧
        stressReport? clock setup i = some (stressTitle ++
          (made.mapIdx fun j c ↦ depthLine clock (i + j) c.depth).flatten)) ↔
      0 < setup.step ∨ setup.maxDepth < setup.step) ∧
    ((∀ rounds,
        (Stress.start setup.step).runWithin setup.maxDepth setup.step rounds = none) ↔
      setup.step ≤ 0 ∧ setup.step ≤ setup.maxDepth) := by
  have hnone : setup.step ≤ 0 ∧ setup.step ≤ setup.maxDepth → ∀ rounds,
      (Stress.start setup.step).runWithin setup.maxDepth setup.step rounds = none :=
    fun h ↦ Stress.runWithin_start_eq_none h.1 h.2
  refine ⟨⟨?_, fun h ↦ ?_⟩, fun h ↦ ?_, hnone⟩
  · rintro ⟨rounds, made, hr, -⟩
    by_contra hc
    rw [hnone (by omega) rounds] at hr
    cases hr
  · obtain ⟨made, hr, hm⟩ := Stress.exists_run h
    exact ⟨_, made, hr, hm, stressReport?_of_run hr i⟩
  · by_contra hc
    have hstep : 0 < setup.step ∨ setup.maxDepth < setup.step := by omega
    obtain ⟨made, hr, -⟩ := Stress.exists_run hstep
    rw [Stress.run?, h] at hr
    cases hr

def zeroStepWords : List Text := ["--scale", "0", "--stress", "--max-depth", "5", "--step", "0"]

/-- A step of zero is read from the command line. No depth has to be converted then, and still the
run never gets past depth zero. -/
theorem zero_step_never_ends :
    ∃ setup, Setup.read zeroStepWords = .ok setup ∧ setup.stress = true ∧
      Stress.IsComplete setup.maxDepth setup.step [] ∧
      ∀ rounds,
        (Stress.start setup.step).runWithin setup.maxDepth setup.step rounds = none := by
  have hr : ((Setup.read zeroStepWords).toOption.map fun s ↦ (s.stress, s.maxDepth, s.step)) =
      some (true, 5, 0) := by decide +kernel
  cases h : Setup.read zeroStepWords with
  | error e => simp [h, Except.toOption] at hr
  | ok setup =>
    obtain ⟨hs, hd, hstep⟩ : setup.stress = true ∧ setup.maxDepth = 5 ∧ setup.step = 0 := by
      simpa [h, Except.toOption] using hr
    refine ⟨setup, rfl, hs, ⟨.nil, fun depth ↦ ?_, by simp⟩, fun rounds ↦ ?_⟩
    · rw [hstep, Int.zero_dvd]
      simp only [List.map_nil, List.not_mem_nil, false_iff]
      omega
    · exact Stress.runWithin_start_eq_none (by omega) (by omega) rounds

end TreeMarkup.Benchmark
