import TreeMarkup.Proofs.ReadNumerals

namespace TreeMarkup

open Double (signed)

namespace Text

structure Digits where
  text : Text
  ne_nil : text ≠ []
  isDigit : ∀ c ∈ text, c.isDigit = true

namespace Digits

def value (ds : Digits) : Nat := Nat.ofDigitChars 10 ds.text 0

def ofNat (n : Nat) : Digits := ⟨Text.ofNat n, Nat.toDigits_ne_nil, fun _ ↦ isDigit_of_mem_ofNat⟩

def padded (n : Nat) : Digits where
  text := zeros (2 - (Text.ofNat n).length) ++ Text.ofNat n
  ne_nil := List.append_ne_nil_of_right_ne_nil _ Nat.toDigits_ne_nil
  isDigit := List.forall_mem_append.2 ⟨fun _ ↦ isDigit_of_mem_zeros, fun _ ↦ isDigit_of_mem_ofNat⟩

theorem two_le_length_padded (n : Nat) : 2 ≤ (padded n).text.length := by
  rw [padded, List.length_append, zeros, List.length_replicate]
  omega

theorem toNat?_text (ds : Digits) : toNat? ds.text = some ds.value :=
  toNat?_of_digits ds.ne_nil ds.isDigit

theorem value_ofNat (n : Nat) : (ofNat n).value = n :=
  Nat.ofDigitChars_toDigits (by decide) (by decide)

end Digits

theorem head?_ofNat_ne {n : Nat} (hn : 0 < n) : (ofNat n).head? ≠ some '0' := by
  induction n using Nat.strong_induction_on with
  | _ n ih =>
    rcases lt_or_ge n 10 with h | h
    · interval_cases n <;> decide
    · rw [ofNat, Nat.toDigits_of_base_le (by decide) h,
        List.head?_append_of_ne_nil _ Nat.toDigits_ne_nil]
      exact ih (n / 10) (by omega) (by omega)

end Text

namespace Numeral

open Text (Digits toNat? readSign readMantissa? readDecimal?)

/-- The parts of a numeral. There may be no point, and no exponent; an exponent is given by whether it
is negative, and its digits. -/
structure Form where
  negative : Bool
  whole : Digits
  fraction : Option Digits
  exponent : Option (Bool × Digits)

namespace Form

def mantissa (f : Form) : Text :=
  match f.fraction with
  | none => f.whole.text
  | some ds => f.whole.text ++ '.' :: ds.text

def magnitude (f : Form) : Text :=
  match f.exponent with
  | none => f.mantissa
  | some (negative, ds) => f.mantissa ++ 'e' :: (if negative then '-' else '+') :: ds.text

def text (f : Form) : Text := signed f.negative f.magnitude

def places (f : Form) : Text := f.fraction.elim [] Digits.text

def power (f : Form) : Int :=
  match f.exponent with
  | none => 0
  | some (negative, ds) => if negative then -(ds.value : Int) else ds.value

def decimal (f : Form) : Decimal :=
  ⟨Nat.ofDigitChars 10 (f.whole.text ++ f.places) 0, f.power - f.places.length⟩

def value (f : Form) : ℚ := if f.negative then -f.decimal.value else f.decimal.value

end Form

/-- `Denotes t q`: the text `t` is a numeral of the number `q`. -/
def Denotes (t : Text) (q : ℚ) : Prop := ∃ f : Form, f.text = t ∧ f.value = q

namespace Form

variable (f : Form)

theorem isDigit_of_mem_places : ∀ c ∈ f.places, c.isDigit = true := by
  rw [places]
  cases f.fraction with
  | none => simp
  | some ds => exact ds.isDigit

theorem toNat?_digits : toNat? (f.whole.text ++ f.places) = some f.decimal.coefficient :=
  Text.toNat?_of_digits (List.append_ne_nil_of_left_ne_nil f.whole.ne_nil _)
    (List.forall_mem_append.2 ⟨f.whole.isDigit, f.isDigit_of_mem_places⟩)

theorem mantissa_cases :
    (f.mantissa = f.whole.text ∧ f.places = []) ∨ f.mantissa = f.whole.text ++ '.' :: f.places := by
  rw [mantissa, places]
  cases f.fraction with
  | none => exact .inl ⟨rfl, rfl⟩
  | some ds => exact .inr rfl

theorem forall_mem_mantissa : ∀ c ∈ f.mantissa, c.isDigit = true ∨ c = '.' := by
  have hw : ∀ c ∈ f.whole.text, c.isDigit = true ∨ c = '.' := fun c hc ↦ .inl (f.whole.isDigit c hc)
  rcases f.mantissa_cases with ⟨hm, -⟩ | hm
  · rwa [hm]
  · rw [hm, List.forall_mem_append, List.forall_mem_cons]
    exact ⟨hw, .inr rfl, fun c hc ↦ .inl (f.isDigit_of_mem_places c hc)⟩

theorem mantissa_ne_nil : f.mantissa ≠ [] := by
  rcases f.mantissa_cases with ⟨hm, -⟩ | hm
  · rw [hm]
    exact f.whole.ne_nil
  · rw [hm]
    exact List.append_ne_nil_of_left_ne_nil f.whole.ne_nil _

theorem not_mem_mantissa (b : Bool) : 'e' ∉ signed b f.mantissa :=
  not_mem_signed b f.forall_mem_mantissa

theorem text_of_exponent {negative : Bool} {ds : Digits} (h : f.exponent = some (negative, ds)) :
    f.text =
      signed f.negative f.mantissa ++ 'e' :: (if negative then '-' else '+') :: ds.text := by
  rw [text, magnitude, h, Double.signed_append]

theorem text_of_none (h : f.exponent = none) : f.text = signed f.negative f.mantissa := by
  rw [text, magnitude, h]

theorem mem_text_iff : 'e' ∈ f.text ↔ f.exponent ≠ none := by
  cases h : f.exponent with
  | none => simpa [f.text_of_none h] using f.not_mem_mantissa _
  | some e => simp [f.text_of_exponent h]

section Reading

theorem readMantissa?_mantissa :
    readMantissa? f.mantissa = some ⟨f.decimal.coefficient, -f.places.length⟩ := by
  have hn := f.toNat?_digits
  rcases f.mantissa_cases with ⟨hm, hp⟩ | hm
  · rw [hp, List.append_nil] at hn
    rw [hm, hp]
    exact Text.readMantissa?_of_digits f.whole.isDigit hn
  · rw [hm]
    exact Text.readMantissa?_of_point f.whole.isDigit f.isDigit_of_mem_places hn rfl

theorem readDecimal?_magnitude : readDecimal? f.magnitude = some f.decimal := by
  have hd : f.decimal = ⟨f.decimal.coefficient, -f.places.length + f.power⟩ := by
    rw [neg_add_eq_sub]
    rfl
  rw [hd, magnitude, power]
  cases f.exponent with
  | none =>
    rw [Text.readDecimal?_of_mantissa f.forall_mem_mantissa, readMantissa?_mantissa, add_zero]
  | some e =>
    exact Text.readDecimal?_append f.forall_mem_mantissa f.readMantissa?_mantissa
      e.2.toNat?_text e.1

theorem readSign_text : readSign f.text = (f.negative, f.magnitude) := by
  refine Text.readSign_signed fun c hc ↦ ?_
  have hm : f.magnitude.head? = f.mantissa.head? := by
    rw [magnitude]
    cases f.exponent with
    | none => rfl
    | some e => exact List.head?_append_of_ne_nil _ f.mantissa_ne_nil
  rw [hm] at hc
  exact (isNumberChar_of_mantissa c (f.forall_mem_mantissa c (List.mem_of_mem_head? hc))).2.1

/-- Both numbers are what a reader makes of the text. -/
theorem value_eq_of_text_eq {f g : Form} (h : f.text = g.text) : f.value = g.value := by
  have hf := f.readSign_text
  rw [h, g.readSign_text, Prod.mk.injEq] at hf
  have hd := f.readDecimal?_magnitude
  rw [← hf.2, g.readDecimal?_magnitude, Option.some.injEq] at hd
  rw [value, value, hf.1, hd]

theorem denotes_iff {q : ℚ} : Denotes f.text q ↔ q = f.value := by
  constructor
  · rintro ⟨g, hg, rfl⟩
    exact value_eq_of_text_eq hg
  · rintro rfl
    exact ⟨f, rfl, rfl⟩

end Reading

section Relaxing

theorem split?_text {negative : Bool} {ds : Digits} (h : f.exponent = some (negative, ds)) :
    split? f.text = some ⟨f.negative, signed f.negative f.mantissa, f.power⟩ := by
  have hm : ∀ c ∈ signed f.negative f.mantissa, (c != 'e') = true := fun c hc ↦ bne_iff_ne.2 <| by
    rintro rfl
    exact f.not_mem_mantissa _ hc
  have hs : ((signed f.negative f.mantissa).head? == some '-') = f.negative :=
    head?_signed _ fun c hc ↦ (isNumberChar_of_mantissa c
      (f.forall_mem_mantissa c (List.mem_of_mem_head? hc))).2.1.1
  rw [f.text_of_exponent h, split?_append hm ds.toNat?_text, hs, power, h]

theorem decimal_split :
    (⟨f.negative, signed f.negative f.mantissa, f.power⟩ : Scientific).decimal = f.decimal := by
  have hn := f.toNat?_digits
  rcases f.mantissa_cases with ⟨hm, hp⟩ | hm
  · rw [hp, List.append_nil] at hn
    rw [hm, decimal_of_digits _ f.whole.isDigit, hn, Option.getD_some, decimal, hp]
    simp
  · rw [hm, decimal_of_point _ f.whole.isDigit f.isDigit_of_mem_places, hn]
    rfl

theorem exists_positional_of_neg {d : Decimal} (he : d.exponent < 0) :
    ∃ whole fraction : Digits, d.positional = whole.text ++ '.' :: fraction.text ∧
      toNat? (whole.text ++ fraction.text) = some d.coefficient ∧
      -fraction.text.length = d.exponent := by
  have hplaces : ((-d.exponent).toNat : ℤ) = -d.exponent := by omega
  rw [Decimal.positional, if_neg (by omega)]
  generalize (-d.exponent).toNat = places at hplaces
  dsimp only
  have hn : toNat? (Text.zeros (places + 1 - d.digits.length) ++ d.digits) = some d.coefficient :=
    Text.toNat?_zeros_append _ _
  have hl : places < (Text.zeros (places + 1 - d.digits.length) ++ d.digits).length := by
    rw [List.length_append, Text.zeros, List.length_replicate]
    omega
  have hd : ∀ c ∈ Text.zeros (places + 1 - d.digits.length) ++ d.digits, c.isDigit = true :=
    List.forall_mem_append.2 ⟨fun _ ↦ Text.isDigit_of_mem_zeros, fun _ ↦ Decimal.mem_digits⟩
  generalize Text.zeros (places + 1 - d.digits.length) ++ d.digits = padded at hn hl hd
  refine ⟨⟨padded.take (padded.length - places), ?_, fun c hc ↦ hd c (List.mem_of_mem_take hc)⟩,
    ⟨padded.drop (padded.length - places), ?_, fun c hc ↦ hd c (List.mem_of_mem_drop hc)⟩,
    rfl, ?_, ?_⟩
  · refine List.ne_nil_of_length_pos ?_
    rw [List.length_take]
    omega
  · refine List.ne_nil_of_length_pos ?_
    rw [List.length_drop]
    omega
  · rwa [List.take_append_drop]
  · rw [List.length_drop]
    omega

theorem exists_positional (b : Bool) (d : Decimal) :
    ∃ g : Form, g.negative = b ∧ g.exponent = none ∧ g.text = signed b d.positional ∧
      g.decimal.value = d.value := by
  by_cases he : 0 ≤ d.exponent
  · refine ⟨⟨b, .ofNat (d.coefficient * 10 ^ d.exponent.toNat), none, none⟩, rfl, rfl, ?_, ?_⟩
    · rw [Decimal.positional, if_pos he]
      rfl
    · have hc := Digits.value_ofNat (d.coefficient * 10 ^ d.exponent.toNat)
      rw [Digits.value] at hc
      rw [Decimal.value_eq_natCast he, Decimal.value]
      simp [decimal, places, power, hc]
  · obtain ⟨whole, fraction, hp, hn, hl⟩ := exists_positional_of_neg (not_le.1 he)
    let g : Form := ⟨b, whole, some fraction, none⟩
    have hc : g.decimal.coefficient = d.coefficient :=
      Option.some.inj (g.toNat?_digits.symm.trans hn)
    have hx : g.decimal.exponent = d.exponent := by
      rw [← hl]
      exact zero_sub _
    refine ⟨g, rfl, rfl, ?_, ?_⟩
    · rw [hp]
      rfl
    · rw [Decimal.value, Decimal.value, hc, hx]

def unpadded (f : Form) : Form :=
  { f with exponent := some (decide (f.power < 0), .ofNat f.power.natAbs) }

theorem power_unpadded : f.unpadded.power = f.power := by
  rw [unpadded, power]
  simp only [Digits.value_ofNat, decide_eq_true_eq]
  split <;> omega

theorem value_unpadded : f.unpadded.value = f.value := by
  have hd : f.unpadded.decimal = f.decimal := by
    rw [decimal, decimal, power_unpadded]
    rfl
  rw [value, value, hd]
  rfl

theorem text_unpadded :
    f.unpadded.text = signed f.negative f.mantissa ++
      'e' :: Text.exponentSign f.power :: Text.ofNat f.power.natAbs := by
  rw [f.unpadded.text_of_exponent rfl, Text.exponentSign_eq]
  rfl

/-- Relaxing a numeral gives one of the same number, whose exponent is dropped or unpadded. -/
theorem exists_relax :
    ∃ g : Form, g.text = relax f.text ∧ g.value = f.value ∧
      (g.exponent = none ↔ f.exponent = none ∨ -6 ≤ f.power ∧ f.power ≤ 20) ∧
      (g.exponent ≠ none → g = f.unpadded) := by
  cases h : f.exponent with
  | none =>
    have he : 'e' ∉ f.text := fun hm ↦ f.mem_text_iff.1 hm h
    exact ⟨f, (relax_of_not_mem he).symm, rfl, by simp [h], fun hn ↦ absurd h hn⟩
  | some e =>
    rw [relax, f.split?_text h]
    dsimp only
    rw [decimal_split]
    by_cases hp : -7 < f.power ∧ f.power < 21
    · obtain ⟨g, hb, hn, ht, hv⟩ := exists_positional f.negative f.decimal
      refine ⟨g, ?_, ?_, ?_, fun hg ↦ absurd hn hg⟩
      · rw [ht, if_pos (by simpa using hp)]
      · rw [value, value, hb, hv]
      · simp only [hn, true_iff]
        omega
    · refine ⟨f.unpadded, ?_, f.value_unpadded, ?_, fun _ ↦ rfl⟩
      · rw [f.text_unpadded, if_neg (by simpa using hp)]
      · simp only [unpadded, reduceCtorEq, false_or, false_iff]
        omega

end Relaxing

end Form

section General

/-- The shape of general numerals: digits around a point, or one digit in front of the point and
two or more in the exponent. -/
structure Form.IsGeneral (f : Form) : Prop where
  pointed : f.exponent = none → f.fraction ≠ none
  scientific : ∀ e ∈ f.exponent, f.whole.text.length = 1 ∧ 2 ≤ e.2.text.length

theorem isGeneral_of_point (b : Bool) (whole fraction : Digits) :
    Form.IsGeneral ⟨b, whole, some fraction, none⟩ :=
  ⟨fun _ ↦ Option.some_ne_none _, fun _ h ↦ absurd h (Option.not_mem_none _)⟩

theorem exists_isGeneral_pointed (b : Bool) (d : Decimal) :
    ∃ f : Form, f.IsGeneral ∧ f.text = signed b d.pointed := by
  have hz : ∀ k, ∀ c ∈ Text.zeros k, c.isDigit = true := fun k _ ↦ Text.isDigit_of_mem_zeros
  have hd : ∀ c ∈ d.digits, c.isDigit = true := fun _ ↦ Decimal.mem_digits
  have hl := d.length_digits_pos
  rw [Decimal.pointed]
  split_ifs with h₀ h
  · exact ⟨_, isGeneral_of_point b (.ofNat 0) ⟨Text.zeros (-d.pointPlace).toNat ++ d.digits,
      List.append_ne_nil_of_right_ne_nil _ (List.ne_nil_of_length_pos hl),
      List.forall_mem_append.2 ⟨hz _, hd⟩⟩, rfl⟩
  · have ht : 0 < (d.digits.take d.pointPlace.toNat).length := by
      rw [List.length_take]
      omega
    have hr : 0 < (d.digits.drop d.pointPlace.toNat).length := by
      rw [List.length_drop]
      omega
    exact ⟨_, isGeneral_of_point b
      ⟨_, List.ne_nil_of_length_pos ht, fun c hc ↦ hd c (List.mem_of_mem_take hc)⟩
      ⟨_, List.ne_nil_of_length_pos hr, fun c hc ↦ hd c (List.mem_of_mem_drop hc)⟩, rfl⟩
  · exact ⟨_, isGeneral_of_point b ⟨d.digits ++ Text.zeros d.exponent.toNat,
      List.append_ne_nil_of_left_ne_nil (List.ne_nil_of_length_pos hl) _,
      List.forall_mem_append.2 ⟨hd, hz _⟩⟩ (.ofNat 0), rfl⟩

theorem exists_isGeneral_scientific (b : Bool) (d : Decimal) :
    ∃ f : Form, f.IsGeneral ∧ f.text = signed b d.scientific := by
  have hd : ∀ c ∈ d.digits, c.isDigit = true := fun _ ↦ Decimal.mem_digits
  obtain ⟨whole, fraction, hw, hm⟩ : ∃ (whole : Digits) (fraction : Option Digits),
      whole.text.length = 1 ∧ ∀ e, Form.mantissa ⟨b, whole, fraction, e⟩ = d.mantissa := by
    rcases d.mantissa_eq_digits_or with ⟨hm, hl⟩ | ⟨c, cs, hs, hm⟩
    · exact ⟨⟨d.digits, List.ne_nil_of_length_eq_add_one hl, hd⟩, none, hl, fun _ ↦ hm.symm⟩
    · have hcs : cs ≠ [] := by
        rintro rfl
        rw [Decimal.mantissa, hs] at hm
        cases hm
      rw [hs, List.forall_mem_cons] at hd
      exact ⟨⟨[c], List.cons_ne_nil _ _, by simpa using hd.1⟩, some ⟨cs, hcs, hd.2⟩, rfl,
        fun _ ↦ hm.symm⟩
  refine ⟨⟨b, whole, fraction,
    some (decide (d.pointPlace - 1 < 0), .padded (d.pointPlace - 1).natAbs)⟩,
    ⟨fun h ↦ absurd h (Option.some_ne_none _), ?_⟩, ?_⟩
  · rintro e ⟨⟩
    exact ⟨hw, Digits.two_le_length_padded _⟩
  · rw [Form.text_of_exponent _ rfl, hm, Decimal.scientific_eq, Double.signed_append,
      Text.exponentSign_eq]
    rfl

theorem exists_isGeneral (b : Bool) (exponent : Fin 2047) (fraction : Fin fractionCount) :
    ∃ f : Form, f.IsGeneral ∧ f.text = (Double.finite b exponent fraction).general := by
  rw [Double.general]
  split
  · exact ⟨_, isGeneral_of_point b (.ofNat 0) (.ofNat 0), rfl⟩
  · rw [Decimal.general]
    split
    · exact exists_isGeneral_pointed b _
    · exact exists_isGeneral_scientific b _

end General

/-- The numerals of finite numbers have the shape of general numerals. Any numeral and its relaxed
form denote one and the same number. The relaxed form has an exponent only if the numeral has one
that is less than -6 or greater than 20; then the mantissa stays, and the exponent is written behind
its sign without zeros in front. -/
theorem relax_keeps_number :
    (∀ b exponent fraction, ∃ f : Form,
      f.IsGeneral ∧ f.text = (Double.finite b exponent fraction).general) ∧
    ∀ f : Form,
      (∃ q, ∀ r, (Denotes f.text r ↔ r = q) ∧ (Denotes (relax f.text) r ↔ r = q)) ∧
      ('e' ∉ relax f.text ↔ 'e' ∉ f.text ∨ -6 ≤ f.power ∧ f.power ≤ 20) ∧
      ('e' ∈ relax f.text → ∃ ds : Digits,
        relax f.text = signed f.negative f.mantissa ++
          'e' :: (if f.power < 0 then '-' else '+') :: ds.text ∧
        ds.value = f.power.natAbs ∧ ds.text.head? ≠ some '0') := by
  refine ⟨exists_isGeneral, fun f ↦ ?_⟩
  obtain ⟨g, hg, hv, he, hu⟩ := f.exists_relax
  have hmem : 'e' ∉ relax f.text ↔ f.exponent = none ∨ -6 ≤ f.power ∧ f.power ≤ 20 := by
    rw [← hg, g.mem_text_iff, not_not, he]
  refine ⟨⟨f.value, fun r ↦ ⟨f.denotes_iff, ?_⟩⟩, ?_, fun hm ↦ ?_⟩
  · rw [← hg, g.denotes_iff, hv]
  · rw [hmem, f.mem_text_iff, not_not]
  · have hr := not_or.1 (mt hmem.2 (not_not.2 hm))
    rw [← hg, g.mem_text_iff] at hm
    refine ⟨.ofNat f.power.natAbs, ?_, Digits.value_ofNat _, Text.head?_ofNat_ne (by omega)⟩
    rw [← hg, hu hm, f.text_unpadded]
    rfl

example : relax "-2.5e+05" = "-250000" ∧ relax "1.50e-07" = "1.50e-7" := by decide

end Numeral

end TreeMarkup
