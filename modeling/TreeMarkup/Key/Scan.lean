import TreeMarkup.Markup.Escape
import TreeMarkup.Text.Basic

namespace TreeMarkup

/-- A bare attribute has no value. -/
structure Attribute where
  name : Text
  value : Option Text
  deriving DecidableEq, Repr

namespace Attribute

def write (a : Attribute) : Text :=
  match a.value with
  | none => ' ' :: a.name
  | some value => ' ' :: a.name ++ "=\"" ++ Markup.escapeAttribute value ++ "\""

def writeAll (attributes : List Attribute) : Text := attributes.flatMap write

def isNameChar (c : Char) : Bool := c.isAlpha || c = '-'

def isQuote (c : Char) : Bool := c = '"' || c = '\''

theorem toNat_of_isNameChar {c : Char} (h : isNameChar c = true) :
    c.toNat = 45 ∨ (65 ≤ c.toNat ∧ c.toNat ≤ 90) ∨ (97 ≤ c.toNat ∧ c.toNat ≤ 122) := by
  change (decide (c.val ≥ 'A'.val ∧ c.val ≤ 'Z'.val) ||
    (decide (c.val ≥ 'a'.val) && decide (c.val ≤ 'z'.val)) || decide (c = '-')) = true at h
  simp only [Bool.or_eq_true, Bool.and_eq_true, decide_eq_true_eq, UInt32.le_iff_toNat_le,
    ge_iff_le] at h
  rcases h with (h | h) | rfl
  · exact .inr (.inl h)
  · exact .inr (.inr h)
  · exact .inl rfl

theorem isBlank_of_isNameChar {c : Char} (h : isNameChar c = true) : isBlank c = false := by
  have hc := toNat_of_isNameChar h
  exact isBlank_of_printable (by omega) (by omega)

theorem isQuote_of_isBlank {c : Char} (h : isBlank c = true) : isQuote c = false := by
  cases hq : isQuote c with
  | false => rfl
  | true =>
    simp only [isQuote, Bool.or_eq_true, decide_eq_true_eq] at hq
    rcases hq with rfl | rfl <;> exact absurd h (by decide)

def readQuoted (quote : Char) : Text → Text × Text
  | [] => ([], [])
  | c :: cs =>
    if c = quote then ([], cs)
    else
      let (value, rest) := readQuoted quote cs
      (c :: value, rest)

/-- The run up to the next blank. A colon that is the last character of all closes the declaration
and is left over. -/
def readUnquoted : Text → Text × Text
  | [] => ([], [])
  | [c] => if isBlank c || c = ':' then ([], [c]) else ([c], [])
  | c :: cs =>
    if isBlank c then ([], c :: cs)
    else
      let (value, rest) := readUnquoted cs
      (c :: value, rest)

def readValue : Text → Text × Text
  | [] => ([], [])
  | c :: cs => if isQuote c then readQuoted c cs else readUnquoted (c :: cs)

def readAssignment : Text → Option Text × Text
  | '=' :: cs =>
    let (value, rest) := readValue cs
    (some value, rest)
  | cs => (none, cs)

theorem length_readQuoted_le (quote : Char) (t : Text) :
    (readQuoted quote t).2.length ≤ t.length := by
  induction t with
  | nil => simp [readQuoted]
  | cons c cs ih =>
    simp only [readQuoted]
    split
    · simp
    · simpa using Nat.le_succ_of_le ih

theorem length_readUnquoted_le (t : Text) : (readUnquoted t).2.length ≤ t.length := by
  induction t with
  | nil => simp [readUnquoted]
  | cons c cs ih =>
    cases cs with
    | nil =>
      simp only [readUnquoted]
      split <;> simp
    | cons d ds =>
      simp only [readUnquoted]
      split
      · simp
      · simpa using Nat.le_succ_of_le ih

theorem length_readValue_le (t : Text) : (readValue t).2.length ≤ t.length := by
  cases t with
  | nil => simp [readValue]
  | cons c cs =>
    simp only [readValue]
    split
    · exact Nat.le_succ_of_le (length_readQuoted_le c cs)
    · exact length_readUnquoted_le _

theorem length_readAssignment_le (t : Text) : (readAssignment t).2.length ≤ t.length := by
  unfold readAssignment
  split
  · exact Nat.le_succ_of_le (length_readValue_le _)
  · exact Nat.le_refl _

def next? (t : Text) : Option (Attribute × Text) :=
  let start := Text.stripStart t
  match start.takeWhile isNameChar with
  | [] => none
  | c :: cs =>
    let (value, rest) := readAssignment (start.dropWhile isNameChar)
    some (⟨c :: cs, value⟩, rest)

theorem length_lt_of_next? {t rest : Text} {a : Attribute} (h : next? t = some (a, rest)) :
    rest.length < t.length := by
  simp only [next?] at h
  split at h
  · simp at h
  · rename_i c cs hname
    simp only [Option.some.injEq, Prod.mk.injEq] at h
    have h₁ := length_readAssignment_le ((Text.stripStart t).dropWhile isNameChar)
    rw [h.2] at h₁
    have h₂ : (Text.stripStart t).length ≤ t.length := Text.length_dropWhile_le _ t
    have h₃ := congrArg List.length
      (List.takeWhile_append_dropWhile (p := isNameChar) (l := Text.stripStart t))
    rw [hname, List.length_append, List.length_cons] at h₃
    omega

def scan (t : Text) : List Attribute :=
  match _h : next? t with
  | none => []
  | some (a, rest) => a :: scan rest
termination_by t.length
decreasing_by exact length_lt_of_next? _h

end Attribute

end TreeMarkup
