namespace TreeMarkup

abbrev Text := List Char

instance : Coe String Text := ⟨String.toList⟩

namespace Text

/-- Everything up to the first separator, then between any two, then after the last one. -/
def splitOn (separator : Char) : Text → List Text
  | [] => [[]]
  | c :: cs =>
    if c = separator then [] :: splitOn separator cs
    else match splitOn separator cs with
      | [] => [[c]]
      | piece :: pieces => (c :: piece) :: pieces

def endsWith (pattern t : Text) : Bool := pattern.isSuffixOf t

/-- The text before the first occurrence of `pattern` and the text after it. -/
def cut? (pattern : Text) : Text → Option (Text × Text)
  | [] => if pattern.isEmpty then some ([], []) else none
  | c :: cs =>
    if pattern.isPrefixOf (c :: cs) then some ([], (c :: cs).drop pattern.length)
    else (cut? pattern cs).map fun (before, after) ↦ (c :: before, after)

def lowerAscii (t : Text) : Text := t.map Char.toLower

def ofNat (n : Nat) : Text := Nat.toDigits 10 n

def ofInt (n : Int) : Text :=
  if n < 0 then '-' :: ofNat n.natAbs else ofNat n.natAbs

/-- The value of a run of decimal digits; `none` if there is any other character, or none at all. -/
def toNat? (t : Text) : Option Nat :=
  if !t.isEmpty && t.all Char.isDigit then
    some (t.foldl (fun n c ↦ 10 * n + (c.toNat - '0'.toNat)) 0)
  else none

def utf8Length (t : Text) : Nat := t.foldl (fun n c ↦ n + c.utf8Size) 0

def ofUtf8? (content : List UInt8) : Option Text :=
  (ByteArray.mk content.toArray).utf8Decode?.map Array.toList

/-- Half of a surrogate pair is no character, but a document may hold one by itself. The last
characters for private use stand for them. -/
def isHalf (c : Char) : Bool := 0x10F800 ≤ c.toNat

/-- The character with a number of sixteen bits, or what stands for half of a pair. -/
def ofCodeUnit (n : Nat) : Char :=
  if 0xD800 ≤ n && n ≤ 0xDFFF then Char.ofNat (0x10F800 + (n - 0xD800)) else Char.ofNat n

def zeros (n : Nat) : Text := List.replicate n '0'

theorem isHalf_ascii (c : Char) (hc : c.toNat < 128) : isHalf c = false := by
  rw [isHalf, decide_eq_false_iff_not]
  omega

theorem splitOn_ne_nil (separator : Char) (t : Text) : splitOn separator t ≠ [] := by
  cases t with
  | nil => simp [splitOn]
  | cons c cs =>
    rw [splitOn]
    split
    · simp
    · split <;> simp

end Text

/-- The white space and line separators of Unicode, with the four information separators of ASCII. -/
def blankRanges : List (Nat × Nat) :=
  [(0x09, 0x0D), (0x1C, 0x20), (0x85, 0x85), (0xA0, 0xA0), (0x1680, 0x1680), (0x2000, 0x200A),
    (0x2028, 0x2029), (0x202F, 0x202F), (0x205F, 0x205F), (0x3000, 0x3000)]

def isBlank (c : Char) : Bool :=
  blankRanges.any fun (first, last) ↦ first ≤ c.toNat && c.toNat ≤ last

theorem isBlank_of_printable {c : Char} (h₁ : 32 < c.toNat) (h₂ : c.toNat < 127) :
    isBlank c = false := by
  refine List.any_eq_false.2 fun r hr ↦ ?_
  have hr : r.2 < 33 ∨ 126 < r.1 := by
    revert r
    decide
  simp only [Bool.and_eq_true, decide_eq_true_eq]
  omega

namespace Text

def stripStart (t : Text) : Text := t.dropWhile isBlank

def stripEnd (t : Text) : Text := (t.reverse.dropWhile isBlank).reverse

def strip (t : Text) : Text := stripEnd (stripStart t)

def word (t : Text) : Text := t.takeWhile fun c ↦ !isBlank c

def afterWord (t : Text) : Text := t.dropWhile fun c ↦ !isBlank c

theorem takeWhile_append {p : Char → Bool} {t r : Text} (ht : ∀ c ∈ t, p c = true)
    (hr : ∀ c ∈ r.head?, p c = false) : (t ++ r).takeWhile p = t := by
  rw [List.takeWhile_append_of_pos ht]
  cases r with
  | nil => simp
  | cons c r => simp [hr c rfl]

theorem dropWhile_append {p : Char → Bool} {t r : Text} (ht : ∀ c ∈ t, p c = true)
    (hr : ∀ c ∈ r.head?, p c = false) : (t ++ r).dropWhile p = r := by
  rw [List.dropWhile_append_of_pos ht]
  cases r with
  | nil => simp
  | cons c r => simp [hr c rfl]

theorem length_dropWhile_le (p : Char → Bool) (t : Text) : (t.dropWhile p).length ≤ t.length :=
  (List.dropWhile_sublist p).length_le

theorem length_afterWord_lt {t rest : Text} {c : Char} (h : stripStart t = c :: rest) :
    (afterWord (c :: rest)).length < t.length := by
  have hc : isBlank c = false := by
    have := List.head?_dropWhile_not isBlank t
    rw [show t.dropWhile isBlank = c :: rest from h] at this
    simpa using this
  have h₁ : afterWord (c :: rest) = afterWord rest := by simp [afterWord, hc]
  have h₂ := length_dropWhile_le (fun c ↦ !isBlank c) rest
  have h₃ := length_dropWhile_le isBlank t
  rw [show t.dropWhile isBlank = c :: rest from h, List.length_cons] at h₃
  rw [h₁]
  simp only [afterWord] at h₂ ⊢
  omega

def words (t : Text) : List Text :=
  match _h : stripStart t with
  | [] => []
  | c :: rest => word (c :: rest) :: words (afterWord (c :: rest))
termination_by t.length
decreasing_by exact length_afterWord_lt _h

theorem words_nil : words [] = [] := by
  rw [words]
  rfl

theorem words_cons_of_isBlank {c : Char} (h : isBlank c = true) (t : Text) :
    words (c :: t) = words t := by
  have hs : stripStart (c :: t) = stripStart t := List.dropWhile_cons_of_pos h
  rw [words, words, hs]

theorem words_append {w t : Text} (hn : w ≠ []) (hw : ∀ c ∈ w, isBlank c = false)
    (ht : ∀ c ∈ t.head?, isBlank c = true) : words (w ++ t) = w :: words t := by
  obtain ⟨c, w, rfl⟩ := List.exists_cons_of_ne_nil hn
  have hs : stripStart (c :: w ++ t) = c :: (w ++ t) :=
    List.dropWhile_cons_of_neg (by rw [hw c List.mem_cons_self]; exact Bool.false_ne_true)
  have hp : ∀ d ∈ c :: w, (!isBlank d) = true := fun d hd ↦ by rw [hw d hd]; rfl
  have hr : ∀ d ∈ t.head?, (!isBlank d) = false := fun d hd ↦ by rw [ht d hd]; rfl
  have h₁ : word (c :: (w ++ t)) = c :: w := takeWhile_append hp hr
  have h₂ : afterWord (c :: (w ++ t)) = t := dropWhile_append hp hr
  rw [words, hs]
  dsimp only
  rw [h₁, h₂]

end Text

def isLineEnd (c : Char) : Bool :=
  (0x0A ≤ c.toNat && c.toNat ≤ 0x0D) || (0x1C ≤ c.toNat && c.toNat ≤ 0x1E) || c = '\u0085' ||
    c = '\u2028' || c = '\u2029'

namespace Text

/-- The lines of a text without their ends. Nothing starts after the last end. -/
def lines : Text → List Text
  | [] => []
  | '\r' :: '\n' :: t => [] :: lines t
  | c :: t =>
    if isLineEnd c then [] :: lines t
    else match lines t with
      | [] => [[c]]
      | line :: others => (c :: line) :: others

end Text

end TreeMarkup
