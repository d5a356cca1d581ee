import TreeMarkup.Key.Scan
import TreeMarkup.Markup.Entity
import TreeMarkup.Markup.Escape
import TreeMarkup.Text.Basic
import TreeMarkup.Text.LowerCase

namespace TreeMarkup.Markup

inductive Aside
  | comment
  | instruction
  | section
  | declaration
  | doctype
  deriving DecidableEq, Repr

inductive Token
  | text (t : Text)
  | opening (tag : Text) (attributes : List Attribute) (closed : Bool)
  | closing (tag : Text)
  | aside (kind : Aside) (t : Text)
  deriving DecidableEq, Repr

namespace Token

inductive Spot
  | outside
  | value
  | bare
  | quoted (quote : Char)

/-- A quote counts as one only where a value begins. -/
def Spot.next : Spot → Char → Spot
  | outside, c => if c = '=' then value else outside
  | value, c =>
    if Attribute.isQuote c then quoted c else if isBlank c || c = '=' then value else bare
  | bare, c => if isBlank c then outside else bare
  | quoted q, c => if c = q then outside else quoted q

def Spot.isQuoted : Spot → Bool
  | quoted _ => true
  | _ => false

def body? (spot : Spot) : Text → Option (Text × Nat)
  | [] => none
  | c :: cs =>
    if c = '>' && !spot.isQuoted then some ([], 1)
    else (body? (spot.next c) cs).map fun (t, n) ↦ (c :: t, n + 1)

def isGap (c : Char) : Bool := isBlank c || c = '/'

def isNameEnd (c : Char) : Bool := isGap c || c = '='

def assigned? (t : Text) : Option Text :=
  match Text.stripStart t with
  | '=' :: r => some (Text.stripStart (r.dropWhile (· = '=')))
  | _ => none

def value (t : Text) : Option Text × Text :=
  match assigned? t with
  | none => (none, t)
  | some [] => (some [], [])
  | some (c :: cs) =>
    if Attribute.isQuote c then
      let (v, rest) := Attribute.readQuoted c cs
      (some (decodeValue v), rest)
    else (some (decodeValue (Text.word (c :: cs))), Text.afterWord (c :: cs))

theorem length_assigned?_le {t r : Text} (h : assigned? t = some r) : r.length ≤ t.length := by
  simp only [assigned?] at h
  split at h
  · rename_i r' hr
    have h₁ := Text.length_dropWhile_le isBlank t
    rw [show t.dropWhile isBlank = '=' :: r' from hr, List.length_cons] at h₁
    have h₂ := Text.length_dropWhile_le isBlank (r'.dropWhile (· = '='))
    have h₃ := Text.length_dropWhile_le (· = '=') r'
    simp only [Option.some.injEq] at h
    subst h
    simp only [Text.stripStart]
    omega
  · simp at h

theorem length_value_le (t : Text) : (value t).2.length ≤ t.length := by
  unfold value
  split
  · exact Nat.le_refl _
  · exact Nat.zero_le _
  · rename_i c cs h
    have h₁ := length_assigned?_le h
    split
    · have h₂ := Attribute.length_readQuoted_le c cs
      simp only [List.length_cons] at h₁
      show (Attribute.readQuoted c cs).2.length ≤ t.length
      omega
    · exact Nat.le_trans (Text.length_dropWhile_le _ _) h₁

/-- The attributes in what follows the name of a tag, and whether a slash closes the element. -/
def attributes (t : Text) : List Attribute × Bool :=
  match _h : t.dropWhile isGap with
  | [] => ([], t.getLast? = some '/')
  | c :: cs =>
    let name := c :: cs.takeWhile fun d ↦ !isNameEnd d
    let rest := cs.dropWhile fun d ↦ !isNameEnd d
    let (others, closed) := attributes (value rest).2
    (⟨Text.lower name, (value rest).1⟩ :: others, closed)
termination_by t.length
decreasing_by
  have h₁ := Text.length_dropWhile_le isGap t
  rw [_h, List.length_cons] at h₁
  have h₂ := Text.length_dropWhile_le (fun d ↦ !isNameEnd d) cs
  have h₃ := length_value_le (cs.dropWhile fun d ↦ !isNameEnd d)
  omega

def isTagBlank (c : Char) : Bool := "\t\n\x0c\r ".contains c

def isTagNameEnd (c : Char) : Bool := isTagBlank c || c = '/' || c = '>' || c = '\x00'

/-- A tag without an end is text up to the next greater-than sign; if there is none, up to the next
less-than sign; and if there is neither, its first character is. -/
def broken (t : Text) : Token × Nat :=
  match Text.cut? ['>'] t with
  | some (inner, _) => (text ('<' :: inner ++ ['>']), inner.length + 1)
  | none =>
    if t.contains '<' then
      let run := t.takeWhile (· != '<')
      (text ('<' :: run), run.length)
    else (text ['<'], 0)

def readOpening? (t : Text) : Option (Token × Nat) :=
  let name := t.takeWhile fun c ↦ !isTagNameEnd c
  let rest := t.drop name.length
  if rest.head? = some '\x00' then some (text ('<' :: name), name.length)
  else (body? .outside rest).map fun (inner, n) ↦
    let (as, closed) := attributes inner
    (opening (Text.lower name) as closed, name.length + n)

/-- What stands before an ending, and the number of characters up to and with the ending. The length
of an ending that a text starts with is given by `ending`. -/
def cutAt? (ending : Text → Option Nat) : Text → Option (Text × Nat)
  | [] => none
  | c :: t =>
    match ending (c :: t) with
    | some n => some ([], n)
    | none => (cutAt? ending t).map fun (inner, n) ↦ (c :: inner, n + 1)

def pastBlanks? (c : Char) (t : Text) : Option Nat :=
  match Text.stripStart t with
  | [] => none
  | d :: rest => if d = c then some (t.length - rest.length) else none

def commentEnding : Text → Option Nat
  | '-' :: '-' :: t => (pastBlanks? '>' t).map (· + 2)
  | _ => none

def conditionEnding : Text → Option Nat
  | ']' :: t => (pastBlanks? '>' t).map (· + 1)
  | _ => none

def sectionEnding : Text → Option Nat
  | ']' :: t => do
    let n ← pastBlanks? ']' t
    let m ← pastBlanks? '>' (t.drop n)
    return n + m + 1
  | _ => none

def tagEnding : Text → Option Nat
  | '>' :: _ => some 1
  | _ => none

def readAside? (kind : Aside) (ending : Text → Option Nat) (skip : Nat) (t : Text) :
    Option (Token × Nat) :=
  (cutAt? ending (t.drop skip)).map fun (inner, n) ↦ (aside kind inner, skip + n)

def readBareClosing? (t : Text) : Option (Token × Nat) :=
  let start := Text.stripStart (t.drop 1)
  let name := start.takeWhile fun c ↦ c.isAlphanum || "-.:_".contains c
  if name.head?.any Char.isAlpha then
    (pastBlanks? '>' (start.drop name.length)).map fun n ↦
      (closing (Text.lower name), t.length - start.length + name.length + n)
  else none

/-- A closing tag, read behind the less-than sign. What has no name is a comment, and without any
character nothing at all. -/
def readClosing? (t : Text) : Option (Token × Nat) :=
  match readBareClosing? t with
  | some found => some found
  | none =>
    match t.drop 1 with
    | '>' :: _ => some (text [], 2)
    | c :: cs =>
      if c.isAlpha then
        (cutAt? tagEnding (c :: cs)).map fun (_, n) ↦
          (closing (Text.lower ((c :: cs).takeWhile fun d ↦ !isTagNameEnd d)), n + 1)
      else readAside? .comment tagEnding 1 t
    | [] => none

def readSection? (t : Text) : Option (Token × Nat) :=
  let inner := t.drop 2
  let name := inner.takeWhile fun c ↦ c.isAlphanum || "-_.".contains c
  let found := if ["if", "else", "endif"].contains (String.ofList (Text.lowerAscii name)) then
      cutAt? conditionEnding inner
    else cutAt? sectionEnding inner
  found.map fun (content, n) ↦
    if ("cdata[" : Text).isPrefixOf (Text.lowerAscii content) then
      (aside .section (content.drop 6), n + 2)
    else (aside .declaration content, n + 2)

def readDeclaration? (t : Text) : Option (Token × Nat) :=
  if ("!--" : Text).isPrefixOf t then readAside? .comment commentEnding 3 t
  else if ("![" : Text).isPrefixOf t then readSection? t
  else if ("!doctype" : Text).isPrefixOf (Text.lowerAscii t) then
    (cutAt? tagEnding (t.drop 8)).map fun (inner, n) ↦ (aside .doctype (inner.drop 1), n + 8)
  else readAside? .comment tagEnding 1 t

/-- The token behind a less-than sign, which may turn out to be text; none if it has no end. -/
def readTag? (t : Text) : Option (Token × Nat) :=
  match t with
  | '/' :: _ => readClosing? t
  | '!' :: _ => readDeclaration? t
  | '?' :: _ => readAside? .instruction tagEnding 1 t
  | c :: _ => if c.isAlpha then readOpening? t else some (text ['<'], 0)
  | [] => some (text ['<'], 0)

def startsClosing (tag : Text) : Text → Bool
  | '<' :: '/' :: t =>
    let start := Text.stripStart t
    tag.isPrefixOf (Text.lowerAscii start) && (pastBlanks? '>' (start.drop tag.length)).isSome
  | _ => false

/-- The text of an element in which only its own closing tag is read as a tag; none if there is no
such tag. -/
def rawRun? (tag : Text) : Text → Option Text
  | [] => none
  | c :: cs => if startsClosing tag (c :: cs) then some [] else (rawRun? tag cs).map (c :: ·)

def rawAfter? : Token → Option Text
  | opening tag _ closed => if isRaw tag && !closed then some tag else none
  | _ => none

/-- All tokens of a text; raw text without an end is given up. The first thing that has no end makes
reading cautious, and what looks like the beginning of a number is then the end of all tokens. -/
def readAll (cautious : Bool) (raw : Option Text) : Text → List Token
  | [] => []
  | c :: cs =>
    match raw with
    | some tag =>
      match rawRun? tag (c :: cs) with
      | none => []
      | some [] =>
        let (token, n) := (readTag? cs).getD (broken cs)
        token :: readAll cautious none (cs.drop n)
      | some (d :: ds) => text (d :: ds) :: readAll cautious raw (cs.drop ds.length)
    | none =>
      if c = '<' then
        match readTag? cs with
        | some (token, n) => token :: readAll cautious (rawAfter? token) (cs.drop n)
        | none =>
          let (token, n) := broken cs
          token :: readAll true none (cs.drop n)
      else if c = '&' then
        match Reference.read cs with
        | .characters t n => text t :: readAll cautious none (cs.drop n)
        | .sign => text ['&'] :: readAll cautious none cs
        | .noNumber =>
          if cautious || !cs.contains ';' then [text (c :: cs)]
          else text ['&', '#'] :: readAll true none (cs.drop 1)
        | .unended => [text (if cs.length = 1 then cs else c :: cs)]
      else
        let run := cs.takeWhile fun d ↦ d != '<' && d != '&'
        text (c :: run) :: readAll cautious none (cs.drop run.length)
termination_by t => t.length
decreasing_by all_goals simp only [List.length_cons, List.length_drop]; omega

def ofText (t : Text) : List Token := readAll false none t

end Token

end TreeMarkup.Markup
