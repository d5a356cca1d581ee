import TreeMarkup.Files.Tree
import TreeMarkup.Markup.Escape
import TreeMarkup.Settings.Basic
import TreeMarkup.Text.Basic

namespace TreeMarkup

inductive Layout.Piece
  | literal (t : Text)
  | name (name : Text)
  | field (name field : Text)
  deriving DecidableEq, Repr

inductive Layout.Flaw
  | unclosedComment
  | badReference (inner : Text)
  deriving DecidableEq, Repr

theorem Text.length_lt_of_cut? {pattern t before after : Text} (hp : pattern ≠ [])
    (h : Text.cut? pattern t = some (before, after)) : after.length < t.length := by
  induction t generalizing before with
  | nil =>
    rw [Text.cut?] at h
    split at h
    · rename_i he
      exact absurd (List.isEmpty_iff.1 he) hp
    · simp at h
  | cons c cs ih =>
    rw [Text.cut?] at h
    split at h
    · simp only [Option.some.injEq, Prod.mk.injEq] at h
      have := List.length_pos_iff.2 hp
      rw [← h.2]
      simp only [List.length_drop, List.length_cons]
      omega
    · cases hc : Text.cut? pattern cs with
      | none => simp [hc] at h
      | some found =>
        obtain ⟨before', after'⟩ := found
        simp only [hc, Option.map_some, Option.some.injEq, Prod.mk.injEq] at h
        exact Nat.lt_succ_of_lt (ih (h.2 ▸ hc))

namespace Layout

def unifyLineEnds : Text → Text
  | '\r' :: '\n' :: t => '\n' :: unifyLineEnds t
  | '\r' :: t => '\n' :: unifyLineEnds t
  | c :: t => c :: unifyLineEnds t
  | [] => []

/-- A line feed at the very end does not belong to the layout. -/
def source (t : Text) : Text :=
  let u := unifyLineEnds t
  if u.getLast? = some '\n' then u.dropLast else u

/-- Text in front of a comment, the last character first: blanks between the start of the line and
the comment go with the comment. -/
def beforeComment (lineStart : Bool) (data : Text) : Text :=
  if (data.takeWhile (· != '\n')).all isBlank && (lineStart || data.contains '\n') then
    data.dropWhile (· != '\n')
  else data

def afterComment : Text → Text
  | '\n' :: t => t
  | t => t

theorem length_afterComment_le (t : Text) : (afterComment t).length ≤ t.length := by
  unfold afterComment
  split <;> simp

def reference (inner : Text) : Except Flaw Piece :=
  match (Text.splitOn '.' inner).map Text.strip with
  | [n] => if n.isEmpty then .error (.badReference inner) else .ok (.name n)
  | [n, f] => if n.isEmpty || f.isEmpty then .error (.badReference inner) else .ok (.field n f)
  | _ => .error (.badReference inner)

def literal (data : Text) : List Piece := if data.isEmpty then [] else [.literal data.reverse]

/-- The pieces of a source; `data` is the text read since the last of them, the last character
first, and `lineStart` tells whether a line began with it. -/
def piecesFrom (lineStart : Bool) (data : Text) : Text → Except Flaw (List Piece)
  | [] => .ok (literal data)
  | '\x7b' :: '\x7b' :: t =>
    match _h : Text.cut? ['\x7d', '\x7d'] t with
    | none => .error (.badReference t)
    | some (inner, rest) => do
      let piece ← reference inner
      return literal data ++ piece :: (← piecesFrom false [] rest)
  | '\x7b' :: '#' :: t =>
    match _h : Text.cut? ['#', '\x7d'] t with
    | none => .error .unclosedComment
    | some (_, rest) => do
      let pieces ← piecesFrom (rest.head? = some '\n') [] (afterComment rest)
      return literal (beforeComment lineStart data) ++ pieces
  | c :: t => piecesFrom lineStart (c :: data) t
termination_by t => t.length
decreasing_by
  · have := Text.length_lt_of_cut? (by simp) _h
    simp only [List.length_cons]
    omega
  · have := Text.length_lt_of_cut? (by simp) _h
    have := length_afterComment_le rest
    simp only [List.length_cons]
    omega
  · simp

def pieces (t : Text) : Except Flaw (List Piece) := piecesFrom true [] (source t)

end Layout

inductive LayoutError
  | refusedName (name : Text)
  | notFound (name : Text) (base : Path)
  | flaw (f : Layout.Flaw)
  | undefined (name : Text)
  | noField (owner field : Text)
  deriving DecidableEq, Repr

namespace Layout

def Flaw.message : Flaw → Text
  | unclosedComment => "Missing end of comment tag"
  | badReference inner => "unexpected reference " ++ Text.quoted (Text.strip inner)

inductive Binding
  | markup (t : Text)
  | value (v : Value)
  | page (p : Page)

def ofOption (t : Option Text) : Value := (t.map Value.text).getD .null

def ofFlag (b : Option Bool) : Value := (b.map Value.boolean).getD .null

def pageSettings (p : Page) : List (String × Value) :=
  [("key", .text p.key), ("source", .text p.source), ("output", ofOption p.output),
    ("title", ofOption p.title), ("template", ofOption p.template), ("pretty", ofFlag p.pretty),
    ("allow_multi_key", ofFlag p.allowMultiKey),
    ("context", .map (p.context.map fun (name, v) ↦ (.text name, v)))]

/-- The fields of a page that a layout can refer to: its settings, and where it is written. -/
def pageField? (p : Page) (field : Text) : Option Value :=
  ((("output_path", Value.text p.outputPath) :: pageSettings p).find? fun entry ↦
    entry.1.toList = field).map Prod.snd

def Binding.owner : Binding → Text
  | markup _ => "markupsafe.Markup object"
  | value .null => "None"
  | value v => v.kind.name ++ " object"
  | page _ => "yahtml.models.PageSpec object"

def Binding.field? : Binding → Text → Option Value
  | page p, name => pageField? p name
  | value (.map entries), name => Value.lookup? name entries
  | _, _ => none

def Binding.display : Binding → Text
  | markup t => t
  | value v => v.display
  | page p =>
    List.intercalate [' '] ((pageSettings p).map fun (name, v) ↦ name.toList ++ '=' :: v.literal)

abbrev Bindings := List (Text × Binding)

def Bindings.get? (b : Bindings) (name : Text) : Option Binding :=
  (b.find? fun entry ↦ entry.1 = name).map Prod.snd

def constants : Bindings :=
  [("true", .value (.boolean true)), ("True", .value (.boolean true)),
    ("false", .value (.boolean false)), ("False", .value (.boolean false)),
    ("none", .value .null), ("None", .value .null)]

/-- The names that are handed to the layout of a page. Its own take the place of those of its
context. -/
def handed (context : Context) (p : Page) (markup : Text) : Bindings :=
  let title := match p.title with
    | some (c :: cs) => c :: cs
    | _ => p.key
  let own : Bindings :=
    [("content", .markup markup), ("title", .value (.text title)), ("page", .page p)]
  own ++ (context.filter fun entry ↦ (own.get? entry.1).isNone).map fun entry ↦
    (entry.1, .value entry.2)

/-- Names of layouts that make markup, in any case of letters. -/
def escapes (name : Text) : Bool :=
  Text.endsWith ".html" (Text.lowerAscii name) || Text.endsWith ".jinja" (Text.lowerAscii name)

def shown (escape : Bool) (b : Binding) : Text :=
  match b with
  | .markup t => t
  | b => if escape then Markup.escapeLayout b.display else b.display

def Piece.fill (escape : Bool) (b : Bindings) : Piece → Except LayoutError Text
  | literal t => .ok t
  | name n =>
    match b.get? n with
    | some binding => .ok (shown escape binding)
    | none => .error (.undefined n)
  | field n f =>
    match b.get? n with
    | none => .error (.undefined n)
    | some binding =>
      match binding.field? f with
      | some v => .ok (shown escape (.value v))
      | none => .error (.noField binding.owner f)

def fillAll (escape : Bool) (b : Bindings) : List Piece → Except LayoutError Text
  | [] => .ok []
  | piece :: pieces => do
    let first ← piece.fill escape b
    let rest ← fillAll escape b pieces
    return first ++ rest

def fill (name : Text) (b : Bindings) (t : Text) : Except LayoutError Text := do
  fillAll (escapes name) (constants ++ b) (← (pieces t).mapError LayoutError.flaw)

/-- The names that lead from the base to a layout; going up is refused. -/
def location (name : Text) : Except LayoutError (List Text) :=
  let names := Text.splitOn '/' name
  if names.contains Path.up then .error (.refusedName name)
  else .ok (names.filter fun n ↦ !Path.isSilent n)

end Layout

def LayoutError.message : LayoutError → Text
  | refusedName name => name
  | notFound name base =>
    Text.quoted name ++ " not found in search path: " ++ Text.quoted base.display
  | flaw f => f.message
  | undefined name => Text.quoted name ++ " is undefined"
  | noField owner field => Text.quoted owner ++ " has no attribute " ++ Text.quoted field

end TreeMarkup
