import TreeMarkup.Text.Basic

namespace TreeMarkup

structure Declaration where
  key : Text
  content : Option Text
  deriving DecidableEq, Repr

namespace Declaration

/-- Cuts a text at its first colon that a space and a quote follow; the quote stays. -/
def cutQuoted? : Text → Option (Text × Text)
  | [] => none
  | ':' :: ' ' :: '"' :: r => some ([], '"' :: r)
  | ':' :: ' ' :: '\'' :: r => some ([], '\'' :: r)
  | c :: cs => (cutQuoted? cs).map fun (key, content) ↦ (c :: key, content)

def unescapeQuote (quote : Char) : Text → Text
  | [] => []
  | c :: t =>
    if c = '\\' ∧ t.head? = some quote then unescapeQuote quote t else c :: unescapeQuote quote t

def isEnclosed (quote : Char) (t : Text) : Bool :=
  t.head? = some quote && t.getLast? = some quote

def unquote (t : Text) : Text :=
  if isEnclosed '"' t || isEnclosed '\'' t then
    unescapeQuote '\'' (unescapeQuote '"' (t.drop 1).dropLast)
  else t

def quotedContent (t : Text) : Text :=
  let content := unquote t
  if content = "\"\"".toList || content = "''".toList then [] else content

/-- Cuts a text at its first colon, if blanks follow it; the content is one line, and a key with two
slashes is the beginning of an address. -/
def ofPlain? (t : Text) : Option Declaration :=
  match t.takeWhile (· != ':'), t.dropWhile (· != ':') with
  | c :: cs, _ :: rest =>
    let key := c :: cs
    let content := Text.stripStart rest
    if content.length < rest.length && !content.contains '\n' && (Text.cut? "//" key).isNone then
      some ⟨key, some content⟩
    else none
  | _, _ => none

/-- A colon at the end makes an element without content; after that quoted content is looked for
before plain content. -/
def ofText? (t : Text) : Option Declaration :=
  if t.getLast? = some ':' then some ⟨Text.strip t.dropLast, none⟩
  else match cutQuoted? t with
    | some (key, content) => some ⟨key, some (quotedContent content)⟩
    | none => ofPlain? t

end Declaration

end TreeMarkup
