import TreeMarkup.Text.Basic

namespace TreeMarkup.Markup

/-- The tags of void elements, which have no body and no closing tag, in alphabetical order. -/
def voidTags : List Text :=
  ["area", "base", "br", "col", "embed", "hr", "img", "input", "link", "meta", "param", "source",
    "track", "wbr"]

/-- The tags whose scalar body is written as it is, in alphabetical order. -/
def rawTags : List Text := ["script", "style"]

def isVoid (tag : Text) : Bool := voidTags.contains tag

def isRaw (tag : Text) : Bool := rawTags.contains tag

def escapeTextChar : Char → Text
  | '&' => "&amp;"
  | '<' => "&lt;"
  | '>' => "&gt;"
  | '"' => "&quot;"
  | '\'' => "&#39;"
  | c => [c]

def escapeAttributeChar : Char → Text
  | '\'' => ['\'']
  | c => escapeTextChar c

def escapeLayoutChar : Char → Text
  | '"' => "&#34;"
  | c => escapeTextChar c

def escapeText (t : Text) : Text := t.flatMap escapeTextChar

def escapeAttribute (t : Text) : Text := t.flatMap escapeAttributeChar

def escapeLayout (t : Text) : Text := t.flatMap escapeLayoutChar

end TreeMarkup.Markup
