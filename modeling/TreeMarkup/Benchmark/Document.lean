import TreeMarkup.Double.Basic
import TreeMarkup.Value.Basic

namespace TreeMarkup.Benchmark

def element (key : Text) (children : List Value) : Value := .map [(.text key, .list children)]

def line (key content : Text) : Value := .text (key ++ ": \"" ++ content ++ "\"")

def simpleElements (count : Nat) : List Value :=
  (List.range count).map fun i ↦ line "p" ("Paragraph " ++ Text.ofNat i)

def leaf : Value := line "span" "Leaf content"

/-- A tree in which every element above the leaves has `breadth` children. -/
def nestedStructure : Nat → Nat → Value
  | 0, _ => leaf
  | depth + 1, breadth => element "div" (List.replicate breadth (nestedStructure depth breadth))

def chain : Nat → Value
  | 0 => leaf
  | depth + 1 => element "div" [chain depth]

def deepChain (depth : Nat) : List Value := [chain depth]

def headCells (columns : Nat) : List Value :=
  (List.range columns).map fun j ↦ line "th" ("Column " ++ Text.ofNat j)

def bodyCells (row columns : Nat) : List Value :=
  (List.range columns).map fun j ↦ line "td" ("Cell " ++ Text.ofNat row ++ "-" ++ Text.ofNat j)

def largeTable (rows columns : Nat) : List Value :=
  [element "table"
    [element "thead" [element "tr" (headCells columns)],
      element "tbody" ((List.range rows).map fun i ↦ element "tr" (bodyCells i columns))]]

def labelFor (name content : Text) : Value := line ("label for=" ++ name) content

def choice (value content : Text) : Value := line ("option value=" ++ value) content

def formGroup (name label type : Text) : Value :=
  element "div.form-group"
    [labelFor name label,
      .text ("input type=" ++ type ++ " id=" ++ name ++ " name=" ++ name ++ " required:")]

def countries : Value :=
  element "div.form-group"
    [labelFor "country" "Country",
      element "select id=country name=country"
        [choice "us" "United States", choice "uk" "United Kingdom", choice "ca" "Canada",
          choice "au" "Australia"]]

def complexForm : List Value :=
  [element "form action=\"/submit\" method=\"post\""
    [line "h2" "User Registration", formGroup "name" "Full Name" "text",
      formGroup "email" "Email" "email", formGroup "password" "Password" "password", countries,
      line "button type=submit" "Register"]]

def menuItem (slug label : Text) : Value := element "li" [line ("a href=\"/" ++ slug ++ "\"") label]

def card (title content : Text) : Value :=
  element "div.feature-card" [line "h3" title, line "p" content]

def pageHeader : Value :=
  element "header.site-header"
    [element "nav.navbar"
      [line "a href=\"/\" class=\"logo\"" "YAHTML",
        element "ul.nav-menu"
          [menuItem "features" "Features", menuItem "docs" "Documentation",
            menuItem "pricing" "Pricing", menuItem "contact" "Contact"]]]

def pageHero : Value :=
  element "section.hero"
    [line "h1.hero-title" "Build HTML with YAML Simplicity",
      line "p.hero-subtitle" "Write cleaner, more maintainable markup",
      element "div.cta-buttons"
        [line "button.btn.btn-primary" "Get Started",
          line "button.btn.btn-secondary" "Learn More"]]

def pageFeatures : Value :=
  element "section.features"
    [line "h2" "Features",
      element "div.feature-grid"
        [card "Simple Syntax" "Write HTML using clean YAML syntax",
          card "No Closing Tags" "Forget about closing tags and focus on content",
          card "Valid YAML" "Every YAHTML document is valid YAML"]]

def pageFooter : Value :=
  element "footer.site-footer"
    [line "p" "(c) 2024 YAHTML. All rights reserved.",
      element "div.social-links"
        [line "a href=\"https://github.com\"" "GitHub",
          line "a href=\"https://twitter.com\"" "Twitter"]]

def realWorldPage : List Value :=
  [element "div#app.container"
    [pageHeader, element "main.content" [pageHero, pageFeatures], pageFooter]]

def attributeHeavy : List Value :=
  [line
      ("div#main.container.fluid class=\"extra classes here\" style=\"margin: 10px; padding: 20px;\" "
        ++ "data-id=\"123\" data-category=\"test\"")
      "Content",
    .text
      ("img src=\"https://example.com/image.jpg\" alt=\"Test Image\" width=\"800\" height=\"600\" "
        ++ "class=\"responsive\":")]

def escapingContent : List Value :=
  [line "p" "This & that < more > stuff", line "div" "She said \\\"Hello\\\" & goodbye",
    line "span" "<script>alert(1)</script>"]

def scalarElement (key : Text) (content : Value) : Value := .map [(.text key, content)]

def edgeCases : List Value :=
  [scalarElement "div" .null, scalarElement "span" (.text []), scalarElement "p" (.integer 42),
    scalarElement "em" (.boolean true), .null, .text "just text",
    scalarElement "style" (.text "body \x7b font-family: sans-serif; \x7d")]

structure Case where
  name : Text
  document : List Value
  iterations : Int

/-- A number of iterations on a scale, at least one; infinite scales have none. -/
def scaled? (scale : Double) (iterations : Nat) : Option Int :=
  ((Double.ofInt iterations).mul scale).truncate?.map fun n ↦ if n < 1 then 1 else n

def case? (scale : Double) (name : Text) (iterations : Nat) (document : List Value) : Option Case :=
  (scaled? scale iterations).map (⟨name, document, ·⟩)

def cases? (scale : Double) : Option (List Case) :=
  [case? scale "10 simple paragraphs" 10000 (simpleElements 10),
    case? scale "100 simple paragraphs" 1000 (simpleElements 100),
    case? scale "3-level nested structure" 5000 [nestedStructure 3 3],
    case? scale "7-level nested structure" 1000 [nestedStructure 7 2],
    case? scale "Complex form" 5000 complexForm,
    case? scale "50x10 table" 100 (largeTable 50 10),
    case? scale "Real-world page" 2000 realWorldPage,
    case? scale "Attribute-heavy elements" 10000 attributeHeavy,
    case? scale "HTML escaping" 10000 escapingContent,
    case? scale "Edge cases" 10000 edgeCases].mapM id

end TreeMarkup.Benchmark
