import TreeMarkup.Command.Argument
import TreeMarkup.Text.Basic

namespace TreeMarkup.Command

inductive Topic
  | overview
  | convert
  | build
  | tags
  deriving DecidableEq, Repr

namespace Topic

def program : Topic → Text
  | overview => "yahtml"
  | convert => "yahtml convert"
  | build => "yahtml build"
  | tags => "yahtml tags"

def lines : Topic → List String
  | overview =>
    ["usage: yahtml [-h] \x7bconvert,build,tags\x7d ...",
      "",
      "Convert YAHTML documents (YAML element trees) to HTML.",
      "",
      "positional arguments:",
      "  \x7bconvert,build,tags\x7d",
      "    convert             Convert a single YAHTML file.",
      "    build               Build every page listed in a pages.yaml file.",
      "    tags                List self-closing (void) tags.",
      "",
      "options:",
      "  -h, --help            show this help message and exit"]
  | convert =>
    ["usage: yahtml convert [-h] --in INPUT [--out OUTPUT] [--pretty]",
      "                      [--allow-multi-key]",
      "",
      "Load a YAHTML document and write the resulting HTML.",
      "",
      "options:",
      "  -h, --help         show this help message and exit",
      "  --in INPUT         Path to the YAHTML (YAML) document.",
      "  --out OUTPUT       Path to write the HTML (default: stdout).",
      "  --pretty           Indent the HTML output.",
      "  --allow-multi-key  Use the first key of element mappings that have several",
      "                     keys."]
  | build =>
    ["usage: yahtml build [-h] [--pages PAGES] [--out OUT] [--check]",
      "",
      "Convert a page set, apply layouts and write a manifest.",
      "",
      "options:",
      "  -h, --help     show this help message and exit",
      "  --pages PAGES  Path to pages.yaml.",
      "  --out OUT      Directory to write rendered pages.",
      "  --check        Build twice into temporary directories and fail if outputs",
      "                 differ."]
  | tags =>
    ["usage: yahtml tags [-h]",
      "",
      "Print the tags that never get a body or closing tag.",
      "",
      "options:",
      "  -h, --help  show this help message and exit"]

def help (topic : Topic) : Text := topic.lines.flatMap fun line ↦ line.toList ++ ['\n']

end Topic

structure ConvertArguments where
  input : Text
  output : Option Text := none
  pretty : Bool := false
  allowMultiKey : Bool := false
  deriving DecidableEq, Repr

structure BuildArguments where
  pages : Text
  output : Text
  check : Bool
  deriving DecidableEq, Repr

inductive Invocation
  | convert (arguments : ConvertArguments)
  | build (arguments : BuildArguments)
  | tags
  deriving DecidableEq, Repr

inductive Refusal
  | help (topic : Topic)
  | fault (topic : Topic) (f : ArgumentFault)
  deriving DecidableEq, Repr

def Refusal.ofStop (topic : Topic) : Stop → Refusal
  | .help => .help topic
  | .fault f => .fault topic f

def Refusal.diagnostic? : Refusal → Option Text
  | help _ => none
  | fault topic f => some (topic.program ++ ": error: " ++ f.message)

def inputSwitch : Switch := ⟨["--in"], .text⟩

def outputSwitch : Switch := ⟨["--out"], .text⟩

def prettySwitch : Switch := ⟨["--pretty"], .none⟩

def multiKeySwitch : Switch := ⟨["--allow-multi-key"], .none⟩

def pagesSwitch : Switch := ⟨["--pages"], .text⟩

def checkSwitch : Switch := ⟨["--check"], .none⟩

def Topic.options : Topic → List Switch
  | overview => []
  | convert => [inputSwitch, outputSwitch, prettySwitch, multiKeySwitch]
  | build => [pagesSwitch, outputSwitch, checkSwitch]
  | tags => []

/-- What a command is to do; an option that has to be given is missed before anything that is left
over. -/
def Topic.invocation (topic : Topic) (a : Arguments) : Except Stop Invocation :=
  match topic with
  | convert =>
    match a.value? inputSwitch with
    | none => .error (.fault (.required inputSwitch.names))
    | some input =>
      .ok (.convert
        { input
          output := a.value? outputSwitch
          pretty := a.has prettySwitch
          allowMultiKey := a.has multiKeySwitch })
  | build =>
    .ok (.build
      { pages := (a.value? pagesSwitch).getD "pages.yaml"
        output := (a.value? outputSwitch).getD "build"
        check := a.has checkSwitch })
  | tags => .ok .tags
  | overview => .error .help

def commands : List (Text × Topic) :=
  [("convert", .convert), ("build", .build), ("tags", .tags)]

def Topic.ofName? (name : Text) : Option Topic :=
  (commands.find? fun entry ↦ entry.1 = name).map Prod.snd

def unrecognized (words : List Text) : Except Refusal Unit :=
  if words.isEmpty then .ok () else .error (.fault .overview (.unrecognized words))

/-- The arguments of a command; words that are left over, also those in front of the command, are
refused last. -/
def Topic.invoke (topic : Topic) (before words : List Text) : Except Refusal Invocation := do
  let a ← (Arguments.read topic.options words).mapError (Refusal.ofStop topic)
  let invocation ← (topic.invocation a).mapError (Refusal.ofStop topic)
  unrecognized (before ++ a.others)
  return invocation

def invokeNamed (before : List Text) (name : Text) (words : List Text) :
    Except Refusal Invocation :=
  match Topic.ofName? name with
  | some topic => topic.invoke before words
  | none => .error (.fault .overview (.unknownCommand name (commands.map Prod.fst)))

/-- Looks for the command; `before` holds the words in front of it that are no options. After a
lone pair of dashes that pair is taken for the command itself. -/
def choose (before : List Text) : List Text → Except Refusal Invocation
  | [] => do
    unrecognized before
    .error (.help .overview)
  | [['-', '-']] => do
    unrecognized (before ++ [['-', '-']])
    .error (.help .overview)
  | ['-', '-'] :: words => invokeNamed before "--" words
  | word :: words =>
    match classify [helpSwitch] word with
    | .ok (.plain _) => invokeNamed before word words
    | .ok (.option o attached) =>
      match takeFlag o attached with
      | .ok () => choose before words
      | .error stop => .error (Refusal.ofStop .overview stop)
    | .ok _ => choose (before ++ [word]) words
    | .error stop => .error (Refusal.ofStop .overview stop)

def parse (words : List Text) : Except Refusal Invocation := choose [] words

end TreeMarkup.Command
