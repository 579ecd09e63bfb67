import Outline.Text.Lowercase

/-!
# Languages

What is known of each language: its extensions, how its files are read, and which syntax kinds
are worth a line.

* `Backend` — a grammar, which may fail to load, or one of the two scanners;
* `Language` — the description of one language;
* `Language.kindsOfInterest` — the kinds to collect, with call sites if they are wanted;
* `Language.standard` — the languages of the library.
-/

namespace Outline

/-- How the files of a language are read. -/
inductive Backend where
  /-- A grammar that builds syntax trees. -/
  | grammar (available : Bool)
  /-- The scan for flat style rules. -/
  | stylesheet
  /-- The scan for the blocks of a single-file component. -/
  | component
deriving DecidableEq, Repr

def Backend.description : Backend → String
  | .grammar true => "grammar"
  | .grammar false => "grammar unavailable"
  | .stylesheet => "stylesheet fallback"
  | .component => "component fallback"

/-- How the script block of a component is read: the extensions whose languages parse it, and
the kinds to collect there. -/
structure EmbeddedScript where
  plain : Text
  typed : Text
  kinds : List String

/-- A language. -/
structure Language where
  name : String
  extensions : List Text
  backend : Backend
  kinds : List String
  callKinds : List String
  script : Option EmbeddedScript

namespace Language

/-- The kinds to collect. -/
def kindsOfInterest (l : Language) (calls : Bool) : List String :=
  if calls then l.kinds ++ l.callKinds else l.kinds

/-- Whether a text of the language is given a syntax tree. -/
def parses (l : Language) : Bool := l.backend == .grammar true

/-- The language as it is when its grammar does not load. -/
def withoutGrammar (l : Language) : Language :=
  match l.backend with
  | .grammar _ => { l with backend := .grammar false }
  | _ => l

/-! ### The languages of the library -/

/-- A language with a grammar. -/
def ofGrammar (name : String) (extensions kinds callKinds : List String) : Language :=
  ⟨name, extensions.map String.toList, .grammar true, kinds, callKinds, none⟩

/-- A language that is only scanned. -/
def ofScanner (name : String) (extensions : List String) (backend : Backend)
    (script : Option EmbeddedScript) : Language :=
  ⟨name, extensions.map String.toList, backend, [], [], script⟩

/-- The kinds that both typed script languages share. -/
def typedScriptKinds : List String :=
  ["function_declaration", "class_declaration", "abstract_class_declaration",
    "interface_declaration", "type_alias_declaration", "enum_declaration", "method_definition"]

/-- The languages of the library, in the order in which they are listed. -/
def standard : List Language := [
  ofGrammar "JavaScript" [".js", ".jsx", ".mjs", ".cjs"]
    ["function_declaration", "class_declaration", "method_definition"] ["call_expression"],
  ofGrammar "TypeScript" [".ts", ".mts", ".cts"] typedScriptKinds ["call_expression"],
  ofGrammar "TSX" [".tsx"] typedScriptKinds ["call_expression"],
  ofGrammar "Python" [".py", ".pyw", ".pyi"] ["function_definition", "class_definition"]
    ["call"],
  ofGrammar "Java" [".java"]
    ["class_declaration", "interface_declaration", "enum_declaration", "method_declaration",
      "constructor_declaration"] ["method_invocation"],
  ofGrammar "HTML" [".html", ".htm"] ["element"] [],
  ofGrammar "CSS" [".css"] ["rule_set"] [],
  ofScanner "SCSS/Less" [".scss", ".less"] .stylesheet none,
  ofGrammar "Ruby" [".rb"] ["class", "module", "method", "singleton_method"] ["call"],
  ofGrammar "PHP" [".php"]
    ["function_definition", "class_declaration", "interface_declaration", "trait_declaration",
      "method_declaration"] ["function_call_expression"],
  ofGrammar "Go" [".go"] ["function_declaration", "method_declaration", "type_declaration"]
    ["call_expression"],
  ofGrammar "C#" [".cs"]
    ["class_declaration", "interface_declaration", "struct_declaration", "enum_declaration",
      "method_declaration", "constructor_declaration"] ["invocation_expression"],
  ofGrammar "Rust" [".rs"] ["function_item", "struct_item", "enum_item", "trait_item"]
    ["call_expression"],
  ofGrammar "C++" [".cpp", ".cc", ".cxx", ".hpp", ".hh", ".h"]
    ["function_definition", "class_specifier", "struct_specifier"] ["call_expression"],
  ofScanner "Vue" [".vue"] .component
    (some ⟨".js".toList, ".ts".toList, ["function_declaration", "class_declaration"]⟩)]

end Language

end Outline
