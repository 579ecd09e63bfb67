/-!
# Labels of syntax kinds

What a line calls a node of a given kind, and how the rest of the line is found.

* `LineRule` — the ways to write a node;
* `KindLabel.table` — the labelled kinds; one label serves many kinds, as grammars share some
  names and differ in others;
* `labelOf`, `ruleOf` — the entries of the table; a kind outside it is its own label and is
  written by name.
-/

namespace Outline

/-- How the text after the label is found. -/
inductive LineRule where
  /-- A name, with parameters and result if signatures are wanted. -/
  | callable
  /-- Modifiers and a name. -/
  | typeLike
  /-- A tag name with the number of its attributes. -/
  | element
  /-- Selectors with the number of declarations. -/
  | styleRule
  /-- The callee. -/
  | invocation
  /-- A name alone. -/
  | named
deriving DecidableEq, Repr

/-- A kind of node with its label. -/
structure KindLabel where
  kind : String
  label : String
  rule : LineRule

def KindLabel.table : List KindLabel := [
  ⟨"function_declaration", "Function", .callable⟩,
  ⟨"function_definition", "Function", .callable⟩,
  ⟨"function_item", "Function", .callable⟩,
  ⟨"method_declaration", "Method", .callable⟩,
  ⟨"method_definition", "Method", .callable⟩,
  ⟨"method", "Method", .callable⟩,
  ⟨"singleton_method", "Method", .callable⟩,
  ⟨"constructor_declaration", "Constructor", .callable⟩,
  ⟨"class_declaration", "Class", .typeLike⟩,
  ⟨"abstract_class_declaration", "Class", .typeLike⟩,
  ⟨"class_definition", "Class", .typeLike⟩,
  ⟨"class", "Class", .typeLike⟩,
  ⟨"class_specifier", "Class", .typeLike⟩,
  ⟨"struct_item", "Struct", .typeLike⟩,
  ⟨"struct_specifier", "Struct", .typeLike⟩,
  ⟨"struct_declaration", "Struct", .typeLike⟩,
  ⟨"interface_declaration", "Interface", .typeLike⟩,
  ⟨"trait_item", "Trait", .typeLike⟩,
  ⟨"trait_declaration", "Trait", .typeLike⟩,
  ⟨"enum_item", "Enum", .typeLike⟩,
  ⟨"enum_declaration", "Enum", .typeLike⟩,
  ⟨"module", "Module", .typeLike⟩,
  ⟨"type_declaration", "Type", .typeLike⟩,
  ⟨"type_alias_declaration", "Type", .typeLike⟩,
  ⟨"element", "HTML Tag", .element⟩,
  ⟨"rule_set", "CSS Selector", .styleRule⟩,
  ⟨"call_expression", "Call", .invocation⟩,
  ⟨"call", "Call", .invocation⟩,
  ⟨"method_invocation", "Call", .invocation⟩,
  ⟨"invocation_expression", "Call", .invocation⟩,
  ⟨"function_call_expression", "Call", .invocation⟩]

def KindLabel.find? (kind : String) : Option KindLabel := table.find? (·.kind == kind)

/-- What a line calls a node of the kind. -/
def labelOf (kind : String) : String := ((KindLabel.find? kind).map (·.label)).getD kind

/-- How a node of the kind is written. -/
def ruleOf (kind : String) : LineRule := ((KindLabel.find? kind).map (·.rule)).getD .named

/-- No kind has two entries. -/
theorem KindLabel.nodup_kinds : (table.map (·.kind)).Nodup := by decide

/-- A kind outside the table is its own label. -/
theorem labelOf_of_find?_eq_none {kind : String} (h : KindLabel.find? kind = none) :
    labelOf kind = kind := by
  simp [labelOf, h]

theorem ruleOf_of_find?_eq_none {kind : String} (h : KindLabel.find? kind = none) :
    ruleOf kind = .named := by
  simp [ruleOf, h]

end Outline
