import Outline.Config.Basic
import Outline.Json.Parser
import Outline.Json.Printer

/-!
# The written configuration

A configuration as a JSON value, and the configurations that JSON values stand for.

* `Config.toJson`, `Config.write` — the object with all nine fields in order, and its text;
* `Config.ofJson?`, `Config.read?` — the configuration of a value or a text.

An object overlays the defaults: a field that is left out has its default, and members with
other names are passed over.  A field that stands twice, or has a value of another sort, is
refused.  An array gives the fields in their order, and may end early.
-/

namespace Outline.Config

def fieldNames : List String :=
  ["max_summaries_per_file", "signatures", "include_calls", "parallel", "extensions",
    "exclude_dirs", "exclude_patterns", "max_file_size", "other_files_limit"]

/-! ### Writing -/

def stringsToJson (ts : List Text) : Json := .array (ts.map .string)

/-- The values of the fields, in order. -/
def fieldValues (c : Config) : List Json :=
  [.ofNat c.maxSummariesPerFile.toNat, .bool c.signatures, .bool c.includeCalls,
    .bool c.parallel, stringsToJson c.extensions, stringsToJson c.excludeDirs,
    stringsToJson c.excludePatterns, .ofNat c.maxFileSize.toNat, .ofNat c.otherFilesLimit.toNat]

def toJson (c : Config) : Json := .object ((fieldNames.map String.toList).zip c.fieldValues)

def write (c : Config) : Text := c.toJson.pretty

/-! ### Reading -/

/-- The value of a field: its default if no member has the name, and nothing if two have it or
`read` refuses the value. -/
def field? {α : Type} (members : List (Text × Json)) (name : String) (read : Json → Option α)
    (default : α) : Option α :=
  match members.filter (·.1 == name.toList) with
  | [] => some default
  | [(_, v)] => read v
  | _ => none

/-- The configuration that named values overlay on the defaults. -/
def ofMembers? (ms : List (Text × Json)) : Option Config := do
  let maxSummariesPerFile ←
    field? ms "max_summaries_per_file" Json.natural? standard.maxSummariesPerFile
  let signatures ← field? ms "signatures" Json.bool? standard.signatures
  let includeCalls ← field? ms "include_calls" Json.bool? standard.includeCalls
  let parallel ← field? ms "parallel" Json.bool? standard.parallel
  let extensions ← field? ms "extensions" Json.strings? standard.extensions
  let excludeDirs ← field? ms "exclude_dirs" Json.strings? standard.excludeDirs
  let excludePatterns ← field? ms "exclude_patterns" Json.strings? standard.excludePatterns
  let maxFileSize ← field? ms "max_file_size" Json.natural? standard.maxFileSize
  let otherFilesLimit ← field? ms "other_files_limit" Json.natural? standard.otherFilesLimit
  some ⟨maxSummariesPerFile, signatures, includeCalls, parallel, extensions, excludeDirs,
    excludePatterns, maxFileSize, otherFilesLimit⟩

/-- The configuration that a value stands for. -/
def ofJson? : Json → Option Config
  | .object members => ofMembers? members
  | .array items =>
    if items.length ≤ fieldNames.length then
      ofMembers? ((fieldNames.map String.toList).zip items)
    else none
  | _ => none

/-- The configuration that a text stands for. -/
def read? (t : Text) : Option Config := (Json.parse? t).bind ofJson?

end Outline.Config
