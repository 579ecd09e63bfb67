import Outline.Summary
import Outline.Text.Quoted

/-!
# Configuration

What a project can choose about its outline.

* `Config` — the choices, with their defaults; numbers are unsigned 64-bit words;
* `ConfigFault`, `Config.fault?` — the first reason why a configuration cannot be used;
* `Config.wantsExtension` — whether files with an extension are looked at;
* `Config.summaryOptions` — the choices that a summary depends on.
-/

namespace Outline

/-- The choices of a project. -/
structure Config where
  maxSummariesPerFile : UInt64 := 20
  signatures : Bool := true
  includeCalls : Bool := false
  parallel : Bool := false
  extensions : List Text :=
    [".js", ".ts", ".jsx", ".tsx", ".py", ".java", ".html", ".css", ".rb", ".php", ".go", ".cs",
      ".rs", ".cpp", ".vue", ".scss", ".less"].map String.toList
  excludeDirs : List Text :=
    ["node_modules", "dist", "build", "target", ".git", "test", "tests", "__tests__",
      "vendor"].map String.toList
  excludePatterns : List Text := ["**/*.min.js", "**/*.min.css"].map String.toList
  maxFileSize : UInt64 := 1048576
  otherFilesLimit : UInt64 := 25
deriving DecidableEq

namespace Config

/-- The configuration of a project that chooses nothing. -/
def standard : Config := {}

def fileName : Text := "codebrief.json".toList

end Config

/-- Why a configuration cannot be used. -/
inductive ConfigFault where
  | noLines
  | noFileSize
  | noExtensions
  /-- An extension without a leading dot, or of that dot alone. -/
  | badExtension (extension : Text)
deriving DecidableEq

def ConfigFault.message : ConfigFault → Text
  | .noLines => "max_summaries_per_file must be positive".toList
  | .noFileSize => "max_file_size must be positive".toList
  | .noExtensions => "at least one extension must be specified".toList
  | .badExtension e => "extension ".toList ++ Text.quoted e ++ " must start with '.'".toList

namespace Config

/-- Whether an extension is a dot with something behind it. -/
def goodExtension (e : Text) : Bool := e.head? = some '.' && 1 < e.length

/-- The first fault of a configuration. -/
def fault? (c : Config) : Option ConfigFault :=
  if c.maxSummariesPerFile = 0 then some .noLines
  else if c.maxFileSize = 0 then some .noFileSize
  else if c.extensions = [] then some .noExtensions
  else (c.extensions.find? fun e => !goodExtension e).map .badExtension

def isValid (c : Config) : Bool := c.fault?.isNone

/-- Whether files with an extension, its dot included, are looked at.  The case of ASCII letters
does not matter. -/
def wantsExtension (c : Config) (e : Text) : Bool :=
  c.extensions.any fun f => f.map Char.toLower == e.map Char.toLower

/-- The choices that a summary depends on. -/
def summaryOptions (c : Config) : SummaryOptions :=
  ⟨c.maxSummariesPerFile.toNat, c.signatures, c.includeCalls, c.parallel⟩

/-- A configuration that can be used allows at least one line a file. -/
theorem one_le_maxLines {c : Config} (h : c.isValid = true) : 1 ≤ c.summaryOptions.maxLines := by
  simp only [isValid, fault?] at h
  split at h
  · simp at h
  · rename_i hne
    have : c.maxSummariesPerFile.toNat ≠ 0 := fun h0 => hne (UInt64.toNat_inj.1 (by simpa using h0))
    simp only [summaryOptions]
    omega

end Config

end Outline
