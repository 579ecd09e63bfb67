import Outline.Language
import Outline.Path

/-!
# The registry of languages

Languages found by extension.  The registry keeps an index that is ordered by extension and
holds one language for each: where several claim an extension, the last one listed has it.

* `normalizeExtension` — the form in which extensions are compared: trimmed, in lower case,
  with a leading dot;
* `Registry.ofLanguages` — the registry of a list of languages;
* `Registry.lookup?`, `Registry.lookupPath?` — the language of an extension or a path;
* `Registry.extensions` — the known extensions in order.
-/

namespace Outline

/-- The form in which extensions are compared. -/
def normalizeExtension (extension : Text) : Text :=
  let lower := Text.lowercase extension.trim
  if lower.head? = some '.' then lower else '.' :: lower

/-- Languages in order of their extensions. -/
abbrev LanguageIndex := List (Text × Language)

/-- Gives an extension to a language, whoever had it. -/
def LanguageIndex.insert (extension : Text) (l : Language) : LanguageIndex → LanguageIndex
  | [] => [(extension, l)]
  | (e, m) :: rest =>
    if e < extension then (e, m) :: LanguageIndex.insert extension l rest
    else if extension < e then (extension, l) :: (e, m) :: rest
    else (extension, l) :: rest

/-- The languages of a program, in the order of their listing, with their index. -/
structure Registry where
  languages : List Language
  index : LanguageIndex

namespace Registry

/-- Gives a language all its extensions. -/
def addLanguage (index : LanguageIndex) (l : Language) : LanguageIndex :=
  l.extensions.foldl (fun index e => LanguageIndex.insert e l index) index

/-- The registry of a list of languages. -/
def ofLanguages (languages : List Language) : Registry :=
  ⟨languages, languages.foldl addLanguage []⟩

def standard : Registry := ofLanguages Language.standard

/-- The language of an extension in any spelling. -/
def lookup? (r : Registry) (extension : Text) : Option Language :=
  let e := normalizeExtension extension
  (r.index.find? (·.1 == e)).map (·.2)

/-- The language of a path by its extension, which must be a text. -/
def lookupPath? (r : Registry) (p : Path) : Option Language :=
  (p.extension?.bind Utf8.decode?).bind r.lookup?

def extensions (r : Registry) : List Text := r.index.map (·.1)

end Registry

/-- Looking up what was just inserted finds it, and nothing else changes. -/
theorem LanguageIndex.find?_insert (extension e : Text) (l : Language) (index : LanguageIndex)
    (hs : index.Pairwise fun a b => a.1 < b.1) :
    (LanguageIndex.insert extension l index).find? (·.1 == e) =
      if extension = e then some (extension, l) else index.find? (·.1 == e) := by
  induction index with
  | nil => by_cases h : extension = e <;> simp [insert, h]
  | cons a rest ih =>
    obtain ⟨k, m⟩ := a
    have ih := ih (List.pairwise_cons.1 hs).2
    simp only [insert]
    split
    · rename_i hlt
      by_cases hk : k = e
      · have hne : ¬ extension = e := by
          rintro rfl
          subst hk
          exact absurd hlt (List.lt_irrefl _)
        simp [hk, hne]
      · simp [hk, ih]
    · split
      · by_cases h : extension = e <;> simp [h]
      · rename_i h1 h2
        have hk : k = extension := List.le_antisymm h2 h1
        by_cases h : extension = e <;> simp [h, hk]

end Outline
