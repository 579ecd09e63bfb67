import Outline.Proofs.DiscoveredFiles
import Outline.Proofs.GlobEndings

/-!
# Minified files

What exclude patterns take out of a search, and what those of the standard configuration do.

* `Search.Narrows` — a search that goes where another one goes, and keeps a part of what that one accepts;
* `Search.Narrows.found_eq_filter` — it finds that part, in the same order;
* `discover_eq_filter` — so patterns leave out the files whose relative paths they match, and do nothing
  else;
* `readPatterns_standard` — the standard patterns match the paths with the endings of minified files;
* `discover_minified` — hence they leave out the minified files and no others.

A pattern is asked about files alone: a directory named like a minified file is searched.
-/

namespace Outline

/-! ### A narrower search -/

namespace Search

/-- The search `s` goes where `wide` goes; of the files that `wide` accepts, it accepts those to keep. -/
structure Narrows (s wide : Search) (keep : List Bytes → Bool) : Prop where
  store : s.store = wide.store
  enters : ∀ name, s.entersName name = wide.entersName name
  accepts : ∀ names f, s.accepts names f = (wide.accepts names f && keep names)

variable {s wide : Search} {keep : List Bytes → Bool}

/-- Taking files out of the lists of the children does not change their order. -/
theorem filter_inOrder (keep : List Bytes → Bool) (found : List (Bytes × List (List Bytes))) :
    (inOrder found).filter keep = inOrder (found.map fun m => (m.1, m.2.filter keep)) := by
  have hsort := List.map_mergeSort (r := fun a b => decide (a.1 ≤ b.1))
    (s := fun a b => decide (a.1 ≤ b.1)) (f := fun m => (m.1, m.2.filter keep)) (l := found)
    fun _ _ _ _ => rfl
  rw [inOrder, inOrder, ← hsort, List.filter_flatMap, List.flatMap_map]

mutual

/-- Of an entry, a narrower search finds what is to be kept. -/
theorem Narrows.entry_eq_filter (h : s.Narrows wide keep) (position names : List Bytes)
    (levels : List IgnoreLevel) (name : Bytes) : (e : Entry) →
    s.entry position names levels name e = (wide.entry position names levels name e).filter keep
  | .file f => by
    rw [entry, entry, h.accepts]
    split
    · rfl
    · cases hkeep : keep (names ++ [name]) <;> cases wide.accepts (names ++ [name]) f <;> simp [hkeep]
  | .link _ => by
    rw [entry, entry]
    rfl
  | .dir entries => by
    rw [entry, entry, h.enters]
    split
    · rfl
    · dsimp only
      rw [h.below_eq_map, ← filter_inOrder, h.store]

/-- Of the entries of a directory, a narrower search finds what is to be kept. -/
theorem Narrows.below_eq_map (h : s.Narrows wide keep) (position names : List Bytes)
    (levels : List IgnoreLevel) : (es : Entries) →
    s.below position names levels es =
      (wide.below position names levels es).map fun m => (m.1, m.2.filter keep)
  | [] => by
    rw [below, below]
    rfl
  | (name, e) :: es => by
    rw [below, below, h.entry_eq_filter, h.below_eq_map, List.map_cons]

end

/-- **A narrower search finds what is to be kept**, in the order of the wider one. -/
theorem Narrows.found_eq_filter (h : s.Narrows wide keep) (position : List Bytes) (entries : Entries) :
    s.found position entries = (wide.found position entries).filter keep := by
  rw [found, found, h.below_eq_map, ← filter_inOrder, h.store]

/-- Whether no pattern matches the relative path. -/
def unmatched (root : Path) (excludes : List Glob) (p : Path) : Bool :=
  !excludes.any (·.isMatch (Text.utf8 (p.relative root)))

/-- Patterns narrow the search without them. -/
theorem narrows_patterns (store : Store) (root : Path) (config : Config) (excludes : List Glob) :
    Narrows ⟨store, root, config, excludes⟩ ⟨store, root, { config with excludePatterns := [] }, []⟩
      fun names => unmatched root excludes (root.below names) where
  store := rfl
  enters := fun _ => rfl
  accepts := fun names f => by
    simp only [accepts, Config.wantsExtension, unmatched, List.any_nil, Bool.not_false, Bool.and_true]
    ac_rfl

end Search

variable {store : Store} {root : Path} {config : Config}

/-- **Exclude patterns leave out the files that they match**, and change nothing else: not the order of
the others, nor why a search may fail. -/
theorem discover_eq_filter {excludes : List Glob}
    (h : readPatterns config.excludePatterns = .ok excludes) :
    discover store root config = (discover store root { config with excludePatterns := [] }).map
      fun paths => paths.filter (Search.unmatched root excludes) := by
  unfold discover
  split
  · rw [h]
    dsimp only [readPatterns, Except.map]
    rw [(Search.narrows_patterns store root config excludes).found_eq_filter, List.filter_map]
    rfl
  · rfl

/-! ### The standard patterns -/

/-- Whether a path, as text, ends like those of minified files. -/
def IsMinified (path : Text) : Prop := ".min.js".toList <:+ path ∨ ".min.css".toList <:+ path

instance (path : Text) : Decidable (IsMinified path) :=
  inferInstanceAs (Decidable (".min.js".toList <:+ path ∨ ".min.css".toList <:+ path))

/-- **The standard patterns match the paths of minified files**, of whatever depth and characters. -/
theorem readPatterns_standard :
    ∃ excludes, readPatterns Config.standard.excludePatterns = .ok excludes ∧
      ∀ path : Text, excludes.any (·.isMatch path.utf8) = true ↔ IsMinified path := by
  have hscript : Glob.parse ("**/*".toList ++ ".min.js".toList) = .ok (.ofEnding ".min.js".toList) :=
    Glob.parse_ofEnding (by decide)
  have hsheet : Glob.parse ("**/*".toList ++ ".min.css".toList) = .ok (.ofEnding ".min.css".toList) :=
    Glob.parse_ofEnding (by decide)
  refine ⟨[.ofEnding ".min.js".toList, .ofEnding ".min.css".toList], ?_, fun path => ?_⟩
  · show readPatterns ["**/*".toList ++ ".min.js".toList, "**/*".toList ++ ".min.css".toList] = _
    rw [readPatterns, hscript, readPatterns, hsheet]
    rfl
  · rw [List.any_cons, List.any_cons, List.any_nil, Bool.or_false, Bool.or_eq_true,
      Glob.isMatch_ofEnding_iff, Glob.isMatch_ofEnding_iff, IsMinified]

/-- The standard configuration finds what it would find without its patterns, less the minified files. -/
theorem discover_standard_eq_filter (store : Store) (root : Path) : discover store root .standard =
    (discover store root { Config.standard with excludePatterns := [] }).map fun paths =>
      paths.filter fun p => ¬IsMinified (p.relative root) := by
  obtain ⟨excludes, hexcludes, hmatch⟩ := readPatterns_standard
  have hkeep : Search.unmatched root excludes = fun p => decide ¬IsMinified (p.relative root) := by
    funext p
    rw [Search.unmatched, Bool.eq_iff_iff, Bool.not_eq_true', Bool.eq_false_iff, Ne, hmatch,
      decide_eq_true_eq]
  rw [discover_eq_filter hexcludes, hkeep]

/-- **The standard patterns leave out the minified files, and no others.**  They match a relative path, of
whatever depth and characters, if and only if it ends in `.min.js` or `.min.css`.  So the standard
configuration finds what it would find without its patterns, in the same order, less those files. -/
theorem discover_minified :
    (∃ excludes, readPatterns Config.standard.excludePatterns = .ok excludes ∧
      ∀ path : Text, excludes.any (·.isMatch path.utf8) = true ↔
        ".min.js".toList <:+ path ∨ ".min.css".toList <:+ path) ∧
    (∀ store root, discover store root .standard =
      (discover store root { Config.standard with excludePatterns := [] }).map fun paths =>
        paths.filter fun p => ¬IsMinified (p.relative root)) ∧
    ∀ store root paths, discover store root .standard = .ok paths →
      ∀ p ∈ paths, ¬IsMinified (p.relative root) := by
  refine ⟨readPatterns_standard, discover_standard_eq_filter, fun store root paths h p hp => ?_⟩
  rw [discover_standard_eq_filter] at h
  cases hwide : discover store root { Config.standard with excludePatterns := [] } with
  | error e =>
    rw [hwide] at h
    cases h
  | ok found =>
    rw [hwide] at h
    cases h
    exact of_decide_eq_true (List.mem_filter.1 hp).2

open IgnoreLevel (nameOf)

/-- A project with minified files at its root and below, and with names that only resemble theirs. -/
def shelfEntries : List (List Bytes × Entry) :=
  [([nameOf "app", nameOf ".min.js"], .file ⟨[], none⟩),
    ([nameOf "app", nameOf "min.js"], .file ⟨[], none⟩),
    ([nameOf "app", nameOf "lib.min.js", nameOf "é[.min.css"], .file ⟨[], none⟩),
    ([nameOf "app", nameOf "lib.min.js", nameOf "a\x7bb.css"], .file ⟨[], none⟩),
    ([nameOf "app", nameOf "a.min.js.ts"], .file ⟨[], none⟩)]

theorem discover_minified_shelf :
    discover (.made shelfEntries) (.ofString "app") .standard =
        .ok (["app/a.min.js.ts", "app/lib.min.js/a\x7bb.css", "app/min.js"].map .ofString) ∧
      ¬IsMinified ((Path.ofString "app/min.js").relative (.ofString "app")) := by
  obtain ⟨-, hfilter, hnever⟩ := discover_minified
  have hall : discover (.made shelfEntries) (.ofString "app")
      { Config.standard with excludePatterns := [] } =
        .ok (["app/.min.js", "app/a.min.js.ts", "app/lib.min.js/a\x7bb.css",
          "app/lib.min.js/é[.min.css", "app/min.js"].map .ofString) := by
    cbv
  have hfound : discover (.made shelfEntries) (.ofString "app") .standard =
      .ok (["app/a.min.js.ts", "app/lib.min.js/a\x7bb.css", "app/min.js"].map .ofString) := by
    rw [hfilter, hall]
    decide +kernel
  exact ⟨hfound, hnever _ _ _ hfound _ (by simp)⟩

end Outline
