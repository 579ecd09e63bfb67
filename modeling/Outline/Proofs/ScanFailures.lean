import Outline.Command.Run
import Outline.Proofs.DiscoveredFiles
import Outline.Proofs.Encoding

/-!
# Scans that fail

Why a scan gives no summaries, and what is seen of one that fails.

* `Config.ofFile`, `Config.load_ok_iff` — the configuration of a file, and when it can be loaded;
* `Config.Usable`, `Config.isValid_iff` — what is asked of a configuration;
* `exists_discover_iff` — discovery needs a directory and patterns that can be read, nothing else;
* `ScanChoices.Overlays`, `ScanChoices.overlays_iff` — a configuration with the choices of the
  command line over it, field by field;
* `ScanChoices.Refused` — the four reasons why a scan is refused;
* `ScanChoices.exists_summaries_iff` — a scan that is not refused has a summary for each file;
* `Outcome.scan_fails_iff` — a scan that writes text fails if it is refused, and then prints
  nothing.

No reason speaks of a file below the root: whatever such a file holds, the scan goes on.
-/

namespace Outline

/-! ### The configuration file -/

/-- A path leads to a directory or to a file, as links are followed. -/
theorem Store.dir_or_file_of_get {s : Store} {p : Path} {names : List Bytes} {e : Entry}
    (h : s.get p = .ok (names, e)) : (∃ es, e = .dir es) ∨ ∃ f, e = .file f := by
  have hsound := sound_of_follow s.isDirectory_nil (resolve_ok_iff.1 (get_ok_iff.1 h)).2.2
  obtain ⟨he, ⟨es, hes⟩ | ⟨d, n, f, -, -, rfl⟩⟩ := hsound
  · rw [he] at hes
    exact Or.inl ⟨es, Option.some.inj hes⟩
  · exact Or.inr ⟨f, rfl⟩

namespace Config

/-- The configuration that the file under a path stands for: the defaults if there is none, or if
its text stands for no configuration. -/
def ofFile (s : Store) (p : Path) : Config :=
  match s.readText p with
  | .ok (t, _) => (read? t).getD standard
  | .error _ => standard

/-- Whether a path leads to something that has no text: a directory, or a file of other bytes. -/
def Unreadable (s : Store) (p : Path) : Prop :=
  s.hasDirectory p = true ∨ ∃ f, s.read p = .ok f ∧ ¬Utf8.IsText f.bytes

/-- **A configuration can be loaded unless its path leads to something that has no text.** -/
theorem load_ok_iff {s : Store} {p : Path} {c : Config} :
    load s p = .ok c ↔ ¬Unreadable s p ∧ c = ofFile s p := by
  unfold load ofFile Unreadable Store.hasDirectory Store.has Store.readText Store.read
  cases hget : s.get p with
  | error e => simp [Except.isOk, Except.toBool, eq_comm]
  | ok found =>
    obtain ⟨names, e⟩ := found
    obtain ⟨es, rfl⟩ | ⟨f, rfl⟩ := Store.dir_or_file_of_get hget
    · simp [Except.isOk, Except.toBool]
    · cases hdecode : Utf8.decode? f.bytes with
      | none =>
        have htext : ¬Utf8.IsText f.bytes := by simp [Utf8.isText_iff, hdecode]
        simp [Except.isOk, Except.toBool, hdecode, htext]
      | some t =>
        have htext : Utf8.IsText f.bytes := Utf8.isText_iff.2 (by rw [hdecode]; rfl)
        simp [Except.isOk, Except.toBool, hdecode, htext, eq_comm]

/-- A configuration that can be used: it allows lines and bytes, and asks for extensions, each of
them a dot with something behind it. -/
structure Usable (c : Config) : Prop where
  lines : c.maxSummariesPerFile ≠ 0
  fileSize : c.maxFileSize ≠ 0
  asked : c.extensions ≠ []
  dotted : ∀ e ∈ c.extensions, ∃ r, r ≠ [] ∧ e = '.' :: r

theorem goodExtension_iff {e : Text} : goodExtension e = true ↔ ∃ r, r ≠ [] ∧ e = '.' :: r := by
  cases e with
  | nil => simp [goodExtension]
  | cons c r => cases r <;> simp [goodExtension, eq_comm]

/-- The configurations without a fault are those that can be used. -/
theorem isValid_iff {c : Config} : c.isValid = true ↔ c.Usable := by
  have hdotted : (c.extensions.find? fun e => !goodExtension e) = none ↔
      ∀ e ∈ c.extensions, ∃ r, r ≠ [] ∧ e = '.' :: r := by
    simp [List.find?_eq_none, goodExtension_iff]
  rw [isValid, fault?]
  split
  · rename_i hlines
    exact iff_of_false Bool.false_ne_true fun h => h.lines hlines
  split
  · rename_i hsize
    exact iff_of_false Bool.false_ne_true fun h => h.fileSize hsize
  split
  · rename_i hnone
    exact iff_of_false Bool.false_ne_true fun h => h.asked hnone
  · rename_i hlines hsize hasked
    rw [Option.isNone_map, Option.isNone_iff_eq_none, hdotted]
    exact ⟨fun h => ⟨hlines, hsize, hasked, h⟩, fun h => h.dotted⟩

end Config

/-! ### Discovery -/

theorem Store.hasDirectory_iff {s : Store} {p : Path} :
    s.hasDirectory p = true ↔ ∃ position entries, s.get p = .ok (position, .dir entries) := by
  unfold hasDirectory
  cases s.get p with
  | error e => simp
  | ok found =>
    obtain ⟨names, e⟩ := found
    cases e <;> simp

/-- Discovery succeeds below a directory, with patterns that can be read. -/
theorem exists_discover_iff {store : Store} {root : Path} {config : Config} :
    (∃ paths, discover store root config = .ok paths) ↔ store.hasDirectory root = true ∧
      ∀ t ∈ config.excludePatterns, ∃ g, Glob.parse t = .ok g := by
  rw [Store.hasDirectory_iff, ← exists_readPatterns_iff]
  constructor
  · rintro ⟨paths, h⟩
    obtain ⟨position, entries, excludes, hroot, hexcludes, -⟩ := discover_ok_iff.1 h
    exact ⟨⟨position, entries, hroot⟩, excludes, hexcludes⟩
  · rintro ⟨⟨position, entries, hroot⟩, excludes, hexcludes⟩
    exact ⟨_, discover_ok_iff.2 ⟨position, entries, excludes, hroot, hexcludes, rfl⟩⟩

/-! ### Scans -/

namespace ScanChoices

/-- A scan without further choices. -/
def plain (path : Option Path) : ScanChoices := ⟨path, false, false, none, false, false, none⟩

/-- The choice of a limit and of nothing else. -/
def limited (n : UInt64) : ScanChoices := { plain none with max := some n }

/-- `config` is the configuration `loaded` of a file, with the choices of the command line over
it. -/
structure Overlays (c : ScanChoices) (loaded config : Config) : Prop where
  /-- A limit of the command line takes the place of that of the file. -/
  max : config.maxSummariesPerFile = c.max.getD loaded.maxSummariesPerFile
  /-- Either of the two can ask for call sites. -/
  calls : config.includeCalls = (loaded.includeCalls || c.calls)
  parallel : config.parallel = (loaded.parallel || c.parallel)
  /-- All else is as the file has it. -/
  others : { config with
    maxSummariesPerFile := loaded.maxSummariesPerFile
    includeCalls := loaded.includeCalls
    parallel := loaded.parallel } = loaded

theorem overlays_iff {c : ScanChoices} {loaded config : Config} :
    c.Overlays loaded config ↔ config = c.override loaded := by
  constructor
  · rintro ⟨hmax, hcalls, hparallel, hothers⟩
    rw [override, ← hmax, ← hcalls, ← hparallel, ← hothers]
  · rintro rfl
    exact ⟨rfl, rfl, rfl, rfl⟩

/-- No choice of the command line concerns the exclude patterns. -/
theorem Overlays.excludePatterns {c : ScanChoices} {loaded config : Config}
    (h : c.Overlays loaded config) : config.excludePatterns = loaded.excludePatterns := by
  rw [overlays_iff.1 h]
  rfl

/-- Why a scan is refused. -/
inductive Refused (c : ScanChoices) (s : Store) : Prop where
  /-- What the configuration path leads to has no text. -/
  | unreadable (h : Config.Unreadable s c.configPath)
  /-- The configuration, with the choices of the command line over it, cannot be used. -/
  | invalid (config : Config) (overlays : c.Overlays (Config.ofFile s c.configPath) config)
      (h : ¬config.Usable)
  /-- The root is no directory. -/
  | notDirectory (h : s.hasDirectory c.root = false)
  /-- An exclude pattern cannot be read. -/
  | badPattern (t : Text) (mem : t ∈ (Config.ofFile s c.configPath).excludePatterns)
      (fault : GlobFault) (h : Glob.parse t = .error fault)

theorem not_refused_iff {c : ScanChoices} {s : Store} :
    ¬c.Refused s ↔ ¬Config.Unreadable s c.configPath ∧
      (∃ config, c.Overlays (Config.ofFile s c.configPath) config ∧ config.Usable) ∧
      s.hasDirectory c.root = true ∧
      ∀ t ∈ (Config.ofFile s c.configPath).excludePatterns, ∃ g, Glob.parse t = .ok g := by
  constructor
  · intro hnot
    refine ⟨fun h => hnot (.unreadable h), ⟨_, overlays_iff.2 rfl, ?_⟩, ?_, ?_⟩
    · exact Classical.not_not.1 fun h => hnot (.invalid _ (overlays_iff.2 rfl) h)
    · exact eq_true_of_ne_false fun h => hnot (.notDirectory h)
    · intro t ht
      cases hparse : Glob.parse t with
      | error fault => exact absurd (.badPattern t ht fault hparse) hnot
      | ok g => exact ⟨g, rfl⟩
  · rintro ⟨hread, ⟨config, hoverlays, husable⟩, hroot, hpatterns⟩ hrefused
    cases hrefused with
    | unreadable h => exact hread h
    | invalid config' overlays h =>
      -- both configurations are the file's with the same choices over it
      rw [overlays_iff.1 overlays, ← overlays_iff.1 hoverlays] at h
      exact h husable
    | notDirectory h =>
      rw [hroot] at h
      cases h
    | badPattern t mem fault h =>
      obtain ⟨g, hg⟩ := hpatterns t mem
      rw [hg] at h
      cases h

theorem effectiveConfig_eq_ok_iff {c : ScanChoices} {s : Store} {config : Config} :
    c.effectiveConfig s = .ok config ↔ ¬Config.Unreadable s c.configPath ∧
      c.Overlays (Config.ofFile s c.configPath) config ∧ config.Usable := by
  rw [effectiveConfig_ok_iff]
  simp only [Config.load_ok_iff, overlays_iff, Config.isValid_iff]
  constructor
  · rintro ⟨loaded, ⟨hread, rfl⟩, hconfig⟩
    exact ⟨hread, hconfig⟩
  · rintro ⟨hread, hconfig⟩
    exact ⟨_, ⟨hread, rfl⟩, hconfig⟩

/-- **A scan that is not refused has its summaries**, whatever the files hold. -/
theorem exists_summaries_iff {c : ScanChoices} {s : Store} :
    (∃ fs, c.summaries s = .ok fs) ↔ ¬c.Refused s := by
  simp only [summaries_ok_iff, not_refused_iff]
  constructor
  · rintro ⟨fs, config, files, hconfig, hdiscover, -⟩
    obtain ⟨hread, hoverlays, husable⟩ := effectiveConfig_eq_ok_iff.1 hconfig
    obtain ⟨hroot, hpatterns⟩ := exists_discover_iff.1 ⟨files, hdiscover⟩
    rw [hoverlays.excludePatterns] at hpatterns
    exact ⟨hread, ⟨config, hoverlays, husable⟩, hroot, hpatterns⟩
  · rintro ⟨hread, ⟨config, hoverlays, husable⟩, hroot, hpatterns⟩
    rw [← hoverlays.excludePatterns] at hpatterns
    obtain ⟨files, hfiles⟩ := exists_discover_iff.2 ⟨hroot, hpatterns⟩
    exact ⟨_, config, files, effectiveConfig_eq_ok_iff.2 ⟨hread, hoverlays, husable⟩, hfiles, rfl⟩

end ScanChoices

namespace Outcome

/-- **A scan that writes text fails for four reasons and no other.**  It ends with the code one, and
nothing printed, if what its configuration path leads to has no text, if its configuration cannot be
used, if its root is no directory, or if one of its exclude patterns cannot be read.  Otherwise it
ends with the code zero, whatever the files below the root hold. -/
theorem scan_fails_iff (s : Store) (c : ScanChoices) (hjson : c.json = false) :
    let result := (ofRequest s (.run (.scan c))).1
    (result.code = 1 ↔ c.Refused s) ∧ (result.code = 0 ↔ ¬c.Refused s) ∧
      (result.code = 1 → result.stdout = []) := by
  intro result
  cases hsummaries : c.summaries s with
  | error e =>
    have hresult : result = ⟨1, [], some ("Error: ".toList ++ e.message)⟩ :=
      congrArg Prod.fst (ofRequest_scan_of_no_summaries hsummaries)
    have hrefused : c.Refused s := by
      by_contra hnot
      obtain ⟨fs, hfs⟩ := ScanChoices.exists_summaries_iff.2 hnot
      rw [hsummaries] at hfs
      cases hfs
    rw [hresult]
    exact ⟨iff_of_true rfl hrefused, iff_of_false one_ne_zero (not_not_intro hrefused),
      fun _ => rfl⟩
  | ok fs =>
    have hresult : result = ⟨0, printed (insights c.root fs), none⟩ :=
      congrArg Prod.fst (ofRequest_scan_of_summaries hjson hsummaries)
    have hnot : ¬c.Refused s := ScanChoices.exists_summaries_iff.1 ⟨fs, hsummaries⟩
    rw [hresult]
    exact ⟨iff_of_false zero_ne_one hnot, iff_of_true rfl hnot, fun h => absurd h zero_ne_one⟩

open IgnoreLevel (nameOf)

/-- A configuration file that allows no lines. -/
def linelessEntries : List (List Bytes × Entry) :=
  [([nameOf "codebrief.json"],
    .file ⟨nameOf "\x7b\"max_summaries_per_file\": 0\x7d", none⟩)]

/-- A limit of zero is refused, on the command line and in the file.  That of the file does not count
if the command line gives one, or names another file. -/
theorem scan_fails_iff_limits :
    Request.ofArguments ["scan".toList, "--max".toList, "0".toList] = .run (.scan (.limited 0)) ∧
      (ofRequest .empty (.run (.scan (.limited 0)))).1.code = 1 ∧
      ¬(ScanChoices.plain none).Refused .empty ∧
      (ofRequest (.made linelessEntries) (.run (.scan (.plain none)))).1.code = 1 ∧
      ¬(ScanChoices.limited 5).Refused (.made linelessEntries) ∧
      ¬({ ScanChoices.plain none with config := some (.ofString "other.json") }).Refused
        (.made linelessEntries) ∧
      (ofRequest .empty (.run (.scan (.plain (some (.ofString "nope")))))).1.code = 1 := by
  have hempty : Config.ofFile .empty (ScanChoices.limited 0).configPath = .standard := by cbv
  have hlineless : Config.ofFile (.made linelessEntries) (ScanChoices.plain none).configPath =
      { maxSummariesPerFile := 0 } := by cbv
  refine ⟨by decide +kernel, ?_, ?_, ?_, ?_, ?_, ?_⟩
  · apply (scan_fails_iff .empty (.limited 0) rfl).1.2
    refine .invalid { maxSummariesPerFile := 0 } ?_ fun h => h.lines rfl
    rw [hempty]
    exact ⟨rfl, rfl, rfl, rfl⟩
  · exact (scan_fails_iff .empty (.plain none) rfl).2.1.1 (by cbv)
  · apply (scan_fails_iff (.made linelessEntries) (.plain none) rfl).1.2
    refine .invalid { maxSummariesPerFile := 0 } ?_ fun h => h.lines rfl
    rw [hlineless]
    exact ⟨rfl, rfl, rfl, rfl⟩
  · exact (scan_fails_iff (.made linelessEntries) (.limited 5) rfl).2.1.1 (by cbv)
  · exact (scan_fails_iff (.made linelessEntries) _ rfl).2.1.1 (by cbv)
  · exact (scan_fails_iff .empty (.plain _) rfl).1.2 (.notDirectory (by cbv))

end Outcome

end Outline
