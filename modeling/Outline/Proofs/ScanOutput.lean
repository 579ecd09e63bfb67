import Outline.Proofs.ConfigFiles
import Outline.Proofs.ScanFailures

/-!
# What a scan prints

The two forms in which a scan writes its summaries, the insight text and JSON.

* `summariesOfJson?` — the summaries that a JSON value stands for;
* `summariesOfJson?_toJson`, `parse?_printed` — what a scan prints as JSON stands for its summaries;
* `exists_summariesToJson_iff` — summaries can be written as JSON if their paths are texts;
* `ScanChoices.isText_of_summaries` — where all names are texts, so are the paths of a scan;
* `Outcome.insights_of_json_scan` — the insights can be had from the JSON;
* `Outcome.json_scan_ends_well_iff` — with one path that is no text there is no JSON at all.
-/

namespace Outline

open IgnoreLevel (nameOf)
open Utf8 (IsText)

/-! ### Summaries as JSON -/

namespace FileSummary

/-- The lines that a value stands for: an array of them, or null where nothing is known. -/
def linesOfJson? : Json → Option (Option (List Text))
  | .null => some none
  | v => v.strings?.map some

/-- The summary that an object of a path and lines stands for. -/
def ofJson? : Json → Option FileSummary
  | .object [(path, .string p), (summaries, lines)] =>
    if path = "path".toList ∧ summaries = "summaries".toList then
      (linesOfJson? lines).map fun ls => ⟨.ofText p, ls⟩
    else none
  | _ => none

/-- The value of lines. -/
def linesToJson : Option (List Text) → Json
  | none => .null
  | some lines => Config.stringsToJson lines

theorem linesOfJson?_linesToJson (lines : Option (List Text)) :
    linesOfJson? (linesToJson lines) = some lines := by
  cases lines with
  | none => rfl
  | some lines => exact congrArg (Option.map some) (Config.strings?_stringsToJson lines)

theorem plain_linesToJson (lines : Option (List Text)) : (linesToJson lines).Plain := by
  cases lines with
  | none => exact .null
  | some lines => exact Config.plain_stringsToJson lines

variable {f : FileSummary} {v : Json}

/-- A summary is written with the text of its path. -/
theorem toJson?_eq_some_iff : f.toJson? = some v ↔ ∃ t : Text, f.path.bytes = t.utf8 ∧
    v = .object [("path".toList, .string t), ("summaries".toList, linesToJson f.lines)] := by
  have hwritten : f.toJson? = (Utf8.decode? f.path.bytes).map fun t =>
      .object [("path".toList, .string t), ("summaries".toList, linesToJson f.lines)] := by
    obtain ⟨p, lines⟩ := f
    cases lines <;> rfl
  rw [hwritten, Option.map_eq_some_iff]
  exact exists_congr fun t => and_congr Utf8.decode?_eq_some_iff_eq_utf8 eq_comm

theorem exists_toJson_iff : (∃ v, f.toJson? = some v) ↔ IsText f.path.bytes := by
  simp only [toJson?_eq_some_iff]
  constructor
  · rintro ⟨v, t, ht, -⟩
    exact ⟨t, ht⟩
  · rintro ⟨t, ht⟩
    exact ⟨_, t, ht, rfl⟩

/-- **A written summary stands for that summary.** -/
theorem ofJson?_toJson (h : f.toJson? = some v) : ofJson? v = some f := by
  obtain ⟨t, ht, rfl⟩ := toJson?_eq_some_iff.1 h
  have hpath : Path.ofText t = f.path := by rw [Path.ofText, ← ht]
  rw [ofJson?, if_pos ⟨rfl, rfl⟩, linesOfJson?_linesToJson, Option.map_some, hpath]

theorem plain_of_toJson (h : f.toJson? = some v) : v.Plain := by
  obtain ⟨t, -, rfl⟩ := toJson?_eq_some_iff.1 h
  refine .object fun m hm => ?_
  obtain rfl | hm := List.mem_cons.1 hm
  · exact .string t
  · rw [List.mem_singleton.1 hm]
    exact plain_linesToJson f.lines

end FileSummary

/-- The summaries that an array stands for. -/
def summariesOfJson? (v : Json) : Option (List FileSummary) :=
  v.array?.bind fun items => items.mapM FileSummary.ofJson?

section

variable {fs : List FileSummary} {v : Json}

/-- Summaries can be written as JSON if their paths are texts. -/
theorem exists_summariesToJson_iff :
    (∃ v, summariesToJson? fs = some v) ↔ ∀ f ∈ fs, IsText f.path.bytes := by
  have hitems : (∃ v, summariesToJson? fs = some v) ↔
      ∃ items, fs.mapM FileSummary.toJson? = some items := by
    simp [summariesToJson?]
  rw [hitems, exists_mapM_iff]
  exact forall₂_congr fun f _ => FileSummary.exists_toJson_iff

/-- **Written summaries stand for those summaries**, in their order. -/
theorem summariesOfJson?_toJson (h : summariesToJson? fs = some v) :
    summariesOfJson? v = some fs ∧ v.Plain := by
  obtain ⟨items, hitems, rfl⟩ := Option.map_eq_some_iff.1 h
  refine ⟨mapM_of_inverse (fun f v hf => FileSummary.ofJson?_toJson hf) hitems, .array ?_⟩
  intro item hitem
  have hsome : some item ∈ fs.map FileSummary.toJson? := by
    rw [mapM_eq_some_iff.1 hitems]
    exact List.mem_map_of_mem hitem
  obtain ⟨f, -, hf⟩ := List.mem_map.1 hsome
  exact FileSummary.plain_of_toJson hf

/-- What is printed stands for the value, as only a line break is behind it. -/
theorem parse?_printed (h : v.Plain) : Json.parse? (v.pretty ++ ['\n']) = some v := by
  apply Json.parse?_pretty_append h
  rw [List.forall_mem_singleton]
  rfl

end

/-! ### Paths that are texts -/

/-- A path below a root is a text if the root and all names are. -/
theorem Path.isText_below {root : Path} (hroot : IsText root.bytes) {names : List Bytes}
    (hnames : ∀ n ∈ names, IsText n) : IsText (root.below names).bytes := by
  induction names using List.reverseRecOn with
  | nil => exact hroot
  | append_singleton names name ih =>
    obtain ⟨hfront, hname⟩ := List.forall_mem_append.1 hnames
    have hname := hname name List.mem_cons_self
    rw [below_concat, join]
    split
    · exact hname
    split
    · exact (ih hfront).append hname
    · have hslash : IsText [slash] := ⟨['/'], rfl⟩
      exact (ih hfront).append (hslash.append hname)

/-- Whether every name that leads to an entry of a store is a text. -/
def Store.NamesAreText (s : Store) : Prop :=
  ∀ names e, s.find? names = some e → ∀ n ∈ names, IsText n

theorem Store.namesAreText_made {l : List (List Bytes × Entry)} (h : Compatible l)
    (hnames : ∀ m ∈ l, ∀ n ∈ m.1, IsText n) : (made l).NamesAreText := by
  intro names e he n hn
  have hdescribes := describes_shown?_made h names
  rw [shown?, he, Option.map_some] at hdescribes
  generalize e.closed = shown at hdescribes
  cases hdescribes with
  | entry mem => exact hnames _ mem n hn
  | directory above =>
    obtain rfl | ⟨m, hm, hpre⟩ := above
    · cases hn
    · exact hnames m hm n (hpre.subset hn)

theorem isText_of_discovered {s : Store} {root p : Path} {config : Config} {paths : List Path}
    (hs : s.WellFormed) (hnames : s.NamesAreText) (hroot : IsText root.bytes)
    (h : discover s root config = .ok paths) (hp : p ∈ paths) : IsText p.bytes := by
  obtain ⟨position, entries, -, hget, -⟩ := discover_ok_iff.1 h
  obtain ⟨names, f, rfl, hne, hproper, hfile, -⟩ := exists_names_of_discovered hs hget h hp
  have hfind := ((Store.get_below hget hne hproper).1 hfile).2
  exact Path.isText_below hroot (List.forall_mem_append.1 (hnames _ _ hfind)).2

/-- Where all names are texts, so are the paths of a scan. -/
theorem ScanChoices.isText_of_summaries {s : Store} {c : ScanChoices} {fs : List FileSummary}
    (hs : s.WellFormed) (hnames : s.NamesAreText) (hroot : IsText c.root.bytes)
    (h : c.summaries s = .ok fs) : ∀ f ∈ fs, IsText f.path.bytes := by
  obtain ⟨config, files, -, hdiscover, rfl⟩ := summaries_ok_iff.1 h
  intro f hf
  obtain ⟨p, hp, rfl⟩ := List.mem_map.1 hf
  exact isText_of_discovered hs hnames hroot hdiscover (mem_of_mem_chosen hp)

/-! ### The two forms -/

namespace Outcome

/-- A scan that ends well has summaries. -/
theorem exists_summaries_of_code {s : Store} {c : ScanChoices}
    (hcode : (ofRequest s (.run (.scan c))).1.code = 0) : ∃ fs, c.summaries s = .ok fs := by
  cases hsummaries : c.summaries s with
  | error e =>
    rw [ofRequest_scan_of_no_summaries hsummaries] at hcode
    cases hcode
  | ok fs => exact ⟨fs, rfl⟩

/-- A scan that writes JSON prints its summaries, or fails if one of their paths is no text. -/
theorem ofRequest_json_scan {s : Store} {c : ScanChoices} {fs : List FileSummary}
    (h : c.summaries s = .ok fs) :
    (ofRequest s (.run (.scan { c with json := true }))).1 = match summariesToJson? fs with
      | some v => ⟨0, v.pretty ++ ['\n'], none⟩
      | none => ⟨1, [], some ("Error: ".toList ++ RunError.pathNotText.message)⟩ := by
  have hsummaries : ({ c with json := true } : ScanChoices).summaries s = .ok fs := h
  have hscanned : Command.scanned { c with json := true } s = match summariesToJson? fs with
      | some v => .ok (v.pretty ++ ['\n'])
      | none => .error .pathNotText := by
    rw [Command.scanned, hsummaries]
    rfl
  cases hv : summariesToJson? fs with
  | none =>
    rw [hv] at hscanned
    rw [ofRequest_scan_of_error hscanned]
  | some v =>
    rw [hv] at hscanned
    rw [ofRequest_scan_of_ok hscanned]

/-- **The insights can be had from the JSON.**  In a store where all names are texts, and with a
root that is one, a scan that ends well as text ends well as JSON too.  What it prints then is read
back as the very summaries of the scan, in their order, and their insights on lines of their own, or
nothing if there are none, are what the scan prints as text. -/
theorem insights_of_json_scan {s : Store} (hs : s.WellFormed) (hnames : s.NamesAreText)
    (c : ScanChoices) (hjson : c.json = false) (hroot : IsText c.root.bytes)
    (hcode : (ofRequest s (.run (.scan c))).1.code = 0) :
    let json := (ofRequest s (.run (.scan { c with json := true }))).1
    json.code = 0 ∧ ∃ fs, (Json.parse? json.stdout).bind summariesOfJson? = some fs ∧
      c.summaries s = .ok fs ∧ (ofRequest s (.run (.scan c))).1.stdout =
        if insights c.root fs = [] then [] else insights c.root fs ++ ['\n'] := by
  intro json
  obtain ⟨fs, hsummaries⟩ := exists_summaries_of_code hcode
  obtain ⟨v, hv⟩ := exists_summariesToJson_iff.2
    (ScanChoices.isText_of_summaries hs hnames hroot hsummaries)
  have hresult : json = ⟨0, v.pretty ++ ['\n'], none⟩ := by
    show (ofRequest s _).1 = _
    rw [ofRequest_json_scan hsummaries, hv]
  obtain ⟨hback, hplain⟩ := summariesOfJson?_toJson hv
  rw [hresult]
  refine ⟨rfl, fs, ?_, hsummaries, ?_⟩
  · rw [parse?_printed hplain, Option.bind_some, hback]
  · rw [ofRequest_scan_of_summaries hjson hsummaries]
    rfl

/-- Stylesheets: one has a quote in its name and in its text, the other's bytes are no text. -/
def quotedEntries : List (List Bytes × Entry) :=
  [([nameOf "a\".scss"], .file ⟨nameOf "p[\"é\"] \x7b\x7d", none⟩),
    ([nameOf "b.scss"], .file ⟨[0xFF], none⟩)]

theorem compatible_quotedEntries : Store.Compatible quotedEntries where
  named := by decide
  closed := by simp [quotedEntries, Entry.closed]
  apart := by simp [quotedEntries]; decide

theorem lookupPath?_scss {p : Path} (h : p.extension? = some (nameOf "scss")) :
    ∃ l, Registry.standard.lookupPath? p = some l ∧ l.backend = .stylesheet := by
  have hbackend : (Registry.standard.lookupPath? p).map (·.backend) = some .stylesheet := by
    rw [Registry.lookupPath?, h]
    decide +kernel
  exact Option.map_eq_some_iff.1 hbackend

theorem summaries_quoted : (ScanChoices.plain none).summaries (.made quotedEntries) = .ok
    [⟨.ofString "./a\".scss", some ["CSS Rule: p[\"é\"] (0 declarations)".toList]⟩,
      ⟨.ofString "./b.scss", none⟩] := by
  refine ScanChoices.summaries_ok_iff.2
    ⟨.standard, [.ofString "./a\".scss", .ofString "./b.scss"], by cbv, by cbv, ?_⟩
  have hchosen : prioritize [.ofString "./a\".scss", .ofString "./b.scss"]
      (ScanChoices.plain none).root Config.standard.otherFilesLimit.toNat =
        [.ofString "./a\".scss", .ofString "./b.scss"] := by cbv
  have hread : (Store.made quotedEntries).readText (.ofString "./a\".scss") =
      .ok ("p[\"é\"] \x7b\x7d".toList, ⟨nameOf "p[\"é\"] \x7b\x7d", none⟩) := by cbv
  have hnone : (Store.made quotedEntries).readText (.ofString "./b.scss") = .error .notText := by
    cbv
  have hlines : ["CSS Rule: p[\"é\"] (0 declarations)".toList] = Stylesheet.lines
      "p[\"é\"] \x7b\x7d".toList Config.standard.summaryOptions.maxLines := by decide +kernel
  obtain ⟨l, hl, hstyle⟩ := lookupPath?_scss (p := .ofString "./a\".scss") (by decide +kernel)
  obtain ⟨l', hl', -⟩ := lookupPath?_scss (p := .ofString "./b.scss") (by decide +kernel)
  rw [if_neg (by decide), hchosen, hlines]
  simp only [FileSummary.ofPaths, FileSummary.ofPath, FileSummary.trySummarize, List.map, hl, hread,
    hl', hnone]
  rw [Summary.ofSource, if_neg (by decide), hstyle]
  rfl

theorem insights_of_json_scan_quoted :
    let json := (ofRequest (.made quotedEntries)
      (.run (.scan { ScanChoices.plain none with json := true }))).1
    ∃ fs, (Json.parse? json.stdout).bind summariesOfJson? = some fs ∧
      insights (.ofString ".") fs =
        "📄 a\".scss\n- CSS Rule: p[\"é\"] (0 declarations)".toList := by
  have hcode := ofRequest_scan_of_summaries rfl summaries_quoted
  obtain ⟨-, fs, hback, hsummaries, -⟩ := insights_of_json_scan
    (Store.wellFormed_made compatible_quotedEntries)
    (Store.namesAreText_made compatible_quotedEntries (by decide +kernel)) (ScanChoices.plain none)
    rfl ⟨_, rfl⟩ (by rw [hcode])
  rw [summaries_quoted] at hsummaries
  cases hsummaries
  exact ⟨_, hback, by cbv⟩

/-- **One path that is no text leaves a scan without JSON.**  A scan that ends well, say as text,
ends well as JSON if all paths of its summaries are texts; what the files hold does not matter.
Otherwise it fails and prints nothing at all. -/
theorem json_scan_ends_well_iff {s : Store} (c : ScanChoices)
    (hcode : (ofRequest s (.run (.scan c))).1.code = 0) :
    let json := (ofRequest s (.run (.scan { c with json := true }))).1
    ∃ fs, c.summaries s = .ok fs ∧ (json.code = 0 ↔ ∀ f ∈ fs, IsText f.path.bytes) ∧
      (json.code ≠ 0 → json = ⟨1, [], some
        "Error: failed to serialize: path contains invalid UTF-8 characters".toList⟩) := by
  intro json
  obtain ⟨fs, hsummaries⟩ := exists_summaries_of_code hcode
  have hresult : json = _ := ofRequest_json_scan hsummaries
  refine ⟨fs, hsummaries, ?_⟩
  rw [← exists_summariesToJson_iff, hresult]
  cases summariesToJson? fs with
  | none =>
    refine ⟨iff_of_false one_ne_zero ?_, fun _ => rfl⟩
    rintro ⟨v, hv⟩
    cases hv
  | some v => exact ⟨iff_of_true rfl ⟨v, rfl⟩, fun h => absurd rfl h⟩

theorem json_scan_ends_well_iff_quoted :
    (ofRequest (.made quotedEntries)
      (.run (.scan { ScanChoices.plain none with json := true }))).1.code = 0 := by
  have hcode := ofRequest_scan_of_summaries rfl summaries_quoted
  obtain ⟨fs, hsummaries, hiff, -⟩ := json_scan_ends_well_iff (s := .made quotedEntries)
    (ScanChoices.plain none) (by rw [hcode])
  rw [summaries_quoted] at hsummaries
  cases hsummaries
  exact hiff.2 (by decide +kernel)

/-- A single file, of which the name is no text. -/
def brokenEntries : List (List Bytes × Entry) := [([0xFF :: nameOf ".rs"], .file ⟨[], none⟩)]

/-- A name that is no text ends a scan that writes JSON, but not one that writes text. -/
theorem json_scan_fails_broken :
    (ofRequest (.made brokenEntries) (.run (.scan (.plain none)))).1.code = 0 ∧
      (ofRequest (.made brokenEntries)
        (.run (.scan { ScanChoices.plain none with json := true }))).1.code = 1 := by
  have hsummaries : (ScanChoices.plain none).summaries (.made brokenEntries) =
      .ok [⟨⟨nameOf "./" ++ 0xFF :: nameOf ".rs"⟩, some []⟩] := by
    refine ScanChoices.summaries_ok_iff.2
      ⟨.standard, [⟨nameOf "./" ++ 0xFF :: nameOf ".rs"⟩], by cbv, by cbv, ?_⟩
    cbv
  have hjson : summariesToJson? [⟨⟨nameOf "./" ++ 0xFF :: nameOf ".rs"⟩, some []⟩] = none := by
    decide +kernel
  constructor
  · rw [ofRequest_scan_of_summaries rfl hsummaries]
  · rw [ofRequest_json_scan hsummaries, hjson]

end Outcome

end Outline
