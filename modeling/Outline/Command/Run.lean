import Outline.Command.Arguments
import Outline.Config.File
import Outline.Discovery
import Outline.Insight
import Outline.Priority

/-!
# Runs

What a command does to a store, and what it prints.

* `RunError` — why a command fails;
* `ScanChoices.effectiveConfig` — the configuration of a scan: that of its file with the
  choices of the command line over it;
* `ScanChoices.summaries` — the files of a scan and their summaries;
* `Command.run` — the text that a command prints, and the store afterwards;
* `Outcome.ofArguments` — the exit code and the output of a run, misuse included.

Only `init` changes the store, and only where nothing is.
-/

namespace Outline

/-- Why a command fails. -/
inductive RunError where
  | configFile (e : ConfigFileError)
  | invalidConfig (f : ConfigFault)
  | discovery (e : DiscoveryError)
  /-- A path that is no text cannot be written as JSON. -/
  | pathNotText
  | exists (p : Path)
deriving DecidableEq

def RunError.message : RunError → Text
  | .configFile e => e.message
  | .invalidConfig f => "invalid configuration: ".toList ++ f.message
  | .discovery e => e.fullMessage
  | .pathNotText => "failed to serialize: path contains invalid UTF-8 characters".toList
  | .exists p => p.display ++ " already exists".toList

/-! ### Scanning -/

namespace ScanChoices

def root (c : ScanChoices) : Path := c.path.getD (Path.ofString ".")

def configPath (c : ScanChoices) : Path := c.config.getD (c.root.join ⟨Text.utf8 Config.fileName⟩)

/-- A configuration with the choices of the command line over it. -/
def override (c : ScanChoices) (config : Config) : Config :=
  { config with
    maxSummariesPerFile := c.max.getD config.maxSummariesPerFile
    includeCalls := config.includeCalls || c.calls
    parallel := config.parallel || c.parallel }

def effectiveConfig (c : ScanChoices) (s : Store) : Except RunError Config :=
  match Config.load s c.configPath with
  | .error e => .error (.configFile e)
  | .ok config =>
    let config := c.override config
    match config.fault? with
    | some f => .error (.invalidConfig f)
    | none => .ok config

/-- The files of a scan that are summarized, and their summaries. -/
def summaries (c : ScanChoices) (s : Store) : Except RunError (List FileSummary) :=
  match c.effectiveConfig s with
  | .error e => .error e
  | .ok config =>
    match discover s c.root config with
    | .error e => .error (.discovery e)
    | .ok files =>
      let chosen :=
        if c.all then files else prioritize files c.root config.otherFilesLimit.toNat
      .ok (FileSummary.ofPaths s config.summaryOptions chosen)

/-- A scan goes by the configuration of its file with the choices over it, if that can be used. -/
theorem effectiveConfig_ok_iff {c : ScanChoices} {s : Store} {config : Config} :
    c.effectiveConfig s = .ok config ↔ ∃ loaded, Config.load s c.configPath = .ok loaded ∧
      config = c.override loaded ∧ config.isValid = true := by
  unfold effectiveConfig
  cases Config.load s c.configPath with
  | error e => simp
  | ok loaded =>
    cases hf : (c.override loaded).fault? with
    | some f =>
      simp only [hf, reduceCtorEq, Except.ok.injEq, false_iff]
      rintro ⟨_, rfl, rfl, hvalid⟩
      rw [Config.isValid, hf] at hvalid
      cases hvalid
    | none =>
      simp only [hf, Except.ok.injEq]
      constructor
      · rintro rfl
        exact ⟨loaded, rfl, rfl, by rw [Config.isValid, hf]; rfl⟩
      · rintro ⟨_, rfl, rfl, -⟩
        rfl

theorem summaries_ok_iff {c : ScanChoices} {s : Store} {fs : List FileSummary} :
    c.summaries s = .ok fs ↔ ∃ config files, c.effectiveConfig s = .ok config ∧
      discover s c.root config = .ok files ∧ fs = FileSummary.ofPaths s config.summaryOptions
        (if c.all then files else prioritize files c.root config.otherFilesLimit.toNat) := by
  unfold summaries
  cases c.effectiveConfig s with
  | error e => simp
  | ok config =>
    simp only [Except.ok.injEq, exists_eq_left', exists_and_left]
    cases discover s c.root config with
    | error e => simp
    | ok files => simp only [Except.ok.injEq, exists_eq_left', eq_comm]

/-- The files that are summarized are among those that were found. -/
theorem mem_of_mem_chosen {c : ScanChoices} {files : List Path} {limit : Nat} {p : Path}
    (h : p ∈ if c.all then files else prioritize files c.root limit) : p ∈ files := by
  split at h
  · exact h
  · exact mem_of_mem_prioritize h

end ScanChoices

/-! ### Output -/

/-- A text on lines of its own; nothing for the empty text. -/
def printed (t : Text) : Text := if t = [] then [] else t ++ ['\n']

/-- A summary as a JSON object; its path must be a text. -/
def FileSummary.toJson? (f : FileSummary) : Option Json :=
  (Utf8.decode? f.path.bytes).map fun path =>
    .object [("path".toList, .string path),
      ("summaries".toList, match f.lines with
        | none => .null
        | some lines => .array (lines.map .string))]

def summariesToJson? (fs : List FileSummary) : Option Json :=
  (fs.mapM FileSummary.toJson?).map .array

/-- A text filled up with blanks to a width. -/
def padded (width : Nat) (t : Text) : Text := t ++ List.replicate (width - t.length) ' '

/-- The lines that list a language: its name, extensions and backend, and the kinds if it has
any. -/
def Language.listing (l : Language) : Text :=
  padded 12 l.name.toList ++ ' ' :: padded 28 ([' '].intercalate l.extensions)
    ++ ' ' :: l.backend.description.toList ++ '\n' ::
    if l.kinds = [] then []
    else padded 12 [] ++ ' ' :: [',', ' '].intercalate (l.kinds.map String.toList) ++ ['\n']

def Registry.listing (r : Registry) : Text := r.languages.flatMap Language.listing

/-! ### Commands -/

namespace Command

/-- What a scan prints. -/
def scanned (c : ScanChoices) (s : Store) : Except RunError Text :=
  match c.summaries s with
  | .error e => .error e
  | .ok fs =>
    if c.json then
      match summariesToJson? fs with
      | some v => .ok (v.pretty ++ ['\n'])
      | none => .error .pathNotText
    else .ok (printed (insights c.root fs))

/-- Without the wish for JSON the insights are printed. -/
theorem scanned_text {c : ScanChoices} (h : c.json = false) (s : Store) :
    scanned c s = (c.summaries s).map fun fs => printed (insights c.root fs) := by
  unfold scanned
  rw [h]
  cases c.summaries s <;> rfl

/-- The configuration file that `init` writes. -/
def initPath (path : Option Path) : Path :=
  (path.getD (Path.ofString ".")).join ⟨Text.utf8 Config.fileName⟩

/-- What `init` prints, and the store with the new file. -/
def initialized (path : Option Path) (s : Store) : Except RunError (Text × Store) :=
  let p := initPath path
  if s.has p then .error (.exists p)
  else match Config.standard.save s p with
    | .ok s => .ok ("Wrote ".toList ++ p.display ++ ['\n'], s)
    | .error e => .error (.configFile e)

theorem initialized_ok_iff {path : Option Path} {s s' : Store} {out : Text} :
    initialized path s = .ok (out, s') ↔ s.has (initPath path) = false ∧
      Config.standard.save s (initPath path) = .ok s' ∧
      out = "Wrote ".toList ++ (initPath path).display ++ ['\n'] := by
  simp only [initialized]
  cases s.has (initPath path) with
  | true => simp
  | false =>
    cases Config.standard.save s (initPath path) with
    | error e => simp
    | ok made => simp [and_comm, eq_comm]

/-- What a command prints, and the store afterwards. -/
def run (c : Command) (s : Store) : Except RunError (Text × Store) :=
  match c with
  | .scan choices => (scanned choices s).map fun t => (t, s)
  | .languages => .ok (Registry.standard.listing, s)
  | .init path => initialized path s

end Command

/-- What can be seen of a run. -/
structure Outcome where
  code : Nat
  stdout : Text
  error : Option Text
deriving DecidableEq

namespace Outcome

def version : Text := "codebrief 0.3.0\n".toList

/-- What can be seen of a request, and the store afterwards. -/
def ofRequest (s : Store) : Request → Outcome × Store
  | .run c =>
    match c.run s with
    | .ok (out, s') => (⟨0, out, none⟩, s')
    | .error e => (⟨1, [], some ("Error: ".toList ++ e.message)⟩, s)
  | .version => (⟨0, version, none⟩, s)
  | .help => (⟨0, [], none⟩, s)
  | .misuse => (⟨2, [], none⟩, s)

/-- What can be seen of a run with arguments, and the store afterwards. -/
def ofArguments (s : Store) (args : List Text) : Outcome × Store :=
  ofRequest s (Request.ofArguments args)

/-- The outcomes of runs one after the other, each with the store that it leaves. -/
def ofRuns (s : Store) : List (List Text) → List (Outcome × Store)
  | [] => []
  | args :: runs =>
    let result := ofArguments s args
    result :: ofRuns result.2 runs

theorem ofRequest_scan_of_ok {s : Store} {c : ScanChoices} {out : Text}
    (h : Command.scanned c s = .ok out) : ofRequest s (.run (.scan c)) = (⟨0, out, none⟩, s) := by
  simp only [ofRequest, Command.run, h, Except.map]

theorem ofRequest_scan_of_error {s : Store} {c : ScanChoices} {e : RunError}
    (h : Command.scanned c s = .error e) :
    ofRequest s (.run (.scan c)) = (⟨1, [], some ("Error: ".toList ++ e.message)⟩, s) := by
  simp only [ofRequest, Command.run, h, Except.map]

/-- A scan that has no summaries fails, in whatever form they were to be written. -/
theorem ofRequest_scan_of_no_summaries {s : Store} {c : ScanChoices} {e : RunError}
    (h : c.summaries s = .error e) :
    ofRequest s (.run (.scan c)) = (⟨1, [], some ("Error: ".toList ++ e.message)⟩, s) :=
  ofRequest_scan_of_error (by rw [Command.scanned, h])

/-- A scan without the wish for JSON prints the insights of its summaries. -/
theorem ofRequest_scan_of_summaries {s : Store} {c : ScanChoices} {fs : List FileSummary}
    (hjson : c.json = false) (h : c.summaries s = .ok fs) :
    ofRequest s (.run (.scan c)) = (⟨0, printed (insights c.root fs), none⟩, s) :=
  ofRequest_scan_of_ok (by rw [Command.scanned_text hjson, h]; rfl)

/-- A request that does not end well changes nothing. -/
theorem store_ofRequest_of_code_ne_zero {s : Store} {r : Request}
    (h : (ofRequest s r).1.code ≠ 0) : (ofRequest s r).2 = s := by
  cases r with
  | run c =>
    simp only [ofRequest] at h ⊢
    split at h <;> simp_all
  | version => rfl
  | help => rfl
  | misuse => rfl

end Outcome

end Outline
