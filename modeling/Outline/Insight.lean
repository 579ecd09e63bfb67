import Outline.Store
import Outline.Summary
import Outline.Text.Quoted

/-!
# Insights

Summaries of files, and the text that a reader is given.

* `SummaryError` — why a file has no summary;
* `FileSummary.trySummarize`, `FileSummary.ofPath`, `FileSummary.ofPaths` — the summary of a
  file with the reason if there is none, without it, and those of a list of files;
* `insights` — the summaries as text: a block a file that says something, headed by its path
  below the root.
-/

namespace Outline

/-- Why a file has no summary. -/
inductive SummaryError where
  /-- No language has the extension. -/
  | unsupported (extension : Text)
  | unreadable (e : IoError)
deriving DecidableEq

def SummaryError.message : SummaryError → Text
  | .unsupported e => "unsupported extension: ".toList ++ Text.quoted e
  | .unreadable e => "read failed: ".toList ++ e.message

/-- What is known of a file: nothing, if its language is unknown or it cannot be read. -/
structure FileSummary where
  path : Path
  lines : Option (List Text)
deriving DecidableEq

namespace FileSummary

/-- The lines of a file.  Its language is settled before it is read. -/
def trySummarize (s : Store) (o : SummaryOptions) (p : Path) : Except SummaryError (List Text) :=
  match Registry.standard.lookupPath? p with
  | none => .error (.unsupported (Utf8.decodeLossy (p.extension?.getD [])))
  | some l =>
    match s.readText p with
    | .error e => .error (.unreadable e)
    | .ok (t, f) => .ok (Summary.ofSource l t f.tree o)

def ofPath (s : Store) (o : SummaryOptions) (p : Path) : FileSummary :=
  ⟨p, (trySummarize s o p).toOption⟩

/-- The summaries of files, in their order. -/
def ofPaths (s : Store) (o : SummaryOptions) (ps : List Path) : List FileSummary :=
  ps.map (ofPath s o)

/-- The block of a file that says something. -/
def block? (root : Path) (f : FileSummary) : Option Text :=
  match f.lines with
  | none | some [] => none
  | some lines =>
    some ("📄 ".toList ++ f.path.relative root ++ lines.flatMap fun l => "\n- ".toList ++ l)

end FileSummary

/-- The blocks of the files that say something, with an empty line between neighbours. -/
def insights (root : Path) (fs : List FileSummary) : Text :=
  ['\n', '\n'].intercalate (fs.filterMap (·.block? root))

/-- One summary a path, in the order of the paths. -/
theorem FileSummary.map_path_ofPaths (s : Store) (o : SummaryOptions) (ps : List Path) :
    (ofPaths s o ps).map (·.path) = ps := by
  simp [ofPaths, ofPath, Function.comp_def]

end Outline
