import Outline.Command.Run
import Outline.Proofs.SourceOrder

/-!
# How many lines

The limit of a summary, from the nodes that are collected to the files of a scan.

* `Summary.length_treeLines_le`, `Summary.length_componentLines_le` — what is collected from a tree
  or put together for a component stays within the limit, as do the rules of a stylesheet
  (`Stylesheet.length_lines_le`);
* `Summary.length_ofSource_le` — so does every summary but a notice, for which nobody asks the
  limit;
* `FileSummary.length_le_of_ofPath` — the lines of a file, under a limit that leaves room for one;
* `lines_within_limit` — no summary is longer than its limit, and no file of a scan has more lines
  than its configuration allows.
-/

namespace Outline

namespace Summary

theorem length_treeLines_le (tree : Option Node) (source : Text) (kinds : List String)
    (o : SummaryOptions) : (treeLines tree source kinds o).length ≤ o.maxLines := by
  rw [treeLines_eq]
  exact (List.length_filterMap_le _ _).trans (List.length_take_le _ _)

theorem length_componentLines_le (l : Language) (source : Text) (tree : Option Node)
    (o : SummaryOptions) : (componentLines l source tree o).length ≤ o.maxLines :=
  List.length_take_le _ _

theorem ofSource_of_unavailable {l : Language} (hl : l.backend = .grammar false) (source : Text)
    (tree : Option Node) (o : SummaryOptions) :
    ofSource l source tree o = if source.blank then [] else [notice l] := by
  rw [ofSource, hl]

/-- **A summary stays within its limit** unless it is the notice that the grammar is missing. -/
theorem length_ofSource_le {l : Language} (hl : l.backend ≠ .grammar false) (source : Text)
    (tree : Option Node) (o : SummaryOptions) :
    (ofSource l source tree o).length ≤ o.maxLines := by
  unfold ofSource
  split
  · exact Nat.zero_le _
  · split
    · rename_i hgrammar
      exact absurd hgrammar hl
    · rw [List.length_map]
      exact length_treeLines_le _ _ _ _
    · exact Stylesheet.length_lines_le _ _
    · exact length_componentLines_le _ _ _ _

/-- The notice takes a place as any other line does. -/
theorem length_ofSource_le_of_pos (l : Language) (source : Text) (tree : Option Node)
    {o : SummaryOptions} (ho : 1 ≤ o.maxLines) : (ofSource l source tree o).length ≤ o.maxLines := by
  by_cases hl : l.backend = .grammar false
  · rw [ofSource_of_unavailable hl]
    split
    · exact Nat.zero_le _
    · exact ho
  · exact length_ofSource_le hl source tree o

/-- Without room for a line nothing is said but the notice. -/
theorem ofSource_of_zero (l : Language) (source : Text) (tree : Option Node) {o : SummaryOptions}
    (ho : o.maxLines = 0) : ofSource l source tree o =
      if source.blank = false ∧ l.backend = .grammar false then [notice l] else [] := by
  by_cases hl : l.backend = .grammar false
  · rw [ofSource_of_unavailable hl]
    cases source.blank <;> simp [hl]
  · rw [if_neg fun h => hl h.2]
    have hlen := length_ofSource_le hl source tree o
    rw [ho] at hlen
    exact List.length_eq_zero_iff.1 (Nat.le_zero.1 hlen)

end Summary

/-! ### Files -/

theorem FileSummary.length_le_of_ofPath {s : Store} {o : SummaryOptions} {p : Path}
    {lines : List Text} (ho : 1 ≤ o.maxLines) (h : (ofPath s o p).lines = some lines) :
    lines.length ≤ o.maxLines := by
  have htry : trySummarize s o p = .ok lines := by
    rw [ofPath] at h
    cases hresult : trySummarize s o p with
    | error e => rw [hresult] at h; cases h
    | ok found => rw [hresult] at h; cases h; rfl
  unfold trySummarize at htry
  split at htry
  · cases htry
  · split at htry
    · cases htry
    · cases htry
      exact Summary.length_ofSource_le_of_pos _ _ _ ho

/-- **No summary is longer than its limit.**  Under the limit zero only the notice of a missing
grammar is left.  In a scan, whose configuration is always one that can be used, no file has more
lines than the configuration allows. -/
theorem lines_within_limit (l : Language) (source : Text) (tree : Option Node)
    (o : SummaryOptions) (c : ScanChoices) (s : Store) :
    (1 ≤ o.maxLines → (Summary.ofSource l source tree o).length ≤ o.maxLines) ∧
    (o.maxLines = 0 → Summary.ofSource l source tree o =
      if source.blank = false ∧ l.backend = .grammar false then [Summary.notice l] else []) ∧
    ∀ fs, c.summaries s = .ok fs → ∃ config, c.effectiveConfig s = .ok config ∧
      config.isValid = true ∧ ∀ f ∈ fs, ∀ lines, f.lines = some lines →
        lines.length ≤ config.maxSummariesPerFile.toNat := by
  refine ⟨Summary.length_ofSource_le_of_pos l source tree, Summary.ofSource_of_zero l source tree,
    fun fs hfs => ?_⟩
  obtain ⟨config, files, hconfig, -, rfl⟩ := ScanChoices.summaries_ok_iff.1 hfs
  obtain ⟨-, -, -, hvalid⟩ := ScanChoices.effectiveConfig_ok_iff.1 hconfig
  refine ⟨config, hconfig, hvalid, fun f hf lines hlines => ?_⟩
  obtain ⟨p, -, rfl⟩ := List.mem_map.1 hf
  exact FileSummary.length_le_of_ofPath (Config.one_le_maxLines hvalid) hlines

end Outline
