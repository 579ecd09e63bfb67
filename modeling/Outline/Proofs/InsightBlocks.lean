import Outline.Insight
import Outline.Proofs.Intercalated

/-!
# Reading insights back

The text that a reader is given can be taken apart again.

* `FileSummary.told?` — what is told of a file that says something: its path below the root and
  its lines;
* `blockLines`, `insights_eq` — the lines of a block, and the whole text by its blocks;
* `readInsights`, `readInsights_insights` — what has been told, read off the text alone.

A header or a row begins with its mark, whatever its path or line may be.  So no line of a block is
empty, and an empty line stands between blocks and nowhere else.
-/

namespace Outline

/-- What is told of a file: its path below the root and its lines, if it has any. -/
def FileSummary.told? (root : Path) (f : FileSummary) : Option (Text × List Text) :=
  match f.lines with
  | none | some [] => none
  | some lines => some (f.path.relative root, lines)

namespace FileSummary

variable {root : Path} {f : FileSummary} {b : Text × List Text}

theorem told?_eq_none_iff : f.told? root = none ↔ f.lines = none ∨ f.lines = some [] := by
  obtain ⟨p, _ | _ | ⟨row, rows⟩⟩ := f <;> simp [told?]

theorem told?_eq_some_iff : f.told? root = some b ↔
    ∃ rows, f.lines = some rows ∧ rows ≠ [] ∧ b = (f.path.relative root, rows) := by
  obtain ⟨p, _ | _ | ⟨row, rows⟩⟩ := f <;> simp [told?, eq_comm]

end FileSummary

/-! ### Blocks -/

/-- The lines of a block: the header and the rows, each behind its mark. -/
def blockLines (b : Text × List Text) : List Text :=
  ("📄 ".toList ++ b.1) :: b.2.map ("- ".toList ++ ·)

variable {b : Text × List Text} {line : Text}

theorem ne_nil_of_mem_blockLines (h : line ∈ blockLines b) : line ≠ [] := by
  rcases List.mem_cons.1 h with rfl | h
  · exact List.cons_ne_nil _ _
  · obtain ⟨row, -, rfl⟩ := List.mem_map.1 h
    exact List.cons_ne_nil _ _

theorem nil_not_mem_map_blockLines (bs : List (Text × List Text)) : [] ∉ bs.map blockLines := by
  intro h
  obtain ⟨b, -, hb⟩ := List.mem_map.1 h
  exact List.cons_ne_nil _ _ hb

theorem newline_not_mem_of_mem_blockLines (hpath : '\n' ∉ b.1) (hrows : ∀ row ∈ b.2, '\n' ∉ row)
    (h : line ∈ blockLines b) : '\n' ∉ line := by
  rcases List.mem_cons.1 h with rfl | h
  · exact List.not_mem_append (by decide) hpath
  · obtain ⟨row, hrow, rfl⟩ := List.mem_map.1 h
    exact List.not_mem_append (by decide) (hrows row hrow)

/-- The block of a file is what is told of it, line by line. -/
theorem FileSummary.block?_eq (root : Path) (f : FileSummary) :
    f.block? root = (f.told? root).map fun b => ['\n'].intercalate (blockLines b) := by
  obtain ⟨p, _ | _ | ⟨row, rows⟩⟩ := f
  · rfl
  · rfl
  · show some _ = some (['\n'].intercalate (_ :: _))
    rw [intercalate_cons, List.flatMap_map]
    rfl

/-- The insights of files are settled by what is told of them. -/
theorem insights_eq (root : Path) (fs : List FileSummary) :
    insights root fs = ['\n', '\n'].intercalate
      (((fs.filterMap (·.told? root)).map blockLines).map ['\n'].intercalate) := by
  rw [insights, List.map_map, List.map_filterMap]
  exact congrArg _ (List.filterMap_congr fun f _ => f.block?_eq root)

theorem insights_eq_nil_iff {root : Path} {fs : List FileSummary} :
    insights root fs = [] ↔ fs.filterMap (·.told? root) = [] := by
  rw [insights_eq]
  constructor
  · intro hnil
    by_contra hne
    refine intercalate_ne_nil _ (by simpa using hne) ?_ hnil
    intro hmem
    obtain ⟨group, hgroup, hempty⟩ := List.mem_map.1 hmem
    obtain ⟨b, -, rfl⟩ := List.mem_map.1 hgroup
    rw [blockLines, intercalate_cons] at hempty
    exact List.cons_ne_nil _ _ hempty
  · intro hnil
    rw [hnil]
    rfl

/-! ### Reading -/

/-- What the lines of a block tell, if they are any. -/
def readBlock? : List Text → Option (Text × List Text)
  | [] => none
  | header :: rows => some (header.drop 2, rows.map (·.drop 2))

theorem readBlock?_blockLines (b : Text × List Text) : readBlock? (blockLines b) = some b := by
  simp [readBlock?, blockLines, Function.comp_def]

/-- What a text of insights tells: its lines, split into blocks at the empty ones. -/
def readInsights (t : Text) : List (Text × List Text) :=
  ((t.splitOn '\n').splitOn []).filterMap readBlock?

/-- Blocks written one after the other are read in their order. -/
theorem readInsights_intercalate {bs : List (Text × List Text)}
    (h : ∀ b ∈ bs, '\n' ∉ b.1 ∧ ∀ row ∈ b.2, '\n' ∉ row) :
    readInsights (['\n', '\n'].intercalate ((bs.map blockLines).map ['\n'].intercalate)) = bs := by
  by_cases hbs : bs = []
  · rw [hbs]
    rfl
  have hgroups : bs.map blockLines ≠ [] := by simpa using hbs
  have hne : [] ∉ bs.map blockLines := nil_not_mem_map_blockLines bs
  have hbusy : ∀ group ∈ bs.map blockLines, [] ∉ group := by
    intro group hgroup hmem
    obtain ⟨b, -, rfl⟩ := List.mem_map.1 hgroup
    exact ne_nil_of_mem_blockLines hmem rfl
  have hlines : ∀ line ∈ [[]].intercalate (bs.map blockLines), '\n' ∉ line := by
    intro line hline
    obtain hline | hline := mem_intercalate hline
    · rw [List.mem_singleton.1 hline]
      exact List.not_mem_nil
    · obtain ⟨group, hgroup, hline⟩ := List.mem_flatten.1 hline
      obtain ⟨b, hb, rfl⟩ := List.mem_map.1 hgroup
      exact newline_not_mem_of_mem_blockLines (h b hb).1 (h b hb).2 hline
  rw [intercalate_intercalate _ hne, readInsights,
    List.splitOn_intercalate _ hlines (intercalate_ne_nil _ hgroups hne),
    List.splitOn_intercalate _ hbusy hgroups, List.filterMap_map]
  exact (List.filterMap_congr fun b _ => readBlock?_blockLines b).trans List.filterMap_some

/-- **What has been told of files can be read off the text alone, in order.**  A file without a
summary or without lines leaves no trace in the text, and with such files only the text is empty. -/
theorem readInsights_insights (root : Path) (fs : List FileSummary) :
    insights root fs = insights root (fs.filter fun f => f.lines ≠ none ∧ f.lines ≠ some []) ∧
    (insights root fs = [] ↔ ∀ f ∈ fs, f.lines = none ∨ f.lines = some []) ∧
    ((∀ f ∈ fs, ∀ rows, f.lines = some rows → rows ≠ [] →
        '\n' ∉ f.path.relative root ∧ ∀ row ∈ rows, '\n' ∉ row) →
      readInsights (insights root fs) = fs.filterMap (·.told? root)) := by
  refine ⟨?_, ?_, fun h => ?_⟩
  · rw [insights_eq, insights_eq, List.filterMap_filter]
    congr 3
    apply List.filterMap_congr
    intro f _
    split
    · rfl
    · rename_i hsilent
      exact FileSummary.told?_eq_none_iff.2 (by simpa [or_iff_not_imp_left] using hsilent)
  · rw [insights_eq_nil_iff, List.filterMap_eq_nil_iff]
    simp only [FileSummary.told?_eq_none_iff]
  · rw [insights_eq]
    apply readInsights_intercalate
    intro b hb
    obtain ⟨f, hf, hb⟩ := List.mem_filterMap.1 hb
    obtain ⟨rows, hrows, hne, rfl⟩ := FileSummary.told?_eq_some_iff.1 hb
    exact h f hf rows hrows hne

/-- Rows that look like a header, like a row or like an end, the root itself, and files without
anything to say: all is told apart. -/
theorem readInsights_lookalikes :
    let root := Path.ofString "app"
    let fs : List FileSummary :=
      [⟨root, some ["📄 a".toList, [], "- b".toList]⟩, ⟨.ofString "app/none", none⟩,
        ⟨.ofString "app/empty", some []⟩, ⟨.ofString "app/- c", some [[]]⟩]
    readInsights (insights root fs) =
      [([], ["📄 a".toList, [], "- b".toList]), ("- c".toList, [[]])] := by
  intro root fs
  refine ((readInsights_insights root fs).2.2 ?_).trans (by decide +kernel)
  intro f hf
  simp only [fs, List.mem_cons, List.not_mem_nil, or_false] at hf
  rcases hf with rfl | rfl | rfl | rfl
  · rintro _ ⟨⟩ -
    decide +kernel
  · rintro _ ⟨⟩
  · rintro _ ⟨⟩ h
    exact absurd rfl h
  · rintro _ ⟨⟩ -
    decide +kernel

end Outline
