import Outline.Proofs.CaseFolding
import Outline.Proofs.DiscoveredFiles
import Outline.Proofs.Encoding
import Outline.Proofs.Intercalated

/-!
# Relative paths

The relative paths of discovered files, whatever the root is spelled like.

* `Path.Spelled`, `Path.Spelled.inj` — names that are texts, and are told by the text they make up;
* `isImportant_iff` — a file is important by the number of its names, or by their text;
* `relative_discover` — the relative paths of discovered files, and which of them are important.
-/

namespace Outline

namespace Path

variable {names : List Bytes}

/-! ### Names that are texts -/

/-- The texts without backslashes that names are. -/
structure Spelled (names : List Bytes) (cs : List Text) : Prop where
  spelled : names = cs.map Text.utf8
  plain : ∀ c ∈ cs, '\\' ∉ c

theorem utf8_intercalate (cs : List Text) :
    Text.utf8 (['/'].intercalate cs) = [slash].intercalate (cs.map Text.utf8) := by
  induction cs with
  | nil => rfl
  | cons c cs ih =>
    cases cs with
    | nil => simp
    | cons d cs =>
      rw [List.map_cons, List.map_cons, List.intercalate_cons_cons, List.intercalate_cons_cons,
        Text.utf8_append, Text.utf8_append, ih]
      rfl

theorem slash_mem_utf8 {c : Text} (h : '/' ∈ c) : slash ∈ c.utf8 := by
  rw [Text.utf8, List.mem_flatMap]
  exact ⟨'/', h, by decide⟩

variable {cs : List Text}

/-- The text of names that are texts. -/
theorem Spelled.joined_eq (h : Spelled names cs) : joined names = ['/'].intercalate cs := by
  have hdisplay : (ofPieces names).display = ['/'].intercalate cs := by
    rw [display, ofPieces, h.spelled, ← utf8_intercalate]
    exact Utf8.decodeLossy_of_decode? (Utf8.decode?_utf8 _)
  rw [joined, hdisplay]
  refine (List.map_congr_left fun c hc => if_neg ?_).trans (List.map_id _)
  rintro rfl
  obtain hslash | hc := mem_intercalate hc
  · exact absurd hslash (by decide)
  · obtain ⟨text, htext, hc⟩ := List.mem_flatten.1 hc
    exact h.plain text htext hc

/-- The texts come back from the text that they make up. -/
theorem Spelled.splitOn_intercalate (h : Spelled names cs) (hne : names ≠ [])
    (hnames : ∀ n ∈ names, IsName n) : (['/'].intercalate cs).splitOn '/' = cs := by
  apply List.splitOn_intercalate
  · intro c hc hslash
    have hname : Text.utf8 c ∈ names := h.spelled ▸ List.mem_map_of_mem hc
    exact (hnames _ hname).whole (slash_mem_utf8 hslash)
  · rintro rfl
    exact hne h.spelled

/-- **The names are told by the text.** -/
theorem Spelled.inj {names' : List Bytes} {ds : List Text} (h : Spelled names cs)
    (h' : Spelled names' ds) (hne : names ≠ []) (hne' : names' ≠ []) (hnames : ∀ n ∈ names, IsName n)
    (hnames' : ∀ n ∈ names', IsName n) (heq : joined names = joined names') : names = names' := by
  rw [h.joined_eq, h'.joined_eq] at heq
  have hsplit := h.splitOn_intercalate hne hnames
  rw [heq, h'.splitOn_intercalate hne' hnames'] at hsplit
  rw [h.spelled, h'.spelled, hsplit]

end Path

/-! ### Discovered files -/

section

open IgnoreLevel (nameOf)
open Outline.Path (Spelled joined)

variable {store : Store} {root p : Path} {config : Config} {paths : List Path}
  {position : List Bytes} {entries : Entries}

theorem isImportant_congr {root' p' : Path} (h : p'.relative root' = p.relative root) :
    isImportant root' p' = isImportant root p := by
  rw [isImportant, isImportant, h]

/-- A path with at most two names is important, and so is one that bears an important name. -/
theorem isImportant_iff {names : List Bytes} {cs : List Text} (hspelled : Spelled names cs)
    (hne : names ≠ []) (hnames : ∀ n ∈ names, IsName n) (hp : p.relative root = joined names) :
    isImportant root p = true ↔
      cs.length ≤ shallowDepth ∨ ∃ word ∈ importantNames, FoldedIn word (['/'].intercalate cs) := by
  rw [isImportant, hp, hspelled.joined_eq, hspelled.splitOn_intercalate hne hnames,
    Bool.or_eq_true, hasImportantName_iff, decide_eq_true_eq, or_comm]

/-- **Relative paths are exact, and do not depend on the spelling of the root.**  The relative path of
a discovered file is made of its names below the root, with slashes between them, also if the root is
spelled otherwise by the same components, or if the file has been discovered from another spelling
altogether.  So different files have different relative paths, and a file is important if its depth is
at most two, or if one of the important names stands in its relative path but for case. -/
theorem relative_discover (hstore : store.WellFormed)
    (hroot : store.get root = .ok (position, .dir entries))
    (h : discover store root config = .ok paths) :
    (∀ p ∈ paths,
      (∃ f, store.get p = .ok (position ++ p.namesBelow root, .file f)) ∧
      (∀ base : Path, base.components = root.components → p.relative base = p.relative root) ∧
      ∀ cs, Spelled (p.namesBelow root) cs → p.relative root = ['/'].intercalate cs ∧
        (isImportant root p = true ↔ cs.length ≤ 2 ∨
          ∃ word ∈ importantNames, FoldedIn word (['/'].intercalate cs))) ∧
    (∀ root' config' paths', store.get root' = .ok (position, .dir entries) →
      discover store root' config' = .ok paths' → ∀ p ∈ paths, ∀ p' ∈ paths',
        store.get p' = store.get p →
          p'.relative root' = p.relative root ∧ isImportant root' p' = isImportant root p) ∧
    ∀ p ∈ paths, ∀ q ∈ paths, ∀ cs ds, Spelled (p.namesBelow root) cs →
      Spelled (q.namesBelow root) ds → p.relative root = q.relative root → p = q := by
  have hrelative : ∀ {root names}, store.get root = .ok (position, .dir entries) → names ≠ [] →
      (∀ n ∈ names, IsName n) → (root.below names).relative root = joined names :=
    fun hroot hne hnames =>
      Path.relative_below (Store.bytes_ne_nil_of_get hroot) hne hnames rfl
  have hbelow : ∀ {names}, names ≠ [] → (∀ n ∈ names, IsName n) →
      (root.below names).namesBelow root = names :=
    Path.namesBelow_below (Store.bytes_ne_nil_of_get hroot)
  refine ⟨fun p hp => ?_, fun root' config' paths' hroot' h' p hp p' hp' hsame => ?_,
    fun p hp q hq cs ds hcs hds heq => ?_⟩
  · obtain ⟨names, f, rfl, hne, hnames, hget, -⟩ := exists_names_of_discovered hstore hroot h hp
    have hjoined := hrelative hroot hne hnames
    rw [hbelow hne hnames]
    refine ⟨⟨f, hget⟩, fun base hbase => ?_, fun cs hcs => ⟨?_, ?_⟩⟩
    · rw [hjoined]
      exact Path.relative_below (Store.bytes_ne_nil_of_get hroot) hne hnames hbase
    · rw [hjoined, hcs.joined_eq]
    · exact isImportant_iff hcs hne hnames hjoined
  · obtain ⟨names, f, rfl, hne, hnames, hget, -⟩ := exists_names_of_discovered hstore hroot h hp
    obtain ⟨names', f', rfl, hne', hnames', hget', -⟩ :=
      exists_names_of_discovered hstore hroot' h' hp'
    have hnames_eq : names' = names := by
      rw [hget, hget', Except.ok.injEq, Prod.mk.injEq] at hsame
      exact List.append_cancel_left hsame.1
    subst hnames_eq
    have heq : (root'.below names').relative root' = (root.below names').relative root := by
      rw [hrelative hroot hne hnames, hrelative hroot' hne hnames]
    exact ⟨heq, isImportant_congr heq⟩
  · obtain ⟨names, f, rfl, hne, hnames, -⟩ := exists_names_of_discovered hstore hroot h hp
    obtain ⟨names', f', rfl, hne', hnames', -⟩ :=
      exists_names_of_discovered hstore hroot h hq
    rw [hbelow hne hnames] at hcs
    rw [hbelow hne' hnames'] at hds
    rw [hrelative hroot hne hnames, hrelative hroot hne' hnames'] at heq
    rw [hcs.inj hds hne hne' hnames hnames' heq]

/-- A roundabout spelling of a root. -/
def oddRoot : Path := .ofString ".//app/../app/."

theorem get_oddRoot : (Store.made projectEntries).get oddRoot =
    .ok ([nameOf "app"], .dir appEntries) := by
  cbv

theorem discover_oddRoot : discover (.made projectEntries) oddRoot .standard =
    .ok [.ofString ".//app/../app/./src/main.rs", .ofString ".//app/../app/./src-a.rs"] := by
  cbv

/-- Both spellings of a path lead to the same file. -/
theorem get_main : (Store.made projectEntries).get (.ofString "app/src/main.rs") =
    (Store.made projectEntries).get (.ofString ".//app/../app/./src/main.rs") := by
  have hleft : (Store.made projectEntries).get (.ofString "app/src/main.rs") =
      .ok ([nameOf "app", nameOf "src", nameOf "main.rs"], .file ⟨[], none⟩) := by cbv
  have hright : (Store.made projectEntries).get (.ofString ".//app/../app/./src/main.rs") =
      .ok ([nameOf "app", nameOf "src", nameOf "main.rs"], .file ⟨[], none⟩) := by cbv
  rw [hleft, hright]

/-- A file that two spellings find has one relative path, also below a third spelling of the root, and
another file has another. -/
theorem relative_discover_odd :
    let main := Path.ofString ".//app/../app/./src/main.rs"
    let other := Path.ofString ".//app/../app/./src-a.rs"
    main.relative oddRoot = "src/main.rs".toList ∧ isImportant oddRoot main = true ∧
      main.relative (.ofString "./app//../app//") = main.relative oddRoot ∧
      (Path.ofString "app/src/main.rs").relative (.ofString "app/") = main.relative oddRoot ∧
      main.relative oddRoot ≠ other.relative oddRoot := by
  intro main other
  have hmain : Spelled (main.namesBelow oddRoot) ["src".toList, "main.rs".toList] :=
    ⟨by decide +kernel, by decide⟩
  have hother : Spelled (other.namesBelow oddRoot) ["src-a.rs".toList] :=
    ⟨by decide +kernel, by decide⟩
  obtain ⟨hexact, hspellings, hapart⟩ := relative_discover
    (Store.wellFormed_made compatible_projectEntries) get_oddRoot discover_oddRoot
  obtain ⟨-, hbase, htext⟩ := hexact main List.mem_cons_self
  obtain ⟨hrelative, himportant⟩ := htext _ hmain
  refine ⟨hrelative, himportant.2 (Or.inl (by decide)), hbase _ (by decide +kernel), ?_, ?_⟩
  · exact (hspellings _ _ _ get_app discover_project main List.mem_cons_self _ List.mem_cons_self
      get_main).1
  · intro heq
    have hsame := hapart main List.mem_cons_self other (List.mem_cons_of_mem _ List.mem_cons_self)
      _ _ hmain hother heq
    exact absurd hsame (by decide)

end

end Outline
