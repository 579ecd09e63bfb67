import Mathlib
import Outline.Proofs.PathsBelow
import Outline.Proofs.SearchWalk
import Outline.Proofs.StoreGrowth

/-!
# Discovered files

* `Candidate` — a file worth a summary, by what stands in the store and in the configuration;
* `exists_names_of_discovered` — what a discovered path is like, and that it leads to a file;
* `discover_iff_candidate` — discovery finds the paths of the candidates and no others;
* `discover_ordered` — it finds them in the order of their names, each once, whatever the order in
  which the entries of the store were made.
-/

namespace Outline

/-! ### Patterns -/

/-- Patterns can be read together if each of them can. -/
theorem exists_readPatterns_iff {ts : List Text} : (∃ gs, readPatterns ts = .ok gs) ↔
    ∀ t ∈ ts, ∃ g, Glob.parse t = .ok g := by
  induction ts with
  | nil => simp [readPatterns]
  | cons t ts ih =>
    rw [List.forall_mem_cons, ← ih, readPatterns]
    cases Glob.parse t with
    | error e => simp
    | ok g => cases readPatterns ts <;> simp [Except.map]

/-- The patterns read are those that the texts spell. -/
theorem mem_of_readPatterns {ts : List Text} {gs : List Glob} (h : readPatterns ts = .ok gs)
    (g : Glob) : g ∈ gs ↔ ∃ t ∈ ts, Glob.parse t = .ok g := by
  induction ts generalizing gs with
  | nil =>
    cases h
    simp
  | cons t ts ih =>
    rw [readPatterns] at h
    cases ht : Glob.parse t with
    | error e =>
      rw [ht] at h
      cases h
    | ok first =>
      rw [ht] at h
      cases hts : readPatterns ts with
      | error e =>
        rw [hts] at h
        cases h
      | ok rest =>
        rw [hts] at h
        cases h
        simp [ih hts, ht, eq_comm]

/-! ### Candidates -/

/-- A file that is worth a summary.  `names` lead to it from the root, which is the directory under
`position` in the store. -/
structure Candidate (store : Store) (root : Path) (config : Config) (position names : List Bytes)
    (f : File) : Prop where
  /-- The path leads to the file at these very names, so that it is no link. -/
  regular : store.get (root.below names) = .ok (position ++ names, .file f)
  /-- What is above the file is a directory and no link, and has no excluded name. -/
  entered : ∀ above name rest, names = above ++ name :: rest → rest ≠ [] →
    store.IsDirectory (position ++ above ++ [name]) ∧
      Utf8.decodeLossy name ∉ config.excludeDirs
  /-- No ignore rule in force leaves out the file, or a directory above it. -/
  kept : ∀ above name rest, names = above ++ name :: rest →
    isIgnored (IgnoreLevel.inForce store (position ++ above)) name (!rest.isEmpty) = false
  /-- The extension is one of those asked for, but for the case of ASCII letters. -/
  wanted : ∀ above name, names = above ++ [name] →
    ∃ e ∈ config.extensions, e.map Char.toLower = (Search.extensionOf name).map Char.toLower
  /-- No exclude pattern matches the names below the root, with slashes between them. -/
  unmatched : ∀ t ∈ config.excludePatterns, ∀ g, Glob.parse t = .ok g →
    g.isMatch (Path.joined names).utf8 = false
  small : f.bytes.length ≤ config.maxFileSize.toNat

theorem Config.wantsExtension_iff {c : Config} {e : Text} : c.wantsExtension e = true ↔
    ∃ f ∈ c.extensions, f.map Char.toLower = e.map Char.toLower := by
  simp [wantsExtension]

namespace Search

variable {s : Search} {position names : List Bytes} {f : File}

theorem accepts_iff : s.accepts names f = true ↔
    s.config.wantsExtension (extensionOf (names.getLast?.getD [])) = true ∧
      (∀ g ∈ s.excludes, g.isMatch (Text.utf8 ((s.root.below names).relative s.root)) = false) ∧
      (s.root.below names).bytes.length < Store.pathLimit ∧
      f.bytes.length ≤ s.config.maxFileSize.toNat := by
  simp [accepts, and_assoc]

theorem entersName_iff {name : Bytes} :
    s.entersName name = true ↔ Utf8.decodeLossy name ∉ s.config.excludeDirs := by
  simp [entersName]

/-- **The files that are selected below the root are the candidates.** -/
theorem selects_iff_candidate {entries : Entries}
    (hroot : s.store.get s.root = .ok (position, .dir entries))
    (hexcludes : readPatterns s.config.excludePatterns = .ok s.excludes) (hne : names ≠ [])
    (hnames : ∀ n ∈ names, IsName n) : s.Selects position [] names f ↔
      Candidate s.store s.root s.config position names f := by
  have hrelative : (s.root.below names).relative s.root = Path.joined names :=
    Path.relative_below (Store.bytes_ne_nil_of_get hroot) hne hnames rfl
  obtain ⟨start, last, rfl⟩ := (List.eq_nil_or_concat names).resolve_left hne
  rw [List.concat_eq_append] at *
  rw [selects_iff, List.nil_append, accepts_iff, hrelative]
  constructor
  · rintro ⟨-, hfile, hway, hwanted, hunmatched, hshort, hsmall⟩
    refine ⟨(Store.get_below hroot hne hnames).2 ⟨hshort, hfile⟩, ?_, ?_, ?_, ?_, hsmall⟩
    · intro above name rest hsplit hrest
      refine ⟨?_, entersName_iff.1 ((hway above name rest hsplit).2 hrest)⟩
      rw [hsplit, ← List.append_assoc, ← List.singleton_append, ← List.append_assoc] at hfile
      exact Store.isDirectory_of_append hrest hfile
    · intro above name rest hsplit
      exact (hway above name rest hsplit).1
    · intro above name hsplit
      obtain ⟨-, hlast⟩ := List.append_inj' hsplit rfl
      cases hlast
      simpa [Config.wantsExtension_iff] using hwanted
    · intro t ht g hg
      exact hunmatched g ((mem_of_readPatterns hexcludes g).2 ⟨t, ht, hg⟩)
  · rintro ⟨hregular, hentered, hkept, hwanted, hunmatched, hsmall⟩
    obtain ⟨hshort, hfile⟩ := (Store.get_below hroot hne hnames).1 hregular
    refine ⟨hne, hfile, fun above name rest hsplit => ⟨hkept above name rest hsplit, ?_⟩, ?_, ?_,
      hshort, hsmall⟩
    · intro hrest
      exact entersName_iff.2 (hentered above name rest hsplit hrest).2
    · simpa [Config.wantsExtension_iff] using hwanted start last rfl
    · intro g hg
      obtain ⟨t, ht, hparse⟩ := (mem_of_readPatterns hexcludes g).1 hg
      exact hunmatched t ht g hparse

theorem exists_selects (hs : s.store.WellFormed) {entries : Entries}
    (hroot : s.store.find? position = some (.dir entries)) (h : names ∈ s.found position entries) :
    ∃ f, s.Selects position [] names f ∧ names ≠ [] ∧ ∀ n ∈ names, IsName n := by
  obtain ⟨f, hselects⟩ := (mem_found_iff hs hroot).1 h
  obtain ⟨hne, hfile, -⟩ := selects_iff.1 hselects
  exact ⟨f, hselects, hne, (List.forall_mem_append.1 (hs.find? hfile).1).2⟩

end Search

/-! ### Discovery -/

section

variable {store : Store} {root : Path} {config : Config} {paths : List Path}

theorem discover_ok_iff : discover store root config = .ok paths ↔
    ∃ position entries excludes, store.get root = .ok (position, .dir entries) ∧
      readPatterns config.excludePatterns = .ok excludes ∧
      paths = (Search.found ⟨store, root, config, excludes⟩ position entries).map root.below := by
  unfold discover
  split
  · rename_i position entries hget
    split
    · rename_i e hexcludes
      simp [hget, hexcludes]
    · rename_i excludes hexcludes
      simp [hget, hexcludes, eq_comm]
  · rename_i hnot
    constructor
    · intro h
      cases h
    · rintro ⟨position, entries, excludes, hget, -⟩
      exact absurd hget (hnot position entries)

/-- A discovered path is spelled from the root by its names below it.  It leads to a file at them, with
an extension that is asked for. -/
theorem exists_names_of_discovered {p : Path} {position : List Bytes} {entries : Entries}
    (hstore : store.WellFormed) (hroot : store.get root = .ok (position, .dir entries))
    (h : discover store root config = .ok paths) (hp : p ∈ paths) :
    ∃ names f, p = root.below names ∧ names ≠ [] ∧ (∀ n ∈ names, IsName n) ∧
      store.get p = .ok (position ++ names, .file f) ∧
      config.wantsExtension (Search.extensionOf (names.getLast?.getD [])) = true := by
  obtain ⟨position', entries', excludes, hroot', -, rfl⟩ := discover_ok_iff.1 h
  rw [hroot] at hroot'
  cases hroot'
  obtain ⟨names, hfound, rfl⟩ := List.mem_map.1 hp
  obtain ⟨f, hselects, hne, hnames⟩ :=
    Search.exists_selects hstore (Store.find?_of_get hroot) hfound
  obtain ⟨-, hfile, -, haccepts⟩ := Search.selects_iff.1 hselects
  obtain ⟨hwanted, -, hshort, -⟩ := Search.accepts_iff.1 haccepts
  exact ⟨names, f, rfl, hne, hnames, (Store.get_below hroot hne hnames).2 ⟨hshort, hfile⟩, hwanted⟩

/-- **Discovery finds the candidates.**  With patterns that can be read it lists, below a directory,
the paths of the candidates and nothing else. -/
theorem discover_iff_candidate {position : List Bytes} {entries : Entries}
    (hstore : store.WellFormed) (hroot : store.get root = .ok (position, .dir entries))
    (hpatterns : ∀ t ∈ config.excludePatterns, ∃ g, Glob.parse t = .ok g) :
    ∃ paths, discover store root config = .ok paths ∧
      (∀ p ∈ paths, ∃ names, names ≠ [] ∧ (∀ n ∈ names, IsName n) ∧ p = root.below names) ∧
      ∀ names, names ≠ [] → (∀ n ∈ names, IsName n) →
        (root.below names ∈ paths ↔ ∃ f, Candidate store root config position names f) := by
  obtain ⟨excludes, hexcludes⟩ := exists_readPatterns_iff.2 hpatterns
  have hfind := Store.find?_of_get hroot
  refine ⟨_, discover_ok_iff.2 ⟨position, entries, excludes, hroot, hexcludes, rfl⟩, ?_, ?_⟩
  · intro p hp
    obtain ⟨names, hfound, rfl⟩ := List.mem_map.1 hp
    obtain ⟨f, -, hne, hnames⟩ := Search.exists_selects hstore hfind hfound
    exact ⟨names, hne, hnames, rfl⟩
  · intro names hne hnames
    have hselects : ∀ {f}, Search.Selects ⟨store, root, config, excludes⟩ position [] names f ↔
        Candidate store root config position names f :=
      Search.selects_iff_candidate hroot hexcludes hne hnames
    constructor
    · intro hmem
      obtain ⟨names', hfound, heq⟩ := List.mem_map.1 hmem
      obtain ⟨f, hf, hne', hnames'⟩ := Search.exists_selects hstore hfind hfound
      rw [Path.below_inj hne' hnames' hne hnames heq] at hf
      exact ⟨f, hselects.1 hf⟩
    · rintro ⟨f, hf⟩
      exact List.mem_map_of_mem ((Search.mem_found_iff hstore hfind).2 ⟨f, hselects.2 hf⟩)

end

open IgnoreLevel (nameOf)

/-- A small project: source files, one of them in an excluded directory, a file that a pattern
excludes, and a link. -/
def projectEntries : List (List Bytes × Entry) :=
  [([nameOf "app", nameOf "src", nameOf "main.rs"], .file ⟨[], none⟩),
    ([nameOf "app", nameOf "src", nameOf "all.min.js"], .file ⟨[], none⟩),
    ([nameOf "app", nameOf "build", nameOf "main.rs"], .file ⟨[], none⟩),
    ([nameOf "app", nameOf "src-a.rs"], .file ⟨[], none⟩),
    ([nameOf "app", nameOf "link.rs"], .link (.ofString "src/main.rs"))]

theorem compatible_projectEntries : Store.Compatible projectEntries where
  named := by decide
  closed := by simp [projectEntries, Entry.closed]
  apart := by simp [projectEntries]; decide

/-- What the root of the project holds. -/
def appEntries : Entries :=
  [(nameOf "src", .dir [(nameOf "main.rs", .file ⟨[], none⟩),
      (nameOf "all.min.js", .file ⟨[], none⟩)]),
    (nameOf "build", .dir [(nameOf "main.rs", .file ⟨[], none⟩)]),
    (nameOf "src-a.rs", .file ⟨[], none⟩), (nameOf "link.rs", .link (.ofString "src/main.rs"))]

theorem get_app : (Store.made projectEntries).get (.ofString "app/") =
    .ok ([nameOf "app"], .dir appEntries) := by
  cbv

theorem discover_project : discover (.made projectEntries) (.ofString "app/") .standard =
    .ok [.ofString "app/src/main.rs", .ofString "app/src-a.rs"] := by
  cbv

theorem discover_iff_candidate_project :
    (∃ f, Candidate (.made projectEntries) (.ofString "app/") .standard [nameOf "app"]
        [nameOf "src", nameOf "main.rs"] f) ∧
      (¬∃ f, Candidate (.made projectEntries) (.ofString "app/") .standard [nameOf "app"]
        [nameOf "src", nameOf "all.min.js"] f) ∧
      (¬∃ f, Candidate (.made projectEntries) (.ofString "app/") .standard [nameOf "app"]
        [nameOf "build", nameOf "main.rs"] f) ∧
      ¬∃ f, Candidate (.made projectEntries) (.ofString "app/") .standard [nameOf "app"]
        [nameOf "link.rs"] f := by
  obtain ⟨-, -, excludes, -, hexcludes, -⟩ := discover_ok_iff.1 discover_project
  obtain ⟨paths, hpaths, -, hiff⟩ :=
    discover_iff_candidate (Store.wellFormed_made compatible_projectEntries) get_app
      (exists_readPatterns_iff.1 ⟨excludes, hexcludes⟩)
  rw [discover_project] at hpaths
  cases hpaths
  refine ⟨?_, ?_, ?_, ?_⟩
  · exact (hiff _ (by decide) (by decide)).1 (by decide)
  · exact fun h => absurd ((hiff _ (by decide) (by decide)).2 h) (by decide)
  · exact fun h => absurd ((hiff _ (by decide) (by decide)).2 h) (by decide)
  · exact fun h => absurd ((hiff _ (by decide) (by decide)).2 h) (by decide)

section

variable {store : Store} {root : Path} {config : Config} {paths : List Path}

/-! ### The order of discovery -/

/-- The paths that discovery lists lie below the root, in the order of their names and each once. -/
theorem pairwise_discover (hstore : store.WellFormed) (h : discover store root config = .ok paths) :
    (∀ p ∈ paths, p.namesBelow root ≠ [] ∧
        p.components = root.components ++ (p.namesBelow root).map .name) ∧
      paths.Pairwise (fun p q => p.namesBelow root < q.namesBelow root) ∧ paths.Nodup := by
  obtain ⟨position, entries, excludes, hroot, -, rfl⟩ := discover_ok_iff.1 h
  have hfind := Store.find?_of_get hroot
  have hnil := Store.bytes_ne_nil_of_get hroot
  have hnames : ∀ names ∈ Search.found ⟨store, root, config, excludes⟩ position entries,
      (root.below names).namesBelow root = names ∧ names ≠ [] ∧ ∀ n ∈ names, IsName n := by
    intro names hfound
    obtain ⟨f, -, hne, hnames⟩ := Search.exists_selects hstore hfind hfound
    exact ⟨Path.namesBelow_below hnil hne hnames, hne, hnames⟩
  have hordered := Search.pairwise_found (s := ⟨store, root, config, excludes⟩)
    (hstore.find? hfind).2 position
  have hpaths : (Search.found ⟨store, root, config, excludes⟩ position entries).Pairwise fun a b =>
      (root.below a).namesBelow root < (root.below b).namesBelow root := by
    refine hordered.imp_of_mem fun {a b} ha hb hlt => ?_
    rwa [(hnames a ha).1, (hnames b hb).1]
  refine ⟨fun p hp => ?_, List.pairwise_map.2 hpaths, List.pairwise_map.2 ?_⟩
  · obtain ⟨names, hfound, rfl⟩ := List.mem_map.1 hp
    obtain ⟨hbelow, hne, hproper⟩ := hnames names hfound
    rw [hbelow]
    exact ⟨hne, Path.components_below hnil hne hproper⟩
  · refine hpaths.imp fun {a b} hlt heq => ?_
    rw [heq] at hlt
    exact List.lt_irrefl _ hlt

end

section

variable {store store' : Store} {root : Path} {config : Config}

namespace IgnoreLevel

/-- The names, in a directory, of what its level is made from: the files of its rules, and its
repository. -/
def sourceNames : List (List Bytes) :=
  [[nameOf ".ignore"], [nameOf ".gitignore"], [nameOf ".git", nameOf "info", nameOf "exclude"],
    [nameOf ".git"]]

/-- The paths of these. -/
def sources (directory : List Bytes) : List Path :=
  sourceNames.map fun names => ⟨pathOf (directory ++ names)⟩

variable {new : List Bytes → Prop} {directory : List Bytes}

theorem rulesAt_of_gains (h : store.Gains new store') {names : List Bytes}
    (hkeeps : Store.Keeps new (store.resolve ⟨pathOf names⟩)) :
    rulesAt store' names = rulesAt store names := by
  have hread := Store.read_of_gains h hkeeps
  unfold rulesAt
  cases hs : store.read ⟨pathOf names⟩ <;> cases hs' : store'.read ⟨pathOf names⟩ <;>
    simp_all [Except.toOption]

theorem ofDirectory_of_gains (h : store.Gains new store')
    (hkeeps : ∀ q ∈ sources directory, Store.Keeps new (store.resolve q)) (names : List Bytes) :
    ofDirectory store' directory names = ofDirectory store directory names := by
  have hsource : ∀ names ∈ sourceNames,
      Store.Keeps new (store.resolve ⟨pathOf (directory ++ names)⟩) :=
    fun names hnames => hkeeps _ (List.mem_map_of_mem hnames)
  simp only [sourceNames, List.forall_mem_cons] at hsource
  obtain ⟨hignore, hgit, hexclude, hrepository, -⟩ := hsource
  unfold ofDirectory
  rw [rulesAt_of_gains h hignore, rulesAt_of_gains h hgit, rulesAt_of_gains h hexclude,
    Store.has_of_gains h hrepository]

/-- **The ignore rules in force stay**, where none of their sources is a new file. -/
theorem inForce_of_gains (h : store.Gains new store')
    (hkeeps : ∀ above, above <+: directory → ∀ q ∈ sources above,
      Store.Keeps new (store.resolve q)) :
    inForce store' directory = inForce store directory :=
  List.map_congr_left fun n _ => ofDirectory_of_gains h (hkeeps _ (List.take_prefix n directory)) _

end IgnoreLevel

/-- **The same files are selected**, where no new file would be accepted, and the ignore rules in
force stay. -/
theorem Search.selects_of_gains {new : List Bytes → Prop} (h : store.Gains new store')
    {excludes : List Glob} {position names : List Bytes} {f : File}
    (hrefused : new (position ++ names) → accepts ⟨store, root, config, excludes⟩ names f = false)
    (hrules : ∀ front, store.IsDirectory (position ++ front) →
      IgnoreLevel.inForce store' (position ++ front) =
        IgnoreLevel.inForce store (position ++ front)) :
    Selects ⟨store', root, config, excludes⟩ position [] names f ↔
      Selects ⟨store, root, config, excludes⟩ position [] names f := by
  by_cases hnew : new (position ++ names)
  · have hnot : ∀ s : Store, ¬Selects ⟨s, root, config, excludes⟩ position [] names f := by
      intro s hselects
      obtain ⟨-, -, -, haccepted⟩ := selects_iff.1 hselects
      have haccepted : accepts ⟨store, root, config, excludes⟩ names f = true := haccepted
      rw [hrefused hnew] at haccepted
      cases haccepted
    exact iff_of_false (hnot store') (hnot store)
  · have hfile : store'.find? (position ++ names) = some (.file f) ↔
        store.find? (position ++ names) = some (.file f) := by
      rw [Store.find?_file_iff, h.others _ hnew, ← Store.find?_file_iff]
    simp only [selects_iff, hfile]
    refine and_congr_right fun _ => and_congr_right fun hfind => and_congr ?_ Iff.rfl
    refine forall₄_congr fun front name back hsplit => ?_
    have hdir : store.IsDirectory (position ++ front) := by
      rw [hsplit, ← List.append_assoc] at hfind
      exact Store.isDirectory_of_append (List.cons_ne_nil name back) hfind
    rw [hrules front hdir]
    rfl

/-- Two searches that select the same files find them in the same order. -/
theorem Search.found_eq_of_selects {s s' : Search} (hs : s.store.WellFormed)
    (hs' : s'.store.WellFormed) {position : List Bytes} {entries entries' : Entries}
    (hroot : s.store.find? position = some (.dir entries))
    (hroot' : s'.store.find? position = some (.dir entries'))
    (h : ∀ names f, s.Selects position [] names f ↔ s'.Selects position [] names f) :
    s.found position entries = s'.found position entries' := by
  have hordered := pairwise_found (s := s) (hs.find? hroot).2 position
  have hordered' := pairwise_found (s := s') (hs'.find? hroot').2 position
  have hne : ∀ {a b : List Bytes}, a < b → a ≠ b := by
    rintro a b hlt rfl
    exact List.lt_irrefl a hlt
  refine List.Perm.eq_of_pairwise ?_ hordered hordered' ?_
  · intro a b _ _ hab hba
    exact absurd (List.lt_trans hab hba) (List.lt_irrefl a)
  · rw [List.perm_ext_iff_of_nodup (hordered.imp hne) (hordered'.imp hne)]
    intro names
    rw [mem_found_iff hs hroot, mem_found_iff hs' hroot']
    exact exists_congr fun f => h names f

/-- Where the same files are selected below a directory, discovery lists the same. -/
theorem discover_eq_of_selects (hstore : store.WellFormed) (hstore' : store'.WellFormed)
    {position : List Bytes} {entries entries' : Entries}
    (hroot : store.get root = .ok (position, .dir entries))
    (hroot' : store'.get root = .ok (position, .dir entries'))
    (h : ∀ excludes names f, Search.Selects ⟨store, root, config, excludes⟩ position [] names f ↔
      Search.Selects ⟨store', root, config, excludes⟩ position [] names f) :
    discover store root config = discover store' root config := by
  unfold discover
  rw [hroot, hroot']
  dsimp only
  cases readPatterns config.excludePatterns with
  | error e => rfl
  | ok excludes =>
    have hfound : Search.found ⟨store, root, config, excludes⟩ position entries =
        Search.found ⟨store', root, config, excludes⟩ position entries' :=
      Search.found_eq_of_selects hstore hstore' (Store.find?_of_get hroot)
        (Store.find?_of_get hroot') (h excludes)
    dsimp only
    rw [hfound]

/-- **Discovery depends on what a store shows alone.** -/
theorem discover_congr (h : store.Alike store') (hstore : store.WellFormed)
    (hstore' : store'.WellFormed) :
    discover store root config = discover store' root config := by
  by_cases hdir : ∃ position entries, store.get root = .ok (position, .dir entries)
  · obtain ⟨position, entries, hroot⟩ := hdir
    obtain ⟨entries', hroot'⟩ := Store.get_dir_of_gains h.gains hroot
    have hrules : ∀ directory,
        IgnoreLevel.inForce store' directory = IgnoreLevel.inForce store directory :=
      fun _ => IgnoreLevel.inForce_of_gains h.gains fun _ _ _ _ _ _ _ => not_false
    exact discover_eq_of_selects hstore hstore' hroot hroot' fun excludes names f =>
      (Search.selects_of_gains h.gains False.elim fun front _ => hrules _).symm
  · have hnone : ∀ s : Store, (∀ position entries, s.get root ≠ .ok (position, .dir entries)) →
        discover s root config = .error (.notDirectory root) := by
      intro s hs
      unfold discover
      split
      · rename_i hget
        exact absurd hget (hs _ _)
      · rfl
    rw [hnone store fun position entries hget => hdir ⟨position, entries, hget⟩,
      hnone store' fun position entries hget => ?_]
    obtain ⟨entries', hget'⟩ := Store.get_dir_of_gains h.symm.gains hget
    exact hdir ⟨position, entries', hget'⟩

/-- **Discovery lists the paths in the order of the names below the root.**  The names are compared
from the root down, each as bytes, so that no path is listed twice; and it does not matter in which
order the entries of a directory come, or were made. -/
theorem discover_ordered (root : Path) (config : Config) :
    (∀ store paths, store.WellFormed → discover store root config = .ok paths →
      (∀ p ∈ paths, p.namesBelow root ≠ [] ∧
          p.components = root.components ++ (p.namesBelow root).map .name) ∧
        paths.Pairwise (fun p q => p.namesBelow root < q.namesBelow root) ∧ paths.Nodup) ∧
      (∀ store store' : Store, store.WellFormed → store'.WellFormed → store.Alike store' →
        discover store root config = discover store' root config) ∧
      ∀ l l', Store.Compatible l → l.Perm l' →
        discover (.made l) root config = discover (.made l') root config := by
  refine ⟨fun store paths hstore h => pairwise_discover hstore h,
    fun store store' hstore hstore' h => discover_congr h hstore hstore', fun l l' h hl => ?_⟩
  exact discover_congr (Store.shown?_made_perm h hl) (Store.wellFormed_made h)
    (Store.wellFormed_made (h.subset hl.symm.subset))

theorem discover_ordered_project :
    Store.Compatible projectEntries ∧
      (Path.ofString "app/src/main.rs").namesBelow (.ofString "app/") <
        (Path.ofString "app/src-a.rs").namesBelow (.ofString "app/") ∧
      discover (.made projectEntries.reverse) (.ofString "app/") .standard =
        .ok [.ofString "app/src/main.rs", .ofString "app/src-a.rs"] := by
  obtain ⟨hsorted, -, hmade⟩ := discover_ordered (.ofString "app/") .standard
  refine ⟨compatible_projectEntries, ?_, ?_⟩
  · have hpairwise := (hsorted _ _ (Store.wellFormed_made compatible_projectEntries)
      discover_project).2.1
    exact (List.pairwise_cons.1 hpairwise).1 _ List.mem_cons_self
  · rw [← hmade _ _ compatible_projectEntries (List.reverse_perm projectEntries).symm]
    exact discover_project

end

end Outline
