import Outline.Insight
import Outline.Proofs.DiscoveredFiles
import Outline.Proofs.Encoding
import Outline.Proofs.LowerCase

/-!
# Discovered files have a language

Discovery and the registry compare extensions each in its own way: one reads the bytes with
replacements, lower-cases the text and then ignores the case of ASCII letters; the other refuses
bytes that are no text, trims the text and lower-cases it.

* `PlainExtension` — the known extensions: ASCII characters that nothing else is lower-cased to;
* `normalizeExtension_congr` — for these, what the first way finds equal the second does as well;
* `Registry.lookup?_of_wanted` — a file that is looked at for its extension has its language;
* `FileSummary.trySummarize_discovered` — a discovered file has a summary, unless its bytes are no
  text.
-/

namespace Outline

/-! ### Known extensions -/

/-- Whether an extension, its dot left out, has characters and none but those that lower-casing
makes of ASCII characters alone. -/
structure PlainExtension (k : Text) : Prop where
  ne_nil : k ≠ []
  plain : ∀ c ∈ k, c.toNat < 128 ∧ c ≠ 'k' ∧ c ≠ '.' ∧ isBlank c = false

theorem plainExtension_of_mem_standard : ∀ e ∈ Registry.standard.extensions,
    ∃ k, e = '.' :: k ∧ PlainExtension k := by
  have htable : ∀ e ∈ Registry.standard.extensions, e.head? = some '.' ∧ e.tail ≠ [] ∧
      e.tail.all (fun c => c.toNat < 128 && c != 'k' && c != '.' && !isBlank c) = true := by
    decide +kernel
  intro e he
  obtain ⟨hhead, hne, hplain⟩ := htable e he
  obtain ⟨k, rfl⟩ := List.head?_eq_some_iff.1 hhead
  refine ⟨k, rfl, hne, fun c hc => ?_⟩
  simpa [and_assoc] using List.all_eq_true.1 hplain c hc

theorem Registry.normalizeExtension_mem {r : Registry} {e : Text} {l : Language}
    (h : r.lookup? e = some l) : normalizeExtension e ∈ r.extensions := by
  obtain ⟨m, hm, -⟩ := Option.map_eq_some_iff.1 h
  have hkey : m.1 = normalizeExtension e := by simpa using List.find?_some hm
  exact hkey ▸ List.mem_map_of_mem (List.mem_of_find?_eq_some hm)

/-! ### Comparing extensions -/

theorem eq_dot_of_toLower {c : Char} (h : c.toLower = '.') : c = '.' := by
  have hascii : c.toNat < 128 := ascii_of_toLower (by rw [h]; decide)
  revert h
  exact forall_ascii (P := fun c => c.toLower = '.' → c = '.') (by decide) hascii

theorem normalizeExtension_dot (r : Text) :
    normalizeExtension ('.' :: r) = '.' :: Text.lowercaseAfter ['.'] r.trimEnd := by
  have htrim : Text.trim ('.' :: r) = '.' :: r.trimEnd := Text.trimEnd_cons (by decide) r
  rw [normalizeExtension, htrim]
  rfl

variable {e r t k : Text}

/-- An extension that is equal to a known one, but for the case of ASCII letters and blanks at its
end, has settled characters only. -/
theorem settled_of_trimEnd (hk : PlainExtension k) (hr : r.trimEnd.map Char.toLower = k) :
    ∀ d ∈ r.map Char.toLower, IsSettled d := by
  intro d hd
  obtain ⟨c, hc, rfl⟩ := List.mem_map.1 hd
  rcases Text.mem_trimEnd_or_isBlank hc with hc | hc
  · have hplain := hk.plain c.toLower (hr ▸ List.mem_map_of_mem hc)
    exact Or.inr ⟨hplain.1, hplain.2.1⟩
  · exact Or.inl (by rwa [isBlank_toLower])

theorem normalizeExtension_of_trimEnd (hk : PlainExtension k)
    (ht : t.trimEnd.map Char.toLower = k) : normalizeExtension t = '.' :: k := by
  have hplain : ∀ c ∈ t.trimEnd, c.toNat < 128 ∧ isBlank c = false := by
    intro c hc
    have hc := hk.plain c.toLower (ht ▸ List.mem_map_of_mem hc)
    exact ⟨ascii_of_toLower hc.1, by rw [← isBlank_toLower]; exact hc.2.2.2⟩
  obtain ⟨c, rest, hrest⟩ : ∃ c rest, t.trimEnd = c :: rest := by
    refine List.exists_cons_of_ne_nil fun hnil => hk.ne_nil ?_
    rw [← ht, hnil]
    rfl
  have hstart : t.trimStart = t := by
    obtain ⟨more, hmore⟩ := Text.trimEnd_prefix t
    rw [hrest] at hmore
    have hc := (hplain c (by simp [hrest])).2
    rw [← hmore, Text.trimStart, List.cons_append, List.dropWhile_cons, hc]
    rfl
  have hlower : Text.lowercase t.trim = k := by
    rw [Text.trim, hstart, Text.lowercase,
      Text.lowercaseAfter_ascii [] _ fun c hc => (hplain c hc).1, ht]
  have hdot : k.head? ≠ some '.' := by
    intro hhead
    exact (hk.plain '.' (List.mem_of_head? hhead)).2.2.1 rfl
  rw [normalizeExtension, hlower, if_neg hdot]

/-- **What discovery finds equal to a known extension, the registry takes for the same**, and it
has no replaced character. -/
theorem normalizeExtension_congr (hk : PlainExtension k) (he : normalizeExtension e = '.' :: k)
    (heq : e.map Char.toLower = ('.' :: t.lowercase).map Char.toLower) :
    normalizeExtension t = '.' :: k ∧ ∀ c ∈ t, IsSettled c := by
  obtain ⟨r, rfl, hr⟩ : ∃ r : Text, e = '.' :: r ∧
      r.map Char.toLower = t.lowercase.map Char.toLower := by
    cases e with
    | nil => cases heq
    | cons c r =>
      obtain ⟨hc, hr⟩ := List.cons.inj heq
      exact ⟨r, by rw [eq_dot_of_toLower hc], hr⟩
  rw [normalizeExtension_dot] at he
  have hlower := (List.cons.inj he).2
  -- first the extension asked for, of which the lower-case form is known
  have hrk : r.trimEnd.map Char.toLower = k := by
    rw [← hlower, Text.lowercaseAfter_eq_map]
    intro d hd
    have hplain := hk.plain d (hlower ▸ hd)
    exact Or.inr ⟨hplain.1, hplain.2.1⟩
  have hsettled := settled_of_trimEnd hk hrk
  -- then the one that was found, whose lower-case form has the same settled characters
  have ht : t.lowercase = t.map Char.toLower := by
    refine Text.lowercase_eq_map fun d hd => IsSettled.of_toLower (hsettled _ ?_)
    rw [hr]
    exact List.mem_map_of_mem hd
  have hmap : r.map Char.toLower = t.map Char.toLower := by
    rw [hr, ht, List.map_map]
    exact List.map_congr_left fun c _ => toLower_idem c
  refine ⟨normalizeExtension_of_trimEnd hk ?_, fun c hc => IsSettled.of_toLower ?_⟩
  · rw [Text.map_toLower_trimEnd, ← hmap, ← Text.map_toLower_trimEnd, hrk]
  · exact hsettled _ (hmap ▸ List.mem_map_of_mem hc)

/-! ### Files -/

/-- **A name that is looked at for its extension has the language of that extension.** -/
theorem Registry.lookup?_of_wanted {e : Text} {l : Language} {name : Bytes}
    (he : standard.lookup? e = some l)
    (heq : e.map Char.toLower = (Search.extensionOf name).map Char.toLower) :
    ((Path.nameExtension? name).bind Utf8.decode?).bind standard.lookup? = some l := by
  obtain ⟨k, hkey, hk⟩ := plainExtension_of_mem_standard _ (normalizeExtension_mem he)
  unfold Search.extensionOf at heq
  cases hext : Path.nameExtension? name with
  | none =>
    rw [hext] at heq
    have hnil : e = [] := List.map_eq_nil_iff.1 heq
    rw [hnil] at hkey
    exact absurd (List.cons.inj hkey).2.symm hk.ne_nil
  | some ext =>
    rw [hext] at heq
    obtain ⟨hsame, hsettled⟩ := normalizeExtension_congr hk hkey heq
    rw [Option.bind_some]
    cases hdecode : Utf8.decode? ext with
    | none => exact absurd (hsettled _ (Utf8.replacement_mem_decodeLossy hdecode)) (by decide)
    | some t =>
      rw [Utf8.decodeLossy_of_decode? hdecode, ← hkey] at hsame
      rw [Option.bind_some, lookup?, hsame]
      exact he

section

open IgnoreLevel (nameOf)

variable {store : Store} {root p : Path} {config : Config} {paths : List Path}

/-- A discovered path leads to a file, and its last name has an extension that is asked for. -/
theorem exists_file_of_discovered (hstore : store.WellFormed)
    (h : discover store root config = .ok paths) (hp : p ∈ paths) :
    ∃ name f, p.name? = some name ∧ store.read p = .ok f ∧
      config.wantsExtension (Search.extensionOf name) = true := by
  obtain ⟨position, entries, -, hroot, -⟩ := discover_ok_iff.1 h
  obtain ⟨names, f, rfl, hne, hnames, hget, hwanted⟩ :=
    exists_names_of_discovered hstore hroot h hp
  obtain ⟨name, hlast⟩ := Option.ne_none_iff_exists'.1 (mt List.getLast?_eq_none_iff.1 hne)
  refine ⟨name, f, Path.name?_below (Store.bytes_ne_nil_of_get hroot) hnames hlast, ?_, ?_⟩
  · rw [Store.read, hget]
  · rwa [hlast] at hwanted

theorem isSome_lookup?_of_mem_standard :
    ∀ e ∈ Config.standard.extensions, (Registry.standard.lookup? e).isSome = true := by
  decide +kernel

/-- **Discovered files have a language.**  If every extension asked for is known to the registry, as
the default ones are, then so is the extension of every path that discovery lists; its summary is
never refused for its extension, and fails only where the file is no text. -/
theorem trySummarize_discovered :
    (∀ e ∈ Config.standard.extensions, (Registry.standard.lookup? e).isSome = true) ∧
      ∀ (store : Store) (root : Path) (config : Config) (paths : List Path), store.WellFormed →
        (∀ e ∈ config.extensions, (Registry.standard.lookup? e).isSome = true) →
        discover store root config = .ok paths → ∀ p ∈ paths,
          ∃ l f, Registry.standard.lookupPath? p = some l ∧ store.read p = .ok f ∧
            ∀ o, (∀ t, Utf8.decode? f.bytes = some t →
                FileSummary.trySummarize store o p = .ok (Summary.ofSource l t f.tree o)) ∧
              (Utf8.decode? f.bytes = none →
                FileSummary.trySummarize store o p = .error (.unreadable .notText)) := by
  refine ⟨isSome_lookup?_of_mem_standard, ?_⟩
  intro store root config paths hstore hknown h p hp
  obtain ⟨name, f, hname, hread, hwanted⟩ := exists_file_of_discovered hstore h hp
  obtain ⟨e, he, heq⟩ := Config.wantsExtension_iff.1 hwanted
  obtain ⟨l, hl⟩ := Option.isSome_iff_exists.1 (hknown e he)
  have hlookup : Registry.standard.lookupPath? p = some l := by
    rw [Registry.lookupPath?, Path.extension?, hname]
    exact Registry.lookup?_of_wanted hl heq
  refine ⟨l, f, hlookup, hread, fun o => ⟨fun t ht => ?_, fun hnone => ?_⟩⟩
  · rw [FileSummary.trySummarize, hlookup, Store.readText, hread]
    simp [ht]
  · rw [FileSummary.trySummarize, hlookup, Store.readText, hread]
    simp [hnone]

/-- Files with an extension in mixed case and a blank behind it; one of them is no text. -/
def spacedEntries : List (List Bytes × Entry) :=
  [([nameOf "a.Rs "], .file ⟨[0xFF], none⟩), ([nameOf "b.rS "], .file ⟨[], none⟩)]

theorem trySummarize_discovered_spaced :
    FileSummary.trySummarize (.made spacedEntries) Config.standard.summaryOptions
        (.ofString "/a.Rs ") = .error (.unreadable .notText) ∧
      ∃ l, FileSummary.trySummarize (.made spacedEntries) Config.standard.summaryOptions
        (.ofString "/b.rS ") = .ok (Summary.ofSource l [] none Config.standard.summaryOptions) := by
  have hentries : Store.Compatible spacedEntries :=
    ⟨by decide, by simp [spacedEntries, Entry.closed], by simp [spacedEntries]; decide⟩
  have hfound : discover (.made spacedEntries) (.ofString "/")
      { Config.standard with extensions := [".RS ".toList] } =
        .ok [.ofString "/a.Rs ", .ofString "/b.rS "] := by
    cbv
  have hsummary := trySummarize_discovered.2 _ _ _ _ (Store.wellFormed_made hentries)
    (by decide +kernel) hfound
  have hread : (Store.made spacedEntries).read (.ofString "/a.Rs ") = .ok ⟨[0xFF], none⟩ ∧
      (Store.made spacedEntries).read (.ofString "/b.rS ") = .ok ⟨[], none⟩ := by
    constructor <;> cbv
  obtain ⟨_, f, -, hf, hfails⟩ := hsummary (.ofString "/a.Rs ") List.mem_cons_self
  obtain ⟨l, g, -, hg, hlines⟩ :=
    hsummary (.ofString "/b.rS ") (List.mem_cons_of_mem _ List.mem_cons_self)
  rw [hread.1] at hf
  rw [hread.2] at hg
  cases hf
  cases hg
  exact ⟨(hfails _).2 (by cbv), l, (hlines _).1 [] (by cbv)⟩

end

end Outline
