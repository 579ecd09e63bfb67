import Outline.Config.File
import Outline.Proofs.Encoding
import Outline.Proofs.JsonRoundTrip
import Outline.Proofs.StoreView

/-!
# Saved configurations

* `Config.plain_toJson` — a configuration is written as a plain value;
* `Config.field?_toJson` — each field is read from the member that was written for it;
* `Config.read?_write` — the text of a configuration stands for that configuration;
* `Config.load_save` — a configuration can be saved wherever a file can be written, and what is
  loaded then is the configuration itself.

Nothing is asked of the configuration: one that cannot be used is read back as well.
-/

namespace Outline

namespace Config

/-! ### The written value -/

theorem plain_stringsToJson (ts : List Text) : (stringsToJson ts).Plain := by
  refine .array fun v hv => ?_
  obtain ⟨t, -, rfl⟩ := List.mem_map.1 hv
  exact .string t

theorem strings?_stringsToJson (ts : List Text) : (stringsToJson ts).strings? = some ts := by
  show (ts.map Json.string).mapM Json.string? = some ts
  rw [List.mapM_map]
  exact (List.mapM_pure (m := Option) (l := ts) (f := id)).trans (congrArg some ts.map_id)

theorem plain_fieldValues (c : Config) : ∀ v ∈ c.fieldValues, v.Plain := by
  simp [fieldValues, Json.Plain.ofNat, Json.Plain.bool, plain_stringsToJson]

/-- A configuration is written as a plain value. -/
theorem plain_toJson (c : Config) : c.toJson.Plain :=
  .object fun _ hm => c.plain_fieldValues _ (List.of_mem_zip hm).2

/-! ### Reading it back -/

/-- Where names are distinct, only one of the pairs has the name at a position. -/
theorem filter_zip {names : List Text} (hnodup : names.Nodup) {values : List Json} {n : Nat}
    {name : Text} {v : Json} (hname : names[n]? = some name) (hv : values[n]? = some v) :
    (names.zip values).filter (·.1 == name) = [(name, v)] := by
  induction names generalizing values n with
  | nil => cases hname
  | cons first names ih =>
    obtain ⟨hfirst, hnodup⟩ := List.nodup_cons.1 hnodup
    cases values with
    | nil => cases hv
    | cons w values =>
      rw [List.zip_cons_cons]
      cases n with
      | zero =>
        cases hname
        cases hv
        rw [List.filter_cons, if_pos (beq_self_eq_true name), List.filter_eq_nil_iff.2]
        intro m hm heq
        exact hfirst (eq_of_beq heq ▸ (List.of_mem_zip hm).1)
      | succ n =>
        have hne : ¬(first == name) = true := fun heq =>
          hfirst (eq_of_beq heq ▸ List.mem_of_getElem? hname)
        rw [List.filter_cons, if_neg hne]
        exact ih hnodup hname hv

theorem nodup_fieldNames : (fieldNames.map String.toList).Nodup := by decide

/-- A field is read from the member that was written for it, as no other one has its name. -/
theorem field?_toJson (c : Config) {n : Nat} {name : String} {v : Json}
    (hname : fieldNames[n]? = some name) (hv : c.fieldValues[n]? = some v) {α : Type}
    (read : Json → Option α) (default : α) :
    field? ((fieldNames.map String.toList).zip c.fieldValues) name read default = read v := by
  have hname : (fieldNames.map String.toList)[n]? = some name.toList := by simp [hname]
  rw [field?, filter_zip nodup_fieldNames hname hv]

theorem ofJson?_toJson (c : Config) : ofJson? c.toJson = some c := by
  rw [toJson, ofJson?, ofMembers?, c.field?_toJson (n := 0) rfl rfl,
    c.field?_toJson (n := 1) rfl rfl, c.field?_toJson (n := 2) rfl rfl,
    c.field?_toJson (n := 3) rfl rfl, c.field?_toJson (n := 4) rfl rfl,
    c.field?_toJson (n := 5) rfl rfl, c.field?_toJson (n := 6) rfl rfl,
    c.field?_toJson (n := 7) rfl rfl, c.field?_toJson (n := 8) rfl rfl]
  simp only [Json.natural?_ofNat, Json.bool?, strings?_stringsToJson, Option.bind_eq_bind,
    Option.bind_some]

/-- **The text of a configuration stands for that configuration.** -/
theorem read?_write (c : Config) : read? c.write = some c := by
  rw [read?, write, Json.parse?_pretty c.plain_toJson]
  exact c.ofJson?_toJson

/-! ### Files -/

theorem save_eq_ok_iff {c : Config} {s s' : Store} {p : Path} :
    c.save s p = .ok s' ↔ s.write p c.write.utf8 = .ok s' := by
  unfold save
  cases s.write p c.write.utf8 <;> simp

/-- A file that holds the text of a configuration is loaded as that configuration. -/
theorem load_of_get {s : Store} {p : Path} {names : List Bytes} {c : Config}
    (h : s.get p = .ok (names, .file ⟨c.write.utf8, none⟩)) : load s p = .ok c := by
  have hread : s.read p = .ok ⟨c.write.utf8, none⟩ := by rw [Store.read, h]
  rw [load, if_pos (Store.has_of_read hread), Store.readText, hread]
  simp [Utf8.decode?_utf8, read?_write]

/-- **Saving and loading keeps a configuration.**  It can be saved wherever a file can be written,
and then the file is loaded as the same configuration, whatever its numbers and texts are. -/
theorem load_save (c : Config) (s : Store) (p : Path) :
    ((∃ s', c.save s p = .ok s') ↔ s.Writable p) ∧
      ∀ s', c.save s p = .ok s' → load s' p = .ok c := by
  constructor
  · simp only [save_eq_ok_iff]
    exact Store.exists_write_iff
  · intro s' hsave
    obtain ⟨names, hget⟩ := Store.get_of_write (save_eq_ok_iff.1 hsave)
    exact load_of_get hget

/-- A configuration that cannot be used, with texts that are hard to write. -/
def oddTexts : Config where
  maxSummariesPerFile := 0
  extensions := [[], ['"', '\\', '/'], ['\n', '\x01', '\x7f', 'é', '\u2028', '\uFFFF']]
  excludeDirs := []
  maxFileSize := 18446744073709551615

theorem load_save_oddTexts : oddTexts.isValid = false ∧
    ∃ s', oddTexts.save .empty (.ofText fileName) = .ok s' ∧
      load s' (.ofText fileName) = .ok oddTexts := by
  have hfree : Store.empty.resolve (.ofText fileName) = .ok (.vacant [] fileName.utf8) := by
    rw [Store.resolve_ok_iff]
    have hpieces : (Path.ofText fileName).bytes.splitOn Path.slash = [fileName.utf8] := by decide
    rw [hpieces]
    exact ⟨by decide, by decide, Store.follow_free ⟨by decide, by decide, by decide⟩ rfl⟩
  obtain ⟨hsave, hload⟩ := load_save oddTexts .empty (.ofText fileName)
  obtain ⟨s', hs'⟩ := hsave.2 ⟨by decide, _, hfree, trivial⟩
  exact ⟨by decide, s', hs', hload s' hs'⟩

end Config

end Outline
