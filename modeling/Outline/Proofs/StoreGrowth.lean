import Outline.Proofs.StoreView

/-!
# Stores that grow

What stays when files are made where nothing was.

* `Store.Alike`, `Store.Gains` — a store that shows the same as another, and one that shows new
  files besides;
* `Store.follow_of_gains` — paths lead where they led before, but for those to a free name that
  became a file; so `Store.has_of_gains` and `Store.read_of_gains`;
* `Store.Extends` — a store that shows all that another shows;
* `Store.get_of_extends` — a path that leads to a file still leads to it in a store that grew;
* `Store.Adds` — a store after a file was made where a path led to nothing;
* `Store.adds_of_write` — this is what writing to a free name does.
-/

namespace Outline

namespace Store

/-! ### Stores that gain files -/

/-- A place, a directory without what it holds. -/
def Place.closed : Place → Place
  | .entry names e => .entry names e.closed
  | .vacant d n => .vacant d n

/-- Whether two stores show the same: their directories hold the same, perhaps in another order. -/
def Alike (s s' : Store) : Prop := ∀ names, s.shown? names = s'.shown? names

theorem Alike.symm {s s' : Store} (h : Alike s s') : Alike s' s := fun names => (h names).symm

/-- The second store shows what the first does, and a file under each of the new lists of names. -/
structure Gains (s : Store) (new : List Bytes → Prop) (s' : Store) : Prop where
  /-- What is not new is as it was. -/
  others : ∀ names, ¬new names → s'.shown? names = s.shown? names
  /-- Nothing was where a new file is. -/
  free : ∀ names, new names → s.shown? names = none
  /-- What is new is a file. -/
  files : ∀ names, new names → ∃ f, s'.shown? names = some (.file f)

theorem Alike.gains {s s' : Store} (h : s.Alike s') : s.Gains (fun _ => False) s' :=
  ⟨fun names _ => (h names).symm, fun _ hnew => hnew.elim, fun _ hnew => hnew.elim⟩

/-- Whether a result is no free name that is new. -/
def Keeps (new : List Bytes → Prop) (result : Except IoError Place) : Prop :=
  ∀ d n, result = .ok (.vacant d n) → ¬new (d ++ [n])

section Gains

variable {s s' : Store} {new : List Bytes → Prop} {q : Path} {names pieces : List Bytes}
  {links : Nat}

theorem Gains.find?_none (h : s.Gains new s') (hold : ¬new names) (hnone : s.find? names = none) :
    s'.find? names = none := by
  rw [find?_none_iff, h.others names hold, ← find?_none_iff]
  exact hnone

theorem Gains.shown? (h : s.Gains new s') {e : Entry} (he : s.find? names = some e) :
    s'.shown? names = some e.closed := by
  have hshown : s.shown? names = some e.closed := by
    rw [Store.shown?, he]
    rfl
  rw [h.others names fun hnew => ?_, hshown]
  rw [h.free names hnew] at hshown
  cases hshown

/-- **Paths lead where they led before**, or fail as before, perhaps for another reason. -/
theorem follow_of_gains (h : s.Gains new s') (hdir : s.IsDirectory names)
    (hkeeps : Keeps new (s.follow links names pieces)) :
    (s'.follow links names pieces).toOption.map Place.closed =
      (s.follow links names pieces).toOption.map Place.closed := by
  fun_induction follow s links names pieces with
  | case1 links names e he =>
    obtain ⟨e', he', hclosed⟩ := find?_of_shown? (h.shown? he)
    rw [follow_nil he']
    show some (Place.entry names e'.closed) = some (Place.entry names e.closed)
    rw [hclosed]
  | case2 links names he =>
    obtain ⟨es, hes⟩ := hdir
    rw [he] at hes
    cases hes
  | case3 links names piece rest hidle ih => rw [follow_idle hidle]; exact ih hdir hkeeps
  | case4 links names rest _ ih => rw [follow_up]; exact ih hdir.dropLast hkeeps
  | case5 links names piece rest hidle hup hlen => simp [follow, *]
  | case6 links names piece hidle hup hlen he =>
    rw [follow_free (isStep_of_not hidle hup hlen) (h.find?_none (hkeeps _ _ rfl) he)]
  | case7 links names piece rest hidle hup hlen he hrest =>
    -- where nothing was there may be a new file, but no path leads through a file
    by_cases hnew : new (names ++ [piece])
    · obtain ⟨f, hf⟩ := h.files _ hnew
      have hf := find?_file_iff.2 hf
      simp [follow, Except.toOption, *]
    · have hnone := h.find?_none hnew he
      simp [follow, *]
  | case8 links names piece rest hidle hup hlen es he ih =>
    obtain ⟨es', he'⟩ := isDirectory_iff.2 (h.shown? he)
    rw [follow_dir (isStep_of_not hidle hup hlen) he']
    exact ih ⟨es, he⟩ hkeeps
  | case9 links names piece hidle hup hlen g he =>
    rw [follow_file (isStep_of_not hidle hup hlen) (find?_file_iff.2 (h.shown? he))]
  | case10 links names piece rest hidle hup hlen g he hrest =>
    have he' := find?_file_iff.2 (h.shown? he)
    simp [follow, *]
  | case11 names piece rest hidle hup hlen target he =>
    have he' := find?_link_iff.2 (h.shown? he)
    simp [follow, *]
  | case12 names piece rest hidle hup hlen target he links ih =>
    have he' := find?_link_iff.2 (h.shown? he)
    rw [follow_link (isStep_of_not hidle hup hlen) he']
    have hdir' : s.IsDirectory (if target.isAbsolute = true then [] else names) := by
      split
      · exact s.isDirectory_nil
      · exact hdir
    simpa using ih (by simpa using hdir') (by simpa using hkeeps)

theorem resolve_of_gains (h : s.Gains new s') (hkeeps : Keeps new (s.resolve q)) :
    (s'.resolve q).toOption.map Place.closed = (s.resolve q).toOption.map Place.closed := by
  unfold resolve at hkeeps ⊢
  split
  · rfl
  split
  · rfl
  · rename_i hnil hlong
    rw [if_neg hnil, if_neg hlong] at hkeeps
    exact follow_of_gains h s.isDirectory_nil hkeeps

/-- Results of which a map makes the values equal are failures both, or values that it makes
equal. -/
theorem eq_of_map_toOption_eq {ε α β : Type} {g : α → β} {x y : Except ε α}
    (h : x.toOption.map g = y.toOption.map g) :
    (∃ e e', x = .error e ∧ y = .error e') ∨ ∃ a b, x = .ok a ∧ y = .ok b ∧ g a = g b := by
  cases x with
  | error e =>
    cases y with
    | error e' => exact Or.inl ⟨e, e', rfl, rfl⟩
    | ok b => cases h
  | ok a =>
    cases y with
    | error e' => cases h
    | ok b => exact Or.inr ⟨a, b, rfl, rfl, Option.some.inj h⟩

/-- What a path leads to stays, or it still leads nowhere. -/
theorem get_of_gains (h : s.Gains new s') (hkeeps : Keeps new (s.resolve q)) :
    (s'.get q).toOption.map (fun r => (r.1, r.2.closed)) =
      (s.get q).toOption.map fun r => (r.1, r.2.closed) := by
  unfold get
  obtain ⟨e', e, hs', hs⟩ | ⟨place', place, hs', hs, hclosed⟩ :=
    eq_of_map_toOption_eq (resolve_of_gains h hkeeps)
  · rw [hs, hs']
    rfl
  · rw [hs, hs']
    cases place <;> cases place' <;> simp_all [Place.closed, Except.toOption]

theorem has_of_gains (h : s.Gains new s') (hkeeps : Keeps new (s.resolve q)) :
    s'.has q = s.has q := by
  unfold has
  obtain ⟨e', e, hs', hs⟩ | ⟨r', r, hs', hs, -⟩ := eq_of_map_toOption_eq (get_of_gains h hkeeps)
  · rw [hs, hs']
    rfl
  · rw [hs, hs']
    rfl

theorem read_of_gains (h : s.Gains new s') (hkeeps : Keeps new (s.resolve q)) :
    (s'.read q).toOption = (s.read q).toOption := by
  unfold read
  obtain ⟨e', e, hs', hs⟩ | ⟨⟨names', e'⟩, ⟨names, e⟩, hs', hs, hclosed⟩ :=
    eq_of_map_toOption_eq (get_of_gains h hkeeps)
  · rw [hs, hs']
    rfl
  · rw [hs, hs']
    obtain ⟨-, he⟩ := Prod.mk.inj hclosed
    cases e <;> cases e' <;> simp_all [Entry.closed]

/-- A directory stays one, at the same names. -/
theorem get_dir_of_gains (h : s.Gains new s') {es : Entries}
    (hget : s.get q = .ok (names, .dir es)) : ∃ es', s'.get q = .ok (names, .dir es') := by
  have hkeeps : Keeps new (s.resolve q) := by
    intro d n hvacant
    rw [get_ok_iff.1 hget] at hvacant
    cases hvacant
  obtain ⟨e', e, -, hs⟩ | ⟨⟨names', e'⟩, r, hs', hs, hclosed⟩ :=
    eq_of_map_toOption_eq (get_of_gains h hkeeps)
  · rw [hget] at hs
    cases hs
  · rw [hget] at hs
    cases hs
    obtain ⟨rfl, he⟩ := Prod.mk.inj hclosed
    cases e' with
    | dir es' => exact ⟨es', hs'⟩
    | file g => cases he
    | link t => cases he

end Gains

/-! ### Stores that show more -/

/-- Whether all that stands in the first store stands in the second as well. -/
def Extends (s s' : Store) : Prop := ∀ names e, s.shown? names = some e → s'.shown? names = some e

theorem Extends.refl (s : Store) : s.Extends s := fun _ _ h => h

theorem Extends.trans {s s' s'' : Store} (h : s.Extends s') (h' : s'.Extends s'') :
    s.Extends s'' := fun names e he => h' names e (h names e he)

/-- **A path that leads to a file still leads to it** when other entries have come. -/
theorem get_of_extends {s s' : Store} (h : s.Extends s') {p : Path} {names : List Bytes} {f : File}
    (hget : s.get p = .ok (names, .file f)) : s'.get p = .ok (names, .file f) := by
  obtain ⟨hnil, hlong, hfollow⟩ := resolve_ok_iff.1 (get_ok_iff.1 hget)
  have hkept : ∀ ms e, s.find? ms = some e → (∀ g, e ≠ .file g) → s'.shown? ms = some e.closed := by
    intro ms e he _
    apply h
    rw [shown?, he]
    rfl
  have hfile : s'.find? names = some (.file f) :=
    find?_file_iff.2 (h _ _ (find?_file_iff.1 (find?_of_get hget)))
  exact get_ok_iff.2 (resolve_ok_iff.2
    ⟨hnil, hlong, follow_of_kept hkept hfollow ⟨f, rfl⟩ hfile⟩)

/-- The second store is the first with a file under a path that led to nothing. -/
structure Adds (s : Store) (p : Path) (f : File) (s' : Store) (names : List Bytes) : Prop where
  /-- The path led to nothing. -/
  absent : s.has p = false
  /-- Nothing had the names of the file. -/
  free : s.shown? names = none
  /-- The path leads to the file. -/
  added : s'.get p = .ok (names, .file f)
  /-- All else is as it was. -/
  others : ∀ ms, ms ≠ names → s'.shown? ms = s.shown? ms

theorem Adds.extends {s s' : Store} {p : Path} {f : File} {names : List Bytes}
    (h : s.Adds p f s' names) : s.Extends s' := by
  intro ms e he
  by_cases hms : ms = names
  · rw [hms, h.free] at he
    cases he
  · rw [h.others ms hms, he]

theorem Adds.gains {s s' : Store} {p : Path} {f : File} {names : List Bytes}
    (h : s.Adds p f s' names) : s.Gains (· = names) s' where
  others := h.others
  free := by
    rintro ms rfl
    exact h.free
  files := by
    rintro ms rfl
    exact ⟨f, find?_file_iff.1 (find?_of_get h.added)⟩

/-- A path under which a file can be written leads to a free name, if it leads to no entry. -/
theorem exists_vacant_of_write {s s' : Store} {p : Path} {bytes : Bytes} (habsent : s.has p = false)
    (h : s.write p bytes = .ok s') : ∃ d n, s.resolve p = .ok (.vacant d n) := by
  obtain ⟨-, place, hr, -, -⟩ := write_ok.1 h
  cases place with
  | entry names e =>
    rw [has, get_ok_iff.2 hr] at habsent
    cases habsent
  | vacant d n => exact ⟨d, n, hr⟩

/-- A file that is written where a path leads to a free name is added there. -/
theorem adds_of_write {s s' : Store} {p : Path} {bytes : Bytes} {d : List Bytes} {n : Bytes}
    (hr : s.resolve p = .ok (.vacant d n)) (h : s.write p bytes = .ok s') :
    s.Adds p ⟨bytes, none⟩ s' (d ++ [n]) := by
  obtain ⟨-, place, hplace, hw, rfl⟩ := write_ok.1 h
  rw [hr] at hplace
  cases hplace
  obtain ⟨hd, hfree⟩ := sound_of_follow s.isDirectory_nil (resolve_ok_iff.1 hr).2.2
  have hnone : ∀ e, s.find? (d ++ [n]) = some e → ∃ f, e = .file f := by
    intro e he
    rw [hfree] at he
    cases he
  refine ⟨?_, find?_none_iff.1 hfree, get_put_file hr hw _,
    fun ms hms => shown?_put_file hd hnone _ hms⟩
  rw [has, get, hr]
  rfl

end Store

end Outline
