import Mathlib
import Outline.Command.Run
import Outline.Proofs.ConfigFiles
import Outline.Proofs.StoreGrowth

/-!
# Runs one after the other

What commands do to a store over time.

* `Command.adds_of_initialized`, `Command.exists_initialized_of_vacant` — what `init` does, and where
  it ends well;
* `Outcome.store_eq_or_init` — the step: a run changes nothing, or is an `init` that ends well;
* `Outcome.after`, `Outcome.extends_after` — the store after a sequence of runs still shows all that
  was there before;
* `Outcome.runs_never_overwrite` — whatever is run, nothing is overwritten.
-/

namespace Outline

/-! ### Commands -/

/-- The file that `init` makes. -/
def Config.standardFile : File := ⟨Config.standard.write.utf8, none⟩

namespace Command

/-- **What `init` does**: where its path leads to nothing, it makes a file there. -/
theorem adds_of_initialized {path : Option Path} {s s' : Store} {out : Text}
    (h : initialized path s = .ok (out, s')) :
    ∃ names, s.Adds (initPath path) Config.standardFile s' names := by
  obtain ⟨habsent, hsave, -⟩ := initialized_ok_iff.1 h
  have hwrite := Config.save_eq_ok_iff.1 hsave
  obtain ⟨d, n, hr⟩ := Store.exists_vacant_of_write habsent hwrite
  exact ⟨d ++ [n], Store.adds_of_write hr hwrite⟩

/-- Only `init` changes the store. -/
theorem store_of_run {c : Command} {s s' : Store} {out : Text} (h : c.run s = .ok (out, s')) :
    s' = s ∨ ∃ path, c = .init path ∧ initialized path s = .ok (out, s') := by
  cases c with
  | scan choices =>
    left
    have hscan : (scanned choices s).map (fun text => (text, s)) = .ok (out, s') := h
    cases hresult : scanned choices s with
    | error e =>
      rw [hresult] at hscan
      cases hscan
    | ok text =>
      rw [hresult] at hscan
      cases hscan
      rfl
  | languages =>
    left
    cases h
    rfl
  | init path => exact Or.inr ⟨path, rfl, h⟩

/-- The path that `init` writes to ends with the name of the file. -/
theorem getLast?_initPath (path : Option Path) :
    (initPath path).bytes.getLast? ≠ some Path.slash := by
  have hrelative : (Path.mk (Text.utf8 Config.fileName)).isAbsolute = false := by decide
  have hlast : (Text.utf8 Config.fileName).getLast? = some 0x6E := by decide
  unfold initPath Path.join
  rw [hrelative, if_neg Bool.false_ne_true]
  split
  · simp [List.getLast?_append, hlast, Path.slash]
  · simp [List.getLast?_append, List.getLast?_cons, hlast, Path.slash]

/-- Where its path leads to a free name, `init` ends well. -/
theorem exists_initialized_of_vacant {path : Option Path} {s : Store} {d : List Bytes} {n : Bytes}
    (h : s.resolve (initPath path) = .ok (.vacant d n)) :
    ∃ out s', initialized path s = .ok (out, s') := by
  have habsent : s.has (initPath path) = false := by
    rw [Store.has, Store.get, h]
    rfl
  obtain ⟨s', hwrite⟩ : ∃ s', s.write (initPath path) Config.standard.write.utf8 = .ok s' :=
    Store.exists_write_iff.2 ⟨getLast?_initPath path, _, h, trivial⟩
  exact ⟨_, s', initialized_ok_iff.2 ⟨habsent, Config.save_eq_ok_iff.2 hwrite, rfl⟩⟩

end Command

namespace Outcome

/-- **One run.**  It leaves the store as it was, or it is an `init` that ends well. -/
theorem store_eq_or_init (s : Store) (args : List Text) :
    (ofArguments s args).2 = s ∨
      ∃ path, Request.ofArguments args = .run (.init path) ∧ (ofArguments s args).1.code = 0 := by
  unfold ofArguments
  cases Request.ofArguments args with
  | run c =>
    cases hrun : c.run s with
    | error e =>
      left
      simp only [ofRequest, hrun]
    | ok result =>
      obtain ⟨out, s'⟩ := result
      have hresult : ofRequest s (.run c) = (⟨0, out, none⟩, s') := by simp only [ofRequest, hrun]
      rw [hresult]
      obtain heq | ⟨path, rfl, -⟩ := Command.store_of_run hrun
      · exact Or.inl heq
      · exact Or.inr ⟨path, rfl, rfl⟩
  | version => exact Or.inl rfl
  | help => exact Or.inl rfl
  | misuse => exact Or.inl rfl

/-- An `init` that ends well makes its file. -/
theorem adds_of_init {s : Store} {args : List Text} {path : Option Path}
    (hargs : Request.ofArguments args = .run (.init path))
    (hcode : (ofArguments s args).1.code = 0) :
    ∃ names, s.Adds (Command.initPath path) Config.standardFile (ofArguments s args).2 names := by
  rw [ofArguments, hargs] at hcode ⊢
  cases hinit : Command.initialized path s with
  | error e => simp [ofRequest, Command.run, hinit] at hcode
  | ok result =>
    have hstore : (ofRequest s (.run (.init path))).2 = result.2 := by
      simp [ofRequest, Command.run, hinit]
    rw [hstore]
    exact Command.adds_of_initialized hinit

/-- The store after runs one after the other. -/
def after (s : Store) (runs : List (List Text)) : Store :=
  runs.foldl (fun s args => (ofArguments s args).2) s

theorem ofRuns_append_cons (s : Store) (before : List (List Text)) (args : List Text)
    (later : List (List Text)) : (ofRuns s (before ++ args :: later))[before.length]? =
      some (ofArguments (after s before) args) := by
  induction before generalizing s with
  | nil => rfl
  | cons first before ih =>
    rw [List.cons_append, ofRuns, List.length_cons, List.getElem?_cons_succ]
    exact ih _

theorem extends_ofArguments (s : Store) (args : List Text) :
    s.Extends (ofArguments s args).2 := by
  obtain h | ⟨path, hargs, hcode⟩ := store_eq_or_init s args
  · rw [h]
    exact Store.Extends.refl s
  · obtain ⟨names, hadds⟩ := adds_of_init hargs hcode
    exact hadds.extends

/-- **Any number of runs.**  All that was there before is still there. -/
theorem extends_after (s : Store) (runs : List (List Text)) : s.Extends (after s runs) := by
  induction runs generalizing s with
  | nil => exact Store.Extends.refl s
  | cons args runs ih => exact (extends_ofArguments s args).trans (ih _)

/-- **Nothing is ever overwritten**, whatever is run before and later.  What stands anywhere before
a run stands there to the end.  A run that does not end well leaves the store as it was.  One that
changes it is an `init` that ends well: its path led to nothing, now it leads to a new file, and all
else is as it was.  To the end that path leads to that file, and the file is loaded as the default
configuration, which is what its text says. -/
theorem runs_never_overwrite (s : Store) (before : List (List Text)) (args : List Text)
    (later : List (List Text)) :
    let start := after s before
    let result := ofArguments start args
    let last := after result.2 later
    (ofRuns s (before ++ args :: later))[before.length]? = some result ∧
    start.Extends last ∧
    (result.1.code ≠ 0 → result.2 = start) ∧
    (result.2 = start ∨
      ∃ path, Request.ofArguments args = .run (.init path) ∧ result.1.code = 0) ∧
    (∀ path, Request.ofArguments args = .run (.init path) → result.1.code = 0 → ∃ names,
      start.Adds (Command.initPath path) Config.standardFile result.2 names ∧
      last.get (Command.initPath path) = .ok (names, .file Config.standardFile) ∧
      Config.load last (Command.initPath path) = .ok Config.standard) ∧
    Config.read? Config.standard.write = some Config.standard := by
  intro start result last
  refine ⟨ofRuns_append_cons s before args later,
    (extends_ofArguments start args).trans (extends_after _ later),
    store_ofRequest_of_code_ne_zero, store_eq_or_init start args, ?_, Config.read?_write _⟩
  intro path hargs hcode
  obtain ⟨names, hadds⟩ := adds_of_init hargs hcode
  have hget := Store.get_of_extends (extends_after result.2 later) hadds.added
  exact ⟨names, hadds, hget, Config.load_of_get hget⟩

/-- An `init` between other runs: a second one leaves its file alone. -/
theorem runs_never_overwrite_twice :
    let path := Path.ofString "./codebrief.json"
    let s := after .empty [["scan".toList]]
    let last := after s [["init".toList], ["init".toList], ["languages".toList]]
    (ofArguments s ["init".toList]).1.code = 0 ∧ Config.load last path = .ok Config.standard ∧
      ∃ names, last.get path = .ok (names, .file Config.standardFile) := by
  intro path s last
  have hpath : Command.initPath none = path := by decide
  have hs : s = .empty := by
    show (ofArguments .empty ["scan".toList]).2 = .empty
    cbv
  have hargs : Request.ofArguments ["init".toList] = .run (.init none) := by decide +kernel
  have hfree : Store.empty.resolve (Command.initPath none) =
      .ok (.vacant [] Config.fileName.utf8) := by cbv
  have hcode : (ofArguments s ["init".toList]).1.code = 0 := by
    obtain ⟨out, s', hinit⟩ := Command.exists_initialized_of_vacant hfree
    rw [hs, ofArguments, hargs]
    simp only [ofRequest, Command.run, hinit]
  obtain ⟨-, -, -, -, hfile, -⟩ := runs_never_overwrite .empty [["scan".toList]] ["init".toList]
    [["init".toList], ["languages".toList]]
  obtain ⟨names, -, hget, hload⟩ := hfile none hargs hcode
  rw [hpath] at hget hload
  exact ⟨hcode, hload, names, hget⟩

end Outcome

end Outline
