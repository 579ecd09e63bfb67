import Mathlib
import Outline.Insight
import Outline.Proofs.PathResolution
import Outline.Proofs.WellFormedStore

/-!
# What becomes of each file

The three outcomes of a file, told apart by its extension and by what its path leads to, and batches of
files, worked off in any order.

* `FileSummary.trySummarize_ok_iff`, `FileSummary.unsupported_iff`, `FileSummary.unreadable_iff` — the
  outcomes;
* `FileSummary.Fills` — one file of a batch is summarized, whichever comes next;
* `FileSummary.Filled` — what a batch at work has done so far, kept by each step;
* `FileSummary.Finished`, `FileSummary.finished_iff` — a batch that has nothing left to do has one
  summary a path, in the order of the paths;
* `FileSummary.ofPaths_each` — all of it for every store, path and list of paths.
-/

namespace Outline.FileSummary

variable {s : Store} {o : SummaryOptions} {p : Path}

/-! ### One file -/

theorem trySummarize_ok_iff {lines : List Text} : trySummarize s o p = .ok lines ↔
    ∃ l t f, Registry.standard.lookupPath? p = some l ∧ s.HoldsText p t f ∧
      lines = Summary.ofSource l t f.tree o := by
  simp only [← Store.readText_ok_iff]
  rw [trySummarize]
  cases Registry.standard.lookupPath? p with
  | none => simp
  | some l =>
    cases s.readText p with
    | error e => simp
    | ok r =>
      obtain ⟨t, f⟩ := r
      simp [eq_comm]

/-- A file is refused for its extension whatever its path leads to. -/
theorem unsupported_iff : (∃ e, trySummarize s o p = .error (.unsupported e)) ↔
    Registry.standard.lookupPath? p = none := by
  rw [trySummarize]
  cases Registry.standard.lookupPath? p with
  | none => simp
  | some l => cases s.readText p <;> simp

theorem unreadable_iff : (∃ e, trySummarize s o p = .error (.unreadable e)) ↔
    (∃ l, Registry.standard.lookupPath? p = some l) ∧ ¬∃ t f, s.HoldsText p t f := by
  simp only [← Store.readText_ok_iff]
  rw [trySummarize]
  cases Registry.standard.lookupPath? p with
  | none => simp
  | some l =>
    cases s.readText p with
    | error e => simp
    | ok r =>
      obtain ⟨t, f⟩ := r
      simp

theorem lines_ofPath_iff {lines : List Text} :
    (ofPath s o p).lines = some lines ↔ trySummarize s o p = .ok lines := by
  rw [ofPath]
  cases trySummarize s o p <;> simp [Except.toOption]

/-! ### Batches -/

/-- One file of a batch is summarized: an empty slot is filled, in any order of the slots.  The slot of
a path is at its place in the list, so that equal paths have slots of their own. -/
inductive Fills (s : Store) (o : SummaryOptions) (ps : List Path) :
    List (Option FileSummary) → List (Option FileSummary) → Prop
  | slot {slots : List (Option FileSummary)} {i : Nat} {p : Path} :
      ps[i]? = some p → slots[i]? = some none →
      Fills s o ps slots (slots.set i (some (ofPath s o p)))

/-- A batch before its first file. -/
def unfilled (ps : List Path) : List (Option FileSummary) := ps.map fun _ => none

/-- A slot a path, empty or filled with the summary of that path alone. -/
structure Filled (s : Store) (o : SummaryOptions) (ps : List Path)
    (slots : List (Option FileSummary)) : Prop where
  length : slots.length = ps.length
  slot : ∀ (i : Nat) (f : FileSummary), slots[i]? = some (some f) →
    ∃ p : Path, ps[i]? = some p ∧ f = ofPath s o p

variable {ps : List Path} {slots next : List (Option FileSummary)}

theorem filled_unfilled : Filled s o ps (unfilled ps) where
  length := List.length_map _
  slot := by
    intro i f hf
    rw [unfilled, List.getElem?_map] at hf
    obtain ⟨_, -, hnone⟩ := Option.map_eq_some_iff.1 hf
    cases hnone

/-- **One step** leaves the other slots as they are. -/
theorem Filled.fills (h : Filled s o ps slots) (hstep : Fills s o ps slots next) :
    Filled s o ps next := by
  cases hstep with
  | @slot i p hp hi =>
    refine ⟨by rw [List.length_set, h.length], ?_⟩
    intro j f hf
    rw [List.getElem?_set] at hf
    split at hf
    · rename_i hij
      split at hf
      · cases hf
        exact ⟨p, hij ▸ hp, rfl⟩
      · cases hf
    · exact h.slot j f hf

/-- **Any run** of a batch fills slots with the summaries of their own paths. -/
theorem filled_of_run (h : Relation.ReflTransGen (Fills s o ps) (unfilled ps) slots) :
    Filled s o ps slots := by
  induction h with
  | refl => exact filled_unfilled
  | tail _ hstep ih => exact ih.fills hstep

/-- A batch that was run until no slot is left to fill. -/
def Finished (s : Store) (o : SummaryOptions) (ps : List Path) (slots : List (Option FileSummary)) :
    Prop :=
  Relation.ReflTransGen (Fills s o ps) (unfilled ps) slots ∧ ∀ next, ¬Fills s o ps slots next

/-- Where no slot is left to fill, each holds the summary of its path. -/
theorem Filled.eq_of_stuck (h : Filled s o ps slots) (hstuck : ∀ next, ¬Fills s o ps slots next) :
    slots = (ofPaths s o ps).map some := by
  apply List.ext_getElem?
  intro i
  rw [ofPaths, List.map_map, List.getElem?_map]
  cases hp : ps[i]? with
  | none =>
    rw [List.getElem?_eq_none_iff, ← h.length] at hp
    exact List.getElem?_eq_none_iff.2 hp
  | some p =>
    obtain ⟨hi, -⟩ := List.getElem?_eq_some_iff.1 hp
    rw [← h.length] at hi
    cases hslot : slots[i] with
    | none =>
      have hempty : slots[i]? = some none := by rw [List.getElem?_eq_getElem hi, hslot]
      exact absurd (Fills.slot hp hempty) (hstuck _)
    | some f =>
      have hfull : slots[i]? = some (some f) := by rw [List.getElem?_eq_getElem hi, hslot]
      obtain ⟨q, hq, rfl⟩ := h.slot i f hfull
      rw [hp] at hq
      cases hq
      exact hfull

/-- The slots can be filled from the first to the last. -/
theorem run_in_order (front back : List Path) :
    Relation.ReflTransGen (Fills s o (front ++ back))
      ((ofPaths s o front).map some ++ unfilled back) ((ofPaths s o (front ++ back)).map some) := by
  induction back generalizing front with
  | nil =>
    rw [unfilled, List.map_nil, List.append_nil, List.append_nil]
  | cons p back ih =>
    have hlen : ((ofPaths s o front).map some).length = front.length := by simp [ofPaths]
    have hp : (front ++ p :: back)[front.length]? = some p := by simp
    have hslot : ((ofPaths s o front).map some ++ unfilled (p :: back))[front.length]?
        = some none := by
      rw [← hlen]
      simp [unfilled]
    have hset : ((ofPaths s o front).map some ++ unfilled (p :: back)).set front.length
        (some (ofPath s o p)) = (ofPaths s o (front ++ [p])).map some ++ unfilled back := by
      rw [← hlen]
      simp [unfilled, ofPaths]
    have hrest := ih (front ++ [p])
    rw [← hset, List.append_assoc, List.singleton_append] at hrest
    exact Relation.ReflTransGen.head (Fills.slot hp hslot) hrest

/-- **Batches.**  A batch that was run until nothing is left to do has the summaries in the order of
the paths, in whatever order the files were worked off. -/
theorem finished_iff : Finished s o ps slots ↔ slots = (ofPaths s o ps).map some := by
  constructor
  · rintro ⟨hrun, hstuck⟩
    exact (filled_of_run hrun).eq_of_stuck hstuck
  · rintro rfl
    refine ⟨run_in_order [] ps, ?_⟩
    intro next hstep
    cases hstep with
    | slot _ hi => simp [List.getElem?_map] at hi

/-- **What becomes of every file**, alone and in a batch.  A file is refused for its extension exactly
if no language has it, whatever its path leads to.  Otherwise it cannot be read exactly if its path does
not lead, through links, to a file that holds a text; and else it has the lines of that text, none if
the text is blank, but never no summary.  In a batch each path has the summary it has alone, whether the
files are worked off in their order or at the same time. -/
theorem ofPaths_each (s : Store) (o : SummaryOptions) :
    (∀ p, ((∃ e, trySummarize s o p = .error (.unsupported e)) ↔
        Registry.standard.lookupPath? p = none) ∧
      ((∃ e, trySummarize s o p = .error (.unreadable e)) ↔
        (∃ l, Registry.standard.lookupPath? p = some l) ∧ ¬∃ t f, s.HoldsText p t f) ∧
      (∀ lines, trySummarize s o p = .ok lines ↔
        ∃ l t f, Registry.standard.lookupPath? p = some l ∧ s.HoldsText p t f ∧
          lines = Summary.ofSource l t f.tree o) ∧
      (∀ lines, (ofPath s o p).lines = some lines ↔ trySummarize s o p = .ok lines)) ∧
    (∀ l t tree, t.blank = true → Summary.ofSource l t tree o = []) ∧
    ∀ (parallel : Bool) (ps : List Path),
      ofPaths s { o with parallel := parallel } ps = ps.map (ofPath s o) ∧
      ∀ slots, Finished s { o with parallel := parallel } ps slots ↔
        slots = ps.map fun p => some (ofPath s o p) := by
  refine ⟨fun p => ⟨unsupported_iff, unreadable_iff, fun lines => trySummarize_ok_iff,
    fun lines => lines_ofPath_iff⟩, fun l t tree h => Summary.ofSource_of_blank l tree o h, ?_⟩
  intro parallel ps
  have hsame : ofPaths s { o with parallel := parallel } ps = ps.map (ofPath s o) := rfl
  refine ⟨hsame, ?_⟩
  intro slots
  rw [finished_iff, hsame, List.map_map]
  rfl

/-- A blank file, and a link that leads to itself. -/
def loopEntries : List (List Bytes × Entry) :=
  [([Text.utf8 "a.rs".toList], .file ⟨Text.utf8 " \n".toList, none⟩),
    ([Text.utf8 "l.rs".toList], .link (.ofString "l.rs"))]

theorem ofPaths_each_loop :
    Text.blank " \n".toList = true ∧
      (ofPaths (.made loopEntries) { parallel := true }
        [.ofString "/l.rs", .ofString "/a.rs", .ofString "/no", .ofString "/a.rs"]).map (·.lines) =
          [none, some [], none, some []] := by
  have hblank : Text.blank " \n".toList = true := by decide
  obtain ⟨hfile, hlines, hbatch⟩ := ofPaths_each (.made loopEntries) {}
  have hread : (Store.made loopEntries).readText (.ofString "/a.rs") =
      .ok (" \n".toList, ⟨Text.utf8 " \n".toList, none⟩) := by cbv
  have hloop : (Store.made loopEntries).readText (.ofString "/l.rs") = .error .tooManyLinks := by cbv
  have hknown : (Registry.standard.lookupPath? (.ofString "/a.rs")).isSome = true := by
    decide +kernel
  have hunknown : Registry.standard.lookupPath? (.ofString "/no") = none := by decide +kernel
  have hempty : (ofPath (.made loopEntries) {} (.ofString "/a.rs")).lines = some [] := by
    obtain ⟨l, hl⟩ := Option.isSome_iff_exists.1 hknown
    obtain ⟨-, -, hok, hpresent⟩ := hfile (.ofString "/a.rs")
    exact (hpresent []).2 ((hok []).2
      ⟨l, _, _, hl, Store.readText_ok_iff.1 hread, (hlines l _ _ hblank).symm⟩)
  have habsent : ∀ p, (∀ l t f, Registry.standard.lookupPath? p = some l →
      ¬(Store.made loopEntries).HoldsText p t f) →
        (ofPath (.made loopEntries) {} p).lines = none := by
    intro p hp
    obtain ⟨-, -, hok, hpresent⟩ := hfile p
    rw [Option.eq_none_iff_forall_ne_some]
    intro lines h
    obtain ⟨l, t, f, hl, ht, -⟩ := (hok lines).1 ((hpresent lines).1 h)
    exact hp l t f hl ht
  have hlink := habsent (.ofString "/l.rs") fun l t f _ ht => by
    rw [← Store.readText_ok_iff, hloop] at ht
    cases ht
  have hno := habsent (.ofString "/no") fun l t f hl _ => by
    rw [hunknown] at hl
    cases hl
  refine ⟨hblank, ?_⟩
  rw [(hbatch true _).1]
  simp only [List.map, hlink, hempty, hno]

end Outline.FileSummary
