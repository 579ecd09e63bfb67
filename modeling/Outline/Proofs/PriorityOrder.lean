import Mathlib.Data.List.Basic
import Outline.Priority

/-!
# The order of priorities

`prioritize` against a description of its result that does not say how it is found.

* `Prioritized` — the important files all kept, a first part of the others behind them, both in the
  order in which they were given;
* `prioritized_iff` — `prioritize` gives the one list of this description;
* `prioritize_stable` — what follows for two runs: a second run changes nothing, a larger limit only
  appends, and a limit that is large enough loses nothing.

Lists of files may name a file more than once: nothing below asks for distinct paths.
-/

namespace Outline

variable {files picked : List Path} {root : Path} {limit : Nat}

/-- The files that only fill the places left. -/
def otherFiles (root : Path) (files : List Path) : List Path :=
  files.filter fun f => !isImportant root f

/-- The files picked are all important ones and at most `limit` of the others. -/
structure Prioritized (files : List Path) (root : Path) (limit : Nat) (picked : List Path) :
    Prop where
  /-- Every important file is kept, in the order given. -/
  important : picked.filter (isImportant root) = files.filter (isImportant root)
  /-- Of the others the first are kept, as many as the limit allows. -/
  others : otherFiles root picked =
    (otherFiles root files).take (min limit (otherFiles root files).length)
  /-- No other file stands before an important one. -/
  ordered : picked.Pairwise fun f g => isImportant root g = true → isImportant root f = true

/-! ### The description -/

theorem filter_of_otherFiles {p : List Path} (h : ∀ f ∈ p, f ∈ otherFiles root files) :
    p.filter (isImportant root) = [] ∧ otherFiles root p = p := by
  have hother : ∀ f ∈ p, isImportant root f = false := by
    intro f hf
    simpa using (List.mem_filter.1 (h f hf)).2
  refine ⟨List.filter_eq_nil_iff.2 fun f hf => ?_, List.filter_eq_self.2 fun f hf => ?_⟩
  · rw [hother f hf]
    exact Bool.false_ne_true
  · rw [hother f hf]
    rfl

/-- Where no other file stands before an important one, the important files and the others are the
two parts of the list. -/
theorem filter_append_otherFiles
    (h : picked.Pairwise fun f g => isImportant root g = true → isImportant root f = true) :
    picked.filter (isImportant root) ++ otherFiles root picked = picked := by
  induction h with
  | nil => rfl
  | @cons f p hf _ ih =>
    cases hi : isImportant root f with
    | true =>
      rw [otherFiles, List.filter_cons_of_pos hi, List.filter_cons_of_neg (by simp [hi])]
      exact congrArg (f :: ·) ih
    | false =>
      -- behind a file that is not important there are only such files
      have hothers : ∀ g ∈ f :: p, isImportant root g = false := by
        intro g hg
        cases hg with
        | head => exact hi
        | tail _ hg =>
          rw [Bool.eq_false_iff]
          intro h
          exact absurd (hf g hg h) (by simp [hi])
      have hmem : ∀ g ∈ f :: p, g ∈ otherFiles root (f :: p) := fun g hg =>
        List.mem_filter.2 ⟨hg, by simp [hothers g hg]⟩
      obtain ⟨hnone, hall⟩ := filter_of_otherFiles hmem
      rw [hnone, hall]
      rfl

theorem prioritized_prioritize (files : List Path) (root : Path) (limit : Nat) :
    Prioritized files root limit (prioritize files root limit) := by
  have htaken : ∀ f ∈ (otherFiles root files).take limit, f ∈ otherFiles root files :=
    fun f => List.mem_of_mem_take
  have hothers := filter_of_otherFiles htaken
  have hsplit : prioritize files root limit =
      files.filter (isImportant root) ++ (otherFiles root files).take limit := rfl
  constructor
  · rw [hsplit, List.filter_append, hothers.1, List.filter_filter, List.append_nil]
    simp only [Bool.and_self]
  · have hnone : otherFiles root (files.filter (isImportant root)) = [] := by
      rw [otherFiles, List.filter_filter]
      exact List.filter_eq_nil_iff.2 fun f _ => by simp
    rw [hsplit, otherFiles, List.filter_append]
    show otherFiles root _ ++ otherFiles root _ = _
    rw [hnone, hothers.2, List.nil_append, List.take_eq_take_min]
  · rw [hsplit, List.pairwise_append, List.pairwise_iff_forall_sublist,
      List.pairwise_iff_forall_sublist]
    refine ⟨fun h _ => ?_, fun h himp => ?_, fun f hf g _ _ => (List.mem_filter.1 hf).2⟩
    · exact (List.mem_filter.1 (h.subset List.mem_cons_self)).2
    · have hg := h.subset (List.mem_cons_of_mem _ List.mem_cons_self)
      have hg := (List.mem_filter.1 (List.mem_of_mem_take hg)).2
      simp [himp] at hg

/-- **The description has one result.** -/
theorem prioritized_iff : Prioritized files root limit picked ↔ picked = prioritize files root limit := by
  constructor
  · intro h
    have hown := prioritized_prioritize files root limit
    rw [← filter_append_otherFiles h.ordered, ← filter_append_otherFiles hown.ordered, h.important,
      h.others, hown.important, hown.others]
  · intro h
    rw [h]
    exact prioritized_prioritize files root limit

/-! ### Two runs -/

/-- What has been picked is picked again. -/
theorem Prioritized.again (h : Prioritized files root limit picked) :
    Prioritized picked root limit picked := by
  refine ⟨rfl, ?_, h.ordered⟩
  have hle : (otherFiles root picked).length ≤ limit := by
    rw [h.others, List.length_take]
    omega
  rw [Nat.min_eq_right hle, List.take_length]

/-- With room for all the others nothing gets lost. -/
theorem Prioritized.perm (h : Prioritized files root limit picked)
    (hlimit : (otherFiles root files).length ≤ limit) : picked.Perm files := by
  have hothers : otherFiles root picked = otherFiles root files := by
    rw [h.others, Nat.min_eq_right hlimit, List.take_length]
  rw [← filter_append_otherFiles h.ordered, h.important, hothers]
  exact List.filter_append_perm (isImportant root) files

theorem prioritize_prefix {limit' : Nat} (h : limit ≤ limit') :
    prioritize files root limit <+: prioritize files root limit' :=
  (List.prefix_append_right_inj _).2 (List.take_prefix_take_left h)

/-- **Priority is a stable, bounded selection that a second run does not change.**  It keeps the
important files in their order, then the first of the others in theirs, and is the only list that does;
a larger limit only appends, and with room for all the others the files are only put into another
order. -/
theorem prioritize_stable (files : List Path) (root : Path) :
    (∀ limit picked, Prioritized files root limit picked ↔ picked = prioritize files root limit) ∧
      (∀ limit, prioritize (prioritize files root limit) root limit = prioritize files root limit) ∧
      (∀ limit limit', limit ≤ limit' →
        prioritize files root limit <+: prioritize files root limit') ∧
      ∀ limit, (otherFiles root files).length ≤ limit → (prioritize files root limit).Perm files := by
  refine ⟨fun limit picked => prioritized_iff, fun limit => ?_, fun limit limit' => prioritize_prefix,
    fun limit => ?_⟩
  · exact (prioritized_iff.1 (prioritized_prioritize files root limit).again).symm
  · exact (prioritized_prioritize files root limit).perm

/-- Files of which one is given twice, and one matters. -/
def givenFiles : List Path :=
  ["/p/a/b/one.js", "/p/index.js", "/p/a/b/two.js", "/p/a/b/one.js"].map fun p => .ofText p.toList

theorem prioritize_stable_twice :
    prioritize givenFiles (.ofText "/p".toList) 2 =
        ["/p/index.js", "/p/a/b/one.js", "/p/a/b/two.js"].map (fun p => .ofText p.toList) ∧
      prioritize givenFiles (.ofText "/p".toList) 1 <+: prioritize givenFiles (.ofText "/p".toList) 2 ∧
      (prioritize givenFiles (.ofText "/p".toList) 3).Perm givenFiles := by
  obtain ⟨-, -, hlonger, hperm⟩ := prioritize_stable givenFiles (.ofText "/p".toList)
  exact ⟨by decide +kernel, hlonger 1 2 (by decide), hperm 3 (by decide +kernel)⟩

end Outline
