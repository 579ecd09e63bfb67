import Mathlib.Data.List.Basic

/-!
# Items with separators

Laws of `List.intercalate` that the library does not have.

* `intercalate_cons` — the separator stands before each item but the first;
* `mem_intercalate`, `intercalate_ne_nil` — what stands in the whole, and that something does;
* `intercalate_intercalate` — groups of lines with empty lines between them are one list of lines.
-/

namespace Outline

variable {α : Type}

/-- Items with a separator between neighbours: it stands before each of them but the first. -/
theorem intercalate_cons (sep first : List α) (rest : List (List α)) :
    sep.intercalate (first :: rest) = first ++ rest.flatMap (sep ++ ·) := by
  induction rest generalizing first with
  | nil => rw [List.intercalate_singleton, List.flatMap_nil, List.append_nil]
  | cons next rest ih =>
    rw [List.intercalate_cons_cons, ih, List.flatMap_cons, List.append_assoc, List.append_assoc]

/-- What stands in items with separators stands in a separator or in an item. -/
theorem mem_intercalate {sep : List α} {items : List (List α)} {a : α}
    (h : a ∈ sep.intercalate items) : a ∈ sep ∨ a ∈ items.flatten := by
  induction items with
  | nil => exact absurd h List.not_mem_nil
  | cons first rest ih =>
    cases rest with
    | nil =>
      rw [List.intercalate_singleton] at h
      exact Or.inr (by simpa using h)
    | cons next rest =>
      rw [List.intercalate_cons_cons, List.mem_append, List.mem_append] at h
      rw [List.flatten_cons, List.mem_append]
      rcases h with (h | h) | h
      · exact Or.inr (Or.inl h)
      · exact Or.inl h
      · exact (ih h).imp_right Or.inr

/-- Something stands between separators if something stands in the first place. -/
theorem intercalate_ne_nil (sep : List α) {groups : List (List α)} (hne : groups ≠ [])
    (h : [] ∉ groups) : sep.intercalate groups ≠ [] := by
  obtain ⟨first, rest, rfl⟩ := List.exists_cons_of_ne_nil hne
  rw [intercalate_cons]
  intro hnil
  exact h (List.mem_cons.2 (.inl (List.append_eq_nil_iff.1 hnil).1.symm))

/-- Groups with an empty line between neighbours are one list of lines. -/
theorem intercalate_intercalate (x : α) {groups : List (List (List α))} (h : [] ∉ groups) :
    [x, x].intercalate (groups.map [x].intercalate) = [x].intercalate ([[]].intercalate groups) := by
  -- one more group: the break behind the last line, the empty line, and its own lines
  have hgroup : ∀ group ∈ groups, [x, x] ++ [x].intercalate group =
      ([[]] ++ group).flatMap ([x] ++ ·) := by
    intro group hgroup
    obtain ⟨line, lines, rfl⟩ :=
      List.exists_cons_of_ne_nil fun hnil : group = [] => h (hnil ▸ hgroup)
    rw [intercalate_cons]
    rfl
  cases groups with
  | nil => rfl
  | cons group groups =>
    obtain ⟨line, lines, rfl⟩ :=
      List.exists_cons_of_ne_nil fun hnil : group = [] => h (hnil ▸ List.mem_cons_self)
    rw [List.map_cons, intercalate_cons, intercalate_cons, List.flatMap_map, intercalate_cons,
      List.cons_append, intercalate_cons, List.flatMap_append, List.flatMap_assoc,
      List.append_assoc,
      List.flatMap_congr fun g hg => hgroup g (List.mem_cons_of_mem _ hg)]

end Outline
