import Mathlib.Data.List.Infix
import Outline.Discovery
import Outline.Proofs.WellFormedStore

/-!
# The walk of a search

Which files a search finds, and in which order.

* `IgnoreLevel.inForce_concat` — the levels in force grow by one with each directory entered;
* `Search.Selects` — a file that is selected: each directory on the way is entered, and the file
  is accepted;
* `Search.mem_inOrder_below_iff`, `Search.mem_found_iff` — the walk finds the files that are selected;
* `Search.pairwise_entry`, `Search.pairwise_found` — it finds them in the order of their names.

Both inductions are over well-formed entries, for every position at once.
-/

namespace Outline

/-- Going into a directory adds its own level to those in force. -/
theorem IgnoreLevel.inForce_concat (s : Store) (directory : List Bytes) (name : Bytes) :
    inForce s (directory ++ [name]) = ofDirectory s (directory ++ [name]) [] ::
      (inForce s directory).map (·.descend name) := by
  have hlength : (directory ++ [name]).length = directory.length + 1 := by simp
  unfold inForce
  rw [hlength, List.range_succ, List.reverse_append, List.reverse_singleton,
    List.singleton_append, List.map_cons, List.map_map]
  congr 1
  · rw [← hlength, List.take_length, List.drop_length]
  · refine List.map_congr_left fun n hn => ?_
    have hle : n ≤ directory.length := by simpa [Nat.lt_succ_iff] using hn
    rw [List.take_append_of_le_length hle, List.drop_append_of_le_length hle]
    rfl

theorem Store.find?_concat {s : Store} {names : List Bytes} {es : Entries}
    (h : s.find? names = some (.dir es)) (name : Bytes) :
    s.find? (names ++ [name]) = es.get? name := by
  rw [find?_append, h, Option.bind_some, Entry.at?_dir, Entries.walk?_cons]
  cases es.get? name with
  | none => rfl
  | some e => exact Entry.at?_nil e

namespace Search

theorem below_eq_map (s : Search) (position names : List Bytes) (levels : List IgnoreLevel)
    (es : Entries) : s.below position names levels es =
      es.map fun m => (m.1, s.entry position names levels m.1 m.2) := by
  induction es with
  | nil => rfl
  | cons m es ih => rw [below, ih]; rfl

/-- A directory is passed over, or its files are those below it under the levels in force there. -/
theorem entry_dir (s : Search) (position names : List Bytes) (name : Bytes) (es : Entries) :
    s.entry position names (IgnoreLevel.inForce s.store position) name (.dir es) =
      if isIgnored (IgnoreLevel.inForce s.store position) name true || !s.entersName name then []
      else inOrder (s.below (position ++ [name]) (names ++ [name])
        (IgnoreLevel.inForce s.store (position ++ [name])) es) := by
  rw [entry, IgnoreLevel.inForce_concat]

theorem mem_inOrder_below {s : Search} {position names : List Bytes} {levels : List IgnoreLevel}
    {es : Entries} {x : List Bytes} : x ∈ inOrder (s.below position names levels es) ↔
      ∃ m ∈ es, x ∈ s.entry position names levels m.1 m.2 := by
  simp [inOrder, below_eq_map]

/-! ### What is found -/

/-- Whether the file under `rest` is selected in the directory under `position` in the store and
under `names` below the root. -/
inductive Selects (s : Search) : (position names rest : List Bytes) → File → Prop where
  | file {position names : List Bytes} {name : Bytes} {f : File}
      (here : s.store.find? (position ++ [name]) = some (.file f))
      (kept : isIgnored (IgnoreLevel.inForce s.store position) name false = false)
      (accepted : s.accepts (names ++ [name]) f = true) : Selects s position names [name] f
  | dir {position names rest : List Bytes} {name : Bytes} {f : File}
      (here : s.store.IsDirectory (position ++ [name]))
      (kept : isIgnored (IgnoreLevel.inForce s.store position) name true = false)
      (entered : s.entersName name = true)
      (inside : Selects s (position ++ [name]) (names ++ [name]) rest f) :
      Selects s position names (name :: rest) f

variable {s : Search} {position names rest : List Bytes} {name : Bytes} {f : File} {es : Entries}

theorem Selects.exists_cons (h : s.Selects position names rest f) :
    ∃ name rest' e, rest = name :: rest' ∧ s.store.find? (position ++ [name]) = some e := by
  cases h with
  | file here => exact ⟨_, _, _, rfl, here⟩
  | dir here =>
    obtain ⟨es, hes⟩ := here
    exact ⟨_, _, _, rfl, hes⟩

/-- Whether an entry's part of the walk is made of the selected files behind its name. -/
def Walked (s : Search) (position names : List Bytes) (name : Bytes) (e : Entry) : Prop :=
  ∀ x, x ∈ s.entry position names (IgnoreLevel.inForce s.store position) name e ↔
    ∃ rest f, x = names ++ name :: rest ∧ s.Selects position names (name :: rest) f

/-- The files of a directory are those of its entries. -/
theorem mem_inOrder_below_iff (names : List Bytes)
    (hdir : s.store.find? position = some (.dir es))
    (distinct : (es.map (·.1)).Nodup) (h : ∀ m ∈ es, s.Walked position names m.1 m.2)
    (x : List Bytes) :
    x ∈ inOrder (s.below position names (IgnoreLevel.inForce s.store position) es) ↔
      ∃ rest f, x = names ++ rest ∧ s.Selects position names rest f := by
  rw [mem_inOrder_below]
  constructor
  · rintro ⟨m, hm, hx⟩
    obtain ⟨rest, f, rfl, hselects⟩ := (h m hm x).1 hx
    exact ⟨m.1 :: rest, f, rfl, hselects⟩
  · rintro ⟨rest, f, rfl, hselects⟩
    obtain ⟨name, rest', e, rfl, he⟩ := hselects.exists_cons
    rw [Store.find?_concat hdir, Entries.get?_eq_some_iff distinct] at he
    exact ⟨_, he, (h _ he _).2 ⟨rest', f, rfl, hselects⟩⟩

/-- **An entry's part of the walk is made of the selected files behind its name.** -/
theorem walked_of_wellFormed {e : Entry} (h : e.WellFormed) (position names : List Bytes)
    (name : Bytes) (he : s.store.find? (position ++ [name]) = some e) :
    s.Walked position names name e := by
  induction h generalizing position names name with
  | file f =>
    intro x
    rw [entry]
    constructor
    · intro hx
      split at hx
      · cases hx
      · rename_i hkept
        split at hx
        · rename_i haccepted
          exact ⟨[], f, List.mem_singleton.1 hx, .file he (by simpa using hkept) haccepted⟩
        · cases hx
    · rintro ⟨rest, g, rfl, hselects⟩
      cases hselects with
      | file here kept accepted =>
        rw [he] at here
        cases here
        simp [kept, accepted]
      | dir here =>
        obtain ⟨es, hes⟩ := here
        rw [he] at hes
        cases hes
  | link target =>
    intro x
    rw [entry]
    constructor
    · intro hx
      cases hx
    · rintro ⟨rest, g, -, hselects⟩
      cases hselects with
      | file here =>
        rw [he] at here
        cases here
      | dir here =>
        obtain ⟨es, hes⟩ := here
        rw [he] at hes
        cases hes
  | @dir es distinct named inner ih =>
    intro x
    have hinside := mem_inOrder_below_iff (names ++ [name]) he distinct fun m hm =>
      ih m hm _ _ _ (by
        rw [Store.find?_concat he]
        exact (Entries.get?_eq_some_iff distinct).2 hm)
    rw [entry_dir]
    constructor
    · intro hx
      split at hx
      · cases hx
      · rename_i hentered
        obtain ⟨hkept, hname⟩ : isIgnored (IgnoreLevel.inForce s.store position) name true = false ∧
            s.entersName name = true := by simpa using hentered
        obtain ⟨rest, f, rfl, hselects⟩ := (hinside x).1 hx
        exact ⟨rest, f, by simp, .dir ⟨es, he⟩ hkept hname hselects⟩
    · rintro ⟨rest, f, rfl, hselects⟩
      cases hselects with
      | file here =>
        rw [he] at here
        cases here
      | dir here kept entered inside =>
        rw [kept, entered]
        exact (hinside _).2 ⟨rest, f, by simp, inside⟩

/-- **The search finds the files that are selected.** -/
theorem mem_found_iff (hs : s.store.WellFormed) (hroot : s.store.find? position = some (.dir es))
    {x : List Bytes} : x ∈ s.found position es ↔ ∃ f, s.Selects position [] x f := by
  obtain ⟨-, hes⟩ := hs.find? hroot
  cases hes with
  | dir distinct named inner =>
    rw [found, mem_inOrder_below_iff [] hroot distinct fun m hm =>
      walked_of_wellFormed (inner m hm) _ _ _ (by
        rw [Store.find?_concat hroot]
        exact (Entries.get?_eq_some_iff distinct).2 hm)]
    simp

/-! ### Selected files -/

/-- **A file is selected if each directory on the way is entered, and the file is accepted.** -/
theorem selects_iff : s.Selects position names rest f ↔
    rest ≠ [] ∧ s.store.find? (position ++ rest) = some (.file f) ∧
      (∀ front name back, rest = front ++ name :: back →
        isIgnored (IgnoreLevel.inForce s.store (position ++ front)) name (!back.isEmpty) = false ∧
          (back ≠ [] → s.entersName name = true)) ∧
      s.accepts (names ++ rest) f = true := by
  constructor
  · intro h
    induction h with
    | file here kept accepted =>
      refine ⟨List.cons_ne_nil _ _, here, fun front name back hrest => ?_, accepted⟩
      obtain ⟨rfl, hrest⟩ | ⟨a, -, hnil⟩ := List.append_eq_cons_iff.1 hrest.symm
      · cases hrest
        rw [List.append_nil]
        exact ⟨kept, fun hne => absurd rfl hne⟩
      · simp at hnil
    | @dir position names rest name f here kept entered inside ih =>
      obtain ⟨hne, hfind, hway, haccepted⟩ := ih
      rw [List.append_assoc, List.singleton_append] at hfind haccepted
      refine ⟨List.cons_ne_nil _ _, hfind, fun front n back hrest => ?_, haccepted⟩
      obtain ⟨rfl, hrest⟩ | ⟨a, rfl, hrest⟩ := List.append_eq_cons_iff.1 hrest.symm
      · cases hrest
        have hback : (!rest.isEmpty) = true := by simpa using hne
        rw [List.append_nil, hback]
        exact ⟨kept, fun _ => entered⟩
      · have hway := hway a n back (List.cons.inj hrest).2
        rwa [List.append_assoc, List.singleton_append] at hway
  · rintro ⟨hne, hfind, hway, haccepted⟩
    induction rest generalizing position names with
    | nil => exact absurd rfl hne
    | cons name rest ih =>
      have hfirst := hway [] name rest rfl
      rw [List.append_nil] at hfirst
      by_cases hnil : rest = []
      · subst hnil
        exact .file hfind hfirst.1 haccepted
      · have hback : (!rest.isEmpty) = true := by simpa using hnil
        rw [hback] at hfirst
        have hcons : ∀ l : List Bytes, l ++ name :: rest = l ++ [name] ++ rest := by simp
        rw [hcons] at hfind haccepted
        refine .dir (Store.isDirectory_of_append hnil hfind) hfirst.1 (hfirst.2 hnil)
          (ih hnil hfind (fun front n back hrest => ?_) haccepted)
        have hway := hway (name :: front) n back (by rw [hrest]; rfl)
        rwa [← List.singleton_append, ← List.append_assoc] at hway

/-! ### The order of the walk -/

/-- The children of a directory by their names. -/
theorem pairwise_mergeSort_names {found : List (Bytes × List (List Bytes))}
    (distinct : (found.map (·.1)).Nodup) :
    (found.mergeSort fun a b => a.1 ≤ b.1).Pairwise fun a b => a.1 < b.1 := by
  have htrans : ∀ a b c : Bytes × List (List Bytes),
      decide (a.1 ≤ b.1) = true → decide (b.1 ≤ c.1) = true → decide (a.1 ≤ c.1) = true := by
    intro a b c hab hbc
    exact decide_eq_true (List.le_trans (of_decide_eq_true hab) (of_decide_eq_true hbc))
  have htotal : ∀ a b : Bytes × List (List Bytes),
      (decide (a.1 ≤ b.1) || decide (b.1 ≤ a.1)) = true := by
    intro a b
    simpa using List.le_total a.1 b.1
  have hsorted := List.pairwise_mergeSort htrans htotal found
  have hperm := (List.mergeSort_perm found fun a b => decide (a.1 ≤ b.1)).map (·.1)
  have hdistinct := List.pairwise_map.1 (hperm.nodup_iff.2 distinct)
  refine (hsorted.and hdistinct).imp fun {a b} ⟨hle, hne⟩ => ?_
  exact List.not_le.1 fun hge => hne (List.le_antisymm (of_decide_eq_true hle) hge)

theorem lt_of_name_lt (names : List Bytes) {a b : Bytes} (h : a < b) (rest rest' : List Bytes) :
    names ++ a :: rest < names ++ b :: rest' :=
  List.append_left_lt (List.Lex.rel h)

/-- The lists of the children, each in order and behind its name, make an ordered list. -/
theorem pairwise_inOrder (names : List Bytes) {found : List (Bytes × List (List Bytes))}
    (distinct : (found.map (·.1)).Nodup)
    (h : ∀ m ∈ found, m.2.Pairwise (· < ·) ∧ ∀ x ∈ m.2, ∃ rest, x = names ++ m.1 :: rest) :
    (inOrder found).Pairwise (· < ·) := by
  rw [inOrder, List.pairwise_flatMap]
  refine ⟨fun m hm => (h m (List.mem_mergeSort.1 hm)).1, ?_⟩
  refine (pairwise_mergeSort_names distinct).imp_of_mem fun {a b} ha hb hlt x hx y hy => ?_
  obtain ⟨rest, rfl⟩ := (h a (List.mem_mergeSort.1 ha)).2 x hx
  obtain ⟨rest', rfl⟩ := (h b (List.mem_mergeSort.1 hb)).2 y hy
  exact lt_of_name_lt names hlt rest rest'

theorem pairwise_below {levels : List IgnoreLevel} (distinct : (es.map (·.1)).Nodup)
    (h : ∀ m ∈ es, (s.entry position names levels m.1 m.2).Pairwise (· < ·) ∧
      ∀ x ∈ s.entry position names levels m.1 m.2, ∃ rest, x = names ++ m.1 :: rest) :
    (inOrder (s.below position names levels es)).Pairwise (· < ·) := by
  rw [below_eq_map]
  refine pairwise_inOrder names ?_ ?_
  · rwa [List.map_map]
  · intro _ hfound
    obtain ⟨m, hm, rfl⟩ := List.mem_map.1 hfound
    exact h m hm

/-- The files of an entry come in order, all of them behind its name. -/
theorem pairwise_entry {e : Entry} (he : e.WellFormed) (position names : List Bytes)
    (levels : List IgnoreLevel) (name : Bytes) :
    (s.entry position names levels name e).Pairwise (· < ·) ∧
      ∀ x ∈ s.entry position names levels name e, ∃ rest, x = names ++ name :: rest := by
  induction he generalizing position names levels name with
  | file f =>
    rw [entry]
    split
    · simp
    split
    · simp
    · simp
  | link target =>
    rw [entry]
    simp
  | @dir es distinct named inner ih =>
    rw [entry]
    split
    · simp
    refine ⟨pairwise_below distinct fun m hm => ih m hm _ _ _ _, fun x hx => ?_⟩
    obtain ⟨m, hm, hx⟩ := mem_inOrder_below.1 hx
    obtain ⟨rest, rfl⟩ := (ih m hm _ _ _ _).2 x hx
    exact ⟨m.1 :: rest, by simp⟩

/-- **The search finds the files in the order of their names**, compared name by name. -/
theorem pairwise_found (h : (Entry.dir es).WellFormed) (position : List Bytes) :
    (s.found position es).Pairwise (· < ·) := by
  cases h with
  | dir distinct named inner =>
    exact pairwise_below distinct fun m hm => pairwise_entry (inner m hm) _ _ _ _

end Search

end Outline
