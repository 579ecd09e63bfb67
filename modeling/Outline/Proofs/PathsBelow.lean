import Outline.Discovery
import Outline.Proofs.WellFormedStore

/-!
# Paths below a root

The paths that names below a root spell, and what they mean.

* `Path.front` — the pieces that the root gives to such a path;
* `Path.below_inj` — different names spell different paths;
* `Path.located_eq` — the components of a path from its pieces;
* `Path.components_below` — the components are those of the root, and then the names;
* `Path.namesBelow` — the names back from the path;
* `Path.located_below` — behind the last component of the root stand the names, and before them only
  pieces that spell nothing;
* `Path.joined`, `Path.relative_below` — so the relative path is made of the names alone, for each
  root with the same components;
* `Store.get_below` — the path leads to a file at the names behind the root's position, if that
  is where the file is and the path is not too long.
-/

namespace Outline.Path

theorem below_concat (root : Path) (names : List Bytes) (name : Bytes) :
    root.below (names ++ [name]) = (root.below names).join ⟨name⟩ := List.foldl_append

/-! ### Pieces -/

/-- The pieces that a path gives to the paths that continue it. -/
def front (p : Path) : List Bytes :=
  if p.bytes = [] ∨ p.bytes.getLast? = some slash then (p.bytes.splitOn slash).dropLast
  else p.bytes.splitOn slash

theorem splitOn_join (p : Path) {name : Bytes} (h : slash ∉ name) :
    (p.join ⟨name⟩).bytes.splitOn slash = p.front ++ [name] := by
  have hrelative : (Path.mk name).isAbsolute = false := by
    cases name with
    | nil => rfl
    | cons b name =>
      rw [isAbsolute, List.head?_cons]
      simp only [beq_eq_false_iff_ne, ne_eq, Option.some.injEq]
      rintro rfl
      exact h List.mem_cons_self
  have hname : name.splitOn slash = [name] := List.splitOn_eq_singleton h
  unfold join front
  rw [hrelative, if_neg Bool.false_ne_true]
  by_cases hend : p.bytes = [] ∨ p.bytes.getLast? = some slash
  · rw [if_pos hend, if_pos hend]
    obtain hnil | hslash := hend
    · simp [hnil, hname]
    · obtain ⟨bytes, hbytes⟩ := List.getLast?_eq_some_iff.1 hslash
      rw [hbytes, List.splitOn_append_cons_self, List.splitOn_nil, List.dropLast_concat,
        List.append_assoc, List.singleton_append, List.splitOn_append_cons_self, hname]
  · rw [if_neg hend, if_neg hend, List.splitOn_append_cons_self, hname]

theorem front_eq {p : Path} {pieces : List Bytes} {name : Bytes} (h : name ≠ [])
    (hp : p.bytes.splitOn slash = pieces ++ [name]) : p.front = pieces ++ [name] := by
  rw [front, if_neg, hp]
  rintro (hnil | hslash)
  · rw [hnil, List.splitOn_nil] at hp
    obtain ⟨-, heq⟩ := List.append_inj' (show [] ++ [[]] = pieces ++ [name] from hp) rfl
    exact h (List.cons.inj heq).1.symm
  · obtain ⟨bytes, hbytes⟩ := List.getLast?_eq_some_iff.1 hslash
    rw [hbytes, List.splitOn_append_cons_self, List.splitOn_nil] at hp
    obtain ⟨-, heq⟩ := List.append_inj' hp rfl
    exact h (List.cons.inj heq).1.symm

variable {root base : Path} {names : List Bytes}

/-- The pieces of a path below a root. -/
theorem splitOn_below (root : Path) (hne : names ≠ []) (h : ∀ n ∈ names, IsName n) :
    (root.below names).bytes.splitOn slash = root.front ++ names := by
  induction names using List.reverseRecOn with
  | nil => exact absurd rfl hne
  | append_singleton names name ih =>
    obtain ⟨hnames, hname⟩ := List.forall_mem_append.1 h
    rw [below_concat, splitOn_join _ (hname name List.mem_cons_self).whole]
    rcases List.eq_nil_or_concat names with rfl | ⟨start, n, rfl⟩
    · rfl
    · rw [List.concat_eq_append] at *
      have ih := ih (by simp) hnames
      rw [← List.append_assoc] at ih
      rw [front_eq (hnames n (by simp)).ne_nil ih]
      simp

theorem bytes_below_ne_nil (root : Path) (hne : names ≠ []) (h : ∀ n ∈ names, IsName n) :
    (root.below names).bytes ≠ [] := by
  intro hnil
  have hsplit := splitOn_below root hne h
  obtain ⟨start, n, rfl⟩ := (List.eq_nil_or_concat names).resolve_left hne
  rw [hnil, List.splitOn_nil, List.concat_eq_append, ← List.append_assoc] at hsplit
  obtain ⟨-, heq⟩ := List.append_inj' (show [] ++ [[]] = _ ++ [n] from hsplit) rfl
  exact (h n (by simp)).ne_nil (List.cons.inj heq).1.symm

/-- **Different names spell different paths.** -/
theorem below_inj {names' : List Bytes} (hne : names ≠ []) (h : ∀ n ∈ names, IsName n)
    (hne' : names' ≠ []) (h' : ∀ n ∈ names', IsName n)
    (heq : root.below names = root.below names') : names = names' := by
  have hsplit := splitOn_below root hne h
  rw [heq, splitOn_below root hne' h'] at hsplit
  exact (List.append_cancel_left hsplit).symm

/-! ### Components -/

theorem locateAll_cons (piece : Bytes) (rest : List Bytes) :
    locateAll (piece :: rest) = (component? piece).toList.map (·, rest) ++ locateAll rest := by
  rw [locateAll]
  cases component? piece <;> rfl

theorem map_fst_locateAll (pieces : List Bytes) :
    (locateAll pieces).map (·.1) = pieces.filterMap component? := by
  induction pieces with
  | nil => rfl
  | cons piece rest ih =>
    rw [locateAll_cons, List.filterMap_cons, List.map_append, ih]
    cases component? piece <;> rfl

/-- The component that the first piece of a path spells. -/
def leading (piece : Bytes) : List Component :=
  if piece = [] then [.root] else if piece = [dot] then [.here] else (component? piece).toList

/-- The components of a path from its pieces, each with the pieces behind it. -/
theorem located_eq {p : Path} (hp : p.bytes ≠ []) {piece : Bytes} {rest : List Bytes}
    (h : p.bytes.splitOn slash = piece :: rest) :
    p.located = (leading piece).map (·, rest) ++ locateAll rest := by
  rw [located, h]
  cases piece with
  | nil =>
    cases rest with
    | nil =>
      have hbytes : [slash].intercalate (p.bytes.splitOn slash) = p.bytes :=
        List.intercalate_splitOn slash
      rw [h] at hbytes
      exact absurd hbytes.symm hp
    | cons q rest => rfl
  | cons b piece =>
    cases piece with
    | nil =>
      simp only [leading, List.cons_ne_nil, if_false]
      by_cases hb : b = dot
      · rw [if_pos hb, hb, if_pos rfl]
        rfl
      · have hne : [b] ≠ [dot] := fun heq => hb (List.cons.inj heq).1
        rw [if_neg hb, if_neg hne, locateAll_cons]
    | cons c piece =>
      have hne : b :: c :: piece ≠ [dot] := by simp
      rw [leading, if_neg (List.cons_ne_nil _ _), if_neg hne]
      exact locateAll_cons _ _

/-- The components of a path from its pieces. -/
theorem components_eq {p : Path} (hp : p.bytes ≠ []) {piece : Bytes} {rest : List Bytes}
    (h : p.bytes.splitOn slash = piece :: rest) :
    p.components = leading piece ++ rest.filterMap component? := by
  rw [components, located_eq hp h, List.map_append, List.map_map, map_fst_locateAll]
  exact congrArg (· ++ _) (List.map_id _)

theorem component?_name {name : Bytes} (h : IsName name) : component? name = some (.name name) := by
  rw [component?, h.busy, if_neg (by decide), if_neg h.down]

theorem filterMap_component?_names (h : ∀ n ∈ names, IsName n) :
    names.filterMap component? = names.map .name := by
  rw [List.filterMap_congr fun n hn => component?_name (h n hn)]
  exact congrFun List.filterMap_eq_map names

/-- The pieces of a root are those it gives to other paths, but for what spells nothing. -/
theorem splitOn_eq_front (hroot : root.bytes ≠ []) : ∃ piece rest, root.front = piece :: rest ∧
    (root.bytes.splitOn slash = piece :: rest ∨
      root.bytes.splitOn slash = piece :: rest ++ [[]]) := by
  unfold front
  split
  · rename_i hslash
    obtain ⟨bytes, hbytes⟩ := List.getLast?_eq_some_iff.1 (hslash.resolve_left hroot)
    obtain ⟨piece, rest, hsplit⟩ := List.exists_cons_of_ne_nil (List.splitOn_ne_nil slash bytes)
    rw [hbytes, List.splitOn_append_cons_self, List.splitOn_nil, hsplit, List.dropLast_concat]
    exact ⟨piece, rest, rfl, Or.inr rfl⟩
  · obtain ⟨piece, rest, hsplit⟩ :=
      List.exists_cons_of_ne_nil (List.splitOn_ne_nil slash root.bytes)
    exact ⟨piece, rest, hsplit, Or.inl hsplit⟩

/-- The components of a root from the pieces that it gives to other paths. -/
theorem components_front (hroot : root.bytes ≠ []) {piece : Bytes} {rest : List Bytes}
    (h : root.front = piece :: rest) :
    root.components = leading piece ++ rest.filterMap component? := by
  obtain ⟨piece', rest', hfront, hsplit⟩ := splitOn_eq_front hroot
  rw [hfront, List.cons.injEq] at h
  obtain ⟨rfl, rfl⟩ := h
  obtain hsplit | hsplit := hsplit
  · exact components_eq hroot hsplit
  · rw [List.cons_append] at hsplit
    rw [components_eq hroot hsplit, List.filterMap_append]
    exact (List.append_nil _).symm ▸ rfl

/-- **The components of a path below a root are those of the root, and then the names.** -/
theorem components_below (hroot : root.bytes ≠ []) (hne : names ≠ [])
    (h : ∀ n ∈ names, IsName n) :
    (root.below names).components = root.components ++ names.map .name := by
  obtain ⟨piece, rest, hfront, -⟩ := splitOn_eq_front hroot
  have hbelow := splitOn_below root hne h
  rw [hfront, List.cons_append] at hbelow
  rw [components_eq (bytes_below_ne_nil root hne h) hbelow, List.filterMap_append,
    filterMap_component?_names h, ← List.append_assoc, components_front hroot hfront]

theorem name?_below (hroot : root.bytes ≠ []) (h : ∀ n ∈ names, IsName n) {name : Bytes}
    (hlast : names.getLast? = some name) : (root.below names).name? = some name := by
  have hne : names ≠ [] := by
    rintro rfl
    cases hlast
  rw [name?, components_below hroot hne h, List.getLast?_append, List.getLast?_map, hlast]
  rfl

/-- The names of a path behind the components of a root. -/
def namesBelow (p root : Path) : List Bytes :=
  (p.components.drop root.components.length).filterMap fun
    | .name n => some n
    | _ => none

theorem namesBelow_below (hroot : root.bytes ≠ []) (hne : names ≠ [])
    (h : ∀ n ∈ names, IsName n) : (root.below names).namesBelow root = names := by
  rw [namesBelow, components_below hroot hne h, List.drop_left, List.filterMap_map]
  exact List.filterMap_some

/-! ### What is left below a root -/

theorem component?_eq_none_iff {piece : Bytes} : component? piece = none ↔ idle piece = true := by
  unfold component?
  split
  · simp_all
  · split <;> simp_all

theorem exists_leading (piece : Bytes) : ∃ c, leading piece = [c] := by
  unfold leading
  split
  · exact ⟨_, rfl⟩
  split
  · exact ⟨_, rfl⟩
  cases h : component? piece with
  | some c => exact ⟨c, rfl⟩
  | none =>
    have hidle := component?_eq_none_iff.1 h
    simp_all [idle]

theorem idle_of_no_component {pieces : List Bytes} (h : (pieces.filterMap component?).length = 0) :
    ∀ piece ∈ pieces, idle piece = true := by
  intro piece hpiece
  rw [List.length_eq_zero_iff, List.filterMap_eq_nil_iff] at h
  exact component?_eq_none_iff.1 (h piece hpiece)

/-- Behind the last component of some pieces, only pieces that spell nothing stand before what
follows. -/
theorem locateAll_append {pieces : List Bytes} {m : Nat}
    (h : (pieces.filterMap component?).length = m + 1) (rest : List Bytes) :
    ∃ c gap, (locateAll (pieces ++ rest))[m]? = some (c, gap ++ rest) ∧
      ∀ piece ∈ gap, idle piece = true := by
  induction pieces generalizing m with
  | nil => cases h
  | cons piece pieces ih =>
    rw [List.cons_append, locateAll_cons]
    rw [List.filterMap_cons] at h
    cases hc : component? piece with
    | none =>
      rw [hc] at h
      exact ih h
    | some c =>
      rw [hc] at h
      -- either this is the last component, or the last one stands further behind
      cases m with
      | zero => exact ⟨c, pieces, rfl, idle_of_no_component (Nat.succ.inj h)⟩
      | succ m => exact ih (Nat.succ.inj h)

/-- The pieces behind the last component of a root. -/
theorem located_below (hroot : root.bytes ≠ []) (hne : names ≠ []) (h : ∀ n ∈ names, IsName n) :
    ∃ m c gap, root.components.length = m + 1 ∧
      (root.below names).located[m]? = some (c, gap ++ names) ∧
      ∀ piece ∈ gap, idle piece = true := by
  obtain ⟨piece, rest, hfront, -⟩ := splitOn_eq_front hroot
  obtain ⟨first, hfirst⟩ := exists_leading piece
  have hbelow := splitOn_below root hne h
  rw [hfront, List.cons_append] at hbelow
  rw [components_front hroot hfront, located_eq (bytes_below_ne_nil root hne h) hbelow, hfirst]
  show ∃ m c gap, (rest.filterMap component?).length + 1 = m + 1 ∧
    ((first, rest ++ names) :: locateAll (rest ++ names))[m]? = some (c, gap ++ names) ∧ _
  cases hm : (rest.filterMap component?).length with
  | zero => exact ⟨0, first, rest, rfl, rfl, idle_of_no_component hm⟩
  | succ m =>
    obtain ⟨c, gap, hlocated, hgap⟩ := locateAll_append hm names
    exact ⟨m + 1, c, gap, rfl, hlocated, hgap⟩

theorem dropWhile_idle_names {gap : List Bytes} (hgap : ∀ piece ∈ gap, idle piece = true)
    (hne : names ≠ []) (h : ∀ n ∈ names, IsName n) : (gap ++ names).dropWhile idle = names := by
  obtain ⟨n, names, rfl⟩ := List.exists_cons_of_ne_nil hne
  have hn := (h n List.mem_cons_self).busy
  rw [List.dropWhile_append_of_pos hgap, List.dropWhile_cons_of_neg (by simp [hn])]

theorem trimEnd_names (hne : names ≠ []) (h : ∀ n ∈ names, IsName n) : trimEnd names = names := by
  have hreverse := dropWhile_idle_names (List.forall_mem_nil _) (List.reverse_ne_nil_iff.2 hne)
    fun n hn => h n (List.mem_reverse.1 hn)
  rw [List.nil_append] at hreverse
  rw [trimEnd, hreverse, List.reverse_reverse]

/-- **What is left of a path below a root are the names**, for each spelling of the root. -/
theorem within?_below (hroot : root.bytes ≠ []) (hne : names ≠ []) (h : ∀ n ∈ names, IsName n)
    (hbase : base.components = root.components) :
    (root.below names).within? base = some (ofPieces names) := by
  obtain ⟨m, c, gap, hlength, hlocated, hgap⟩ := located_below hroot hne h
  have hprefix : base.components.isPrefixOf (root.below names).components = true := by
    rw [List.isPrefixOf_iff_prefix, hbase, components_below hroot hne h]
    exact List.prefix_append _ _
  rw [within?, if_pos hprefix, hbase, hlength]
  show (root.below names).located[m]?.map _ = _
  rw [hlocated, Option.map_some, dropWhile_idle_names hgap hne h, trimEnd_names hne h]

/-- Names as text with slashes between them. -/
def joined (names : List Bytes) : Text :=
  (ofPieces names).display.map fun c => if c = '\\' then '/' else c

/-- The relative path is made of the names alone. -/
theorem relative_below (hroot : root.bytes ≠ []) (hne : names ≠ []) (h : ∀ n ∈ names, IsName n)
    (hbase : base.components = root.components) :
    (root.below names).relative base = joined names := by
  rw [relative, within?_below hroot hne h hbase]
  rfl

end Outline.Path

namespace Outline.Store

variable {s : Store} {root : Path} {position names : List Bytes} {entries : Entries}

/-- The pieces that a root gives to other paths lead where the root leads. -/
theorem follow_front (h : s.get root = .ok (position, .dir entries)) :
    s.follow linkLimit [] root.front = .ok (.entry position (.dir entries)) := by
  obtain ⟨hnil, -, hfollow⟩ := resolve_ok_iff.1 (get_ok_iff.1 h)
  obtain ⟨piece, rest, hfront, hsplit | hsplit⟩ := Path.splitOn_eq_front hnil
  · rw [hfront, ← hsplit, hfollow]
  · rw [hsplit] at hfollow
    obtain ⟨links, q, es, hq, hlast⟩ :=
      follow_of_append s.isDirectory_nil (List.cons_ne_nil [] []) hfollow
    rw [follow_idle rfl, follow_nil (sound_of_follow s.isDirectory_nil hq).1] at hlast
    rw [hfront, hq, hlast]

/-- Names behind a directory lead to the entry that stands there, if none of them is a link. -/
theorem follow_names {links : Nat} {f : File} (hnames : ∀ n ∈ names, IsName n) (hne : names ≠ [])
    (h : s.find? (position ++ names) = some (.file f)) :
    s.follow links position names = .ok (.entry (position ++ names) (.file f)) := by
  induction names generalizing position with
  | nil => exact absurd rfl hne
  | cons n names ih =>
    obtain ⟨hn, hnames⟩ := List.forall_mem_cons.1 hnames
    rw [← List.singleton_append, ← List.append_assoc] at h ⊢
    by_cases hnil : names = []
    · subst hnil
      rw [List.append_nil, List.append_nil] at *
      exact follow_file hn.toIsStep h
    · obtain ⟨es, hes⟩ := isDirectory_of_append hnil h
      rw [List.singleton_append, follow_dir hn.toIsStep hes]
      exact ih hnames hnil h

/-- **A path below a directory leads to a file at its own names if that is where the file is**, and
if the path is not too long. -/
theorem get_below (h : s.get root = .ok (position, .dir entries)) (hne : names ≠ [])
    (hnames : ∀ n ∈ names, IsName n) {f : File} :
    s.get (root.below names) = .ok (position ++ names, .file f) ↔
      (root.below names).bytes.length < pathLimit ∧
        s.find? (position ++ names) = some (.file f) := by
  rw [get_ok_iff, resolve_ok_iff, Path.splitOn_below root hne hnames]
  constructor
  · rintro ⟨-, hshort, hfollow⟩
    exact ⟨hshort, (sound_of_follow s.isDirectory_nil hfollow).1⟩
  · rintro ⟨hshort, hfile⟩
    obtain ⟨links, hfollow⟩ := follow_append (follow_front h) names
    rw [follow_names hnames hne hfile] at hfollow
    exact ⟨Path.bytes_below_ne_nil root hne hnames, hshort, hfollow⟩

end Outline.Store
