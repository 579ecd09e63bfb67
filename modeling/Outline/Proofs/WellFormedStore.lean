import Outline.Proofs.StoreView

/-!
# Well-formed stores

The stores that are file systems, and how they are made.

* `IsName` — the names that a directory can give;
* `Entry.WellFormed`, `Store.WellFormed` — every directory gives names only, and each to one
  entry;
* `Store.WellFormed.put`, `Store.WellFormed.add`, `Store.WellFormed.write` — all that changes a
  store keeps it well-formed;
* `Store.made` — the store that a list of entries makes, one after the other;
* `Store.shown?_made_perm` — what it shows does not depend on their order.
-/

namespace Outline

/-- A name that a directory can give to an entry. -/
structure IsName (name : Bytes) : Prop extends Store.IsStep name where
  whole : Path.slash ∉ name

instance (name : Bytes) : Decidable (IsName name) :=
  decidable_of_iff (Path.idle name = false ∧ name ≠ [Path.dot, Path.dot] ∧
      name.length ≤ Store.nameLimit ∧ Path.slash ∉ name)
    ⟨fun ⟨busy, down, short, whole⟩ => ⟨⟨busy, down, short⟩, whole⟩,
      fun h => ⟨h.busy, h.down, h.short, h.whole⟩⟩

theorem IsName.ne_nil {name : Bytes} (h : IsName name) : name ≠ [] := by
  rintro rfl
  exact absurd h.busy (by decide)

/-! ### Well-formed directories -/

namespace Entry

/-- Whether every directory in an entry gives names only, and each to one entry. -/
inductive WellFormed : Entry → Prop where
  | file (f : File) : WellFormed (.file f)
  | link (target : Path) : WellFormed (.link target)
  | dir {es : Entries} (distinct : (es.map (·.1)).Nodup) (named : ∀ m ∈ es, IsName m.1)
      (inner : ∀ m ∈ es, WellFormed m.2) : WellFormed (.dir es)

theorem wellFormed_dir_nil : (dir []).WellFormed :=
  .dir List.nodup_nil (List.forall_mem_nil _) (List.forall_mem_nil _)

end Entry

namespace Entries

theorem mem_of_get? {es : Entries} {name : Bytes} {e : Entry} (h : get? es name = some e) :
    (name, e) ∈ es := by
  obtain ⟨m, hm, rfl⟩ := Option.map_eq_some_iff.1 h
  have hname : m.1 = name := by simpa using List.find?_some hm
  exact hname ▸ List.mem_of_find?_eq_some hm

/-- Where names are distinct, the entry of a name is the one that stands with it. -/
theorem get?_eq_some_iff {es : Entries} (h : (es.map (·.1)).Nodup) {name : Bytes} {e : Entry} :
    get? es name = some e ↔ (name, e) ∈ es := by
  refine ⟨mem_of_get?, fun hmem => ?_⟩
  induction es with
  | nil => cases hmem
  | cons m es ih =>
    obtain ⟨hm, hes⟩ := List.nodup_cons.1 h
    rcases List.mem_cons.1 hmem with rfl | hmem
    · simp [get?]
    · have hne : (m.1 == name) = false := by
        rw [beq_eq_false_iff_ne]
        rintro rfl
        exact hm (List.mem_map.2 ⟨_, hmem, rfl⟩)
      have ih := ih hes hmem
      rw [get?, List.find?_cons, hne]
      exact ih

theorem mem_set {es : Entries} {name : Bytes} {e : Entry} {m : Bytes × Entry}
    (h : m ∈ set name e es) : m ∈ es ∨ m = (name, e) := by
  induction es with
  | nil => exact Or.inr (List.mem_singleton.1 h)
  | cons a es ih =>
    rw [set] at h
    split at h
    · rename_i hname
      rcases List.mem_cons.1 h with rfl | h
      · exact Or.inr (by rw [hname])
      · exact Or.inl (List.mem_cons_of_mem _ h)
    · rcases List.mem_cons.1 h with rfl | h
      · exact Or.inl List.mem_cons_self
      · exact (ih h).imp_left (List.mem_cons_of_mem _)

theorem map_fst_set (es : Entries) (name : Bytes) (e : Entry) : (set name e es).map (·.1) =
    if name ∈ es.map (·.1) then es.map (·.1) else es.map (·.1) ++ [name] := by
  induction es with
  | nil => rfl
  | cons a es ih =>
    by_cases h : a.1 = name
    · simp [set, h]
    · have hset : set name e (a :: es) = a :: set name e es := by rw [set, if_neg h]
      rw [hset, List.map_cons, List.map_cons, ih]
      by_cases hmem : name ∈ es.map (·.1)
      · rw [if_pos hmem, if_pos (List.mem_cons_of_mem _ hmem)]
      · rw [if_neg hmem, if_neg (by simpa [Ne.symm h] using hmem)]
        rfl

end Entries

namespace Entry.WellFormed

variable {es : Entries} {name : Bytes} {names : List Bytes} {e : Entry}

theorem set (h : (Entry.dir es).WellFormed) (hname : IsName name) (he : e.WellFormed) :
    (Entry.dir (Entries.set name e es)).WellFormed := by
  cases h with
  | dir distinct named inner =>
    refine .dir ?_ (fun m hm => ?_) fun m hm => ?_
    · rw [Entries.map_fst_set]
      split
      · exact distinct
      · rename_i hnew
        exact List.nodup_append.2 ⟨distinct, by simp, by
          rintro a ha b hb rfl
          exact hnew (List.mem_singleton.1 hb ▸ ha)⟩
    · rcases Entries.mem_set hm with hm | rfl
      · exact named m hm
      · exact hname
    · rcases Entries.mem_set hm with hm | rfl
      · exact inner m hm
      · exact he

theorem get? (h : (Entry.dir es).WellFormed) (he : es.get? name = some e) :
    IsName name ∧ e.WellFormed := by
  cases h with
  | dir distinct named inner =>
    exact ⟨named _ (Entries.mem_of_get? he), inner _ (Entries.mem_of_get? he)⟩

theorem inner (h : (Entry.dir es).WellFormed) (name : Bytes) :
    (Entry.dir (es.inner name)).WellFormed := by
  unfold Entries.inner
  split
  · rename_i hget
    exact (h.get? hget).2
  · exact wellFormed_dir_nil

theorem put (h : (Entry.dir es).WellFormed) (hnames : ∀ n ∈ names, IsName n) (he : e.WellFormed) :
    (Entry.dir (Entries.put e names es)).WellFormed := by
  induction names generalizing es with
  | nil => exact h
  | cons name names ih =>
    obtain ⟨hname, hnames⟩ := List.forall_mem_cons.1 hnames
    cases names with
    | nil => exact h.set hname he
    | cons n names =>
      rw [Entries.put_cons_cons]
      exact h.set hname (ih (h.inner name) hnames)

theorem walk? (h : (Entry.dir es).WellFormed) (he : es.walk? names = some e) :
    (∀ n ∈ names, IsName n) ∧ e.WellFormed := by
  induction names generalizing es with
  | nil =>
    cases he
    exact ⟨List.forall_mem_nil _, h⟩
  | cons name names ih =>
    rw [Entries.walk?_cons] at he
    obtain ⟨d, hd, hat⟩ := Option.bind_eq_some_iff.1 he
    obtain ⟨hname, hwell⟩ := h.get? hd
    cases names with
    | nil =>
      rw [Entry.at?_nil] at hat
      cases hat
      exact ⟨by simpa using hname, hwell⟩
    | cons n names =>
      cases d with
      | dir inner =>
        obtain ⟨hnames, he⟩ := ih hwell hat
        exact ⟨List.forall_mem_cons.2 ⟨hname, hnames⟩, he⟩
      | file f => cases hat
      | link t => cases hat

end Entry.WellFormed

/-! ### Well-formed stores -/

namespace Store

/-- Whether every directory of a store gives names only, and each to one entry. -/
def WellFormed (s : Store) : Prop := (Entry.dir s.entries).WellFormed

theorem wellFormed_empty : empty.WellFormed := Entry.wellFormed_dir_nil

namespace WellFormed

variable {s : Store} {names : List Bytes} {e : Entry}

theorem put (h : s.WellFormed) (hnames : ∀ n ∈ names, IsName n) (he : e.WellFormed) :
    (s.put names e).WellFormed :=
  Entry.WellFormed.put h hnames he

theorem find? (h : s.WellFormed) (he : s.find? names = some e) :
    (∀ n ∈ names, IsName n) ∧ e.WellFormed :=
  Entry.WellFormed.walk? h he

theorem add (h : s.WellFormed) (hnames : ∀ n ∈ names, IsName n) (he : e.WellFormed) :
    (s.add names e).WellFormed := by
  unfold Store.add
  split
  · exact h
  · exact h.put hnames he

end WellFormed

theorem slash_not_mem_splitOn (bytes : Bytes) :
    ∀ piece ∈ bytes.splitOn Path.slash, Path.slash ∉ piece := by
  induction bytes with
  | nil => simp
  | cons b bytes ih =>
    rw [List.splitOn_cons_eq_if_modifyHead]
    split
    · exact List.forall_mem_cons.2 ⟨List.not_mem_nil, ih⟩
    · rename_i hb
      obtain ⟨first, rest, hsplit⟩ :=
        List.exists_cons_of_ne_nil (List.splitOn_ne_nil Path.slash bytes)
      rw [hsplit] at ih ⊢
      obtain ⟨hfirst, hrest⟩ := List.forall_mem_cons.1 ih
      refine List.forall_mem_cons.2 ⟨?_, hrest⟩
      rw [List.mem_cons]
      rintro (rfl | hmem)
      · exact hb (beq_self_eq_true _)
      · exact hfirst hmem

/-- A free name to which a path leads can be given. -/
theorem isName_of_follow {s : Store} {links : Nat} {names pieces d : List Bytes} {n : Bytes}
    (hpieces : ∀ piece ∈ pieces, Path.slash ∉ piece)
    (h : s.follow links names pieces = .ok (.vacant d n)) : IsName n := by
  fun_induction follow s links names pieces with
  | case1 => cases h
  | case2 => cases h
  | case3 links names piece rest hidle ih => exact ih (List.forall_mem_cons.1 hpieces).2 h
  | case4 links names rest _ ih => exact ih (List.forall_mem_cons.1 hpieces).2 h
  | case5 => cases h
  | case6 links names piece hidle hup hlen he =>
    cases h
    exact ⟨isStep_of_not hidle hup hlen, (List.forall_mem_cons.1 hpieces).1⟩
  | case7 => cases h
  | case8 links names piece rest _ _ _ es he ih => exact ih (List.forall_mem_cons.1 hpieces).2 h
  | case9 => cases h
  | case10 => cases h
  | case11 => cases h
  | case12 names piece rest _ _ _ target he links ih =>
    refine ih (fun q hq => ?_) h
    rcases List.mem_append.1 hq with hq | hq
    · exact slash_not_mem_splitOn target.bytes q hq
    · exact (List.forall_mem_cons.1 hpieces).2 q hq

/-- **Writing keeps a store well-formed.** -/
theorem WellFormed.write {s s' : Store} {p : Path} {bytes : Bytes} (h : s.WellFormed)
    (hw : s.write p bytes = .ok s') : s'.WellFormed := by
  obtain ⟨-, place, hr, -, rfl⟩ := write_ok.1 hw
  have hfollow := (resolve_ok_iff.1 hr).2.2
  have hsound := sound_of_follow s.isDirectory_nil hfollow
  refine h.put ?_ (.file _)
  cases place with
  | entry names e => exact (h.find? hsound.1).1
  | vacant d n =>
    obtain ⟨es, hes⟩ := hsound.1
    intro m hm
    rcases List.mem_append.1 hm with hm | hm
    · exact (h.find? hes).1 m hm
    · rw [List.mem_singleton.1 hm]
      exact isName_of_follow (slash_not_mem_splitOn p.bytes) hfollow

/-! ### Stores made entry by entry -/

/-- The store that entries make, one after the other. -/
def made (l : List (List Bytes × Entry)) : Store := l.foldl (fun s m => s.add m.1 m.2) empty

theorem made_concat (l : List (List Bytes × Entry)) (m : List Bytes × Entry) :
    made (l ++ [m]) = (made l).add m.1 m.2 := List.foldl_append

/-- Whether entries can stand together in one store: files, links and directories to be filled,
of which only the directories have something below them. -/
structure Compatible (l : List (List Bytes × Entry)) : Prop where
  named : ∀ m ∈ l, m.1 ≠ [] ∧ ∀ n ∈ m.1, IsName n
  closed : ∀ m ∈ l, m.2.closed = m.2
  apart : ∀ a ∈ l, ∀ b ∈ l, a.1 <+: b.1 → a = b ∨ a.2 = .dir []

theorem Compatible.subset {l l' : List (List Bytes × Entry)} (h : Compatible l) (hl : l' ⊆ l) :
    Compatible l' :=
  ⟨fun m hm => h.named m (hl hm), fun m hm => h.closed m (hl hm),
    fun a ha b hb => h.apart a (hl ha) b (hl hb)⟩

theorem wellFormed_made {l : List (List Bytes × Entry)} (h : Compatible l) :
    (made l).WellFormed := by
  induction l using List.reverseRecOn with
  | nil => exact wellFormed_empty
  | append_singleton l m ih =>
    rw [made_concat]
    have hm : m ∈ l ++ [m] := by simp
    refine (ih (h.subset (List.subset_append_left l [m]))).add (h.named m hm).2 ?_
    have hclosed := h.closed m hm
    cases he : m.2 with
    | file f => exact .file f
    | link t => exact .link t
    | dir es =>
      rw [he] at hclosed
      cases hclosed
      exact Entry.wellFormed_dir_nil

/-- What entries say about a list of names: one of them stands there, or it leads to one of them,
or nothing is there. -/
inductive Describes (l : List (List Bytes × Entry)) (names : List Bytes) : Option Entry → Prop where
  | entry {e : Entry} (mem : (names, e) ∈ l) (solid : e ≠ .dir []) : Describes l names (some e)
  | directory (above : names = [] ∨ ∃ m ∈ l, names <+: m.1)
      (hollow : ∀ e, (names, e) ∈ l → e = .dir []) : Describes l names (some (.dir []))
  | nothing (below : names ≠ []) (apart : ∀ m ∈ l, ¬names <+: m.1) : Describes l names none

theorem Describes.unique {l : List (List Bytes × Entry)} {names : List Bytes} {a b : Option Entry}
    (h : Compatible l) (ha : Describes l names a) (hb : Describes l names b) : a = b := by
  cases ha with
  | @entry e mem solid =>
    cases hb with
    | @entry e' mem' solid' =>
      obtain heq | hdir := h.apart _ mem _ mem' (List.prefix_refl names)
      · rw [(Prod.mk.inj heq).2]
      · exact absurd hdir solid
    | directory _ hollow => exact absurd (hollow e mem) solid
    | nothing _ apart => exact absurd (List.prefix_refl names) (apart _ mem)
  | directory above hollow =>
    cases hb with
    | entry mem solid => exact absurd (hollow _ mem) solid
    | directory => rfl
    | nothing below apart =>
      obtain hnil | ⟨m, hm, hpre⟩ := above
      · exact absurd hnil below
      · exact absurd hpre (apart m hm)
  | nothing below apart =>
    cases hb with
    | entry mem solid => exact absurd (List.prefix_refl names) (apart _ mem)
    | directory above hollow =>
      obtain hnil | ⟨m, hm, hpre⟩ := above
      · exact absurd hnil below
      · exact absurd hpre (apart m hm)
    | nothing => rfl

/-- A list of names that is no start of those of one more entry is spoken of as before. -/
theorem Describes.concat {l : List (List Bytes × Entry)} {names : List Bytes} {o : Option Entry}
    {m : List Bytes × Entry} (h : Describes l names o) (hm : ¬names <+: m.1) :
    Describes (l ++ [m]) names o := by
  cases h with
  | entry mem solid => exact .entry (List.mem_append_left _ mem) solid
  | directory above hollow =>
    refine .directory (above.imp_right fun ⟨a, ha, hpre⟩ => ⟨a, List.mem_append_left _ ha, hpre⟩)
      fun e he => ?_
    rcases List.mem_append.1 he with he | he
    · exact hollow e he
    · exact absurd (List.mem_singleton.1 he ▸ List.prefix_refl names) hm
  | nothing below apart =>
    refine .nothing below fun a ha => ?_
    rcases List.mem_append.1 ha with ha | ha
    · exact apart a ha
    · rwa [List.mem_singleton.1 ha]

theorem at?_of_closed {e : Entry} (hclosed : e.closed = e) {names : List Bytes} (hne : names ≠ []) :
    e.at? names = none := by
  obtain ⟨name, names, rfl⟩ := List.exists_cons_of_ne_nil hne
  cases e with
  | file f => rfl
  | link t => rfl
  | dir es =>
    cases hclosed
    rw [Entry.at?_dir, Entries.walk?_cons]
    rfl

open Classical in
/-- What a store shows after one more entry. -/
theorem shown?_add (s : Store) {names : List Bytes} {e : Entry} (hne : names ≠ [])
    (hclosed : e.closed = e) (ms : List Bytes) : (s.add names e).shown? ms =
      if names = ms then some e
      else if names <+: ms then if s.IsDirectory names ∧ e = .dir [] then s.shown? ms else none
      else if ms <+: names then some (.dir [])
      else s.shown? ms := by
  by_cases hkept : s.IsDirectory names ∧ e = .dir []
  · obtain ⟨⟨es, hes⟩, rfl⟩ := hkept
    have hadd : s.add names (.dir []) = s := by
      unfold add
      rw [hes]
    rw [hadd]
    split
    · rename_i heq
      rw [← heq]
      exact isDirectory_iff.1 ⟨es, hes⟩
    split
    · rw [if_pos ⟨⟨es, hes⟩, rfl⟩]
    split
    · rename_i hpre
      obtain ⟨r, rfl⟩ := hpre
      refine isDirectory_iff.1 (isDirectory_of_append ?_ hes)
      rintro rfl
      simp_all
    · rfl
  · have hadd : s.add names e = s.put names e := by
      unfold add
      split
      · rename_i es _ hes
        cases hclosed
        exact absurd ⟨⟨es, hes⟩, rfl⟩ hkept
      · rfl
    rw [hadd, shown?_put s e hne, if_neg hkept]
    split
    · rename_i hpre
      obtain ⟨r, rfl⟩ := hpre
      rw [List.drop_left]
      by_cases hr : r = []
      · simp [hr, Entry.at?_nil, hclosed]
      · simp [hr, at?_of_closed hclosed hr]
    · rename_i hnot
      have hne' : names ≠ ms := fun heq => hnot (heq ▸ List.prefix_refl names)
      rw [if_neg hne']

/-- **A store that entries make shows what they say.** -/
theorem describes_shown?_made {l : List (List Bytes × Entry)} (h : Compatible l)
    (names : List Bytes) : Describes l names ((made l).shown? names) := by
  induction l using List.reverseRecOn generalizing names with
  | nil =>
    cases names with
    | nil => exact .directory (Or.inl rfl) (by simp)
    | cons n names =>
      have hnone : (made []).shown? (n :: names) = none := by
        rw [shown?, find?, Entries.walk?_cons]
        rfl
      rw [hnone]
      exact .nothing (List.cons_ne_nil n names) (by simp)
  | append_singleton l m ih =>
    have hl : Compatible l := h.subset (List.subset_append_left l [m])
    have ih := ih hl
    have hlast : m ∈ l ++ [m] := by simp
    rw [made_concat, shown?_add _ (h.named m hlast).1 (h.closed m hlast)]
    split
    · rename_i heq
      subst heq
      by_cases hdir : m.2 = .dir []
      · rw [hdir]
        refine .directory (Or.inr ⟨m, hlast, List.prefix_refl _⟩) fun e he => ?_
        obtain heq | he := h.apart _ he m hlast (List.prefix_refl _)
        · rw [← hdir, ← heq]
        · exact he
      · exact .entry hlast hdir
    rename_i hne
    split
    · rename_i hpre
      have hnot : ¬names <+: m.1 := fun h => hne (hpre.eq_of_length_le h.length_le)
      split
      · exact (ih names).concat hnot
      · rename_i hnone
        refine .nothing (fun hnil => (h.named m hlast).1 (List.prefix_nil.1 (hnil ▸ hpre)))
          fun a ha hbelow => hnone ?_
        -- what is below `m` was there before, so that `m` is a directory and was one
        have hal : a ∈ l := by
          rcases List.mem_append.1 ha with ha | ha
          · exact ha
          · exact absurd (List.mem_singleton.1 ha ▸ hbelow) hnot
        have hdir : m.2 = .dir [] := by
          refine (h.apart m hlast a ha (hpre.trans hbelow)).resolve_left ?_
          rintro rfl
          exact hnot hbelow
        refine ⟨isDirectory_iff.2 ?_, hdir⟩
        refine (ih m.1).unique hl (.directory (Or.inr ⟨a, hal, hpre.trans hbelow⟩) fun e he => ?_)
        obtain heq | he := h.apart _ (List.mem_append_left _ he) m hlast (List.prefix_refl _)
        · rw [← hdir, ← heq]
        · exact he
    split
    · rename_i hpre
      refine .directory (Or.inr ⟨m, hlast, hpre⟩) fun e he => ?_
      refine (h.apart _ he m hlast hpre).resolve_left fun heq => hne ?_
      rw [← heq]
    · rename_i hnot
      exact (ih names).concat hnot

/-- **What a store shows does not depend on the order in which its entries were made.** -/
theorem shown?_made_perm {l l' : List (List Bytes × Entry)} (h : Compatible l) (hl : l.Perm l')
    (names : List Bytes) : (made l).shown? names = (made l').shown? names := by
  have h' : Compatible l' := h.subset hl.symm.subset
  have hshown := describes_shown?_made h names
  generalize (made l).shown? names = shown at hshown
  refine Describes.unique h' ?_ (describes_shown?_made h' names)
  cases hshown with
  | entry mem solid => exact .entry (hl.mem_iff.1 mem) solid
  | directory above hollow =>
    exact .directory (above.imp_right fun ⟨m, hm, hpre⟩ => ⟨m, hl.mem_iff.1 hm, hpre⟩)
      fun e he => hollow e (hl.mem_iff.2 he)
  | nothing below apart => exact .nothing below fun m hm => apart m (hl.mem_iff.2 hm)

end Store

end Outline
