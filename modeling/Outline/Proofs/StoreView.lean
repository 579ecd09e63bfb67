import Mathlib.Data.List.Infix
import Outline.Store

/-!
# What a store shows

The entries of a store by their names, and where paths lead.

* `Store.shown?` — what stands under a list of names, directories without what they hold;
* `Store.shown?_put` — what a store shows after an entry was put into it;
* `Store.IsStep`, `Store.follow_dir`, … — one step along a path for each kind of piece;
* `Store.sound_of_follow` — a path leads to an entry that is there, or to a free name;
* `Store.write_ok`, `Store.exists_write_iff` — which paths can be written, and what that does;
* `Store.shown?_put_file`, `Store.get_put_file`, `Store.get_of_write` — a written file is found
  under its path, and all else stays;
* `Store.follow_append`, `Store.follow_of_append` — a path that goes on behind a directory.
-/

namespace Outline

/-! ### Entries under names -/

namespace Entry

/-- An entry without what it holds, if it is a directory. -/
def closed : Entry → Entry
  | .dir _ => .dir []
  | e => e

/-- The entry under a list of names in an entry; the entry itself under none. -/
def at? : Entry → List Bytes → Option Entry
  | e, [] => some e
  | .dir es, name :: names => Entries.walk? es (name :: names)
  | _, _ => none

theorem at?_nil (e : Entry) : e.at? [] = some e := by
  cases e <;> rfl

theorem at?_dir (es : Entries) (names : List Bytes) : at? (.dir es) names = es.walk? names := by
  cases names <;> rfl

end Entry

namespace Entries

theorem walk?_cons (es : Entries) (name : Bytes) (names : List Bytes) :
    es.walk? (name :: names) = (es.get? name).bind (·.at? names) := by
  cases h : es.get? name with
  | none => cases names <;> simp [walk?, h]
  | some e => cases names <;> cases e <;> simp [walk?, h, Entry.at?]

theorem walk?_append (es : Entries) (a b : List Bytes) :
    es.walk? (a ++ b) = (es.walk? a).bind (·.at? b) := by
  induction a generalizing es with
  | nil => exact (Entry.at?_dir es b).symm
  | cons name a ih =>
    rw [List.cons_append, walk?_cons, walk?_cons, Option.bind_assoc]
    congr 1
    funext e
    cases e with
    | dir inner => rw [Entry.at?_dir, Entry.at?_dir, ih]
    | file f => cases a <;> rfl
    | link t => cases a <;> rfl

/-! ### Putting entries -/

/-- The entries of the directory with a name; none if it is none. -/
def inner (es : Entries) (name : Bytes) : Entries :=
  match get? es name with
  | some (.dir inner) => inner
  | _ => []

theorem put_cons_cons (es : Entries) (e : Entry) (name n : Bytes) (names : List Bytes) :
    put e (name :: n :: names) es = set name (.dir (put e (n :: names) (es.inner name))) es := by
  rw [put]
  · rfl
  · exact List.cons_ne_nil n names

theorem walk?_set (es : Entries) (name : Bytes) (e : Entry) (m : Bytes) (ms : List Bytes) :
    (set name e es).walk? (m :: ms) = if name = m then e.at? ms else es.walk? (m :: ms) := by
  rw [walk?_cons, get?_set, walk?_cons]
  split <;> rfl

theorem walk?_inner (es : Entries) (name m : Bytes) (ms : List Bytes) :
    (es.inner name).walk? (m :: ms) = es.walk? (name :: m :: ms) := by
  rw [walk?_cons es]
  unfold inner
  cases h : es.get? name with
  | none => rfl
  | some e => cases e <;> rfl

/-- What a directory shows after an entry was put into it. -/
theorem closed_walk?_put (es : Entries) (e : Entry) {names : List Bytes} (hne : names ≠ [])
    (ms : List Bytes) : ((put e names es).walk? ms).map Entry.closed =
      if names <+: ms then (e.at? (ms.drop names.length)).map Entry.closed
      else if ms <+: names then some (.dir [])
      else (es.walk? ms).map Entry.closed := by
  induction names generalizing es ms with
  | nil => exact absurd rfl hne
  | cons name names ih =>
    cases ms with
    | nil => simp [walk?, Entry.closed]
    | cons m ms =>
      by_cases hm : name = m
      · subst hm
        cases names with
        | nil => simp [put, walk?_set]
        | cons n names =>
          rw [put_cons_cons, walk?_set, if_pos rfl, Entry.at?_dir, ih _ (List.cons_ne_nil n names)]
          simp only [List.cons_prefix_cons, true_and, List.drop_succ_cons, List.length_cons]
          cases ms with
          | nil => simp
          | cons m ms => rw [walk?_inner]
      · have hset : (put e (name :: names) es).walk? (m :: ms) = es.walk? (m :: ms) := by
          cases names with
          | nil => rw [put, walk?_set, if_neg hm]
          | cons n names => rw [put_cons_cons, walk?_set, if_neg hm]
        simp [hset, hm, Ne.symm hm]

end Entries

namespace Store

/-- What stands under a list of names, directories without what they hold. -/
def shown? (s : Store) (names : List Bytes) : Option Entry := (s.find? names).map Entry.closed

theorem find?_append (s : Store) (a b : List Bytes) :
    s.find? (a ++ b) = (s.find? a).bind (·.at? b) := s.entries.walk?_append a b

theorem shown?_put (s : Store) (e : Entry) {names : List Bytes} (hne : names ≠ [])
    (ms : List Bytes) : (s.put names e).shown? ms =
      if names <+: ms then (e.at? (ms.drop names.length)).map Entry.closed
      else if ms <+: names then some (.dir [])
      else s.shown? ms := s.entries.closed_walk?_put e hne ms

/-- Whether a list of names leads to a directory. -/
def IsDirectory (s : Store) (names : List Bytes) : Prop := ∃ es, s.find? names = some (.dir es)

theorem isDirectory_iff {s : Store} {names : List Bytes} :
    s.IsDirectory names ↔ s.shown? names = some (.dir []) := by
  unfold IsDirectory shown?
  cases s.find? names with
  | none => simp
  | some e => cases e <;> simp [Entry.closed]

theorem find?_of_shown? {s : Store} {names : List Bytes} {e : Entry}
    (h : s.shown? names = some e) : ∃ e', s.find? names = some e' ∧ e'.closed = e :=
  Option.map_eq_some_iff.1 h

theorem find?_file_iff {s : Store} {names : List Bytes} {f : File} :
    s.find? names = some (.file f) ↔ s.shown? names = some (.file f) := by
  unfold shown?
  cases s.find? names with
  | none => simp
  | some e => cases e <;> simp [Entry.closed]

theorem find?_link_iff {s : Store} {names : List Bytes} {t : Path} :
    s.find? names = some (.link t) ↔ s.shown? names = some (.link t) := by
  unfold shown?
  cases s.find? names with
  | none => simp
  | some e => cases e <;> simp [Entry.closed]

theorem find?_none_iff {s : Store} {names : List Bytes} :
    s.find? names = none ↔ s.shown? names = none := by
  simp [shown?]

theorem isDirectory_nil (s : Store) : s.IsDirectory [] := ⟨s.entries, rfl⟩

/-- On the way to an entry there are only directories. -/
theorem isDirectory_of_append {s : Store} {a b : List Bytes} (hb : b ≠ []) {e : Entry}
    (h : s.find? (a ++ b) = some e) : s.IsDirectory a := by
  rw [find?_append] at h
  obtain ⟨d, hd, hat⟩ := Option.bind_eq_some_iff.1 h
  obtain ⟨n, b, rfl⟩ := List.exists_cons_of_ne_nil hb
  cases d with
  | dir es => exact ⟨es, hd⟩
  | file f => cases hat
  | link t => cases hat

theorem IsDirectory.dropLast {s : Store} {names : List Bytes} (h : s.IsDirectory names) :
    s.IsDirectory names.dropLast := by
  obtain ⟨es, hes⟩ := h
  rcases List.eq_nil_or_concat names with rfl | ⟨front, name, rfl⟩
  · exact s.isDirectory_nil
  · rw [List.concat_eq_append] at hes ⊢
    rw [List.dropLast_concat]
    exact isDirectory_of_append (List.cons_ne_nil name []) hes

theorem IsDirectory.of_prefix {s : Store} {names ms : List Bytes} (h : s.IsDirectory names)
    (hpre : ms <+: names) : s.IsDirectory ms := by
  obtain ⟨r, rfl⟩ := hpre
  by_cases hr : r = []
  · rwa [hr, List.append_nil] at h
  · obtain ⟨es, hes⟩ := h
    exact isDirectory_of_append hr hes

/-! ### Steps along a path -/

/-- A piece of a path that is a name. -/
structure IsStep (piece : Bytes) : Prop where
  busy : Path.idle piece = false
  down : piece ≠ [Path.dot, Path.dot]
  short : piece.length ≤ nameLimit

/-- A piece that no other case of a step takes is a name. -/
theorem isStep_of_not {piece : Bytes} (hidle : ¬Path.idle piece = true)
    (hup : piece ≠ [Path.dot, Path.dot]) (hlen : ¬piece.length > nameLimit) : IsStep piece :=
  ⟨Bool.not_eq_true _ ▸ hidle, hup, Nat.not_lt.1 hlen⟩

section Steps

variable {s : Store} {links : Nat} {names : List Bytes} {piece : Bytes} {rest : List Bytes}

theorem follow_nil {e : Entry} (h : s.find? names = some e) :
    s.follow links names [] = .ok (.entry names e) := by
  rw [follow, h]

theorem follow_idle (h : Path.idle piece = true) :
    s.follow links names (piece :: rest) = s.follow links names rest := by
  rw [follow, if_pos h]

theorem follow_up : s.follow links names ([Path.dot, Path.dot] :: rest) =
    s.follow links names.dropLast rest := by
  rw [follow, if_neg (by decide), if_pos rfl]

theorem follow_dir (h : IsStep piece) {es : Entries}
    (he : s.find? (names ++ [piece]) = some (.dir es)) :
    s.follow links names (piece :: rest) = s.follow links (names ++ [piece]) rest := by
  rw [follow, if_neg (by rw [h.busy]; decide), if_neg h.down, if_neg (Nat.not_lt.2 h.short), he]

theorem follow_free (h : IsStep piece) (he : s.find? (names ++ [piece]) = none) :
    s.follow links names [piece] = .ok (.vacant names piece) := by
  rw [follow, if_neg (by rw [h.busy]; decide), if_neg h.down, if_neg (Nat.not_lt.2 h.short), he]
  rfl

theorem follow_file (h : IsStep piece) {f : File}
    (he : s.find? (names ++ [piece]) = some (.file f)) :
    s.follow links names [piece] = .ok (.entry (names ++ [piece]) (.file f)) := by
  rw [follow, if_neg (by rw [h.busy]; decide), if_neg h.down, if_neg (Nat.not_lt.2 h.short), he]
  rfl

theorem follow_link (h : IsStep piece) {target : Path}
    (he : s.find? (names ++ [piece]) = some (.link target)) :
    s.follow (links + 1) names (piece :: rest) =
      s.follow links (if target.isAbsolute then [] else names)
        (target.bytes.splitOn Path.slash ++ rest) := by
  rw [follow, if_neg (by rw [h.busy]; decide), if_neg h.down, if_neg (Nat.not_lt.2 h.short), he]

end Steps

/-- A place that a path can lead to: an entry that is there and no link, or a free name in a
directory. -/
def Place.Sound (s : Store) : Place → Prop
  | .entry names e => s.find? names = some e ∧
      (s.IsDirectory names ∨ ∃ d n f, names = d ++ [n] ∧ s.IsDirectory d ∧ e = .file f)
  | .vacant d n => s.IsDirectory d ∧ s.find? (d ++ [n]) = none

theorem sound_of_follow {s : Store} {links : Nat} {names pieces : List Bytes} {place : Place}
    (hd : s.IsDirectory names) (h : s.follow links names pieces = .ok place) : place.Sound s := by
  fun_induction follow s links names pieces with
  | case1 links names e he => cases h; exact ⟨he, Or.inl hd⟩
  | case2 links names he => cases h
  | case3 links names piece rest hidle ih => exact ih hd h
  | case4 links names rest _ ih => exact ih hd.dropLast h
  | case5 => cases h
  | case6 links names piece _ _ _ he => cases h; exact ⟨hd, he⟩
  | case7 => cases h
  | case8 links names piece rest _ _ _ es he ih => exact ih ⟨es, he⟩ h
  | case9 links names piece _ _ _ f he =>
    cases h
    exact ⟨he, Or.inr ⟨names, piece, f, rfl, hd, rfl⟩⟩
  | case10 => cases h
  | case11 => cases h
  | case12 names piece rest _ _ _ target he links ih =>
    apply ih _ h
    split
    · exact s.isDirectory_nil
    · exact hd

/-! ### Two stores -/

/-- The names of a place. -/
def Place.names : Place → List Bytes
  | .entry names _ => names
  | .vacant d n => d ++ [n]

/-- A place where a file may be written: a free name, or a file. -/
def Place.Writable : Place → Prop
  | .entry _ e => ∃ f, e = .file f
  | .vacant _ _ => True

/-- Where all but files stays, and a file comes to stand at the end of a path, the path leads to
that file. -/
theorem follow_of_kept {s s' : Store} {links : Nat} {names pieces : List Bytes} {place : Place}
    (hkept : ∀ ms e, s.find? ms = some e → (∀ f, e ≠ .file f) → s'.shown? ms = some e.closed)
    (h : s.follow links names pieces = .ok place) (hw : place.Writable) {f : File}
    (hf : s'.find? place.names = some (.file f)) :
    s'.follow links names pieces = .ok (.entry place.names (.file f)) := by
  fun_induction follow s links names pieces with
  | case1 links names e he => cases h; exact follow_nil hf
  | case2 links names he => cases h
  | case3 links names piece rest hidle ih => rw [follow_idle hidle]; exact ih h
  | case4 links names rest _ ih => rw [follow_up]; exact ih h
  | case5 => cases h
  | case6 links names piece hidle hup hlen he =>
    cases h
    exact follow_file (isStep_of_not hidle hup hlen) hf
  | case7 => cases h
  | case8 links names piece rest hidle hup hlen es he ih =>
    obtain ⟨es', he'⟩ := isDirectory_iff.2 (hkept _ _ he (by simp))
    rw [follow_dir (isStep_of_not hidle hup hlen) he']
    exact ih h
  | case9 links names piece hidle hup hlen g he =>
    cases h
    exact follow_file (isStep_of_not hidle hup hlen) hf
  | case10 => cases h
  | case11 => cases h
  | case12 names piece rest hidle hup hlen target he links ih =>
    have he' := find?_link_iff.2 (hkept _ _ he (by simp))
    rw [follow_link (isStep_of_not hidle hup hlen) he']
    have ih := ih h
    simpa using ih

/-- Whether a file can be written under a path. -/
def Writable (s : Store) (p : Path) : Prop :=
  p.bytes.getLast? ≠ some Path.slash ∧ ∃ place, s.resolve p = .ok place ∧ place.Writable

theorem resolve_ok_iff {s : Store} {p : Path} {place : Place} : s.resolve p = .ok place ↔
    p.bytes ≠ [] ∧ p.bytes.length < pathLimit ∧
      s.follow linkLimit [] (p.bytes.splitOn Path.slash) = .ok place := by
  unfold resolve
  split
  · rename_i hnil
    simp [hnil]
  split
  · rename_i hlong
    simp [Nat.not_lt.2 hlong]
  · rename_i hnil hlong
    simp [hnil, Nat.not_le.1 hlong]

theorem get_ok_iff {s : Store} {p : Path} {names : List Bytes} {e : Entry} :
    s.get p = .ok (names, e) ↔ s.resolve p = .ok (.entry names e) := by
  unfold get
  split <;> simp_all

theorem bytes_ne_nil_of_get {s : Store} {p : Path} {names : List Bytes} {e : Entry}
    (h : s.get p = .ok (names, e)) : p.bytes ≠ [] := (resolve_ok_iff.1 (get_ok_iff.1 h)).1

/-- What a path leads to is there. -/
theorem find?_of_get {s : Store} {p : Path} {names : List Bytes} {e : Entry}
    (h : s.get p = .ok (names, e)) : s.find? names = some e :=
  (sound_of_follow s.isDirectory_nil (resolve_ok_iff.1 (get_ok_iff.1 h)).2.2).1

/-- A file is written by putting it at the place to which its path leads. -/
theorem write_ok {s s' : Store} {p : Path} {bytes : Bytes} :
    s.write p bytes = .ok s' ↔ p.bytes.getLast? ≠ some Path.slash ∧
      ∃ place, s.resolve p = .ok place ∧ place.Writable ∧
        s' = s.put place.names (.file ⟨bytes, none⟩) := by
  unfold write
  split
  · rename_i hslash
    simp [hslash]
  · rename_i hslash
    cases hr : s.resolve p with
    | error e => simp
    | ok place =>
      have hsound := sound_of_follow s.isDirectory_nil (resolve_ok_iff.1 hr).2.2
      cases place with
      | vacant d n => simp [hslash, Place.Writable, Place.names, eq_comm]
      | entry names e =>
        cases e with
        | file f => simp [hslash, Place.Writable, Place.names, eq_comm]
        | dir es => simp [Place.Writable]
        | link t =>
          obtain ⟨he, ⟨es, hes⟩ | ⟨d, n, f, -, -, hf⟩⟩ := hsound
          · rw [he] at hes
            cases hes
          · cases hf

/-- **Whether a file can be written depends on its path alone.** -/
theorem exists_write_iff {s : Store} {p : Path} {bytes : Bytes} :
    (∃ s', s.write p bytes = .ok s') ↔ s.Writable p := by
  simp only [write_ok, Writable]
  constructor
  · rintro ⟨s', hslash, place, hr, hw, -⟩
    exact ⟨hslash, place, hr, hw⟩
  · rintro ⟨hslash, place, hr, hw⟩
    exact ⟨_, hslash, place, hr, hw, rfl⟩

/-- A file that is put at a free name, or over a file, takes the place of nothing else. -/
theorem shown?_put_file {s : Store} {d : List Bytes} {n : Bytes} (hd : s.IsDirectory d)
    (hfree : ∀ e, s.find? (d ++ [n]) = some e → ∃ f, e = .file f) (f : File) {ms : List Bytes}
    (hms : ms ≠ d ++ [n]) : (s.put (d ++ [n]) (.file f)).shown? ms = s.shown? ms := by
  rw [shown?_put s _ (by simp)]
  split
  · rename_i hpre
    obtain ⟨r, rfl⟩ := hpre
    have hr : r ≠ [] := by
      rintro rfl
      exact hms (List.append_nil _)
    obtain ⟨m, r, rfl⟩ := List.exists_cons_of_ne_nil hr
    -- nothing is below a file, and nothing was below a free name
    have hnone : s.find? (d ++ [n] ++ m :: r) = none := by
      rw [Option.eq_none_iff_forall_ne_some]
      intro e he
      obtain ⟨es, hes⟩ := isDirectory_of_append hr he
      obtain ⟨g, hg⟩ := hfree _ hes
      cases hg
    rw [List.drop_left, find?_none_iff.1 hnone]
    rfl
  split
  · rename_i hpre
    have hpre : ms <+: d := (List.prefix_concat_iff.1 hpre).resolve_left hms
    exact (isDirectory_iff.1 (hd.of_prefix hpre)).symm
  · rfl

/-- **What is put at the end of a path is found under it.** -/
theorem get_put_file {s : Store} {p : Path} {place : Place} (hr : s.resolve p = .ok place)
    (hw : place.Writable) (f : File) :
    (s.put place.names (.file f)).get p = .ok (place.names, .file f) := by
  obtain ⟨hnil, hlong, hfollow⟩ := resolve_ok_iff.1 hr
  have hsound := sound_of_follow s.isDirectory_nil hfollow
  obtain ⟨d, n, hnames, hd, hfree⟩ : ∃ d n, place.names = d ++ [n] ∧ s.IsDirectory d ∧
      ∀ e, s.find? (d ++ [n]) = some e → ∃ f, e = .file f := by
    cases place with
    | vacant d n =>
      refine ⟨d, n, rfl, hsound.1, fun e he => ?_⟩
      rw [hsound.2] at he
      cases he
    | entry names e =>
      obtain ⟨f, rfl⟩ := hw
      obtain ⟨he, ⟨es, hes⟩ | ⟨d, n, g, rfl, hd, hg⟩⟩ := hsound
      · rw [he] at hes
        cases hes
      · refine ⟨d, n, rfl, hd, fun e' he' => ⟨f, ?_⟩⟩
        rw [he] at he'
        exact (Option.some.inj he').symm
  have hput : (s.put place.names (.file f)).find? place.names = some (.file f) := by
    rw [find?_file_iff, hnames, shown?_put s _ (by simp), if_pos (List.prefix_refl _),
      List.drop_length]
    rfl
  have hkept : ∀ ms e, s.find? ms = some e → (∀ g, e ≠ .file g) →
      (s.put place.names (.file f)).shown? ms = some e.closed := by
    intro ms e he hne
    have hms : ms ≠ d ++ [n] := by
      rintro rfl
      obtain ⟨g, hg⟩ := hfree e he
      exact hne g hg
    rw [hnames, shown?_put_file hd hfree f hms, shown?, he]
    rfl
  exact get_ok_iff.2 (resolve_ok_iff.2 ⟨hnil, hlong, follow_of_kept hkept hfollow hw hput⟩)

/-- **What was written under a path is found under it.** -/
theorem get_of_write {s s' : Store} {p : Path} {bytes : Bytes} (h : s.write p bytes = .ok s') :
    ∃ names, s'.get p = .ok (names, .file ⟨bytes, none⟩) := by
  obtain ⟨-, place, hr, hw, rfl⟩ := write_ok.1 h
  exact ⟨place.names, get_put_file hr hw _⟩

/-! ### Paths put together -/

/-- A path behind a directory goes on from that directory. -/
theorem follow_append {s : Store} {links : Nat} {names front q : List Bytes} {es : Entries}
    (h : s.follow links names front = .ok (.entry q (.dir es))) (back : List Bytes) :
    ∃ links', s.follow links names (front ++ back) = s.follow links' q back := by
  fun_induction follow s links names front with
  | case1 links names e he => cases h; exact ⟨links, rfl⟩
  | case2 links names he => cases h
  | case3 links names piece rest hidle ih => rw [List.cons_append, follow_idle hidle]; exact ih h
  | case4 links names rest _ ih => rw [List.cons_append, follow_up]; exact ih h
  | case5 => cases h
  | case6 => cases h
  | case7 => cases h
  | case8 links names piece rest hidle hup hlen es he ih =>
    rw [List.cons_append, follow_dir (isStep_of_not hidle hup hlen) he]
    exact ih h
  | case9 => cases h
  | case10 => cases h
  | case11 => cases h
  | case12 names piece rest hidle hup hlen target he links ih =>
    rw [List.cons_append, follow_link (isStep_of_not hidle hup hlen) he]
    have ih := ih h
    simpa using ih

/-- The start of a path that leads somewhere leads to a directory. -/
theorem follow_of_append {s : Store} {links : Nat} {names front back : List Bytes} {place : Place}
    (hd : s.IsDirectory names) (hback : back ≠ [])
    (h : s.follow links names (front ++ back) = .ok place) :
    ∃ links' q es, s.follow links names front = .ok (.entry q (.dir es)) ∧
      s.follow links' q back = .ok place := by
  fun_induction follow s links names front with
  | case1 links names e he =>
    obtain ⟨es, hes⟩ := hd
    rw [he] at hes
    cases hes
    exact ⟨links, names, es, rfl, h⟩
  | case2 links names he =>
    obtain ⟨es, hes⟩ := hd
    rw [he] at hes
    cases hes
  | case3 links names piece rest hidle ih =>
    rw [List.cons_append, follow_idle hidle] at h
    exact ih hd h
  | case4 links names rest _ ih =>
    rw [List.cons_append, follow_up] at h
    exact ih hd.dropLast h
  | case5 links names piece rest hidle hup hlen => simp [follow, *] at h
  | case6 links names piece hidle hup hlen he => simp [follow, *] at h
  | case7 links names piece rest hidle hup hlen he => simp [follow, *] at h
  | case8 links names piece rest hidle hup hlen es he ih =>
    rw [List.cons_append, follow_dir (isStep_of_not hidle hup hlen) he] at h
    exact ih ⟨es, he⟩ h
  | case9 => simp [follow, *] at h
  | case10 => simp [follow, *] at h
  | case11 => simp [follow, *] at h
  | case12 names piece rest hidle hup hlen target he links ih =>
    rw [List.cons_append, follow_link (isStep_of_not hidle hup hlen) he] at h
    rw [← List.append_assoc] at h
    have hd' : s.IsDirectory (if target.isAbsolute = true then [] else names) := by
      split
      · exact s.isDirectory_nil
      · exact hd
    simpa using ih (by simpa using hd') (by simpa using h)

end Store

end Outline
