import Outline.Proofs.Encoding
import Outline.Proofs.StoreView

/-!
# Where paths lead

`Store.follow` counts the links that it may still take.  Here the way that a path takes is a relation,
with the links counted as they come.

* `Store.Leads` — a way from a directory along the pieces of a path to an entry;
* `Store.Resolves` — a path leads to an entry, over no more links than the limit;
* `Store.follow_eq_entry_iff`, `Store.get_ok_iff_resolves` — `follow` finds the ways within its
  number of links, and `get` what a path resolves to;
* `Store.HoldsText`, `Store.readText_ok_iff` — a path can be read as a text exactly if it resolves to
  a file whose bytes are the UTF-8 form of that text.
-/

namespace Outline.Store

/-- `s.Leads links names pieces place e`: from the directory under `names`, the pieces of a path lead
to the entry `e` under `place`, and `links` links are taken on the way.  A file is met by the last
piece only; a link stands for the pieces of its target. -/
inductive Leads (s : Store) : Nat → List Bytes → List Bytes → List Bytes → Entry → Prop
  | here {names : List Bytes} {e : Entry} : s.find? names = some e → Leads s 0 names [] names e
  | idle {links : Nat} {names rest place : List Bytes} {piece : Bytes} {e : Entry} :
      Path.idle piece = true → Leads s links names rest place e →
      Leads s links names (piece :: rest) place e
  | up {links : Nat} {names rest place : List Bytes} {e : Entry} :
      Leads s links names.dropLast rest place e →
      Leads s links names ([Path.dot, Path.dot] :: rest) place e
  | enter {links : Nat} {names rest place : List Bytes} {piece : Bytes} {es : Entries} {e : Entry} :
      IsStep piece → s.find? (names ++ [piece]) = some (.dir es) →
      Leads s links (names ++ [piece]) rest place e → Leads s links names (piece :: rest) place e
  | file {names : List Bytes} {piece : Bytes} {f : File} :
      IsStep piece → s.find? (names ++ [piece]) = some (.file f) →
      Leads s 0 names [piece] (names ++ [piece]) (.file f)
  | link {links : Nat} {names rest place : List Bytes} {piece : Bytes} {target : Path} {e : Entry} :
      IsStep piece → s.find? (names ++ [piece]) = some (.link target) →
      Leads s links (if target.isAbsolute then [] else names)
        (target.bytes.splitOn Path.slash ++ rest) place e →
      Leads s (links + 1) names (piece :: rest) place e

variable {s : Store}

/-- A way is followed to its end with any number of links that is enough. -/
theorem Leads.follow {k links : Nat} {names pieces place : List Bytes} {e : Entry}
    (h : s.Leads k names pieces place e) (hk : k ≤ links) :
    s.follow links names pieces = .ok (.entry place e) := by
  induction h generalizing links with
  | here he => exact follow_nil he
  | idle hidle _ ih => rw [follow_idle hidle, ih hk]
  | up _ ih => rw [follow_up, ih hk]
  | enter hstep he _ ih => rw [follow_dir hstep he, ih hk]
  | file hstep he => exact follow_file hstep he
  | link hstep he _ ih =>
    obtain ⟨links, rfl⟩ := Nat.exists_eq_add_of_le' (Nat.le_of_add_left_le hk)
    rw [follow_link hstep he, ih (Nat.le_of_add_le_add_right hk)]

/-- **What is followed to an entry is a way**, and takes no more links than allowed. -/
theorem exists_leads_of_follow {links : Nat} {names pieces place : List Bytes} {e : Entry}
    (h : s.follow links names pieces = .ok (.entry place e)) :
    ∃ k ≤ links, s.Leads k names pieces place e := by
  fun_induction follow s links names pieces with
  | case1 links names e he =>
    cases h
    exact ⟨0, Nat.zero_le links, .here he⟩
  | case2 => cases h
  | case3 links names piece rest hidle ih =>
    obtain ⟨k, hk, hleads⟩ := ih h
    exact ⟨k, hk, .idle hidle hleads⟩
  | case4 links names rest _ ih =>
    obtain ⟨k, hk, hleads⟩ := ih h
    exact ⟨k, hk, .up hleads⟩
  | case5 => cases h
  | case6 => cases h
  | case7 => cases h
  | case8 links names piece rest hidle hup hlen es he ih =>
    obtain ⟨k, hk, hleads⟩ := ih h
    exact ⟨k, hk, .enter (isStep_of_not hidle hup hlen) he hleads⟩
  | case9 links names piece hidle hup hlen f he =>
    cases h
    exact ⟨0, Nat.zero_le links, .file (isStep_of_not hidle hup hlen) he⟩
  | case10 => cases h
  | case11 => cases h
  | case12 names piece rest hidle hup hlen target he links ih =>
    obtain ⟨k, hk, hleads⟩ := ih h
    exact ⟨k + 1, Nat.succ_le_succ hk, .link (isStep_of_not hidle hup hlen) he (by simpa using hleads)⟩

theorem follow_eq_entry_iff {links : Nat} {names pieces place : List Bytes} {e : Entry} :
    s.follow links names pieces = .ok (.entry place e) ↔
      ∃ k ≤ links, s.Leads k names pieces place e := by
  constructor
  · exact exists_leads_of_follow
  · rintro ⟨k, hk, h⟩
    exact h.follow hk

/-- A path leads from the root to an entry: it is not empty, not too long, and takes no more links
than the limit. -/
structure Resolves (s : Store) (p : Path) (place : List Bytes) (e : Entry) : Prop where
  nonempty : p.bytes ≠ []
  short : p.bytes.length < pathLimit
  leads : ∃ k ≤ linkLimit, s.Leads k [] (p.bytes.splitOn Path.slash) place e

/-- **What is got is what a path resolves to.** -/
theorem get_ok_iff_resolves {p : Path} {place : List Bytes} {e : Entry} :
    s.get p = .ok (place, e) ↔ s.Resolves p place e := by
  rw [get_ok_iff, resolve_ok_iff, follow_eq_entry_iff]
  exact ⟨fun h => ⟨h.1, h.2.1, h.2.2⟩, fun h => ⟨h.nonempty, h.short, h.leads⟩⟩

theorem read_ok_iff {p : Path} {f : File} :
    s.read p = .ok f ↔ ∃ place, s.Resolves p place (.file f) := by
  simp only [← get_ok_iff_resolves]
  rw [read]
  cases s.get p with
  | error e => simp
  | ok r =>
    obtain ⟨place, e⟩ := r
    cases e <;> simp

/-- A path leads to a file whose bytes are the UTF-8 form of a text. -/
structure HoldsText (s : Store) (p : Path) (t : Text) (f : File) : Prop where
  resolves : ∃ place, s.Resolves p place (.file f)
  bytes : f.bytes = t.utf8

/-- **A text is read exactly where a path holds one.** -/
theorem readText_ok_iff {p : Path} {t : Text} {f : File} :
    s.readText p = .ok (t, f) ↔ s.HoldsText p t f := by
  have hholds : s.HoldsText p t f ↔ s.read p = .ok f ∧ Utf8.decode? f.bytes = some t := by
    rw [read_ok_iff, Utf8.decode?_eq_some_iff_eq_utf8]
    exact ⟨fun h => ⟨h.resolves, h.bytes⟩, fun h => ⟨h.1, h.2⟩⟩
  rw [hholds, readText]
  cases s.read p with
  | error e => simp
  | ok g =>
    simp only [Except.ok.injEq]
    cases hdecode : Utf8.decode? g.bytes with
    | none =>
      constructor
      · intro h
        cases h
      · rintro ⟨rfl, h⟩
        rw [hdecode] at h
        cases h
    | some u =>
      constructor
      · intro h
        cases h
        exact ⟨rfl, hdecode⟩
      · rintro ⟨rfl, h⟩
        rw [hdecode] at h
        cases h
        rfl

end Outline.Store
